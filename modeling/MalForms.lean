import MalForms.Text
import MalForms.Text.Printable
import MalForms.Text.LetterCase
import MalForms.Text.Digit
import MalForms.Text.Decimal
import MalForms.Text.Hex
import MalForms.Text.Blank
import MalForms.Text.Quoted
import MalForms.Text.Lines
import MalForms.Text.Utf16
import MalForms.Text.Utf8
import MalForms.SignedIndex
import MalForms.Form
import MalForms.Form.Same
import MalForms.Form.Distinct
import MalForms.Form.Printer
import MalForms.Form.Layout
import MalForms.Form.Display
import MalForms.Escape
import MalForms.Expectation
import MalForms.Lexeme
import MalForms.Form.Readable
import MalForms.Grammar
import MalForms.ParseError
import MalForms.Reader.Step
import MalForms.Reader
import MalForms.Reader.Shared
import MalForms.Datum
import MalForms.Form.Items
import MalForms.Path
import MalForms.Disk
import MalForms.Disk.Tree
import MalForms.Log
import MalForms.Host
import MalForms.Settings
import MalForms.Session
import MalForms.Transcript
import MalForms.Dialogue
import MalForms.Arguments
import MalForms.Arguments.Word
import MalForms.Arguments.Help
import MalForms.Arguments.Request
import MalForms.Command
import MalForms.Main
import MalForms.Proofs.Text.Lines
import MalForms.Proofs.Lexeme.Gap
import MalForms.Proofs.Lexeme.Literal
import MalForms.Proofs.Lexeme.Boundary
import MalForms.Proofs.Reader.Moves
import MalForms.Proofs.Reader.Reads
import MalForms.Proofs.Reader.Overlong
import MalForms.Proofs.Form.Erasure
import MalForms.Proofs.Form.Printing
import MalForms.Proofs.Form.Rows
import MalForms.Proofs.RoundTrip
import MalForms.Proofs.Layout
import MalForms.Proofs.Grammar.Rules
import MalForms.Proofs.Grammar.Agreement
import MalForms.Proofs.Reader.Extension
import MalForms.Proofs.Reader.Completion
import MalForms.Proofs.Reader.Cut
import MalForms.Proofs.Session.Feeding
import MalForms.Proofs.Reader.Shift
import MalForms.Proofs.Reader.Joining
import MalForms.Proofs.Reader.Restriction
import MalForms.Proofs.Reader.Spans
import MalForms.Proofs.Reader.Image
import MalForms.Proofs.Reader.Alike
import MalForms.Proofs.Reader.Spacing
import MalForms.Proofs.Reader.CutShort
import MalForms.Proofs.Reader.Sharing
import MalForms.Proofs.Session.Buffer
import MalForms.Proofs.Reader.LineEnd
import MalForms.Proofs.Session.Reading
import MalForms.Proofs.Session.History
import MalForms.Proofs.Command.Desk
import MalForms.Proofs.Command.Files
import MalForms.Proofs.Dialogue.Turns
import MalForms.Proofs.Dialogue.Modes
import MalForms.Proofs.Reader.Literals
import MalForms.Proofs.Reader.Expectations
import MalForms.Proofs.Reader.Wrapping
import MalForms.Proofs.PrefixFree
import MalForms.Proofs.Form.Comparison
import MalForms.Proofs.Lexeme.CodeUnits
import MalForms.Proofs.Dialogue.Interrupts
import MalForms.Proofs.Command.Checking
import MalForms.Proofs.Datum.Dictionary
import MalForms.Proofs.Settings.Entries
import MalForms.Proofs.Settings.RoundTrip
import MalForms.Proofs.Command.Shorthand
import MalForms.Proofs.Arguments.Operands
import MalForms.Proofs.Path.Directories
import MalForms.Proofs.Settings.Nearest
import MalForms.Proofs.Reader.Locations
import MalForms.Proofs.Reader.Iterations
