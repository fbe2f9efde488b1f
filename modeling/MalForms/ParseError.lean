import MalForms.Expectation
import MalForms.SignedIndex
import MalForms.Text.Decimal
import MalForms.Text.Lines
import MalForms.Text.Quoted

/-!
# Parse errors

A report that source text breaks off the grammar: where, what was expected there, what was found, and the line it is on.
-/

namespace MalForms

structure ParseError where
  /-- The offset of the failure. -/
  pos : Int
  line : Int
  col : Int
  /-- The names of the alternatives, in order. -/
  expected : List Text
  /-- The code point at the failure; none at the end of the source. -/
  found : Option CodePoint
  /-- The line of the source with the failure. -/
  text : Text
  filename : Text
deriving DecidableEq

namespace ParseError

/-- The error at a place of a source, with the names in order. -/
def report (source : Text) (place : Nat) (expected : List Text) (pos line col : Int) (filename : Text)
    (found : Option CodePoint) : ParseError :=
  { pos, line, col, expected := expected.mergeSort Text.le, found, text := source.lineAround place, filename }

/-- The error at offset `pos` of a source. An offset past the end is at the end and a negative one counts from it;
there is no error at an offset before the front. -/
def make (source : Text) (pos : Int) (expected : List Text) (line col : Int) (filename : Text) :
    Except SignedIndex.Fault ParseError :=
  let error := report source (SignedIndex.clamp source.length pos) expected pos line col filename
  if source.length ≤ pos then .ok (error none) else (SignedIndex.get source pos).map fun c => error (some c)

/-- The error at a place that the reader has come to. -/
def atPosition (source : Text) (p : Position) (expected : List Expectation) (filename : Text) : ParseError :=
  report source p.offset (expected.map Expectation.name) p.offset p.line p.col filename source[p.offset]?

/-- Whether more input could still make the source readable: it breaks off at its end. -/
def incomplete (e : ParseError) : Bool := e.found.isNone

def message (e : ParseError) : Text :=
  let found : Text := match e.found with
    | none => "end of input"
    | some c => Quoted.encode [c]
  .concat ["expected ", .join " or " e.expected, ", found ", found, " at line ", Decimal.ofInt e.line, ", column ",
    Decimal.ofInt e.col]

/-- The message with the name of the file, its directory left out, and the line; `-1` stands for a line number of more
than 64 bits. -/
def describe (e : ParseError) : Text :=
  let line := if SignedIndex.fits e.line then e.line else -1
  .concat [e.message, " (", e.filename.afterLast '/', ", line ", Decimal.ofInt line, ")"]

end ParseError

end MalForms
