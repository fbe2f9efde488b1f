import MalForms.Form
import MalForms.Text.Decimal
import MalForms.Text.Quoted

/-!
# Forms as values

A second text of a form, which shows it as a value and not as source: strings in quotes, compound forms with commas
between their items and, for vectors and maps, the name of their kind.
-/

namespace MalForms

/-- Where the span starts. -/
def Span.display (s : Span) : Text := .concat ["SourceLocation(", Decimal.ofInt s.line, ":", Decimal.ofInt s.col, ")"]

namespace Form

mutual

/-- The form shown as a value. -/
def display : Form → Text
  | nil => "None"
  | bool true => "True"
  | bool false => "False"
  | int n => Decimal.ofInt n
  | str s => Quoted.encode s
  | symbol name _ => name
  | keyword name _ => ':' :: name
  | compound .list xs _ => .concat ["[", .join ", " (displayAll xs), "]"]
  | compound .vector xs _ => .concat ["VectorLiteral([", .join ", " (displayAll xs), "])"]
  | compound .map xs _ => .concat ["MapLiteral([", .join ", " (displayAll xs), "])"]

def displayAll : List Form → List Text
  | [] => []
  | x :: xs => display x :: displayAll xs

end

/-- The form shown as a value, a string without its quotes. -/
def displayPlain : Form → Text
  | str s => s
  | f => f.display

end Form

end MalForms
