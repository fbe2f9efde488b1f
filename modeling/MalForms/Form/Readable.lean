import MalForms.Lexeme

/-!
# Forms that can be read

Not every form has a text that reads as it: a symbol may be called `12`, or have no name at all. A form is readable if
all names in it, at every depth, are names that source text can write, and no number has too many digits.
-/

namespace MalForms

/-- Whether the text is a run of symbol characters. -/
def Lexeme.isName (t : Text) : Bool := !t.isEmpty && t.all isSymbolChar

/-- The names that denote constants. -/
def Lexeme.constants : List Text := ["true", "false", "nil"]

/-- Whether a symbol can be written: its name is no constant and does not start with a numeral. -/
def Lexeme.isSymbolName (t : Text) : Bool := isName t && !constants.contains t && (numeral? t).isNone

namespace Form

mutual

/-- Whether all names and numbers in the form can be written. -/
def isReadable : Form → Bool
  | nil | bool _ | str _ => true
  | int n => (Decimal.ofNat n.natAbs).length ≤ Lexeme.maxDigits
  | symbol name _ => Lexeme.isSymbolName name
  | keyword name _ => Lexeme.isName name
  | compound _ xs _ => areReadable xs

def areReadable : List Form → Bool
  | [] => true
  | x :: xs => isReadable x && areReadable xs

end

end Form

end MalForms
