import MalForms.Text.Hex
import MalForms.Text.Printable

/-!
# Quoted text

How messages show a text: between single quotes, or between double quotes if it has a single quote and no double one.
The quote in use, the backslash, line ends and tabs are escaped, and what is not printable is written by its code in
two, four or eight digits.
-/

namespace MalForms.Quoted

/-- The quote that is put around the text. -/
def mark (t : Text) : CodePoint := if t.contains '\x27' && !t.contains '\x22' then '\x22' else '\x27'

/-- A code point inside quotes `q`. -/
def encodeIn (q c : CodePoint) : Text :=
  if c = q || c = '\\' then ['\\', c]
  else if c = '\n' then ['\\', 'n']
  else if c = '\r' then ['\\', 'r']
  else if c = '\t' then ['\\', 't']
  else if c.isPrintable then [c]
  else if c.val < 0x100 then '\\' :: 'x' :: Hex.digits 2 c.val
  else if c.val < 0x10000 then '\\' :: 'u' :: Hex.digits 4 c.val
  else '\\' :: 'U' :: Hex.digits 8 c.val

/-- The text in quotes. -/
def encode (t : Text) : Text := mark t :: (t.flatMap (encodeIn (mark t)) ++ [mark t])

end MalForms.Quoted
