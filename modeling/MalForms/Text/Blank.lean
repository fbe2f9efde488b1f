import MalForms.Text
import MalForms.Text.Ranges

/-!
# White space

The white space of all scripts, which a prompt ignores at both ends of a line. It is wider than what separates forms
(`Lexeme.isSeparator`), except that a comma separates forms and is not white.
-/

namespace MalForms

/-- The white code points. -/
def CodePoint.blanks : Ranges := [
  (0x9, 0xD), (0x1C, 0x20), (0x85, 0x85), (0xA0, 0xA0), (0x1680, 0x1680), (0x2000, 0x200A), (0x2028, 0x2029),
  (0x202F, 0x202F), (0x205F, 0x205F), (0x3000, 0x3000)]

def CodePoint.isBlank (c : CodePoint) : Bool := blanks.contains c.val

namespace Text

/-- The text without the white space at its two ends. -/
def strip (t : Text) : Text :=
  ((t.dropWhile CodePoint.isBlank).reverse.dropWhile CodePoint.isBlank).reverse

/-- Whether the text is white space throughout. -/
def isBlank (t : Text) : Bool := t.all CodePoint.isBlank

end Text

end MalForms
