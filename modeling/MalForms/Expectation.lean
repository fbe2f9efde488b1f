import MalForms.Form

/-!
# What could have come

Where source text breaks off the grammar, a report names the alternatives that would have fit.
-/

namespace MalForms

/-- Something the grammar allows at a place. -/
inductive Expectation where
  | form
  | endOfInput
  | closer (shape : Shape)
  | quote
  | escape
  | hexDigit
deriving DecidableEq

/-- How a report names the alternative; a code point stands in quotes. -/
def Expectation.name : Expectation → Text
  | form => "form"
  | endOfInput => "end of input"
  | closer s => ['\x27', s.closer, '\x27']
  | quote => "'\x22'"
  | escape => "escape sequence"
  | hexDigit => "hex digit"

end MalForms
