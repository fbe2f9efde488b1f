import MalForms.Form.Printer

/-!
# Laying forms out over several lines

A form that does not fit on its line is broken: a list after its head, its other items on lines of their own two columns
further in; a vector with one item on a line; a map with one key and value on a line. Forms nested too deep stay on one
line.

The whole form is first printed on one line. If no number in it has too many digits then none has in its parts, so
breaking it does not fail any more.
-/

namespace MalForms.Form

/-- The number of columns, indentation included, up to which a form stays on one line. -/
def lineWidth : Nat := 60

/-- The number of levels that are broken. -/
def breakLevels : Nat := 64

/-- The list in pairs, the last alone if their number is odd. -/
def inPairs {α : Type} : List α → List (List α)
  | [] => []
  | [a] => [[a]]
  | a :: b :: rest => [a, b] :: inPairs rest

/-- A line end and the indentation of the next line. -/
def lineBreak (indent : Int) : Text := '\n' :: Text.spaces indent

/-- The whole form on one line. -/
def flat (f : Form) : Text := f.renderOnto true []

/-- The form laid out from column `indent` on, with as many levels still to be broken. -/
def layoutFrom : (levels : Nat) → (indent : Int) → Form → Text
  | 0, _, f => f.flat
  | levels + 1, indent, f =>
    if (f.flat).length + indent ≤ lineWidth then f.flat
    else
      match f with
      | compound .list (head :: tail) _ =>
        let body := tail.map fun g => lineBreak (indent + 2) ++ layoutFrom levels (indent + 2) g
        .concat [['('], layoutFrom levels (indent + 1) head, .concat body, [')']]
      | compound .vector (x :: xs) _ =>
        let lines := (x :: xs).map (layoutFrom levels (indent + 1))
        .concat [['['], .join (lineBreak (indent + 1)) lines, [']']]
      | compound .map (x :: xs) _ =>
        let lines := (inPairs (x :: xs)).map fun group => Text.join [' '] (group.map (layoutFrom levels (indent + 1)))
        .concat [['\x7b'], .join (lineBreak (indent + 1)) lines, ['\x7d']]
      | f => f.flat

/-- The form from column `indent` on, broken if it is long and `pretty`. -/
def arrange (f : Form) (indent : Int) (pretty : Bool) : Text :=
  if pretty then layoutFrom breakLevels indent f else f.flat

/-- The form as source text from column `indent` on, over several lines if it is long and `pretty`. -/
def layout (f : Form) (indent : Int := 0) (pretty : Bool := true) : Except Unprintable Text :=
  f.print.map fun _ => f.arrange indent pretty

/-- The forms laid out one below another. -/
def layoutAll (fs : List Form) : Except Unprintable Text := (fs.mapM (layout ·)).map (Text.join ['\n'])

end MalForms.Form
