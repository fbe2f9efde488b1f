import MalForms.Lexeme

/-!
# Printing forms on one line

A scalar prints as its own text, strings quoted and escaped or, on request, as they are; a compound form prints as its
items between its brackets, a space between two of them. This is said twice: `render` recurs on the form, `print` works
off a list of texts and forms still to be written, so it needs no room for the depth of a form.

A number with more digits than a numeral may have is not printed, and so no form with such a number is. `render` knows
no such limit.
-/

namespace MalForms.Form

/-- The text of a form without items. -/
def scalarText (readably : Bool) : Form → Text
  | nil => "nil"
  | bool true => "true"
  | bool false => "false"
  | int n => Decimal.ofInt n
  | str s => if readably then Escape.quote :: (Escape.encode s ++ [Escape.quote]) else s
  | symbol name _ => name
  | keyword name _ => ':' :: name
  | compound _ _ _ => []

/-! ## By recursion -/

mutual

/-- The text of a form: brackets around the texts of its items, a space between two of them. -/
def render (readably : Bool) : Form → Text
  | compound s xs _ => s.opener :: (Text.join [' '] (renderAll readably xs) ++ [s.closer])
  | f => scalarText readably f

def renderAll (readably : Bool) : List Form → List Text
  | [] => []
  | x :: xs => render readably x :: renderAll readably xs

end

mutual

/-- The text of a form with another text behind it. Unlike `render` this copies no text more than once. -/
def renderOnto (readably : Bool) (behind : Text) : Form → Text
  | compound s xs _ => s.opener :: renderAllOnto readably (s.closer :: behind) xs
  | f => scalarText readably f ++ behind

def renderAllOnto (readably : Bool) (behind : Text) : List Form → Text
  | [] => behind
  | [x] => renderOnto readably behind x
  | x :: y :: ys => renderOnto readably (CodePoint.ofChar ' ' :: renderAllOnto readably behind (y :: ys)) x

end

/-! ## Numbers with too many digits -/

/-- A number in a form has too many digits, so the form is not printed. -/
structure Unprintable where
deriving DecidableEq

def Unprintable.message (_ : Unprintable) : Text :=
  .concat ["Exceeds the limit (", Decimal.ofNat Lexeme.maxDigits,
    " digits) for integer string conversion; use sys.set_int_max_str_digits() to increase the limit"]

/-- Whether a number has no more digits than a numeral may have. -/
def isShort (n : Int) : Bool := (Decimal.ofNat n.natAbs).length ≤ Lexeme.maxDigits

mutual

/-- Whether no number in the form has too many digits. -/
def isPrintable : Form → Bool
  | int n => isShort n
  | compound _ xs _ => arePrintable xs
  | _ => true

def arePrintable : List Form → Bool
  | [] => true
  | x :: xs => isPrintable x && arePrintable xs

end

/-- Print a form without items. -/
def printScalar (readably : Bool) : Form → Except Unprintable Text
  | int n => if isShort n then .ok (Decimal.ofInt n) else .error {}
  | f => .ok (scalarText readably f)

/-! ## By a list of work -/

/-- Something still to be written. -/
inductive Work where
  | text (t : Text)
  | form (f : Form)

/-- The items of a compound form as work, a space before every item but the first. -/
def spread : List Form → List Work
  | [] => []
  | x :: xs => .form x :: xs.flatMap fun y => [.text [' '], .form y]

/-- What a piece of work writes at once, and what it leaves to be written. -/
def Work.expand (readably : Bool) : Work → Except Unprintable (Text × List Work)
  | text t => .ok (t, [])
  | form (compound s xs _) => .ok ([s.opener], spread xs ++ [.text [s.closer]])
  | form f => (printScalar readably f).map (·, [])

def Work.weight : Work → Nat
  | text _ => 1
  | form f => f.weight

/-- How much there is to do. -/
def load : List Work → Nat
  | [] => 0
  | w :: ws => w.weight + load ws

theorem load_append (ws vs : List Work) : load (ws ++ vs) = load ws + load vs := by
  induction ws with
  | nil => exact (Nat.zero_add _).symm
  | cons w ws ih => rw [List.cons_append, load, ih, load, Nat.add_assoc]

theorem load_flatMap (xs : List Form) : load (xs.flatMap fun y => [Work.text [' '], .form y]) = weightAll xs := by
  induction xs with
  | nil => rfl
  | cons x xs ih =>
    rw [List.flatMap_cons, load_append, ih, weightAll]
    rfl

theorem load_spread (xs : List Form) : load (spread xs) ≤ weightAll xs := by
  cases xs with
  | nil => exact Nat.le_refl _
  | cons x xs =>
    rw [spread, load, load_flatMap, weightAll, Work.weight]
    omega

/-- Expanding a piece of work leaves less to do. -/
theorem load_expand {readably : Bool} {w : Work} {t : Text} {more : List Work}
    (h : w.expand readably = .ok (t, more)) : load more < w.weight := by
  cases w with
  | text u => cases h; exact Nat.one_pos
  | form f =>
    cases f with
    | compound s xs span =>
      cases h
      have hitems := load_spread xs
      rw [load_append, Work.weight, Form.weight, load, load, Work.weight]
      omega
    | int n =>
      simp only [Work.expand, printScalar] at h
      split at h <;> cases h
      exact Nat.one_pos
    | _ => cases h; exact Nat.one_pos

/-- Write all work, after the texts already written, of which the last comes first. -/
def drain (readably : Bool) (written : List Text) : List Work → Except Unprintable Text
  | [] => .ok (Text.concat written.reverse)
  | w :: ws =>
    match _h : w.expand readably with
    | .error e => .error e
    | .ok (t, more) => drain readably (t :: written) (more ++ ws)
termination_by ws => load ws
decreasing_by
  have h := load_expand _h
  rw [load_append, load]
  omega

/-- The form as source text on one line; strings as they are if not `readably`. -/
def print (f : Form) (readably : Bool := true) : Except Unprintable Text := drain readably [] [.form f]

/-- The forms on one line, a space between two of them. -/
def printAll (fs : List Form) (readably : Bool := true) : Except Unprintable Text :=
  (fs.mapM (print · readably)).map (Text.join [' '])

end MalForms.Form
