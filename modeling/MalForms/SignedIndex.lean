import MalForms.Text

/-!
# Signed indices

An index into a sequence counts from the front, and from the end if it is negative: `-1` is the last place. An index
names one item or none (`get`); as the bound of a slice it is moved to the nearest place there is (`clamp`). Only
numbers of 64 bits can name an item.
-/

namespace MalForms.SignedIndex

/-- Whether a number has 64 bits, its sign included. -/
def fits (i : Int) : Bool := -0x8000000000000000 ≤ i && i < 0x8000000000000000

/-- The place of a bound in a sequence of this length, between the front and the end. -/
def clamp (length : Nat) (i : Int) : Nat := min (if i < 0 then i + length else i).toNat length

/-- Why an index names no item. -/
inductive Fault where
  | oversized
  | outOfRange
deriving DecidableEq

/-- The report of an index into a sequence of this kind. -/
def Fault.message (kind : Text) : Fault → Text
  | oversized => "cannot fit 'int' into an index-sized integer"
  | outOfRange => .concat [kind, " index out of range"]

/-- The place of an index in a sequence of this length. -/
def place (length : Nat) (i : Int) : Except Fault Nat :=
  let j := if i < 0 then i + length else i
  if !fits i then .error .oversized
  else if j < 0 || length ≤ j then .error .outOfRange
  else .ok j.toNat

/-- The item at an index. -/
def get {α : Type} (xs : List α) (i : Int) : Except Fault α := do
  match xs[← place xs.length i]? with
  | some x => return x
  | none => .error .outOfRange

/-- The items from `a` up to `b`; a missing bound is the front or the end. -/
def slice {α : Type} (xs : List α) (a b : Option Int) : List α :=
  let i := (a.map (clamp xs.length)).getD 0
  let j := (b.map (clamp xs.length)).getD xs.length
  (xs.take j).drop i

end MalForms.SignedIndex
