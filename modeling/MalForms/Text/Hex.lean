import MalForms.Text

/-!
# Hexadecimal digits

Codes are written with lower-case digits in a fixed width and read in either case.
-/

namespace MalForms.Hex

def isDigit (c : CodePoint) : Bool :=
  (0x30 ≤ c.val && c.val ≤ 0x39) || (0x41 ≤ c.val && c.val ≤ 0x46) || (0x61 ≤ c.val && c.val ≤ 0x66)

/-- The value of a digit. -/
def digitValue (c : CodePoint) : Nat :=
  if c.val ≤ 0x39 then c.val - 0x30 else if c.val ≤ 0x46 then c.val - 0x37 else c.val - 0x57

/-- The number a run of digits denotes. -/
def value (t : Text) : Nat := t.foldl (fun n c => 16 * n + digitValue c) 0

def digit (n : Nat) : CodePoint := Nat.digitChar n

/-- The last `width` digits of `n`. -/
def digits : (width : Nat) → (n : Nat) → Text
  | 0, _ => []
  | w + 1, n => digits w (n / 16) ++ [digit (n % 16)]

theorem length_digits (w n : Nat) : (digits w n).length = w := by
  induction w generalizing n with
  | zero => rfl
  | succ w ih => simp [digits, ih]

end MalForms.Hex
