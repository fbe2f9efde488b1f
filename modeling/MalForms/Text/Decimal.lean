import MalForms.Text

/-!
# Decimal numerals

Numbers are written with the digits `0` to `9`, no leading zeros, and a `-` in front of a negative one; a run of digits
is read by its place values, leading zeros allowed.
-/

namespace MalForms.Decimal

def ofNat (n : Nat) : Text := (Nat.toDigits 10 n).map CodePoint.ofChar

def ofInt : Int → Text
  | .ofNat n => ofNat n
  | .negSucc n => '-' :: ofNat (n + 1)

def isDigit (c : CodePoint) : Bool := 0x30 ≤ c.val && c.val ≤ 0x39

/-- The number a run of digits denotes. -/
def value (t : Text) : Nat := t.foldl (fun n c => 10 * n + (c.val - 0x30)) 0

end MalForms.Decimal
