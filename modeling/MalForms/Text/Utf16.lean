import MalForms.Text

/-!
# UTF-16 code units

A code point past `0xFFFF` is written as two units, a high surrogate and then a low one; any other code point is one
unit. Reading joins each high surrogate with a low one directly after it and keeps every other surrogate as a code
point, so it gives back every text in which no high surrogate stands directly before a low one.
-/

namespace MalForms.Utf16

def isHigh (u : UInt16) : Bool := 0xD800 ≤ u.toNat && u.toNat ≤ 0xDBFF

def isLow (u : UInt16) : Bool := 0xDC00 ≤ u.toNat && u.toNat ≤ 0xDFFF

/-- The code point of a unit that is not part of a pair. -/
def single (u : UInt16) : CodePoint :=
  ⟨u.toNat, by have h := u.toNat_lt; omega⟩

/-- The code point of a high and a low surrogate. -/
def pair (h l : UInt16) : CodePoint := .ofNat (0x10000 + (h.toNat - 0xD800) * 0x400 + (l.toNat - 0xDC00))

def decode : List UInt16 → Text
  | [] => []
  | [u] => [single u]
  | u :: v :: rest => if isHigh u && isLow v then pair u v :: decode rest else single u :: decode (v :: rest)

/-- The units of a code point. -/
def units (c : CodePoint) : List UInt16 :=
  if c.val < 0x10000 then [c.val.toUInt16]
  else
    let n := c.val - 0x10000
    [(0xD800 + n / 0x400).toUInt16, (0xDC00 + n % 0x400).toUInt16]

def encode (t : Text) : List UInt16 := t.flatMap units

end MalForms.Utf16
