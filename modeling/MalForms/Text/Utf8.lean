import MalForms.Text.Decimal
import MalForms.Text.Quoted

/-!
# UTF-8

Files are read as UTF-8. Surrogates, overlong forms and numbers past `0x10FFFF` are refused, and a refusal names the
bytes at fault: the first byte of a sequence if no sequence starts with it, the bytes before the first one that cannot
continue the sequence, or what is left of the file if it ends inside one.

Surrogates have no bytes. A text with some cannot be written, and what is at fault is the first run of them.
-/

namespace MalForms.Utf8

inductive Cause where
  | startByte
  | continuation
  | truncated
deriving DecidableEq

def Cause.message : Cause → Text
  | .startByte => "invalid start byte"
  | .continuation => "invalid continuation byte"
  | .truncated => "unexpected end of data"

/-- Bytes that are not UTF-8: the offset and value of the first, how many they are, and what is wrong. -/
structure Fault where
  start : Nat
  byte : UInt8
  count : Nat
  cause : Cause
deriving DecidableEq

def Fault.message (f : Fault) : Text :=
  let place :=
    if f.count = 1 then .concat ["byte 0x", Hex.digits 2 f.byte.toNat, " in position ", Decimal.ofNat f.start]
    else .concat ["bytes in position ", Decimal.ofNat f.start, "-", Decimal.ofNat (f.start + f.count - 1)]
  .concat ["'utf-8' codec can't decode ", place, ": ", f.cause.message]

/-- How many bytes a sequence has that starts with `a`; none starts with it if 0. -/
def width (a : UInt8) : Nat :=
  if a < 0x80 then 1
  else if a < 0xC2 then 0
  else if a < 0xE0 then 2
  else if a < 0xF0 then 3
  else if a < 0xF5 then 4
  else 0

def isTail (b : UInt8) : Bool := 0x80 ≤ b && b < 0xC0

/-- Whether `b` can come after a first byte `a` of two bytes or more. -/
def isSecond (a b : UInt8) : Bool :=
  isTail b && !(a == 0xE0 && b < 0xA0) && !(a == 0xED && 0xA0 ≤ b) && !(a == 0xF0 && b < 0x90) &&
    !(a == 0xF4 && 0x90 ≤ b)

/-- The code point of the bytes of a sequence, of which the first carries `lead` as its own bits. -/
def point (lead : Nat) (tails : List UInt8) : CodePoint :=
  .ofNat (tails.foldl (fun n b => n * 0x40 + (b.toNat - 0x80)) lead)

/-- The text of the bytes that start at offset `i`. -/
def decodeFrom (i : Nat) : List UInt8 → Except Fault Text
  | [] => .ok []
  | a :: rest =>
    match width a, rest with
    | 1, rest => (decodeFrom (i + 1) rest).map (point a.toNat [] :: ·)
    | 2, b :: rest =>
      if isSecond a b then (decodeFrom (i + 2) rest).map (point (a.toNat - 0xC0) [b] :: ·)
      else .error ⟨i, a, 1, .continuation⟩
    | 3, b :: c :: rest =>
      if !isSecond a b then .error ⟨i, a, 1, .continuation⟩
      else if !isTail c then .error ⟨i, a, 2, .continuation⟩
      else (decodeFrom (i + 3) rest).map (point (a.toNat - 0xE0) [b, c] :: ·)
    | 4, b :: c :: d :: rest =>
      if !isSecond a b then .error ⟨i, a, 1, .continuation⟩
      else if !isTail c then .error ⟨i, a, 2, .continuation⟩
      else if !isTail d then .error ⟨i, a, 3, .continuation⟩
      else (decodeFrom (i + 4) rest).map (point (a.toNat - 0xF0) [b, c, d] :: ·)
    | 0, _ => .error ⟨i, a, 1, .startByte⟩
    | _, rest =>
      match rest with
      | [] => .error ⟨i, a, 1, .truncated⟩
      | b :: more =>
        if !isSecond a b then .error ⟨i, a, 1, .continuation⟩
        else
          match more with
          | [] => .error ⟨i, a, 2, .truncated⟩
          | c :: _ => if isTail c then .error ⟨i, a, 3, .truncated⟩ else .error ⟨i, a, 2, .continuation⟩

def decode (bytes : List UInt8) : Except Fault Text := decodeFrom 0 bytes

/-- The bytes of a code point. -/
def bytes (c : CodePoint) : List UInt8 :=
  let tail (unit : Nat) : UInt8 := (0x80 + c.val / unit % 0x40).toUInt8
  if c.val < 0x80 then [c.val.toUInt8]
  else if c.val < 0x800 then [(0xC0 + c.val / 0x40).toUInt8, tail 1]
  else if c.val < 0x10000 then [(0xE0 + c.val / 0x1000).toUInt8, tail 0x40, tail 1]
  else [(0xF0 + c.val / 0x40000).toUInt8, tail 0x1000, tail 0x40, tail 1]

/-- The bytes of a text. A surrogate is written in three bytes, which `decode` refuses. -/
def encode (t : Text) : List UInt8 := t.flatMap bytes

/-- Surrogates in a text that is to be written: the first, its offset, and how many they are. -/
structure Surrogates where
  point : CodePoint
  start : Nat
  count : Nat
deriving DecidableEq

def Surrogates.message (s : Surrogates) : Text :=
  let place :=
    if s.count = 1 then .concat ["character ", Quoted.encode [s.point], " in position ", Decimal.ofNat s.start]
    else .concat ["characters in position ", Decimal.ofNat s.start, "-", Decimal.ofNat (s.start + s.count - 1)]
  .concat ["'utf-8' codec can't encode ", place, ": surrogates not allowed"]

/-- The first surrogates in the text, those aside that can be written for another reason; `i` code points come before
the text. -/
def surrogates? (spared : CodePoint → Bool) (i : Nat) : Text → Option Surrogates
  | [] => none
  | c :: rest =>
    if c.isSurrogate && !spared c then some ⟨c, i, (rest.takeWhile CodePoint.isSurrogate).length + 1⟩
    else surrogates? spared (i + 1) rest

end MalForms.Utf8
