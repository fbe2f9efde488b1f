/-!
# Text as a list of code points

Source text, names and the values of string literals are lists of code points. A literal such as `"\ud83d"` denotes a
surrogate that stands alone, and no `Char` is a surrogate, so the points of a text are numbers below `0x110000`.
All offsets, columns and lengths of the library count code points.

* `CodePoint`: a code point, surrogates included; every `Char` is one.
* `Text`: a list of code points; a `String` is read as the text of its characters.
* `Text.toString?`: the string of a text, if the text has no surrogate.
-/

namespace MalForms

/-- A Unicode code point; surrogates count. -/
structure CodePoint where
  val : Nat
  val_lt : val < 0x110000
deriving DecidableEq

namespace CodePoint

def ofChar (c : Char) : CodePoint :=
  ⟨c.toNat, by
    have h := c.valid
    simp only [UInt32.isValidChar, Nat.isValidChar] at h
    simp only [Char.toNat]
    omega⟩

instance : Coe Char CodePoint := ⟨ofChar⟩

/-- The code point with this number; U+FFFD stands for a number that is none. -/
def ofNat (n : Nat) : CodePoint := if h : n < 0x110000 then ⟨n, h⟩ else ⟨0xFFFD, by decide⟩

def isSurrogate (c : CodePoint) : Bool := 0xD800 ≤ c.val && c.val ≤ 0xDFFF

def isHighSurrogate (c : CodePoint) : Bool := 0xD800 ≤ c.val && c.val ≤ 0xDBFF

def isLowSurrogate (c : CodePoint) : Bool := 0xDC00 ≤ c.val && c.val ≤ 0xDFFF

def toChar? (c : CodePoint) : Option Char := if c.isSurrogate then none else some (Char.ofNat c.val)

end CodePoint

/-- A sequence of code points. -/
abbrev Text := List CodePoint

namespace Text

def ofString (s : String) : Text := s.toList.map CodePoint.ofChar

instance : Coe String Text := ⟨ofString⟩

/-- The string of a text, if none of its code points is a surrogate. -/
def toString? (t : Text) : Option String := (t.mapM CodePoint.toChar?).map String.ofList

/-- The order of texts by code points, a text before its extensions. -/
def le : Text → Text → Bool
  | [], _ => true
  | _ :: _, [] => false
  | a :: s, b :: t => if a.val = b.val then le s t else a.val < b.val

/-- The texts one after another. -/
def concat (ts : List Text) : Text := ts.flatten

/-- The texts one after another, with `sep` between two of them. -/
def join (sep : Text) : List Text → Text
  | [] => []
  | [t] => t
  | t :: ts => t ++ sep ++ join sep ts

/-- The text and a line feed. -/
def line (t : Text) : Text := t ++ [CodePoint.ofChar '\n']

/-- `n` spaces, and none for a negative number. -/
def spaces (n : Int) : Text := List.replicate n.toNat ' '

/-- The first part of the text, up to its first `c`, and what follows that `c`, if it has one. -/
def cut (c : CodePoint) (t : Text) : Text × Option Text :=
  match t.dropWhile (· ≠ c) with
  | [] => (t, none)
  | _ :: rest => (t.takeWhile (· ≠ c), some rest)

/-- What follows the last `c` of the text; the whole text if it has none. -/
def afterLast (c : CodePoint) (t : Text) : Text := (t.reverse.takeWhile (· ≠ c)).reverse

/-- Whether `s` occurs at the front of `t`. -/
def startsWith (t s : Text) : Bool := s.isPrefixOf t

end Text

end MalForms
