import MalForms.Text.Decimal
import MalForms.Text.Hex
import MalForms.Text.Utf16

/-!
# Escape sequences of string literals

The text between the quotes of a string literal writes some code points as escape sequences: a backslash and a letter
(`simple`), or `\u` and four hexadecimal digits, which stand for a UTF-16 code unit. A unit that is a high surrogate
and a unit directly after it that is a low one denote one code point; any other unit denotes itself.

* `decode`: the text a literal denotes, or the first sequence that is none.
* `encode`: a text with every quote, backslash and control escaped, so that `decode` gives it back.
-/

namespace MalForms.Escape

/-- The mark at both ends of a string literal. -/
def quote : CodePoint := '\x22'

/-- Letters after a backslash, and what the two stand for. -/
def simple : List (CodePoint × CodePoint) :=
  [('\x22', '\x22'), ('\\', '\\'), ('/', '/'), ('b', '\x08'), ('f', '\x0c'), ('n', '\n'), ('r', '\r'), ('t', '\t'),
    ('s', ' ')]

def isSimple (c : CodePoint) : Bool := (simple.lookup c).isSome

/-! ## Reading -/

/-- A sequence that is no escape: what follows the backslash (or `\u`), and the offset of the backslash. -/
inductive Fault where
  | unknown (letter : Text) (offset : Nat)
  | badUnit (digits : Text) (offset : Nat)
deriving DecidableEq

def Fault.message : Fault → Text
  | unknown letter i => .concat ["invalid escape sequence \\", letter, " at offset ", Decimal.ofNat i]
  | badUnit digits i => .concat ["invalid unicode escape \\u", digits, " at offset ", Decimal.ofNat i]

/-- A piece of a literal: a code point written plainly or by a letter, or a code unit written by its digits. -/
inductive Piece where
  | point (c : CodePoint)
  | unit (u : UInt16)
deriving DecidableEq

/-- The pieces of a literal, of which `i` code points have been read. -/
def pieces (i : Nat) : Text → Except Fault (List Piece)
  | [] => .ok []
  | c :: rest =>
    if c ≠ '\\' then (pieces (i + 1) rest).map (.point c :: ·)
    else
      match rest with
      | [] => .error (.unknown [] i)
      | e :: rest =>
        match simple.lookup e with
        | some d => (pieces (i + 2) rest).map (.point d :: ·)
        | none =>
          if e ≠ 'u' then .error (.unknown [e] i)
          else
            match rest with
            | a :: b :: c :: d :: rest =>
              if [a, b, c, d].all Hex.isDigit then
                (pieces (i + 6) rest).map (.unit (Hex.value [a, b, c, d]).toUInt16 :: ·)
              else .error (.badUnit [a, b, c, d] i)
            | short => .error (.badUnit short i)

/-- The text of pieces: surrogates that are neighbours among the units make one code point. -/
def assemble : List Piece → Text
  | [] => []
  | .point c :: rest => c :: assemble rest
  | .unit u :: .unit v :: rest =>
    if Utf16.isHigh u && Utf16.isLow v then Utf16.pair u v :: assemble rest
    else Utf16.single u :: assemble (.unit v :: rest)
  | .unit u :: rest => Utf16.single u :: assemble rest

/-- The text that a literal with this body denotes. -/
def decode (raw : Text) : Except Fault Text := (pieces 0 raw).map assemble

/-! ## Writing -/

/-- A code point in the body of a literal. -/
def encodePoint (c : CodePoint) : Text :=
  if c = '\\' then ['\\', '\\']
  else if c = quote then ['\\', quote]
  else if c = '\n' then ['\\', 'n']
  else if c = '\r' then ['\\', 'r']
  else if c = '\t' then ['\\', 't']
  else if c = '\x08' then ['\\', 'b']
  else if c = '\x0c' then ['\\', 'f']
  else if c.val < 0x20 || c.val = 0x7F then '\\' :: 'u' :: Hex.digits 4 c.val
  else [c]

/-- The body of a literal that denotes the text. -/
def encode (s : Text) : Text := s.flatMap encodePoint

end MalForms.Escape
