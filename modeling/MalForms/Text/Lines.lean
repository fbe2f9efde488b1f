import MalForms.Text

/-!
# Lines and places

A line ends at a line feed. Places in a text are given by an offset, or by a line, counted from 1, and a column, counted
from 0; `location` finds the second from the first through the offsets at which lines start.
-/

namespace MalForms

namespace Text

/-- Carriage returns and pairs of a carriage return and a line feed become line feeds. -/
def unifyLineEnds : Text → Text
  | [] => []
  | c :: rest =>
    if c = '\r' then
      match rest with
      | [] => ['\n']
      | d :: rest' => if d = '\n' then '\n' :: unifyLineEnds rest' else '\n' :: unifyLineEnds (d :: rest')
    else c :: unifyLineEnds rest

/-- The offsets just after the line feeds of a text that starts at offset `i`. -/
def lineStartsFrom (i : Nat) : Text → List Nat
  | [] => []
  | c :: rest => if c = '\n' then (i + 1) :: lineStartsFrom (i + 1) rest else lineStartsFrom (i + 1) rest

/-- The offsets at which the lines of the text start. -/
def lineStarts (t : Text) : List Nat := 0 :: lineStartsFrom 0 t

/-- The line and column of an offset. Offsets past the end extend the last line; a negative offset is put on line 0
and counted from the start of the last line. -/
def location (t : Text) (p : Int) : Int × Int :=
  let starts := t.lineStarts
  let line := (starts.takeWhile fun (s : Nat) => (s : Int) ≤ p).length
  let start := if line = 0 then starts.getLastD 0 else starts.getD (line - 1) 0
  (line, p - start)

def notNewline (c : CodePoint) : Bool := c ≠ '\n'

/-- The line that the offset `i` is on, without its line feed. -/
def lineAround (t : Text) (i : Nat) : Text :=
  ((t.take i).reverse.takeWhile notNewline).reverse ++ (t.drop i).takeWhile notNewline

end Text

/-- A place in a text: its offset, its line, counted from 1, and its column. -/
structure Position where
  offset : Nat := 0
  line : Nat := 1
  col : Nat := 0
deriving DecidableEq

namespace Position

/-- The place after the code point `c` that stands at `p`. -/
def next (p : Position) (c : CodePoint) : Position :=
  if c = '\n' then ⟨p.offset + 1, p.line + 1, 0⟩ else ⟨p.offset + 1, p.line, p.col + 1⟩

/-- The place after the text that stands at `p`. -/
def after (p : Position) (t : Text) : Position := t.foldl next p

theorem after_append (p : Position) (s t : Text) : p.after (s ++ t) = (p.after s).after t :=
  List.foldl_append

end Position

end MalForms
