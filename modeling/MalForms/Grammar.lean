import MalForms.Lexeme

/-!
# The grammar

The grammar of source text as an ordered choice, said by recursion and without places. At each place where a form may
stand, separators and comments are passed over and these alternatives are tried, the first that matches being taken:

    form = "^" form form | "~@" form | "'" form | "`" form | "~" form | "@" form
         | "(" form* ")" | "[" form* "]" | "{" form* "}"
         | ":" symbol-char+ | "-"? digit+ | '"' string-char* '"'
         | "true" !symbol-char | "false" !symbol-char | "nil" !symbol-char | symbol-char+

A text is read if forms make up all of it. The grammar knows no limit on the digits of a number.

* `Rule`: what a rule makes of the front of a text.
* `form`: the rule of forms.
* `read`: the forms of a whole text.
-/

namespace MalForms.Grammar

open Lexeme (Mark isSymbolChar)

/-- A rule: what it makes of the front of a text, and the text after that; none if it does not match. -/
abbrev Rule (α : Type) := Text → Option (α × Text)

/-- The text after separators and comments. -/
def afterGap (t : Text) : Text := t.drop (Lexeme.gapLength false t)

/-- As many matches as there are, one after another, and the text after them; `bound` limits their number. -/
def many {α : Type} (rule : Rule α) : (bound : Nat) → Text → List α × Text
  | 0, t => ([], t)
  | n + 1, t =>
    match rule t with
    | none => ([], t)
    | some (a, rest) => let (as, rest') := many rule n rest; (a :: as, rest')

/-- Exactly `n` matches, one after another, the last one first. -/
def times {α : Type} (rule : Rule α) : (n : Nat) → (found : List α) → Rule (List α)
  | 0, found, t => some (found, t)
  | n + 1, found, t => (rule t).bind fun (a, rest) => times rule n (a :: found) rest

/-! ## Scalars -/

/-- A run of code points of a class. -/
def run (p : CodePoint → Bool) : Rule Text := fun t =>
  let front := t.takeWhile p
  if front.isEmpty then none else some (front, t.drop front.length)

def keyword : Rule Form
  | [] => none
  | c :: rest => if c = ':' then (run isSymbolChar rest).map fun (name, rest') => (.keyword name {}, rest') else none

def number : Rule Form
  | [] => none
  | c :: rest =>
    if c = '-' then (run Decimal.isDigit rest).map fun (ds, rest') => (.int (-(Decimal.value ds : Int)), rest')
    else (run Decimal.isDigit (c :: rest)).map fun (ds, rest') => (.int (Decimal.value ds), rest')

/-- A code point of a string literal, written plainly or by an escape. -/
def stringChar : Rule Text
  | [] => none
  | c :: rest =>
    if c = Escape.quote then none
    else if c ≠ '\\' then some ([c], rest)
    else
      match rest with
      | [] => none
      | e :: rest' =>
        if Escape.isSimple e then some ([c, e], rest')
        else if e = 'u' ∧ 4 ≤ rest'.length ∧ (rest'.take 4).all Hex.isDigit then
          some (c :: e :: rest'.take 4, rest'.drop 4)
        else none

def string : Rule Form
  | [] => none
  | c :: rest =>
    if c = Escape.quote then
      let (chars, rest') := many stringChar rest.length rest
      match rest', Escape.decode chars.flatten with
      | q :: rest'', .ok s => if q = Escape.quote then some (.str s, rest'') else none
      | _, _ => none
    else none

/-- A constant, which no symbol character may follow. -/
def constant (name : Text) (f : Form) : Rule Form := fun t =>
  if t.startsWith name && !(t.drop name.length).head?.any isSymbolChar then some (f, t.drop name.length) else none

def symbol : Rule Form := fun t => (run isSymbolChar t).map fun (name, rest) => (.symbol name {}, rest)

/-! ## Forms -/

/-- A mark and its forms; of `^m t` comes `(with-meta t m)`. -/
def marked (item : Rule Form) (m : Mark) : Rule Form := fun t =>
  if t.startsWith m.text then
    (times item m.arity [] (t.drop m.text.length)).map fun (fs, rest) =>
      (.compound .list (.symbol m.head {} :: fs) none, rest)
  else none

/-- Forms between brackets. -/
def bracketed (item : Rule Form) (s : Shape) : Rule Form
  | [] => none
  | c :: rest =>
    if c = s.opener then
      let (fs, rest') := many item rest.length rest
      match afterGap rest' with
      | [] => none
      | d :: rest'' => if d = s.closer then some (.compound s fs none, rest'') else none
    else none

/-- The alternatives for a form, in order. -/
def alternatives (item : Rule Form) : List (Rule Form) :=
  Mark.all.map (marked item) ++ [Shape.list, .vector, .map].map (bracketed item) ++
    [keyword, number, string, constant "true" (.bool true), constant "false" (.bool false), constant "nil" .nil, symbol]

/-- A form in which no more than `depth` forms lie within one another, after separators and comments. -/
def form : (depth : Nat) → Rule Form
  | 0, _ => none
  | depth + 1, t => (alternatives (form depth)).findSome? (· (afterGap t))

/-- The forms of a whole text, if forms make up all of it. -/
def read (t : Text) : Option (List Form) :=
  let (fs, rest) := many (form (t.length + 1)) t.length t
  if (afterGap rest).isEmpty then some fs else none

end MalForms.Grammar
