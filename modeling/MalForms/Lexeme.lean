import MalForms.Escape
import MalForms.Expectation

/-!
# Lexemes

The lexical rules. Between lexemes stand separators (blanks, line ends and commas) and comments, which run from a
semicolon to the end of the line. A lexeme is as long as it can be: a name takes all symbol characters it meets, a
number all digits. Alternatives are tried in a fixed order, so `12ab` is a number and then a symbol, and `true` is a
symbol as soon as a symbol character follows it.

* `gapLength`: how much of a text separators and comments take.
* `Opening.ofText?`: the bracket or reader mark a text starts with.
* `scalar`: the number, string, name or constant a text starts with.
-/

namespace MalForms.Lexeme

/-! ## Characters -/

def isSeparator (c : CodePoint) : Bool := c = ' ' || c = '\t' || c = '\r' || c = '\n' || c = ','

def isLineEnd (c : CodePoint) : Bool := c = '\r' || c = '\n'

/-- The code point that starts a comment. -/
def commentMark : CodePoint := ';'

/-- Code points with a meaning of their own, which no name contains. -/
def reserved : Text := "()[]\x7b\x7d'`~^@\x22:"

def isSymbolChar (c : CodePoint) : Bool := !isSeparator c && c ≠ commentMark && !reserved.contains c

/-! ## Gaps -/

/-- How many code points of separators and comments the text starts with; it may start inside a comment. -/
def gapLength (inComment : Bool) : Text → Nat
  | [] => 0
  | c :: rest =>
    if inComment then gapLength (!isLineEnd c) rest + 1
    else if isSeparator c then gapLength false rest + 1
    else if c = commentMark then gapLength true rest + 1
    else 0

/-! ## Openings -/

/-- A reader mark: it stands before one form or two and makes a list of them, with a symbol at its head. -/
inductive Mark where
  | withMeta
  | spliceUnquote
  | quote
  | quasiquote
  | unquote
  | deref
deriving DecidableEq

namespace Mark

def text : Mark → Text
  | withMeta => ['^']
  | spliceUnquote => ['~', '@']
  | quote => ['\x27']
  | quasiquote => ['\x60']
  | unquote => ['~']
  | deref => ['@']

/-- The name at the head of the list. -/
def head : Mark → Text
  | withMeta => "with-meta"
  | spliceUnquote => "splice-unquote"
  | quote => "quote"
  | quasiquote => "quasiquote"
  | unquote => "unquote"
  | deref => "deref"

/-- How many forms the mark takes. -/
def arity : Mark → Nat
  | withMeta => 2
  | _ => 1

/-- The marks in the order in which they are tried. -/
def all : List Mark := [withMeta, spliceUnquote, quote, quasiquote, unquote, deref]

end Mark

/-- What starts a form that holds other forms. -/
inductive Opening where
  | bracket (shape : Shape)
  | mark (m : Mark)
deriving DecidableEq

namespace Opening

def text : Opening → Text
  | bracket s => [s.opener]
  | mark m => m.text

/-- All openings in the order in which they are tried. -/
def all : List Opening := Mark.all.map mark ++ [bracket .list, bracket .vector, bracket .map]

/-- The opening that the text starts with. -/
def ofText? (t : Text) : Option Opening := all.find? fun o => t.startsWith o.text

end Opening

/-! ## Scalars -/

/-- The greatest number of digits in a numeral. -/
def maxDigits : Nat := 4300

/-- The sign and the digits of the numeral the text starts with. -/
def numeral? : Text → Option (Bool × Text)
  | [] => none
  | c :: rest =>
    let negative : Bool := c = '-'
    let digits := (if negative then rest else c :: rest).takeWhile Decimal.isDigit
    if digits.isEmpty then none else some (negative, digits)

/-- Where the reading of a string literal stands: between escapes, after a backslash, or before the last `left + 1`
digits of a code unit. -/
inductive StringState where
  | plain
  | escaped
  | unit (left : Nat)
deriving DecidableEq

/-- What the state waits for. -/
def StringState.expects : StringState → Expectation
  | plain => .quote
  | escaped => .escape
  | unit _ => .hexDigit

/-- The state after a code point, unless it does not fit. -/
def StringState.step : StringState → CodePoint → Option StringState
  | plain, c => some (if c = '\\' then escaped else plain)
  | escaped, c => if Escape.isSimple c then some plain else if c = 'u' then some (unit 3) else none
  | unit left, c => if Hex.isDigit c then some (if left = 0 then plain else unit (left - 1)) else none

/-- Read the body of a string literal: how many code points come before its closing quote, or before the place where it
breaks off, with what was expected there. -/
def bodyLength (s : StringState) : Text → Nat × Option Expectation
  | [] => (0, some s.expects)
  | c :: rest =>
    if s = .plain ∧ c = Escape.quote then (0, none)
    else
      match s.step c with
      | none => (0, some s.expects)
      | some s' => let (n, e) := bodyLength s' rest; (n + 1, e)

/-- A form without items, as its text denotes it. -/
inductive Scalar where
  | nil
  | bool (b : Bool)
  | int (n : Int)
  | str (s : Text)
  | symbol (name : Text)
  | keyword (name : Text)
deriving DecidableEq

def Scalar.toForm (span : Span) : Scalar → Form
  | nil => .nil
  | bool b => .bool b
  | int n => .int n
  | str s => .str s
  | symbol name => .symbol name span
  | keyword name => .keyword name span

/-- What a name denotes: one of three constants, or the symbol of that name. -/
def Scalar.ofName (name : Text) : Scalar :=
  if name = ("true" : Text) then bool true
  else if name = ("false" : Text) then bool false
  else if name = ("nil" : Text) then nil
  else symbol name

/-- The result of looking for a scalar at the front of a text. -/
inductive Match where
  /-- A scalar that takes this many code points. -/
  | found (s : Scalar) (length : Nat)
  /-- No scalar starts here. -/
  | absent
  /-- A string literal that breaks off this many code points in. -/
  | broken (place : Nat) (expected : Expectation)
  /-- A numeral of this length with too many digits. -/
  | overlong (digits : Nat) (length : Nat)
  /-- A string literal of this length with a sequence that is no escape. -/
  | misescaped (fault : Escape.Fault) (length : Nat)
deriving DecidableEq

/-- The string literal that follows an opening quote. -/
def stringLiteral (body : Text) : Match :=
  match bodyLength .plain body with
  | (n, some e) => .broken (n + 1) e
  | (n, none) =>
    match Escape.decode (body.take n) with
    | .ok s => .found (.str s) (n + 2)
    | .error f => .misescaped f (n + 2)

/-- The scalar the text starts with: a keyword, a number, a string, a constant or a symbol. -/
def scalar : Text → Match
  | [] => .absent
  | c :: rest =>
    if c = ':' then
      let name := rest.takeWhile isSymbolChar
      if name.isEmpty then .absent else .found (.keyword name) (name.length + 1)
    else
      match numeral? (c :: rest) with
      | some (negative, digits) =>
        let length := digits.length + negative.toNat
        if digits.length > maxDigits then .overlong digits.length length
        else .found (.int (if negative then -(Decimal.value digits : Int) else Decimal.value digits)) length
      | none =>
        if c = Escape.quote then stringLiteral rest
        else
          let name := (c :: rest).takeWhile isSymbolChar
          if name.isEmpty then .absent else .found (.ofName name) name.length

end MalForms.Lexeme
