import MalForms.Text

/-!
# Forms

What source text denotes: nil, booleans, whole numbers, strings, symbols, keywords, and lists, vectors and maps of
forms. A map is the flat sequence of the forms between its braces, of odd or even length. Symbols, keywords and
compound forms carry the place they were read from; a compound form built by hand may have none.
-/

namespace MalForms

/-- Where a form stands in its source: lines are counted from 1, columns from 0, and the end is the place after it. -/
structure Span where
  line : Int := 0
  col : Int := 0
  endLine : Int := 0
  endCol : Int := 0
deriving DecidableEq

/-- The three kinds of compound forms. -/
inductive Shape where
  | list
  | vector
  | map
deriving DecidableEq

namespace Shape

def opener : Shape → CodePoint
  | list => '('
  | vector => '['
  | map => '\x7b'

def closer : Shape → CodePoint
  | list => ')'
  | vector => ']'
  | map => '\x7d'

end Shape

inductive Form where
  | nil
  | bool (b : Bool)
  | int (n : Int)
  | str (s : Text)
  | symbol (name : Text) (span : Span)
  | keyword (name : Text) (span : Span)
  | compound (shape : Shape) (items : List Form) (span : Option Span)
deriving Inhabited

namespace Form

/-- The place the form was read from, if it carries one. -/
def span? : Form → Option Span
  | symbol _ s => some s
  | keyword _ s => some s
  | compound _ _ s => s
  | _ => none

/-- What messages call the kind of a form. A list that was not read from a source has a name of its own. -/
def kindName : Form → Text
  | nil => "NoneType"
  | bool _ => "bool"
  | int _ => "int"
  | str _ => "str"
  | symbol _ _ => "Symbol"
  | keyword _ _ => "Keyword"
  | compound .list _ (some _) => "SourceList"
  | compound .list _ none => "list"
  | compound .vector _ _ => "VectorLiteral"
  | compound .map _ _ => "MapLiteral"

mutual

/-- How much there is in a form: no loop that takes it apart makes more turns. -/
def weight : Form → Nat
  | compound _ xs _ => 2 + weightAll xs
  | _ => 1

def weightAll : List Form → Nat
  | [] => 0
  | x :: xs => 1 + weight x + weightAll xs

end

/-- A property of all forms, from the forms without items and from the items of a compound form. -/
@[elab_as_elim]
theorem items_induction {motive : Form → Prop} (nil : motive nil) (bool : ∀ b, motive (bool b))
    (int : ∀ n, motive (int n)) (str : ∀ s, motive (str s)) (symbol : ∀ name span, motive (symbol name span))
    (keyword : ∀ name span, motive (keyword name span))
    (compound : ∀ shape items span, (∀ f ∈ items, motive f) → motive (compound shape items span))
    (f : Form) : motive f :=
  @Form.rec motive (fun items => ∀ g ∈ items, motive g) nil bool int str symbol keyword compound
    (fun _ h => absurd h List.not_mem_nil)
    (fun _ _ hf hr g hg => (List.mem_cons.1 hg).elim (fun e => e ▸ hf) (hr g)) f

/-- An empty list in so many lists. -/
def nested : Nat → Form
  | 0 => .compound .list [] none
  | n + 1 => .compound .list [nested n] none

/-- A form is in another one at any depth, also in itself. -/
inductive Within (g : Form) : Form → Prop
  | self : Within g g
  | item {f : Form} {s : Shape} {items : List Form} {span : Option Span} : f ∈ items → Within g f →
      Within g (.compound s items span)

end Form

end MalForms
