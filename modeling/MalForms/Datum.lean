import MalForms.Form
import MalForms.Text.Decimal

/-!
# Forms as plain data

A form read as data, with symbols and keywords taken for strings: lists and vectors become sequences, and maps become
dictionaries. The keys of a dictionary are plain values, told apart as keys are (`true` is 1, `false` is 0); of
entries with one key the first key and the last value stay, in the place of the first.

A map with an odd number of items has no dictionary, nor has one with a sequence or a dictionary as a key.

The conversion recurs on the form, and there is room for so many calls within one another. Each form is converted in a
call, in which another call tests what it is; the items of a compound form are converted within a call of their own, and
so are the items of a map counted, by a call that compares their number.
-/

namespace MalForms

namespace Datum

/-- A value that can be a key. -/
inductive Atom where
  | null
  | bool (b : Bool)
  | int (n : Int)
  | str (s : Text)
deriving DecidableEq

/-- The atom with a boolean written as 1 or 0: two atoms are one key if these agree. -/
def Atom.number : Atom → Atom
  | bool b => int b.toInt
  | a => a

end Datum

inductive Datum where
  | atom (a : Datum.Atom)
  | seq (items : List Datum)
  | dict (entries : List (Datum.Atom × Datum))

namespace Datum

/-- What messages call the kind of a datum. -/
def kindName : Datum → Text
  | atom .null => "NoneType"
  | atom (.bool _) => "bool"
  | atom (.int _) => "int"
  | atom (.str _) => "str"
  | seq _ => "list"
  | dict _ => "dict"

/-- What a call within the conversion is for. -/
inductive Call where
  | conversion
  | typeTest
  | comparison
deriving DecidableEq

def Call.purpose : Call → Text
  | conversion => ""
  | typeTest => " in __instancecheck__"
  | comparison => " in comparison"

/-- Why a form is no data. -/
inductive Fault where
  /-- A map on this line has an odd number of items. -/
  | oddMap (line : Int)
  /-- A key is a sequence or a dictionary. -/
  | compoundKey (key : Datum)
  /-- There is no room for a call; what it is for is told. -/
  | tooDeep (call : Call)

def Fault.message : Fault → Text
  | oddMap line => .concat ["Map literal must have even number of forms at line ", Decimal.ofInt line]
  | compoundKey key => .concat ["unhashable type: '", key.kindName, "'"]
  | tooDeep call => .concat ["maximum recursion depth exceeded", call.purpose]

/-- Put an entry into a dictionary. -/
def insert (k : Atom) (v : Datum) : List (Atom × Datum) → List (Atom × Datum)
  | [] => [(k, v)]
  | (k', v') :: rest => if k'.number = k.number then (k', v) :: rest else (k', v') :: insert k v rest

/-- The value of a key. -/
def get? (k : Atom) : List (Atom × Datum) → Option Datum
  | [] => none
  | (k', v) :: rest => if k'.number = k.number then some v else get? k rest

mutual

/-- How many calls within one another the conversion of a form takes. -/
def calls : Form → Nat
  | .compound .map items _ => max 3 (2 + callsAll items)
  | .compound _ items _ => 2 + callsAll items
  | _ => 2

def callsAll : List Form → Nat
  | [] => 0
  | f :: fs => max (calls f) (callsAll fs)

end

mutual

/-- The datum of a form, with room for so many calls. The number of a map's items is checked first; then, for one entry
after another, the key and the value are converted and the key is checked. -/
def ofForm : (room : Nat) → Form → Except Fault Datum
  | 0, _ => .error (.tooDeep .conversion)
  | 1, _ => .error (.tooDeep .typeTest)
  | _ + 2, .nil => .ok (atom .null)
  | _ + 2, .bool b => .ok (atom (.bool b))
  | _ + 2, .int n => .ok (atom (.int n))
  | _ + 2, .str s => .ok (atom (.str s))
  | _ + 2, .symbol name _ => .ok (atom (.str name))
  | _ + 2, .keyword name _ => .ok (atom (.str name))
  | room + 2, .compound .map items span =>
    if room = 0 then .error (.tooDeep .comparison)
    else if items.length % 2 ≠ 0 then .error (.oddMap (span.getD {}).line)
    else (entriesOf room [] items).map dict
  | room + 2, .compound _ items _ => (ofForms room items).map seq

def ofForms (room : Nat) : List Form → Except Fault (List Datum)
  | [] => .ok []
  | f :: fs =>
    match ofForm room f with
    | .error e => .error e
    | .ok d => (ofForms room fs).map (d :: ·)

/-- Put the entries of a map into a dictionary. -/
def entriesOf (room : Nat) (entries : List (Atom × Datum)) : List Form → Except Fault (List (Atom × Datum))
  | k :: v :: rest =>
    match ofForm room k, ofForm room v with
    | .error e, _ => .error e
    | .ok _, .error e => .error e
    | .ok (atom a), .ok d => entriesOf room (insert a d entries) rest
    | .ok key, .ok _ => .error (.compoundKey key)
  | _ => .ok entries

end

end Datum

end MalForms
