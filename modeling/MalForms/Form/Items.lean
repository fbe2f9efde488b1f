import MalForms.Datum
import MalForms.SignedIndex

/-!
# The items of a form

A compound form can be looked at as the sequence of its items, and a string as the sequence of its code points, each a
string of its own. Items are found by a signed index, except in a map, which has pairs instead: keys with their values.
-/

namespace MalForms.Form

/-- The items of a form that has items. -/
def members? : Form → Option (List Form)
  | compound _ items _ => some items
  | str s => some (s.map fun c => str [c])
  | _ => none

/-- What a form is asked for in vain. -/
inductive ItemFault where
  | noLength (f : Form)
  | notIterable (f : Form)
  | notIndexed (f : Form)
  | noMember (f : Form) (fault : SignedIndex.Fault)
  | noPairs (f : Form)
  | oddMap (line : Int)

def ItemFault.message : ItemFault → Text
  | noLength f => .concat ["object of type '", f.kindName, "' has no len()"]
  | notIterable f => .concat ["'", f.kindName, "' object is not iterable"]
  | notIndexed f => .concat ["'", f.kindName, "' object is not subscriptable"]
  | noMember (str _) fault => fault.message "string"
  | noMember _ fault => fault.message "list"
  | noPairs f => .concat ["'", f.kindName, "' object has no attribute 'pairs'"]
  | oddMap line => (Datum.Fault.oddMap line).message

def memberCount (f : Form) : Except ItemFault Nat :=
  match f.members? with
  | some items => .ok items.length
  | none => .error (.noLength f)

def memberList (f : Form) : Except ItemFault (List Form) :=
  match f.members? with
  | some items => .ok items
  | none => .error (.notIterable f)

/-- The items of a form in which items have an index. -/
def indexed (f : Form) : Except ItemFault (List Form) :=
  match f, f.members? with
  | compound .map _ _, _ => .error (.notIndexed f)
  | _, some items => .ok items
  | _, none => .error (.notIndexed f)

/-- The item at an index. -/
def member (f : Form) (i : Int) : Except ItemFault Form := do
  match SignedIndex.get (← f.indexed) i with
  | .ok g => return g
  | .error fault => .error (.noMember f fault)

/-- The items from one index up to another. -/
def memberSlice (f : Form) (a b : Option Int) : Except ItemFault (List Form) := do
  return SignedIndex.slice (← f.indexed) a b

/-- The items two by two. -/
def inTwos : List Form → List (Form × Form)
  | k :: v :: rest => (k, v) :: inTwos rest
  | _ => []

/-- The keys and values of a map, if the number of its items is even. -/
def pairs (f : Form) : Except ItemFault (List (Form × Form)) :=
  match f with
  | compound .map items span =>
    if items.length % 2 ≠ 0 then .error (.oddMap (span.getD {}).line) else .ok (inTwos items)
  | _ => .error (.noPairs f)

end MalForms.Form
