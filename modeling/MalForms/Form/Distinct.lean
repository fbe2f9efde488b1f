import MalForms.Form

/-!
# Forms as keys

Forms without items can be keys, and keys are told apart by loose equality: `true` and 1 are one key, `false` and 0
another. Compound forms are no keys.
-/

namespace MalForms

/-- What a key is told apart by. -/
inductive Key where
  | nil
  | number (n : Int)
  | str (s : Text)
  | symbol (name : Text)
  | keyword (name : Text)
deriving DecidableEq

namespace Form

def key? : Form → Option Key
  | nil => some .nil
  | bool b => some (.number b.toInt)
  | int n => some (.number n)
  | str s => some (.str s)
  | symbol name _ => some (.symbol name)
  | keyword name _ => some (.keyword name)
  | compound _ _ _ => none

/-- The report of a form that is no key. -/
def noKey (f : Form) : Text := .concat ["unhashable type: '", f.kindName, "'"]

/-- Put the index `i` into the group of its key, behind all groups if the key is new. -/
def insertKey (i : Nat) (k : Key) : List (Key × List Nat) → List (Key × List Nat)
  | [] => [(k, [i])]
  | (k', is) :: rest => if k' = k then (k', is ++ [i]) :: rest else (k', is) :: insertKey i k rest

/-- Add the forms, the first of which has index `i`, to groups; the first form that is no key is given back. -/
def groupFrom (i : Nat) (groups : List (Key × List Nat)) : List Form → Except Form (List (Key × List Nat))
  | [] => .ok groups
  | f :: fs =>
    match f.key? with
    | none => .error f
    | some k => groupFrom (i + 1) (insertKey i k groups) fs

/-- The indices of equal forms, in groups ordered by their first form. Fails at the first form that is no key. -/
def groups (fs : List Form) : Except Form (List (List Nat)) := (groupFrom 0 [] fs).map fun gs => gs.map Prod.snd

end Form

end MalForms
