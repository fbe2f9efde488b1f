import MalForms.Form

/-!
# When two forms are the same

Two forms are the same if they agree but for the places they were read from: the kinds of compound forms are kept apart,
and so are booleans and numbers. This is said twice: `same` recurs on the forms, `coincide` works off a list of pairs
still to be compared, so it needs no room for the depth of a form.

A looser equality (`equal`) takes `true` for 1 and `false` for 0. It is there by recursion only, with room for so many
calls within one another, and gives no answer where it would have to go deeper. Only the calls that compound forms take
are counted: for two forms without items there is always room. The two forms are taken to have been made apart: what
they have in common is compared all the same.

What the two look at is also a form: `erase` forgets the places, `numeric` writes booleans as numbers.
-/

namespace MalForms

namespace Form

/-! ## By recursion -/

mutual

/-- Whether two forms agree, places aside. -/
def same : Form → Form → Bool
  | nil, nil => true
  | bool a, bool b => a == b
  | int a, int b => a == b
  | str a, str b => a == b
  | symbol a _, symbol b _ => a == b
  | keyword a _, keyword b _ => a == b
  | compound s xs _, compound t ys _ => s == t && sameAll xs ys
  | _, _ => false

/-- Whether two lists of forms agree item by item, places aside. -/
def sameAll : List Form → List Form → Bool
  | [], [] => true
  | x :: xs, y :: ys => same x y && sameAll xs ys
  | _, _ => false

end

/-! ## By a list of pairs -/

/-- Two forms without items leave nothing to compare, unless they differ. -/
def settled (b : Bool) : Option (List (Form × Form)) := if b then some [] else none

/-- What is left to compare of two forms, pair by pair, unless they differ at once. -/
def confront : Form → Form → Option (List (Form × Form))
  | nil, nil => settled true
  | bool a, bool b => settled (a == b)
  | int a, int b => settled (a == b)
  | str a, str b => settled (a == b)
  | symbol a _, symbol b _ => settled (a == b)
  | keyword a _, keyword b _ => settled (a == b)
  | compound s xs _, compound t ys _ => if s = t ∧ xs.length = ys.length then some (xs.zip ys) else none
  | _, _ => none

/-- How much there is to compare. -/
def burden : List (Form × Form) → Nat
  | [] => 0
  | p :: ps => p.1.weight + burden ps

theorem burden_append (ps qs : List (Form × Form)) : burden (ps ++ qs) = burden ps + burden qs := by
  induction ps with
  | nil => exact (Nat.zero_add _).symm
  | cons p ps ih => rw [List.cons_append, burden, ih, burden, Nat.add_assoc]

theorem burden_reverse (ps : List (Form × Form)) : burden ps.reverse = burden ps := by
  induction ps with
  | nil => rfl
  | cons p ps ih =>
    rw [List.reverse_cons, burden_append, ih, burden, burden, burden]
    omega

theorem burden_zip (xs ys : List Form) : burden (xs.zip ys) ≤ weightAll xs := by
  induction xs generalizing ys with
  | nil => exact Nat.le_refl _
  | cons x xs ih =>
    cases ys with
    | nil => exact Nat.zero_le _
    | cons y ys =>
      have hrest := ih ys
      simp only [List.zip_cons_cons, burden, weightAll]
      omega

/-- What two forms leave to be compared is less than they were. -/
theorem burden_confront {f g : Form} {ps : List (Form × Form)} (h : confront f g = some ps) : burden ps < f.weight := by
  cases f with
  | compound s xs span =>
    cases g with
    | compound t ys span' =>
      have hitems := burden_zip xs ys
      simp only [confront, Option.ite_none_right_eq_some, Option.some.injEq] at h
      obtain ⟨-, rfl⟩ := h
      rw [weight]
      omega
    | _ => cases h
  | _ => cases g <;> simp_all [confront, settled, burden, weight]

/-- Whether all pairs agree. The pairs of items come before the pairs that wait, the last one first. -/
def coincideAll : List (Form × Form) → Bool
  | [] => true
  | (f, g) :: rest =>
    match _h : confront f g with
    | none => false
    | some ps => coincideAll (ps.reverse ++ rest)
termination_by ps => burden ps
decreasing_by
  have h := burden_confront _h
  simp only [burden_append, burden_reverse, burden]
  omega

/-- Whether two forms agree, places aside. -/
def coincide (f g : Form) : Bool := coincideAll [(f, g)]

/-! ## Loosely -/

/-- The comparison would have to go deeper than there is room for. -/
structure TooDeep where
deriving DecidableEq

def TooDeep.message (_ : TooDeep) : Text := "maximum recursion depth exceeded in comparison"

end Form

/-- How many calls it takes to come to the items of two compound forms: two lists compare their items themselves, two
vectors or maps have a comparison of their own, which compares their lists of items. -/
def Shape.comparisons : Shape → Nat
  | list => 1
  | vector | map => 3

namespace Form

mutual

/-- How many calls within one another it takes to come to all items of the form and of one that is equal to it. -/
def comparisons : Form → Nat
  | compound s xs _ => s.comparisons + comparisonsAll xs
  | _ => 0

def comparisonsAll : List Form → Nat
  | [] => 0
  | x :: xs => max (comparisons x) (comparisonsAll xs)

end

mutual

/-- Whether two forms agree, places aside and a boolean taken for 1 or 0. There is room for so many calls within one
another. -/
def equal (room : Nat) : Form → Form → Except TooDeep Bool
  | nil, nil => .ok true
  | bool a, bool b => .ok (a == b)
  | bool a, int b => .ok (a.toInt == b)
  | int a, bool b => .ok (a == b.toInt)
  | int a, int b => .ok (a == b)
  | str a, str b => .ok (a == b)
  | symbol a _, symbol b _ => .ok (a == b)
  | keyword a _, keyword b _ => .ok (a == b)
  | compound s xs _, compound t ys _ =>
    if s ≠ t then .ok false
    else if room < s.comparisons then .error {}
    else if xs.length ≠ ys.length then .ok false
    else equalAll (room - s.comparisons) xs ys
  | _, _ => .ok false

/-- Whether the items agree, one after another up to the first that do not. -/
def equalAll (room : Nat) : List Form → List Form → Except TooDeep Bool
  | x :: xs, y :: ys =>
    match equal room x y with
    | .ok true => equalAll room xs ys
    | r => r
  | _, _ => .ok true

end

/-! ## What comparison looks at -/

mutual

/-- The form without the places it was read from. -/
def erase : Form → Form
  | symbol name _ => symbol name {}
  | keyword name _ => keyword name {}
  | compound s xs _ => compound s (eraseAll xs) none
  | f => f

def eraseAll : List Form → List Form
  | [] => []
  | x :: xs => erase x :: eraseAll xs

end

mutual

/-- The form with 1 for `true` and 0 for `false`. -/
def numeric : Form → Form
  | bool b => int b.toInt
  | compound s xs span => compound s (numericAll xs) span
  | f => f

def numericAll : List Form → List Form
  | [] => []
  | x :: xs => numeric x :: numericAll xs

end

end Form

end MalForms
