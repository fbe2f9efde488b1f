import MalForms.Text

/-!
# Paths as texts

A path is a text whose components stand between slashes; it is absolute if it starts with one. The operations here
look at the text alone, not at what stands on a disk.

* `absolute`: the path from the root, without empty components, `.` and `..`.
* `parent`: the path without its last component; a prefix of the path, and the path itself only at the root or for the
  empty path.
-/

namespace MalForms.Path

def slash : CodePoint := '/'

def isSlash (c : CodePoint) : Bool := c = slash

/-- The components of a path, some of which may be empty. -/
def components : Text → List Text
  | [] => [[]]
  | c :: rest =>
    if isSlash c then [] :: components rest
    else
      match components rest with
      | [] => [[c]]
      | name :: names => (c :: name) :: names

/-- The path of `p` as seen from the directory `dir`. -/
def join (dir p : Text) : Text :=
  if p.head? = some slash then p
  else if dir.isEmpty || dir.getLast? = some slash then dir ++ p
  else dir ++ slash :: p

/-- The name of the directory itself. -/
def self : Text := ['.']

/-- The name of the directory above. -/
def above : Text := ['.', '.']

/-- Go on from components, the last one first, by one component: `..` leaves the last one, and at the root it stays. -/
def enter (absolute : Bool) (names : List Text) (name : Text) : List Text :=
  if name = [] || name = self then names
  else if name ≠ above then name :: names
  else
    match names with
    | [] => if absolute then [] else [above]
    | last :: rest => if last = above then above :: names else rest

/-- The slashes that stay at the front of a path: none, one, or two if there are exactly two. -/
def leadingSlashes (p : Text) : Text :=
  match (p.takeWhile isSlash).length with
  | 0 => []
  | 2 => [slash, slash]
  | _ => [slash]

/-- The path without empty components, `.` and components that a `..` leaves again. It ends where a NUL is left in it. -/
def normal (p : Text) : Text :=
  let front := leadingSlashes p
  let names := (components p).foldl (enter !front.isEmpty) []
  let q := (front ++ Text.join [slash] names.reverse).takeWhile (·.val ≠ 0)
  if q.isEmpty then self else q

/-- The path from the root, for someone who is in the directory `cwd`. -/
def absolute (cwd p : Text) : Text := normal (join cwd p)

/-- The text up to its last code point that is not `c`. -/
def trimEnd (p : CodePoint → Bool) (t : Text) : Text := (t.reverse.dropWhile p).reverse

/-- The path without its last component. -/
def parent (p : Text) : Text :=
  let head := trimEnd (!isSlash ·) p
  if head.all isSlash then head else trimEnd isSlash head

theorem trimEnd_isPrefix (p : CodePoint → Bool) (t : Text) : trimEnd p t <+: t := by
  have h := List.dropWhile_suffix p (l := t.reverse)
  simpa [trimEnd, ← List.reverse_suffix] using h

theorem parent_isPrefix (p : Text) : parent p <+: p := by
  unfold parent
  simp only
  split
  · exact trimEnd_isPrefix _ _
  · exact (trimEnd_isPrefix _ _).trans (trimEnd_isPrefix _ _)

/-- Going up makes a path shorter, where it changes it. -/
theorem length_parent_lt {p : Text} (h : parent p ≠ p) : (parent p).length < p.length :=
  Nat.lt_of_le_of_ne (parent_isPrefix p).length_le fun e => h ((parent_isPrefix p).eq_of_length e)

end MalForms.Path
