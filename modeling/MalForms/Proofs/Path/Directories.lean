import MalForms.Path
import MalForms.Proofs.Form.Printing
import Mathlib.Data.List.TakeWhile

/-!
# Directories by their names

An absolute path without `.`, `..` and empty components is a root, of one slash or two, and the names that lead down
from it. The operations on paths look at texts alone; on these paths they do what they are for.

* `normal_iff`: an absolute path is of this kind if and only if normalising leaves it as it is.
* `join_path`: a path in a directory has one name more.
* `parent_path`: going up leaves the last name out, and the root as it is.
-/

namespace MalForms.Path

/-- A component that leads down from a directory. -/
structure IsName (n : Text) : Prop where
  ne_nil : n ≠ []
  ne_self : n ≠ self
  ne_above : n ≠ above
  slashless : ∀ c ∈ n, isSlash c = false
  nulless : ∀ c ∈ n, c.val ≠ 0

instance (n : Text) : Decidable (IsName n) :=
  decidable_of_iff (n ≠ [] ∧ n ≠ self ∧ n ≠ above ∧ (∀ c ∈ n, isSlash c = false) ∧ ∀ c ∈ n, c.val ≠ 0)
    ⟨fun ⟨h₁, h₂, h₃, h₄, h₅⟩ => ⟨h₁, h₂, h₃, h₄, h₅⟩, fun ⟨h₁, h₂, h₃, h₄, h₅⟩ => ⟨h₁, h₂, h₃, h₄, h₅⟩⟩

/-- A directory: the root it is under, and the names that lead to it. -/
structure Directory where
  root : Text
  names : List Text
  root_eq : root = [slash] ∨ root = [slash, slash]
  isName : ∀ n ∈ names, IsName n

namespace Directory

def path (d : Directory) : Text := d.root ++ Text.join [slash] d.names

/-- The path of something in the directory. -/
def file (d : Directory) (name : Text) : Text := d.root ++ Text.join [slash] (d.names ++ [name])

/-- The directory so many levels up; above the root there is none but the root. -/
def up (d : Directory) (k : Nat) : Directory :=
  { d with
    names := d.names.take (d.names.length - k)
    isName := fun n hn => d.isName n (List.mem_of_mem_take hn) }

theorem up_zero (d : Directory) : d.up 0 = d := by
  simp [up]

theorem up_up (d : Directory) (j k : Nat) : (d.up j).up k = d.up (j + k) := by
  have hlevels : min (d.names.length - j) d.names.length - k = d.names.length - (j + k) := by omega
  have hle : min (d.names.length - (j + k)) (d.names.length - j) = d.names.length - (j + k) := by omega
  simp only [up, List.length_take, List.take_take, hlevels, hle]

/-- The path with a slash at its end. -/
def front (d : Directory) : Text := if d.names = [] then d.root else d.path ++ [slash]

end Directory

/-! ## Roots and names -/

section Texts

variable {n : Text} {names : List Text} {d : Directory}

theorem join_concat (h : names ≠ []) (n : Text) :
    Text.join [slash] (names ++ [n]) = Text.join [slash] names ++ slash :: n := by
  obtain _ | ⟨m, names⟩ := names
  · exact absurd rfl h
  · rw [List.cons_append, Form.join_cons, Form.join_cons, List.flatMap_append]
    simp

theorem mem_join {c : CodePoint} (h : c ∈ Text.join [slash] names) : c = slash ∨ ∃ n ∈ names, c ∈ n := by
  obtain _ | ⟨m, names⟩ := names
  · cases h
  · rw [Form.join_cons, List.mem_append, List.mem_flatMap] at h
    rcases h with h | ⟨n, hn, h⟩
    · exact .inr ⟨m, List.mem_cons_self, h⟩
    · rcases List.mem_cons.1 h with rfl | h
      · exact .inl rfl
      · exact .inr ⟨n, List.mem_cons_of_mem m hn, h⟩

theorem file_eq (d : Directory) (n : Text) : d.file n = d.front ++ n := by
  rw [Directory.file, Directory.front]
  split_ifs with h
  · rw [h]
    rfl
  · rw [join_concat h, Directory.path, List.append_assoc, List.append_assoc]
    rfl

theorem path_of_root (h : d.names = []) : d.path = d.root := by
  rw [Directory.path, h]
  exact List.append_nil d.root

/-- A directory is the root, or it is in the directory above it. -/
theorem root_or_below (d : Directory) : d.names = [] ∨ ∃ n, IsName n ∧ d.path = (d.up 1).file n := by
  obtain hnames | ⟨names, n, hnames⟩ := List.eq_nil_or_concat d.names
  · exact .inl hnames
  · rw [List.concat_eq_append] at hnames
    have hup : (d.up 1).names = names := by simp [Directory.up, hnames]
    refine .inr ⟨n, d.isName n (by simp [hnames]), ?_⟩
    rw [Directory.file, hup, Directory.path, hnames]
    rfl

theorem root_all (d : Directory) : ∀ c ∈ d.root, isSlash c = true := by
  rcases d.root_eq with h | h <;> rw [h] <;> decide

theorem getLast?_root (d : Directory) : d.root.getLast? = some slash := by
  rcases d.root_eq with h | h <;> rw [h] <;> rfl

/-- The path of a directory below the root does not end in a slash. -/
theorem getLast?_path (h : d.names ≠ []) : ∃ c, d.path.getLast? = some c ∧ isSlash c = false := by
  obtain hnil | ⟨n, hn, hpath⟩ := root_or_below d
  · exact absurd hnil h
  · refine ⟨n.getLast hn.ne_nil, ?_, hn.slashless _ (List.getLast_mem hn.ne_nil)⟩
    rw [hpath, file_eq, List.getLast?_append, List.getLast?_eq_some_getLast hn.ne_nil]
    rfl

theorem getLast?_front (d : Directory) : d.front.getLast? = some slash := by
  rw [Directory.front]
  split_ifs
  · exact getLast?_root d
  · simp

end Texts

/-! ## Going up and down -/

section Moves

variable {n : Text} {d : Directory}

/-- Trimming takes off the end what it is for, up to a code point that it is not for. -/
theorem trimEnd_append {p : CodePoint → Bool} {s t : Text} (hs : ∀ c, s.getLast? = some c → p c = false)
    (ht : ∀ c ∈ t, p c = true) : trimEnd p (s ++ t) = s := by
  have hstays : s.reverse.dropWhile p = s.reverse := by
    rw [List.dropWhile_eq_self_iff]
    intro hlen
    rw [Bool.not_eq_true]
    apply hs
    rw [← List.head?_reverse, List.head?_eq_getElem?, List.getElem?_eq_getElem]
  rw [trimEnd, List.reverse_append, List.dropWhile_append_of_pos (by simpa using ht), hstays, List.reverse_reverse]

/-- A path in a directory has one name more. -/
theorem join_path (d : Directory) (h : n.head? ≠ some slash) : join d.path n = d.file n := by
  rw [join, if_neg h, file_eq, Directory.front]
  by_cases hnames : d.names = []
  · rw [if_pos hnames, path_of_root hnames, getLast?_root]
    simp
  · obtain ⟨c, hc, hslash⟩ := getLast?_path hnames
    have hne : c ≠ slash := by
      rintro rfl
      exact absurd hslash (by decide)
    have hsome : d.path ≠ [] := by
      intro hnil
      rw [hnil] at hc
      cases hc
    rw [if_neg hnames, hc]
    simp [hne, hsome]

/-- Going up from something in a directory leads to the directory. -/
theorem parent_file (d : Directory) (h : ∀ c ∈ n, isSlash c = false) : parent (d.file n) = d.path := by
  have hhead : trimEnd (!isSlash ·) (d.file n) = d.front := by
    rw [file_eq]
    apply trimEnd_append
    · rintro c hc
      rw [getLast?_front] at hc
      cases hc
      rfl
    · intro c hc
      rw [h c hc]
      rfl
  simp only [parent, hhead, Directory.front]
  by_cases hnames : d.names = []
  · rw [if_pos hnames, if_pos (List.all_eq_true.2 (root_all d)), path_of_root hnames]
  · obtain ⟨c, hc, hslash⟩ := getLast?_path hnames
    have hall : ¬(d.path ++ [slash]).all isSlash = true := by
      intro hall
      have hmem : c ∈ d.path ++ [slash] := List.mem_append_left _ (List.mem_of_getLast? hc)
      rw [List.all_eq_true.1 hall c hmem] at hslash
      cases hslash
    rw [if_neg hnames, if_neg hall]
    apply trimEnd_append
    · intro c' hc'
      rw [hc] at hc'
      cases hc'
      exact hslash
    · decide

theorem path_up_of_root (h : d.names = []) : (d.up 1).path = d.path := by
  simp [Directory.up, Directory.path, h]

/-- Going up leaves the last name out, and the root as it is. -/
theorem parent_path (d : Directory) : parent d.path = (d.up 1).path := by
  obtain hroot | ⟨n, hn, hpath⟩ := root_or_below d
  · have hfile : d.path = d.file [] := by
      rw [file_eq, Directory.front, if_pos hroot, List.append_nil, path_of_root hroot]
    rw [path_up_of_root hroot, hfile, parent_file d (by simp), ← hfile]
  · rw [hpath, parent_file (d.up 1) hn.slashless]

theorem length_path_le_front (d : Directory) : d.path.length ≤ d.front.length := by
  rw [Directory.front]
  split_ifs with hroot
  · rw [path_of_root hroot]
  · simp

/-- Below the root, going up leads elsewhere. -/
theorem parent_ne_self (h : d.names ≠ []) : parent d.path ≠ d.path := by
  obtain hroot | ⟨n, hn, hpath⟩ := root_or_below d
  · exact absurd hroot h
  · have hfront := length_path_le_front (d.up 1)
    have hpos := List.length_pos_iff.2 hn.ne_nil
    intro hself
    have hlen := congrArg List.length hself
    rw [parent_path, hpath, file_eq, List.length_append] at hlen
    omega

end Moves

/-! ## Normal paths -/

section Normal

variable {n : Text} {names : List Text} {d : Directory}

theorem components_name (h : ∀ c ∈ n, isSlash c = false) (t : Text) :
    components (n ++ slash :: t) = n :: components t := by
  induction n with
  | nil => rfl
  | cons c n ih =>
    rw [List.forall_mem_cons] at h
    rw [List.cons_append, components, ih h.2, h.1]
    rfl

theorem components_last (h : ∀ c ∈ n, isSlash c = false) : components n = [n] := by
  induction n with
  | nil => rfl
  | cons c n ih =>
    rw [List.forall_mem_cons] at h
    rw [components, ih h.2, h.1]
    rfl

theorem components_join (hne : names ≠ []) (h : ∀ n ∈ names, IsName n) :
    components (Text.join [slash] names) = names := by
  induction names with
  | nil => exact absurd rfl hne
  | cons n names ih =>
    rw [List.forall_mem_cons] at h
    cases names with
    | nil => exact components_last h.1.slashless
    | cons m names =>
      rw [Text.join, List.append_assoc]
      · refine (components_name h.1.slashless _).trans ?_
        exact congrArg (n :: ·) (ih (List.cons_ne_nil _ _) h.2)
      · exact List.cons_ne_nil _ _

theorem mem_components {t : Text} (h : n ∈ components t) : ∀ c ∈ n, c ∈ t ∧ isSlash c = false := by
  fun_induction components t generalizing n with
  | case1 =>
    rw [List.mem_singleton] at h
    subst h
    exact fun c hc => absurd hc List.not_mem_nil
  | case2 a rest ha ih =>
    rcases List.mem_cons.1 h with rfl | h
    · exact fun c hc => absurd hc List.not_mem_nil
    · intro c hc
      exact ⟨List.mem_cons_of_mem a (ih h c hc).1, (ih h c hc).2⟩
  | case3 a rest ha _ _ =>
    rw [List.mem_singleton] at h
    subst h
    intro c hc
    obtain rfl := List.mem_singleton.1 hc
    exact ⟨List.mem_cons_self, Bool.eq_false_iff.2 ha⟩
  | case4 a rest ha name names hrest ih =>
    rw [hrest] at ih
    rcases List.mem_cons.1 h with rfl | h
    · intro c hc
      rcases List.mem_cons.1 hc with rfl | hc
      · exact ⟨List.mem_cons_self, Bool.eq_false_iff.2 ha⟩
      · exact ⟨List.mem_cons_of_mem a (ih List.mem_cons_self c hc).1, (ih List.mem_cons_self c hc).2⟩
    · intro c hc
      have hlater := ih (List.mem_cons_of_mem name h) c hc
      exact ⟨List.mem_cons_of_mem a hlater.1, hlater.2⟩

theorem enter_name (h : IsName n) (names : List Text) : enter true names n = n :: names := by
  simp [enter, h.ne_nil, h.ne_self, h.ne_above]

theorem foldl_enter (h : ∀ n ∈ names, IsName n) (seen : List Text) :
    names.foldl (enter true) seen = names.reverse ++ seen := by
  induction names generalizing seen with
  | nil => rfl
  | cons n names ih =>
    rw [List.forall_mem_cons] at h
    rw [List.foldl_cons, enter_name h.1, ih h.2]
    simp

/-- Entering components without slashes and NULs leaves names only. -/
theorem isName_enter {seen : List Text} (hseen : ∀ m ∈ seen, IsName m) (hn : ∀ c ∈ n, isSlash c = false ∧ c.val ≠ 0) :
    ∀ m ∈ enter true seen n, IsName m := by
  unfold enter
  split_ifs with hself habove
  · exact hseen
  · rw [List.forall_mem_cons]
    simp only [Bool.or_eq_true, decide_eq_true_eq, not_or] at hself
    exact ⟨⟨hself.1, hself.2, habove, fun c hc => (hn c hc).1, fun c hc => (hn c hc).2⟩, hseen⟩
  · cases seen with
    | nil => exact hseen
    | cons last rest =>
      rw [List.forall_mem_cons] at hseen
      show ∀ m ∈ (if last = above then above :: last :: rest else rest), IsName m
      rw [if_neg hseen.1.ne_above]
      exact hseen.2
  · contradiction

theorem isName_foldl {seen : List Text} (hseen : ∀ m ∈ seen, IsName m)
    (hnames : ∀ n ∈ names, ∀ c ∈ n, isSlash c = false ∧ c.val ≠ 0) :
    ∀ m ∈ names.foldl (enter true) seen, IsName m := by
  induction names generalizing seen with
  | nil => exact hseen
  | cons n names ih =>
    rw [List.forall_mem_cons] at hnames
    exact ih (isName_enter hseen hnames.1) hnames.2

theorem nulless_normal (p : Text) : ∀ c ∈ normal p, c.val ≠ 0 := by
  unfold normal
  simp only
  split_ifs
  · decide
  · intro c hc
    have hkept := List.mem_takeWhile_imp hc
    exact of_decide_eq_true hkept

theorem nulless_path (d : Directory) : ∀ c ∈ d.path, c.val ≠ 0 := by
  intro c hc
  have hslash : slash.val ≠ 0 := by decide
  rcases List.mem_append.1 hc with hc | hc
  · have h := root_all d c hc
    rw [isSlash, decide_eq_true_eq] at h
    rwa [h]
  · rcases mem_join hc with rfl | ⟨n, hn, hc⟩
    · exact hslash
    · exact (d.isName n hn).nulless c hc

theorem leadingSlashes_path (d : Directory) : leadingSlashes d.path = d.root := by
  have hnames : (Text.join [slash] d.names).takeWhile isSlash = [] := by
    cases hd : d.names with
    | nil => rfl
    | cons n names =>
      have hn := d.isName n (by simp [hd])
      rw [Form.join_cons]
      obtain _ | ⟨c, n⟩ := n
      · exact absurd rfl hn.ne_nil
      · rw [List.cons_append, List.takeWhile_cons, hn.slashless c List.mem_cons_self]
        rfl
  rw [leadingSlashes, Directory.path, List.takeWhile_append_of_pos (root_all d), hnames, List.append_nil]
  rcases d.root_eq with h | h <;> rw [h] <;> rfl

theorem foldl_components_path (d : Directory) : (components d.path).foldl (enter true) [] = d.names.reverse := by
  have hjoin : (components (Text.join [slash] d.names)).foldl (enter true) [] = d.names.reverse := by
    by_cases hnames : d.names = []
    · rw [hnames]
      rfl
    · rw [components_join hnames d.isName, foldl_enter d.isName, List.append_nil]
  rcases d.root_eq with h | h <;> rw [Directory.path, h] <;> exact hjoin

theorem root_ne_nil (d : Directory) : d.root ≠ [] := by
  rcases d.root_eq with h | h <;> rw [h] <;> exact List.cons_ne_nil _ _

/-- Normalising comes to the directory of the slashes at the front and the names that are left. -/
theorem normal_eq_path {p : Text} (hroot : leadingSlashes p = d.root)
    (hnames : (components p).foldl (enter true) [] = d.names.reverse) : normal p = d.path := by
  have hwhole : d.path.takeWhile (·.val ≠ 0) = d.path :=
    List.takeWhile_eq_self_iff.2 fun c hc => decide_eq_true (nulless_path d c hc)
  have hfront : d.root.isEmpty = false := List.isEmpty_eq_false_iff.2 (root_ne_nil d)
  have hsome : d.path.isEmpty = false :=
    List.isEmpty_eq_false_iff.2 (List.append_ne_nil_of_left_ne_nil (root_ne_nil d) _)
  simp only [normal, hroot, hfront, Bool.not_false, hnames, List.reverse_reverse]
  rw [← Directory.path, hwhole, hsome]
  rfl

theorem root_of_absolute {p : Text} (h : p.head? = some slash) :
    leadingSlashes p = [slash] ∨ leadingSlashes p = [slash, slash] := by
  obtain ⟨rest, rfl⟩ := List.head?_eq_some_iff.1 h
  have hlen : ((slash :: rest).takeWhile isSlash).length = (rest.takeWhile isSlash).length + 1 := rfl
  rw [leadingSlashes, hlen]
  split
  · omega
  · exact .inr rfl
  · exact .inl rfl

/-- **The normal absolute paths are the paths of directories.** -/
theorem normal_iff {p : Text} : p.head? = some slash ∧ normal p = p ↔ ∃ d : Directory, d.path = p := by
  constructor
  · rintro ⟨habsolute, hnormal⟩
    have hnull : ∀ c ∈ p, c.val ≠ 0 := hnormal ▸ nulless_normal p
    have hnames : ∀ m ∈ (components p).foldl (enter true) [], IsName m :=
      isName_foldl (fun m hm => absurd hm List.not_mem_nil) fun n hn c hc =>
        ⟨(mem_components hn c hc).2, hnull c (mem_components hn c hc).1⟩
    let d : Directory :=
      { root := leadingSlashes p
        names := ((components p).foldl (enter true) []).reverse
        root_eq := root_of_absolute habsolute
        isName := fun n hn => hnames n (List.mem_reverse.1 hn) }
    exact ⟨d, (normal_eq_path (d := d) rfl (List.reverse_reverse _).symm).symm.trans hnormal⟩
  · rintro ⟨d, rfl⟩
    refine ⟨?_, normal_eq_path (leadingSlashes_path d) (foldl_components_path d)⟩
    rcases d.root_eq with h | h <;> rw [Directory.path, h] <;> rfl

end Normal

end MalForms.Path
