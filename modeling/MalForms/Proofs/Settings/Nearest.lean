import MalForms.Disk.Tree
import MalForms.Proofs.Path.Directories
import MalForms.Settings

/-!
# The nearest settings file

* `find_nearest`: from a directory on, the search finds the settings file of the nearest directory that has one, among
  the directory itself and all above it up to the root, and nothing only if none of them has one.

The search knows no directories, only texts, and ends where going up does not change the text. On the path of a
directory it tries the settings file of each directory above it once (`candidates_path`), and it stops at the first of
the candidates that is a file (`findFrom_eq_find?`).
-/

namespace MalForms.Settings

open MalForms.Path (Directory)

/-- The search finds the first candidate that is a file. -/
theorem findFrom_eq_find? (isFile : Text → Bool) (dir : Text) :
    findFrom isFile dir = (candidates dir).find? isFile := by
  fun_induction findFrom isFile dir with
  | case1 dir h => rw [candidates, List.find?_cons, h]
  | case2 dir h hself =>
    rw [candidates, List.find?_cons, dif_pos hself]
    simp [h]
  | case3 dir h hself ih =>
    rw [candidates, List.find?_cons, dif_neg hself, ih]
    simp [h]

/-- The settings files of a directory and those above it, the nearest first. -/
def filesAbove (d : Directory) : List Text :=
  (List.range (d.names.length + 1)).map fun k => (d.up k).file fileName

/-- From the path of a directory on, the search tries each directory up to the root once. -/
theorem candidates_path (d : Directory) : candidates d.path = filesAbove d := by
  induction hlevels : d.names.length generalizing d with
  | zero =>
    have hnames : d.names = [] := List.length_eq_zero_iff.1 hlevels
    have hself : Path.parent d.path = d.path := (Path.parent_path d).trans (Path.path_up_of_root hnames)
    rw [candidates, dif_pos hself, Path.join_path d (by decide), filesAbove, hlevels]
    simp [Directory.up_zero]
  | succ n ih =>
    have hnames : d.names ≠ [] := List.ne_nil_of_length_eq_add_one hlevels
    have hlevels' : (d.up 1).names.length = n := by simp [Directory.up, hlevels]
    have hups (k : Nat) : (d.up 1).up k = d.up (k + 1) := by rw [Directory.up_up, Nat.add_comm]
    rw [candidates, dif_neg (Path.parent_ne_self hnames), Path.parent_path, ih (d.up 1) hlevels',
      Path.join_path d (by decide), filesAbove, filesAbove, hlevels, hlevels', List.range_succ_eq_map (n := n + 1)]
    simp [Directory.up_zero, hups, Function.comp_def]

theorem findFrom_path (isFile : Text → Bool) (d : Directory) :
    findFrom isFile d.path =
      ((List.range (d.names.length + 1)).find? fun k => isFile ((d.up k).file fileName)).map
        fun k => (d.up k).file fileName := by
  rw [findFrom_eq_find?, candidates_path, filesAbove, List.find?_map]
  rfl

/-- The search finds a settings file if that is a file and none in a nearer directory is. -/
theorem findFrom_eq_some_iff {isFile : Text → Bool} {d : Directory} {path : Text} :
    findFrom isFile d.path = some path ↔
      ∃ k ≤ d.names.length, path = (d.up k).file fileName ∧ isFile path = true ∧
        ∀ j < k, isFile ((d.up j).file fileName) = false := by
  rw [findFrom_path, Option.map_eq_some_iff]
  constructor
  · rintro ⟨k, hk, rfl⟩
    obtain ⟨hfile, hmem, hnearer⟩ := List.find?_range_eq_some.1 hk
    refine ⟨k, Nat.le_of_lt_succ (List.mem_range.1 hmem), rfl, hfile, fun j hj => ?_⟩
    simpa using hnearer j hj
  · rintro ⟨k, hk, rfl, hfile, hnearer⟩
    refine ⟨k, List.find?_range_eq_some.2 ⟨hfile, List.mem_range.2 (Nat.lt_succ_of_le hk), fun j hj => ?_⟩, rfl⟩
    rw [hnearer j hj]
    rfl

/-- The search finds nothing if there is nothing to find. -/
theorem findFrom_eq_none_iff {isFile : Text → Bool} {d : Directory} :
    findFrom isFile d.path = none ↔ ∀ k ≤ d.names.length, isFile ((d.up k).file fileName) = false := by
  rw [findFrom_path, Option.map_eq_none_iff, List.find?_range_eq_none]
  simp only [Nat.lt_succ_iff, Bool.not_eq_true']

/-- A normal absolute path is where the search starts. -/
theorem find?_normal (disk : Disk) {start : Text} (habsolute : start.head? = some Path.slash)
    (hnormal : Path.normal start = start) : find? disk start = findFrom disk.isFile start := by
  have hsome : start.isEmpty = false := by
    obtain ⟨rest, rfl⟩ := List.head?_eq_some_iff.1 habsolute
    rfl
  rw [find?, hsome, Path.absolute, Path.join, if_pos habsolute, hnormal]
  rfl

/-- **The search finds the nearest settings file.** A normal absolute path is that of a directory. From there on the
search tries the settings file of each directory up to the root once. It finds one if that is a file and none nearer is,
and it finds none if and only if none of them is a file. This is the search from a given directory and from the working
directory. -/
theorem find_nearest (start : Text) (habsolute : start.head? = some Path.slash) (hnormal : Path.normal start = start) :
    (∃ d : Directory, d.path = start) ∧
    (∀ d : Directory, d.path = start →
      candidates start = filesAbove d ∧
      (∀ (isFile : Text → Bool) (path : Text), findFrom isFile start = some path ↔
        ∃ k ≤ d.names.length, path = (d.up k).file fileName ∧ isFile path = true ∧
          ∀ j < k, isFile ((d.up j).file fileName) = false) ∧
      ∀ isFile : Text → Bool, findFrom isFile start = none ↔
        ∀ k ≤ d.names.length, isFile ((d.up k).file fileName) = false) ∧
    (∀ disk : Disk, find? disk start = findFrom disk.isFile start) ∧
    ∀ disk : Disk, disk.cwd = start → find? disk [] = findFrom disk.isFile start := by
  refine ⟨Path.normal_iff.1 ⟨habsolute, hnormal⟩, ?_, fun disk => find?_normal disk habsolute hnormal, ?_⟩
  · rintro d rfl
    exact ⟨candidates_path d, fun _ _ => findFrom_eq_some_iff, fun _ => findFrom_eq_none_iff⟩
  · rintro disk rfl
    rfl

/-- In the directory `a` something else is called as settings files are, and the file is at the root. -/
theorem find_nearest_root :
    let disk := Tree.disk [([Path.encode ".malrc"], .file []), ([Path.encode "a"], .directory),
      ([Path.encode "a", Path.encode ".malrc"], .directory), ([Path.encode "a", Path.encode "b"], .directory)] "/a/b"
    let start : Text := "/a/b"
    start.head? = some Path.slash ∧ Path.normal start = start ∧ find? disk start = some (Text.ofString "/.malrc") ∧
      find? disk [] = some (Text.ofString "/.malrc") := by
  intro disk start
  have habsolute : start.head? = some Path.slash := by decide
  have hnormal : Path.normal start = start := by decide
  let d : Directory := ⟨"/", ["a", "b"], .inl rfl, by decide⟩
  obtain ⟨-, hall, hstart, hcwd⟩ := find_nearest start habsolute hnormal
  obtain ⟨-, hsome, -⟩ := hall d rfl
  have hfound : findFrom disk.isFile start = some (Text.ofString "/.malrc") :=
    (hsome disk.isFile _).2 ⟨2, by decide, by decide, by decide +kernel, by decide +kernel⟩
  exact ⟨habsolute, hnormal, (hstart disk).trans hfound, (hcwd disk rfl).trans hfound⟩

end MalForms.Settings
