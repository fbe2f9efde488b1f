import MalForms.Command
import MalForms.Disk.Tree
import Mathlib.Data.List.TakeWhile

/-!
# Files without a verb

Files can be given without the verb `read`, before, between and after the switches.

* `run_shorthand`: the command does the same as with all switches first, then the verb, then the files.

Proof: the words fall into groups, each a switch with its value, and operands. One group after another goes to the
switches and one operand after another to the files (`divide?_group`, `divide?_operand`), so the files come out in their
order and the switches are left as they are before the verb. From there on the two requests are the same, but for where
the files stand (`ofArguments_groups`, `ofArguments_read`), and what is done is the same for both (`fulfil_read`).
-/

namespace MalForms

/-- A word that does not start with a dash. -/
structure Operand where
  text : Text
  dashless : Arguments.startsWithDash text = false

namespace Arguments

/-- A switch together with its value. -/
inductive Group where
  | pretty
  | verbose
  | config (path : Operand)
  | log (path : Operand)

def Group.words : Group → List Text
  | pretty => ["--pretty"]
  | verbose => ["-v"]
  | config path => ["--config", path.text]
  | log path => ["--log", path.text]

/-- The words are those of groups and operands, both in their order, in any mixture that keeps each group together. -/
inductive Mixed : List Group → List Operand → List Text → Prop
  | nil : Mixed [] [] []
  | group (g : Group) {gs : List Group} {os : List Operand} {ws : List Text} : Mixed gs os ws →
      Mixed (g :: gs) os (g.words ++ ws)
  | operand (o : Operand) {gs : List Group} {os : List Operand} {ws : List Text} : Mixed gs os ws →
      Mixed gs (o :: os) (o.text :: ws)

/-! ## Taking the files out -/

section Divide

variable {first : Bool} {t : Text} {ws : List Text} {gs : List Group} {os : List Operand}

theorem takesValue_of_dashless (h : startsWithDash t = false) : takesValue t = false := by
  rw [Bool.eq_false_iff]
  intro hv
  simp only [takesValue, Parameter.names, List.any_cons, List.any_nil, Bool.or_false, Bool.or_eq_true,
    List.contains_iff_mem, List.mem_cons, List.not_mem_nil, or_false] at hv
  rcases hv with (rfl | rfl) | rfl | rfl <;> cases h

theorem divide?_switch (hv : takesValue t = false) (hd : startsWithDash t = true) (ws : List Text) :
    divide? first (t :: ws) = (divide? first ws).map fun (switches, files) => (t :: switches, files) := by
  cases ws with
  | nil => simp [divide?, hd]
  | cons u rest => simp [divide?, hv, hd]

theorem divide?_group (g : Group) (ws : List Text) :
    divide? first (g.words ++ ws) = (divide? first ws).map fun (switches, files) => (g.words ++ switches, files) := by
  cases g with
  | pretty | verbose => exact divide?_switch (by decide) (by decide) ws
  | config path | log path =>
    rw [Group.words, List.cons_append, List.cons_append, List.nil_append, divide?, if_pos (by decide)]
    rfl

/-- An operand is a file, unless it is the first and a verb. -/
theorem divide?_operand (o : Operand) (h : first = true → Verb.ofName? o.text = none) (ws : List Text) :
    divide? first (o.text :: ws) = (divide? false ws).map fun (switches, files) => (switches, o.text :: files) := by
  have hverb : (first && (Verb.ofName? o.text).isSome) = false := by
    cases first with
    | false => rfl
    | true => rw [h rfl]; rfl
  cases ws with
  | nil => simp [divide?, o.dashless, hverb]
  | cons u rest => simp [divide?, takesValue_of_dashless o.dashless, o.dashless, hverb]

theorem divide?_mixed (h : Mixed gs os ws) (hfirst : first = true → ∀ o ∈ os.head?, Verb.ofName? o.text = none) :
    divide? first ws = some (gs.flatMap Group.words, os.map Operand.text) := by
  induction h generalizing first with
  | nil => rfl
  | group g _ ih =>
    rw [divide?_group, ih hfirst]
    rfl
  | operand o _ ih =>
    have hrest := @ih false nofun
    rw [divide?_operand o fun hf => hfirst hf o rfl, hrest]
    rfl

/-- **The files come out of any mixture**, in their order. -/
theorem split_mixed (h : Mixed gs os ws) (hfirst : ∀ o ∈ os.head?, Verb.ofName? o.text = none) :
    split ws = (gs.flatMap Group.words, os.map Operand.text) := by
  rw [split, divide?_mixed h fun _ => hfirst]
  rfl

theorem divide?_verb (gs : List Group) (v : Verb) (ws : List Text) :
    divide? true (gs.flatMap Group.words ++ v.name :: ws) = none := by
  induction gs with
  | nil =>
    have hverb : (Verb.ofName? v.name).isSome = true := by cases v <;> decide
    have hvalue : takesValue v.name = false := by cases v <;> decide
    have hdash : startsWithDash v.name = false := by cases v <;> decide
    rw [List.flatMap_nil, List.nil_append]
    cases ws <;> simp [divide?, hverb, hvalue, hdash]
  | cons g gs ih => rw [List.flatMap_cons, List.append_assoc, divide?_group, ih, Option.map_none]

/-- After a verb all words stay. -/
theorem split_verb (gs : List Group) (v : Verb) (ws : List Text) :
    split (gs.flatMap Group.words ++ v.name :: ws) = (gs.flatMap Group.words ++ v.name :: ws, []) := by
  rw [split, divide?_verb]
  rfl

end Divide

end Arguments

/-! ## The request of switches in groups -/

section Requests

open Arguments

variable {known : List Switch} {t : Text} {role : Role}

def Operand.word (o : Operand) : Word := ⟨o.text, .operand⟩

theorem map_text_word (os : List Operand) : (os.map Operand.word).map Word.text = os.map Operand.text := List.map_map

/-- The words of a group with their roles. -/
def Arguments.Group.marked : Group → List Word
  | pretty => [⟨"--pretty", .use ⟨.flag .pretty, false, none⟩⟩]
  | verbose => [⟨"-v", .use ⟨.flag .verbose, true, none⟩⟩]
  | config path => [⟨"--config", .use ⟨.parameter .config, false, none⟩⟩, path.word]
  | log path => [⟨"--log", .use ⟨.parameter .log, false, none⟩⟩, path.word]

/-- The request after a group. -/
def Request.withGroup (r : Request) : Group → Request
  | .pretty => { r with pretty := true }
  | .verbose => { r with verbose := true }
  | .config path => { r with config := some (.ofText path.text) }
  | .log path => { r with log := some (.ofText path.text) }

theorem Operand.ne_divider (o : Operand) : o.text ≠ Word.divider := by
  intro h
  have hdash := o.dashless
  rw [h] at hdash
  cases hdash

theorem ofTexts_cons (ht : t ≠ Word.divider) (hrole : Word.roleOf known t = .ok role) (ts : List Text) :
    Word.ofTexts known (t :: ts) = (Word.ofTexts known ts).map (⟨t, role⟩ :: ·) := by
  rw [Word.ofTexts, if_neg ht, hrole]
  rfl

theorem ofTexts_operand (o : Operand) (ts : List Text) :
    Word.ofTexts known (o.text :: ts) = (Word.ofTexts known ts).map (o.word :: ·) :=
  ofTexts_cons o.ne_divider (by simp [Word.roleOf, o.dashless]) ts

theorem ofTexts_operands (os : List Operand) :
    Word.ofTexts known (os.map Operand.text) = .ok (os.map Operand.word) := by
  induction os with
  | nil => rfl
  | cons o os ih =>
    rw [List.map_cons, ofTexts_operand, ih]
    rfl

theorem ofTexts_group (g : Group) (ts : List Text) :
    Word.ofTexts Switch.global (g.words ++ ts) = (Word.ofTexts Switch.global ts).map (g.marked ++ ·) := by
  cases g with
  | pretty | verbose => exact ofTexts_cons (by decide) rfl ts
  | config path | log path =>
    refine (ofTexts_cons (by decide) rfl (path.text :: ts)).trans ?_
    rw [ofTexts_operand]
    cases Word.ofTexts Switch.global ts <;> rfl

theorem ofTexts_groups (gs : List Group) {ts : List Text} {ws : List Word}
    (h : Word.ofTexts Switch.global ts = .ok ws) :
    Word.ofTexts Switch.global (gs.flatMap Group.words ++ ts) = .ok (gs.flatMap Group.marked ++ ws) := by
  induction gs with
  | nil => exact h
  | cons g gs ih =>
    rw [List.flatMap_cons, List.append_assoc, ofTexts_group, ih, List.flatMap_cons, List.append_assoc]
    rfl

namespace Request

theorem ofWords_group (r : Request) (g : Group) (ws : List Word) :
    ofWords r (g.marked ++ ws) = ofWords (r.withGroup g) ws := by
  cases g with
  | pretty | verbose | config _ | log _ =>
    rw [Group.marked, List.cons_append, ofWords]
    rfl

theorem ofWords_groups (r : Request) (gs : List Group) (ws : List Word) :
    ofWords r (gs.flatMap Group.marked ++ ws) = ofWords (gs.foldl withGroup r) ws := by
  induction gs generalizing r with
  | nil => rfl
  | cons g gs ih => rw [List.flatMap_cons, List.append_assoc, ofWords_group, ih, List.foldl_cons]

/-- Operands after a verb are all files. -/
theorem filesOf_operands {os : List Operand} (h : os ≠ []) {v : Verb} (hv : v ≠ .repl) :
    filesOf v (os.map Operand.word) = .ok (os.map Operand.text, []) := by
  have hplain : ∀ w ∈ os.map Operand.word, w.isPlain = true := by
    intro w hw
    obtain ⟨o, -, rfl⟩ := List.mem_map.1 hw
    rfl
  have hrun := List.takeWhile_eq_self_iff.2 hplain
  have hfront : (os.map Operand.word).takeWhile (!·.isPlain) = [] := by
    cases os with
    | nil => rfl
    | cons o os => rfl
  have hback : (os.map Operand.word).drop os.length = [] := List.drop_eq_nil_of_le (by simp)
  have hany : (os.map Operand.word).any (·.role = .operand) = true := by
    cases os with
    | nil => exact absurd rfl h
    | cons o os => rfl
  have hdivider : Word.divider ∉ os.map Operand.text := by
    intro hmem
    obtain ⟨o, -, ho⟩ := List.mem_map.1 hmem
    exact o.ne_divider ho
  simp only [filesOf, hfront, List.length_nil, List.drop_zero, hrun, Nat.zero_add, List.length_map, hback, if_neg hv,
    hany, if_true, map_text_word, List.erase_of_not_mem hdivider]
  rfl

/-- Switches alone come to a request. -/
theorem ofArguments_groups (gs : List Group) : ofArguments (gs.flatMap Group.words) = .ok (gs.foldl withGroup {}) := by
  have hnil : Word.ofTexts Switch.global [] = .ok [] := rfl
  have htexts := ofTexts_groups gs hnil
  rw [List.append_nil] at htexts
  rw [ofArguments, htexts]
  show (ofWords {} (gs.flatMap Group.marked ++ []) >>= _) = _
  rw [ofWords_groups, ofWords]
  rfl

/-- Switches, the verb `read` and files come to the request of the switches, with the verb and the files. -/
theorem ofArguments_read (gs : List Group) {os : List Operand} (h : os ≠ []) :
    ofArguments (gs.flatMap Group.words ++ Verb.read.name :: os.map Operand.text) =
      .ok { gs.foldl withGroup {} with verb := some .read, files := os.map Operand.text } := by
  have hverb : Word.ofTexts Switch.global (Verb.read.name :: os.map Operand.text) =
      .ok (⟨Verb.read.name, .operand⟩ :: os.map Operand.word) := by
    rw [ofTexts_cons (by decide) rfl, ofTexts_operands]
    rfl
  rw [ofArguments, ofTexts_groups gs hverb]
  show (ofWords {} (gs.flatMap Group.marked ++ _) >>= _) = _
  rw [ofWords_groups, ofWords]
  -- the verb gives the words after it their roles anew, by its own switches
  show (withVerb _ .read _ >>= _) = _
  rw [withVerb, map_text_word, ofTexts_operands]
  show ((filesOf .read (os.map Operand.word) >>= _) >>= _) = _
  rw [filesOf_operands h (by decide)]
  rfl

/-- A request without a verb and without code, which asks for no dialogue. -/
structure Wordless (r : Request) : Prop where
  verb : r.verb = none
  command : r.command = none
  interactive : r.interactive = false

theorem Wordless.withGroup {r : Request} (h : r.Wordless) (g : Group) : (r.withGroup g).Wordless := by
  cases g <;> exact ⟨h.verb, h.command, h.interactive⟩

theorem wordless_groups {r : Request} (h : r.Wordless) (gs : List Group) : (gs.foldl Request.withGroup r).Wordless := by
  induction gs generalizing r with
  | nil => exact h
  | cons g gs ih => exact ih (h.withGroup g)

end Request

end Requests

/-! ## The same command -/

namespace Command

open Arguments

/-- Files are read the same, whether the request has the verb for it or nothing but the files. -/
theorem fulfil_read {r : Request} (h : r.Wordless) {files : List Text} (hfiles : files ≠ []) (desk : Desk) :
    fulfil desk r files = fulfil desk { r with verb := some .read, files } [] := by
  -- nothing before `serve` looks at the verb or at the files
  have hserve (desk : Desk) (s : Settings) :
      serve desk r files s = serve desk { r with verb := some .read, files } [] s := by
    have hsome : files.isEmpty = false := List.isEmpty_eq_false_iff.2 hfiles
    simp [serve, h.verb, h.command, h.interactive, hsome]
  have hproceed (s : Settings) : proceed desk r files s = proceed desk { r with verb := some .read, files } [] s := by
    simp only [proceed, openLog, hserve]
  simp only [fulfil, hproceed]

/-- **Files without a verb are read**: in any mixture with switches they come to the same run as the switches, the verb
and the files. -/
theorem run_shorthand (host : Host) (disk : Disk) (stamp : Text) (events : List Dialogue.Event) (gs : List Group)
    (o : Operand) (os : List Operand) (words : List Text) (hwords : Mixed gs (o :: os) words)
    (hverb : Verb.ofName? o.text = none) :
    run host disk stamp words events =
      run host disk stamp (gs.flatMap Group.words ++ Verb.read.name :: (o :: os).map Operand.text) events := by
  have hfirst : ∀ o' ∈ (o :: os).head?, Verb.ofName? o'.text = none := by
    rintro o' ⟨⟩
    exact hverb
  have hwordless := Request.wordless_groups (r := {}) ⟨rfl, rfl, rfl⟩ gs
  have hplan : plan host disk stamp words =
      plan host disk stamp (gs.flatMap Group.words ++ Verb.read.name :: (o :: os).map Operand.text) := by
    simp only [plan, split_mixed hwords hfirst, split_verb, Request.ofArguments_groups,
      Request.ofArguments_read gs (List.cons_ne_nil o os)]
    exact fulfil_read hwordless (by simp) _
  simp only [run, hplan]

/-- Two files between two switches; the value of one and the second file are called as verbs are. -/
theorem run_shorthand_verbs :
    let disk := Tree.disk [([Path.encode "read"], .file []), ([Path.encode "a"], .file (Utf8.encode "(b)"))] "/"
    let a : Operand := ⟨"a", by decide⟩
    let read : Operand := ⟨"read", by decide⟩
    let words : List Text := ["--config", "read", "a", "read", "-v"]
    Mixed [.config read, .verbose] [a, read] words ∧ Verb.ofName? a.text = none ∧
      run .utf8 disk "now" words [] = run .utf8 disk "now" ["--config", "read", "-v", "read", "a", "read"] [] := by
  intro disk a read words
  have hwords : Mixed [.config read, .verbose] [a, read] words :=
    .group (.config read) (.operand a (.operand read (.group .verbose .nil)))
  exact ⟨hwords, by decide, run_shorthand .utf8 disk "now" [] _ a [read] words hwords (by decide)⟩

end Command

end MalForms
