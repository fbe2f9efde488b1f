import MalForms.Proofs.Command.Files

/-!
# Checking each file by itself

A check goes through its files one after another. It goes on after a file that the system does not open and after an
error of the grammar, but a file may be fatal to it (`Fatal`): its bytes are no UTF-8, a number in it has too many
digits, its path is none, or standard output does not take the line about it. Up to the first such file the check puts
out what checks of the single files put out, and its status is 1 if one of theirs is; the files after it are not looked
at (`check_by_file`).

As long as records leave the files as they are, a check is the sum of what is done for each file on the same disk
(`checkFiles_eq_total`), and what a sum of deeds comes to is a fact about deeds alone (`total_of_status`,
`total_of_abort`).
-/

namespace MalForms.Command

open Transcript (Below)

/-! ## Deeds one after another -/

section Deeds

variable {d : Deed} {ds : List Deed} {a : Abort}

/-- One deed and then others, which an abort of the first keeps from being done. The higher status counts. -/
def Deed.andThen (d others : Deed) : Deed :=
  match d.ending with
  | .abort _ => d
  | .status n =>
    { transcript := d.transcript ++ others.transcript
      ending := match others.ending with
        | .abort a => .abort a
        | .status m => .status (max n m) }

/-- All deeds, one after another. -/
def Deed.total (ds : List Deed) : Deed := ds.foldr Deed.andThen ⟨[], .status 0⟩

/-- The deed ends with status 0 or 1. -/
def Deed.Ends (d : Deed) : Prop := d.ending = .status 0 ∨ d.ending = .status 1

theorem Deed.transcript_andThen {others : Deed} (h : d.Ends) :
    (d.andThen others).transcript = d.transcript ++ others.transcript := by
  rcases h with h | h <;> simp [Deed.andThen, h]

theorem Deed.abort_andThen {others : Deed} (h : d.Ends) (ha : others.ending = .abort a) :
    (d.andThen others).ending = .abort a := by
  rcases h with h | h <;> simp [Deed.andThen, h, ha]

theorem Deed.Ends.andThen {others : Deed} (h : d.Ends) (h' : others.Ends) :
    (d.andThen others).Ends ∧
      ((d.andThen others).ending = .status 1 ↔ d.ending = .status 1 ∨ others.ending = .status 1) := by
  rcases h with h | h <;> rcases h' with h' | h' <;> simp [Deed.andThen, Deed.Ends, h, h']

theorem Deed.total_cons (d : Deed) (ds : List Deed) : total (d :: ds) = d.andThen (total ds) := rfl

/-- Deeds without an abort put out what each of them does, and end with status 1 if one of them does. -/
theorem Deed.total_of_status (h : ∀ d ∈ ds, d.Ends) : (total ds).transcript = ds.flatMap Deed.transcript ∧
    (total ds).Ends ∧ ((total ds).ending = .status 1 ↔ ∃ d ∈ ds, d.ending = .status 1) := by
  induction ds with
  | nil => exact ⟨rfl, .inl rfl, by simp [total]⟩
  | cons d ds ih =>
    have hd := h d List.mem_cons_self
    obtain ⟨htranscript, hends, hstatus⟩ := ih fun d' hd' => h d' (List.mem_cons_of_mem d hd')
    obtain ⟨hends', hstatus'⟩ := hd.andThen hends
    rw [total_cons, transcript_andThen hd, htranscript, List.flatMap_cons, hstatus', hstatus]
    exact ⟨rfl, hends', by simp⟩

/-- The first abort ends all deeds; those after it do not matter. -/
theorem Deed.total_of_abort (h : ∀ d ∈ ds, d.Ends) (ha : d.ending = .abort a) (ds' : List Deed) :
    (total (ds ++ d :: ds')).transcript = (ds ++ [d]).flatMap Deed.transcript ∧
      (total (ds ++ d :: ds')).ending = .abort a := by
  induction ds with
  | nil => simp [total_cons, andThen, ha]
  | cons d' ds ih =>
    have hd := h d' List.mem_cons_self
    obtain ⟨htranscript, hending⟩ := ih fun d' hd' => h d' (List.mem_cons_of_mem _ hd')
    rw [List.cons_append, total_cons, transcript_andThen hd, htranscript, abort_andThen hd hending]
    exact ⟨by simp, rfl⟩

end Deeds

/-! ## Files that stay as they are -/

section Preserves

variable {desk : Desk} {es : Transcript} {paths : List Text}

theorem Desk.after_after (desk : Desk) (es es' : Transcript) : (desk.after es).after es' = desk.after (es ++ es') := by
  obtain ⟨disk, sink, stamp, host⟩ := desk
  cases sink with
  | bare | stream _ => rfl
  | file threshold path =>
    have hlogged : Transcript.logged (.file threshold path) stamp (es ++ es') =
        es.logged (.file threshold path) stamp ++ es'.logged (.file threshold path) stamp := List.flatMap_append
    simp only [Desk.after, Disk.append_append, hlogged, Utf8.encode, List.flatMap_append]

/-- Records of reading leave the files as they are: the log is none of them, or does not keep such records. -/
def Desk.Preserves (desk : Desk) (paths : List Text) : Prop :=
  ∀ es : Transcript, es.Below .warning → ∀ p ∈ paths, textOf (desk.after es).disk p = textOf desk.disk p

theorem Desk.Quiet.preserves (h : desk.Quiet) (paths : List Text) : desk.Preserves paths := by
  intro es hes p _
  rw [h.after_eq hes]

theorem Desk.Preserves.after (h : desk.Preserves paths) (hes : es.Below .warning) :
    (desk.after es).Preserves paths := by
  intro es' hes' p hp
  rw [Desk.after_after, h _ (hes.append hes') p hp, h es hes p hp]

theorem Desk.Preserves.mono {paths' : List Text} (h : desk.Preserves paths) (hsub : ∀ p ∈ paths', p ∈ paths) :
    desk.Preserves paths' := fun es hes p hp => h es hes p (hsub p hp)

theorem Desk.host_after (desk : Desk) (es : Transcript) : (desk.after es).host = desk.host := by
  rw [Desk.after]
  split <;> rfl

theorem checkFile_after {path : Text} (h : textOf (desk.after es).disk path = textOf desk.disk path) :
    checkFile (desk.after es) path = checkFile desk path := by
  rw [checkFile, checkFile, h, desk.host_after]

/-- **A check is the sum of what is done for each file**, all of them on the same disk. -/
theorem checkFiles_eq_total (h : desk.Preserves paths) :
    checkFiles desk paths = Deed.total (paths.map (checkFile desk)) := by
  induction paths generalizing desk with
  | nil => rfl
  | cons p rest ih =>
    have hbelow := below_checkFile desk p
    have hrest : (desk.after (checkFile desk p).transcript).Preserves rest :=
      (h.after hbelow).mono fun q hq => List.mem_cons_of_mem p hq
    have hsame : rest.map (checkFile (desk.after (checkFile desk p).transcript)) = rest.map (checkFile desk) :=
      List.map_congr_left fun q hq => checkFile_after (h _ hbelow q (List.mem_cons_of_mem p hq))
    rw [checkFiles, List.map_cons, Deed.total_cons, ← hsame, ← ih hrest]
    rfl

end Preserves

/-! ## One file -/

section File

variable {desk : Desk} {path : Text} {a : Abort}

/-- A file that ends a check: its path is none, its bytes are no UTF-8, a number in it has too many digits, or standard
output does not take the line that tells how many forms it has. -/
inductive Fatal (desk : Desk) (path : Text) : Abort → Prop
  | path {f : PathFault} : desk.disk.read path = .error (.path f) → Fatal desk path (.opening (.path f) path)
  | bytes {bs : List UInt8} {f : Utf8.Fault} : desk.disk.read path = .ok bs → Utf8.decode bs = .error f →
      Fatal desk path (.decoding f)
  | digits {t : Text} {d : Nat} : textOf desk.disk path = .ok t → MalForms.read t path = .error (.overlong d) →
      Fatal desk path (.reading (.overlong d))
  | line {t : Text} {fs : List Form} {message : Text} : textOf desk.disk path = .ok t →
      MalForms.read t path = .ok fs → desk.host.refusal? (okLine path fs.length) = some message →
      Fatal desk path (.writing message)

theorem textOf_abort (h : textOf desk.disk path = .error (.abort a)) : Fatal desk path a := by
  unfold textOf at h
  cases hread : desk.disk.read path with
  | error f =>
    rw [hread] at h
    cases f with
    | os f => cases h
    | path f =>
      cases h
      exact .path hread
  | ok bs =>
    simp only [hread, Disk.textOf] at h
    cases hbytes : Utf8.decode bs with
    | ok t => simp [hbytes, Except.map] at h
    | error f =>
      simp only [hbytes, Except.map, Except.error.injEq, FileFault.abort.injEq] at h
      subst h
      exact .bytes hread hbytes

theorem Fatal.checkFile (h : Fatal desk path a) : (checkFile desk path).ending = .abort a := by
  cases h with
  | path hread => simp [Command.checkFile, textOf, hread, unopened]
  | bytes hread hbytes => simp [Command.checkFile, textOf, hread, Disk.textOf, hbytes, Except.map, unopened]
  | digits ht hr =>
    rw [MalForms.read] at hr
    simp [Command.checkFile, ht, hr, failed, Deed.after]
  | @line t fs message ht hr hline =>
    have hprint : Attempt.print desk.host (.ok (Text.concat [path, ": ok (", Decimal.ofNat fs.length, " forms)"])) =
        .error (.writing message) := by
      rw [okLine] at hline
      rw [Attempt.print, Attempt.write, hline]
    rw [MalForms.read] at hr
    simp only [Command.checkFile, ht, hr, Deed.once, hprint, Attempt.carry, Deed.after]

/-- A file is fatal to its check, or the check ends with a status. -/
theorem ends_or_fatal (desk : Desk) (path : Text) : (checkFile desk path).Ends ∨ ∃ a, Fatal desk path a := by
  cases ht : textOf desk.disk path with
  | error f =>
    cases f with
    | abort a => exact .inr ⟨a, textOf_abort ht⟩
    | os f =>
      left
      rw [checkFile_unopened ht]
      exact .inr rfl
  | ok t =>
    cases hr : MalForms.read t path with
    | ok fs =>
      cases hline : desk.host.refusal? (okLine path fs.length) with
      | none => exact .inl (.inl (checkFile_ok hline ht hr).1)
      | some message => exact .inr ⟨_, .line ht hr hline⟩
    | error x =>
      cases x with
      | parse e => exact .inl (.inr (checkFile_failed ht hr).1)
      | overlong d => exact .inr ⟨_, .digits ht hr⟩
      | misescaped f => exact absurd hr (read_ne_misescaped t path f)

theorem ends_of_not_fatal {paths : List Text} (h : ∀ p ∈ paths, ∀ a, ¬Fatal desk p a) :
    ∀ d ∈ paths.map (checkFile desk), d.Ends := by
  intro d hd
  obtain ⟨p, hp, rfl⟩ := List.mem_map.1 hd
  exact (ends_or_fatal desk p).resolve_right fun ⟨a, ha⟩ => h p hp a ha

end File

/-! ## All files -/

section Files

variable {desk : Desk} {paths : List Text}

theorem checkFiles_singleton (desk : Desk) (path : Text) : checkFiles desk [path] = checkFile desk path := by
  rw [checkFiles]
  obtain ⟨es, _ | _⟩ := checkFile desk path <;> simp [checkFiles]

/-- What files put out together is what they put out one by one, in each of the two outputs. -/
theorem outputs_of_transcript {d : Deed}
    (h : d.transcript = (paths.map (checkFile desk)).flatMap Deed.transcript) :
    d.transcript.output = paths.flatMap (fun p => (checkFiles desk [p]).transcript.output) ∧
      desk.errors d.transcript = paths.flatMap (fun p => desk.errors (checkFiles desk [p]).transcript) := by
  rw [List.flatMap_map] at h
  simp only [checkFiles_singleton, Desk.errors, Transcript.output, Transcript.errors, h, List.flatMap_assoc]
  exact ⟨trivial, trivial⟩

/-- What comes of checking each of the files alone, up to the first one that is fatal. -/
structure ByFile (desk : Desk) (paths : List Text) : Prop where
  /-- Without a fatal file the check goes to its end. -/
  whole : (∀ p ∈ paths, ∀ a, ¬Fatal desk p a) →
    (checkFiles desk paths).Ends ∧
    ((checkFiles desk paths).ending = .status 1 ↔ ∃ p ∈ paths, (checkFiles desk [p]).ending = .status 1) ∧
    (checkFiles desk paths).transcript.output = paths.flatMap (fun p => (checkFiles desk [p]).transcript.output) ∧
    desk.errors (checkFiles desk paths).transcript =
      paths.flatMap (fun p => desk.errors (checkFiles desk [p]).transcript)
  /-- The first fatal file ends it as it ends a check of its own, and the files after it are not looked at. -/
  broken : ∀ before path after a, paths = before ++ path :: after → (∀ p ∈ before, ∀ a, ¬Fatal desk p a) →
    Fatal desk path a →
    (checkFiles desk paths).ending = .abort a ∧ (checkFiles desk [path]).ending = .abort a ∧
    (checkFiles desk paths).transcript.output =
      (before ++ [path]).flatMap (fun p => (checkFiles desk [p]).transcript.output) ∧
    desk.errors (checkFiles desk paths).transcript =
      (before ++ [path]).flatMap (fun p => desk.errors (checkFiles desk [p]).transcript)

/-- **A check goes by files, up to the first one that is fatal to it.** -/
theorem check_by_file (desk : Desk) (paths : List Text) (h : desk.Preserves paths) : ByFile desk paths := by
  have htotal := checkFiles_eq_total h
  refine ⟨?_, ?_⟩
  · intro hnone
    obtain ⟨htranscript, hend, hstatus⟩ := Deed.total_of_status (ends_of_not_fatal hnone)
    rw [← htotal] at htranscript hend hstatus
    refine ⟨hend, ?_, outputs_of_transcript htranscript⟩
    simp only [hstatus, checkFiles_singleton, List.mem_map, exists_exists_and_eq_and]
  · rintro before path after a rfl hnone hfatal
    obtain ⟨htranscript, hend⟩ :=
      Deed.total_of_abort (ends_of_not_fatal hnone) hfatal.checkFile (after.map (checkFile desk))
    rw [← List.map_cons, ← List.map_append, ← htotal] at htranscript hend
    refine ⟨hend, ?_, outputs_of_transcript ?_⟩
    · rw [checkFiles_singleton]
      exact hfatal.checkFile
    · rw [htranscript, List.map_append]
      rfl

/-- A desk with a file of one form and a file of one byte, which is no UTF-8. -/
def strayByte : Desk where
  disk := Tree.disk [([Path.encode "good"], .file (Utf8.encode "1")), ([Path.encode "bad"], .file [0xFF])] "/"
  stamp := []
  host := .utf8

theorem fatal_strayByte : Fatal strayByte "bad" (.decoding ⟨0, 0xFF, 1, .startByte⟩) := by
  have hread : strayByte.disk.read "bad" = .ok [0xFF] := rfl
  exact .bytes hread rfl

theorem checkFile_strayByte : (checkFile strayByte "good").ending = .status 0 ∧
    (checkFile strayByte "good").transcript.written = [.out (okLine "good" 1)] := by
  have ht : textOf strayByte.disk "good" = .ok "1" := rfl
  have hr : MalForms.read "1" "good" = .ok [.int 1] :=
    read_eq_ok_iff.2 ⟨_, .scalar (x := .int 1) (n := 1) (by decide) (.nil _), by decide⟩
  obtain ⟨hending, hwritten⟩ := checkFile_ok (takes_okLine _ (by decide) 1) ht hr
  exact ⟨hending, hwritten⟩

/-- A file that reads, one that is not there, and the stray byte before the first file again. -/
theorem check_by_file_byte :
    strayByte.Preserves ["good", "none", "bad", "good"] ∧
      (checkFiles strayByte ["good", "none", "bad", "good"]).ending = .abort (.decoding ⟨0, 0xFF, 1, .startByte⟩) ∧
      (checkFiles strayByte ["good", "none"]).ending = .status 1 ∧
      strayByte.errors (checkFiles strayByte ["good", "none"]).transcript =
        [("good" : Text), ("none" : Text)].flatMap fun p => strayByte.errors (checkFiles strayByte [p]).transcript := by
  have hquiet : strayByte.Quiet := ⟨rfl, rfl⟩
  have hpreserves (paths : List Text) : strayByte.Preserves paths := hquiet.preserves paths
  have hnone : (checkFile strayByte "none").ending = .status 1 := rfl
  have hfine : ∀ p ∈ [("good" : Text), ("none" : Text)], ∀ a, ¬Fatal strayByte p a := by
    simp only [List.mem_cons, List.not_mem_nil, or_false, forall_eq_or_imp, forall_eq]
    constructor
    · intro a h
      cases h.checkFile.symm.trans checkFile_strayByte.1
    · intro a h
      cases h.checkFile.symm.trans hnone
  obtain ⟨-, hbroken⟩ := check_by_file strayByte _ (hpreserves ["good", "none", "bad", "good"])
  obtain ⟨hwhole, -⟩ := check_by_file strayByte _ (hpreserves ["good", "none"])
  obtain ⟨hending, -⟩ := hbroken ["good", "none"] "bad" ["good"] _ rfl hfine fatal_strayByte
  obtain ⟨-, hstatus, -, herrors⟩ := hwhole hfine
  refine ⟨hpreserves _, hending, hstatus.2 ⟨"none", by simp, ?_⟩, herrors⟩
  rw [checkFiles_singleton]
  exact hnone

/-- The stray byte keeps the file after it from being checked, which alone is found to read. -/
theorem check_stops_at_byte :
    (checkFiles strayByte ["bad", "good"]).ending = .abort (.decoding ⟨0, 0xFF, 1, .startByte⟩) ∧
      (checkFiles strayByte ["bad", "good"]).transcript = [] ∧
      (checkFiles strayByte ["good"]).ending = .status 0 ∧
      (checkFiles strayByte ["good"]).transcript.written = [.out (okLine "good" 1)] := by
  have hbad : checkFile strayByte "bad" = ⟨[], .abort (.decoding ⟨0, 0xFF, 1, .startByte⟩)⟩ :=
    checkFile_unopened (f := .abort (.decoding ⟨0, 0xFF, 1, .startByte⟩)) rfl
  have hstop : checkFiles strayByte ["bad", "good"] = ⟨[], .abort (.decoding ⟨0, 0xFF, 1, .startByte⟩)⟩ := by
    rw [checkFiles, hbad]
  rw [hstop, checkFiles_singleton]
  exact ⟨rfl, rfl, checkFile_strayByte⟩

end Files

end MalForms.Command
