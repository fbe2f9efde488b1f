import MalForms.Proofs.Session.Feeding
import Mathlib.Data.List.Induction

/-!
# The buffer of a session

* `buffer_held_iff`: the buffer is empty or incomplete as long as no line brings a number of too many digits; such a
  line stays in the buffer, and until it is cleared every line after it fails.

A line is put into the buffer before it is read, and stays there if the text is incomplete or reading it fails. So a
session has two states, and each action keeps it in one of them (`act_settled`): the buffer is held for more lines
(`Held`), or it is jammed (`Jammed`), because the failure is found again in every longer text.
-/

namespace MalForms.Session

open Lexeme

/-! ## Texts that a session cannot read -/

section Overlong

variable {s : Text} {e : ReadError}

/-- A session fails to read only a number with too many digits. -/
theorem read_error_iff : read s = .error e ↔
    s.isBlank = false ∧ ∃ d, e = .overlong d ∧ MalForms.read s filename = .error (.overlong d) := by
  rw [read, strip_isEmpty]
  cases s.isBlank with
  | true => simp
  | false =>
    simp only [Bool.false_eq_true, if_false, true_and]
    cases hr : MalForms.read s filename with
    | ok fs => cases fs <;> simp
    | error x =>
      cases x with
      | parse p => simp
      | misescaped f => exact absurd hr (read_ne_misescaped s filename f)
      | overlong d =>
        constructor
        · intro h
          cases h
          exact ⟨d, rfl, rfl⟩
        · rintro ⟨d', rfl, hd⟩
          cases hd
          rfl

theorem not_blank_of_digit {c : CodePoint} (h : Decimal.isDigit c = true) : c.isBlank = false :=
  forall_digit (P := fun c => c.isBlank = false) (by decide) h

end Overlong

/-! ## One line -/

section Line

variable {b : Text} {d : Nat}

/-- The buffer is empty, or is read as incomplete. -/
def Held (b : Text) : Prop := b = [] ∨ ∃ r, read b = .ok r ∧ r.isIncomplete = true

/-- The buffer is of whole lines, with a number of too many digits in them. -/
def Jammed (d : Nat) (b : Text) : Prop := read b = .error (.overlong d) ∧ EndsLine b

theorem Jammed.not_held (h : Jammed d b) : ¬Held b := by
  rintro (hnil | ⟨r, hr, -⟩)
  · exact h.2.ne_nil hnil
  · cases hr.symm.trans h.1

/-- No line clears a jam. -/
theorem Jammed.append_line (h : Jammed d b) (line : Text) : Jammed d (b ++ line.line) := by
  obtain ⟨hblank, d', hd', hr⟩ := read_error_iff.1 h.1
  cases hd'
  refine ⟨read_error_iff.2 ⟨?_, d, rfl, read_line_overlong hr h.2 _⟩, endsLine_line _ _⟩
  rw [Text.isBlank] at hblank ⊢
  rw [List.all_append, hblank, Bool.false_and]

theorem feed_of_error {s : Session} {line : Text} {e : ReadError} (h : read (s.extended line) = .error e) :
    s.feed line = (.error e, { s with buffer := s.extended line }) := by
  rw [feed, h]

/-- **What a line leaves behind**: if it fails, it jams the buffer. -/
theorem feed_settles (s : Session) (line : Text) :
    (∃ r, (s.feed line).1 = .ok r ∧ Held (s.feed line).2.buffer) ∨
      ∃ d, (s.feed line).1 = .error (.overlong d) ∧ Jammed d (s.feed line).2.buffer := by
  cases hr : read (s.extended line) with
  | ok r =>
    refine .inl ⟨r, by rw [feed, hr], ?_⟩
    rw [feed, hr]
    show Held (if r.isIncomplete then _ else _ : Session).buffer
    split_ifs with hi
    · exact .inr ⟨r, hr, hi⟩
    · exact .inl rfl
  | error e =>
    obtain ⟨-, d, rfl, -⟩ := read_error_iff.1 hr
    rw [feed_of_error hr]
    exact .inr ⟨d, rfl, hr, endsLine_line _ _⟩

theorem Jammed.feed {s : Session} (h : Jammed d s.buffer) (line : Text) : (s.feed line).1 = .error (.overlong d) := by
  rw [feed_of_error (h.append_line line).1]

/-- A line of too many digits jams the buffer. -/
theorem jammed_digits {ds : Text} (hall : ds.all Decimal.isDigit = true) (hlt : maxDigits < ds.length) :
    Jammed ds.length ((({} : Session).feed ds).2.buffer) := by
  have hread : read ds.line = .error (.overlong ds.length) := by
    refine read_error_iff.2 ⟨?_, _, rfl, ?_⟩
    · obtain ⟨c, r, rfl⟩ := List.exists_cons_of_ne_nil (l := ds) (List.ne_nil_of_length_pos (by omega))
      rw [List.all_cons, Bool.and_eq_true] at hall
      rw [Text.isBlank, Text.line, List.cons_append, List.all_cons, not_blank_of_digit hall.1, Bool.false_and]
    · exact read_digits_overlong hall hlt (breaks_separator (by decide) []) filename
  rw [feed_of_error (s := {}) hread]
  exact ⟨hread, endsLine_line [] ds⟩

end Line

/-! ## All actions -/

section Actions

variable (pretty : Bool)

/-- The session after actions. -/
def after (s : Session) (actions : List Action) : Session := ((s.run pretty actions).map Prod.snd).getLastD s

theorem after_cons (s : Session) (a : Action) (actions : List Action) :
    after pretty s (a :: actions) = after pretty (s.act pretty a).2 actions := by
  rw [after, run, List.map_cons, List.getLastD_cons]
  rfl

theorem after_concat (s : Session) (actions : List Action) (a : Action) :
    after pretty s (actions ++ [a]) = ((after pretty s actions).act pretty a).2 := by
  induction actions generalizing s with
  | nil => rfl
  | cons b actions ih => rw [List.cons_append, after_cons, after_cons, ih]

theorem after_line (s : Session) (line : Text) : after pretty s [.line line] = (s.feed line).2 := rfl

/-- The action is a line that fails. -/
def Raises (s : Session) (a : Action) : Prop := ∃ line e, a = .line line ∧ (s.feed line).1 = .error e

/-- A line of a new session has failed, and the buffer has not been cleared since. -/
def Raised (actions : List Action) : Prop :=
  ∃ before a rest, actions = before ++ a :: rest ∧ Raises (after pretty {} before) a ∧ .clearBuffer ∉ rest

theorem raised_concat_iff {actions : List Action} {a : Action} : Raised pretty (actions ++ [a]) ↔
    Raises (after pretty {} actions) a ∨ (Raised pretty actions ∧ a ≠ .clearBuffer) := by
  constructor
  · rintro ⟨before, b, rest, heq, hb, hrest⟩
    rcases List.eq_nil_or_concat' rest with rfl | ⟨rest, c, rfl⟩
    · obtain ⟨rfl, hab⟩ := List.append_inj' heq rfl
      cases hab
      exact .inl hb
    · rw [← List.cons_append, ← List.append_assoc] at heq
      obtain ⟨rfl, hac⟩ := List.append_inj' heq rfl
      cases hac
      rw [List.mem_append, List.mem_singleton, not_or] at hrest
      exact .inr ⟨⟨before, b, rest, rfl, hb, hrest.1⟩, Ne.symm hrest.2⟩
  · rintro (ha | ⟨⟨before, b, rest, rfl, hb, hrest⟩, ha⟩)
    · exact ⟨actions, a, [], rfl, ha, List.not_mem_nil⟩
    · refine ⟨before, b, rest ++ [a], by rw [List.append_assoc, List.cons_append], hb, ?_⟩
      rw [List.mem_append, List.mem_singleton, not_or]
      exact ⟨hrest, Ne.symm ha⟩

/-- The buffer is held or jammed, according to whether a line has failed. -/
def Settled (raised : Prop) (b : Text) : Prop := (raised ∧ ∃ d, Jammed d b) ∨ (¬raised ∧ Held b)

/-- **One action keeps the buffer held or jammed.** -/
theorem act_settled {raised : Prop} {s : Session} (h : Settled raised s.buffer) (a : Action) :
    Settled (Raises s a ∨ (raised ∧ a ≠ .clearBuffer)) (s.act pretty a).2.buffer := by
  cases a with
  | line line =>
    rcases feed_settles s line with ⟨r, hok, hheld⟩ | ⟨d, herr, hjam⟩
    · refine .inr ⟨?_, hheld⟩
      rintro (⟨line', e, hline, he⟩ | ⟨hraised, -⟩)
      · cases hline
        cases hok.symm.trans he
      · rcases h with ⟨-, d, hd⟩ | ⟨hnot, -⟩
        · cases hok.symm.trans (hd.feed line)
        · exact hnot hraised
    · exact .inl ⟨.inl ⟨line, _, rfl, herr⟩, d, hjam⟩
  | clearBuffer =>
    refine .inr ⟨?_, .inl rfl⟩
    rintro (⟨_, _, ha, -⟩ | ⟨-, ha⟩)
    · cases ha
    · exact ha rfl
  | read | isComplete | clearHistory | format | add =>
    -- These do not touch the buffer.
    rcases h with ⟨hraised, hjam⟩ | ⟨hnot, hheld⟩
    · exact .inl ⟨.inr ⟨hraised, nofun⟩, hjam⟩
    · refine .inr ⟨?_, hheld⟩
      rintro (⟨_, _, ha, -⟩ | ⟨hraised, -⟩)
      · cases ha
      · exact hnot hraised

/-- **All actions keep it so.** -/
theorem after_settled (actions : List Action) :
    Settled (Raised pretty actions) (after pretty {} actions).buffer := by
  induction actions using List.reverseRecOn with
  | nil =>
    refine .inr ⟨?_, .inl rfl⟩
    rintro ⟨before, a, rest, heq, -⟩
    exact absurd heq (by simp)
  | append_singleton actions a ih =>
    rw [after_concat, raised_concat_iff]
    exact act_settled pretty ih a

/-- **The buffer is empty or incomplete, unless a line has failed** since it was cleared. Once a line has failed, every
line fails in the same way. -/
theorem buffer_held_iff (actions : List Action) :
    (Held (after pretty {} actions).buffer ↔ ¬Raised pretty actions) ∧
      (Raised pretty actions → ∃ d, ∀ line, ((after pretty {} actions).feed line).1 = .error (.overlong d)) := by
  rcases after_settled pretty actions with ⟨hraised, d, hjam⟩ | ⟨hnot, hheld⟩
  · refine ⟨⟨fun hheld => absurd hheld hjam.not_held, fun hnot => absurd hraised hnot⟩, fun _ => ?_⟩
    exact ⟨d, fun line => hjam.feed line⟩
  · exact ⟨⟨fun _ => hnot, fun _ => hheld⟩, fun hraised => absurd hraised hnot⟩

/-- After a line of too many digits, a session fails on a line that a new session reads. -/
theorem digits_not_held :
    let s := after false {} [.line (List.replicate (maxDigits + 1) '1')]
    ¬Held s.buffer ∧ (∃ e, (s.feed "1").1 = .error e) ∧
      ∃ r, (feed {} "1").1 = .ok r ∧ r.isError = false ∧ r.forms = [.int 1] := by
  intro s
  have hdigits : (List.replicate (maxDigits + 1) (CodePoint.ofChar '1')).all Decimal.isDigit = true := by
    rw [List.all_replicate]
    rfl
  have hjam := jammed_digits hdigits (by rw [List.length_replicate]; omega)
  rw [← after_line false] at hjam
  refine ⟨hjam.not_held, ⟨_, hjam.feed "1"⟩, ?_⟩
  have hread : MalForms.read (extended {} "1") filename = .ok [.int 1] :=
    read_eq_ok_iff.2 ⟨_, .scalar (x := .int 1) (n := 1) (by decide) (.nil _), by decide⟩
  have hclean : Clean (extended {} "1") := nofun
  obtain ⟨r, hr, herr, hforms, -⟩ := feed_ok hclean hread
  exact ⟨r, hr, herr, hforms⟩

end Actions

end MalForms.Session
