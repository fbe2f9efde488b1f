import MalForms.Proofs.Lexeme.Boundary
import MalForms.Reader

/-!
# What the reader does in one step

A step passes over a gap and then closes a frame, opens one, reads a scalar or ends the reading. `Moves` lists what can
happen at the cursor after the gap, with all that is known there, and `moves` says that every step is one of these; the
other way round there is an equation for each kind of step (`step_opening`, `step_scalar`, `step_closer`, ...). How a
step can fail is listed apart (`Fails`, `fails_of_step`).

A form that is read is handed to the innermost frame, and the reading goes on: `resume` is the reading from there on, so
`next` and `trace` need not be unfolded any more (`next_more`, `next_settle`, `trace_form`, ...).
-/

namespace MalForms

open Lexeme

variable {stack below : List Frame} {c c' : Cursor} {f : Frame} {g : Form}

theorem rest_skipGap (c : Cursor) : c.skipGap.rest = Grammar.afterGap c.rest := rfl

@[simp] theorem Cursor.advance_zero (c : Cursor) : c.advance 0 = c := rfl

theorem Cursor.advance_advance (c : Cursor) (m n : Nat) : (c.advance m).advance n = c.advance (m + n) := by
  rw [Cursor.advance, Cursor.advance, Cursor.advance, ← Position.after_append, ← List.take_add, List.drop_drop]

theorem skipGap_eq_self (h : Grammar.afterGap c.rest = c.rest) : c.skipGap = c := by
  have hle := gapLength_le false c.rest
  have hlen := congrArg List.length h
  rw [Grammar.afterGap, List.length_drop] at hlen
  have hzero : gapLength false c.rest = 0 := by omega
  rw [Cursor.skipGap, hzero, Cursor.advance_zero]

@[simp] theorem skipGap_skipGap (c : Cursor) : c.skipGap.skipGap = c.skipGap :=
  skipGap_eq_self (afterGap_afterGap c.rest)

/-! ## Every step is a move -/

/-- Whether the innermost frame is closed at the cursor. -/
def Closing (stack : List Frame) (c : Cursor) : Prop :=
  ∃ f below s, stack = f :: below ∧ f.opening = .bracket s ∧ c.rest.head? = some s.closer

/-- What a step can do at the cursor after the gap. -/
inductive Moves (stack : List Frame) (c : Cursor) : Step → Prop
  | finish : stack = [] → c.rest = [] → Moves stack c (.done (.finished c))
  | cutOff {f : Frame} {below : List Frame} : stack = f :: below → c.rest = [] →
      Moves stack c (.done (.failed (.mismatch c.pos f.expected) c))
  | close {f : Frame} {below : List Frame} {s : Shape} : stack = f :: below → f.opening = .bracket s →
      c.rest.head? = some s.closer → Moves stack c (.settle below (f.close (c.advance 1).pos) (c.advance 1))
  | opens {o : Opening} : Opening.ofText? c.rest = some o →
      Moves stack c (.more (⟨o, c.pos, []⟩ :: stack) (c.advance o.text.length))
  | scalar {x : Scalar} {n : Nat} : Lexeme.scalar c.rest = .found x n →
      Moves stack c (.settle stack (x.toForm (.between c.pos (c.advance n).pos)) (c.advance n))
  | absent : c.rest ≠ [] → ¬Closing stack c → Opening.ofText? c.rest = none → Lexeme.scalar c.rest = .absent →
      Moves stack c (.done (.failed (.mismatch c.pos (expectedIn stack)) c))
  | broken {n : Nat} {e : Expectation} : Lexeme.scalar c.rest = .broken n e →
      Moves stack c (.done (.failed (.mismatch (c.advance n).pos [e]) c))
  | overlong {d n : Nat} : Lexeme.scalar c.rest = .overlong d n →
      Moves stack c (.done (.failed (.overlong d) (c.advance n)))

theorem ne_nil_of_not_absent (h : Lexeme.scalar c.rest ≠ .absent) : c.rest ≠ [] := by
  intro hc
  rw [hc] at h
  exact h rfl

theorem not_closing_of_not_absent (h : Lexeme.scalar c.rest ≠ .absent) : ¬Closing stack c := by
  rintro ⟨f, below, s, -, -, hc⟩
  obtain ⟨r, hr⟩ := List.head?_eq_some_iff.1 hc
  rw [hr] at h
  exact h (scalar_closer s r)

theorem not_closing_of_opening {o : Opening} (h : Opening.ofText? c.rest = some o) : ¬Closing stack c := by
  rintro ⟨f, below, s, -, -, hc⟩
  obtain ⟨r, hr⟩ := List.head?_eq_some_iff.1 hc
  rw [hr, ofText?_closer] at h
  cases h

theorem ne_nil_of_opening {o : Opening} (h : Opening.ofText? c.rest = some o) : c.rest ≠ [] := by
  intro hc
  rw [hc] at h
  cases h

/-- Where no frame is closed, a step opens a frame or reads a scalar. -/
theorem step_eq_stepForm (hne : c.skipGap.rest ≠ []) (hcl : ¬Closing stack c.skipGap) :
    step stack c = stepForm stack c.skipGap := by
  have he : c.skipGap.rest.isEmpty = false := List.isEmpty_eq_false_iff.2 hne
  unfold step
  cases stack with
  | nil => simp only [he, Bool.false_eq_true, if_false]
  | cons f below =>
    have hc : ¬(f.closer?.isSome = true ∧ c.skipGap.rest.head? = f.closer?) := by
      rintro ⟨hs, hh⟩
      unfold Frame.closer? at hs hh
      split at hs
      · rename_i s hf
        rw [hf] at hh
        exact hcl ⟨f, below, s, rfl, hf, hh⟩
      · cases hs
    simp only [he, Bool.false_eq_true, if_false, if_neg hc]

theorem step_finish (h : c.skipGap.rest = []) : step [] c = .done (.finished c.skipGap) := by
  simp [step, h]

theorem step_cutOff (h : c.skipGap.rest = []) :
    step (f :: below) c = .done (.failed (.mismatch c.skipGap.pos f.expected) c.skipGap) := by
  simp [step, h]

theorem step_closer {s : Shape} (hf : f.opening = .bracket s) (h : c.skipGap.rest.head? = some s.closer) :
    step (f :: below) c = .settle below (f.close (c.skipGap.advance 1).pos) (c.skipGap.advance 1) := by
  obtain ⟨r, hr⟩ := List.head?_eq_some_iff.1 h
  have he : c.skipGap.rest.isEmpty = false := by rw [hr]; rfl
  simp [step, he, Frame.closer?, hf, h]

theorem step_opening {o : Opening} (h : Opening.ofText? c.skipGap.rest = some o) :
    step stack c = .more (⟨o, c.skipGap.pos, []⟩ :: stack) (c.skipGap.advance o.text.length) := by
  rw [step_eq_stepForm (ne_nil_of_opening h) (not_closing_of_opening h), stepForm, h]

/-- Where there is something else than an opening or a closing bracket, a step looks for a scalar. -/
theorem step_eq_stepScalar (hne : c.skipGap.rest ≠ []) (hcl : ¬Closing stack c.skipGap)
    (ho : Opening.ofText? c.skipGap.rest = none) : step stack c = stepScalar stack c.skipGap := by
  rw [step_eq_stepForm hne hcl, stepForm, ho]

theorem step_of_not_absent (h : Lexeme.scalar c.skipGap.rest ≠ .absent) :
    step stack c = stepScalar stack c.skipGap := by
  refine step_eq_stepScalar (ne_nil_of_not_absent h) (not_closing_of_not_absent h) ?_
  cases ho : Opening.ofText? c.skipGap.rest with
  | none => rfl
  | some o => exact absurd (scalar_opening ho) h

theorem step_scalar {x : Scalar} {n : Nat} (h : Lexeme.scalar c.skipGap.rest = .found x n) :
    step stack c =
      .settle stack (x.toForm (.between c.skipGap.pos (c.skipGap.advance n).pos)) (c.skipGap.advance n) := by
  rw [step_of_not_absent (by rw [h]; exact Match.noConfusion), stepScalar, h]

theorem step_broken {n : Nat} {e : Expectation} (h : Lexeme.scalar c.skipGap.rest = .broken n e) :
    step stack c = .done (.failed (.mismatch (c.skipGap.advance n).pos [e]) c.skipGap) := by
  rw [step_of_not_absent (by rw [h]; exact Match.noConfusion), stepScalar, h]

theorem step_overlong {d n : Nat} (h : Lexeme.scalar c.skipGap.rest = .overlong d n) :
    step stack c = .done (.failed (.overlong d) (c.skipGap.advance n)) := by
  rw [step_of_not_absent (by rw [h]; exact Match.noConfusion), stepScalar, h]

theorem step_absent (hne : c.skipGap.rest ≠ []) (hcl : ¬Closing stack c.skipGap)
    (ho : Opening.ofText? c.skipGap.rest = none) (h : Lexeme.scalar c.skipGap.rest = .absent) :
    step stack c = .done (.failed (.mismatch c.skipGap.pos (expectedIn stack)) c.skipGap) := by
  rw [step_eq_stepScalar hne hcl ho, stepScalar, h]

/-- **Every step is a move.** -/
theorem moves (stack : List Frame) (c : Cursor) : Moves stack c.skipGap (step stack c) := by
  by_cases hne : c.skipGap.rest = []
  · cases stack with
    | nil => rw [step_finish hne]; exact .finish rfl hne
    | cons f below => rw [step_cutOff hne]; exact .cutOff rfl hne
  by_cases hcl : Closing stack c.skipGap
  · obtain ⟨f, below, s, rfl, hf, hh⟩ := hcl
    rw [step_closer hf hh]
    exact .close rfl hf hh
  cases ho : Opening.ofText? c.skipGap.rest with
  | some o => rw [step_opening ho]; exact .opens ho
  | none =>
    cases hs : Lexeme.scalar c.skipGap.rest with
    | found x n => rw [step_scalar hs]; exact .scalar hs
    | absent => rw [step_absent hne hcl ho hs]; exact .absent hne hcl ho hs
    | broken n e => rw [step_broken hs]; exact .broken hs
    | overlong d n => rw [step_overlong hs]; exact .overlong hs
    | misescaped fault n => exact absurd hs (scalar_ne_misescaped _ _ _)

/-- How a step can fail at the cursor after the gap, and where it leaves the cursor. -/
inductive Fails (stack : List Frame) (c : Cursor) : Failure → Cursor → Prop
  | cutOff {f : Frame} {below : List Frame} : stack = f :: below → c.rest = [] →
      Fails stack c (.mismatch c.pos f.expected) c
  | absent : c.rest ≠ [] → ¬Closing stack c → Opening.ofText? c.rest = none → Lexeme.scalar c.rest = .absent →
      Fails stack c (.mismatch c.pos (expectedIn stack)) c
  | broken {n : Nat} {e : Expectation} : Lexeme.scalar c.rest = .broken n e →
      Fails stack c (.mismatch (c.advance n).pos [e]) c
  | overlong {d n : Nat} : Lexeme.scalar c.rest = .overlong d n → Fails stack c (.overlong d) (c.advance n)

theorem settle_ne_failed {e : Failure} : Step.settle stack g c ≠ .done (.failed e c') := by
  rw [Step.settle]
  split <;> nofun

theorem fails_of_step {e : Failure} (h : step stack c = .done (.failed e c')) : Fails stack c.skipGap e c' := by
  have hm := moves stack c
  generalize hr : step stack c = r at hm
  cases hm with
  | finish | opens => cases hr.symm.trans h
  | close | scalar => exact absurd (hr.symm.trans h) settle_ne_failed
  | cutOff hst hc => cases hr.symm.trans h; exact .cutOff hst hc
  | absent hne hcl ho hs => cases hr.symm.trans h; exact .absent hne hcl ho hs
  | broken hs => cases hr.symm.trans h; exact .broken hs
  | overlong hs => cases hr.symm.trans h; exact .overlong hs

/-! ## From one step to the next -/

/-- The frame with one more form. -/
def Frame.put (f : Frame) (g : Form) : Frame := { f with items := g :: f.items }

/-- The reading after a form has been read: the form is handed to the frames, and the steps go on. -/
def resume (stack : List Frame) (g : Form) (c : Cursor) : Outcome :=
  match deliver c.pos stack g with
  | .inl stack' => next stack' c
  | .inr g' => .form g' c

theorem resume_nil (g : Form) (c : Cursor) : resume [] g c = .form g c := rfl

theorem deliver_cons (p : Position) (f : Frame) (below : List Frame) (g : Form) :
    deliver p (f :: below) g =
      if (f.put g).isFull then deliver p below ((f.put g).close p) else .inl (f.put g :: below) := rfl

theorem resume_cons (f : Frame) (below : List Frame) (g : Form) (c : Cursor) :
    resume (f :: below) g c =
      if (f.put g).isFull then resume below ((f.put g).close c.pos) c else next (f.put g :: below) c := by
  rw [resume, deliver_cons]
  split_ifs <;> rfl

theorem next_eq (stack : List Frame) (c : Cursor) :
    next stack c = match step stack c with
      | .more stack' c' => next stack' c'
      | .done o => o := by
  rw [next]
  split <;> rename_i h <;> rw [h]

theorem next_more {stack' : List Frame} (h : step stack c = .more stack' c') : next stack c = next stack' c' := by
  rw [next_eq, h]

theorem next_done {o : Outcome} (h : step stack c = .done o) : next stack c = o := by
  rw [next_eq, h]

theorem next_settle {stack' : List Frame} (h : step stack c = .settle stack' g c') :
    next stack c = resume stack' g c' := by
  rw [Step.settle] at h
  rw [resume]
  cases hd : deliver c'.pos stack' g with
  | inl stack'' => rw [hd] at h; exact next_more h
  | inr g' => rw [hd] at h; exact next_done h

theorem trace_eq (c : Cursor) :
    trace c = match next [] c with
      | .form g c' => { trace c' with forms := (g, c'.pos.offset) :: (trace c').forms }
      | .finished c' => ⟨[], none, c'⟩
      | .failed e c' => ⟨[], some e, c'⟩ := by
  rw [trace]
  split <;> rename_i h <;> rw [h]

theorem trace_form (h : next [] c = .form g c') :
    trace c = { trace c' with forms := (g, c'.pos.offset) :: (trace c').forms } := by
  rw [trace_eq, h]

theorem trace_finished (h : next [] c = .finished c') : trace c = ⟨[], none, c'⟩ := by
  rw [trace_eq, h]

theorem trace_failed {e : Failure} (h : next [] c = .failed e c') : trace c = ⟨[], some e, c'⟩ := by
  rw [trace_eq, h]

/-- A step looks only at what comes after the gap. -/
theorem step_congr (h : c.skipGap = c'.skipGap) (stack : List Frame) : step stack c = step stack c' := by
  unfold step
  rw [h]

theorem next_congr (h : c.skipGap = c'.skipGap) (stack : List Frame) : next stack c = next stack c' := by
  rw [next_eq, next_eq, step_congr h]

theorem trace_congr (h : c.skipGap = c'.skipGap) : trace c = trace c' := by
  rw [trace_eq, trace_eq, next_congr h]

end MalForms
