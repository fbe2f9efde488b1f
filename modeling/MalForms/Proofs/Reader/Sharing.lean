import MalForms.Proofs.Reader.Extension
import MalForms.Proofs.Reader.Overlong
import MalForms.Reader.Shared

/-!
# Many runs over one source

* `answers_returned`: lazy runs that share one cursor neither lose nor repeat forms.

Between two actions no frame is open: a run that waits has handed out a form, and so it goes on from the cursor as a
new run would. So it is enough to know of a reader what stands before its cursor. Either the forms that it has given out
do, and nothing else but a gap (`Live`); or the reading came to its end or failed, and the cursor is at a place where
no form begins (`Cursor.Spent`). What an action can do to the cursor is listed once (`Does`, `does`); what it makes of
a live reader (`act_live`) and of a spent one (`act_spent`) follows by cases, and for all actions by induction.
-/

namespace MalForms

open Lexeme

/-! ## Where no form begins -/

section Spent

variable {source : Text} {c c' : Cursor} {o : Outcome}

/-- The reading cannot go on from the cursor and leaves it where it is: the text is over, or does not fit there. -/
structure Cursor.Spent (c : Cursor) : Prop where
  gap : c.skipGap = c
  stops : next [] c = .finished c ∨ ∃ p ex, next [] c = .failed (.mismatch p ex) c

/-- Where the cursor is left. -/
def Outcome.cursor : Outcome → Cursor
  | form _ c => c
  | finished c => c
  | failed _ c => c

theorem ends_of_next (h : next [] c = o) : Ends c o := h ▸ ends_next .nil

theorem spent_of_empty (h : c.skipGap.rest = []) : c.skipGap.Spent := by
  have hn := next_done (step_finish (c := c.skipGap) (by rw [skipGap_skipGap, h]))
  rw [skipGap_skipGap] at hn
  exact ⟨skipGap_skipGap c, .inl hn⟩

/-- Where a step failed, no form begins, whatever frames were open. Only a number with too many digits is passed
over. -/
theorem spent_of_fails {stack : List Frame} {e : Failure} (h : Fails stack c.skipGap e c')
    (hover : ¬HoldsOverlong c.rest) : c'.Spent := by
  cases h with
  | cutOff _ hc => exact spent_of_empty hc
  | absent hne hcl ho hx =>
    rw [← skipGap_skipGap] at hne ho hx
    have hclosed : ¬Closing [] c.skipGap.skipGap := by
      rintro ⟨f, below, s, hst, -⟩
      cases hst
    have hn := next_done (step_absent hne hclosed ho hx)
    rw [skipGap_skipGap] at hn
    exact ⟨skipGap_skipGap c, .inr ⟨_, _, hn⟩⟩
  | broken hx =>
    rw [← skipGap_skipGap] at hx
    have hn : next [] c.skipGap = _ := next_done (step_broken hx)
    rw [skipGap_skipGap] at hn
    exact ⟨skipGap_skipGap c, .inr ⟨_, _, hn⟩⟩
  | overlong hx => exact absurd (.here hx) hover

theorem spent_of_finished (h : next [] c = .finished c') : c'.Spent := by
  cases ends_of_next h with
  | finished hc => exact spent_of_empty hc

theorem spent_of_failed {e : Failure} (h : next [] c = .failed e c') (hover : ¬HoldsOverlong c.rest) : c'.Spent := by
  cases ends_of_next h with
  | failed ho hstep => exact spent_of_fails (fails_of_step hstep) fun hx => hover (ho.holdsOverlong hx)

theorem stands_of_next (h : next [] c = o) (hc : c.Stands source) : o.cursor.Stands source := by
  cases ends_of_next h with
  | form hr => exact hr.stands hc
  | finished => exact hc.advance _
  | @failed stack e c₁ _ ho hstep =>
    have hgap : c₁.skipGap.Stands source := (ho.stands hc).advance _
    cases fails_of_step hstep with
    | cutOff | absent | broken => exact hgap
    | overlong => exact hgap.advance _

theorem reads_of_next {g : Form} (h : next [] c = .form g c') : Reads c [g] c' := by
  cases ends_of_next h with
  | form hr => exact hr

/-- No form comes from a spent cursor, and the reading leaves it where it is. -/
theorem Cursor.Spent.next_eq (h : c.Spent) (hn : next [] c = o) : o.cursor = c ∧ ∀ g c', o ≠ .form g c' := by
  subst hn
  rcases h.stops with h | ⟨p, ex, h⟩
  · rw [h]
    exact ⟨rfl, nofun⟩
  · rw [h]
    exact ⟨rfl, nofun⟩

theorem Cursor.Spent.trace_eq (h : c.Spent) : (trace c).forms = [] ∧ (trace c).last = c := by
  rcases h.stops with h | ⟨p, ex, h⟩
  · rw [trace_finished h]
    exact ⟨rfl, rfl⟩
  · rw [trace_failed h]
    exact ⟨rfl, rfl⟩

theorem stands_last (c : Cursor) (hc : c.Stands source) : (trace c).last.Stands source := by
  cases hn : next [] c with
  | form g c' =>
    have hlt := rest_lt_of_next hn
    rw [trace_form hn]
    exact stands_last c' (stands_of_next hn hc)
  | finished c' =>
    rw [trace_finished hn]
    exact stands_of_next hn hc
  | failed e c' =>
    rw [trace_failed hn]
    exact stands_of_next hn hc
termination_by c.rest.length

/-- A reading of all that is left ends where no form begins. -/
theorem spent_last (c : Cursor) (hover : ¬HoldsOverlong c.rest) : (trace c).last.Spent := by
  cases hn : next [] c with
  | form g c' =>
    have hlt := rest_lt_of_next hn
    rw [trace_form hn]
    exact spent_last c' fun h => hover ((reads_of_next hn).holdsOverlong h)
  | finished c' =>
    rw [trace_finished hn]
    exact spent_of_finished hn
  | failed e c' =>
    rw [trace_failed hn]
    exact spent_of_failed hn hover
termination_by c.rest.length

end Spent

/-! ## What an action does -/

namespace Reader

variable {r r' : Reader} {c c' : Cursor} {a : Action}

theorem stands_cursor (r : Reader) : r.cursor.Stands r.source := (stands_start r.source).advance _

/-- A reader that is moved to a place of its source is there. -/
theorem cursor_moveTo (h : c.Stands r.source) : (r.moveTo c).cursor = c := by
  obtain ⟨before, hs, hp⟩ := h
  have hoff : c.pos.offset = before.length := by simp [hp, Position.offset_after]
  show (Cursor.start r.source).advance (c.pos.offset : Int).toNat = c
  rw [Int.toNat_natCast, hoff, hs, Cursor.advance]
  show Cursor.mk (Position.after {} (List.take _ (before ++ c.rest))) (List.drop _ (before ++ c.rest)) = c
  rw [List.take_left, List.drop_left, ← hp]

/-- The forms that an answer gives out. -/
def Answer.returned : Answer → List Form
  | .forms fs => fs
  | .form f => [f]
  | _ => []

/-- What an action other than setting the cursor can do: give an answer, and leave the reader with its cursor at some
place. -/
inductive Does (r : Reader) : Answer → Cursor → Prop
  /-- The answer is about the reader as it is. -/
  | looks {x : Answer} : x.returned = [] → (∀ e, x ≠ .error e) → (∀ fs, x ≠ .forms fs) → Does r x r.cursor
  | skips : Does r .done r.cursor.skipGap
  /-- The next form is given out. -/
  | gives {f : Form} {c : Cursor} : next [] r.cursor = .form f c → Does r (.form f) c
  /-- There is no next form. -/
  | ends {x : Answer} {c : Cursor} : next [] r.cursor = .finished c → x.returned = [] → (∀ fs, x ≠ .forms fs) →
      Does r x c
  | fails {e : Failure} {c : Cursor} : next [] r.cursor = .failed e c → Does r (r.fail e) c
  /-- All forms that are left are given out. -/
  | givesAll : (trace r.cursor).failure = none →
      Does r (.forms ((trace r.cursor).forms.map Prod.fst)) (trace r.cursor).last
  | failsAll {e : Failure} : (trace r.cursor).failure = some e → Does r (r.fail e) (trace r.cursor).last

/-- What looking for the next form can come to. -/
inductive Advances (r : Reader) : Answer × Reader → Prop
  | tooFar : Advances r (.tooFar, r)
  | form {f : Form} {c : Cursor} : next [] r.cursor = .form f c → Advances r (.form f, r.moveTo c)
  | ended {c : Cursor} : next [] r.cursor = .finished c → Advances r (.over, r.moveTo c)
  | failed {e : Failure} {c : Cursor} : next [] r.cursor = .failed e c → Advances r (r.fail e, r.moveTo c)

theorem advances (r : Reader) : Advances r r.advance := by
  unfold advance
  split_ifs
  · cases hn : next [] r.cursor with
    | form f c => exact .form hn
    | finished c => exact .ended hn
    | failed e c => exact .failed hn
  · exact .tooFar

theorem looks_tooFar (r : Reader) : Does r .tooFar r.cursor := .looks rfl nofun nofun

theorem does_advance (r : Reader) : Does r r.advance.1 r.advance.2.cursor := by
  have hstands := r.stands_cursor
  have h := advances r
  generalize r.advance = p at h ⊢
  cases h with
  | tooFar => exact looks_tooFar r
  | @form f c hn =>
    rw [cursor_moveTo (c := c) (stands_of_next hn hstands)]
    exact .gives hn
  | @ended c hn =>
    rw [cursor_moveTo (c := c) (stands_of_next hn hstands)]
    exact .ends hn rfl nofun
  | @failed e c hn =>
    rw [cursor_moveTo (c := c) (stands_of_next hn hstands)]
    exact .fails hn

theorem finished_of_over (h : r.advance = (.over, r')) : next [] r.cursor = .finished r'.cursor := by
  have hadv := advances r
  rw [h] at hadv
  cases hadv with
  | @ended c hn => rw [cursor_moveTo (c := c) (stands_of_next hn r.stands_cursor), hn]

theorem cursor_keepRun (r : Reader) (place : Nat) (x : Answer) : (r.keepRun place x).cursor = r.cursor := by
  cases x <;> rfl

/-- **Every action is one of these.** -/
theorem does (r : Reader) (a : Action) (ha : ∀ i, a ≠ .seek i) : Does r (r.act a).1 (r.act a).2.cursor := by
  cases a with
  | readAll =>
    have hlast := cursor_moveTo (stands_last r.cursor r.stands_cursor)
    simp only [act, Trace.result]
    split_ifs
    · cases hf : (trace r.cursor).failure with
      | none =>
        simp only [hlast]
        exact .givesAll hf
      | some e =>
        simp only [hlast]
        exact .failsAll hf
    · exact looks_tooFar r
  | readForm =>
    have h := does_advance r
    simp only [act]
    split
    · rename_i r' hover
      exact .ends (finished_of_over hover) rfl (by simp [fail])
    · exact h
  | resume k =>
    have h := does_advance r
    simp only [act]
    split
    · exact .looks rfl (by simp) (by simp)
    · split_ifs
      · rw [cursor_keepRun]
        exact h
      · exact .looks rfl (by simp) (by simp)
  | skip =>
    have hgap := cursor_moveTo (c := r.cursor.skipGap) (r.stands_cursor.advance _)
    simp only [act]
    split_ifs
    · rw [hgap]
      exact .skips
    · exact looks_tooFar r
  | seek i => exact absurd rfl (ha i)
  | start | atEnd | peek | location => exact .looks rfl (by simp [act]) (by simp [act])

theorem source_advance (r : Reader) : r.advance.2.source = r.source := by
  have h := advances r
  generalize r.advance = p at h ⊢
  cases h <;> rfl

theorem source_act (r : Reader) (a : Action) : (r.act a).2.source = r.source := by
  have hadv := source_advance r
  cases a with
  | readAll =>
    simp only [act]
    split_ifs
    · split <;> rfl
    · rfl
  | readForm =>
    simp only [act]
    split
    · rename_i r' hover
      rwa [hover] at hadv
    · exact hadv
  | resume k =>
    simp only [act]
    split
    · rfl
    · split_ifs
      · generalize r.advance = p at hadv ⊢
        obtain ⟨x, r'⟩ := p
        cases x <;> exact hadv
      · rfl
  | skip =>
    simp only [act]
    split_ifs <;> rfl
  | start | seek | atEnd | peek | location => rfl

/-! ## Live and spent readers -/

/-- All forms of a source, up to its end or to the place where it breaks off. -/
def allForms (source : Text) : List Form := (trace (.start source)).forms.map Prod.fst

/-- The forms that the reader has given out, and nothing else but a gap, stand before its cursor. -/
def Live (r : Reader) (out : List Form) : Prop :=
  ∃ c, Reads (.start r.source) out c ∧ r.cursor.skipGap = c.skipGap

section Phases

variable {out : List Form}

theorem live_start (source filename : Text) : Live { source, filename } [] := ⟨_, .nil _, rfl⟩

theorem allForms_of_reads {source : Text} (h : Reads (.start source) out c) :
    allForms source = out ++ (trace c).forms.map Prod.fst := (trace_reads h).1

theorem Live.isPrefix (h : Live r out) : out <+: allForms r.source := by
  obtain ⟨c, hr, -⟩ := h
  exact ⟨_, (allForms_of_reads hr).symm⟩

theorem Live.not_holdsOverlong (h : Live r out) (hover : ¬HoldsOverlong r.source) : ¬HoldsOverlong r.cursor.rest := by
  obtain ⟨c, hr, hgap⟩ := h
  intro ho
  exact hover (hr.holdsOverlong (ho.congr (congrArg Cursor.rest hgap)))

/-- **An action on a live reader** leaves it live, with what it gave out added, or ends the reading. It ends it without
an error only if all forms have been given out. -/
theorem act_live (h : Live r out) (hover : ¬HoldsOverlong r.source) (ha : ∀ i, a ≠ .seek i) :
    (Live (r.act a).2 (out ++ (r.act a).1.returned) ∧ (∀ e, (r.act a).1 ≠ .error e) ∧
        ∀ fs, (r.act a).1 ≠ .forms fs) ∨
      (r.act a).2.cursor.Spent ∧ out ++ (r.act a).1.returned <+: allForms r.source ∧
        ((∀ e, (r.act a).1 ≠ .error e) → out ++ (r.act a).1.returned = allForms r.source) := by
  have hover' := h.not_holdsOverlong hover
  have hout := h.isPrefix
  have hsource := source_act r a
  have hdoes := does r a ha
  obtain ⟨c, hr, hgap⟩ := h
  unfold Live
  rw [hsource]
  generalize (r.act a).1 = x at hdoes ⊢
  generalize (r.act a).2.cursor = c' at hdoes ⊢
  cases hdoes with
  | looks hx he hf =>
    rw [hx, List.append_nil]
    exact .inl ⟨⟨c, hr, hgap⟩, he, hf⟩
  | skips => exact .inl ⟨⟨c, by simpa [Answer.returned] using hr, by rw [skipGap_skipGap, hgap]⟩, nofun, nofun⟩
  | gives hn =>
    rw [next_congr hgap] at hn
    exact .inl ⟨⟨_, hr.append (reads_of_next hn), rfl⟩, nofun, nofun⟩
  | ends hn hx _ =>
    rw [hx, List.append_nil]
    refine .inr ⟨spent_of_finished hn, hout, fun _ => ?_⟩
    rw [next_congr hgap] at hn
    rw [allForms_of_reads hr, trace_finished hn]
    exact (List.append_nil out).symm
  | fails hn =>
    refine .inr ⟨spent_of_failed hn hover', ?_, fun hx => absurd rfl (hx _)⟩
    simpa [fail, Answer.returned] using hout
  | givesAll hf =>
    have hall : out ++ (trace r.cursor).forms.map Prod.fst = allForms r.source := by
      rw [allForms_of_reads hr, trace_congr hgap]
    exact .inr ⟨spent_last r.cursor hover', hall ▸ List.prefix_refl _, fun _ => hall⟩
  | failsAll hf =>
    refine .inr ⟨spent_last r.cursor hover', ?_, fun hx => absurd rfl (hx _)⟩
    simpa [fail, Answer.returned] using hout

/-- **An action on a spent reader** gives out nothing and leaves it spent. -/
theorem act_spent (h : r.cursor.Spent) (ha : ∀ i, a ≠ .seek i) :
    (r.act a).1.returned = [] ∧ (r.act a).2.cursor.Spent := by
  have hdoes := does r a ha
  generalize (r.act a).1 = x at hdoes ⊢
  generalize (r.act a).2.cursor = c' at hdoes ⊢
  cases hdoes with
  | looks hx => exact ⟨hx, h⟩
  | skips => exact ⟨rfl, by rwa [h.gap]⟩
  | gives hn => exact absurd rfl ((h.next_eq hn).2 _ _)
  | ends hn hx =>
    have hc : c' = r.cursor := (h.next_eq hn).1
    exact ⟨hx, hc ▸ h⟩
  | fails hn =>
    have hc : c' = r.cursor := (h.next_eq hn).1
    exact ⟨rfl, hc ▸ h⟩
  | givesAll =>
    obtain ⟨hforms, hlast⟩ := h.trace_eq
    rw [hforms, hlast]
    exact ⟨rfl, h⟩
  | failsAll => exact ⟨rfl, by rwa [h.trace_eq.2]⟩

end Phases

/-! ## All actions -/

section Actions

variable {out : List Form} {actions : List Action}

/-- The answers to the actions, one after another. -/
def answers (r : Reader) (actions : List Action) : List Answer := (r.run actions).map Prod.fst

theorem answers_cons (r : Reader) (a : Action) (actions : List Action) :
    r.answers (a :: actions) = (r.act a).1 :: (r.act a).2.answers actions := rfl

theorem answers_spent (h : r.cursor.Spent) (hseek : ∀ i, .seek i ∉ actions) :
    (r.answers actions).flatMap Answer.returned = [] := by
  induction actions generalizing r with
  | nil => rfl
  | cons a actions ih =>
    simp only [List.mem_cons, not_or] at hseek
    obtain ⟨hx, hspent⟩ := act_spent h fun i hi => (hseek i).1 hi.symm
    rw [answers_cons, List.flatMap_cons, hx, List.nil_append]
    exact ih hspent fun i => (hseek i).2

/-- The answers give out the forms of the source from some place on, nothing after an error, and all of them if a
reading of the rest succeeds without an error before it. -/
structure Orderly (all out : List Form) (xs : List Answer) : Prop where
  inOrder : out ++ xs.flatMap Answer.returned <+: all
  silent : ∀ before e after, xs = before ++ .error e :: after → after.flatMap Answer.returned = []
  whole : (∀ e, .error e ∉ xs) → ∀ fs, .forms fs ∈ xs → out ++ xs.flatMap Answer.returned = all

theorem Orderly.cons {all : List Form} {x : Answer} {xs : List Answer} (h : Orderly all (out ++ x.returned) xs)
    (he : ∀ e, x ≠ .error e) (hf : ∀ fs, x ≠ .forms fs) : Orderly all out (x :: xs) := by
  constructor
  · have hin := h.inOrder
    rwa [List.append_assoc, ← List.flatMap_cons] at hin
  · intro before e after hxs
    cases before with
    | nil => exact absurd (List.cons.inj hxs).1 (he e)
    | cons y before => exact h.silent before e after (List.cons.inj hxs).2
  · intro hno fs hmem
    have hxs : .forms fs ∈ xs := by
      rcases List.mem_cons.1 hmem with hx | hx
      · exact absurd hx.symm (hf fs)
      · exact hx
    have hwhole := h.whole (fun e he' => hno e (List.mem_cons_of_mem x he')) fs hxs
    rwa [List.append_assoc, ← List.flatMap_cons] at hwhole

theorem Orderly.last {all : List Form} {x : Answer} {xs : List Answer} (h : out ++ x.returned <+: all)
    (hall : (∀ e, x ≠ .error e) → out ++ x.returned = all) (hxs : xs.flatMap Answer.returned = []) :
    Orderly all out (x :: xs) := by
  constructor
  · rwa [List.flatMap_cons, hxs, List.append_nil]
  · intro before e after heq
    cases before with
    | nil =>
      obtain ⟨-, rfl⟩ := List.cons.inj heq
      exact hxs
    | cons y before =>
      have hrest : xs = before ++ .error e :: after := (List.cons.inj heq).2
      rw [hrest, List.flatMap_append, List.flatMap_cons] at hxs
      simp only [List.append_eq_nil_iff] at hxs
      exact hxs.2.2
  · intro hno fs _
    rw [List.flatMap_cons, hxs, List.append_nil]
    exact hall fun e hx => hno e (hx ▸ List.mem_cons_self)

/-- **All actions on a live reader.** -/
theorem answers_live (h : Live r out) (hover : ¬HoldsOverlong r.source) (hseek : ∀ i, .seek i ∉ actions) :
    Orderly (allForms r.source) out (r.answers actions) := by
  induction actions generalizing r out with
  | nil =>
    refine ⟨?_, ?_, nofun⟩
    · rw [show r.answers [] = [] from rfl, List.flatMap_nil, List.append_nil]
      exact h.isPrefix
    · intro before e after hxs
      cases before <;> cases hxs
  | cons a actions ih =>
    simp only [List.mem_cons, not_or] at hseek
    have hsource := source_act r a
    rw [answers_cons]
    obtain ⟨hlive, he, hf⟩ | ⟨hspent, hin, hall⟩ := act_live h hover fun i hi => (hseek i).1 hi.symm
    · have ih' := ih hlive (by rwa [hsource]) fun i => (hseek i).2
      rw [hsource] at ih'
      exact ih'.cons he hf
    · exact .last hin hall (answers_spent hspent fun i => (hseek i).2)

/-- **Runs that share a cursor neither lose nor repeat forms.** Whatever a new reader is asked to do, short of setting
its cursor, the forms it gives out, one answer after another, are the first forms of the source; once there was an
error it gives out no more; and a reading of the rest without an error before it leaves out none. -/
theorem answers_returned (source filename : Text) (actions : List Action) (hseek : ∀ i, .seek i ∉ actions)
    (hover : ¬HoldsOverlong source) :
    let xs := Reader.answers { source, filename } actions
    xs.flatMap Answer.returned <+: (trace (.start source)).forms.map Prod.fst ∧
      (∀ before e after, xs = before ++ .error (.parse e) :: after → after.flatMap Answer.returned = []) ∧
      ((∀ e, .error e ∉ xs) → ∀ fs, .forms fs ∈ xs →
        xs.flatMap Answer.returned = (trace (.start source)).forms.map Prod.fst) := by
  have h := answers_live (live_start source filename) hover hseek
  exact ⟨h.inOrder, fun before e => h.silent before (.parse e), h.whole⟩

/-- Two lazy runs take turns, the gap between their forms is passed over, and all that is left breaks off. -/
theorem answers_returned_turns :
    let xs := Reader.answers { source := "a b (c" } [.start, .start, .resume 0, .skip, .resume 1, .readAll, .readForm]
    xs.flatMap Answer.returned <+: (trace (.start "a b (c")).forms.map Prod.fst ∧
      ∀ before e after, xs = before ++ .error (.parse e) :: after → after.flatMap Answer.returned = [] := by
  have hover : ¬HoldsOverlong "a b (c" := fun h => absurd (length_of_holdsOverlong h) (by decide)
  have h := answers_returned "a b (c" "<input>" [.start, .start, .resume 0, .skip, .resume 1, .readAll, .readForm]
    (by simp) hover
  exact ⟨h.1, h.2.1⟩

end Actions

end Reader

end MalForms
