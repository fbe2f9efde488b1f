import MalForms.Proofs.Reader.Moves

/-!
# What a text reads as

`Reads c fs c'` says, by recursion on the forms and without a stack, that the forms `fs` stand one after another
between the cursors `c` and `c'`. The stack machine of the reader does exactly this.

* **Completeness** (`trace_reads`): where forms stand, the reader reads them. Proof: a frame takes in the forms that
  stand after its opening, whatever is below it (`Collects`, `collects_of_reads`), and a mark's frame is full just
  when it has the last of them.
* **Soundness** (`run_trace`): the forms that come out of the reader stand where it read them. Proof: in every state
  each frame holds the forms that stand between its opening and the next frame's (`Open`), which a step keeps
  (`open_deliver`, `open_step`).

Together: a text is read as `fs` if and only if `fs` stand in it and nothing but a gap comes after them
(`read_eq_ok_iff`), and there is an error if and only if the text breaks off in an open stack (`read_eq_error_iff`).
-/

namespace MalForms

open Lexeme

/-- The form of a mark and the forms that stand after it. -/
def markForm (m : Mark) (start stop : Position) (gs : List Form) : Form :=
  .compound .list (.symbol m.head (.between start (start.after m.text)) :: gs.reverse) (some (.between start stop))

/-- The forms stand one after another between the cursors, each after a gap. -/
inductive Reads : Cursor → List Form → Cursor → Prop
  | nil (c : Cursor) : Reads c [] c
  | scalar {c c' : Cursor} {x : Scalar} {n : Nat} {fs : List Form} : Lexeme.scalar c.skipGap.rest = .found x n →
      Reads (c.skipGap.advance n) fs c' →
      Reads c (x.toForm (.between c.skipGap.pos (c.skipGap.advance n).pos) :: fs) c'
  | bracket {c c₁ c' : Cursor} {s : Shape} {gs fs : List Form} :
      Opening.ofText? c.skipGap.rest = some (.bracket s) → Reads (c.skipGap.advance 1) gs c₁ →
      c₁.skipGap.rest.head? = some s.closer → Reads (c₁.skipGap.advance 1) fs c' →
      Reads c (.compound s gs (some (.between c.skipGap.pos (c₁.skipGap.advance 1).pos)) :: fs) c'
  | mark {c c₁ c' : Cursor} {m : Mark} {gs fs : List Form} : Opening.ofText? c.skipGap.rest = some (.mark m) →
      Reads (c.skipGap.advance m.text.length) gs c₁ → gs.length = m.arity → Reads c₁ fs c' →
      Reads c (markForm m c.skipGap.pos c₁.pos gs :: fs) c'

section Judgment

variable {c c₁ c' : Cursor} {fs gs : List Form}

theorem reads_nil (h : Reads c [] c') : c' = c := by
  cases h
  rfl

theorem Reads.append (h : Reads c fs c₁) (h' : Reads c₁ gs c') : Reads c (fs ++ gs) c' := by
  induction h with
  | nil c => exact h'
  | scalar hs _ ih => exact .scalar hs (ih h')
  | bracket ho hg hc _ _ ih => exact .bracket ho hg hc (ih h')
  | mark ho hg hl _ _ ih => exact .mark ho hg hl (ih h')

/-- Where forms stand depends on the cursor only through the place after the gap. -/
theorem Reads.congr (h : Reads c fs c') (hne : fs ≠ []) (hs : c₁.skipGap = c.skipGap) : Reads c₁ fs c' := by
  cases h with
  | nil => exact absurd rfl hne
  | scalar hx hr => rw [← hs] at hx hr ⊢; exact .scalar hx hr
  | bracket ho hg hc hr => rw [← hs] at ho hg ⊢; exact .bracket ho hg hc hr
  | mark ho hg hl hr => rw [← hs] at ho hg ⊢; exact .mark ho hg hl hr

theorem rest_opening {o : Opening} (h : Opening.ofText? c.skipGap.rest = some o) :
    c.skipGap.rest = o.text ++ (c.skipGap.advance o.text.length).rest := by
  obtain ⟨r, hr⟩ := text_of_ofText? h
  rw [Cursor.rest_advance, hr, List.drop_left]

theorem rest_closer {s : Shape} (h : c.skipGap.rest.head? = some s.closer) :
    c.skipGap.rest = s.closer :: (c.skipGap.advance 1).rest := by
  obtain ⟨r, hr⟩ := List.head?_eq_some_iff.1 h
  rw [Cursor.rest_advance, hr, List.drop_one, List.tail_cons]

theorem length_scalar {x : Scalar} {n : Nat} (h : Lexeme.scalar c.skipGap.rest = .found x n) :
    (c.skipGap.advance n).rest.length < c.rest.length := by
  have hne : c.skipGap.rest ≠ [] := ne_nil_of_not_absent (by rw [h]; exact Match.noConfusion)
  exact Nat.lt_of_lt_of_le (Cursor.length_rest_advance_lt (scalar_length_pos h) hne) c.length_rest_skipGap_le

theorem length_opening {o : Opening} (h : Opening.ofText? c.skipGap.rest = some o) :
    (c.skipGap.advance o.text.length).rest.length < c.rest.length :=
  Nat.lt_of_lt_of_le (Cursor.length_rest_advance_lt (opening_text_pos o) (ne_nil_of_opening h)) c.length_rest_skipGap_le

theorem length_closer {s : Shape} (h : c.skipGap.rest.head? = some s.closer) :
    (c.skipGap.advance 1).rest.length < c.rest.length := by
  have hne : c.skipGap.rest ≠ [] := by
    rw [rest_closer h]
    exact List.cons_ne_nil _ _
  exact Nat.lt_of_lt_of_le (Cursor.length_rest_advance_lt Nat.one_pos hne) c.length_rest_skipGap_le

/-- Every form takes a code point. -/
theorem Reads.length_le (h : Reads c fs c') : fs.length + c'.rest.length ≤ c.rest.length := by
  induction h with
  | nil c => exact Nat.le_of_eq (Nat.zero_add _)
  | scalar hs _ ih =>
    have hlt := length_scalar hs
    rw [List.length_cons]
    omega
  | bracket ho _ hc _ ihg ih =>
    have hlt := length_opening ho
    have hlt' := length_closer hc
    rw [Opening.text, List.length_singleton] at hlt
    rw [List.length_cons]
    omega
  | mark ho _ _ _ ihg ih =>
    have hlt := length_opening ho
    rw [Opening.text] at hlt
    rw [List.length_cons]
    omega

end Judgment

/-! ## Completeness -/

section Completeness

variable {c c₁ c' : Cursor} {gs : List Form}

/-- The frame with more forms, the last of which is the last one. -/
def Frame.collect (f : Frame) (gs : List Form) : Frame := { f with items := gs.reverse ++ f.items }

theorem Frame.collect_nil (f : Frame) : f.collect [] = f := rfl

theorem Frame.collect_cons (f : Frame) (g : Form) (gs : List Form) : f.collect (g :: gs) = (f.put g).collect gs := by
  simp [Frame.collect, Frame.put]

/-- The frame has room for `n` more forms. -/
def Frame.Room (f : Frame) (n : Nat) : Prop := ∀ m, f.opening = .mark m → f.items.length + n ≤ m.arity

/-- The reading after a frame took in a form: it is closed if it is full. -/
def follow (f : Frame) (below : List Frame) (c : Cursor) : Outcome :=
  if f.isFull then resume below (f.close c.pos) c else next (f :: below) c

theorem resume_follow (f : Frame) (below : List Frame) (g : Form) (c : Cursor) :
    resume (f :: below) g c = follow (f.put g) below c := resume_cons f below g c

/-- A frame takes in the forms that stand between the cursors, unless it gets too full. -/
def Collects (c : Cursor) (gs : List Form) (c' : Cursor) : Prop :=
  ∀ f below, f.isFull = false → f.Room gs.length → next (f :: below) c = follow (f.collect gs) below c'

/-- Only the last form that a frame has room for makes it full. -/
theorem eq_nil_of_isFull {f : Frame} {n : Nat} (hr : f.Room n) (hf : f.isFull = true) : n = 0 := by
  unfold Frame.isFull at hf
  split at hf
  · cases hf
  · rename_i m hm
    have := hr m hm
    simp only [decide_eq_true_eq] at hf
    omega

theorem collects_cons {g : Form} (hg : ∀ stack, next stack c = resume stack g c₁) (hr : Reads c₁ gs c')
    (ih : Collects c₁ gs c') : Collects c (g :: gs) c' := by
  intro f below _ hroom
  have hroom' : (f.put g).Room gs.length := by
    intro m hm
    have := hroom m hm
    simp only [Frame.put, List.length_cons] at this ⊢
    omega
  rw [hg, resume_follow, Frame.collect_cons]
  cases hf : (f.put g).isFull with
  | false => rw [follow, hf, if_neg Bool.false_ne_true, ih _ below hf hroom']
  | true =>
    obtain rfl : gs = [] := List.length_eq_zero_iff.1 (eq_nil_of_isFull hroom' hf)
    rw [reads_nil hr, Frame.collect_nil]

theorem next_scalar {x : Scalar} {n : Nat} (h : Lexeme.scalar c.skipGap.rest = .found x n) (stack : List Frame) :
    next stack c = resume stack (x.toForm (.between c.skipGap.pos (c.skipGap.advance n).pos)) (c.skipGap.advance n) :=
  next_settle (step_scalar h)

theorem next_bracket {s : Shape} (ho : Opening.ofText? c.skipGap.rest = some (.bracket s))
    (hg : Collects (c.skipGap.advance 1) gs c₁) (hc : c₁.skipGap.rest.head? = some s.closer) (stack : List Frame) :
    next stack c = resume stack (.compound s gs (some (.between c.skipGap.pos (c₁.skipGap.advance 1).pos)))
      (c₁.skipGap.advance 1) := by
  rw [next_more (step_opening ho)]
  refine (hg ⟨.bracket s, c.skipGap.pos, []⟩ stack rfl (fun m hm => nomatch hm)).trans ?_
  show next _ c₁ = _
  rw [next_settle (step_closer rfl hc), Frame.close]
  simp [Frame.collect]

theorem next_mark {m : Mark} (ho : Opening.ofText? c.skipGap.rest = some (.mark m))
    (hg : Collects (c.skipGap.advance m.text.length) gs c₁) (hl : gs.length = m.arity) (stack : List Frame) :
    next stack c = resume stack (markForm m c.skipGap.pos c₁.pos gs) c₁ := by
  have hempty : (⟨.mark m, c.skipGap.pos, []⟩ : Frame).isFull = false := by cases m <;> rfl
  have hfull : ((⟨.mark m, c.skipGap.pos, []⟩ : Frame).collect gs).isFull = true := by
    simp [Frame.isFull, Frame.collect, hl]
  rw [next_more (step_opening ho)]
  refine (hg ⟨.mark m, c.skipGap.pos, []⟩ stack hempty ?_).trans ?_
  · intro m' hm'
    cases hm'
    simp [hl]
  · rw [follow, hfull, if_pos rfl]
    simp [Frame.close, Frame.collect, markForm]

theorem collects_of_reads (h : Reads c gs c') : Collects c gs c' := by
  induction h with
  | nil c =>
    intro f below hf _
    rw [Frame.collect_nil, follow, hf, if_neg Bool.false_ne_true]
  | scalar hs hr ih => exact collects_cons (next_scalar hs) hr ih
  | bracket ho _ hc hr ihg ih => exact collects_cons (next_bracket ho ihg hc) hr ih
  | mark ho _ hl hr ihg ih => exact collects_cons (next_mark ho ihg hl) hr ih

/-- A form that stands at the cursor is the next one. -/
theorem next_of_reads {g : Form} (h : Reads c [g] c') : next [] c = .form g c' := by
  cases h with
  | scalar hs hr => rw [reads_nil hr, next_scalar hs, resume_nil]
  | bracket ho hg hc hr => rw [reads_nil hr, next_bracket ho (collects_of_reads hg) hc, resume_nil]
  | mark ho hg hl hr => rw [reads_nil hr, next_mark ho (collects_of_reads hg) hl, resume_nil]

/-- The trace goes through forms that stand at its beginning. -/
def Passes (c : Cursor) (fs : List Form) (c' : Cursor) : Prop :=
  (trace c).forms.map Prod.fst = fs ++ (trace c').forms.map Prod.fst ∧ (trace c).failure = (trace c').failure ∧
    (trace c).last = (trace c').last

theorem passes_cons {g : Form} {fs : List Form} (hg : ∀ stack, next stack c = resume stack g c₁)
    (ih : Passes c₁ fs c') : Passes c (g :: fs) c' := by
  have ht := trace_form ((hg []).trans (resume_nil g c₁))
  obtain ⟨hf, he, hl⟩ := ih
  refine ⟨?_, by rw [ht]; exact he, by rw [ht]; exact hl⟩
  rw [ht, List.map_cons, hf]
  rfl

/-- **Completeness**: the reader reads the forms that stand in the text. -/
theorem trace_reads {fs : List Form} (h : Reads c fs c') : Passes c fs c' := by
  induction h with
  | nil c => exact ⟨rfl, rfl, rfl⟩
  | scalar hs _ ih => exact passes_cons (next_scalar hs) ih
  | bracket ho hg hc _ _ ih => exact passes_cons (next_bracket ho (collects_of_reads hg) hc) ih
  | mark ho hg hl _ _ ih => exact passes_cons (next_mark ho (collects_of_reads hg) hl) ih

end Completeness

/-! ## Soundness -/

section Soundness

/-- The stack is open at the cursor: each of its frames stands where the items of the frame below it end, holds the
forms that stand after its opening, and waits for more. The outermost frame stands at `c₀`. -/
inductive Open (c₀ : Cursor) : List Frame → Cursor → Prop
  | nil : Open c₀ [] c₀
  | cons {below : List Frame} {o : Opening} {items : List Form} {c₁ c : Cursor} : Open c₀ below c₁ →
      Opening.ofText? c₁.skipGap.rest = some o → Reads (c₁.skipGap.advance o.text.length) items.reverse c →
      (⟨o, c₁.skipGap.pos, items⟩ : Frame).isFull = false → Open c₀ (⟨o, c₁.skipGap.pos, items⟩ :: below) c

variable {c₀ c c₁ c' : Cursor} {stack : List Frame} {g : Form}

theorem reads_of_isFull {o : Opening} {items : List Form} (ho : Opening.ofText? c₁.skipGap.rest = some o)
    (hr : Reads (c₁.skipGap.advance o.text.length) (g :: items).reverse c)
    (hf : (⟨o, c₁.skipGap.pos, items⟩ : Frame).isFull = false)
    (hf' : (⟨o, c₁.skipGap.pos, g :: items⟩ : Frame).isFull = true) :
    Reads c₁ [(⟨o, c₁.skipGap.pos, g :: items⟩ : Frame).close c.pos] c := by
  cases o with
  | bracket s => cases hf'
  | mark m =>
    have hlen : (g :: items).length = m.arity := by
      simp only [Frame.isFull, decide_eq_false_iff_not, decide_eq_true_eq, List.length_cons] at hf hf' ⊢
      omega
    have hm := Reads.mark ho hr (by rw [List.length_reverse, hlen]) (.nil c)
    rwa [markForm, List.reverse_reverse] at hm

/-- A form that stands at the end of an open stack goes into the stack or, with what it fills, comes out of it. -/
theorem open_deliver (h : Open c₀ stack c₁) (hg : Reads c₁ [g] c) :
    (∀ stack', deliver c.pos stack g = .inl stack' → Open c₀ stack' c) ∧
      ∀ g', deliver c.pos stack g = .inr g' → Reads c₀ [g'] c := by
  induction h generalizing g with
  | nil =>
    refine ⟨nofun, fun g' hd => ?_⟩
    cases hd
    exact hg
  | @cons below o items c₂ c₁ hb ho hr hf ih =>
    have hr' : Reads (c₂.skipGap.advance o.text.length) (g :: items).reverse c := by
      rw [List.reverse_cons]
      exact hr.append hg
    rw [deliver_cons]
    cases hf' : (Frame.put ⟨o, c₂.skipGap.pos, items⟩ g).isFull with
    | true =>
      rw [if_pos rfl]
      exact ih (reads_of_isFull ho hr' hf hf')
    | false =>
      rw [if_neg Bool.false_ne_true]
      refine ⟨fun stack' hd => ?_, nofun⟩
      cases hd
      exact .cons hb ho hr' hf'

theorem isFull_nil (o : Opening) (p : Position) : (⟨o, p, []⟩ : Frame).isFull = false := by
  cases o with
  | bracket s => rfl
  | mark m => cases m <;> rfl

/-- A frame that is closed stands as a form. -/
theorem reads_of_closer {s : Shape} {f : Frame} {below : List Frame} (h : Open c₀ (f :: below) c)
    (hf : f.opening = .bracket s) (hc : c.skipGap.rest.head? = some s.closer) :
    ∃ c₁, Open c₀ below c₁ ∧ Reads c₁ [f.close (c.skipGap.advance 1).pos] (c.skipGap.advance 1) := by
  cases h with
  | @cons _ o items c₁ _ hb ho hr hfull =>
    cases hf
    refine ⟨c₁, hb, ?_⟩
    exact .bracket ho hr hc (.nil _)

/-- How the reading of a form that begins at `c₀` can end. -/
inductive Ends (c₀ : Cursor) : Outcome → Prop
  | form {g : Form} {c : Cursor} : Reads c₀ [g] c → Ends c₀ (.form g c)
  | finished : c₀.skipGap.rest = [] → Ends c₀ (.finished c₀.skipGap)
  | failed {stack : List Frame} {e : Failure} {c c' : Cursor} : Open c₀ stack c →
      step stack c = .done (.failed e c') → Ends c₀ (.failed e c')

/-- What a step leaves: an open stack, or an end. -/
def Leaves (c₀ : Cursor) : Step → Prop
  | .more stack c => Open c₀ stack c
  | .done o => Ends c₀ o

theorem leaves_settle (h : Open c₀ stack c₁) (hg : Reads c₁ [g] c) : Leaves c₀ (.settle stack g c) := by
  obtain ⟨hin, hout⟩ := open_deliver h hg
  rw [Step.settle]
  cases hd : deliver c.pos stack g with
  | inl stack' => exact hin _ hd
  | inr g' => exact .form (hout _ hd)

/-- One step keeps the stack open. -/
theorem open_step (h : Open c₀ stack c) : Leaves c₀ (step stack c) := by
  have hm := moves stack c
  generalize hr : step stack c = r at hm ⊢
  cases hm with
  | finish hst hc =>
    subst hst
    cases h
    exact .finished hc
  | cutOff | absent | broken | overlong => exact .failed h hr
  | close hst hf hc =>
    subst hst
    obtain ⟨c₁, hb, hg⟩ := reads_of_closer h hf hc
    exact leaves_settle hb hg
  | opens ho => exact .cons h ho (.nil _) (isFull_nil _ _)
  | scalar hs => exact leaves_settle h (.scalar hs (.nil _))

theorem ends_next (h : Open c₀ stack c) : Ends c₀ (next stack c) := by
  fun_induction next stack c with
  | case1 stack c stack' c₁ hs ih =>
    have hst := open_step h
    rw [hs] at hst
    exact ih hst
  | case2 stack c o hs =>
    have hst := open_step h
    rwa [hs] at hst

theorem next_of_open (h : Open c₀ stack c) : next [] c₀ = next stack c := by
  induction h with
  | nil => rfl
  | @cons below o items c₁ c hb ho hr hf ih =>
    rw [ih, next_more (step_opening ho)]
    refine (collects_of_reads hr ⟨o, c₁.skipGap.pos, []⟩ below (isFull_nil _ _) ?_).trans ?_
    · rintro m rfl
      simp only [Frame.isFull, decide_eq_false_iff_not, List.length_nil, List.length_reverse] at hf ⊢
      omega
    · simp only [Frame.collect, List.reverse_reverse, List.append_nil]
      rw [follow, hf, if_neg Bool.false_ne_true]

end Soundness

/-! ## Whole texts -/

section Runs

/-- The forms from the cursor on, and whether the text ends after them or breaks off in an open stack. -/
inductive Run (c₀ : Cursor) (fs : List Form) : Option Failure → Prop
  | ends {c : Cursor} : Reads c₀ fs c → c.skipGap.rest = [] → Run c₀ fs none
  | breaks {c₁ c c' : Cursor} {stack : List Frame} {e : Failure} : Reads c₀ fs c₁ → Open c₁ stack c →
      step stack c = .done (.failed e c') → Run c₀ fs (some e)

variable {c c' : Cursor} {g : Form} {fs : List Form} {e : Option Failure}

theorem Run.cons (hg : Reads c [g] c') (h : Run c' fs e) : Run c (g :: fs) e := by
  cases h with
  | ends hr hc => exact .ends (hg.append hr) hc
  | breaks hr ho hs => exact .breaks (hg.append hr) ho hs

theorem run_trace (c : Cursor) : Run c ((trace c).forms.map Prod.fst) (trace c).failure := by
  have he : Ends c (next [] c) := ends_next .nil
  generalize hn : next [] c = o at he
  cases he with
  | @form g c' hr =>
    have hlt := rest_lt_of_next hn
    rw [trace_form hn]
    exact .cons hr (run_trace c')
  | finished hc =>
    rw [trace_finished hn]
    exact .ends (.nil c) hc
  | failed ho hs =>
    rw [trace_failed hn]
    exact .breaks (.nil c) ho hs
termination_by c.rest.length

/-- **A text reads in one way only**, and the reader finds it. -/
theorem trace_of_run (h : Run c fs e) : (trace c).forms.map Prod.fst = fs ∧ (trace c).failure = e := by
  cases h with
  | @ends c' hr hc =>
    obtain ⟨hf, he, -⟩ := trace_reads hr
    rw [hf, he, trace_finished (next_done (step_finish hc))]
    exact ⟨List.append_nil fs, rfl⟩
  | breaks hr ho hs =>
    obtain ⟨hf, he, -⟩ := trace_reads hr
    rw [hf, he, trace_failed ((next_of_open ho).trans (next_done hs))]
    exact ⟨List.append_nil fs, rfl⟩

theorem read_eq_ok_iff {t filename : Text} :
    read t filename = .ok fs ↔ ∃ c, Reads (.start t) fs c ∧ c.skipGap.rest = [] := by
  constructor
  · intro h
    have hrun := run_trace (.start t)
    rw [read, Trace.result] at h
    split at h
    · rename_i he
      rw [he] at hrun
      cases h
      cases hrun with
      | ends hr hc => exact ⟨_, hr, hc⟩
    · cases h
  · rintro ⟨c', hr, hc⟩
    obtain ⟨hf, he⟩ := trace_of_run (.ends hr hc)
    rw [read, Trace.result, he, hf]

theorem read_eq_error_iff {t filename : Text} {x : ReadError} :
    read t filename = .error x ↔ ∃ fs e, Run (.start t) fs (some e) ∧ x = e.toError t filename := by
  constructor
  · intro h
    have hrun := run_trace (.start t)
    rw [read, Trace.result] at h
    split at h
    · cases h
    · rename_i e he
      rw [he] at hrun
      cases h
      exact ⟨_, e, hrun, rfl⟩
  · rintro ⟨fs, e, hr, rfl⟩
    rw [read, Trace.result, (trace_of_run hr).2]

theorem readsAs_iff {t : Text} :
    readsAs t fs = .ok true ↔ ∃ gs, read t = .ok gs ∧ Form.sameAll gs fs = true := by
  rw [readsAs]
  cases read t with
  | error e => simp [Except.map]
  | ok gs => simp [Except.map]

/-- What the scan of a literal takes can be decoded, so reading never fails at an escape. -/
theorem read_ne_misescaped (t filename : Text) (f : Escape.Fault) : read t filename ≠ .error (.misescaped f) := by
  intro h
  obtain ⟨fs, e, hrun, he⟩ := read_eq_error_iff.1 h
  cases hrun with
  | breaks _ _ hs => cases fails_of_step hs <;> cases he

end Runs

end MalForms
