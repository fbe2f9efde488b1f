import MalForms.Proofs.Reader.Extension

/-!
# When more input can help

A text that breaks off at its end can be completed to a readable one, and a text that breaks off before its end cannot:
every longer text has the same error. So the report `incomplete` is right about whether to wait for more input
(`incomplete_right`). The only exception is a colon at the very end, which a name may still follow.

* Completion: a frame is closed by its bracket or by the forms its mark still takes (`closing`), so a form that stands
  at the end of an open stack brings the stack to its end (`reads_of_closing`). At the end of a text a line feed ends a
  comment and a form can be added; in a string literal the escape and the literal are finished.
* Stability: the lexeme at which the reading fails is the same in every longer text (`step_extend_absent`,
  `step_extend_broken`), and so is all that comes before it.
-/

namespace MalForms

open Lexeme

/-! ## Completing a text -/

section Closing

variable {c c₀ c₁ c' : Cursor} {g : Form} {stack : List Frame}

/-- `n` symbols, each after a space. -/
def names (n : Nat) : Text := (List.replicate n [CodePoint.ofChar ' ', CodePoint.ofChar 'x']).flatten

/-- What closes the frame after one more form. -/
def Frame.ending (f : Frame) : Text :=
  match f.opening with
  | .bracket s => [s.closer]
  | .mark m => names (m.arity - f.items.length - 1)

/-- What closes all frames after one more form. -/
def closing : List Frame → Text
  | [] => []
  | f :: below => f.ending ++ closing below

theorem names_succ (n : Nat) (t : Text) :
    names (n + 1) ++ t = CodePoint.ofChar ' ' :: CodePoint.ofChar 'x' :: (names n ++ t) := by
  rw [names, List.replicate_succ, List.flatten_cons, List.append_assoc]
  rfl

theorem breaks_names (n : Nat) {t : Text} (ht : Breaks t) : Breaks (names n ++ t) := by
  cases n with
  | zero => exact ht
  | succ n =>
    rw [names_succ]
    exact breaks_separator (by decide) _

theorem breaks_closing (stack : List Frame) : Breaks (closing stack) := by
  induction stack with
  | nil => exact breaks_nil
  | cons f below ih =>
    rw [closing, Frame.ending]
    split
    · exact breaks_closer _ _
    · exact breaks_names _ ih

/-- A symbol stands after a gap. -/
theorem reads_name {t : Text} (hc : c.skipGap.rest = CodePoint.ofChar 'x' :: t) (ht : Breaks t) :
    ∃ g c', Reads c [g] c' ∧ c'.rest = t := by
  have hx : Lexeme.scalar [CodePoint.ofChar 'x'] = .found (.symbol "x") 1 := by decide
  have hs : Lexeme.scalar c.skipGap.rest = .found (.symbol "x") 1 := by
    rw [hc]
    exact scalar_append_found hx (.inr ht)
  exact ⟨_, _, .scalar hs (.nil _), by rw [Cursor.rest_advance, hc]; rfl⟩

theorem reads_names {n : Nat} {t : Text} (hc : c.rest = names n ++ t) (ht : Breaks t) :
    ∃ gs c', Reads c gs c' ∧ c'.rest = t ∧ gs.length = n := by
  induction n generalizing c with
  | zero => exact ⟨[], c, .nil c, hc, rfl⟩
  | succ n ih =>
    rw [names_succ] at hc
    have hgap : c.skipGap.rest = CodePoint.ofChar 'x' :: (names n ++ t) := by
      rw [rest_skipGap, hc, afterGap_separator (by decide), afterGap_cons (by decide)]
    obtain ⟨g, c₁, hg, hc₁⟩ := reads_name hgap (breaks_names n ht)
    obtain ⟨gs, c', hgs, hc', hl⟩ := ih hc₁
    exact ⟨g :: gs, c', hg.append hgs, hc', by rw [List.length_cons, hl]⟩

/-- A form after the items of a frame, and what closes the frame. -/
theorem reads_of_ending {o : Opening} {items : List Form} {t : Text} (ho : Opening.ofText? c₁.skipGap.rest = some o)
    (hr : Reads (c₁.skipGap.advance o.text.length) items.reverse c)
    (hf : (⟨o, c₁.skipGap.pos, items⟩ : Frame).isFull = false) (hg : Reads c [g] c')
    (hc : c'.rest = (⟨o, c₁.skipGap.pos, items⟩ : Frame).ending ++ t) (ht : Breaks t) :
    ∃ g' c'', Reads c₁ [g'] c'' ∧ c''.rest = t := by
  have hitems := hr.append hg
  cases o with
  | bracket s =>
    have hgap : c'.skipGap.rest = s.closer :: t := by
      rw [rest_skipGap, hc]
      exact afterGap_cons (by cases s <;> decide)
    exact ⟨_, _, .bracket ho hitems (by rw [hgap]; rfl) (.nil _), by rw [Cursor.rest_advance, hgap]; rfl⟩
  | mark m =>
    obtain ⟨gs, c'', hgs, hc'', hl⟩ := reads_names hc ht
    refine ⟨_, c'', .mark ho (hitems.append hgs) ?_ (.nil _), hc''⟩
    simp only [Frame.isFull, decide_eq_false_iff_not] at hf
    simp only [List.length_append, List.length_reverse, List.length_singleton, hl]
    omega

/-- **A form at the end of an open stack, and what closes all frames, make up a form.** -/
theorem reads_of_closing (h : Open c₀ stack c) (hg : Reads c [g] c') (hc : c'.rest = closing stack) :
    ∃ g' c'', Reads c₀ [g'] c'' ∧ c''.rest = [] := by
  induction h generalizing g c' with
  | nil => exact ⟨g, c', hg, hc⟩
  | cons hb ho hr hf ih =>
    obtain ⟨g', c'', hg', hc''⟩ := reads_of_ending ho hr hf hg hc (breaks_closing _)
    exact ih hg' hc''

theorem read_of_closing {fs : List Form} {s filename : Text} (hr : Reads (.start s) fs c₀) (h : Open c₀ stack c)
    (hg : Reads c [g] c') (hc : c'.rest = closing stack) : ∃ fs, read s filename = .ok fs := by
  obtain ⟨g', c'', hg', hc''⟩ := reads_of_closing h hg hc
  exact ⟨_, read_eq_ok_iff.2 ⟨c'', hr.append hg', by rw [rest_skipGap, hc'']; rfl⟩⟩

/-- A text that ends where a form is missing is completed by a symbol on the next line and by what closes all frames. -/
theorem completable_of_cutOff {fs : List Form} {s : Text} (hr : Reads (.start s) fs c₀) (h : Open c₀ stack c)
    (hc : c.skipGap.rest = []) (filename : Text) :
    ∃ fs, read (s ++ CodePoint.ofChar '\n' :: CodePoint.ofChar 'x' :: closing stack) filename = .ok fs := by
  let t : Text := CodePoint.ofChar '\n' :: CodePoint.ofChar 'x' :: closing stack
  have ht : Breaks t := breaks_separator (by decide) _
  have hgap : (c.extend t).skipGap.rest = CodePoint.ofChar 'x' :: closing stack := by
    rw [rest_skipGap, Cursor.rest_extend, afterGap_append_newline hc, afterGap_cons (by decide)]
  obtain ⟨g, c', hg, hc'⟩ := reads_name hgap (breaks_closing stack)
  have hopen := h.extend (t := t) (.inr ht)
  exact read_of_closing (hr.extend (.inr ht)) hopen hg hc'

/-- A literal that breaks off at the end of its text waits in some state for what comes next. It is completed by what
ends this state and a quote, and any text can follow. -/
theorem string_completion {s : Text} {n : Nat} {e : Expectation} (h : Lexeme.scalar s = .broken n e)
    (hn : s.length ≤ n) (u : Text) :
    ∃ state : StringState, e = state.expects ∧ ∃ x k,
      Lexeme.scalar (s ++ (state.ending ++ Escape.quote :: u)) = .found x k ∧
        (s ++ (state.ending ++ Escape.quote :: u)).drop k = u := by
  obtain ⟨r, m, rfl, hm, rfl⟩ := quote_of_broken h
  have hle := bodyLength_le .plain r
  rw [hm] at hle
  have hend : (bodyLength .plain r).1 = r.length := by
    rw [hm]
    exact Nat.le_antisymm hle (Nat.le_of_succ_le_succ hn)
  obtain ⟨state, hstate⟩ := bodyLength_append_end hend
  have hexpects := hstate []
  rw [List.append_nil, hm] at hexpects
  have hlen := hstate (state.ending ++ Escape.quote :: u)
  rw [bodyLength_ending] at hlen
  obtain ⟨b, r', hb, hbl, hbody⟩ := body_of_bodyLength hlen
  have hsplit : r ++ state.ending = b ∧ Escape.quote :: u = Escape.quote :: r' := by
    refine List.append_inj (by rw [List.append_assoc, hb]) ?_
    rw [List.length_append, hbl]
    exact Nat.add_comm _ _
  obtain ⟨rfl, hu⟩ := hsplit
  obtain ⟨y, hy⟩ := decode_body hbody
  refine ⟨state, Option.some.inj (Prod.mk.inj hexpects).2, .str y, (r ++ state.ending).length + 2, ?_, ?_⟩
  · rw [List.cons_append, scalar_quote, hb, stringLiteral_body hbody hy]
  · rw [List.cons_append, hb, (List.cons.inj hu).2]
    generalize r ++ state.ending = b
    simp

theorem completable_of_broken {fs : List Form} {s : Text} {n : Nat} {e : Expectation} (hr : Reads (.start s) fs c₀)
    (h : Open c₀ stack c) (hs : Lexeme.scalar c.skipGap.rest = .broken n e) (hn : c.skipGap.rest.length ≤ n)
    (filename : Text) :
    ∃ state : StringState, e = state.expects ∧
      ∃ fs, read (s ++ (state.ending ++ Escape.quote :: closing stack)) filename = .ok fs := by
  have hne : c.skipGap.rest ≠ [] := ne_nil_of_not_absent (by rw [hs]; exact Match.noConfusion)
  have hpart := parted_of_skipGap hne
  obtain ⟨state, he, x, k, hx, hk⟩ := string_completion hs hn (closing stack)
  refine ⟨state, he, ?_⟩
  generalize state.ending ++ Escape.quote :: closing stack = t at hx hk ⊢
  have hopen := h.extend (hpart t)
  rw [← Cursor.rest_extend, ← Cursor.skipGap_extend hne] at hx hk
  have hr₀ : Reads ((Cursor.start s).extend t) fs (c₀.extend t) := hr.extend ((hpart t).of_le h.length_le)
  exact read_of_closing hr₀ hopen (.scalar hx (.nil _)) hk

end Closing

/-! ## Errors that stay -/

section Stability

variable {c c₀ c' : Cursor} {stack : List Frame} {t : Text}

theorem step_extend_absent (hne : c.skipGap.rest ≠ []) (hcl : ¬Closing stack c.skipGap)
    (ho : Opening.ofText? c.skipGap.rest = none) (hs : Lexeme.scalar c.skipGap.rest = .absent)
    (hcolon : c.skipGap.rest = [CodePoint.ofChar ':'] → Breaks t) :
    step stack (c.extend t) =
      .done (.failed (.mismatch c.skipGap.pos (expectedIn stack)) (c.skipGap.extend t)) := by
  have hgap := Cursor.skipGap_extend hne t
  have hhead : (c.skipGap.rest ++ t).head? = c.skipGap.rest.head? := by
    rw [List.head?_append, Option.or_of_isSome (List.isSome_head?.2 hne)]
  rw [← Cursor.pos_extend c.skipGap t, ← hgap]
  refine step_absent ?_ ?_ ?_ ?_ <;> rw [hgap]
  · exact List.append_ne_nil_of_left_ne_nil hne t
  · rintro ⟨f, below, b, hst, hf, hb⟩
    exact hcl ⟨f, below, b, hst, hf, hhead.symm.trans hb⟩
  · exact ofText?_append_none hne ho t
  · exact scalar_append_absent hne hs hcolon

theorem step_extend_broken {n : Nat} {e : Expectation} (hs : Lexeme.scalar c.skipGap.rest = .broken n e)
    (hn : n < c.skipGap.rest.length) (t : Text) :
    step stack (c.extend t) = .done (.failed (.mismatch (c.skipGap.advance n).pos [e]) (c.skipGap.extend t)) := by
  have hgap := Cursor.skipGap_extend (List.ne_nil_of_length_pos (Nat.zero_lt_of_lt hn)) t
  have hs' : Lexeme.scalar (c.extend t).skipGap.rest = .broken n e := by
    rw [hgap]
    exact scalar_append_broken hs hn t
  rw [step_broken hs', hgap, Cursor.advance_extend (Nat.le_of_lt hn)]
  rfl

/-- A failure of the step after an open stack is the error of the whole text. -/
theorem read_of_failed {fs : List Form} {s filename : Text} {p : Position} {ex : List Expectation}
    (hr : Reads (.start s) fs c₀) (h : Open c₀ stack c) (hp : c.Parted t)
    (hs : step stack (c.extend t) = .done (.failed (.mismatch p ex) c')) :
    read (s ++ t) filename = .error (.parse (.atPosition (s ++ t) p ex filename)) :=
  read_eq_error_iff.2 ⟨fs, _, .breaks (hr.extend (hp.of_le h.length_le)) (h.extend hp) hs, rfl⟩

end Stability

/-! ## The report -/

section Report

variable {src filename : Text} {e : ParseError}

/-- The error is at a colon that ends the source. -/
def ParseError.AtLastColon (e : ParseError) (src : Text) : Prop :=
  e.found = some (CodePoint.ofChar ':') ∧ e.pos + 1 = src.length

/-- The error is the error of every longer source: at the same place, with the same expectations. -/
def ParseError.Stays (e : ParseError) (src filename : Text) : Prop :=
  ∀ t, ∃ e', read (src ++ t) filename = .error (.parse e') ∧ e'.pos = e.pos ∧ e'.line = e.line ∧ e'.col = e.col ∧
    e'.expected = e.expected

/-- What an error comes from: a failure after an open stack. -/
theorem failure_of_read (h : read src filename = .error (.parse e)) :
    ∃ fs c₀ c c' stack p ex, Reads (.start src) fs c₀ ∧ Open c₀ stack c ∧ c.Stands src ∧
      step stack c = .done (.failed (.mismatch p ex) c') ∧ e = .atPosition src p ex filename := by
  obtain ⟨fs, x, hrun, hx⟩ := read_eq_error_iff.1 h
  cases hrun with
  | @breaks c₀ c c' stack x hr ho hs =>
    cases x with
    | mismatch p ex =>
      exact ⟨fs, c₀, c, c', stack, p, ex, hr, ho, ho.stands (hr.stands (stands_start src)), hs, ReadError.parse.inj hx⟩
    | overlong d => cases hx
    | misescaped f => cases hx

theorem stays_of_failed {fs : List Form} {c₀ c : Cursor} {stack : List Frame} {p : Position} {ex : List Expectation}
    (hr : Reads (.start src) fs c₀) (ho : Open c₀ stack c) (hne : c.skipGap.rest ≠ [])
    (hs : ∀ t, ∃ c', step stack (c.extend t) = .done (.failed (.mismatch p ex) c')) :
    (ParseError.atPosition src p ex filename).Stays src filename := by
  intro t
  obtain ⟨c', hs⟩ := hs t
  exact ⟨_, read_of_failed hr ho (parted_of_skipGap hne t) hs, rfl, rfl, rfl, rfl⟩

/-- An error can be completed or stays, but for a colon at the end. -/
theorem completable_or_stays (h : read src filename = .error (.parse e)) :
    (e.incomplete = true ∧ ∃ t fs, read (src ++ t) filename = .ok fs) ∨
      e.incomplete = false ∧ (¬e.AtLastColon src → e.Stays src filename) := by
  obtain ⟨fs, c₀, c, c', stack, p, ex, hr, ho, hstand, hs, rfl⟩ := failure_of_read h
  have hgap : c.skipGap.Stands src := hstand.advance _
  cases fails_of_step hs with
  | cutOff _ hc =>
    exact .inl ⟨(incomplete_atPosition hgap _ _).2 hc, _, completable_of_cutOff hr ho hc filename⟩
  | absent hne hcl hop hsc =>
    refine .inr ⟨?_, fun hcolon => stays_of_failed hr ho hne fun t => ⟨_, step_extend_absent hne hcl hop hsc ?_⟩⟩
    · rw [Bool.eq_false_iff, ne_eq, incomplete_atPosition hgap]
      exact hne
    · intro hlast
      refine absurd ⟨by rw [found_atPosition hgap, hlast]; rfl, ?_⟩ hcolon
      rw [← offset_of_stands hgap, hlast]
      rfl
  | @broken n x hsc =>
    have hplace : (c.skipGap.advance n).Stands src := hgap.advance n
    rcases Nat.lt_or_ge n c.skipGap.rest.length with hn | hn
    · have hne : c.skipGap.rest ≠ [] := List.ne_nil_of_length_pos (Nat.zero_lt_of_lt hn)
      refine .inr ⟨?_, fun _ => stays_of_failed hr ho hne fun t => ⟨_, step_extend_broken hsc hn t⟩⟩
      rw [Bool.eq_false_iff, ne_eq, incomplete_atPosition hplace, Cursor.rest_advance, List.drop_eq_nil_iff]
      exact Nat.not_le.2 hn
    · obtain ⟨state, -, hread⟩ := completable_of_broken hr ho hsc hn filename
      refine .inl ⟨(incomplete_atPosition hplace _ _).2 ?_, _, hread⟩
      exact List.drop_eq_nil_of_le hn

/-- A source with an error at its last colon ends in a colon. -/
theorem getLast?_of_atLastColon (h : read src filename = .error (.parse e)) (hc : e.AtLastColon src) :
    src.getLast? = some (CodePoint.ofChar ':') := by
  obtain ⟨_, _, _, _, _, p, _, -, -, -, -, rfl⟩ := failure_of_read h
  obtain ⟨hfound, hpos⟩ := hc
  have hp : p.offset + 1 = src.length := Int.ofNat.inj hpos
  have hlast : src[p.offset]? = src.getLast? := by rw [List.getLast?_eq_getElem?, ← hp, Nat.add_sub_cancel]
  exact hlast.symm.trans hfound

/-- A source that ends in a line feed does not end in a colon. -/
theorem not_atLastColon (h : read src filename = .error (.parse e))
    (hsrc : src.getLast? = some (CodePoint.ofChar '\n')) : ¬e.AtLastColon src := by
  intro hc
  cases (getLast?_of_atLastColon h hc).symm.trans hsrc

/-- **The report whether a text is incomplete is right**: an incomplete text can be completed to a readable one, and an
error that is not at the end stays in every longer text, unless it is at a colon that ends the source. A text that ends
in a line feed does not end in a colon. -/
theorem incomplete_right (src filename : Text) (e : ParseError) (h : read src filename = .error (.parse e)) :
    (e.incomplete = true → ∃ t fs, read (src ++ t) filename = .ok fs) ∧
      (e.incomplete = false → ¬e.AtLastColon src → e.Stays src filename) ∧
      (src.getLast? = some (CodePoint.ofChar '\n') → ¬e.AtLastColon src) := by
  refine ⟨fun hi => ?_, fun hi hc => ?_, not_atLastColon h⟩
  · obtain ⟨-, hcomplete⟩ | ⟨hi', -⟩ := completable_or_stays h
    · exact hcomplete
    · cases hi.symm.trans hi'
  · obtain ⟨hi', -⟩ | ⟨-, hstays⟩ := completable_or_stays h
    · cases hi.symm.trans hi'
    · exact hstays hc

/-- An open bracket can be closed, a closing one stays an error. -/
theorem incomplete_right_brackets :
    (∃ t fs, read (Text.ofString "(" ++ t) = .ok fs) ∧
      ∀ t, ∃ e, read (Text.ofString ")" ++ t) = .error (.parse e) ∧ e.pos = 0 ∧ e.line = 1 ∧ e.col = 0 := by
  have hstack : Open (.start "(") [⟨.bracket .list, {}, []⟩] ⟨⟨1, 1, 1⟩, []⟩ :=
    .cons (o := .bracket .list) .nil (by decide) (.nil _) rfl
  have hopen : read "(" = .error (.parse (.atPosition "(" ⟨1, 1, 1⟩ [.closer .list, .form] "<input>")) :=
    read_eq_error_iff.2 ⟨[], _, .breaks (.nil _) hstack (step_cutOff rfl), rfl⟩
  have hclose : read ")" = .error (.parse (.atPosition ")" ⟨0, 1, 0⟩ [.endOfInput, .form] "<input>")) :=
    read_eq_error_iff.2 ⟨[], _, .breaks (.nil _) .nil
      (step_absent (by decide) (by rintro ⟨_, _, _, hst, -⟩; cases hst) (by decide) (by decide)), rfl⟩
  refine ⟨(incomplete_right _ _ _ hopen).1 rfl, fun t => ?_⟩
  have hcolon : ¬ParseError.AtLastColon (.atPosition ")" ⟨0, 1, 0⟩ [.endOfInput, .form] "<input>") ")" := by
    rintro ⟨hfound, -⟩
    cases hfound
  obtain ⟨e, he, hpos, hline, hcol, -⟩ := (incomplete_right _ _ _ hclose).2.1 rfl hcolon t
  exact ⟨e, he, hpos, hline, hcol⟩

end Report

end MalForms
