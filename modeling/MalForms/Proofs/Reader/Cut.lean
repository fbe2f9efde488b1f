import MalForms.Proofs.Grammar.Agreement
import MalForms.Proofs.Reader.Completion

/-!
# Cutting a text at the end of a line

A text that is readable up to the end of one of its lines can be cut there: the whole is readable if and only if the
rest is, and then the forms of the whole are those of the two parts, places aside (`covers_append`,
`covers_of_append`).

No lexeme ends in a line feed, so the last one is over before the cut (`Reads.endsLine`), and a comment that is open
there ends with the line (`afterGap_append_line`). The forms of the rest stand at other places when it is read alone;
what they are does not depend on that, because the grammar knows no places (`covers_moved`).
-/

namespace MalForms

open Lexeme
open Grammar (afterGap)

/-! ## Texts of whole lines -/

section Line

variable {s t : Text} {c c' : Cursor} {fs : List Form}

/-- The text ends in a line feed. -/
def EndsLine (t : Text) : Prop := t.getLast? = some (CodePoint.ofChar '\n')

theorem endsLine_line (s t : Text) : EndsLine (s ++ t.line) := by
  rw [EndsLine, Text.line, ← List.append_assoc, List.getLast?_concat]

theorem EndsLine.ne_nil (h : EndsLine t) : t ≠ [] := by
  rintro rfl
  cases h

theorem EndsLine.append_line (h : EndsLine t) : ∃ u, t = u ++ [CodePoint.ofChar '\n'] :=
  List.getLast?_eq_some_iff.1 h

/-- A text goes on after a code point that is no separator. -/
theorem EndsLine.after {k : Nat} {a v : Text} {d : CodePoint} (h : EndsLine s) (hs : s.drop k = a ++ d :: v)
    (hd : isSeparator d = false) : EndsLine v := by
  have hlast : (s.drop k).getLast? = s.getLast? := by
    rw [List.getLast?_drop, if_neg]
    intro hle
    rw [List.drop_eq_nil_of_le hle] at hs
    exact absurd hs.symm (by simp)
  rw [hs, h, List.getLast?_append] at hlast
  cases v with
  | nil =>
    obtain rfl : d = CodePoint.ofChar '\n' := by simpa using hlast
    cases hd
  | cons e v =>
    rw [List.getLast?_cons_cons, List.getLast?_cons] at hlast
    rw [EndsLine, List.getLast?_cons]
    exact hlast

theorem afterGap_append_line (h : afterGap s = []) (hs : EndsLine s) (t : Text) : afterGap (s ++ t) = afterGap t := by
  obtain ⟨u, rfl⟩ := hs.append_line
  have hu : afterGap u = [] := by
    by_contra hne
    rw [afterGap_append hne] at h
    exact absurd h (by simp)
  rw [List.append_assoc]
  exact afterGap_append_newline hu t

theorem opening_last (o : Opening) : ∃ a d, o.text = a ++ [d] ∧ isSeparator d = false := by
  cases o with
  | bracket b => exact ⟨[], b.opener, rfl, by cases b <;> decide⟩
  | mark m =>
    cases m with
    | spliceUnquote => exact ⟨['~'], '@', rfl, by decide⟩
    | withMeta | quote | quasiquote | unquote | deref => exact ⟨[], _, rfl, by decide⟩

theorem EndsLine.scalar {x : Scalar} {n : Nat} (h : EndsLine c.rest) (hs : Lexeme.scalar c.skipGap.rest = .found x n) :
    EndsLine (c.skipGap.advance n).rest := by
  obtain ⟨a, d, v, hr, rfl, hd⟩ := scalar_last hs
  have hv : (c.skipGap.advance (a.length + 1)).rest = v := by
    rw [Cursor.rest_advance, hr]
    simp
  rw [hv]
  exact h.after hr hd

theorem EndsLine.opening {o : Opening} (h : EndsLine c.rest) (ho : Opening.ofText? c.skipGap.rest = some o) :
    EndsLine (c.skipGap.advance o.text.length).rest := by
  obtain ⟨a, d, htext, hd⟩ := opening_last o
  refine h.after (a := a) ((rest_opening ho).trans ?_) hd
  rw [htext, List.append_assoc]
  rfl

theorem EndsLine.closer {b : Shape} (h : EndsLine c.rest) (hc : c.skipGap.rest.head? = some b.closer) :
    EndsLine (c.skipGap.advance 1).rest :=
  h.after (a := []) (rest_closer hc) (by cases b <;> decide)

/-- No form ends in a line feed. -/
theorem Reads.endsLine (h : Reads c fs c') (hc : EndsLine c.rest) : EndsLine c'.rest := by
  induction h with
  | nil => exact hc
  | scalar hs _ ih => exact ih (hc.scalar hs)
  | bracket ho _ hcl _ ihg ih => exact ih ((ihg (hc.opening ho)).closer hcl)
  | mark ho _ _ _ ihg ih => exact ih (ihg (hc.opening ho))

end Line

/-! ## The forms up to the end -/

section Covers

variable {c c₁ c₂ : Cursor} {fs gs : List Form}

/-- The forms make up all of the text from the cursor on. -/
def Covers (c : Cursor) (fs : List Form) : Prop := ∃ c', Reads c fs c' ∧ c'.skipGap.rest = []

theorem read_eq_ok_iff_covers {t filename : Text} : read t filename = .ok fs ↔ Covers (.start t) fs := read_eq_ok_iff

theorem Covers.congr (h : Covers c fs) (hs : c₁.skipGap = c.skipGap) : Covers c₁ fs := by
  obtain ⟨c', hr, hc⟩ := h
  cases fs with
  | nil => exact ⟨c₁, .nil c₁, by rw [hs, ← reads_nil hr, hc]⟩
  | cons f fs => exact ⟨c', hr.congr (List.cons_ne_nil f fs) hs, hc⟩

theorem Covers.prepend (hr : Reads c fs c₁) (h : Covers c₁ gs) : Covers c (fs ++ gs) := by
  obtain ⟨c', hr', hc⟩ := h
  exact ⟨c', hr.append hr', hc⟩

/-- What is left of a readable text after some of its forms is readable. -/
theorem Covers.split (hr : Reads c fs c₁) (h : Covers c gs) : ∃ gs', gs = fs ++ gs' ∧ Covers c₁ gs' := by
  obtain ⟨c', hr', hc⟩ := h
  obtain ⟨hforms, hfail, -⟩ := trace_reads hr
  obtain ⟨hforms', hfail'⟩ := trace_of_run (.ends hr' hc)
  have hrun := run_trace c₁
  rw [← hfail, hfail'] at hrun
  refine ⟨_, hforms'.symm.trans hforms, ?_⟩
  cases hrun with
  | ends hr'' hc'' => exact ⟨_, hr'', hc''⟩

/-- The forms do not depend on the place where the text stands. -/
theorem covers_moved (h : Covers c fs) (hover : ¬HoldsOverlong c.rest) (hgap : c₂.skipGap.rest = c.skipGap.rest) :
    ∃ gs, Covers c₂ gs ∧ gs.map Form.erase = fs.map Form.erase := by
  obtain ⟨c', hr, hc⟩ := h.congr (skipGap_skipGap c)
  have hover' : ¬HoldsOverlong c.skipGap.rest := fun h => hover (h.congr (afterGap_afterGap c.rest))
  have hchain := Grammar.chain_of_reads hr (Nat.lt_succ_self _)
  obtain ⟨gs, c₂', hgs, he, hrest⟩ :=
    Grammar.reads_of_chain (Grammar.sound _) hchain hgap (Nat.lt_succ_self _) hover'
  have hend : c₂'.skipGap.rest = [] := by rw [rest_skipGap, hrest, ← rest_skipGap, hc]
  exact ⟨gs, Covers.congr ⟨c₂', hgs, hend⟩ (skipGap_skipGap c₂).symm, he⟩

end Covers

/-! ## The cut -/

section Cut

variable {s t filename : Text} {fs : List Form}

/-- The forms of a text, places aside, if it can be read. -/
def meaning (t : Text) : Option (List Form) := (read t).toOption.map Form.eraseAll

theorem meaning_of_ok (h : read t filename = .ok fs) : meaning t = some (Form.eraseAll fs) := by
  have hr : read t = .ok fs := read_eq_ok_iff.2 (read_eq_ok_iff.1 h)
  rw [meaning, hr]
  rfl

theorem meaning_of_error {e : ReadError} (h : read t filename = .error e) : meaning t = none := by
  cases hr : read t with
  | ok fs => cases h.symm.trans (read_eq_ok_iff.2 (read_eq_ok_iff.1 hr))
  | error e => rw [meaning, hr]; rfl

theorem meaning_nil : meaning [] = some [] := by
  have hr : read [] = .ok [] := read_eq_ok_iff.2 ⟨_, .nil _, rfl⟩
  exact meaning_of_ok hr

/-- After the forms of whole lines, the text that follows them is read. -/
theorem reads_append_line (h : read s filename = .ok fs) (hl : EndsLine s) (t : Text) :
    ∃ c, Reads (.start (s ++ t)) fs c ∧ afterGap c.rest = afterGap t := by
  obtain ⟨c, hr, hc⟩ := read_eq_ok_iff.1 h
  have hline : EndsLine c.rest := hr.endsLine hl
  exact ⟨c.extend t, hr.extend (.inl hline.ne_nil), afterGap_append_line hc hline t⟩

theorem holdsOverlong_append (h : read s filename = .ok fs) (hl : EndsLine s) (ho : HoldsOverlong t) :
    HoldsOverlong (s ++ t) := by
  obtain ⟨c, hr, hgap⟩ := reads_append_line h hl t
  exact hr.holdsOverlong (ho.congr hgap.symm)

/-- **A text can be cut at the end of a line**, if what comes before the cut is readable. -/
theorem meaning_append (h : read s filename = .ok fs) (hl : EndsLine s) (hover : ¬HoldsOverlong (s ++ t)) :
    meaning (s ++ t) = (meaning t).map (Form.eraseAll fs ++ ·) := by
  obtain ⟨c, hr, hgap⟩ := reads_append_line h hl t
  cases ht : read t with
  | ok gs =>
    have hover' : ¬HoldsOverlong t := fun ho => hover (holdsOverlong_append h hl ho)
    obtain ⟨gs', hcov, he⟩ := covers_moved (read_eq_ok_iff_covers.1 ht) hover' hgap
    have hst : read (s ++ t) = .ok (fs ++ gs') := read_eq_ok_iff_covers.2 (hcov.prepend hr)
    rw [meaning_of_ok hst, meaning_of_ok ht, Option.map_some, Form.eraseAll_eq_map, List.map_append, he,
      ← Form.eraseAll_eq_map, ← Form.eraseAll_eq_map]
  | error e =>
    cases hst : read (s ++ t) with
    | ok gs =>
      obtain ⟨gs', -, hcov⟩ := (read_eq_ok_iff_covers.1 hst).split hr
      have hover' : ¬HoldsOverlong c.rest := fun ho => hover (hr.holdsOverlong ho)
      have hgap' : (Cursor.start t).skipGap.rest = c.skipGap.rest := hgap.symm
      obtain ⟨gs'', hcov', -⟩ := covers_moved hcov hover' hgap'
      cases ht.symm.trans (read_eq_ok_iff_covers.2 hcov')
    | error e' => rw [meaning_of_error hst, meaning_of_error ht]; rfl

/-- Where the reading gives up at a number, it gives up there in a longer text, if the number is still too long. -/
theorem read_append_overlong {d : Nat} (h : read s filename = .error (.overlong d)) (t : Text) :
    ∃ c : Cursor, ∃ n, c.Stands s ∧ Lexeme.scalar c.rest = .overlong d n ∧
      ∀ d' n', Lexeme.scalar (c.rest ++ t) = .overlong d' n' → read (s ++ t) filename = .error (.overlong d') := by
  obtain ⟨fs, e, hrun, he⟩ := read_eq_error_iff.1 h
  cases hrun with
  | @breaks c₀ c c' stack e hr ho hs =>
    cases fails_of_step hs with
    | cutOff | absent | broken => cases he
    | @overlong d n hx =>
      cases he
      have hne : c.skipGap.rest ≠ [] := ne_nil_of_not_absent (by rw [hx]; exact Match.noConfusion)
      have hpart : c.Parted t := parted_of_skipGap hne t
      refine ⟨c.skipGap, n, (ho.stands (hr.stands (stands_start s))).advance _, hx, fun d' n' hx' => ?_⟩
      rw [← Cursor.rest_extend, ← Cursor.skipGap_extend hne] at hx'
      exact read_eq_error_iff.2
        ⟨fs, _, .breaks (hr.extend (hpart.of_le ho.length_le)) (ho.extend hpart) (step_overlong hx'), rfl⟩

/-- A number with too many digits in whole lines keeps the text after them from being read. -/
theorem read_line_overlong {d : Nat} (h : read s filename = .error (.overlong d)) (hl : EndsLine s) (t : Text) :
    read (s ++ t) filename = .error (.overlong d) := by
  obtain ⟨c, n, ⟨before, hs, -⟩, hx, hstays⟩ := read_append_overlong h t
  obtain ⟨negative, ds, hd, -, rfl⟩ := numeral_of_overlong hx
  obtain ⟨a, d, v, hr, hlen, hsep⟩ := numeral_last hd
  have hv : v ≠ [] := by
    refine (hl.after (k := 0) (a := before ++ a) (d := d) ?_ hsep).ne_nil
    rw [List.drop_zero, hs, hr, List.append_assoc]
  have hlt : ds.length + negative.toNat < c.rest.length := by
    have := List.length_pos_iff.2 hv
    rw [hr, List.length_append, List.length_cons]
    omega
  exact hstays _ _ (scalar_append_overlong hx (.inl hlt))

/-- A number with too many digits in whole lines is one in the text. -/
theorem holdsOverlong_of_line {d : Nat} (h : read s filename = .error (.overlong d)) (hl : EndsLine s) (t : Text) :
    HoldsOverlong (s ++ t) :=
  holdsOverlong_of_read (read_line_overlong h hl t)

end Cut

end MalForms
