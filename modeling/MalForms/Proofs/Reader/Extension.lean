import MalForms.Proofs.Reader.Reads
import MalForms.Proofs.Text.Lines

/-!
# Reading a longer text

What is read at the beginning of a text does not change when more text comes after it, if the last lexeme is `Parted`
from what comes.

* `Reads.extend`: the forms that stand in a text stand in the longer one.
* `Open.extend`: the stack that is open at the end of a text is open there in the longer one.
* `Cursor.Stands`: the cursors of a reading stand in the source, so an error is at the end of the source if and only
  if nothing is left of the text there (`incomplete_atPosition`).
-/

namespace MalForms

open Lexeme

/-! ## Cursors in a longer text -/

namespace Cursor

/-- The cursor in the text with `t` after it. -/
def extend (c : Cursor) (t : Text) : Cursor := ⟨c.pos, c.rest ++ t⟩

variable {c : Cursor} {t : Text} {n : Nat}

@[simp] theorem pos_extend (c : Cursor) (t : Text) : (c.extend t).pos = c.pos := rfl

@[simp] theorem rest_extend (c : Cursor) (t : Text) : (c.extend t).rest = c.rest ++ t := rfl

theorem advance_extend (h : n ≤ c.rest.length) (t : Text) : (c.extend t).advance n = (c.advance n).extend t := by
  rw [advance, rest_extend, List.take_append_of_le_length h, List.drop_append_of_le_length h]
  rfl

theorem skipGap_extend (h : c.skipGap.rest ≠ []) (t : Text) : (c.extend t).skipGap = c.skipGap.extend t := by
  have hlt : gapLength false c.rest < c.rest.length := by
    rw [skipGap, rest_advance, ← List.length_pos_iff, List.length_drop] at h
    omega
  rw [skipGap, rest_extend, gapLength_append hlt, advance_extend (Nat.le_of_lt hlt)]
  rfl

/-- No lexeme that ends at the cursor goes on in the text. -/
def Parted (c : Cursor) (t : Text) : Prop := c.rest ≠ [] ∨ Breaks t

theorem Parted.of_le {c' : Cursor} (h : c'.Parted t) (hle : c'.rest.length ≤ c.rest.length) : c.Parted t := by
  refine h.imp_left fun hne => ?_
  have := List.length_pos_iff.2 hne
  exact List.length_pos_iff.1 (by omega)

theorem Parted.lt_or (h : (c.advance n).Parted t) : n < c.rest.length ∨ Breaks t := by
  refine h.imp_left fun hne => ?_
  have := List.length_pos_iff.2 hne
  rw [rest_advance, List.length_drop] at this
  omega

end Cursor

/-! ## Forms in a longer text -/

section Forms

variable {c c₀ c₁ c' : Cursor} {t : Text} {fs : List Form}

theorem scalar_length_le {s : Text} {x : Scalar} {n : Nat} (h : Lexeme.scalar s = .found x n) : n ≤ s.length := by
  obtain ⟨a, d, v, rfl, rfl, -⟩ := scalar_last h
  simp

theorem scalar_extend {x : Scalar} {n : Nat} (h : Lexeme.scalar c.skipGap.rest = .found x n)
    (ht : (c.skipGap.advance n).Parted t) :
    (c.extend t).skipGap = c.skipGap.extend t ∧ Lexeme.scalar (c.skipGap.extend t).rest = .found x n ∧
      (c.skipGap.extend t).advance n = (c.skipGap.advance n).extend t :=
  ⟨Cursor.skipGap_extend (ne_nil_of_not_absent (by rw [h]; exact Match.noConfusion)) t,
    scalar_append_found h ht.lt_or, Cursor.advance_extend (scalar_length_le h) t⟩

theorem opening_extend {o : Opening} (h : Opening.ofText? c.skipGap.rest = some o)
    (ht : (c.skipGap.advance o.text.length).Parted t) :
    (c.extend t).skipGap = c.skipGap.extend t ∧ Opening.ofText? (c.skipGap.extend t).rest = some o ∧
      (c.skipGap.extend t).advance o.text.length = (c.skipGap.advance o.text.length).extend t := by
  refine ⟨Cursor.skipGap_extend (ne_nil_of_opening h) t, ofText?_append h ht.lt_or, Cursor.advance_extend ?_ t⟩
  rw [rest_opening h, List.length_append]
  exact Nat.le_add_right _ _

theorem closer_extend {s : Shape} (h : c.skipGap.rest.head? = some s.closer) (t : Text) :
    (c.extend t).skipGap = c.skipGap.extend t ∧ (c.skipGap.extend t).rest.head? = some s.closer ∧
      (c.skipGap.extend t).advance 1 = (c.skipGap.advance 1).extend t := by
  have hr := rest_closer h
  refine ⟨Cursor.skipGap_extend (by rw [hr]; exact List.cons_ne_nil _ _) t, ?_, Cursor.advance_extend ?_ t⟩
  · rw [Cursor.rest_extend, hr]
    rfl
  · rw [hr]
    exact Nat.succ_le_succ (Nat.zero_le _)

theorem Reads.parted (h : Reads c fs c') (ht : c'.Parted t) : c.Parted t :=
  ht.of_le (Nat.le_trans (Nat.le_add_left _ _) h.length_le)

theorem parted_of_skipGap (h : c.skipGap.rest ≠ []) (t : Text) : c.Parted t :=
  .inl (List.ne_nil_of_length_pos (Nat.lt_of_lt_of_le (List.length_pos_iff.2 h) c.length_rest_skipGap_le))

theorem parted_of_closer {s : Shape} (h : c.skipGap.rest.head? = some s.closer) (t : Text) : c.Parted t :=
  .inl (List.ne_nil_of_length_pos (Nat.zero_lt_of_lt (length_closer h)))

/-- A compound form ends at its bracket, whatever comes after it. -/
theorem reads_bracket_extend {s : Shape} {gs : List Form} (ho : Opening.ofText? c.skipGap.rest = some (.bracket s))
    (hg : Reads (c.skipGap.advance 1) gs c₁) (hg' : Reads ((c.skipGap.advance 1).extend t) gs (c₁.extend t))
    (hc : c₁.skipGap.rest.head? = some s.closer) (hr : Reads ((c₁.skipGap.advance 1).extend t) fs c') :
    Reads (c.extend t) (.compound s gs (some (.between c.skipGap.pos (c₁.skipGap.advance 1).pos)) :: fs) c' := by
  obtain ⟨hgap, ho', hadv⟩ := opening_extend ho (hg.parted (parted_of_closer hc t))
  obtain ⟨hgap', hc', hadv'⟩ := closer_extend hc t
  rw [← hgap] at ho' hadv
  rw [← hgap'] at hc' hadv'
  have hx := Reads.bracket ho' (hadv ▸ hg') hc' (by rw [hadv']; exact hr)
  rwa [hadv', hgap] at hx

/-- **The forms that stand in a text stand in the longer one.** -/
theorem Reads.extend (h : Reads c fs c') (ht : c'.Parted t) : Reads (c.extend t) fs (c'.extend t) := by
  induction h with
  | nil c => exact .nil _
  | scalar hs hr ih =>
    obtain ⟨hgap, hs', hadv⟩ := scalar_extend hs (hr.parted ht)
    rw [← hgap] at hs' hadv
    have hx := Reads.scalar hs' (by rw [hadv]; exact ih ht)
    rwa [hadv, hgap] at hx
  | bracket ho hg hc hr ihg ih => exact reads_bracket_extend ho hg (ihg (parted_of_closer hc t)) hc (ih ht)
  | mark ho hg hl hr ihg ih =>
    have ht₁ := hr.parted ht
    obtain ⟨hgap, ho', hadv⟩ := opening_extend ho (hg.parted ht₁)
    rw [← hgap] at ho' hadv
    have hx := Reads.mark ho' (hadv ▸ ihg ht₁) hl (ih ht)
    rwa [hgap] at hx

theorem Open.length_le {stack : List Frame} (h : Open c₀ stack c) : c.rest.length ≤ c₀.rest.length := by
  induction h with
  | nil => exact Nat.le_refl _
  | cons _ ho hr _ ih =>
    have hlt := length_opening ho
    have hle := hr.length_le
    omega

/-- **The stack that is open at the end of a text is open there in the longer one.** -/
theorem Open.extend {stack : List Frame} (h : Open c₀ stack c) (ht : c.Parted t) :
    Open (c₀.extend t) stack (c.extend t) := by
  induction h with
  | nil => exact .nil
  | cons hb ho hr hf ih =>
    have ht₁ := hr.parted ht
    obtain ⟨hgap, ho', hadv⟩ := opening_extend ho ht₁
    rw [← hgap] at ho' hadv
    have hx := Open.cons (ih (ht₁.of_le (Nat.le_of_lt (length_opening ho)))) ho' (hadv ▸ hr.extend ht)
      (by rwa [hgap])
    rwa [hgap] at hx

end Forms

/-! ## Where the cursors stand -/

section Places

/-- The cursor stands in the source: its text is what is left of the source at its place. -/
def Cursor.Stands (source : Text) (c : Cursor) : Prop :=
  ∃ before, source = before ++ c.rest ∧ c.pos = ({} : Position).after before

variable {source : Text} {c c₀ c' : Cursor} {fs : List Form}

theorem stands_start (source : Text) : (Cursor.start source).Stands source := ⟨[], rfl, rfl⟩

theorem Cursor.Stands.advance (h : c.Stands source) (n : Nat) : (c.advance n).Stands source := by
  obtain ⟨before, hs, hp⟩ := h
  refine ⟨before ++ c.rest.take n, ?_, ?_⟩
  · rw [Cursor.rest_advance, List.append_assoc, List.take_append_drop, hs]
  · rw [Position.after_append, ← hp]
    rfl

theorem Reads.stands (h : Reads c fs c') (hc : c.Stands source) : c'.Stands source := by
  induction h with
  | nil => exact hc
  | scalar _ _ ih => exact ih ((hc.advance _).advance _)
  | bracket _ _ _ _ ihg ih => exact ih (((ihg ((hc.advance _).advance _)).advance _).advance _)
  | mark _ _ _ _ ihg ih => exact ih (ihg ((hc.advance _).advance _))

theorem Open.stands {stack : List Frame} (h : Open c₀ stack c) (hc : c₀.Stands source) : c.Stands source := by
  induction h with
  | nil => exact hc
  | cons _ _ hr _ ih => exact hr.stands ((ih.advance _).advance _)

theorem offset_of_stands (h : c.Stands source) : c.pos.offset + c.rest.length = source.length := by
  obtain ⟨before, rfl, hp⟩ := h
  rw [hp, Position.offset_after, List.length_append]
  exact congrArg (· + _) (Nat.zero_add _)

/-- An error at a cursor finds the code point there. -/
theorem found_atPosition (h : c.Stands source) (ex : List Expectation) (filename : Text) :
    (ParseError.atPosition source c.pos ex filename).found = c.rest.head? := by
  obtain ⟨before, rfl, hp⟩ := h
  have ho : c.pos.offset = before.length := by
    rw [hp, Position.offset_after]
    exact Nat.zero_add _
  show (before ++ c.rest)[c.pos.offset]? = _
  rw [ho, List.getElem?_append_right (Nat.le_refl _), Nat.sub_self, List.head?_eq_getElem?]

/-- An error is reported as incomplete if and only if nothing is left of the text at its place. -/
theorem incomplete_atPosition (h : c.Stands source) (ex : List Expectation) (filename : Text) :
    (ParseError.atPosition source c.pos ex filename).incomplete = true ↔ c.rest = [] := by
  rw [ParseError.incomplete, found_atPosition h, Option.isNone_iff_eq_none, List.head?_eq_none_iff]

/-- A text that ends in an open frame is incomplete. -/
theorem read_of_cutOff {f : Frame} {below : List Frame} (hr : Reads (.start source) fs c₀)
    (ho : Open c₀ (f :: below) c) (hc : c.skipGap.rest = []) (filename : Text) :
    ∃ e, read source filename = .error (.parse e) ∧ e.incomplete = true := by
  have hstands : c.skipGap.Stands source := (ho.stands (hr.stands (stands_start source))).advance _
  refine ⟨_, read_eq_error_iff.2 ⟨fs, _, .breaks hr ho (step_cutOff hc), rfl⟩, ?_⟩
  exact (incomplete_atPosition hstands _ _).2 hc

end Places

end MalForms
