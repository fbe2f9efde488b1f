import MalForms.Proofs.Reader.Alike
import MalForms.Proofs.Reader.Restriction

/-!
# Layout does not matter

* `read_spaced`: separators and comments between the lexemes of a readable text do not change what it is read as.

The places where text may come in are those where the reader begins a step: the front of the text and the end of every
bracket, mark and scalar (`Visits`). What the reader knows there, the forms and the open frames before the place, stays
if the text behind it is taken away (`Reads.restrict`, `Open.restrict`) and if something else is put there that breaks
the last lexeme off (`Reads.extend`, `Open.extend`), as a separator and a comment do (`Spacing.breaks`). The text behind
the place comes next after the gap, as before, so the reading goes on in the same way (`trace_alike`).
-/

namespace MalForms

open Lexeme
open Grammar (afterGap)

/-! ## Separators and comments -/

namespace Lexeme

/-- The text is made of separators and of comments that end with their line. -/
inductive Spacing : Text → Prop
  | nil : Spacing []
  | separator {c : CodePoint} {w : Text} : isSeparator c = true → Spacing w → Spacing (c :: w)
  | comment {b w : Text} {e : CodePoint} : (∀ c ∈ b, isLineEnd c = false) → isLineEnd e = true → Spacing w →
      Spacing (commentMark :: (b ++ e :: w))

variable {w : Text}

/-- It belongs to the gap in front of any text. -/
theorem Spacing.afterGap (h : Spacing w) (t : Text) : afterGap (w ++ t) = afterGap t := by
  induction h with
  | nil => rfl
  | separator hc _ ih => rw [List.cons_append, afterGap_separator hc, ih]
  | comment hb he _ ih => rw [List.cons_append, List.append_assoc, List.cons_append, afterGap_comment hb he, ih]

/-- No lexeme goes on in it. -/
theorem Spacing.breaks (h : Spacing w) (hne : w ≠ []) (t : Text) : Breaks (w ++ t) := by
  cases h with
  | nil => exact absurd rfl hne
  | separator hc _ => exact breaks_separator hc _
  | comment => exact breaks_cons (by decide) (by decide)

end Lexeme

/-! ## Where the reader begins a step -/

section Visits

variable {source : Text} {stack : List Frame} {c : Cursor}

/-- The states in which the reader begins a step while it goes over the source: the frames that are open, and the cursor
in front of the gap. A form that comes out of all frames is followed by the next one. -/
inductive Visits (source : Text) : List Frame → Cursor → Prop
  | start : Visits source [] (.start source)
  | more {stack stack' : List Frame} {c c' : Cursor} : Visits source stack c → step stack c = .more stack' c' →
      Visits source stack' c'
  | form {stack : List Frame} {c c' : Cursor} {g : Form} : Visits source stack c →
      step stack c = .done (.form g c') → Visits source [] c'

/-- The reader begins a step at this offset. -/
def PausesAt (source : Text) (p : Nat) : Prop := ∃ stack c, Visits source stack c ∧ c.pos.offset = p

/-- What is known in such a state: some forms have been read, and the stack is open behind them. -/
theorem reads_of_visits (h : Visits source stack c) :
    ∃ fs c₀, Reads (.start source) fs c₀ ∧ Open c₀ stack c := by
  induction h with
  | start => exact ⟨[], _, .nil _, .nil⟩
  | more _ hstep ih =>
    obtain ⟨fs, c₀, hr, ho⟩ := ih
    have hleaves := open_step ho
    rw [hstep] at hleaves
    exact ⟨fs, c₀, hr, hleaves⟩
  | form _ hstep ih =>
    obtain ⟨fs, c₀, hr, ho⟩ := ih
    have hleaves := open_step ho
    rw [hstep] at hleaves
    cases hleaves with
    | form hg => exact ⟨_, _, hr.append hg, .nil⟩

/-- Such a state is also one of every text that goes on differently, if the last lexeme is broken off. -/
theorem open_elsewhere {fs : List Form} {before : Text} {c₀ : Cursor} {t : Text}
    (hr : Reads (.start (before ++ c.rest)) fs c₀) (ho : Open c₀ stack c) (ht : Breaks t) :
    ∃ d₀, Reads (.start (before ++ t)) fs d₀ ∧ Open d₀ stack ⟨c.pos, t⟩ := by
  obtain ⟨d₀, hr', ho'⟩ := open_front (u := []) hr ho
  rw [List.append_nil] at hr'
  exact ⟨d₀.extend t, hr'.extend (.inr ht), ho'.extend (.inr ht)⟩

end Visits

/-! ## The reading with more layout -/

section Spaced

variable {source source' filename : Text} {fs : List Form} {stack : List Frame} {c c' c₀ c₀' : Cursor}

/-- Two readings that come to the same frames after the same forms, with the same text before them, end alike. -/
theorem sameTrace_of_open (hr : Reads (.start source) fs c₀) (ho : Open c₀ stack c)
    (hr' : Reads (.start source') fs c₀') (ho' : Open c₀' stack c') (hc : c.skipGap.rest = c'.skipGap.rest) :
    SameTrace (trace (.start source)) (trace (.start source')) := by
  obtain ⟨hforms, hfail, -⟩ := trace_reads hr
  obtain ⟨hforms', hfail', -⟩ := trace_reads hr'
  have hnext := next_alike (SameFrames.refl stack) hc
  rw [← next_of_open ho, ← next_of_open ho'] at hnext
  have hrest : SameTrace (trace c₀) (trace c₀') := by
    refine trace_of_alike hnext fun g d g' d' _ _ hd => trace_alike ?_
    rw [rest_skipGap, rest_skipGap, hd]
  refine ⟨?_, by rw [hfail, hfail', hrest.2]⟩
  rw [hforms, hforms', List.map_append, List.map_append, hrest.1]

theorem read_of_sameTrace (h : SameTrace (trace (.start source)) (trace (.start source')))
    (hread : read source filename = .ok fs) :
    ∃ gs, read source' filename = .ok gs ∧ Form.sameAll gs fs = true := by
  obtain ⟨hforms, hfail⟩ := h
  unfold read Trace.result at hread ⊢
  cases he : (trace (.start source)).failure with
  | some e =>
    rw [he] at hread
    cases hread
  | none =>
    have he' : (trace (.start source')).failure = none := by
      rw [he] at hfail
      exact Option.isNone_iff_eq_none.1 hfail.symm
    rw [he] at hread
    cases hread
    refine ⟨_, by rw [he'], ?_⟩
    rw [Form.sameAll_iff, Form.eraseAll_eq_map, Form.eraseAll_eq_map, hforms]

/-- **Layout does not matter.** Separators and comments that come in where the reader begins a step leave a readable
text readable, as the same forms. -/
theorem read_spaced (source filename w : Text) (fs : List Form) (p : Nat) (h : read source filename = .ok fs)
    (hp : PausesAt source p) (hw : Spacing w) :
    ∃ gs, read (source.take p ++ w ++ source.drop p) filename = .ok gs ∧ Form.sameAll gs fs = true := by
  obtain ⟨stack, c, hv, rfl⟩ := hp
  obtain ⟨gs, c₀, hr, ho⟩ := reads_of_visits hv
  obtain ⟨before, hs, hpos⟩ := ho.stands (hr.stands (stands_start source))
  have hoff : c.pos.offset = before.length := by simp [hpos, Position.offset_after]
  subst hs
  rw [hoff, List.take_left, List.drop_left, List.append_assoc]
  by_cases hne : w = []
  · subst hne
    exact ⟨fs, h, (Form.sameAll_iff fs fs).2 rfl⟩
  obtain ⟨d₀, hr', ho'⟩ := open_elsewhere hr ho (hw.breaks hne c.rest)
  refine read_of_sameTrace (sameTrace_of_open hr ho hr' ho' ?_) h
  rw [rest_skipGap, rest_skipGap, hw.afterGap]

/-- A comment between a number and the symbol that follows it directly, after a mark in a list. -/
theorem read_spaced_number :
    PausesAt "(~12b)" 4 ∧ Spacing ";@\r" ∧
      ∃ fs gs, read "(~12b)" = .ok fs ∧ read "(~12;@\rb)" = .ok gs ∧ Form.sameAll gs fs = true := by
  have hread : ∃ fs, read "(~12b)" = .ok fs := by
    refine ⟨_, read_eq_ok_iff.2 ⟨_, .bracket (s := .list) (by decide) (.mark (m := .unquote) (by decide)
      (.scalar (x := .int 12) (n := 2) (by decide) (.nil _)) rfl (.scalar (x := .symbol "b") (n := 1) (by decide)
      (.nil _))) (by decide) (.nil _), by decide⟩⟩
  have hpause : PausesAt "(~12b)" 4 := by
    have hlist := Visits.start.more (step_opening (c := .start "(~12b)") (o := .bracket .list) (by decide))
    have hmark := hlist.more (step_opening (o := .mark .unquote) (by decide))
    exact ⟨_, _, hmark.more (step_scalar (x := .int 12) (n := 2) (by decide)), by decide⟩
  have hspacing : Spacing ";@\r" := .comment (b := ['@']) (e := '\r') (by decide) (by decide) .nil
  obtain ⟨fs, hfs⟩ := hread
  obtain ⟨gs, hgs, hsame⟩ := read_spaced "(~12b)" "<input>" ";@\r" fs 4 hfs hpause hspacing
  exact ⟨hpause, hspacing, fs, gs, hfs, hgs, hsame⟩

end Spaced

end MalForms
