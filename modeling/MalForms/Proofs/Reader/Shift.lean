import MalForms.Proofs.Form.Erasure
import MalForms.Proofs.Reader.Extension

/-!
# Reading a text at another place

What the reader makes of a text does not depend on the place where the text stands, except for the places in it. If
the text at `a` is taken to `b`, every place `p` in it comes to `p.shift a b`: lines move by the same number, and so do
columns, but only on the line where the text starts.

* `Reads.shift`, `Open.shift`: the forms and the open frames of the text, all places in them shifted.
* `failed_shift`: a step that fails there fails here, at the shifted place.
* `Run.shift`: the whole reading of the text is shifted.
-/

namespace MalForms

open Lexeme

/-! ## Places -/

namespace Position

/-- `q` comes at or after `p` in some text: it is not before it, on no earlier line, and in no earlier column if the
line is the same. -/
structure Reaches (p q : Position) : Prop where
  offset : p.offset ≤ q.offset
  line : p.line ≤ q.line
  col : q.line = p.line → p.col ≤ q.col

/-- Where the place `p` comes to when the text at `a` is taken to `b`. -/
def shift (p a b : Position) : Position :=
  ⟨p.offset - a.offset + b.offset, p.line - a.line + b.line,
    if p.line = a.line then p.col - a.col + b.col else p.col⟩

variable {a b p q : Position}

theorem Reaches.refl (p : Position) : p.Reaches p := ⟨Nat.le_refl _, Nat.le_refl _, fun _ => Nat.le_refl _⟩

theorem Reaches.next (h : a.Reaches p) (c : CodePoint) : a.Reaches (p.next c) := by
  obtain ⟨ho, hl, hc⟩ := h
  unfold Position.next
  split
  · exact ⟨Nat.le_succ_of_le ho, Nat.le_succ_of_le hl, fun he => by simp only at he; omega⟩
  · exact ⟨Nat.le_succ_of_le ho, hl, fun he => Nat.le_succ_of_le (hc he)⟩

theorem Reaches.after (h : a.Reaches p) (t : Text) : a.Reaches (p.after t) := by
  induction t generalizing p with
  | nil => exact h
  | cons c t ih => exact ih (h.next c)

theorem shift_next (h : a.Reaches p) (c : CodePoint) : (p.next c).shift a b = (p.shift a b).next c := by
  obtain ⟨ho, hl, hc⟩ := h
  unfold Position.next
  split
  · simp only [shift, mk.injEq]
    refine ⟨by omega, by omega, ?_⟩
    rw [if_neg (by omega)]
  · simp only [shift, mk.injEq, true_and]
    refine ⟨by omega, ?_⟩
    split
    · have := hc ‹_›
      omega
    · rfl

/-- A place that a text leads to comes to where the text leads from the shifted place. -/
theorem shift_after (h : a.Reaches p) (t : Text) : (p.after t).shift a b = (p.shift a b).after t := by
  induction t generalizing p with
  | nil => rfl
  | cons c t ih =>
    show ((p.next c).after t).shift a b = ((p.shift a b).next c).after t
    rw [ih (h.next c), shift_next h]

@[simp] theorem shift_self (a b : Position) : a.shift a b = b := by simp [shift]

end Position

/-! ## Forms -/

/-- The span of a text at `a` that is taken to `b`. -/
def Span.shift (a b : Position) (s : Span) : Span where
  line := s.line - a.line + b.line
  col := if s.line = a.line then s.col - a.col + b.col else s.col
  endLine := s.endLine - a.line + b.line
  endCol := if s.endLine = a.line then s.endCol - a.col + b.col else s.endCol

theorem Span.between_shift {a b p q : Position} (hp : a.Reaches p) (hq : a.Reaches q) :
    Span.between (p.shift a b) (q.shift a b) = (Span.between p q).shift a b := by
  have hcol {r : Position} (hr : a.Reaches r) :
      ((if r.line = a.line then r.col - a.col + b.col else r.col : Nat) : Int) =
        if (r.line : Int) = a.line then (r.col : Int) - a.col + b.col else r.col := by
    by_cases he : r.line = a.line
    · have := hr.col he
      rw [if_pos he, if_pos (congrArg _ he)]
      omega
    · rw [if_neg he, if_neg (by omega)]
  have hpl := hp.line
  have hql := hq.line
  simp only [Span.between, Position.shift, Span.shift, Span.mk.injEq, hcol hp, hcol hq]
  omega

namespace Form

mutual

/-- The form with every span in it, at every depth, replaced. -/
def mapSpan (φ : Span → Span) : Form → Form
  | symbol name span => symbol name (φ span)
  | keyword name span => keyword name (φ span)
  | compound s xs span => compound s (mapSpanAll φ xs) (span.map φ)
  | f => f

def mapSpanAll (φ : Span → Span) : List Form → List Form
  | [] => []
  | x :: xs => mapSpan φ x :: mapSpanAll φ xs

end

variable (φ : Span → Span)

theorem mapSpanAll_eq_map (fs : List Form) : mapSpanAll φ fs = fs.map (mapSpan φ) := by
  induction fs with
  | nil => rfl
  | cons f fs ih => rw [mapSpanAll, ih, List.map_cons]

/-- Only the places in the form are replaced. -/
theorem erase_mapSpan (f : Form) : (f.mapSpan φ).erase = f.erase := by
  induction f using items_induction with
  | compound s xs span ih =>
    rw [mapSpan, erase, erase, eraseAll_eq_map, eraseAll_eq_map, mapSpanAll_eq_map, List.map_map]
    congr 1
    exact List.map_congr_left fun g hg => ih g hg
  | _ => rfl

end Form

/-! ## Cursors and frames -/

variable {a b : Position}

/-- The cursor in the text taken from `a` to `b`. -/
def Cursor.shift (a b : Position) (c : Cursor) : Cursor := ⟨c.pos.shift a b, c.rest⟩

/-- The frame with its places shifted. -/
def Frame.shift (a b : Position) (f : Frame) : Frame :=
  ⟨f.opening, f.start.shift a b, f.items.map (Form.mapSpan (Span.shift a b))⟩

/-- The failure at the shifted place. -/
def Failure.shift (a b : Position) : Failure → Failure
  | mismatch place expected => mismatch (place.shift a b) expected
  | e => e

section Shift

variable {c c₀ c' : Cursor} {fs : List Form} {stack : List Frame}

theorem advance_shift (h : a.Reaches c.pos) (n : Nat) : (c.advance n).shift a b = (c.shift a b).advance n := by
  rw [Cursor.shift, Cursor.advance, Position.shift_after h]
  rfl

theorem skipGap_shift (h : a.Reaches c.pos) : c.skipGap.shift a b = (c.shift a b).skipGap := advance_shift h _

theorem reaches_advance (h : a.Reaches c.pos) (n : Nat) : a.Reaches (c.advance n).pos := h.after _

theorem reaches_skipGap (h : a.Reaches c.pos) : a.Reaches c.skipGap.pos := h.after _

theorem Reads.reaches (h : Reads c fs c') (ha : a.Reaches c.pos) : a.Reaches c'.pos := by
  induction h with
  | nil => exact ha
  | scalar _ _ ih => exact ih (reaches_advance (reaches_skipGap ha) _)
  | bracket _ _ _ _ ihg ih =>
    have h₁ := ihg (reaches_advance (reaches_skipGap ha) _)
    exact ih (reaches_advance (reaches_skipGap h₁) _)
  | mark _ _ _ _ ihg ih => exact ih (ihg (reaches_advance (reaches_skipGap ha) _))

theorem Open.reaches (h : Open c₀ stack c) (ha : a.Reaches c₀.pos) : a.Reaches c.pos := by
  induction h with
  | nil => exact ha
  | cons _ _ hr _ ih => exact hr.reaches (reaches_advance (reaches_skipGap ih) _)

theorem toForm_shift (x : Scalar) {p q : Position} (hp : a.Reaches p) (hq : a.Reaches q) :
    (x.toForm (.between p q)).mapSpan (Span.shift a b) = x.toForm (.between (p.shift a b) (q.shift a b)) := by
  rw [Span.between_shift hp hq]
  cases x <;> rfl

theorem markForm_shift (m : Mark) {p q : Position} (hp : a.Reaches p) (hq : a.Reaches q) (gs : List Form) :
    (markForm m p q gs).mapSpan (Span.shift a b) =
      markForm m (p.shift a b) (q.shift a b) (gs.map (Form.mapSpan (Span.shift a b))) := by
  rw [markForm, markForm, ← Position.shift_after hp, Span.between_shift hp (hp.after _), Span.between_shift hp hq]
  simp [Form.mapSpan, Form.mapSpanAll, Form.mapSpanAll_eq_map, List.map_reverse]

/-- **The forms of a text stand in it wherever it is**, with their places shifted. -/
theorem Reads.shift (h : Reads c fs c') (ha : a.Reaches c.pos) :
    Reads (c.shift a b) (fs.map (Form.mapSpan (Span.shift a b))) (c'.shift a b) := by
  induction h with
  | nil c => exact .nil _
  | @scalar c c' x n fs hs hr ih =>
    have hg := reaches_skipGap ha
    have hn : a.Reaches (c.skipGap.advance n).pos := reaches_advance hg n
    have ih' := ih hn
    rw [advance_shift hg, skipGap_shift ha] at ih'
    rw [List.map_cons, toForm_shift x hg hn]
    have hx := Reads.scalar (c := c.shift a b) (by rw [← skipGap_shift ha]; exact hs) ih'
    rwa [← skipGap_shift ha, ← advance_shift hg] at hx
  | @bracket c c₁ c' s gs fs ho hr hc hr' ihg ih =>
    have hg := reaches_skipGap ha
    have hi := reaches_advance hg 1
    have h₁ := hr.reaches hi
    have hg₁ := reaches_skipGap h₁
    have hs := reaches_advance hg₁ 1
    have ihg' := ihg hi
    have ih' := ih hs
    rw [advance_shift hg, skipGap_shift ha] at ihg'
    rw [advance_shift hg₁, skipGap_shift h₁] at ih'
    have hx := Reads.bracket (c := c.shift a b) (by rw [← skipGap_shift ha]; exact ho) ihg'
      (by rw [← skipGap_shift h₁]; exact hc) ih'
    rw [← skipGap_shift ha, ← skipGap_shift h₁, ← advance_shift hg₁] at hx
    rw [List.map_cons, Form.mapSpan, Form.mapSpanAll_eq_map, Option.map_some, ← Span.between_shift hg hs]
    exact hx
  | @mark c c₁ c' m gs fs ho hr hl hr' ihg ih =>
    have hg := reaches_skipGap ha
    have hi := reaches_advance hg m.text.length
    have h₁ := hr.reaches hi
    have ihg' := ihg hi
    rw [advance_shift hg, skipGap_shift ha] at ihg'
    have hx := Reads.mark (c := c.shift a b) (by rw [← skipGap_shift ha]; exact ho) ihg' (by rw [List.length_map, hl])
      (ih h₁)
    rw [← skipGap_shift ha] at hx
    rw [List.map_cons, markForm_shift m hg h₁]
    exact hx

theorem isFull_shift (f : Frame) : (f.shift a b).isFull = f.isFull := by
  obtain ⟨o, start, items⟩ := f
  cases o with
  | bracket s => rfl
  | mark m => simp [Frame.shift, Frame.isFull]

/-- **The frames of a text are open in it wherever it is.** -/
theorem Open.shift (h : Open c₀ stack c) (ha : a.Reaches c₀.pos) :
    Open (c₀.shift a b) (stack.map (Frame.shift a b)) (c.shift a b) := by
  induction h with
  | nil => exact .nil
  | @cons below o items c₁ c hb ho hr hf ih =>
    have h₁ := hb.reaches ha
    have hg := reaches_skipGap h₁
    have hi := reaches_advance hg o.text.length
    have hr' := hr.shift (b := b) hi
    rw [advance_shift hg, skipGap_shift h₁, List.map_reverse] at hr'
    have hf' : (Frame.shift a b ⟨o, c₁.skipGap.pos, items⟩).isFull = false := by rw [isFull_shift, hf]
    have hpos : c₁.skipGap.pos.shift a b = (c₁.shift a b).skipGap.pos := congrArg Cursor.pos (skipGap_shift h₁)
    rw [Frame.shift, hpos] at hf'
    rw [List.map_cons, Frame.shift, hpos]
    exact .cons ih (by rw [← skipGap_shift h₁]; exact ho) hr' hf'

theorem expectedIn_shift (stack : List Frame) : expectedIn (stack.map (Frame.shift a b)) = expectedIn stack := by
  cases stack <;> rfl

theorem closing_of_shift (h : Closing (stack.map (Frame.shift a b)) (c.shift a b)) : Closing stack c := by
  obtain ⟨f, below, s, hst, hf, hc⟩ := h
  obtain _ | ⟨f', below'⟩ := stack
  · cases hst
  · obtain ⟨rfl, -⟩ := List.cons.inj hst
    exact ⟨f', below', s, rfl, hf, hc⟩

/-- **A step that fails, fails wherever the text is**, at the shifted place. -/
theorem failed_shift {e : Failure} (ha : a.Reaches c.pos) (h : step stack c = .done (.failed e c')) :
    step (stack.map (Frame.shift a b)) (c.shift a b) = .done (.failed (e.shift a b) (c'.shift a b)) := by
  have hgap := skipGap_shift (b := b) ha
  have hg := reaches_skipGap ha
  cases fails_of_step h with
  | @cutOff f below hst hc =>
    rw [hst, List.map_cons, step_cutOff (by rw [← hgap]; exact hc), ← hgap]
    rfl
  | absent hne hcl ho hs =>
    rw [step_absent (by rw [← hgap]; exact hne) (by rw [← hgap]; exact fun hx => hcl (closing_of_shift hx))
      (by rw [← hgap]; exact ho) (by rw [← hgap]; exact hs), ← hgap, expectedIn_shift]
    rfl
  | @broken n x hs =>
    rw [step_broken (by rw [← hgap]; exact hs), ← hgap, ← advance_shift hg]
    rfl
  | @overlong d n hs =>
    rw [step_overlong (by rw [← hgap]; exact hs), ← hgap, ← advance_shift hg]
    rfl

/-- **The whole reading of a text is the same wherever it is**, places shifted. -/
theorem Run.shift {e : Option Failure} (h : Run c fs e) (ha : a.Reaches c.pos) :
    Run (c.shift a b) (fs.map (Form.mapSpan (Span.shift a b))) (e.map (Failure.shift a b)) := by
  cases h with
  | @ends c' hr hc => exact .ends (hr.shift ha) (by rw [← skipGap_shift (hr.reaches ha)]; exact hc)
  | breaks hr ho hs =>
    have h₁ := hr.reaches ha
    exact .breaks (hr.shift ha) (ho.shift h₁) (failed_shift (ho.reaches h₁) hs)

end Shift

end MalForms
