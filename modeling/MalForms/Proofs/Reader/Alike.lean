import MalForms.Proofs.Form.Erasure
import MalForms.Proofs.Reader.Reads
import Mathlib.Data.List.Forall2

/-!
# Reading does not depend on places

The reader never looks at the places that it puts into the forms. So two readings of the same text, from stacks that
hold the same forms, go through the same steps and end with the same forms, places aside, wherever the texts stand.

* `step_alike`: one step. The two readings make the same move at the cursors after their gaps (`moves`), and a form that
  is handed to frames that are the same goes the same way through them (`settle_alike`).
* `next_alike`, `trace_alike`: the whole reading, by induction on the steps and on the forms.
-/

namespace MalForms

open Lexeme

/-! ## Frames and steps that agree -/

/-- The frames have the same opening and hold the same forms. -/
structure SameFrame (f f' : Frame) : Prop where
  opening : f.opening = f'.opening
  items : f.items.map Form.erase = f'.items.map Form.erase

/-- The stacks have the same frames. -/
abbrev SameFrames : List Frame → List Frame → Prop := List.Forall₂ SameFrame

/-- The steps differ in places only. What went wrong in steps that fail is left open. -/
inductive Alike : Step → Step → Prop
  | more {stack stack' : List Frame} {c c' : Cursor} : SameFrames stack stack' → c.rest = c'.rest →
      Alike (.more stack c) (.more stack' c')
  | form {g g' : Form} {c c' : Cursor} : g.erase = g'.erase → c.rest = c'.rest →
      Alike (.done (.form g c)) (.done (.form g' c'))
  | finished {c c' : Cursor} : Alike (.done (.finished c)) (.done (.finished c'))
  | failed {e e' : Failure} {c c' : Cursor} : Alike (.done (.failed e c)) (.done (.failed e' c'))

theorem SameFrame.refl (f : Frame) : SameFrame f f := ⟨rfl, rfl⟩

theorem SameFrames.refl (stack : List Frame) : SameFrames stack stack :=
  List.forall₂_same.2 fun f _ => SameFrame.refl f

section Frames

variable {f f' : Frame} {g g' : Form} {stack stack' : List Frame} {c c' : Cursor}

theorem SameFrame.put (h : SameFrame f f') (hg : g.erase = g'.erase) : SameFrame (f.put g) (f'.put g') := by
  refine ⟨h.opening, ?_⟩
  simp only [Frame.put, List.map_cons, hg, h.items]

theorem SameFrame.isFull (h : SameFrame f f') : f.isFull = f'.isFull := by
  have hlen : f.items.length = f'.items.length := by simpa using congrArg List.length h.items
  simp only [Frame.isFull, h.opening, hlen]

theorem SameFrame.close (h : SameFrame f f') (p p' : Position) : (f.close p).erase = (f'.close p').erase := by
  unfold Frame.close
  rw [h.opening]
  cases f'.opening with
  | bracket s => simp only [Form.erase, Form.eraseAll_eq_map, List.map_reverse, h.items]
  | mark m => simp only [Form.erase, Form.eraseAll_eq_map, List.map_cons, h.items]

/-- A form that is handed to the same frames goes into them or comes out of them alike. -/
theorem settle_alike (hs : SameFrames stack stack') (hg : g.erase = g'.erase) (hc : c.rest = c'.rest) :
    Alike (.settle stack g c) (.settle stack' g' c') := by
  unfold Step.settle
  induction hs generalizing g g' with
  | nil => exact .form hg hc
  | @cons f f' below below' hf hb ih =>
    have hput := hf.put hg
    rw [deliver_cons, deliver_cons, ← hput.isFull]
    split_ifs with hfull
    · exact ih (hput.close _ _)
    · exact .more (.cons hput hb) hc

theorem SameFrames.closing (hs : SameFrames stack stack') (hc : c.rest = c'.rest) (h : Closing stack' c') :
    Closing stack c := by
  obtain ⟨f', below', s, rfl, hf, hhead⟩ := h
  cases hs with
  | @cons f _ below _ hsame _ => exact ⟨f, below, s, rfl, hsame.opening.trans hf, by rw [hc]; exact hhead⟩

end Frames

/-! ## Steps and readings -/

section Readings

variable {stack stack' : List Frame} {c c' : Cursor}

theorem erase_toForm_congr (x : Scalar) (s s' : Span) : (x.toForm s).erase = (x.toForm s').erase := by
  cases x <;> rfl

/-- **One step of the two readings.** -/
theorem step_alike (hs : SameFrames stack stack') (hc : c.skipGap.rest = c'.skipGap.rest) :
    Alike (step stack c) (step stack' c') := by
  have hrest (n : Nat) : (c.skipGap.advance n).rest = (c'.skipGap.advance n).rest := by
    rw [Cursor.rest_advance, Cursor.rest_advance, hc]
  have hm := moves stack c
  generalize step stack c = r at hm ⊢
  cases hm with
  | finish hst hnil =>
    subst hst
    cases hs
    rw [step_finish (hc ▸ hnil)]
    exact .finished
  | cutOff hst hnil =>
    subst hst
    cases hs
    rw [step_cutOff (hc ▸ hnil)]
    exact .failed
  | @close f below s hst hf hh =>
    subst hst
    cases hs with
    | @cons _ f' _ below' hsame hb =>
      rw [step_closer (hsame.opening ▸ hf) (hc ▸ hh)]
      exact settle_alike hb (hsame.close _ _) (hrest 1)
  | opens ho =>
    rw [step_opening (hc ▸ ho)]
    exact .more (.cons ⟨rfl, rfl⟩ hs) (hrest _)
  | @scalar x n hx =>
    rw [step_scalar (hc ▸ hx)]
    exact settle_alike hs (erase_toForm_congr x _ _) (hrest n)
  | absent hne hcl ho hx =>
    rw [step_absent (hc ▸ hne) (fun h => hcl (hs.closing hc h)) (hc ▸ ho) (hc ▸ hx)]
    exact .failed
  | broken hx =>
    rw [step_broken (hc ▸ hx)]
    exact .failed
  | overlong hx =>
    rw [step_overlong (hc ▸ hx)]
    exact .failed

/-- **Looking for the next form**, the two readings end alike. -/
theorem next_alike (hs : SameFrames stack stack') (hc : c.skipGap.rest = c'.skipGap.rest) :
    Alike (.done (next stack c)) (.done (next stack' c')) := by
  fun_induction next stack c generalizing stack' c' with
  | case1 stack c stack₁ c₁ hstep ih =>
    have h := step_alike hs hc
    rw [hstep] at h
    generalize hstep' : step stack' c' = r at h
    cases h with
    | more hs₁ hc₁ =>
      rw [next_more hstep']
      exact ih hs₁ (by rw [rest_skipGap, rest_skipGap, hc₁])
  | case2 stack c o hstep =>
    have h := step_alike hs hc
    rw [hstep] at h
    generalize hstep' : step stack' c' = r at h
    cases r with
    | more => cases h
    | done o' => rwa [next_done hstep']

/-- The traces have the same forms and both end well, or neither does. -/
def SameTrace (t t' : Trace) : Prop :=
  (t.forms.map Prod.fst).map Form.erase = (t'.forms.map Prod.fst).map Form.erase ∧
    t.failure.isNone = t'.failure.isNone

theorem trace_of_alike (h : Alike (.done (next [] c)) (.done (next [] c')))
    (ih : ∀ g d g' d', next [] c = .form g d → next [] c' = .form g' d' → d.rest = d'.rest →
      SameTrace (trace d) (trace d')) : SameTrace (trace c) (trace c') := by
  generalize hn : next [] c = o at h
  generalize hn' : next [] c' = o' at h
  cases h with
  | @form g g' d d' hg hd =>
    obtain ⟨hforms, hfail⟩ := ih g d g' d' hn hn' hd
    rw [trace_form hn, trace_form hn']
    refine ⟨?_, hfail⟩
    simp only [List.map_cons, hg, hforms]
  | finished =>
    rw [trace_finished hn, trace_finished hn']
    exact ⟨rfl, rfl⟩
  | failed =>
    rw [trace_failed hn, trace_failed hn']
    exact ⟨rfl, rfl⟩

/-- **The same text is read as the same forms wherever it stands.** -/
theorem trace_alike {c c' : Cursor} (hc : c.skipGap.rest = c'.skipGap.rest) : SameTrace (trace c) (trace c') := by
  refine trace_of_alike (next_alike .nil hc) fun g d g' d' hn _ hd => ?_
  have hlt := rest_lt_of_next hn
  exact trace_alike (by rw [rest_skipGap, rest_skipGap, hd])
termination_by c.rest.length

end Readings

end MalForms
