import MalForms.Form.Layout
import MalForms.Proofs.Form.Printing

/-!
# Items in a row

The items of a compound form are written in a row, with a space between two of them or with a line end and the
indentation of the next line. How the texts of the items come about does not matter here: a row is over any relation
between texts and forms.

* `row_join`: texts joined by a separator are a row; so are the items on one line (`row_renderItems`).
* `laidOut_cases`: a form is laid out on one line, or as the row of its items between its brackets, each of which is
  laid out with one level less.
-/

namespace MalForms

/-- What stands between two items. -/
inductive Separates : Text → Prop
  | space : Separates [CodePoint.ofChar ' ']
  | lineBreak (indent : Int) : Separates (Form.lineBreak indent)

/-- The items are written one after another, each after a separator. -/
inductive Spaced (P : Text → Form → Prop) : Text → List Form → Prop
  | nil : Spaced P [] []
  | cons {sep t r : Text} {f : Form} {fs : List Form} : Separates sep → P t f → Spaced P r fs →
      Spaced P (sep ++ (t ++ r)) (f :: fs)

/-- The items are written one after another, with a separator between two of them. -/
inductive Row (P : Text → Form → Prop) : Text → List Form → Prop
  | nil : Row P [] []
  | cons {t r : Text} {f : Form} {fs : List Form} : P t f → Spaced P r fs → Row P (t ++ r) (f :: fs)

section Rows

variable {P Q : Text → Form → Prop} {t sep : Text} {write : Form → Text} {fs : List Form}

theorem Spaced.imp (h : Spaced P t fs) (hpq : ∀ f ∈ fs, ∀ t, P t f → Q t f) : Spaced Q t fs := by
  induction h with
  | nil => exact .nil
  | cons hsep hf _ ih =>
    exact .cons hsep (hpq _ List.mem_cons_self _ hf) (ih fun f hf => hpq f (List.mem_cons_of_mem _ hf))

theorem Row.imp (h : Row P t fs) (hpq : ∀ f ∈ fs, ∀ t, P t f → Q t f) : Row Q t fs := by
  cases h with
  | nil => exact .nil
  | cons hf hr => exact .cons (hpq _ List.mem_cons_self _ hf) (hr.imp fun f hf => hpq f (List.mem_cons_of_mem _ hf))

theorem spaced_flatMap (hsep : Separates sep) (fs : List Form) (h : ∀ f ∈ fs, P (write f) f) :
    Spaced P (fs.flatMap fun f => sep ++ write f) fs := by
  induction fs with
  | nil => exact .nil
  | cons f fs ih =>
    rw [List.flatMap_cons, List.append_assoc]
    exact .cons hsep (h f List.mem_cons_self) (ih fun g hg => h g (List.mem_cons_of_mem f hg))

theorem row_join (hsep : Separates sep) (fs : List Form) (h : ∀ f ∈ fs, P (write f) f) :
    Row P (Text.join sep (fs.map write)) fs := by
  cases fs with
  | nil => exact .nil
  | cons f fs =>
    rw [List.map_cons, Form.join_cons, List.flatMap_map]
    exact .cons (h f List.mem_cons_self) (spaced_flatMap hsep fs fun g hg => h g (List.mem_cons_of_mem f hg))

theorem row_renderItems (h : ∀ f ∈ fs, P (f.render true) f) : Row P (Form.renderItems true fs) fs := by
  rw [← Form.join_renderAll, Form.renderAll_eq_map]
  exact row_join .space fs h

end Rows

/-! ## Layouts -/

namespace Form

section Pairs

variable {P : Text → Form → Prop} {sep : Text} {write : Form → Text}

/-- Two items on a line, or the last one alone. -/
def writeGroup (write : Form → Text) (group : List Form) : Text := Text.join [CodePoint.ofChar ' '] (group.map write)

theorem spaced_pairs (hsep : Separates sep) (h : ∀ f, P (write f) f) (fs : List Form) :
    Spaced P ((inPairs fs).flatMap fun group => sep ++ writeGroup write group) fs := by
  fun_induction inPairs fs with
  | case1 => exact .nil
  | case2 a =>
    rw [List.flatMap_singleton, ← List.append_nil (writeGroup write [a])]
    exact .cons hsep (h a) .nil
  | case3 a b rest ih =>
    have hpair := Spaced.cons hsep (h a) (.cons .space (h b) ih)
    rw [List.flatMap_cons]
    simpa [writeGroup, Text.join] using hpair

theorem row_pairs (hsep : Separates sep) (h : ∀ f, P (write f) f) (fs : List Form) :
    Row P (Text.join sep ((inPairs fs).map (writeGroup write))) fs := by
  rcases fs with _ | ⟨a, _ | ⟨b, rest⟩⟩
  · exact .nil
  · exact row_join .space [a] fun f _ => h f
  · have hpairs := Row.cons (h a) (.cons .space (h b) (spaced_pairs hsep h rest))
    rw [inPairs, List.map_cons, join_cons, List.flatMap_map]
    simpa [writeGroup, Text.join] using hpairs

end Pairs

theorem flat_eq (f : Form) : f.flat = f.render true := by rw [flat, renderOnto_eq, List.append_nil]

/-- A form without a number of too many digits has a layout. -/
theorem layout_of_isPrintable {f : Form} (h : f.isPrintable = true) (indent : Int) (pretty : Bool) :
    f.layout indent pretty = .ok (f.arrange indent pretty) := by
  rw [layout, print_of_isPrintable h]
  rfl

theorem mapM_layout {fs : List Form} (h : arePrintable fs = true) (indent : Int) (pretty : Bool) :
    fs.mapM (layout · indent pretty) = .ok (fs.map (arrange · indent pretty)) := by
  induction fs with
  | nil => rfl
  | cons f fs ih =>
    rw [arePrintable, Bool.and_eq_true] at h
    rw [List.mapM_cons, layout_of_isPrintable h.1, ih h.2]
    rfl

theorem layoutAll_of_arePrintable {fs : List Form} (h : arePrintable fs = true) :
    layoutAll fs = .ok (Text.join [CodePoint.ofChar '\n'] (fs.map (arrange · 0 true))) := by
  rw [layoutAll, mapM_layout h]
  rfl

/-- The text is the form laid out from some column on, with as many levels to be broken. -/
def LaidOut (levels : Nat) (t : Text) (f : Form) : Prop := ∃ indent, t = layoutFrom levels indent f

/-- **How a form is laid out**: on one line, or with its items in a row, each with one level less. -/
theorem laidOut_cases {levels : Nat} {t : Text} {f : Form} (h : LaidOut (levels + 1) t f) :
    t = f.render true ∨ ∃ s items span r, f = .compound s items span ∧ t = s.opener :: (r ++ [s.closer]) ∧
      Row (LaidOut levels) r items := by
  obtain ⟨indent, rfl⟩ := h
  have hlaid (k : Int) (g : Form) : LaidOut levels (layoutFrom levels k g) g := ⟨k, rfl⟩
  unfold layoutFrom
  split
  · exact .inl (flat_eq f)
  · split
    · rename_i head tail span _
      have hbody := spaced_flatMap (.lineBreak (indent + 2)) tail fun g _ => hlaid (indent + 2) g
      refine .inr ⟨.list, _, span, _, rfl, ?_, .cons (hlaid (indent + 1) head) hbody⟩
      simp [Text.concat, List.flatMap, Shape.opener, Shape.closer]
    · rename_i x xs span _
      have hlines := row_join (.lineBreak (indent + 1)) (x :: xs) fun g _ => hlaid (indent + 1) g
      exact .inr ⟨.vector, _, span, _, rfl, rfl, hlines⟩
    · rename_i x xs span _
      have hlines := row_pairs (.lineBreak (indent + 1)) (hlaid (indent + 1)) (x :: xs)
      exact .inr ⟨.map, _, span, _, rfl, rfl, hlines⟩
    · exact .inl (flat_eq _)

end Form

end MalForms
