import MalForms.Form.Same

/-!
# Forms without places

Two forms are the same if and only if nothing is left of their difference when the places are forgotten (`same_iff`).
-/

namespace MalForms.Form

theorem eraseAll_eq_map (fs : List Form) : eraseAll fs = fs.map erase := by
  induction fs with
  | nil => rfl
  | cons f fs ih => rw [eraseAll, ih, List.map_cons]

theorem sameAll_iff_of_items {fs : List Form} (h : ∀ f ∈ fs, ∀ g, same f g = true ↔ erase f = erase g)
    (gs : List Form) : sameAll fs gs = true ↔ eraseAll fs = eraseAll gs := by
  induction fs generalizing gs with
  | nil => cases gs <;> simp [sameAll, eraseAll]
  | cons f fs ih =>
    cases gs with
    | nil => simp [sameAll, eraseAll]
    | cons g gs =>
      rw [sameAll, eraseAll, eraseAll, Bool.and_eq_true, List.cons.injEq, h f List.mem_cons_self g,
        ih fun x hx => h x (List.mem_cons_of_mem f hx)]

theorem same_iff (f g : Form) : same f g = true ↔ erase f = erase g := by
  induction f using items_induction generalizing g with
  | compound s xs span ih =>
    cases g with
    | compound t ys span' => simp [same, erase, sameAll_iff_of_items ih ys]
    | _ => simp [same, erase]
  | _ => cases g <;> simp [same, erase]

/-- **Lists of forms are the same if and only if they are equal without places.** -/
theorem sameAll_iff (fs gs : List Form) : sameAll fs gs = true ↔ eraseAll fs = eraseAll gs :=
  sameAll_iff_of_items (fun f _ => same_iff f) gs

/-- A form that is compound without its places is compound. -/
theorem eq_compound_of_erase {f : Form} {s : Shape} {xs : List Form} {span : Option Span}
    (h : f.erase = .compound s xs span) : ∃ items place, f = .compound s items place ∧ items.map erase = xs := by
  cases f with
  | compound t items place =>
    simp only [erase, compound.injEq] at h
    obtain ⟨rfl, rfl, -⟩ := h
    exact ⟨items, place, rfl, (eraseAll_eq_map items).symm⟩
  | _ => cases h

/-- Nested lists have no places. -/
theorem erase_nested (n : Nat) : (nested n).erase = nested n := by
  induction n with
  | zero => rfl
  | succ n ih => rw [nested, erase, eraseAll, eraseAll, ih]

end MalForms.Form
