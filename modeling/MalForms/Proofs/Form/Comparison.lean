import MalForms.Proofs.Form.Erasure
import MalForms.Proofs.RoundTrip

/-!
# What comparison is for

* `comparison_laws`: `coincide` is equality of forms without their places, `equal` is the same with numbers for booleans
  as far as it goes, forms that coincide have the same texts, and readable forms with the same text coincide.

The list of pairs that `coincide` works off computes the recursion (`coincideAll_eq`): all pairs agree if and only if
what each of them leaves to be compared does (`all_confront`). What `equal` answers is right (`equal_ok`); it answers if
there is room for one of the two forms (`equal_answers`), and on forms that are equal only then (`equal_of_same`).

Neither printer looks at a place (`render_erase`, `layoutFrom_erase`), so the texts of a form depend on what `same`
compares and on nothing else. For the way back, the text of a readable form is read as the form, and a text is read in
one way only (`same_of_render`).
-/

namespace MalForms.Form

/-! ## The list of pairs -/

section Pairs

variable {f g : Form} {ps : List (Form × Form)}

theorem length_of_sameAll {fs gs : List Form} (h : sameAll fs gs = true) : fs.length = gs.length := by
  induction fs generalizing gs with
  | nil => cases gs with
    | nil => rfl
    | cons g gs => cases h
  | cons f fs ih => cases gs with
    | nil => cases h
    | cons g gs =>
      rw [sameAll, Bool.and_eq_true] at h
      rw [List.length_cons, List.length_cons, ih h.2]

theorem sameAll_eq_zip {fs gs : List Form} (h : fs.length = gs.length) :
    sameAll fs gs = (fs.zip gs).all fun p => same p.1 p.2 := by
  induction fs generalizing gs with
  | nil => cases gs with
    | nil => rfl
    | cons g gs => cases h
  | cons f fs ih => cases gs with
    | nil => cases h
    | cons g gs => rw [sameAll, List.zip_cons_cons, List.all_cons, ih (Nat.succ.inj h)]

theorem same_compound (s t : Shape) (fs gs : List Form) (span span' : Option Span) :
    same (.compound s fs span) (.compound t gs span') =
      (decide (s = t ∧ fs.length = gs.length) && (fs.zip gs).all fun p => same p.1 p.2) := by
  rw [same]
  by_cases hlen : fs.length = gs.length
  · simp [sameAll_eq_zip hlen, hlen, beq_eq_decide]
  · have hne : sameAll fs gs = false := Bool.eq_false_iff.2 fun h => hlen (length_of_sameAll h)
    simp [hne, hlen]

theorem elim_settled (b : Bool) : (settled b).elim false (fun ps => ps.all fun p => same p.1 p.2) = b := by
  cases b <;> rfl

/-- Two forms are the same if and only if they leave pairs to be compared that all are. -/
theorem all_confront (f g : Form) :
    same f g = (confront f g).elim false fun ps => ps.all fun p => same p.1 p.2 := by
  cases f with
  | compound s xs span =>
    cases g with
    | compound t ys span' =>
      rw [same_compound, confront]
      by_cases h : s = t ∧ xs.length = ys.length <;> simp [h]
    | _ => rfl
  | _ => cases g <;> simp [same, confront, elim_settled]

/-- **The list of pairs computes the recursion.** -/
theorem coincideAll_eq (ps : List (Form × Form)) : coincideAll ps = ps.all fun p => same p.1 p.2 := by
  fun_induction coincideAll ps with
  | case1 => rfl
  | case2 f g rest hdiffer => rw [List.all_cons, all_confront, hdiffer]; rfl
  | case3 f g rest ps hleft ih =>
    rw [ih, List.all_append, List.all_reverse, List.all_cons, all_confront f g, hleft]
    rfl

theorem coincide_eq_same (f g : Form) : coincide f g = same f g := by
  rw [coincide, coincideAll_eq, List.all_cons, List.all_nil, Bool.and_true]

end Pairs

/-! ## Numbers for booleans -/

section Numeric

theorem same_toInt (a b : Bool) : same (.int a.toInt) (.int b.toInt) = (a == b) := by
  cases a <;> cases b <;> rfl

theorem length_numericAll (fs : List Form) : (numericAll fs).length = fs.length := by
  induction fs with
  | nil => rfl
  | cons f fs ih => rw [numericAll, List.length_cons, ih, List.length_cons]

theorem equalAll_ok_of_items {fs : List Form} {room : Nat}
    (h : ∀ f ∈ fs, ∀ g b, equal room f g = .ok b → (b = true ↔ same f.numeric g.numeric = true)) {gs : List Form}
    (hlen : fs.length = gs.length) {b : Bool} (hb : equalAll room fs gs = .ok b) :
    b = true ↔ sameAll (numericAll fs) (numericAll gs) = true := by
  induction fs generalizing gs with
  | nil =>
    cases List.length_eq_zero_iff.1 hlen.symm
    cases hb
    exact iff_of_true rfl rfl
  | cons f fs ih =>
    cases gs with
    | nil => cases hlen
    | cons g gs =>
      have hhead := h f List.mem_cons_self g
      have hrest := @ih (fun x hx => h x (List.mem_cons_of_mem f hx)) gs (Nat.succ.inj hlen)
      rw [numericAll, numericAll, sameAll, Bool.and_eq_true]
      rw [equalAll] at hb
      split at hb
      · rename_i htrue
        rw [← hhead true htrue, hrest hb]
        simp
      · -- the first items differ, and the others are not looked at
        rename_i hnot
        rw [← hhead b hb]
        cases b with
        | true => exact absurd hb hnot
        | false => simp

/-- **An answer of loose equality is right**: it is sameness with numbers for booleans. -/
theorem equal_ok (f : Form) (room : Nat) (g : Form) (b : Bool) (h : equal room f g = .ok b) :
    b = true ↔ same f.numeric g.numeric = true := by
  induction f using items_induction generalizing room g b with
  | bool a =>
    cases g with
    | bool c =>
      cases h
      rw [numeric, numeric, same_toInt]
    | _ => simp_all [equal, numeric, same]
  | compound s xs span ih =>
    cases g with
    | compound t ys span' =>
      rw [numeric, numeric, same, Bool.and_eq_true, beq_iff_eq]
      rw [equal] at h
      split_ifs at h with hst hroom hlen
      · cases h
        simp [hst]
      · cases h
        have hdiffer : ¬sameAll (numericAll xs) (numericAll ys) = true := by
          intro hsame
          have hlengths := length_of_sameAll hsame
          rw [length_numericAll, length_numericAll] at hlengths
          exact hlen hlengths
        simp [hdiffer]
      · rw [not_not] at hst hlen
        rw [equalAll_ok_of_items (fun f hf => ih f hf _) hlen h]
        simp [hst]
    | _ => simp_all [equal, numeric, same]
  | _ => cases g <;> simp_all [equal, numeric, same]

theorem comparisonsAll_le_iff (fs : List Form) (n : Nat) : comparisonsAll fs ≤ n ↔ ∀ f ∈ fs, f.comparisons ≤ n := by
  induction fs with
  | nil => simp [comparisonsAll]
  | cons f fs ih => rw [comparisonsAll, Nat.max_le, ih, List.forall_mem_cons]

theorem equalAll_answers_of_items {fs gs : List Form} {room : Nat}
    (h : ∀ f ∈ fs, ∀ g ∈ gs, ∃ b, equal room f g = .ok b) : ∃ b, equalAll room fs gs = .ok b := by
  induction fs generalizing gs with
  | nil => exact ⟨true, by cases gs <;> rfl⟩
  | cons f fs ih =>
    cases gs with
    | nil => exact ⟨true, rfl⟩
    | cons g gs =>
      obtain ⟨b, hb⟩ := h f List.mem_cons_self g List.mem_cons_self
      rw [equalAll, hb]
      cases b with
      | false => exact ⟨false, rfl⟩
      | true => exact ih fun x hx y hy => h x (List.mem_cons_of_mem f hx) y (List.mem_cons_of_mem g hy)

/-- **There is an answer if there is room for one of the two forms.** -/
theorem equal_answers (f : Form) (room : Nat) (g : Form) (h : f.comparisons ≤ room ∨ g.comparisons ≤ room) :
    ∃ b, equal room f g = .ok b := by
  induction f using items_induction generalizing room g with
  | compound s xs span ih =>
    cases g with
    | compound t ys span' =>
      rw [equal]
      split_ifs with hst hroom hlen
      · exact ⟨false, rfl⟩
      · -- the two shapes are one, so both forms need as much room to come to their items
        rw [not_not] at hst
        subst hst
        rcases h with h | h <;> rw [comparisons] at h <;> omega
      · exact ⟨false, rfl⟩
      · rw [not_not] at hst
        subst hst
        have hitems : comparisonsAll xs ≤ room - s.comparisons ∨ comparisonsAll ys ≤ room - s.comparisons := by
          simp only [comparisons] at h
          omega
        rw [comparisonsAll_le_iff, comparisonsAll_le_iff] at hitems
        refine equalAll_answers_of_items fun x hx y hy => ih x hx _ y ?_
        exact hitems.imp (fun hall => hall x hx) (fun hall => hall y hy)
    | _ => exact ⟨false, rfl⟩
  | _ => cases g <;> exact ⟨_, rfl⟩

theorem equalAll_of_sameAll {fs : List Form} {room : Nat}
    (h : ∀ f ∈ fs, ∀ g, same f.numeric g.numeric = true →
      equal room f g = if f.comparisons ≤ room then .ok true else .error {})
    {gs : List Form} (hsame : sameAll (numericAll fs) (numericAll gs) = true) :
    equalAll room fs gs = if comparisonsAll fs ≤ room then .ok true else .error {} := by
  induction fs generalizing gs with
  | nil => cases gs <;> rfl
  | cons f fs ih =>
    cases gs with
    | nil => cases hsame
    | cons g gs =>
      rw [numericAll, numericAll, sameAll, Bool.and_eq_true] at hsame
      have hrest := ih (fun x hx => h x (List.mem_cons_of_mem f hx)) hsame.2
      rw [equalAll, h f List.mem_cons_self g hsame.1, comparisonsAll]
      by_cases hf : f.comparisons ≤ room
      · rw [if_pos hf]
        exact hrest.trans (if_congr (by omega) rfl rfl)
      · rw [if_neg hf, if_neg (by omega)]

/-- **Forms that are equal are found to be so if there is room for them**, and only then. -/
theorem equal_of_same (f : Form) (room : Nat) (g : Form) (h : same f.numeric g.numeric = true) :
    equal room f g = if f.comparisons ≤ room then .ok true else .error {} := by
  induction f using items_induction generalizing room g with
  | compound s xs span ih =>
    cases g with
    | compound t ys span' =>
      rw [numeric, numeric, same, Bool.and_eq_true, beq_iff_eq] at h
      obtain ⟨rfl, hitems⟩ := h
      have hlen := length_of_sameAll hitems
      rw [length_numericAll, length_numericAll] at hlen
      rw [equal, if_neg (not_not.2 rfl), comparisons]
      by_cases hroom : room < s.comparisons
      · rw [if_pos hroom, if_neg (by omega)]
      · rw [if_neg hroom, if_neg (not_not.2 hlen), equalAll_of_sameAll (fun x hx => ih x hx _) hitems]
        exact if_congr (by omega) rfl rfl
    | _ => cases h
  | bool a =>
    cases g with
    | bool c =>
      rw [numeric, numeric, same_toInt] at h
      simp [equal, comparisons, h]
    | _ => simp_all [equal, numeric, same, comparisons]
  | _ => cases g <;> simp_all [equal, numeric, same, comparisons]

end Numeric

/-! ## Texts without places -/

section Texts

variable {f g : Form} {readably : Bool}

theorem render_erase (readably : Bool) (f : Form) : render readably f.erase = render readably f := by
  induction f using items_induction with
  | compound s xs span ih =>
    have hitems : (eraseAll xs).map (render readably) = xs.map (render readably) := by
      rw [eraseAll_eq_map, List.map_map]
      exact List.map_congr_left ih
    rw [erase, render, render, renderAll_eq_map, renderAll_eq_map, hitems]
  | _ => rfl

theorem flat_erase (f : Form) : f.erase.flat = f.flat := by rw [flat_eq, flat_eq, render_erase]

theorem isPrintable_erase (f : Form) : f.erase.isPrintable = f.isPrintable := by
  induction f using items_induction with
  | compound s xs span ih =>
    rw [erase, isPrintable, isPrintable, Bool.eq_iff_iff, arePrintable_iff, arePrintable_iff, eraseAll_eq_map,
      List.forall_mem_map]
    exact forall₂_congr fun f hf => by rw [ih f hf]
  | _ => rfl

theorem print_erase (f : Form) (readably : Bool) : f.erase.print readably = f.print readably := by
  rw [print_eq, print_eq, render_erase, isPrintable_erase]

theorem inPairs_map {α β : Type} (φ : α → β) (xs : List α) : inPairs (xs.map φ) = (inPairs xs).map (List.map φ) := by
  fun_induction inPairs xs with
  | case1 | case2 => rfl
  | case3 a b rest ih => rw [List.map_cons, List.map_cons, inPairs, ih]; rfl

/-- Where a form is broken depends on the texts of its items alone. -/
theorem layoutFrom_erase (levels : Nat) (indent : Int) (f : Form) :
    layoutFrom levels indent f.erase = layoutFrom levels indent f := by
  induction levels generalizing indent f with
  | zero => exact flat_erase f
  | succ levels ih =>
    unfold layoutFrom
    rw [flat_erase]
    split_ifs with hfits
    · rfl
    cases f with
    | compound s xs span =>
      rw [erase, eraseAll_eq_map]
      cases xs with
      | nil => cases s <;> exact flat_erase (.compound _ [] span)
      | cons x xs =>
        cases s with
        | list => simp [ih, Function.comp_def]
        | vector => simp [ih, Function.comp_def]
        | map =>
          rw [List.map_cons]
          simp only
          rw [← List.map_cons, inPairs_map]
          simp [ih, Function.comp_def]
    | _ => exact flat_erase _

theorem layout_erase (f : Form) (indent : Int) (pretty : Bool) :
    f.erase.layout indent pretty = f.layout indent pretty := by
  rw [layout, layout, arrange, arrange, layoutFrom_erase, flat_erase, print_erase]

/-- Forms that are the same have the same texts. -/
theorem texts_of_same (h : same f g = true) : (∀ readably, f.print readably = g.print readably) ∧
    ∀ indent pretty, f.layout indent pretty = g.layout indent pretty := by
  have herase := (same_iff f g).1 h
  constructor
  · intro readably
    rw [← print_erase f, herase, print_erase]
  · intro indent pretty
    rw [← layout_erase f, herase, layout_erase]

/-- The text of a readable form is read as the form. -/
theorem read_render (h : f.isReadable = true) : ∃ gs, read (f.render true) = .ok gs ∧ sameAll gs [f] = true := by
  have hrow : Row Spells (f.render true ++ []) [f] := .cons (returns_of_isReadable h) .nil
  rw [List.append_nil] at hrow
  exact readsAs_iff.1 (readsAs_row hrow)

/-- **A text belongs to one readable form only**, places aside. -/
theorem same_of_render (hf : f.isReadable = true) (hg : g.isReadable = true) (h : f.render true = g.render true) :
    same f g = true := by
  obtain ⟨fs, hfs, hsame⟩ := read_render hf
  obtain ⟨gs, hgs, hsame'⟩ := read_render hg
  rw [h, hgs] at hfs
  cases hfs
  have herase : eraseAll [f] = eraseAll [g] := ((sameAll_iff _ _).1 hsame).symm.trans ((sameAll_iff _ _).1 hsame')
  exact (same_iff f g).2 (List.cons.inj herase).1

end Texts

/-- **Comparison is what it is meant to be.** Two forms coincide if and only if they are equal without places. They are
loosely equal if and only if they coincide with 1 for `true` and 0 for `false`; to this there is an answer if there is
room for one of the two forms, and there is none if they are equal and there is not enough room for them. Forms that
coincide are written the same, on one line and laid out, and readable forms that are written the same coincide. -/
theorem comparison_laws (f g : Form) :
    (coincide f g = true ↔ erase f = erase g) ∧
    (∀ room,
      (∀ b, equal room f g = .ok b → (b = true ↔ coincide f.numeric g.numeric = true)) ∧
      (f.comparisons ≤ room ∨ g.comparisons ≤ room → ∃ b, equal room f g = .ok b) ∧
      (coincide f.numeric g.numeric = true → room < f.comparisons → equal room f g = .error {})) ∧
    (coincide f g = true → (∀ readably, f.print readably = g.print readably) ∧
      ∀ indent pretty, f.layout indent pretty = g.layout indent pretty) ∧
    (f.isReadable = true → g.isReadable = true → f.print = g.print → coincide f g = true) := by
  simp only [coincide_eq_same]
  refine ⟨same_iff f g, fun room => ⟨equal_ok f room g, equal_answers f room g, fun hsame hroom => ?_⟩, texts_of_same,
    fun hf hg h => ?_⟩
  · rw [equal_of_same f room g hsame, if_neg (Nat.not_le.2 hroom)]
  · rw [print_of_isPrintable (isPrintable_of_isReadable hf), print_of_isPrintable (isPrintable_of_isReadable hg)] at h
    exact same_of_render hf hg (Except.ok.inj h)

/-- A map read from a source and one built by hand are the same, and both are equal to a third one, with a number for a
boolean, which is not the same. -/
theorem comparison_laws_map :
    let f : Form := .compound .map [.keyword "a" ⟨1, 1, 1, 3⟩, .compound .list [.bool true] (some ⟨1, 4, 1, 10⟩)]
      (some ⟨1, 0, 1, 11⟩)
    let g : Form := .compound .map [.keyword "a" {}, .compound .list [.bool true] none] none
    let k : Form := .compound .map [.keyword "a" {}, .compound .list [.int 1] none] none
    (coincide f g = true ∧ f.print = g.print ∧ f.layout 55 = g.layout 55) ∧
      (f.isReadable = true ∧ g.isReadable = true ∧ erase f = erase g) ∧
      (equal 4 f k = .ok true ∧ equal 3 f k = .error {}) ∧ erase f ≠ erase k := by
  intro f g k
  have hsame : coincide f g = true := by
    rw [coincide_eq_same]
    decide
  have hdiffer : ¬coincide f k = true := by
    rw [coincide_eq_same]
    decide
  have hnumeric : coincide f.numeric k.numeric = true := by
    rw [coincide_eq_same]
    decide
  have hf : f.isReadable = true := by decide
  have hg : g.isReadable = true := by decide
  obtain ⟨hiff, -, htexts, hback⟩ := comparison_laws f g
  obtain ⟨hiff', hequal, -, -⟩ := comparison_laws f k
  obtain ⟨hprint, hlayout⟩ := htexts hsame
  obtain ⟨b, hb⟩ := (hequal 4).2.1 (.inl (by decide))
  obtain rfl := ((hequal 4).1 b hb).2 hnumeric
  exact ⟨⟨hsame, hprint true, hlayout 55 true⟩, ⟨hf, hg, hiff.1 (hback hf hg (hprint true))⟩,
    ⟨hb, (hequal 3).2.2 hnumeric (by decide)⟩, fun h => hdiffer (hiff'.2 h)⟩

theorem comparisons_nested (n : Nat) : (nested n).comparisons = n + 1 := by
  induction n with
  | zero => rfl
  | succ n ih =>
    rw [nested, comparisons, comparisonsAll, comparisonsAll, ih, Shape.comparisons]
    omega

/-- A form that is compared with its like is not found to be equal to it where there is not enough room. -/
theorem equal_nested : coincide (nested 1000).numeric (nested 1000).numeric = true ∧
    equal 1000 (nested 1000) (nested 1000) = .error {} := by
  have hsame (f : Form) : same f f = true := (same_iff f f).2 rfl
  refine ⟨by rw [coincide_eq_same, hsame], ?_⟩
  rw [equal_of_same _ _ _ (hsame _), comparisons_nested]
  rfl

end MalForms.Form
