import MalForms.Proofs.Form.Erasure
import MalForms.Proofs.Grammar.Rules
import MalForms.Proofs.Reader.Overlong

/-!
# The reader reads the language of the grammar

* `read_eq_grammar`: without numerals of too many digits, the reader and the grammar give the same forms for the same
  texts, places aside.

Both are compared with the forms that stand in the text. Where forms stand, the grammar matches them one after another
(`chain_of_reads`), and where it matches a form, one stands (`sound`). A depth of more than the length of the text is
enough, since every form around another takes a code point of its own (`form_depth`). The grammar may try `~` where
there is `~@` and the form after it fails; this comes to nothing, since the same form would have to stand after the `@`
(`reads_of_unquote`).
-/

namespace MalForms.Grammar

open Lexeme

variable {c c' : Cursor} {d : Nat}

theorem form_succ (d : Nat) (t : Text) : form (d + 1) t = (alternatives (form d)).findSome? (· (afterGap t)) := rfl

theorem erase_toForm (x : Scalar) (span : Span) : (x.toForm span).erase = x.toForm {} := by cases x <;> rfl

theorem erase_markForm (m : Mark) (p q : Position) (gs : List Form) :
    (markForm m p q gs).erase = .compound .list (.symbol m.head {} :: (gs.map Form.erase).reverse) none := by
  rw [markForm, Form.erase, Form.eraseAll, Form.eraseAll_eq_map, List.map_reverse]
  rfl

/-! ## From forms to matches -/

section Completeness

theorem form_scalar {x : Scalar} {n : Nat} (h : Lexeme.scalar c.skipGap.rest = .found x n) (d : Nat) :
    form (d + 1) c.rest = some (x.toForm {}, (c.skipGap.advance n).rest) := by
  have ho : Opening.ofText? c.skipGap.rest = none := by
    cases ho : Opening.ofText? c.skipGap.rest with
    | none => rfl
    | some o => rw [scalar_opening ho] at h; cases h
  rw [form_succ, ← rest_skipGap, alternatives_scalars ho, scalars_found h]
  rfl

theorem form_opened {o : Opening} {g : Form} {r : Text} (ho : Opening.ofText? c.skipGap.rest = some o)
    (h : opened (form d) o c.skipGap.rest = some (g, r)) : form (d + 1) c.rest = some (g, r) := by
  rw [form_succ, ← rest_skipGap, alternatives_opened ho h]

/-- At a closing bracket there is no form. -/
theorem form_closer {s : Shape} (h : c.skipGap.rest.head? = some s.closer) (d : Nat) : form d c.rest = none := by
  cases d with
  | zero => rfl
  | succ d =>
    obtain ⟨r, hr⟩ := List.head?_eq_some_iff.1 h
    rw [form_succ, ← rest_skipGap, hr, alternatives_scalars (ofText?_closer s r), scalars_absent (scalar_closer s r)]

theorem form_end (h : c.skipGap.rest = []) (d : Nat) : form d c.rest = none := by
  cases d with
  | zero => rfl
  | succ d => rw [form_succ, ← rest_skipGap, h, alternatives_scalars ofText?_nil, scalars_absent rfl]

/-- Where forms stand, the grammar matches them one after another. -/
theorem chain_of_reads {fs : List Form} (h : Reads c fs c') (hd : c.rest.length < d) :
    Chain (form d) c.rest (fs.map Form.erase) c'.rest := by
  induction h generalizing d with
  | nil c => exact .nil _
  | @scalar c c' x n fs hs _ ih =>
    have hlt := length_scalar hs
    obtain ⟨d, rfl⟩ : ∃ e, d = e + 1 := ⟨d - 1, by omega⟩
    refine .cons ?_ (ih (by omega))
    rw [erase_toForm]
    exact form_scalar hs d
  | @bracket c c₁ c' s gs fs ho hg hc hr ihg ih =>
    have hlt : (c.skipGap.advance 1).rest.length < c.rest.length := length_opening ho
    have hlt' := length_closer hc
    have hle := hg.length_le
    obtain ⟨d, rfl⟩ : ∃ e, d = e + 1 := ⟨d - 1, by omega⟩
    refine .cons (form_opened ho ?_) (ih (by omega))
    have hlen : (gs.map Form.erase).length ≤ (c.skipGap.advance 1).rest.length := by
      rw [List.length_map]
      omega
    rw [Form.erase, Form.eraseAll_eq_map, rest_opening ho]
    exact bracketed_of_chain (ihg (by omega)) hlen (form_closer hc d) (rest_closer hc)
  | @mark c c₁ c' m gs fs ho hg hl hr ihg ih =>
    have hlt : (c.skipGap.advance m.text.length).rest.length < c.rest.length := length_opening ho
    have hle := hg.length_le
    obtain ⟨d, rfl⟩ : ∃ e, d = e + 1 := ⟨d - 1, by omega⟩
    refine .cons (form_opened ho ?_) (ih (by omega))
    rw [erase_markForm, rest_opening ho]
    exact marked_of_chain (ihg (by omega)) (by rw [List.length_map, hl])

end Completeness

/-! ## From matches to forms -/

section Soundness

/-- A match of the rule of forms is a form that stands in the text. -/
def Sound (d : Nat) : Prop :=
  ∀ c g r, c.rest.length < d → ¬HoldsOverlong c.rest → form d c.rest = some (g, r) →
    ∃ f c', Reads c [f] c' ∧ f.erase = g ∧ c'.rest = r

theorem reads_of_chain (hs : Sound d) {gs : List Form} {t r : Text} (h : Chain (form d) t gs r) (hc : c.rest = t)
    (hd : t.length < d) (ho : ¬HoldsOverlong t) :
    ∃ fs c', Reads c fs c' ∧ fs.map Form.erase = gs ∧ c'.rest = r := by
  induction h generalizing c with
  | nil t => exact ⟨[], c, .nil c, rfl, hc⟩
  | cons hg _ ih =>
    subst hc
    obtain ⟨f, c₁, hf, rfl, rfl⟩ := hs c _ _ hd ho hg
    have hle := hf.length_le
    obtain ⟨fs, c', hfs, rfl, rfl⟩ := ih rfl (by omega) fun h => ho (hf.holdsOverlong h)
    exact ⟨f :: fs, c', hf.append hfs, rfl, rfl⟩

/-- What the grammar matches after an opening stands there. -/
theorem reads_of_inner (hs : Sound d) {o : Opening} {gs : List Form} {r : Text}
    (ho : Opening.ofText? c.skipGap.rest = some o) (hd : c.rest.length < d + 1) (hover : ¬HoldsOverlong c.rest)
    (h : Chain (form d) (c.skipGap.advance o.text.length).rest gs r) :
    ∃ fs c₁, Reads (c.skipGap.advance o.text.length) fs c₁ ∧ fs.map Form.erase = gs ∧ c₁.rest = r := by
  have hlt := length_opening ho
  exact reads_of_chain hs h rfl (by omega) fun h => hover (.opening ho h)

theorem reads_of_bracketed (hs : Sound d) {b : Shape} {g : Form} {r : Text}
    (ho : Opening.ofText? c.skipGap.rest = some (.bracket b)) (hd : c.rest.length < d + 1)
    (hover : ¬HoldsOverlong c.rest) (h : bracketed (form d) b c.skipGap.rest = some (g, r)) :
    ∃ f c', Reads c [f] c' ∧ f.erase = g ∧ c'.rest = r := by
  rw [rest_opening ho] at h
  obtain ⟨gs, r', hchain, hgap, rfl⟩ := chain_of_bracketed h
  obtain ⟨fs, c₁, hfs, rfl, rfl⟩ := reads_of_inner hs ho hd hover hchain
  rw [← rest_skipGap] at hgap
  refine ⟨_, _, .bracket ho hfs (by rw [hgap]; rfl) (.nil _), ?_, by rw [Cursor.rest_advance, hgap]; rfl⟩
  rw [Form.erase, Form.eraseAll_eq_map]

theorem reads_of_marked (hs : Sound d) {m : Mark} {g : Form} {r : Text}
    (ho : Opening.ofText? c.skipGap.rest = some (.mark m)) (hd : c.rest.length < d + 1)
    (hover : ¬HoldsOverlong c.rest) (h : marked (form d) m c.skipGap.rest = some (g, r)) :
    ∃ f c', Reads c [f] c' ∧ f.erase = g ∧ c'.rest = r := by
  rw [rest_opening ho] at h
  obtain ⟨gs, hchain, hl, rfl⟩ := chain_of_marked h
  obtain ⟨fs, c₁, hfs, rfl, rfl⟩ := reads_of_inner hs ho hd hover hchain
  rw [List.length_map] at hl
  exact ⟨_, _, .mark ho hfs hl (.nil _), erase_markForm _ _ _ _, rfl⟩

/-! ### The second choice at `~@` -/

/-- After the `~` of `~@` comes the mark `@`. -/
theorem skipGap_splice (ho : Opening.ofText? c.skipGap.rest = some (.mark .spliceUnquote)) :
    (c.skipGap.advance 1).skipGap = c.skipGap.advance 1 ∧
      Opening.ofText? (c.skipGap.advance 1).rest = some (.mark .deref) := by
  have hrest : (c.skipGap.advance 1).rest = CodePoint.ofChar '@' :: (c.skipGap.advance 2).rest := by
    rw [Cursor.rest_advance, rest_opening ho]
    rfl
  refine ⟨skipGap_eq_self (by rw [hrest]; exact afterGap_cons (by decide)), ?_⟩
  rw [hrest, ofText?_cons]
  rfl

/-- Where a form stands after the `~` of `~@`, one stands after the `~@`. -/
theorem reads_of_unquote {f : Form} (ho : Opening.ofText? c.skipGap.rest = some (.mark .spliceUnquote))
    (h : Reads (c.skipGap.advance 1) [f] c') : ∃ f', Reads c [f'] c' := by
  obtain ⟨hself, hderef⟩ := skipGap_splice ho
  cases h with
  | scalar hs => rw [hself, scalar_opening hderef] at hs; cases hs
  | bracket ho' => rw [hself, hderef] at ho'; cases ho'
  | mark ho' hg hl hn =>
    rw [hself, hderef] at ho'
    cases ho'
    cases hn
    rw [hself] at hg
    exact ⟨_, .mark ho (by rwa [Cursor.advance_advance] at hg) hl (.nil _)⟩

theorem holdsOverlong_of_unquote (ho : Opening.ofText? c.skipGap.rest = some (.mark .spliceUnquote))
    (h : HoldsOverlong (c.skipGap.advance 1).rest) : HoldsOverlong c.rest := by
  obtain ⟨hself, hderef⟩ := skipGap_splice ho
  have hrest : afterGap (c.skipGap.advance 1).rest = (c.skipGap.advance 1).rest := by rw [← rest_skipGap, hself]
  cases h with
  | here hs => rw [hrest, scalar_opening hderef] at hs; cases hs
  | scalar hs => rw [hrest, scalar_opening hderef] at hs; cases hs
  | opening ho' h =>
    rw [hrest, hderef] at ho'
    cases ho'
    rw [hrest, Cursor.rest_advance, List.drop_drop] at h
    exact .opening ho h
  | @closer _ s hc _ =>
    rw [hrest] at hc
    obtain ⟨r, hr⟩ := List.head?_eq_some_iff.1 hc
    rw [hr, ofText?_closer] at hderef
    cases hderef

theorem reads_of_second (hs : Sound d) {g : Form} {r : Text}
    (ho : Opening.ofText? c.skipGap.rest = some (.mark .spliceUnquote)) (hd : c.rest.length < d + 1)
    (hover : ¬HoldsOverlong c.rest) (hf : form (d + 1) c.rest = some (g, r))
    (h : marked (form d) .unquote c.skipGap.rest = some (g, r)) :
    ∃ f c', Reads c [f] c' ∧ f.erase = g ∧ c'.rest = r := by
  have hlt : (c.skipGap.advance 1).rest.length < c.rest.length :=
    Nat.lt_of_lt_of_le (Cursor.length_rest_advance_lt Nat.one_pos (ne_nil_of_opening ho)) c.length_rest_skipGap_le
  have htext : c.skipGap.rest = Mark.unquote.text ++ (c.skipGap.advance 1).rest := by
    rw [Cursor.rest_advance, rest_opening ho]
    rfl
  rw [htext] at h
  obtain ⟨gs, hchain, hl, -⟩ := chain_of_marked h
  obtain ⟨fs, c₁, hfs, rfl, rfl⟩ := reads_of_chain hs hchain rfl (Nat.lt_of_lt_of_le hlt (Nat.le_of_lt_succ hd))
    fun h => hover (holdsOverlong_of_unquote ho h)
  rw [List.length_map] at hl
  obtain ⟨f, rfl⟩ := List.length_eq_one_iff.1 hl
  obtain ⟨f', hf'⟩ := reads_of_unquote ho hfs
  -- the first choice matches as well, so it is the one that was taken
  cases chain_of_reads hf' hd with
  | cons hg hn =>
    cases hn
    cases hf.symm.trans hg
    exact ⟨f', c₁, hf', rfl, rfl⟩

/-! ### All matches -/

/-- **A match of the rule of forms is a form that stands in the text.** -/
theorem sound (d : Nat) : Sound d := by
  induction d with
  | zero => exact fun c g r hd => absurd hd (Nat.not_lt_zero _)
  | succ d ih =>
    intro c g r hd hover hf
    have h := hf
    rw [form_succ, ← rest_skipGap] at h
    cases ho : Opening.ofText? c.skipGap.rest with
    | none =>
      rw [alternatives_scalars ho] at h
      cases hs : Lexeme.scalar c.skipGap.rest with
      | found x n =>
        rw [scalars_found hs] at h
        cases h
        exact ⟨_, _, .scalar hs (.nil _), erase_toForm x _, rfl⟩
      | absent => rw [scalars_absent hs] at h; cases h
      | broken n e => rw [scalars_broken hs] at h; cases h
      | overlong k n => exact absurd (.here hs) hover
      | misescaped k n => exact absurd hs (scalar_ne_misescaped _ _ _)
    | some o =>
      obtain h | ⟨rfl, h⟩ := opened_of_alternatives ho h
      · cases o with
        | bracket b => exact reads_of_bracketed ih ho hd hover h
        | mark m => exact reads_of_marked ih ho hd hover h
      · exact reads_of_second ih ho hd hover hf h

end Soundness

/-- The depth does not matter as long as it is more than the length of the text. -/
theorem form_depth {e : Nat} {t : Text} (hd : t.length < d) (he : t.length < e) (hover : ¬HoldsOverlong t) :
    form d t = form e t := by
  have imp {d e : Nat} (hd : t.length < d) (he : t.length < e) {m : Form × Text} (h : form d t = some m) :
      form e t = some m := by
    obtain ⟨f, c', hf, hg, hr⟩ := sound d (.start t) m.1 m.2 hd hover h
    cases chain_of_reads hf he with
    | cons hm hn =>
      cases hn
      rw [hg, hr] at hm
      exact hm
  cases h : form d t with
  | some m => exact (imp hd he h).symm
  | none =>
    cases h' : form e t with
    | none => rfl
    | some m => cases h.symm.trans (imp he hd h')

/-! ## Whole texts -/

theorem read_of_reads {fs : List Form} {t : Text} (h : Reads (.start t) fs c) (hc : c.skipGap.rest = []) :
    read t = some (fs.map Form.erase) := by
  have hchain := chain_of_reads (d := t.length + 1) h (Nat.lt_succ_self _)
  have hlen : (fs.map Form.erase).length ≤ t.length := by
    rw [List.length_map]
    exact Nat.le_trans (Nat.le_add_right _ _) h.length_le
  have hmany : many (form (t.length + 1)) t.length t = (fs.map Form.erase, c.rest) :=
    many_of_chain hchain hlen (form_end hc _)
  rw [rest_skipGap] at hc
  simp only [read, hmany, hc, List.isEmpty_nil, if_true]

theorem reads_of_read {gs : List Form} {t : Text} (hover : ¬HoldsOverlong t) (h : read t = some gs) :
    ∃ fs c, Reads (.start t) fs c ∧ c.skipGap.rest = [] ∧ fs.map Form.erase = gs := by
  rcases hm : many (form (t.length + 1)) t.length t with ⟨gs', r⟩
  simp only [read, hm, Option.ite_none_right_eq_some, Option.some.injEq, List.isEmpty_iff] at h
  obtain ⟨hr, rfl⟩ := h
  obtain ⟨fs, c, hfs, hgs, rfl⟩ :=
    reads_of_chain (c := .start t) (sound _) (chain_of_many hm) rfl (Nat.lt_succ_self _) hover
  exact ⟨fs, c, hfs, hr, hgs⟩

end MalForms.Grammar

namespace MalForms

/-- **The reader reads the language of the grammar**: in texts without numerals of too many digits, both accept the
same texts and give the same forms, places aside. -/
theorem read_eq_grammar (t : Text) (h : ¬HoldsOverlong t) :
    (read t).toOption.map Form.eraseAll = Grammar.read t := by
  cases hr : read t with
  | ok fs =>
    obtain ⟨c, hfs, hc⟩ := read_eq_ok_iff.1 hr
    rw [Grammar.read_of_reads hfs hc, ← Form.eraseAll_eq_map]
    rfl
  | error e =>
    cases hg : Grammar.read t with
    | none => rfl
    | some gs =>
      obtain ⟨fs, c, hfs, hc, -⟩ := Grammar.reads_of_read h hg
      cases hr.symm.trans (read_eq_ok_iff.2 ⟨c, hfs, hc⟩)

/-- Metadata on a spliced name: a mark of two forms around a mark of one. -/
theorem read_eq_grammar_marks : (read "^:a ~@b;").toOption.map Form.eraseAll =
    some [.compound .list [.symbol "with-meta" {}, .compound .list [.symbol "splice-unquote" {}, .symbol "b" {}] none,
      .keyword "a" {}] none] :=
  (read_eq_grammar "^:a ~@b;" fun h => absurd (length_of_holdsOverlong h) (by decide)).trans (by rfl)

end MalForms
