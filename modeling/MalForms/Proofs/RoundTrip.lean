import MalForms.Form.Readable
import MalForms.Proofs.Form.Rows
import MalForms.Proofs.Reader.Reads

/-!
# What is printed can be read

* `read_printAll`: readable forms, printed one after another, are read as the same forms.
* `readsAs_row`: so are forms in a row, whatever the separators, if the text of each `Spells` it.

Proof: the text of a form `Spells` the form, in front of every text that breaks it off. For a scalar this is a fact
about its text alone (`returns_of_scalar`), because what follows does not go on with it; for a compound form it follows
from the row of its items (`spells_compound`), each of which is broken off by a separator or by the closing bracket.
-/

namespace MalForms

open Lexeme

/-! ## Numbers -/

section Numbers

theorem all_ofNat (n : Nat) : (Decimal.ofNat n).all Decimal.isDigit = true := by
  refine List.all_eq_true.2 fun c hc => ?_
  obtain ⟨d, hd, rfl⟩ := List.mem_map.1 hc
  have hdigit := Nat.isDigit_of_mem_toDigits (by decide) (by decide) hd
  simp only [Char.isDigit, Bool.and_eq_true, decide_eq_true_eq, ge_iff_le, UInt32.le_iff_toNat_le] at hdigit
  exact Bool.and_eq_true_iff.2 ⟨decide_eq_true hdigit.1, decide_eq_true hdigit.2⟩

theorem ofNat_ne_nil (n : Nat) : Decimal.ofNat n ≠ [] := by
  simp [Decimal.ofNat, Nat.toDigits_ne_nil]

theorem value_ofNat (n : Nat) : Decimal.value (Decimal.ofNat n) = n := by
  have hfold := @Nat.ofDigitChars_eq_foldl 10 (Nat.toDigits 10 n) 0
  rw [Nat.ofDigitChars_ten_toDigits] at hfold
  rw [Decimal.value, Decimal.ofNat, List.foldl_map]
  exact hfold.symm

theorem takeWhile_ofNat (n : Nat) : (Decimal.ofNat n).takeWhile Decimal.isDigit = Decimal.ofNat n :=
  List.takeWhile_eq_self_iff.2 (List.all_eq_true.1 (all_ofNat n))

theorem numeralOf_ofNat (negative : Bool) (n : Nat) :
    numeralOf negative (Decimal.ofNat n) = some (negative, Decimal.ofNat n) := by
  rw [numeralOf, if_neg]
  rw [List.isEmpty_iff]
  exact ofNat_ne_nil n

theorem numeral?_ofNat (n : Nat) : numeral? (Decimal.ofNat n) = some (false, Decimal.ofNat n) :=
  numeral?_digits (ofNat_ne_nil n) (all_ofNat n)

theorem numeral?_neg (n : Nat) :
    numeral? (CodePoint.ofChar '-' :: Decimal.ofNat n) = some (true, Decimal.ofNat n) := by
  rw [numeral?_minus, takeWhile_ofNat, numeralOf_ofNat]

/-- The text of a number is read as the number, unless it has too many digits. -/
theorem scalar_ofInt {n : Int} (h : (Decimal.ofNat n.natAbs).length ≤ maxDigits) :
    scalar (Decimal.ofInt n) = .found (.int n) (Decimal.ofInt n).length := by
  cases n with
  | ofNat n =>
    have hle : ¬(Decimal.ofNat n).length > maxDigits := Nat.not_lt.2 h
    rw [Decimal.ofInt, scalar_numeral (numeral?_ofNat n), numberOf, if_neg hle, value_ofNat]
    rfl
  | negSucc n =>
    have hle : ¬(Decimal.ofNat (n + 1)).length > maxDigits := Nat.not_lt.2 h
    rw [Decimal.ofInt, scalar_numeral (numeral?_neg (n + 1)), numberOf, if_neg hle, value_ofNat]
    rfl

end Numbers

/-! ## Scalars -/

section Scalars

/-- In front of every text that breaks it off, the text is read as the form. -/
def Spells (s : Text) (f : Form) : Prop :=
  ∀ c t, Grammar.afterGap c.rest = Grammar.afterGap (s ++ t) → Breaks t →
    ∃ g c', Reads c [g] c' ∧ c'.rest = t ∧ g.same f = true

/-- The form's own text spells it. -/
def Returns (f : Form) : Prop := Spells (f.render true) f

/-- A scalar stands after no gap. -/
theorem afterGap_of_found {s : Text} {x : Scalar} {n : Nat} (h : scalar s = .found x n) : Grammar.afterGap s = s := by
  obtain _ | ⟨c, r⟩ := s
  · rfl
  refine afterGap_cons ?_
  cases hc : startsGap c with
  | false => rfl
  | true =>
    rw [scalar_other (not_symbolChar_of_startsGap hc) (by rintro rfl; cases hc) (by rintro rfl; cases hc)] at h
    cases h

/-- A form returns if its text alone is read as a scalar that is the form. -/
theorem returns_of_scalar {f : Form} {x : Scalar} (h : scalar (f.render true) = .found x (f.render true).length)
    (hs : ∀ span, (x.toForm span).same f = true) : Returns f := by
  intro c t hc ht
  have hx := scalar_append_found h (.inr ht)
  rw [afterGap_of_found hx, ← rest_skipGap] at hc
  refine ⟨_, _, .scalar (by rw [hc]; exact hx) (.nil _), ?_, hs _⟩
  rw [Cursor.rest_advance, hc, List.drop_left]

/-- A name is read as what it denotes. -/
theorem scalar_isName {w : Text} (hw : isName w = true) (hn : numeral? w = none) :
    scalar w = .found (.ofName w) w.length := by
  obtain _ | ⟨c, r⟩ := w
  · cases hw
  have hall : (c :: r).all isSymbolChar = true := hw
  have htake := List.takeWhile_eq_self_iff.2 (List.all_eq_true.1 hall)
  rw [scalar_name (List.all_eq_true.1 hall c List.mem_cons_self) hn, htake]

theorem scalar_isSymbolName {w : Text} (hw : isSymbolName w = true) : scalar w = .found (.symbol w) w.length := by
  simp only [isSymbolName, constants, Bool.and_eq_true, Bool.not_eq_true', Option.isNone_iff_eq_none,
    List.contains_eq_mem, List.mem_cons, List.not_mem_nil, or_false, decide_eq_false_iff_not, not_or] at hw
  obtain ⟨⟨hname, htrue, hfalse, hnil⟩, hn⟩ := hw
  rw [scalar_isName hname hn, Scalar.ofName, if_neg htrue, if_neg hfalse, if_neg hnil]

theorem scalar_keyword {w : Text} (hw : isName w = true) :
    scalar (CodePoint.ofChar ':' :: w) = .found (.keyword w) (w.length + 1) := by
  simp only [isName, Bool.and_eq_true, Bool.not_eq_true'] at hw
  have htake := List.takeWhile_eq_self_iff.2 (List.all_eq_true.1 hw.2)
  rw [scalar_colon, htake, hw.1]
  rfl

theorem scalar_encode (s : Text) :
    scalar (Escape.quote :: (Escape.encode s ++ [Escape.quote])) =
      .found (.str s) (Escape.quote :: (Escape.encode s ++ [Escape.quote])).length := by
  rw [scalar_written]
  simp

end Scalars

/-! ## Compound forms -/

section Items

theorem Separates.all {sep : Text} (h : Separates sep) : sep.all isSeparator = true := by
  cases h with
  | space => rfl
  | lineBreak indent => simp [Form.lineBreak, Text.spaces, isSeparator]

theorem Separates.breaks {sep : Text} (h : Separates sep) (t : Text) : Breaks (sep ++ t) := by
  cases h with
  | space => exact breaks_separator (by decide) _
  | lineBreak indent => exact breaks_separator (by decide) _

theorem breaks_spaced {P : Text → Form → Prop} {s t : Text} {fs : List Form} (h : Spaced P s fs) (ht : Breaks t) :
    Breaks (s ++ t) := by
  cases h with
  | nil => exact ht
  | cons hsep _ _ =>
    rw [List.append_assoc]
    exact hsep.breaks _

/-- Items that are spelled are read one after another, each after its separator. -/
theorem reads_spaced {s t : Text} {fs : List Form} (h : Spaced Spells s fs) {c : Cursor} (hc : c.rest = s ++ t)
    (ht : Breaks t) : ∃ gs c', Reads c gs c' ∧ c'.rest = t ∧ Form.sameAll gs fs = true := by
  induction h generalizing c with
  | nil => exact ⟨[], c, .nil c, hc, rfl⟩
  | cons hsep hf hs ih =>
    rw [List.append_assoc, List.append_assoc] at hc
    have hgap := congrArg Grammar.afterGap hc
    rw [afterGap_separators hsep.all] at hgap
    obtain ⟨g, c₁, hg, hc₁, hsame⟩ := hf c _ hgap (breaks_spaced hs ht)
    obtain ⟨gs, c', hgs, hc', hsames⟩ := ih hc₁
    exact ⟨g :: gs, c', hg.append hgs, hc', by rw [Form.sameAll, hsame, hsames]; rfl⟩

theorem reads_row {s t : Text} {fs : List Form} (h : Row Spells s fs) {c : Cursor} (hc : c.rest = s ++ t)
    (ht : Breaks t) : ∃ gs c', Reads c gs c' ∧ c'.rest = t ∧ Form.sameAll gs fs = true := by
  cases h with
  | nil => exact ⟨[], c, .nil c, hc, rfl⟩
  | cons hf hs =>
    rw [List.append_assoc] at hc
    obtain ⟨g, c₁, hg, hc₁, hsame⟩ := hf c _ (congrArg _ hc) (breaks_spaced hs ht)
    obtain ⟨gs, c', hgs, hc', hsames⟩ := reads_spaced hs hc₁ ht
    exact ⟨g :: gs, c', hg.append hgs, hc', by rw [Form.sameAll, hsame, hsames]; rfl⟩

/-- A row of spelled items between brackets spells the compound form. -/
theorem spells_compound {r : Text} {items : List Form} (h : Row Spells r items) (s : Shape) (span : Option Span) :
    Spells (s.opener :: (r ++ [s.closer])) (.compound s items span) := by
  intro c t hc ht
  rw [List.cons_append, List.append_assoc, afterGap_cons (by cases s <;> decide), ← rest_skipGap] at hc
  have hrest : (c.skipGap.advance 1).rest = r ++ (s.closer :: t) := by
    rw [Cursor.rest_advance, hc]
    rfl
  obtain ⟨gs, c₁, hgs, hc₁, hsame⟩ := reads_row h hrest (breaks_closer s t)
  have hgap : c₁.skipGap.rest = s.closer :: t := by
    rw [rest_skipGap, hc₁]
    exact afterGap_cons (by cases s <;> decide)
  refine ⟨_, _, .bracket (by rw [hc]; exact ofText?_opener s _) hgs (by rw [hgap]; rfl) (.nil _), ?_, ?_⟩
  · rw [Cursor.rest_advance, hgap]
    rfl
  · rw [Form.same, hsame, Bool.and_true]
    exact beq_self_eq_true s

/-- A row of spelled forms is read as the forms. -/
theorem readsAs_row {t : Text} {fs : List Form} (h : Row Spells t fs) : readsAs t fs = .ok true := by
  obtain ⟨gs, c, hr, hc, hsame⟩ := reads_row h (c := .start t) (List.append_nil t).symm breaks_nil
  refine readsAs_iff.2 ⟨gs, read_eq_ok_iff.2 ⟨c, hr, ?_⟩, hsame⟩
  rw [rest_skipGap, hc]
  rfl

theorem reads_items {fs : List Form} (h : ∀ f ∈ fs, Returns f) {c : Cursor} {t : Text}
    (hc : c.rest = Form.renderItems true fs ++ t) (ht : Breaks t) :
    ∃ gs c', Reads c gs c' ∧ c'.rest = t ∧ Form.sameAll gs fs = true :=
  reads_row (row_renderItems h) hc ht

theorem returns_compound {items : List Form} (h : ∀ f ∈ items, Returns f) (s : Shape) (span : Option Span) :
    Returns (.compound s items span) := by
  rw [Returns, Form.render_compound]
  exact spells_compound (row_renderItems h) s span

theorem areReadable_iff (fs : List Form) : Form.areReadable fs = true ↔ ∀ f ∈ fs, f.isReadable = true := by
  induction fs with
  | nil => simp [Form.areReadable]
  | cons f fs ih => simp [Form.areReadable, ih]

/-- No number in a readable form has too many digits. -/
theorem isPrintable_of_isReadable {f : Form} (h : f.isReadable = true) : f.isPrintable = true := by
  induction f using Form.items_induction with
  | int n => exact h
  | compound s items span ih =>
    exact (Form.arePrintable_iff items).2 fun f hf => ih f hf ((areReadable_iff items).1 h f hf)
  | _ => rfl

theorem arePrintable_of_areReadable {fs : List Form} (h : Form.areReadable fs = true) : Form.arePrintable fs = true :=
  (Form.arePrintable_iff fs).2 fun f hf => isPrintable_of_isReadable ((areReadable_iff fs).1 h f hf)

/-- Every readable form returns. -/
theorem returns_of_isReadable {f : Form} (h : f.isReadable = true) : Returns f := by
  induction f using Form.items_induction with
  | nil => exact returns_of_scalar (x := .nil) (by decide) fun _ => rfl
  | bool b => exact returns_of_scalar (x := .bool b) (by cases b <;> decide) fun _ => beq_self_eq_true b
  | int n => exact returns_of_scalar (scalar_ofInt (of_decide_eq_true h)) fun _ => beq_self_eq_true n
  | str s => exact returns_of_scalar (scalar_encode s) fun _ => beq_self_eq_true s
  | symbol name span => exact returns_of_scalar (scalar_isSymbolName h) fun _ => beq_self_eq_true name
  | keyword name span => exact returns_of_scalar (scalar_keyword h) fun _ => beq_self_eq_true name
  | compound s items span ih => exact returns_compound (fun f hf => ih f hf ((areReadable_iff items).1 h f hf)) s span

/-- **What is printed can be read**: readable forms are printed one after another, and read as the same forms. -/
theorem read_printAll (fs : List Form) (h : Form.areReadable fs = true) :
    ∃ t gs, Form.printAll fs = .ok t ∧ read t = .ok gs ∧ Form.sameAll gs fs = true := by
  have hret : ∀ f ∈ fs, Returns f := fun f hf => returns_of_isReadable ((areReadable_iff fs).1 h f hf)
  have hrest : (Cursor.start (Form.renderItems true fs)).rest = Form.renderItems true fs ++ [] :=
    (List.append_nil _).symm
  obtain ⟨gs, c, hr, hc, hsame⟩ := reads_items hret hrest breaks_nil
  refine ⟨_, gs, Form.printAll_of_arePrintable (arePrintable_of_areReadable h) true, read_eq_ok_iff.2 ⟨c, hr, ?_⟩,
    hsame⟩
  rw [rest_skipGap, hc]
  rfl

/-- A map and a list in it, with a number, a surrogate that stands alone and a name that begins like a number. -/
theorem read_printAll_nested :
    let fs : List Form := [.compound .map [.keyword "a" {}, .compound .list [.symbol "-x" {}, .int (-12),
      .str [⟨0xD800, by decide⟩, CodePoint.ofChar '"', CodePoint.ofChar '\n']] none, .nil] (some {}), .bool true]
    Form.areReadable fs = true ∧
      ∃ t gs, Form.printAll fs = .ok t ∧ read t = .ok gs ∧ Form.sameAll gs fs = true :=
  ⟨by decide, read_printAll _ (by decide)⟩

end Items

end MalForms
