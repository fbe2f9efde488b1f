import MalForms.Proofs.Form.Erasure
import MalForms.Proofs.Reader.Restriction
import MalForms.Proofs.RoundTrip
import Mathlib.Data.List.Induction
import Mathlib.Data.Nat.Digits.Defs

/-!
# What reading gives

* `read_image`: all forms that are read are readable, and forms are read back from their own text if and only if they
  are readable.

Proof: a scalar is readable because of the alternatives that come before it (`readable_of_scalar`): a name is taken for
a symbol only where no numeral starts and if it denotes no constant, and the name is as long as it can be, so what
was seen of the text is a fact about the name alone. Compound forms have readable items (`Reads.areReadable`); the name
that a mark puts at the head of its list is a symbol's. Conversely, forms that are read back are the same as forms that
are read, and readability does not look at the places of forms (`isReadable_erase`).
-/

namespace MalForms

open Lexeme

/-! ## Numbers -/

section Numbers

theorem value_append_digit (ds : Text) (c : CodePoint) :
    Decimal.value (ds ++ [c]) = 10 * Decimal.value ds + (c.val - 0x30) := by
  simp [Decimal.value]

theorem value_lt {ds : Text} (h : ds.all Decimal.isDigit = true) : Decimal.value ds < 10 ^ ds.length := by
  induction ds using List.reverseRecOn with
  | nil => exact Nat.one_pos
  | append_singleton ds c ih =>
    rw [List.all_append, Bool.and_eq_true] at h
    have hlt := ih h.1
    have hc : c.val ≤ 0x39 := by
      have hdigit := h.2
      simp only [List.all_cons, List.all_nil, Bool.and_true, Decimal.isDigit, Bool.and_eq_true,
        decide_eq_true_eq] at hdigit
      exact hdigit.2
    rw [value_append_digit, List.length_append, List.length_singleton, Nat.pow_succ]
    omega

/-- The number that digits denote is written with no more digits. -/
theorem length_ofNat_value {ds : Text} (hne : ds ≠ []) (h : ds.all Decimal.isDigit = true) :
    (Decimal.ofNat (Decimal.value ds)).length ≤ ds.length := by
  rw [Decimal.ofNat, List.length_map]
  exact Nat.toDigits_length 10 _ _ (List.length_pos_iff.2 hne) (value_lt h)

theorem readable_of_numeral {s ds : Text} {negative : Bool} (h : numeral? s = some (negative, ds))
    (hle : ds.length ≤ maxDigits) :
    (Form.int (if negative then -(Decimal.value ds : Int) else Decimal.value ds)).isReadable = true := by
  obtain ⟨-, -, -, -, hall⟩ := numeral?_split h
  have habs : (if negative then -(Decimal.value ds : Int) else Decimal.value ds).natAbs = Decimal.value ds := by
    cases negative <;> simp
  rw [Form.isReadable, habs, decide_eq_true_eq]
  exact Nat.le_trans (length_ofNat_value (digits_ne_nil h) hall) hle

end Numbers

/-! ## Scalars -/

section Scalars

variable {s : Text} {span : Span}

theorem isName_takeWhile (h : (s.takeWhile isSymbolChar).isEmpty = false) :
    isName (s.takeWhile isSymbolChar) = true := by
  rw [isName, h, List.all_takeWhile]
  rfl

/-- No numeral starts a name if none starts the text that the name is taken from. -/
theorem numeral?_takeWhile {c : CodePoint} {r : Text} (hc : isSymbolChar c = true) (h : numeral? (c :: r) = none) :
    numeral? ((c :: r).takeWhile isSymbolChar) = none := by
  have hsplit := List.takeWhile_append_dropWhile (p := isSymbolChar) (l := c :: r)
  have hne : (c :: r).takeWhile isSymbolChar ≠ [] := by
    rw [List.takeWhile_cons, hc]
    exact List.cons_ne_nil _ _
  rw [← hsplit] at h
  rw [numeral?_of_append hne ?_, h]
  rw [numeralLength, h]
  exact List.length_pos_iff.2 hne

theorem readable_ofName {w : Text} (hw : isName w = true) (hn : numeral? w = none) :
    ((Scalar.ofName w).toForm span).isReadable = true := by
  unfold Scalar.ofName
  split_ifs with htrue hfalse hnil
  · rfl
  · rfl
  · rfl
  · have hc : constants.contains w = false := by
      simp [constants, htrue, hfalse, hnil]
    rw [Scalar.toForm, Form.isReadable, isSymbolName, hw, hc, hn]
    rfl

/-- Every scalar that is found can be written. -/
theorem readable_of_scalar {x : Scalar} {n : Nat} (h : scalar s = .found x n) (span : Span) :
    (x.toForm span).isReadable = true := by
  cases lexes_of_scalar h with
  | keyword he => exact isName_takeWhile he
  | number hd hle => exact readable_of_numeral hd hle
  | string _ _ => rfl
  | name hc hn =>
    refine readable_ofName (isName_takeWhile ?_) (numeral?_takeWhile hc hn)
    rw [takeWhile_isEmpty_cons, hc]
    rfl

end Scalars

/-! ## Forms -/

section Forms

variable {c c' : Cursor} {fs gs : List Form}

theorem isSymbolName_head (m : Mark) : isSymbolName m.head = true := by
  cases m <;> decide

theorem areReadable_reverse (h : Form.areReadable fs = true) : Form.areReadable fs.reverse = true := by
  rw [areReadable_iff] at h ⊢
  intro f hf
  exact h f (List.mem_reverse.1 hf)

theorem areReadable_cons {f : Form} (hf : f.isReadable = true) (h : Form.areReadable fs = true) :
    Form.areReadable (f :: fs) = true := by
  rw [Form.areReadable, hf, h]
  rfl

/-- All forms that stand in a text are readable. -/
theorem Reads.areReadable (h : Reads c fs c') : Form.areReadable fs = true := by
  induction h with
  | nil c => rfl
  | scalar hs _ ih => exact areReadable_cons (readable_of_scalar hs _) ih
  | bracket _ _ _ _ ihg ih => exact areReadable_cons ihg ih
  | @mark _ _ _ m gs _ _ _ _ _ ihg ih =>
    refine areReadable_cons ?_ ih
    rw [markForm, Form.isReadable]
    exact areReadable_cons (isSymbolName_head m) (areReadable_reverse ihg)

theorem isReadable_erase (f : Form) : f.erase.isReadable = f.isReadable := by
  induction f using Form.items_induction with
  | compound s items span ih =>
    rw [Form.erase, Form.isReadable, Form.isReadable, Form.eraseAll_eq_map, Bool.eq_iff_iff, areReadable_iff,
      areReadable_iff, List.forall_mem_map]
    constructor
    · intro h f hf
      rw [← ih f hf]
      exact h f hf
    · intro h f hf
      rw [ih f hf]
      exact h f hf
  | _ => rfl

/-- Readability does not depend on places. -/
theorem areReadable_of_sameAll (h : Form.sameAll gs fs = true) (hg : Form.areReadable gs = true) :
    Form.areReadable fs = true := by
  have herase (xs : List Form) : Form.areReadable (Form.eraseAll xs) = true ↔ Form.areReadable xs = true := by
    simp only [areReadable_iff, Form.eraseAll_eq_map, List.forall_mem_map, isReadable_erase]
  rw [← herase, ← (Form.sameAll_iff gs fs).1 h, herase]
  exact hg

/-- **The forms that reading gives are the readable ones**: all that is read is readable, and forms have a text from
which they are read back if and only if they are. -/
theorem read_image :
    (∀ source filename fs, read source filename = .ok fs → Form.areReadable fs = true) ∧
      ∀ fs, (∃ t, Form.printAll fs = .ok t ∧ readsAs t fs = .ok true) ↔ Form.areReadable fs = true := by
  have himage (source filename : Text) (fs : List Form) (h : read source filename = .ok fs) :
      Form.areReadable fs = true := by
    obtain ⟨c, hr, -⟩ := read_eq_ok_iff.1 h
    exact hr.areReadable
  refine ⟨himage, fun fs => ⟨?_, fun h => ?_⟩⟩
  · rintro ⟨t, -, h⟩
    obtain ⟨gs, hread, hsame⟩ := readsAs_iff.1 h
    exact areReadable_of_sameAll hsame (himage _ _ _ hread)
  · refine ⟨_, Form.printAll_of_arePrintable (arePrintable_of_areReadable h) true, ?_⟩
    exact readsAs_row (row_renderItems fun f hf => returns_of_isReadable ((areReadable_iff fs).1 h f hf))

/-- Two numbers and a symbol without a gap between them; a symbol with the name of a number is not read back. -/
theorem read_image_numerals :
    let fs : List Form := [.int 1, .int (-2), .symbol "-nil" ⟨1, 3, 1, 7⟩]
    read "1-2-nil" = .ok fs ∧ Form.areReadable fs = true ∧
      ¬∃ t, Form.printAll [.symbol "-2" {}] = .ok t ∧ readsAs t [.symbol "-2" {}] = .ok true := by
  intro fs
  have hread : read "1-2-nil" = .ok fs :=
    read_eq_ok_iff.2 ⟨_, .scalar (x := .int 1) (n := 1) (by decide) (.scalar (x := .int (-2)) (n := 2) (by decide)
      (.scalar (x := .symbol "-nil") (n := 4) (by decide) (.nil _))), by decide⟩
  refine ⟨hread, read_image.1 _ _ _ hread, fun h => ?_⟩
  have hbad := (read_image.2 _).1 h
  exact absurd hbad (by decide)

end Forms

end MalForms
