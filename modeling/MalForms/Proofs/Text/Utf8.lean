import MalForms.Text.Lines
import MalForms.Text.Utf8

/-!
# Texts in files

* `Utf8.decode_encode`: a text without surrogates comes back from its bytes.
* `Text.unifyLineEnds_eq_self`: a text without carriage returns is not changed by unifying its line ends.

The bytes of a code point are followed through the decoder for each of the four widths (`decodeFrom_bytes`). All
conditions on bytes are first stated on numbers (`width_two` and its siblings, `isTail_iff`, `isSecond_of`), and the rest
is division with remainder.
-/

namespace MalForms

namespace Utf8

/-! ## Bytes as numbers -/

section Bytes

variable {a b : UInt8} {n : Nat}

theorem toNat_toUInt8 (h : n < 256) : n.toUInt8.toNat = n := Nat.mod_eq_of_lt h

theorem width_one (h : a.toNat < 0x80) : width a = 1 := by
  simp [width, UInt8.lt_iff_toNat_lt, h]

theorem width_two (h : 0xC2 ≤ a.toNat) (h' : a.toNat < 0xE0) : width a = 2 := by
  simp [width, UInt8.lt_iff_toNat_lt, h', show ¬a.toNat < 0x80 by omega, Nat.not_lt.2 h]

theorem width_three (h : 0xE0 ≤ a.toNat) (h' : a.toNat < 0xF0) : width a = 3 := by
  simp [width, UInt8.lt_iff_toNat_lt, h', show ¬a.toNat < 0x80 by omega, show ¬a.toNat < 0xC2 by omega, Nat.not_lt.2 h]

theorem width_four (h : 0xF0 ≤ a.toNat) (h' : a.toNat < 0xF5) : width a = 4 := by
  simp [width, UInt8.lt_iff_toNat_lt, h', show ¬a.toNat < 0x80 by omega, show ¬a.toNat < 0xC2 by omega,
    show ¬a.toNat < 0xE0 by omega, Nat.not_lt.2 h]

theorem isTail_iff (b : UInt8) : isTail b = true ↔ 0x80 ≤ b.toNat ∧ b.toNat < 0xC0 := by
  simp [isTail, UInt8.lt_iff_toNat_lt, UInt8.le_iff_toNat_le]

/-- A second byte is a tail that keeps the code point in the range of the first byte. -/
theorem isSecond_of (hb : isTail b = true) (hE0 : a.toNat = 0xE0 → 0xA0 ≤ b.toNat)
    (hED : a.toNat = 0xED → b.toNat < 0xA0) (hF0 : a.toNat = 0xF0 → 0x90 ≤ b.toNat)
    (hF4 : a.toNat = 0xF4 → b.toNat < 0x90) : isSecond a b = true := by
  have hE0' : a.toNat ≠ 0xE0 ∨ 0xA0 ≤ b.toNat := by omega
  have hED' : a.toNat ≠ 0xED ∨ b.toNat < 0xA0 := by omega
  have hF0' : a.toNat ≠ 0xF0 ∨ 0x90 ≤ b.toNat := by omega
  have hF4' : a.toNat ≠ 0xF4 ∨ b.toNat < 0x90 := by omega
  simpa [isSecond, hb, UInt8.lt_iff_toNat_lt, UInt8.le_iff_toNat_le, ← UInt8.toNat_inj, and_assoc] using
    ⟨hE0', hED', hF0', hF4'⟩

end Bytes

/-! ## Bytes and code points -/

section Points

variable {c : CodePoint} {a b b' b'' : UInt8} {rest : List UInt8}

theorem point_eq {lead : Nat} {tails : List UInt8}
    (h : tails.foldl (fun n b => n * 0x40 + (b.toNat - 0x80)) lead = c.val) : point lead tails = c := by
  rw [point, h]
  exact dif_pos c.val_lt

theorem decodeFrom_one (i : Nat) (ha : a.toNat < 0x80) (rest : List UInt8) :
    decodeFrom i (a :: rest) = (decodeFrom (i + 1) rest).map (point a.toNat [] :: ·) := by
  rw [decodeFrom.eq_def i]
  simp only [width_one ha]

theorem decodeFrom_two (i : Nat) (ha : width a = 2) (hb : isSecond a b = true) (rest : List UInt8) :
    decodeFrom i (a :: b :: rest) = (decodeFrom (i + 2) rest).map (point (a.toNat - 0xC0) [b] :: ·) := by
  rw [decodeFrom.eq_def i]
  simp only [ha, hb, if_true]

theorem decodeFrom_three (i : Nat) (ha : width a = 3) (hb : isSecond a b = true) (hb' : isTail b' = true)
    (rest : List UInt8) : decodeFrom i (a :: b :: b' :: rest) =
      (decodeFrom (i + 3) rest).map (point (a.toNat - 0xE0) [b, b'] :: ·) := by
  rw [decodeFrom.eq_def i]
  simp only [ha, hb, hb', Bool.not_true, Bool.false_eq_true, if_false]

theorem decodeFrom_four (i : Nat) (ha : width a = 4) (hb : isSecond a b = true) (hb' : isTail b' = true)
    (hb'' : isTail b'' = true) (rest : List UInt8) : decodeFrom i (a :: b :: b' :: b'' :: rest) =
      (decodeFrom (i + 4) rest).map (point (a.toNat - 0xF0) [b, b', b''] :: ·) := by
  rw [decodeFrom.eq_def i]
  simp only [ha, hb, hb', hb'', Bool.not_true, Bool.false_eq_true, if_false]

/-- **The bytes of a code point are read as the code point**, unless it is a surrogate. -/
theorem decodeFrom_bytes (h : c.isSurrogate = false) (i : Nat) (rest : List UInt8) :
    ∃ j, decodeFrom i (bytes c ++ rest) = (decodeFrom j rest).map (c :: ·) := by
  have hlt := c.val_lt
  have hsurrogate : ¬(0xD800 ≤ c.val ∧ c.val ≤ 0xDFFF) := by
    simpa [CodePoint.isSurrogate] using h
  have htail (unit : Nat) : (0x80 + c.val / unit % 0x40).toUInt8.toNat = 0x80 + c.val / unit % 0x40 :=
    toNat_toUInt8 (by omega)
  have htail' (unit : Nat) : isTail (0x80 + c.val / unit % 0x40).toUInt8 = true := by
    rw [isTail_iff, htail]
    omega
  unfold bytes
  split
  · have ha : c.val.toUInt8.toNat = c.val := toNat_toUInt8 (by omega)
    refine ⟨i + 1, ?_⟩
    rw [List.singleton_append, decodeFrom_one i (by omega), ha, point_eq rfl]
  split
  · have ha : (0xC0 + c.val / 0x40).toUInt8.toNat = 0xC0 + c.val / 0x40 := toNat_toUInt8 (by omega)
    have hpoint : point ((0xC0 + c.val / 0x40).toUInt8.toNat - 0xC0) [(0x80 + c.val / 1 % 0x40).toUInt8] = c := by
      apply point_eq
      simp only [List.foldl_cons, List.foldl_nil, ha, htail]
      omega
    have hsecond : isSecond (0xC0 + c.val / 0x40).toUInt8 (0x80 + c.val / 1 % 0x40).toUInt8 = true := by
      apply isSecond_of (htail' 1) <;> omega
    have hdecode := decodeFrom_two i (width_two (by omega) (by omega)) hsecond rest
    rw [hpoint] at hdecode
    exact ⟨i + 2, hdecode⟩
  split
  · have ha : (0xE0 + c.val / 0x1000).toUInt8.toNat = 0xE0 + c.val / 0x1000 := toNat_toUInt8 (by omega)
    have hb := htail 0x40
    have hpoint : point ((0xE0 + c.val / 0x1000).toUInt8.toNat - 0xE0)
        [(0x80 + c.val / 0x40 % 0x40).toUInt8, (0x80 + c.val / 1 % 0x40).toUInt8] = c := by
      apply point_eq
      simp only [List.foldl_cons, List.foldl_nil, ha, htail]
      omega
    have hsecond : isSecond (0xE0 + c.val / 0x1000).toUInt8 (0x80 + c.val / 0x40 % 0x40).toUInt8 = true := by
      apply isSecond_of (htail' 0x40) <;> omega
    have hdecode := decodeFrom_three i (width_three (by omega) (by omega)) hsecond (htail' 1) rest
    rw [hpoint] at hdecode
    exact ⟨i + 3, hdecode⟩
  · have ha : (0xF0 + c.val / 0x40000).toUInt8.toNat = 0xF0 + c.val / 0x40000 := toNat_toUInt8 (by omega)
    have hb := htail 0x1000
    have hpoint : point ((0xF0 + c.val / 0x40000).toUInt8.toNat - 0xF0) [(0x80 + c.val / 0x1000 % 0x40).toUInt8,
        (0x80 + c.val / 0x40 % 0x40).toUInt8, (0x80 + c.val / 1 % 0x40).toUInt8] = c := by
      apply point_eq
      simp only [List.foldl_cons, List.foldl_nil, ha, htail]
      omega
    have hsecond : isSecond (0xF0 + c.val / 0x40000).toUInt8 (0x80 + c.val / 0x1000 % 0x40).toUInt8 = true := by
      apply isSecond_of (htail' 0x1000) <;> omega
    have hdecode := decodeFrom_four i (width_four (by omega) (by omega)) hsecond (htail' 0x40) (htail' 1) rest
    rw [hpoint] at hdecode
    exact ⟨i + 4, hdecode⟩

theorem decodeFrom_encode {t : Text} (h : ∀ c ∈ t, c.isSurrogate = false) (i : Nat) :
    decodeFrom i (encode t) = .ok t := by
  induction t generalizing i with
  | nil => rfl
  | cons c t ih =>
    obtain ⟨j, hj⟩ := decodeFrom_bytes (h c List.mem_cons_self) i (encode t)
    have hrest := ih (fun c' hc' => h c' (List.mem_cons_of_mem c hc')) j
    rw [encode, List.flatMap_cons, ← encode, hj, hrest]
    rfl

/-- **A text without surrogates comes back from its bytes.** -/
theorem decode_encode {t : Text} (h : ∀ c ∈ t, c.isSurrogate = false) : decode (encode t) = .ok t :=
  decodeFrom_encode h 0

end Points

end Utf8

/-! ## Line ends -/

theorem Text.unifyLineEnds_eq_self {t : Text} (h : CodePoint.ofChar '\r' ∉ t) : t.unifyLineEnds = t := by
  induction t with
  | nil => rfl
  | cons c t ih =>
    rw [List.mem_cons, not_or] at h
    rw [Text.unifyLineEnds.eq_def]
    simp only [if_neg (Ne.symm h.1), ih h.2]

end MalForms
