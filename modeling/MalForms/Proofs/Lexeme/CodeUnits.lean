import MalForms.Proofs.Lexeme.Literal
import Mathlib.Data.List.Chain

/-!
# Code units in string literals

A literal may be written by the code units of its text alone, each with four hexadecimal digits in either case. It denotes
what the units denote in UTF-16 (`decode_escapes`).

* What units denote is the one text that has these units and in which no high surrogate stands directly before a low one
  (`decode_eq_iff`). Reading is greedy from the left: a surrogate that begins no pair is kept, and the text after it
  begins with a low surrogate only if the units after it do (`head_decode`).
* The escapes of units are pieces of their own (`pieces_escapes`), and pieces that are units come to what the units denote
  (`assemble_units`).
-/

namespace MalForms

/-! ## UTF-16 -/

namespace Utf16

section Units

variable {u v : UInt16} {c : CodePoint}

/-- No high surrogate of the text stands directly before a low one. -/
def Joined (s : Text) : Prop := s.IsChain fun a b => ¬(a.isHighSurrogate = true ∧ b.isLowSurrogate = true)

theorem codePoint_ext {a b : CodePoint} (h : a.val = b.val) : a = b := by
  cases a
  cases b
  cases h
  rfl

theorem isHigh_iff : isHigh u = true ↔ 0xD800 ≤ u.toNat ∧ u.toNat ≤ 0xDBFF := by
  simp [isHigh]

theorem isLow_iff : isLow u = true ↔ 0xDC00 ≤ u.toNat ∧ u.toNat ≤ 0xDFFF := by
  simp [isLow]

theorem toNat_toUInt16 {n : Nat} (h : n < 0x10000) : n.toUInt16.toNat = n := Nat.mod_eq_of_lt h

theorem units_single (u : UInt16) : units (single u) = [u] := by
  have hlt : (single u).val < 0x10000 := u.toNat_lt
  rw [units, if_pos hlt]
  simp [single]

theorem val_pair (hu : isHigh u = true) (hv : isLow v = true) :
    (pair u v).val = 0x10000 + (u.toNat - 0xD800) * 0x400 + (v.toNat - 0xDC00) := by
  rw [isHigh_iff] at hu
  rw [isLow_iff] at hv
  rw [pair, CodePoint.ofNat, dif_pos (by omega)]

theorem units_pair (hu : isHigh u = true) (hv : isLow v = true) : units (pair u v) = [u, v] := by
  have hval := val_pair hu hv
  rw [isHigh_iff] at hu
  rw [isLow_iff] at hv
  have hhigh : 0xD800 + ((pair u v).val - 0x10000) / 0x400 = u.toNat := by omega
  have hlow : 0xDC00 + ((pair u v).val - 0x10000) % 0x400 = v.toNat := by omega
  rw [units, if_neg (by omega)]
  simp only [hhigh, hlow]
  simp

/-- A code point is one unit, or a high surrogate and a low one of which it is the pair. -/
theorem units_cases (c : CodePoint) : (∃ u, units c = [u] ∧ single u = c) ∨
    ∃ u v, units c = [u, v] ∧ isHigh u = true ∧ isLow v = true ∧ pair u v = c := by
  have hc := c.val_lt
  by_cases hlt : c.val < 0x10000
  · refine .inl ⟨c.val.toUInt16, by rw [units, if_pos hlt], codePoint_ext (toNat_toUInt16 hlt)⟩
  · have hu := toNat_toUInt16 (n := 0xD800 + (c.val - 0x10000) / 0x400) (by omega)
    have hv := toNat_toUInt16 (n := 0xDC00 + (c.val - 0x10000) % 0x400) (by omega)
    have hhigh : isHigh (0xD800 + (c.val - 0x10000) / 0x400).toUInt16 = true := by
      rw [isHigh_iff, hu]
      omega
    have hlow : isLow (0xDC00 + (c.val - 0x10000) % 0x400).toUInt16 = true := by
      rw [isLow_iff, hv]
      omega
    refine .inr ⟨_, _, by rw [units, if_neg hlt], hhigh, hlow, codePoint_ext ?_⟩
    rw [val_pair hhigh hlow, hu, hv]
    omega

theorem isHighSurrogate_single (u : UInt16) : (single u).isHighSurrogate = isHigh u := rfl

theorem isLowSurrogate_single (u : UInt16) : (single u).isLowSurrogate = isLow u := rfl

theorem isLowSurrogate_pair (hu : isHigh u = true) (hv : isLow v = true) : (pair u v).isLowSurrogate = false := by
  have hval := val_pair hu hv
  rw [CodePoint.isLowSurrogate, Bool.and_eq_false_iff]
  exact .inr (decide_eq_false (by omega))

theorem isHighSurrogate_pair (hu : isHigh u = true) (hv : isLow v = true) : (pair u v).isHighSurrogate = false := by
  have hval := val_pair hu hv
  rw [CodePoint.isHighSurrogate, Bool.and_eq_false_iff]
  exact .inr (decide_eq_false (by omega))

end Units

section Texts

variable {us : List UInt16} {s : Text}

/-- A text of units begins with a low surrogate only if the units do. -/
theorem head_decode {d : CodePoint} (h : (decode us).head? = some d) (hd : d.isLowSurrogate = true) :
    ∃ v, us.head? = some v ∧ isLow v = true := by
  fun_cases decode us with
  | case1 => simp [decode] at h
  | case2 u =>
    obtain rfl : single u = d := by simpa [decode] using h
    exact ⟨u, rfl, hd⟩
  | case3 u v rest hpair =>
    obtain rfl : pair u v = d := by simpa [decode, hpair] using h
    rw [Bool.and_eq_true] at hpair
    rw [isLowSurrogate_pair hpair.1 hpair.2] at hd
    cases hd
  | case4 u v rest hpair =>
    obtain rfl : single u = d := by simpa [decode, hpair] using h
    exact ⟨u, rfl, hd⟩

/-- The text of units has these units. -/
theorem encode_decode (us : List UInt16) : encode (decode us) = us := by
  fun_induction decode us with
  | case1 => rfl
  | case2 u => rw [encode, List.flatMap_singleton, units_single]
  | case3 u v rest hpair ih =>
    rw [Bool.and_eq_true] at hpair
    rw [encode, List.flatMap_cons, units_pair hpair.1 hpair.2, ← encode, ih]
    rfl
  | case4 u v rest hpair ih =>
    rw [encode, List.flatMap_cons, units_single, ← encode, ih]
    rfl

/-- In the text of units, surrogates that make a pair have been joined. -/
theorem joined_decode (us : List UInt16) : Joined (decode us) := by
  fun_induction decode us with
  | case1 => exact .nil
  | case2 u => exact .singleton _
  | case3 u v rest hpair ih =>
    rw [Bool.and_eq_true] at hpair
    refine List.isChain_cons.2 ⟨?_, ih⟩
    rintro d - ⟨hhigh, -⟩
    rw [isHighSurrogate_pair hpair.1 hpair.2] at hhigh
    cases hhigh
  | case4 u v rest hpair ih =>
    refine List.isChain_cons.2 ⟨?_, ih⟩
    rintro d hd ⟨hhigh, hlow⟩
    obtain ⟨w, hw, hlow⟩ := head_decode hd hlow
    cases hw
    exact hpair (Bool.and_eq_true_iff.2 ⟨hhigh, hlow⟩)

/-- The units of a text begin with a low surrogate only if the text does. -/
theorem head_encode {v : UInt16} (h : (encode s).head? = some v) (hv : isLow v = true) :
    ∃ d, s.head? = some d ∧ d.isLowSurrogate = true := by
  cases s with
  | nil => cases h
  | cons d s =>
    refine ⟨d, rfl, ?_⟩
    rw [encode, List.flatMap_cons] at h
    rcases units_cases d with ⟨u, hu, rfl⟩ | ⟨u, w, hu, hhigh, -, -⟩
    · rw [hu] at h
      cases h
      exact hv
    · -- the first unit of a pair is a high surrogate
      rw [hu] at h
      cases h
      rw [isHigh_iff] at hhigh
      rw [isLow_iff] at hv
      omega

theorem decode_single {u : UInt16} (h : ∀ v, us.head? = some v → ¬(isHigh u = true ∧ isLow v = true)) :
    decode (u :: us) = single u :: decode us := by
  cases us with
  | nil => rfl
  | cons v us => rw [decode, if_neg (by rw [Bool.and_eq_true]; exact h v rfl)]

/-- A text without a pair that is not joined comes back from its units. -/
theorem decode_encode (h : Joined s) : decode (encode s) = s := by
  induction s with
  | nil => rfl
  | cons c s ih =>
    obtain ⟨hhead, htail⟩ := List.isChain_cons.1 h
    rw [encode, List.flatMap_cons, ← encode]
    rcases units_cases c with ⟨u, hu, rfl⟩ | ⟨u, v, hu, hhigh, hlow, rfl⟩
    · rw [hu, List.cons_append, List.nil_append, decode_single, ih htail]
      rintro v hv ⟨hhigh, hlow⟩
      obtain ⟨d, hd, hdlow⟩ := head_encode hv hlow
      exact hhead d hd ⟨hhigh, hdlow⟩
    · rw [hu, List.cons_append, List.cons_append, List.nil_append, decode, hhigh, hlow, Bool.and_self, if_pos rfl,
        ih htail]

/-- **What units denote** is the text of these units in which every pair of surrogates is joined. -/
theorem decode_eq_iff : decode us = s ↔ encode s = us ∧ Joined s := by
  constructor
  · rintro rfl
    exact ⟨encode_decode us, joined_decode us⟩
  · rintro ⟨rfl, h⟩
    exact decode_encode h

end Texts

end Utf16

/-! ## Digits in either case -/

namespace Hex

/-- The digit in lower case. -/
def lower (c : CodePoint) : CodePoint := if 0x41 ≤ c.val ∧ c.val ≤ 0x46 then .ofNat (c.val + 0x20) else c

theorem val_lower (c : CodePoint) :
    (lower c).val = if 0x41 ≤ c.val ∧ c.val ≤ 0x46 then c.val + 0x20 else c.val := by
  unfold lower
  split_ifs with h
  · rw [CodePoint.ofNat, dif_pos (by omega)]
  · rfl

theorem isDigit_iff (c : CodePoint) : isDigit c = true ↔
    (0x30 ≤ c.val ∧ c.val ≤ 0x39) ∨ (0x41 ≤ c.val ∧ c.val ≤ 0x46) ∨ (0x61 ≤ c.val ∧ c.val ≤ 0x66) := by
  simp [isDigit, or_assoc]

theorem isDigit_lower (c : CodePoint) : isDigit (lower c) = isDigit c := by
  rw [Bool.eq_iff_iff, isDigit_iff, isDigit_iff, val_lower]
  split_ifs <;> omega

theorem digitValue_lower (c : CodePoint) : digitValue (lower c) = digitValue c := by
  unfold digitValue
  rw [val_lower]
  split_ifs <;> omega

theorem all_lower (ds : Text) : (ds.map lower).all isDigit = ds.all isDigit := by
  simp [List.all_map, Function.comp_def, isDigit_lower]

theorem value_lower (ds : Text) : value (ds.map lower) = value ds := by
  simp only [value, List.foldl_map, digitValue_lower]

end Hex

/-! ## Literals -/

namespace Escape

section Literals

variable {us : List UInt16} {dss : List Text}

/-- The digits write the unit, each of them in either case. -/
def Writes (ds : Text) (u : UInt16) : Prop := ds.map Hex.lower = Hex.digits 4 u.toNat

/-- The body of a literal with an escape for each group of digits. -/
def escapes (dss : List Text) : Text := dss.flatMap fun ds => '\\' :: 'u' :: ds

theorem Writes.digits {ds : Text} {u : UInt16} (h : Writes ds u) :
    ds.length = 4 ∧ ds.all Hex.isDigit = true ∧ (Hex.value ds).toUInt16 = u := by
  refine ⟨?_, ?_, ?_⟩
  · rw [← List.length_map Hex.lower, h, Hex.length_digits]
  · rw [← Hex.all_lower, h, Lexeme.all_digits]
  · rw [← Hex.value_lower, h, Lexeme.value_digits u.toNat_lt]
    simp

/-- The escapes of units are read as the units. -/
theorem pieces_escapes (h : List.Forall₂ Writes dss us) (i : Nat) : pieces i (escapes dss) = .ok (us.map .unit) := by
  induction h generalizing i with
  | nil => rfl
  | @cons ds u dss us hds _ ih =>
    obtain ⟨hlength, hall, hvalue⟩ := hds.digits
    rw [escapes, List.flatMap_cons, ← escapes]
    show pieces i ('\\' :: 'u' :: (ds ++ escapes dss)) = _
    rw [Lexeme.pieces_unit hlength hall, ih, hvalue]
    rfl

theorem assemble_units (us : List UInt16) : assemble (us.map .unit) = Utf16.decode us := by
  fun_induction Utf16.decode us with
  | case1 | case2 => rfl
  | case3 u v rest hpair ih => rw [List.map_cons, List.map_cons, assemble, if_pos hpair, ih]
  | case4 u v rest hpair ih => rw [List.map_cons, List.map_cons, assemble, if_neg hpair, ← List.map_cons, ih]

/-- **Escapes of code units are read as UTF-16.** A literal in which each unit is written by its digits, in either case,
denotes what the units denote: the one text that has these units and in which no high surrogate stands directly before a
low one. -/
theorem decode_escapes (us : List UInt16) (dss : List Text) (h : List.Forall₂ Writes dss us) :
    decode (escapes dss) = .ok (Utf16.decode us) ∧
      ∀ s, decode (escapes dss) = .ok s ↔ Utf16.encode s = us ∧ Utf16.Joined s := by
  have hdecode : decode (escapes dss) = .ok (Utf16.decode us) := by
    rw [decode, pieces_escapes h, ← assemble_units]
    rfl
  refine ⟨hdecode, fun s => ?_⟩
  rw [hdecode, Except.ok.injEq]
  exact Utf16.decode_eq_iff

/-- Two high surrogates and then two low ones: the two in the middle are a pair, the others stand alone. -/
theorem decode_escapes_surrogates :
    let dss : List Text := [("D83d" : Text), ("d83D" : Text), ("de00" : Text), ("DE00" : Text)]
    List.Forall₂ Writes dss [0xD83D, 0xD83D, 0xDE00, 0xDE00] ∧
      decode (escapes dss) = .ok [⟨0xD83D, by decide⟩, ⟨0x1F600, by decide⟩, ⟨0xDE00, by decide⟩] := by
  intro dss
  have hwrites : List.Forall₂ Writes dss [0xD83D, 0xD83D, 0xDE00, 0xDE00] := by
    refine .cons ?_ (.cons ?_ (.cons ?_ (.cons ?_ .nil))) <;> unfold Writes <;> decide
  have hunits : Utf16.decode [0xD83D, 0xD83D, 0xDE00, 0xDE00] =
      [⟨0xD83D, by decide⟩, ⟨0x1F600, by decide⟩, ⟨0xDE00, by decide⟩] := by decide
  exact ⟨hwrites, (decode_escapes _ dss hwrites).1.trans (congrArg _ hunits)⟩

end Literals

end Escape

end MalForms
