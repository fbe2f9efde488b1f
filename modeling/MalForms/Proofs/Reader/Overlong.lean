import MalForms.Proofs.Reader.Reads

/-!
# Texts with a numeral of too many digits

The limit on the digits of a number is no part of the grammar. `HoldsOverlong t` says that some lexeme of `t` is a
numeral with more digits than the limit, whatever the brackets and marks around it: digits in a string, in a comment or
in a name do not count. Only such a text makes the reader give up at a number (`holdsOverlong_of_read`), and one that
begins with the numeral does (`read_digits_overlong`).
-/

namespace MalForms

open Lexeme
open Grammar (afterGap)

/-- Going over the text lexeme by lexeme, one comes to a numeral of too many digits. -/
inductive HoldsOverlong : Text → Prop
  | here {t : Text} {d n : Nat} : Lexeme.scalar (afterGap t) = .overlong d n → HoldsOverlong t
  | scalar {t : Text} {x : Scalar} {n : Nat} : Lexeme.scalar (afterGap t) = .found x n →
      HoldsOverlong ((afterGap t).drop n) → HoldsOverlong t
  | opening {t : Text} {o : Opening} : Opening.ofText? (afterGap t) = some o →
      HoldsOverlong ((afterGap t).drop o.text.length) → HoldsOverlong t
  | closer {t : Text} {s : Shape} : (afterGap t).head? = some s.closer → HoldsOverlong ((afterGap t).drop 1) →
      HoldsOverlong t

/-- A text that holds such a numeral is longer than the limit. -/
theorem length_of_holdsOverlong {t : Text} (h : HoldsOverlong t) : maxDigits < t.length := by
  induction h with
  | @here t d n h =>
    obtain ⟨negative, ds, hd, hlt, -⟩ := numeral_of_overlong h
    obtain ⟨u, v, hs, -, -⟩ := numeral?_split hd
    have hle := length_afterGap_le t
    rw [hs, List.length_append, List.length_append] at hle
    omega
  | @scalar t x n _ _ ih | @opening t n _ _ ih | @closer t n _ _ ih =>
    have hle := length_afterGap_le t
    rw [List.length_drop] at ih
    omega

/-- The gap in front of a text holds no numeral. -/
theorem HoldsOverlong.congr {s t : Text} (h : HoldsOverlong s) (hgap : afterGap s = afterGap t) : HoldsOverlong t := by
  cases h with
  | here h => exact .here (hgap ▸ h)
  | scalar h ho => exact .scalar (hgap ▸ h) (hgap ▸ ho)
  | opening h ho => exact .opening (hgap ▸ h) (hgap ▸ ho)
  | closer h ho => exact .closer (hgap ▸ h) (hgap ▸ ho)

section

variable {c c' c₀ : Cursor} {fs : List Form} {stack : List Frame}

/-- What comes after forms is part of the text. -/
theorem Reads.holdsOverlong (h : Reads c fs c') (ho : HoldsOverlong c'.rest) : HoldsOverlong c.rest := by
  induction h with
  | nil => exact ho
  | scalar hs _ ih => exact .scalar hs (ih ho)
  | bracket hop _ hc _ ihg ih => exact .opening hop (ihg (.closer hc (ih ho)))
  | mark hop _ _ _ ihg ih => exact .opening hop (ihg (ih ho))

theorem Open.holdsOverlong (h : Open c₀ stack c) (ho : HoldsOverlong c.rest) : HoldsOverlong c₀.rest := by
  induction h with
  | nil => exact ho
  | cons _ hop hr _ ih => exact ih (.opening hop (hr.holdsOverlong ho))

end

/-- The reader gives up at a number only if the text holds one with too many digits. -/
theorem holdsOverlong_of_read {t filename : Text} {d : Nat} (h : read t filename = .error (.overlong d)) :
    HoldsOverlong t := by
  obtain ⟨fs, e, hrun, he⟩ := read_eq_error_iff.1 h
  cases hrun with
  | @breaks c₁ c c' stack e hr hop hs =>
    refine hr.holdsOverlong (hop.holdsOverlong ?_)
    cases fails_of_step hs with
    | cutOff | absent | broken => cases he
    | overlong hx => exact .here hx

/-- Too many digits at the front of a text keep it from being read. -/
theorem read_digits_overlong {ds t : Text} (hall : ds.all Decimal.isDigit = true) (hlt : maxDigits < ds.length)
    (ht : Breaks t) (filename : Text) : read (ds ++ t) filename = .error (.overlong ds.length) := by
  have hne : ds ≠ [] := List.ne_nil_of_length_pos (by omega)
  have hnum := numeral?_digits hne hall
  have hx : scalar (ds ++ t) = .overlong ds.length (ds.length + false.toNat) := by
    rw [scalar_numeral_append hnum (.inr ht), scalar_numeral hnum, numberOf, if_pos hlt]
  have hgap : afterGap (ds ++ t) = ds ++ t := by
    obtain ⟨c, r, rfl⟩ := List.exists_cons_of_ne_nil hne
    refine afterGap_cons ?_
    rw [List.all_cons, Bool.and_eq_true] at hall
    cases hc : startsGap c with
    | false => rfl
    | true => cases (symbolChar_of_digit hall.1).symm.trans (not_symbolChar_of_startsGap hc)
  rw [← hgap] at hx
  exact read_eq_error_iff.2 ⟨[], _, .breaks (.nil _) .nil (step_overlong hx), rfl⟩

end MalForms
