import MalForms.Grammar
import Mathlib.Data.List.Basic

/-!
# Gaps

Separators and comments between lexemes, and what becomes of them when more text follows.

* What comes after a gap starts no gap (`head_afterGap`), so passing over gaps twice is passing over them once
  (`afterGap_afterGap`).
* A gap that ends inside a text is the same in every longer text (`afterGap_append`); a text that is a gap throughout,
  with a line feed after it, is passed over whole, even if it ends in a comment (`afterGap_append_newline`).
-/

namespace MalForms.Lexeme

open Grammar (afterGap)

/-- Whether the code point starts a gap. -/
def startsGap (c : CodePoint) : Bool := isSeparator c || c = commentMark

/-- Whether a comment is open after a code point of a gap; none if the gap ends before it. -/
def gapStep (inComment : Bool) (c : CodePoint) : Option Bool :=
  if inComment then some !isLineEnd c
  else if isSeparator c then some false
  else if c = commentMark then some true
  else none

theorem gapLength_cons (b : Bool) (c : CodePoint) (t : Text) :
    gapLength b (c :: t) = match gapStep b c with
      | none => 0
      | some b' => gapLength b' t + 1 := by
  rw [gapLength, gapStep]
  split_ifs <;> rfl

/-- A gap ends before a code point that starts none, outside a comment. -/
theorem startsGap_of_gapStep {b : Bool} {c : CodePoint} (h : gapStep b c = none) : startsGap c = false := by
  unfold gapStep at h
  split_ifs at h with hb hs hc
  simp [startsGap, hs, hc]

theorem not_symbolChar_of_startsGap {c : CodePoint} (h : startsGap c = true) : isSymbolChar c = false := by
  simp only [startsGap, Bool.or_eq_true, decide_eq_true_eq] at h
  rcases h with h | h <;> simp [isSymbolChar, h]

theorem gapLength_le (b : Bool) (t : Text) : gapLength b t ≤ t.length := by
  induction t generalizing b with
  | nil => exact Nat.zero_le _
  | cons c t ih =>
    rw [gapLength_cons]
    cases gapStep b c with
    | none => exact Nat.zero_le _
    | some b' => exact Nat.succ_le_succ (ih b')

/-! ## What comes after a gap -/

theorem head_drop_gapLength {b : Bool} {t rest : Text} {c : CodePoint} (h : t.drop (gapLength b t) = c :: rest) :
    startsGap c = false := by
  induction t generalizing b with
  | nil => cases h
  | cons d t ih =>
    rw [gapLength_cons] at h
    cases hd : gapStep b d with
    | none =>
      rw [hd] at h
      obtain ⟨rfl, -⟩ := List.cons.inj h
      exact startsGap_of_gapStep hd
    | some b' =>
      rw [hd] at h
      exact ih h

/-- What comes after a gap starts no gap. -/
theorem head_afterGap {t rest : Text} {c : CodePoint} (h : afterGap t = c :: rest) : startsGap c = false :=
  head_drop_gapLength h

/-- A text that does not start with a gap stays as it is. -/
theorem afterGap_cons {c : CodePoint} {t : Text} (h : startsGap c = false) : afterGap (c :: t) = c :: t := by
  simp only [startsGap, Bool.or_eq_false_iff, decide_eq_false_iff_not] at h
  simp [afterGap, gapLength, h.1, h.2]

@[simp] theorem afterGap_afterGap (t : Text) : afterGap (afterGap t) = afterGap t := by
  cases h : afterGap t with
  | nil => rfl
  | cons c rest => exact afterGap_cons (head_afterGap h)

theorem afterGap_separator {c : CodePoint} (hc : isSeparator c = true) (t : Text) :
    afterGap (c :: t) = afterGap t := by
  simp [afterGap, gapLength, hc]

/-- Separators belong to the gap. -/
theorem afterGap_separators {s : Text} (h : s.all isSeparator = true) (t : Text) : afterGap (s ++ t) = afterGap t := by
  induction s with
  | nil => rfl
  | cons c s ih =>
    rw [List.all_cons, Bool.and_eq_true] at h
    rw [List.cons_append, afterGap_separator h.1, ih h.2]

/-- A comment goes up to the end of its line. -/
theorem gapLength_comment {b : Text} {e : CodePoint} (hb : ∀ c ∈ b, isLineEnd c = false) (he : isLineEnd e = true)
    (t : Text) : gapLength true (b ++ e :: t) = b.length + (gapLength false t + 1) := by
  induction b with
  | nil => simp [gapLength, he]
  | cons c b ih =>
    have hc := hb c List.mem_cons_self
    have ih := ih fun d hd => hb d (List.mem_cons_of_mem c hd)
    simp only [List.cons_append, gapLength, if_true, hc, Bool.not_false, ih, List.length_cons]
    omega

/-- A comment with the end of its line belongs to the gap. -/
theorem afterGap_comment {b : Text} {e : CodePoint} (hb : ∀ c ∈ b, isLineEnd c = false) (he : isLineEnd e = true)
    (t : Text) : afterGap (commentMark :: (b ++ e :: t)) = afterGap t := by
  have hsep : isSeparator commentMark = false := by decide
  have hlen : gapLength false (commentMark :: (b ++ e :: t)) = b.length + (gapLength false t + 1) + 1 := by
    simp [gapLength, hsep, gapLength_comment hb he]
  rw [afterGap, hlen, List.drop_succ_cons, List.drop_length_add_append]
  rfl

theorem length_afterGap_le (t : Text) : (afterGap t).length ≤ t.length := by
  rw [afterGap, List.length_drop]
  exact Nat.sub_le _ _

/-! ## Gaps in a longer text -/

theorem gapLength_append {b : Bool} {s : Text} (h : gapLength b s < s.length) (t : Text) :
    gapLength b (s ++ t) = gapLength b s := by
  induction s generalizing b with
  | nil => cases h
  | cons c s ih =>
    rw [gapLength_cons] at h
    rw [List.cons_append, gapLength_cons, gapLength_cons]
    cases hc : gapStep b c with
    | none => rfl
    | some b' =>
      rw [hc] at h
      exact congrArg (· + 1) (ih (Nat.lt_of_succ_lt_succ h))

/-- A line feed ends the comment that a gap may be in, and the gap goes on after it. -/
theorem gapLength_append_newline {b : Bool} {s : Text} (h : gapLength b s = s.length) (t : Text) :
    gapLength b (s ++ CodePoint.ofChar '\n' :: t) = s.length + (gapLength false t + 1) := by
  induction s generalizing b with
  | nil =>
    have hn : gapStep b '\n' = some false := by cases b <;> decide
    rw [List.nil_append, gapLength_cons, hn, List.length_nil, Nat.zero_add]
  | cons c s ih =>
    rw [gapLength_cons] at h
    rw [List.cons_append, gapLength_cons]
    cases hc : gapStep b c with
    | none => rw [hc] at h; cases h
    | some b' =>
      rw [hc] at h
      show gapLength b' (s ++ CodePoint.ofChar '\n' :: t) + 1 = s.length + 1 + (gapLength false t + 1)
      rw [ih (Nat.succ.inj h)]
      omega

theorem gapLength_of_afterGap_nil {t : Text} (h : afterGap t = []) : gapLength false t = t.length :=
  Nat.le_antisymm (gapLength_le _ _) (List.drop_eq_nil_iff.1 h)

/-- A gap that ends inside a text is the same in every longer text. -/
theorem afterGap_append {s : Text} (h : afterGap s ≠ []) (t : Text) : afterGap (s ++ t) = afterGap s ++ t := by
  have hlt : gapLength false s < s.length := Nat.lt_of_not_le fun hle => h (List.drop_eq_nil_iff.2 hle)
  rw [afterGap, gapLength_append hlt, afterGap, List.drop_append_of_le_length (Nat.le_of_lt hlt)]

/-- A text that is a gap throughout is passed over whole if a line feed follows it. -/
theorem afterGap_append_newline {s : Text} (h : afterGap s = []) (t : Text) :
    afterGap (s ++ CodePoint.ofChar '\n' :: t) = afterGap t := by
  rw [afterGap, gapLength_append_newline (gapLength_of_afterGap_nil h), afterGap, List.drop_length_add_append]
  rfl

end MalForms.Lexeme
