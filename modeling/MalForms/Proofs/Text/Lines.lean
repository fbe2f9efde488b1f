import MalForms.Text.Lines
import Mathlib.Data.List.Basic

/-!
# Offsets and places

A place that a text leads to is on the line that its offset is on: `offsetOf?` finds the offset of a line and a column
through the offsets at which the lines start, and gives back the offset of every place in the text (`offsetOf?_after`).
-/

namespace MalForms

/-- The offset of a line and a column: the offset at which the line starts, and the column. -/
def Text.offsetOf? (t : Text) (line col : Int) : Option Int :=
  if line < 1 then none else (t.lineStarts[(line - 1).toNat]?).map fun (start : Nat) => start + col

namespace Position

variable (p : Position)

theorem offset_after (t : Text) : (p.after t).offset = p.offset + t.length := by
  induction t generalizing p with
  | nil => rfl
  | cons c t ih =>
    have hnext : (p.next c).offset = p.offset + 1 := by
      rw [next]
      split <;> rfl
    show ((p.next c).after t).offset = _
    rw [ih, hnext, List.length_cons]
    omega

theorem line_after (t : Text) : (p.after t).line = p.line + t.count (CodePoint.ofChar '\n') := by
  induction t generalizing p with
  | nil => rfl
  | cons c t ih =>
    show ((p.next c).after t).line = _
    rw [ih, next]
    by_cases hc : c = CodePoint.ofChar '\n'
    · rw [if_pos hc, hc, List.count_cons_self]
      exact Nat.add_right_comm _ _ _
    · rw [if_neg hc, List.count_cons_of_ne hc]

/-- No place has a column beyond its offset. -/
theorem col_le_offset_after (h : p.col ≤ p.offset) (u : Text) : (p.after u).col ≤ (p.after u).offset := by
  induction u generalizing p with
  | nil => exact h
  | cons c u ih =>
    refine ih (p.next c) ?_
    unfold next
    split
    · exact Nat.zero_le _
    · exact Nat.succ_le_succ h

theorem line_le_after (u : Text) : p.line ≤ (p.after u).line := by
  rw [line_after]
  exact Nat.le_add_right _ _

/-- The line of a place starts as far before it as its column says. The lines are those of the text from `p` on, the
line of `p` first. -/
theorem lineStart_after (h : p.col ≤ p.offset) (u v : Text) :
    ((p.offset - p.col) :: Text.lineStartsFrom p.offset (u ++ v))[(p.after u).line - p.line]? =
      some ((p.after u).offset - (p.after u).col) := by
  induction u generalizing p with
  | nil =>
    rw [show p.after [] = p from rfl, Nat.sub_self]
    rfl
  | cons c u ih =>
    have hle := line_le_after (p.next c) u
    rw [List.cons_append, Text.lineStartsFrom]
    by_cases hc : c = '\n'
    · have hn : p.next c = ⟨p.offset + 1, p.line + 1, 0⟩ := if_pos hc
      have ih' := ih (p.next c) (by rw [hn]; exact Nat.zero_le _)
      rw [if_pos hc, show p.after (c :: u) = (p.next c).after u from rfl, ← ih', hn]
      rw [hn] at hle
      have hline : ((⟨p.offset + 1, p.line + 1, 0⟩ : Position).after u).line - p.line =
          ((⟨p.offset + 1, p.line + 1, 0⟩ : Position).after u).line - (p.line + 1) + 1 := by
        simp only at hle
        omega
      rw [hline]
      rfl
    · have hn : p.next c = ⟨p.offset + 1, p.line, p.col + 1⟩ := if_neg hc
      have ih' := ih (p.next c) (by rw [hn]; exact Nat.succ_le_succ h)
      rw [if_neg hc, show p.after (c :: u) = (p.next c).after u from rfl, ← ih', hn]
      simp

end Position

/-- **The line and the column of a place lead back to its offset.** -/
theorem offsetOf?_after (u v : Text) :
    (u ++ v).offsetOf? (({} : Position).after u).line (({} : Position).after u).col =
      some ((({} : Position).after u).offset : Int) := by
  have hline := Position.line_le_after {} u
  have hcol := Position.col_le_offset_after {} (Nat.le_refl _) u
  have hstart : (u ++ v).lineStarts[(({} : Position).after u).line - 1]? = _ :=
    Position.lineStart_after {} (Nat.le_refl _) u v
  generalize ({} : Position).after u = q at hline hcol hstart ⊢
  have hindex : ((q.line : Int) - 1).toNat = q.line - 1 := by omega
  rw [Text.offsetOf?, if_neg (by simp only at hline; omega), hindex, hstart]
  simp only [Option.map_some, Option.some.injEq]
  omega

end MalForms
