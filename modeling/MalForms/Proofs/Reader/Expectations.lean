import MalForms.Proofs.Reader.Completion
import MalForms.Proofs.Reader.Restriction
import Mathlib.Data.List.Nodup

/-!
# Reports are true

* `report_truthful`: the error of a text is at a place of it, names what is expected there in order and without
  repetition, and says that the text is incomplete if and only if the place is its end. Everything it names could really
  have come at that place: there is a readable text that starts as the source does up to there and goes on with it.

Proof: what the reader knows at the place of a failure, it knows without the text behind it (`open_before`). So the text
up to there ends after a gap in an open stack, or within a literal. In the first case a symbol, the bracket of the
innermost frame or, outside all frames, the end can come (`canFollow_expectedIn`); in the second, what ends the state of
the scan (`canFollow_expects`). What is still open is closed after that.
-/

namespace MalForms

open Lexeme

/-! ## Names in order -/

section Names

theorem Text.le_total (s t : Text) : (le s t || le t s) = true := by
  induction s generalizing t with
  | nil => simp [le]
  | cons a s ih =>
    cases t with
    | nil => simp [le]
    | cons b t =>
      by_cases hab : a.val = b.val
      · simp [le, hab, ih t]
      · have hba : ¬b.val = a.val := fun h => hab h.symm
        simp only [le, hab, hba, if_false, Bool.or_eq_true, decide_eq_true_eq]
        omega

theorem Text.le_trans (s t u : Text) (hst : le s t = true) (htu : le t u = true) : le s u = true := by
  induction s generalizing t u with
  | nil => simp [le]
  | cons a s ih =>
    cases t with
    | nil => simp [le] at hst
    | cons b t =>
      cases u with
      | nil => simp [le] at htu
      | cons c u =>
        unfold le at hst htu ⊢
        split_ifs at hst htu ⊢ with hab hbc hac
        · exact ih t u hst htu
        all_goals simp only [decide_eq_true_eq] at hst htu ⊢
        all_goals omega

namespace Expectation

/-- All that can be expected. -/
def all : List Expectation :=
  [form, endOfInput, closer .list, closer .vector, closer .map, quote, escape, hexDigit]

theorem mem_all (x : Expectation) : x ∈ all := by
  cases x with
  | closer s => cases s <;> decide
  | _ => decide

/-- Different things that can be expected have different names. -/
theorem name_injective : Function.Injective name := by
  have hinj : ∀ x ∈ all, ∀ y ∈ all, name x = name y → x = y := by decide
  intro x y
  exact hinj x (mem_all x) y (mem_all y)

end Expectation

theorem expectedIn_nodup (stack : List Frame) : (expectedIn stack).Nodup ∧ expectedIn stack ≠ [] := by
  cases stack with
  | nil => decide
  | cons f below =>
    show f.expected.Nodup ∧ f.expected ≠ []
    unfold Frame.expected
    split
    · simp
    · simp

/-- A report has the names of what was expected. -/
theorem mem_expected {src filename : Text} {p : Position} {ex : List Expectation} {n : Text} :
    n ∈ (ParseError.atPosition src p ex filename).expected ↔ ∃ x ∈ ex, x.name = n := by
  show n ∈ (ex.map Expectation.name).mergeSort Text.le ↔ _
  rw [List.mem_mergeSort, List.mem_map]

end Names

/-! ## The text before a failure -/

section Before

variable {src : Text} {c c₀ : Cursor} {stack : List Frame} {fs : List Form}

/-- The source up to a place after a cursor. -/
theorem take_stands (h : c.Stands src) :
    ∃ before, src = before ++ c.rest ∧ ∀ n, src.take (c.advance n).pos.offset = before ++ c.rest.take n := by
  obtain ⟨before, hs, hp⟩ := h
  refine ⟨before, hs, fun n => ?_⟩
  have hoff : (c.advance n).pos.offset = before.length + (c.rest.take n).length := by
    rw [Cursor.advance, Position.offset_after, hp, Position.offset_after]
    exact congrArg (· + _) (Nat.zero_add _)
  rw [hoff, hs, List.take_length_add_append]
  simp

/-- **The frames that are open before a lexeme are open there if the text ends in it**, or right before it. -/
theorem open_before (hr : Reads (.start src) fs c₀) (ho : Open c₀ stack c) (n : Nat) :
    ∃ d₀ d, Reads (.start (src.take (c.skipGap.advance n).pos.offset)) fs d₀ ∧ Open d₀ stack d ∧
      d.skipGap.rest = c.skipGap.rest.take n := by
  obtain ⟨before, hs, htake⟩ := take_stands (ho.stands (hr.stands (stands_start src)))
  let k := gapLength false c.rest + n
  have hsplit : c.rest.take k ++ c.rest.drop k = c.rest := List.take_append_drop k c.rest
  have hcursor : c = ⟨c.pos, c.rest.take k ++ c.rest.drop k⟩ := by rw [hsplit]
  rw [hs, ← hsplit] at hr
  rw [hcursor] at ho
  obtain ⟨d₀, hr', ho'⟩ := open_front hr ho
  refine ⟨d₀, _, ?_, ho', ?_⟩
  · rw [Cursor.skipGap, Cursor.advance_advance, htake]
    exact hr'
  · exact afterGap_take c.rest n

end Before

/-! ## What can follow -/

section Follow

variable {s : Text} {c c₀ : Cursor} {f : Frame} {stack below : List Frame} {fs : List Form}

/-- What is expected can come after the text: the text can be read if it ends there, or it goes on, as a readable text,
on the next line with a symbol or a bracket, or at once with a quote, the letter of an escape or a digit. -/
def Expectation.CanFollow (s : Text) : Expectation → Prop
  | endOfInput => ∃ fs, read s = .ok fs
  | form => ∃ t fs, read (s ++ CodePoint.ofChar '\n' :: CodePoint.ofChar 'x' :: t) = .ok fs
  | closer b => ∃ t fs, read (s ++ CodePoint.ofChar '\n' :: b.closer :: t) = .ok fs
  | quote => ∃ t fs, read (s ++ Escape.quote :: t) = .ok fs
  | escape => ∃ t fs, read (s ++ CodePoint.ofChar 'n' :: t) = .ok fs
  | hexDigit => ∃ d t fs, Hex.isDigit d = true ∧ read (s ++ d :: t) = .ok fs

/-- A text that ends in an open bracket is completed by the closing one on the next line and by what closes all frames
below. -/
theorem completable_of_bracket {b : Shape} (hr : Reads (.start s) fs c₀) (h : Open c₀ (f :: below) c)
    (hf : f.opening = .bracket b) (hc : c.skipGap.rest = []) :
    ∃ fs, read (s ++ CodePoint.ofChar '\n' :: b.closer :: closing below) = .ok fs := by
  let t : Text := CodePoint.ofChar '\n' :: b.closer :: closing below
  have ht : Breaks t := breaks_separator (by decide) _
  have hgap : (c.extend t).skipGap.rest = b.closer :: closing below := by
    rw [rest_skipGap, Cursor.rest_extend, afterGap_append_newline hc, afterGap_cons (by cases b <;> decide)]
  obtain ⟨c₁, hb, hg⟩ := reads_of_closer (h.extend (t := t) (.inr ht)) hf (by rw [hgap]; rfl)
  refine read_of_closing (hr.extend (.inr ht)) hb hg ?_
  rw [Cursor.rest_advance, hgap]
  rfl

/-- Where a text ends after a gap, all that the innermost frame expects can follow. -/
theorem canFollow_expectedIn (hr : Reads (.start s) fs c₀) (h : Open c₀ stack c) (hc : c.skipGap.rest = [])
    {x : Expectation} (hx : x ∈ expectedIn stack) : x.CanFollow s := by
  have hform : Expectation.form.CanFollow s := ⟨_, completable_of_cutOff hr h hc _⟩
  cases stack with
  | nil =>
    simp only [expectedIn, List.mem_cons, List.not_mem_nil, or_false] at hx
    rcases hx with rfl | rfl
    · cases h
      exact ⟨fs, read_eq_ok_iff.2 ⟨_, hr, hc⟩⟩
    · exact hform
  | cons f below =>
    have hx' : x ∈ f.expected := hx
    unfold Frame.expected at hx'
    split at hx'
    · rename_i b hf
      simp only [List.mem_cons, List.not_mem_nil, or_false] at hx'
      rcases hx' with rfl | rfl
      · exact ⟨_, completable_of_bracket hr h hf hc⟩
      · exact hform
    · obtain rfl := List.mem_singleton.1 hx'
      exact hform

/-- Where a text ends within a literal, what the scan waits for can follow. -/
theorem canFollow_expects {state : StringState} {u : Text}
    (h : ∃ fs, read (s ++ (state.ending ++ Escape.quote :: u)) = .ok fs) : state.expects.CanFollow s := by
  cases state with
  | plain => exact ⟨_, h⟩
  | escaped => exact ⟨_, h⟩
  | unit left =>
    obtain ⟨fs, hread⟩ := h
    exact ⟨CodePoint.ofChar '0', _, fs, by decide, hread⟩

end Follow

/-! ## Reports -/

section Reports

variable {src filename : Text} {e : ParseError}

/-- The report is well placed and true. -/
structure ParseError.Truthful (e : ParseError) (src : Text) : Prop where
  /-- The place is in the source or at its end. -/
  inside : 0 ≤ e.pos ∧ e.pos ≤ src.length
  /-- Something is expected. -/
  nonempty : e.expected ≠ []
  sorted : e.expected.Pairwise fun a b => Text.le a b = true
  nodup : e.expected.Nodup
  /-- The source is incomplete if it breaks off at its end. -/
  incomplete_iff : e.incomplete = true ↔ e.pos = src.length
  /-- Each name is the name of something that can be expected. -/
  named : ∀ n ∈ e.expected, ∃ x : Expectation, x.name = n
  /-- What is named can come at the place. -/
  canFollow : ∀ x : Expectation, x.name ∈ e.expected → x.CanFollow (src.take e.pos.toNat)

/-- The report of a failure at a place of the source is true if what was expected there could come. -/
theorem truthful_atPosition {c : Cursor} (hc : c.Stands src) {ex : List Expectation} (hne : ex ≠ []) (hex : ex.Nodup)
    (hfollow : ∀ x ∈ ex, x.CanFollow (src.take c.pos.offset)) (filename : Text) :
    (ParseError.atPosition src c.pos ex filename).Truthful src := by
  have hlen := offset_of_stands hc
  have hpos : (ParseError.atPosition src c.pos ex filename).pos = c.pos.offset := rfl
  constructor
  · rw [hpos]
    omega
  · obtain ⟨x, ex, rfl⟩ := List.exists_cons_of_ne_nil hne
    apply List.ne_nil_of_mem (a := x.name)
    exact mem_expected.2 ⟨x, List.mem_cons_self, rfl⟩
  · exact List.pairwise_mergeSort Text.le_trans Text.le_total _
  · apply (List.mergeSort_perm _ Text.le).nodup_iff.2
    exact hex.map Expectation.name_injective
  · rw [incomplete_atPosition hc, hpos, ← List.length_eq_zero_iff]
    omega
  · intro n hn
    obtain ⟨x, -, hx⟩ := mem_expected.1 hn
    exact ⟨x, hx⟩
  · intro x hx
    obtain ⟨y, hy, hxy⟩ := mem_expected.1 hx
    obtain rfl := Expectation.name_injective hxy
    exact hfollow y hy

/-- **Reports are true**: the error of a text is at a place of it, with its names in order, and each of them is the name
of something that could come there. -/
theorem report_truthful (src filename : Text) (e : ParseError) (h : read src filename = .error (.parse e)) :
    e.Truthful src := by
  obtain ⟨fs, c₀, c, c', stack, p, ex, hr, ho, hstand, hs, rfl⟩ := failure_of_read h
  have hgap : c.skipGap.Stands src := hstand.advance _
  obtain ⟨hnodup, hne⟩ := expectedIn_nodup stack
  -- after a gap: the end of the text, or a code point that starts no form
  have hafterGap : (ParseError.atPosition src c.skipGap.pos (expectedIn stack) filename).Truthful src := by
    obtain ⟨d₀, d, hr', ho', hd⟩ := open_before hr ho 0
    exact truthful_atPosition hgap hne hnodup (fun x hx => canFollow_expectedIn hr' ho' hd hx) filename
  cases fails_of_step hs with
  | cutOff hst hc =>
    rw [hst] at hafterGap
    exact hafterGap
  | absent => exact hafterGap
  | @broken n x hx =>
    obtain ⟨d₀, d, hr', ho', hd⟩ := open_before hr ho n
    obtain ⟨hbroken, hle⟩ := scalar_take_broken hx
    rw [← hd] at hbroken
    have hend : d.skipGap.rest.length ≤ n := by
      rw [hd, List.length_take]
      exact Nat.min_le_left _ _
    obtain ⟨state, rfl, hread⟩ := completable_of_broken hr' ho' hbroken hend "<input>"
    refine truthful_atPosition (hgap.advance n) (List.cons_ne_nil _ _) (List.nodup_singleton _) ?_ filename
    intro y hy
    obtain rfl := List.mem_singleton.1 hy
    exact canFollow_expects hread

/-- A brace cannot close a vector in a list, but the bracket of the vector can come in its place. -/
theorem report_truthful_vector :
    ∃ e, read "([a\x7d" = .error (.parse e) ∧ e.pos = 3 ∧ e.incomplete = false ∧
      ∃ t fs, read (Text.ofString "([a" ++ CodePoint.ofChar '\n' :: CodePoint.ofChar ']' :: t) = .ok fs := by
  have hlist : Open (.start "([a\x7d") [⟨.bracket .list, {}, []⟩] ⟨⟨1, 1, 1⟩, "[a\x7d"⟩ :=
    .cons (o := .bracket .list) .nil (by decide) (.nil _) rfl
  let stack : List Frame :=
    [⟨.bracket .vector, ⟨1, 1, 1⟩, [.symbol "a" ⟨1, 2, 1, 3⟩]⟩, ⟨.bracket .list, {}, []⟩]
  have hvector : Open (.start "([a\x7d") stack ⟨⟨3, 1, 3⟩, "\x7d"⟩ :=
    .cons (o := .bracket .vector) hlist (by decide) (.scalar (x := .symbol "a") (n := 1) (by decide) (.nil _)) rfl
  have hopen : ¬Closing stack (⟨⟨3, 1, 3⟩, "\x7d"⟩ : Cursor).skipGap := by
    rintro ⟨f, below, b, hst, hf, hhead⟩
    obtain ⟨rfl, -⟩ := List.cons.inj hst
    cases hf
    exact absurd hhead (by decide)
  have hread : read "([a\x7d" =
      .error (.parse (.atPosition "([a\x7d" ⟨3, 1, 3⟩ [.closer .vector, .form] "<input>")) :=
    read_eq_error_iff.2 ⟨[], _, .breaks (.nil _) hvector (step_absent (by decide) hopen (by decide) (by decide)), rfl⟩
  have htrue := report_truthful _ _ _ hread
  refine ⟨_, hread, rfl, by decide, ?_⟩
  exact htrue.canFollow (.closer .vector) (mem_expected.2 ⟨_, List.mem_cons_self, rfl⟩)

end Reports

end MalForms
