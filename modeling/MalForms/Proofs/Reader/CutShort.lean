import MalForms.Proofs.Reader.Cut

/-!
# Readable texts that are cut short

* `cutShort_incomplete`: the front of a readable text is readable or is reported as incomplete, but for a cut between
  the colon of a keyword and its name.

An error that is not at the end of a text stays in every longer text (`completable_or_stays`), so the front of a
readable text has none, except that a name may still follow a colon at its end (`cutShort_colon`). A number that has
too many digits has no fewer in a longer text (`read_grows_overlong`), so the front has no such number either.
-/

namespace MalForms

open Lexeme

/-! ## Numbers in a longer text -/

section Numbers

variable {s filename : Text}

theorem length_takeWhile_append (p : CodePoint → Bool) (s t : Text) :
    (s.takeWhile p).length ≤ ((s ++ t).takeWhile p).length := by
  rw [List.takeWhile_append]
  split_ifs with h
  · simp [h]
  · exact Nat.le_refl _

theorem numeralOf_eq_some {b negative : Bool} {r ds : Text} :
    numeralOf b r = some (negative, ds) ↔ b = negative ∧ r = ds ∧ ds ≠ [] := by
  unfold numeralOf
  split_ifs with h
  · simp_all
  · simp only [List.isEmpty_iff] at h
    simp only [Option.some.injEq, Prod.mk.injEq]
    constructor
    · rintro ⟨rfl, rfl⟩
      exact ⟨rfl, rfl, h⟩
    · rintro ⟨rfl, rfl, -⟩
      exact ⟨rfl, rfl⟩

theorem numeralOf_grows {b negative : Bool} {r ds : Text}
    (h : numeralOf b (r.takeWhile Decimal.isDigit) = some (negative, ds)) (t : Text) :
    ∃ ds', numeralOf b ((r ++ t).takeWhile Decimal.isDigit) = some (negative, ds') ∧ ds.length ≤ ds'.length := by
  obtain ⟨rfl, rfl, hne⟩ := numeralOf_eq_some.1 h
  have hle := length_takeWhile_append Decimal.isDigit r t
  have hpos := List.length_pos_iff.2 hne
  have hne' : (r ++ t).takeWhile Decimal.isDigit ≠ [] := List.ne_nil_of_length_pos (by omega)
  exact ⟨_, numeralOf_eq_some.2 ⟨rfl, rfl, hne'⟩, hle⟩

/-- More text makes a numeral no shorter. -/
theorem numeral?_grows {negative : Bool} {ds : Text} (h : numeral? s = some (negative, ds)) (t : Text) :
    ∃ ds', numeral? (s ++ t) = some (negative, ds') ∧ ds.length ≤ ds'.length := by
  obtain _ | ⟨c, r⟩ := s
  · cases h
  by_cases hc : c = '-'
  · subst hc
    rw [numeral?_minus] at h
    rw [List.cons_append, numeral?_minus]
    exact numeralOf_grows h t
  · rw [numeral?_unsigned hc] at h
    rw [List.cons_append, numeral?_unsigned hc]
    exact numeralOf_grows h t

/-- A number with too many digits keeps every longer text from being read. -/
theorem read_grows_overlong {d : Nat} (h : read s filename = .error (.overlong d)) (t : Text) :
    ∃ d', read (s ++ t) filename = .error (.overlong d') := by
  obtain ⟨c, n, -, hx, hstays⟩ := read_append_overlong h t
  obtain ⟨negative, ds, hd, hlt, -⟩ := numeral_of_overlong hx
  obtain ⟨ds', hd', hle⟩ := numeral?_grows hd t
  refine ⟨ds'.length, hstays _ (ds'.length + negative.toNat) ?_⟩
  rw [scalar_numeral hd', numberOf, if_pos (by omega)]

/-- The front of a readable text that is not readable does not fit the grammar: it has no number that is too long. -/
theorem parse_of_front {t : Text} {fs : List Form} (h : read (s ++ t) filename = .ok fs)
    (hs : ∀ gs, read s filename ≠ .ok gs) : ∃ e, read s filename = .error (.parse e) := by
  cases hx : read s filename with
  | ok gs => exact absurd hx (hs gs)
  | error x =>
    cases x with
    | parse e => exact ⟨e, rfl⟩
    | misescaped fault => exact absurd hx (read_ne_misescaped s filename fault)
    | overlong d =>
      obtain ⟨d', hd'⟩ := read_grows_overlong hx t
      cases hd'.symm.trans h

end Numbers

/-! ## The cut -/

section CutShort

variable {s : Text} {e : ParseError}

theorem ParseError.AtLastColon.incomplete (h : e.AtLastColon s) : e.incomplete = false := by
  rw [ParseError.incomplete, h.1]
  rfl

/-- **The front of a readable text is readable or incomplete**, unless it ends in the colon of a keyword: its error is
reported as incomplete if and only if it is not at a colon that ends it. -/
theorem cutShort_incomplete (s t filename : Text) (fs : List Form) (h : read (s ++ t) filename = .ok fs) :
    (∃ gs, read s filename = .ok gs) ∨
      ∃ e, read s filename = .error (.parse e) ∧ (e.incomplete = true ↔ ¬e.AtLastColon s) ∧
        (s.getLast? ≠ some (CodePoint.ofChar ':') → e.incomplete = true) := by
  cases hs : read s filename with
  | ok gs => exact .inl ⟨gs, rfl⟩
  | error x =>
    cases x with
    | overlong d =>
      obtain ⟨d', hd'⟩ := read_grows_overlong hs t
      cases hd'.symm.trans h
    | misescaped f => exact absurd hs (read_ne_misescaped s filename f)
    | parse e =>
      have hiff : e.incomplete = true ↔ ¬e.AtLastColon s := by
        constructor
        · intro hi hcolon
          cases hi.symm.trans hcolon.incomplete
        · intro hcolon
          obtain ⟨hi, -⟩ | ⟨-, hstays⟩ := completable_or_stays hs
          · exact hi
          · obtain ⟨e', he', -⟩ := hstays hcolon t
            cases he'.symm.trans h
      refine .inr ⟨e, rfl, hiff, fun hlast => hiff.2 fun hcolon => hlast ?_⟩
      exact getLast?_of_atLastColon hs hcolon

/-- A list that is cut short within an escape of a string literal. -/
theorem cutShort_incomplete_escape :
    (∃ fs, read (Text.ofString "(\"\\u00" ++ Text.ofString "e9\")") = .ok fs) ∧
      ((∃ gs, read "(\"\\u00" = .ok gs) ∨ ∃ e, read "(\"\\u00" = .error (.parse e) ∧ e.incomplete = true) := by
  have hread : read (Text.ofString "(\"\\u00" ++ Text.ofString "e9\")") =
      .ok [.compound .list [.str [⟨0xE9, by decide⟩]] (some ⟨1, 0, 1, 10⟩)] :=
    read_eq_ok_iff.2 ⟨_, .bracket (s := .list) (by decide)
      (.scalar (x := .str [⟨0xE9, by decide⟩]) (n := 8) (by decide) (.nil _)) (by decide) (.nil _), by decide⟩
  refine ⟨⟨_, hread⟩, ?_⟩
  rcases cutShort_incomplete _ _ _ _ hread with hok | ⟨e, he, -, hlast⟩
  · exact .inl hok
  · exact .inr ⟨e, he, hlast (by decide)⟩

/-- The colon of a keyword is no incomplete text, though a name can follow it. -/
theorem cutShort_colon :
    (∃ fs, read (Text.ofString ":" ++ Text.ofString "a") = .ok fs) ∧
      ∃ e, read ":" = .error (.parse e) ∧ e.incomplete = false := by
  have hread : read (Text.ofString ":" ++ Text.ofString "a") = .ok [.keyword "a" ⟨1, 0, 1, 2⟩] :=
    read_eq_ok_iff.2 ⟨_, .scalar (x := .keyword "a") (n := 2) (by decide) (.nil _), by decide⟩
  have hfail : read ":" = .error (.parse (.atPosition ":" {} [.endOfInput, .form] "<input>")) :=
    read_eq_error_iff.2 ⟨[], _, .breaks (.nil _) .nil
      (step_absent (by decide) (by rintro ⟨_, _, _, hst, -⟩; cases hst) (by decide) (by decide)), rfl⟩
  exact ⟨⟨_, hread⟩, _, hfail, by decide⟩

end CutShort

end MalForms
