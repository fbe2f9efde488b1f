import MalForms.Proofs.Reader.Extension

/-!
# Reading a shorter text

What is read at the beginning of a text stays when the text after it is taken away: no lexeme looks beyond its end,
except to see that it ends there.

* `scalar_of_append`, `ofText?_of_append`: a lexeme that ends inside a text is the same in the text that is cut off
  there or later.
* `Reads.restrict`: the forms that stand between two cursors stand there without what comes after the second one.
* `Open.restrict`: the frames that are open at a cursor are open there without what comes after it.
* `afterGap_take`, `scalar_take_broken`: the gap in front of a lexeme, and a literal that breaks off, in the text that
  is cut off there.
-/

namespace MalForms

open Lexeme

/-! ## Lexemes in a shorter text -/

namespace Lexeme

open Escape (quote)

variable {s t : Text}

theorem gapLength_of_append {b : Bool} (h : gapLength b (s ++ t) < s.length) :
    gapLength b s = gapLength b (s ++ t) := by
  induction s generalizing b with
  | nil => cases h
  | cons c s ih =>
    rw [List.cons_append, gapLength_cons] at h
    rw [List.cons_append, gapLength_cons, gapLength_cons]
    cases hc : gapStep b c with
    | none => rfl
    | some b' =>
      rw [hc] at h
      exact congrArg (· + 1) (ih (Nat.lt_of_succ_lt_succ h))

/-- A text that is cut off in the lexeme after its gap, or right before it, has the same gap. -/
theorem gapLength_take (b : Bool) (t : Text) (m : Nat) :
    gapLength b (t.take (gapLength b t + m)) = gapLength b t := by
  induction t generalizing b with
  | nil => simp
  | cons c t ih =>
    rw [gapLength_cons]
    cases hc : gapStep b c with
    | none =>
      cases m with
      | zero => rfl
      | succ m => simp [gapLength_cons, hc]
    | some b' =>
      have hlen : gapLength b' t + 1 + m = gapLength b' t + m + 1 := by omega
      simp only [hlen, List.take_succ_cons, gapLength_cons, hc, ih b']

theorem afterGap_take (t : Text) (m : Nat) :
    Grammar.afterGap (t.take (gapLength false t + m)) = (Grammar.afterGap t).take m := by
  rw [Grammar.afterGap, gapLength_take, Grammar.afterGap, List.drop_take]
  simp

/-- A literal that breaks off at some place breaks off there if the text ends there. -/
theorem bodyLength_take {r : StringState} {n : Nat} {e : Expectation} (h : bodyLength r t = (n, some e)) :
    bodyLength r (t.take n) = (n, some e) := by
  induction t generalizing r n with
  | nil =>
    rw [List.take_nil]
    exact h
  | cons c t ih =>
    have hq : r = .plain → c ≠ quote := by
      rintro rfl rfl
      rw [bodyLength_quote] at h
      cases h
    cases hr : r.step c with
    | none =>
      rw [bodyLength_stop hq hr] at h
      cases h
      rfl
    | some r' =>
      obtain ⟨m, hm, rfl⟩ := bodyLength_step_inv hq hr h
      rw [List.take_succ_cons, bodyLength_step hq hr, ih hm]

theorem scalar_take_broken {n : Nat} {e : Expectation} (h : scalar s = .broken n e) :
    scalar (s.take n) = .broken n e ∧ n ≤ s.length := by
  obtain ⟨r, m, rfl, hm, rfl⟩ := quote_of_broken h
  have hle := bodyLength_le .plain r
  rw [hm] at hle
  refine ⟨?_, Nat.succ_le_succ hle⟩
  rw [List.take_succ_cons, scalar_quote, stringLiteral, bodyLength_take hm]

theorem takeWhile_of_append {p : CodePoint → Bool} (h : ((s ++ t).takeWhile p).length ≤ s.length) :
    s.takeWhile p = (s ++ t).takeWhile p := by
  induction s with
  | nil => exact (List.length_eq_zero_iff.1 (Nat.le_zero.1 h)).symm
  | cons c s ih =>
    rw [List.cons_append, List.takeWhile_cons] at h ⊢
    rw [List.takeWhile_cons]
    split_ifs at h ⊢
    · rw [ih (Nat.le_of_succ_le_succ h)]
    · rfl

theorem numeral?_of_append (hs : s ≠ []) (h : numeralLength (s ++ t) ≤ s.length) :
    numeral? s = numeral? (s ++ t) := by
  obtain _ | ⟨c, r⟩ := s
  · exact absurd rfl hs
  by_cases hc : c = '-'
  · subst hc
    have hrun : r.takeWhile Decimal.isDigit = (r ++ t).takeWhile Decimal.isDigit := by
      refine takeWhile_of_append ?_
      rw [numeralLength, List.cons_append, numeral?_minus, numeralOf] at h
      split_ifs at h with he
      · rw [List.isEmpty_iff.1 he]
        exact Nat.zero_le _
      · exact Nat.le_of_succ_le_succ h
    rw [List.cons_append, numeral?_minus, numeral?_minus, hrun]
  · have hrun : (c :: r).takeWhile Decimal.isDigit = (c :: r ++ t).takeWhile Decimal.isDigit := by
      refine takeWhile_of_append ?_
      rw [numeralLength, List.cons_append, numeral?_unsigned hc, numeralOf] at h
      split_ifs at h with he
      · rw [List.cons_append, List.isEmpty_iff.1 he]
        exact Nat.zero_le _
      · exact h
    rw [List.cons_append, numeral?_unsigned hc, numeral?_unsigned hc, hrun]
    rfl

/-- A scalar that ends inside a text is the same in the text cut off there or later. -/
theorem scalar_of_append {x : Scalar} {n : Nat} (h : scalar (s ++ t) = .found x n) (hn : n ≤ s.length) :
    scalar s = .found x n := by
  obtain _ | ⟨c, r⟩ := s
  · exact absurd (scalar_length_pos h) (Nat.not_lt.2 hn)
  rw [List.cons_append] at h
  generalize hst : c :: (r ++ t) = u at h
  cases lexes_of_scalar h with
  | keyword he =>
    obtain ⟨rfl, rfl⟩ := List.cons.inj hst
    have hrun : r.takeWhile isSymbolChar = _ := takeWhile_of_append (Nat.le_of_succ_le_succ hn)
    rw [scalar_colon, hrun, he]
    rfl
  | number hd hle =>
    subst hst
    have hlen : numeralLength (c :: r ++ t) ≤ (c :: r).length := by
      rw [numeralLength, List.cons_append, hd]
      exact hn
    rw [scalar_numeral ((numeral?_of_append (List.cons_ne_nil c r) hlen).trans hd), numberOf, if_neg (Nat.not_lt.2 hle)]
  | @string b y v hb hy =>
    have hlit : quote :: (b ++ [quote]) <+: c :: r := by
      have hfront : quote :: (b ++ [quote]) <+: quote :: (b ++ quote :: v) := ⟨v, by simp⟩
      exact List.prefix_of_prefix_length_le hfront ⟨t, hst⟩ (by simpa using hn)
    obtain ⟨w, hw⟩ := hlit
    rw [← hw, List.cons_append, List.append_assoc, scalar_quote]
    exact stringLiteral_body hb hy w
  | name hc hnum =>
    obtain ⟨rfl, rfl⟩ := List.cons.inj hst
    have hlen : numeralLength (c :: r ++ t) ≤ (c :: r).length := by
      rw [numeralLength, List.cons_append, hnum]
      exact Nat.succ_le_succ (Nat.zero_le _)
    have hnum' := (numeral?_of_append (List.cons_ne_nil c r) hlen).trans hnum
    rw [scalar_name hc hnum', takeWhile_of_append hn]
    rfl

/-- An opening that ends inside a text is the same in the text cut off there or later. -/
theorem ofText?_of_append {o : Opening} (h : Opening.ofText? (s ++ t) = some o) (hn : o.text.length ≤ s.length) :
    Opening.ofText? s = some o := by
  obtain _ | ⟨c, _ | ⟨d, s⟩⟩ := s
  · exact absurd (opening_text_pos o) (Nat.not_lt.2 hn)
  · rw [List.cons_append, ofText?_cons] at h
    rw [ofText?_cons]
    by_cases hc : c = '~'
    · subst hc
      -- the text is cut off after one code point, so the opening is not `~@`
      have hsplice : ¬List.head? ([] ++ t) = some (CodePoint.ofChar '@') := by
        intro ha
        rw [ha] at h
        cases h
        exact absurd hn (by decide)
      rw [openingOf, if_neg (by decide), if_pos rfl, if_neg hsplice] at h
      exact h
    · rw [← h]
      exact openingOf_congr hc _ _
  · rw [List.cons_append, ofText?_cons] at h
    rw [ofText?_cons]
    exact h

end Lexeme

/-! ## Forms in a shorter text -/

section Forms

variable {c d d' d₁ : Cursor} {t : Text} {n : Nat} {fs : List Form}

theorem Cursor.extend_inj (h : d.extend t = d'.extend t) : d = d' := by
  obtain ⟨hp, hr⟩ := Cursor.mk.inj h
  exact congr (congrArg Cursor.mk hp) (List.append_cancel_right hr)

/-- A cursor before one in a longer text stands in the longer text too. -/
theorem exists_extend (h : c.skipGap.advance n = d₁.extend t) : ∃ d : Cursor, c = d.extend t := by
  have hrest : t <:+ c.rest := by
    have hsuff : (c.skipGap.advance n).rest <:+ c.rest := by
      rw [Cursor.skipGap, Cursor.advance_advance]
      exact List.drop_suffix _ _
    rw [h] at hsuff
    exact (List.suffix_append _ _).trans hsuff
  obtain ⟨r, hr⟩ := hrest
  exact ⟨⟨c.pos, r⟩, by rw [Cursor.extend, hr]⟩

/-- A lexeme that ends before `t` starts before it, after the same gap. -/
theorem skipGap_of_extend (h : (d.extend t).skipGap.advance n = d₁.extend t) (hpos : 0 < n)
    (hle : n ≤ (d.extend t).skipGap.rest.length) :
    (d.extend t).skipGap = d.skipGap.extend t ∧ n ≤ d.skipGap.rest.length ∧ d.skipGap.advance n = d₁ := by
  have hlen := congrArg (fun c : Cursor => c.rest.length) h
  simp only [Cursor.skipGap, Cursor.rest_advance, Cursor.rest_extend, List.length_drop, List.length_append] at hlen hle
  have hgap : gapLength false d.rest = gapLength false (d.rest ++ t) := gapLength_of_append (by omega)
  have hrest : d.skipGap.rest.length = d.rest.length - gapLength false (d.rest ++ t) := by
    rw [Cursor.skipGap, Cursor.rest_advance, List.length_drop, hgap]
  have hn : n ≤ d.skipGap.rest.length := by omega
  have hskip := Cursor.skipGap_extend (List.ne_nil_of_length_pos (Nat.lt_of_lt_of_le hpos hn)) t
  refine ⟨hskip, hn, Cursor.extend_inj (t := t) ?_⟩
  rw [← Cursor.advance_extend hn, ← hskip, h]

theorem scalar_restrict {x : Scalar} (hs : Lexeme.scalar c.skipGap.rest = .found x n)
    (h : c.skipGap.advance n = d₁.extend t) :
    ∃ d : Cursor, c = d.extend t ∧ c.skipGap = d.skipGap.extend t ∧ Lexeme.scalar d.skipGap.rest = .found x n ∧
      d.skipGap.advance n = d₁ := by
  obtain ⟨d, rfl⟩ := exists_extend h
  obtain ⟨hskip, hn, hadv⟩ := skipGap_of_extend h (scalar_length_pos hs) (scalar_length_le hs)
  rw [hskip] at hs
  exact ⟨d, rfl, hskip, scalar_of_append hs hn, hadv⟩

theorem opening_restrict {o : Opening} (ho : Opening.ofText? c.skipGap.rest = some o)
    (h : c.skipGap.advance o.text.length = d₁.extend t) :
    ∃ d : Cursor, c = d.extend t ∧ c.skipGap = d.skipGap.extend t ∧ Opening.ofText? d.skipGap.rest = some o ∧
      d.skipGap.advance o.text.length = d₁ := by
  obtain ⟨d, rfl⟩ := exists_extend h
  have hle : o.text.length ≤ (d.extend t).skipGap.rest.length := by
    rw [rest_opening ho, List.length_append]
    exact Nat.le_add_right _ _
  obtain ⟨hskip, hn, hadv⟩ := skipGap_of_extend h (opening_text_pos o) hle
  rw [hskip] at ho
  exact ⟨d, rfl, hskip, ofText?_of_append ho hn, hadv⟩

theorem closer_restrict {s : Shape} (hc : c.skipGap.rest.head? = some s.closer)
    (h : c.skipGap.advance 1 = d₁.extend t) :
    ∃ d : Cursor, c = d.extend t ∧ d.skipGap.rest.head? = some s.closer ∧ d.skipGap.advance 1 = d₁ := by
  obtain ⟨d, rfl⟩ := exists_extend h
  have hle : 1 ≤ (d.extend t).skipGap.rest.length := by
    rw [rest_closer hc]
    exact Nat.succ_le_succ (Nat.zero_le _)
  obtain ⟨hskip, hn, hadv⟩ := skipGap_of_extend h Nat.one_pos hle
  rw [hskip, Cursor.rest_extend, List.head?_append_of_ne_nil _ (List.ne_nil_of_length_pos hn)] at hc
  exact ⟨d, rfl, hc, hadv⟩

/-- **The forms that stand before a text stand there without it.** -/
theorem Reads.restrict {c' : Cursor} (h : Reads c fs c') (hd : c' = d'.extend t) :
    ∃ d : Cursor, c = d.extend t ∧ Reads d fs d' := by
  induction h generalizing d' with
  | nil c => exact ⟨d', hd, .nil d'⟩
  | scalar hs _ ih =>
    obtain ⟨d₁, h₁, hr⟩ := ih hd
    obtain ⟨d, rfl, hskip, hs', rfl⟩ := scalar_restrict hs h₁
    refine ⟨d, rfl, ?_⟩
    rw [h₁, hskip]
    exact .scalar hs' hr
  | bracket ho _ hc _ ihg ih =>
    obtain ⟨d₂, h₂, hr⟩ := ih hd
    obtain ⟨d₁, h₁, hc', rfl⟩ := closer_restrict hc h₂
    obtain ⟨d₀, h₀, hg⟩ := ihg h₁
    obtain ⟨d, rfl, hskip, ho', rfl⟩ := opening_restrict ho h₀
    refine ⟨d, rfl, ?_⟩
    rw [h₂, hskip]
    exact .bracket ho' hg hc' hr
  | mark ho _ hl _ ihg ih =>
    obtain ⟨d₁, h₁, hr⟩ := ih hd
    obtain ⟨d₀, h₀, hg⟩ := ihg h₁
    obtain ⟨d, rfl, hskip, ho', rfl⟩ := opening_restrict ho h₀
    refine ⟨d, rfl, ?_⟩
    rw [h₁, hskip, Cursor.pos_extend, Cursor.pos_extend]
    exact .mark ho' hg hl hr

/-- **The frames that are open before a text are open there without it.** -/
theorem Open.restrict {c₀ : Cursor} {stack : List Frame} (h : Open c₀ stack c) (hd : c = d.extend t) :
    ∃ d₀ : Cursor, c₀ = d₀.extend t ∧ Open d₀ stack d := by
  induction h generalizing d with
  | nil => exact ⟨d, hd, .nil⟩
  | cons _ ho hr hf ih =>
    obtain ⟨d₁, h₁, hr'⟩ := hr.restrict hd
    obtain ⟨d₂, h₂, hskip, ho', rfl⟩ := opening_restrict ho h₁
    obtain ⟨d₀, h₀, hopen⟩ := ih h₂
    refine ⟨d₀, h₀, ?_⟩
    rw [hskip, Cursor.pos_extend] at hf ⊢
    exact .cons hopen ho' hr' hf

/-- What is known in front of a text, the forms that stand there and the frames that are open after them, is known
without the text. -/
theorem open_front {c₀ : Cursor} {stack : List Frame} {before u v : Text} {p : Position}
    (hr : Reads (.start (before ++ (u ++ v))) fs c₀) (ho : Open c₀ stack ⟨p, u ++ v⟩) :
    ∃ d₀, Reads (.start (before ++ u)) fs d₀ ∧ Open d₀ stack ⟨p, u⟩ := by
  have hc : (⟨p, u ++ v⟩ : Cursor) = Cursor.extend ⟨p, u⟩ v := rfl
  obtain ⟨d₀, hd₀, ho'⟩ := ho.restrict hc
  obtain ⟨d, hd, hr'⟩ := hr.restrict hd₀
  have hstart : d = .start (before ++ u) := by
    apply Cursor.extend_inj (t := v)
    rw [← hd, Cursor.extend, Cursor.start, Cursor.start, List.append_assoc]
  subst hstart
  exact ⟨d₀, hr', ho'⟩

end Forms

end MalForms
