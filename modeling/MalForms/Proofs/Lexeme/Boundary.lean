import MalForms.Proofs.Lexeme.Gap
import MalForms.Proofs.Lexeme.Literal
import MalForms.Reader.Step
import Mathlib.Data.List.TakeWhile

/-!
# Where a lexeme ends

A lexeme is as long as it can be, so what it is may depend on the text after it, but only on the next code point: a
lexeme with something after it is the same in every longer text, and so is one at the end of its text if what follows
`Breaks` it off.

* Openings: `ofText?_cons` says which opening a text starts with by its first two code points; `ofText?_append`,
  `ofText?_append_none`.
* Scalars: `scalar_append_found`, `scalar_append_absent`, `scalar_append_broken`, `scalar_append_overlong`.
* No lexeme ends in a separator (`scalar_last`), so a text that ends in a line feed does not end in a lexeme.
-/

namespace MalForms.Lexeme

open Escape (quote)

/-- No lexeme goes on in the text: it does not start with a symbol character, nor with the second half of `~@`. -/
def Breaks (t : Text) : Prop := ∀ c ∈ t.head?, isSymbolChar c = false ∧ c ≠ '@'

theorem breaks_nil : Breaks [] := fun _ h => nomatch h

theorem breaks_cons {c : CodePoint} {t : Text} (h : isSymbolChar c = false) (ha : c ≠ '@') : Breaks (c :: t) := by
  intro d hd
  obtain rfl : c = d := by simpa using hd
  exact ⟨h, ha⟩

theorem breaks_closer (s : Shape) (t : Text) : Breaks (s.closer :: t) :=
  breaks_cons (by cases s <;> decide) (by cases s <;> decide)

theorem breaks_separator {c : CodePoint} (hc : isSeparator c = true) (t : Text) : Breaks (c :: t) :=
  breaks_cons (not_symbolChar_of_startsGap (by rw [startsGap, hc]; rfl)) (by rintro rfl; exact absurd hc (by decide))

/-! ## Runs of code points of a class -/

section Runs

variable {p : CodePoint → Bool} {s t : Text}

/-- A run that ends inside a text, or before one that does not go on with it, is the same in the longer text. -/
theorem takeWhile_append_stop (h : (s.takeWhile p).length < s.length ∨ ∀ c ∈ t.head?, p c = false) :
    (s ++ t).takeWhile p = s.takeWhile p := by
  rw [List.takeWhile_append]
  split_ifs with hl
  · rcases h with h | h
    · exact absurd hl (Nat.ne_of_lt h)
    · have ht : t.takeWhile p = [] := by
        cases t with
        | nil => rfl
        | cons c t => rw [List.takeWhile_cons, h c rfl]; rfl
      rw [ht, List.append_nil]
      exact ((List.takeWhile_prefix p).eq_of_length hl).symm
  · rfl

theorem takeWhile_all_append (hs : s.all p = true) (ht : ∀ c ∈ t.head?, p c = false) : (s ++ t).takeWhile p = s := by
  rw [takeWhile_append_stop (.inr ht), List.takeWhile_eq_self_iff.2 (List.all_eq_true.1 hs)]

theorem takeWhile_isEmpty_cons {c : CodePoint} : ((c :: t).takeWhile p).isEmpty = !p c := by
  rw [List.takeWhile_cons]
  cases p c <;> rfl

end Runs

/-! ## Openings -/

/-- The opening that starts with a code point and the one after it. -/
def openingOf (c : CodePoint) (next : Option CodePoint) : Option Opening :=
  if c = '^' then some (.mark .withMeta)
  else if c = '~' then some (.mark (if next = some (CodePoint.ofChar '@') then .spliceUnquote else .unquote))
  else if c = '\x27' then some (.mark .quote)
  else if c = '\x60' then some (.mark .quasiquote)
  else if c = '@' then some (.mark .deref)
  else if c = '(' then some (.bracket .list)
  else if c = '[' then some (.bracket .vector)
  else if c = '\x7b' then some (.bracket .map)
  else none

theorem startsWith_one (c d : CodePoint) (t : Text) : Text.startsWith (c :: t) [d] = decide (c = d) := by
  simp [Text.startsWith, List.isPrefixOf, Bool.beq_eq_decide_eq, eq_comm]

theorem startsWith_two (c d e : CodePoint) (t : Text) :
    Text.startsWith (c :: t) [d, e] = decide (c = d ∧ t.head? = some e) := by
  cases t <;> simp [Text.startsWith, List.isPrefixOf, Bool.beq_eq_decide_eq, eq_comm]

/-- The second code point matters only after `~`. -/
theorem openingOf_congr {c : CodePoint} (hc : c ≠ '~') (a b : Option CodePoint) : openingOf c a = openingOf c b := by
  rw [openingOf, openingOf, if_neg hc, if_neg hc]

/-- A text starts with the opening that its first two code points give. -/
theorem ofText?_cons (c : CodePoint) (t : Text) : Opening.ofText? (c :: t) = openingOf c t.head? := by
  by_cases h₁ : c = '^'
  · subst h₁; rfl
  by_cases h₂ : c = '~'
  · subst h₂
    have hsplice := startsWith_two '~' '~' '@' t
    by_cases hn : t.head? = some (CodePoint.ofChar '@')
    · obtain ⟨r, rfl⟩ := List.head?_eq_some_iff.1 hn
      rfl
    · rw [decide_eq_false (fun h => hn h.2)] at hsplice
      simp only [Opening.ofText?, Opening.all, Mark.all, List.map_cons, List.cons_append, List.find?_cons, Opening.text,
        Mark.text, hsplice]
      rw [openingOf, if_neg (by decide), if_pos rfl, if_neg hn]
      rfl
  by_cases h₃ : c = '\x27'
  · subst h₃; rfl
  by_cases h₄ : c = '\x60'
  · subst h₄; rfl
  by_cases h₅ : c = '@'
  · subst h₅; rfl
  by_cases h₆ : c = '('
  · subst h₆; rfl
  by_cases h₇ : c = '['
  · subst h₇; rfl
  by_cases h₈ : c = '\x7b'
  · subst h₈; rfl
  rw [openingOf, if_neg h₁, if_neg h₂, if_neg h₃, if_neg h₄, if_neg h₅, if_neg h₆, if_neg h₇, if_neg h₈]
  simp only [Opening.ofText?, Opening.all, Mark.all, List.map_cons, List.map_nil, List.cons_append, List.nil_append,
    List.find?_cons, List.find?_nil, Opening.text, Mark.text, Shape.opener, startsWith_one, startsWith_two, h₁, h₂, h₃,
    h₄, h₅, h₆, h₇, h₈, decide_false, false_and]

section Openings

variable {s t : Text} {o : Opening}

theorem ofText?_nil : Opening.ofText? [] = none := by decide

theorem text_of_ofText? (h : Opening.ofText? s = some o) : ∃ r, s = o.text ++ r := by
  have hp := List.find?_some h
  rw [Text.startsWith, List.isPrefixOf_iff_prefix] at hp
  obtain ⟨r, hr⟩ := hp
  exact ⟨r, hr.symm⟩

/-- An opening with something after it, or with no `@` after it, is the same in every longer text. -/
theorem ofText?_append (h : Opening.ofText? s = some o) (hb : o.text.length < s.length ∨ Breaks t) :
    Opening.ofText? (s ++ t) = some o := by
  obtain _ | ⟨c, _ | ⟨d, s⟩⟩ := s
  · cases h
  · have ht : Breaks t := hb.resolve_left fun hl => absurd hl (Nat.not_lt.2 (opening_text_pos o))
    rw [ofText?_cons] at h
    rw [List.cons_append, ofText?_cons, ← h, openingOf, openingOf]
    have ha : t.head? ≠ some (CodePoint.ofChar '@') := fun he => (ht _ he).2 rfl
    simp [ha]
  · rw [ofText?_cons] at h
    rw [List.cons_append, ofText?_cons]
    exact h

theorem ofText?_append_none (hs : s ≠ []) (h : Opening.ofText? s = none) (t : Text) :
    Opening.ofText? (s ++ t) = none := by
  obtain _ | ⟨c, s⟩ := s
  · exact absurd rfl hs
  · rw [ofText?_cons] at h
    have hc : c ≠ '~' := by
      rintro rfl
      cases h
    rw [List.cons_append, ofText?_cons, openingOf_congr hc _ s.head?, h]

theorem ofText?_symbolChar {c : CodePoint} (hc : isSymbolChar c = true) (t : Text) :
    Opening.ofText? (c :: t) = none := by
  have hne {d : CodePoint} (hd : isSymbolChar d = false) : c ≠ d := by
    rintro rfl
    exact Bool.noConfusion (hc.symm.trans hd)
  rw [ofText?_cons, openingOf, if_neg (hne (d := '^') (by decide)), if_neg (hne (d := '~') (by decide)),
    if_neg (hne (d := '\x27') (by decide)), if_neg (hne (d := '\x60') (by decide)),
    if_neg (hne (d := '@') (by decide)), if_neg (hne (d := '(') (by decide)), if_neg (hne (d := '[') (by decide)),
    if_neg (hne (d := '\x7b') (by decide))]

theorem ofText?_closer (b : Shape) (t : Text) : Opening.ofText? (b.closer :: t) = none := by
  rw [ofText?_cons]
  cases b <;> rfl

theorem ofText?_opener (b : Shape) (t : Text) : Opening.ofText? (b.opener :: t) = some (.bracket b) := by
  rw [ofText?_cons]
  cases b <;> rfl

end Openings

/-! ## Scalars -/

section Scalars

variable {s t : Text} {c : CodePoint}

/-- What holds of ten code points holds of all digits. -/
theorem forall_digit {P : CodePoint → Prop} (hall : ∀ d : Fin 10, P ⟨0x30 + d, by omega⟩)
    (h : Decimal.isDigit c = true) : P c := by
  obtain ⟨v, hv⟩ := c
  simp only [Decimal.isDigit, Bool.and_eq_true, decide_eq_true_eq] at h
  obtain ⟨d, rfl⟩ := Nat.exists_eq_add_of_le h.1
  exact hall ⟨d, by omega⟩

theorem symbolChar_of_digit (h : Decimal.isDigit c = true) : isSymbolChar c = true :=
  forall_digit (P := fun c => isSymbolChar c = true) (by decide) h

theorem not_digit_of_not_symbolChar (h : isSymbolChar c = false) : Decimal.isDigit c = false := by
  cases hd : Decimal.isDigit c with
  | false => rfl
  | true => exact Bool.noConfusion (h.symm.trans (symbolChar_of_digit hd))

theorem not_digit_of_breaks (ht : Breaks t) : ∀ c ∈ t.head?, Decimal.isDigit c = false :=
  fun c hc => not_digit_of_not_symbolChar (ht c hc).1

/-- The numeral with these digits, if there are any. -/
def numeralOf (negative : Bool) (ds : Text) : Option (Bool × Text) := if ds.isEmpty then none else some (negative, ds)

theorem numeral?_minus (r : Text) :
    numeral? (CodePoint.ofChar '-' :: r) = numeralOf true (r.takeWhile Decimal.isDigit) := by
  simp [numeral?, numeralOf]

theorem numeral?_unsigned (hc : c ≠ '-') (r : Text) :
    numeral? (c :: r) = numeralOf false ((c :: r).takeWhile Decimal.isDigit) := by
  simp [numeral?, numeralOf, hc]

/-- Digits alone are a numeral. -/
theorem numeral?_digits {ds : Text} (hne : ds ≠ []) (h : ds.all Decimal.isDigit = true) :
    numeral? ds = some (false, ds) := by
  have hrun : ds.takeWhile Decimal.isDigit = ds := List.takeWhile_eq_self_iff.2 (List.all_eq_true.1 h)
  obtain ⟨c, r, rfl⟩ := List.exists_cons_of_ne_nil hne
  have hc : c ≠ '-' := by
    rintro rfl
    cases h
  rw [numeral?_unsigned hc, hrun]
  rfl

/-- How many code points of the text decide what numeral it starts with, all but the one that ends it. -/
def numeralLength (s : Text) : Nat := (numeral? s).elim 1 fun (negative, ds) => ds.length + negative.toNat

theorem numeral?_append (hs : s ≠ []) (hb : numeralLength s < s.length ∨ Breaks t) :
    numeral? (s ++ t) = numeral? s := by
  obtain _ | ⟨c, r⟩ := s
  · exact absurd rfl hs
  by_cases hc : c = '-'
  · subst hc
    have hrun : (r ++ t).takeWhile Decimal.isDigit = r.takeWhile Decimal.isDigit := by
      refine takeWhile_append_stop (hb.imp (fun h => ?_) not_digit_of_breaks)
      rw [numeralLength, numeral?_minus, numeralOf, List.length_cons] at h
      split_ifs at h with he
      · rw [List.isEmpty_iff.1 he]
        exact Nat.lt_of_succ_lt_succ h
      · exact Nat.lt_of_succ_lt_succ h
    rw [List.cons_append, numeral?_minus, numeral?_minus, hrun]
  · have hrun : (c :: r ++ t).takeWhile Decimal.isDigit = (c :: r).takeWhile Decimal.isDigit := by
      refine takeWhile_append_stop (hb.imp (fun h => ?_) not_digit_of_breaks)
      rw [numeralLength, numeral?_unsigned hc, numeralOf] at h
      split_ifs at h with he
      · rw [List.isEmpty_iff.1 he]
        exact Nat.succ_pos _
      · exact h
    rw [List.cons_append, numeral?_unsigned hc, numeral?_unsigned hc, ← List.cons_append, hrun]

/-- Only a symbol character starts a numeral. -/
theorem numeral?_not_symbolChar (hc : isSymbolChar c = false) (r : Text) : numeral? (c :: r) = none := by
  have hm : c ≠ '-' := by
    rintro rfl
    exact absurd hc (by decide)
  rw [numeral?_unsigned hm, List.takeWhile_cons, not_digit_of_not_symbolChar hc]
  rfl

/-- The digits of a numeral, after its sign. -/
theorem numeral?_split {negative : Bool} {ds : Text} (h : numeral? s = some (negative, ds)) :
    ∃ u v, s = u ++ ds ++ v ∧ u.length = negative.toNat ∧ ds.all Decimal.isDigit = true := by
  obtain _ | ⟨c, r⟩ := s
  · cases h
  by_cases hc : c = '-'
  · subst hc
    rw [numeral?_minus, numeralOf] at h
    split_ifs at h
    cases h
    refine ⟨['-'], r.dropWhile Decimal.isDigit, ?_, rfl, List.all_takeWhile⟩
    rw [List.append_assoc, List.takeWhile_append_dropWhile]
    rfl
  · rw [numeral?_unsigned hc, numeralOf] at h
    split_ifs at h
    cases h
    exact ⟨[], (c :: r).dropWhile Decimal.isDigit, List.takeWhile_append_dropWhile.symm, rfl, List.all_takeWhile⟩

/-! ### The alternatives -/

theorem scalar_colon (r : Text) : scalar (CodePoint.ofChar ':' :: r) =
    if (r.takeWhile isSymbolChar).isEmpty then .absent
    else .found (.keyword (r.takeWhile isSymbolChar)) ((r.takeWhile isSymbolChar).length + 1) := by
  simp [scalar]

/-- What a numeral denotes, unless it has too many digits. -/
def numberOf (negative : Bool) (ds : Text) : Match :=
  if ds.length > maxDigits then .overlong ds.length (ds.length + negative.toNat)
  else .found (.int (if negative then -(Decimal.value ds : Int) else Decimal.value ds)) (ds.length + negative.toNat)

theorem scalar_numeral {negative : Bool} {ds : Text} (h : numeral? s = some (negative, ds)) :
    scalar s = numberOf negative ds := by
  obtain _ | ⟨c, r⟩ := s
  · cases h
  have hc : c ≠ ':' := by
    rintro rfl
    rw [numeral?_not_symbolChar (by decide)] at h
    cases h
  rw [scalar, if_neg hc, h]
  rfl

theorem scalar_quote (r : Text) : scalar (quote :: r) = stringLiteral r := by
  have hq : quote ≠ ':' := by decide
  rw [scalar, if_neg hq, numeral?_not_symbolChar (by decide)]
  simp

/-- What is written for a text is a literal between quotes, whatever follows the second one. -/
theorem scalar_written (s t : Text) :
    scalar (quote :: (Escape.encode s ++ quote :: t)) = .found (.str s) ((Escape.encode s).length + 2) := by
  rw [scalar_quote, stringLiteral_body (body_encode s) (decode_encode s)]

theorem scalar_name (hc : isSymbolChar c = true) {r : Text} (hn : numeral? (c :: r) = none) :
    scalar (c :: r) = .found (.ofName ((c :: r).takeWhile isSymbolChar)) ((c :: r).takeWhile isSymbolChar).length := by
  have h₁ : c ≠ ':' := by rintro rfl; exact absurd hc (by decide)
  have h₂ : c ≠ quote := by rintro rfl; exact absurd hc (by decide)
  rw [scalar, if_neg h₁, hn]
  simp only [if_neg h₂, takeWhile_isEmpty_cons, hc, Bool.not_true, Bool.false_eq_true, if_false]

theorem scalar_other (hc : isSymbolChar c = false) (h₁ : c ≠ ':') (h₂ : c ≠ quote) (r : Text) :
    scalar (c :: r) = .absent := by
  rw [scalar, if_neg h₁, numeral?_not_symbolChar hc]
  simp only [if_neg h₂, takeWhile_isEmpty_cons, hc, Bool.not_false, if_true]

/-- What the front of a text can be: every scalar, and every way in which there is none. -/
inductive Lexes : Text → Match → Prop
  | nil : Lexes [] .absent
  | keyword {r : Text} : (r.takeWhile isSymbolChar).isEmpty = false →
      Lexes (CodePoint.ofChar ':' :: r)
        (.found (.keyword (r.takeWhile isSymbolChar)) ((r.takeWhile isSymbolChar).length + 1))
  | colon {r : Text} : (r.takeWhile isSymbolChar).isEmpty = true → Lexes (CodePoint.ofChar ':' :: r) .absent
  | number {s : Text} {negative : Bool} {ds : Text} : numeral? s = some (negative, ds) → ds.length ≤ maxDigits →
      Lexes s (.found (.int (if negative then -(Decimal.value ds : Int) else Decimal.value ds))
        (ds.length + negative.toNat))
  | overlong {s : Text} {negative : Bool} {ds : Text} : numeral? s = some (negative, ds) → maxDigits < ds.length →
      Lexes s (.overlong ds.length (ds.length + negative.toNat))
  | string {b y r : Text} : Body b → Escape.decode b = .ok y →
      Lexes (quote :: (b ++ quote :: r)) (.found (.str y) (b.length + 2))
  | broken {r : Text} {n : Nat} {e : Expectation} : bodyLength .plain r = (n, some e) →
      Lexes (quote :: r) (.broken (n + 1) e)
  | name {c : CodePoint} {r : Text} : isSymbolChar c = true → numeral? (c :: r) = none →
      Lexes (c :: r) (.found (.ofName ((c :: r).takeWhile isSymbolChar)) ((c :: r).takeWhile isSymbolChar).length)
  | other {c : CodePoint} {r : Text} : isSymbolChar c = false → c ≠ ':' → c ≠ quote → Lexes (c :: r) .absent

theorem lexes_quote (r : Text) : Lexes (quote :: r) (stringLiteral r) := by
  rcases h : bodyLength .plain r with ⟨n, _ | e⟩
  · obtain ⟨b, r, rfl, -, hb⟩ := body_of_bodyLength h
    obtain ⟨y, hy⟩ := decode_body hb
    rw [stringLiteral_body hb hy]
    exact .string hb hy
  · rw [stringLiteral, h]
    exact .broken h

/-- **The alternatives for a scalar.** -/
theorem lexes_scalar (s : Text) : Lexes s (scalar s) := by
  obtain _ | ⟨c, r⟩ := s
  · exact .nil
  by_cases h₁ : c = ':'
  · subst h₁
    rw [scalar_colon]
    split_ifs with he
    · exact .colon he
    · exact .keyword (Bool.eq_false_iff.2 he)
  by_cases h₂ : c = quote
  · subst h₂
    rw [scalar_quote]
    exact lexes_quote r
  cases hc : isSymbolChar c with
  | false =>
    rw [scalar_other hc h₁ h₂]
    exact .other hc h₁ h₂
  | true =>
    cases hn : numeral? (c :: r) with
    | none =>
      rw [scalar_name hc hn]
      exact .name hc hn
    | some p =>
      rw [scalar_numeral hn, numberOf]
      split
      · exact .overlong hn ‹_›
      · exact .number hn (Nat.le_of_not_lt ‹_›)

theorem lexes_of_scalar {m : Match} (h : scalar s = m) : Lexes s m := h ▸ lexes_scalar s

theorem scalar_ne_misescaped (s : Text) (f : Escape.Fault) (n : Nat) : scalar s ≠ .misescaped f n := by
  intro h
  cases lexes_of_scalar h

/-- Only a numeral is overlong. -/
theorem numeral_of_overlong {d n : Nat} (h : scalar s = .overlong d n) :
    ∃ negative ds, numeral? s = some (negative, ds) ∧ maxDigits < ds.length ∧ n = ds.length + negative.toNat := by
  cases lexes_of_scalar h with
  | overlong hd hlt => exact ⟨_, _, hd, hlt, rfl⟩

/-- Only a string literal is broken. -/
theorem quote_of_broken {n : Nat} {e : Expectation} (h : scalar s = .broken n e) :
    ∃ r m, s = quote :: r ∧ bodyLength .plain r = (m, some e) ∧ n = m + 1 := by
  cases lexes_of_scalar h with
  | broken hb => exact ⟨_, _, rfl, hb, rfl⟩

/-- No scalar starts with an opening. -/
theorem scalar_opening {o : Opening} (h : Opening.ofText? s = some o) : scalar s = .absent := by
  obtain _ | ⟨c, r⟩ := s
  · rfl
  have hne (d : CodePoint) (hd : openingOf d r.head? = none) : c ≠ d := by
    rintro rfl
    rw [ofText?_cons, hd] at h
    cases h
  refine scalar_other ?_ (hne _ rfl) (hne _ rfl) r
  cases hc : isSymbolChar c with
  | false => rfl
  | true => rw [ofText?_symbolChar hc] at h; cases h

theorem scalar_closer (b : Shape) (t : Text) : scalar (b.closer :: t) = .absent :=
  scalar_other (by cases b <;> decide) (by cases b <;> decide) (by cases b <;> decide) t

/-! ### Scalars in a longer text -/

/-- A name that ends inside a text, or before one that breaks it off, is the same in the longer text. -/
theorem name_append (hb : (s.takeWhile isSymbolChar).length < s.length ∨ Breaks t) :
    (s ++ t).takeWhile isSymbolChar = s.takeWhile isSymbolChar :=
  takeWhile_append_stop (hb.imp_right fun ht c hc => (ht c hc).1)

theorem scalar_numeral_append {negative : Bool} {ds : Text} (h : numeral? s = some (negative, ds))
    (hb : ds.length + negative.toNat < s.length ∨ Breaks t) : scalar (s ++ t) = scalar s := by
  have hs : s ≠ [] := by
    rintro rfl
    cases h
  have ht : numeral? (s ++ t) = numeral? s := numeral?_append hs (by rw [numeralLength, h]; exact hb)
  rw [scalar_numeral h, scalar_numeral (ht.trans h)]

/-- A closed string literal is the same in every longer text. -/
theorem scalar_append_string {r : Text} {x : Scalar} {n : Nat} (h : scalar (quote :: r) = .found x n) (t : Text) :
    scalar (quote :: r ++ t) = .found x n := by
  rw [scalar_quote] at h
  rw [List.cons_append, scalar_quote]
  rcases hl : bodyLength .plain r with ⟨m, _ | e⟩
  · obtain ⟨b, v, rfl, rfl, -⟩ := body_of_bodyLength hl
    rw [stringLiteral_append ?_ t, h]
    rw [hl, List.length_append, List.length_cons]
    omega
  · rw [stringLiteral, hl] at h
    cases h

/-- A scalar with something after it, or with a text after it that breaks it off, is the same in the longer text. -/
theorem scalar_append_found {x : Scalar} {n : Nat} (h : scalar s = .found x n) (hb : n < s.length ∨ Breaks t) :
    scalar (s ++ t) = .found x n := by
  cases lexes_of_scalar h with
  | @keyword r he =>
    have hrun := name_append (s := r) (hb.imp_left Nat.lt_of_succ_lt_succ)
    rw [List.cons_append, scalar_colon, hrun, he]
    rfl
  | number hd hle => rw [scalar_numeral_append hd hb, h]
  | string => exact scalar_append_string h t
  | @name c r hc hn =>
    have hn' : numeral? (c :: (r ++ t)) = none := by
      rw [← List.cons_append, numeral?_append (List.cons_ne_nil c r) ?_, hn]
      rw [numeralLength, hn]
      refine hb.imp_left fun hl => Nat.lt_of_le_of_lt ?_ hl
      rw [List.takeWhile_cons, hc]
      exact Nat.succ_le_succ (Nat.zero_le _)
    rw [List.cons_append, scalar_name hc hn', ← List.cons_append, name_append hb]

theorem scalar_append_overlong {d n : Nat} (h : scalar s = .overlong d n) (hb : n < s.length ∨ Breaks t) :
    scalar (s ++ t) = .overlong d n := by
  obtain ⟨negative, ds, hd, -, rfl⟩ := numeral_of_overlong h
  rw [scalar_numeral_append hd hb, h]

/-- A literal that breaks off before the end of a text breaks off there in every longer text. -/
theorem scalar_append_broken {n : Nat} {e : Expectation} (h : scalar s = .broken n e) (hn : n < s.length) (t : Text) :
    scalar (s ++ t) = .broken n e := by
  obtain ⟨r, m, rfl, hm, rfl⟩ := quote_of_broken h
  have hlt : (bodyLength .plain r).1 < r.length := by
    rw [hm]
    exact Nat.lt_of_succ_lt_succ hn
  rw [List.cons_append, scalar_quote, stringLiteral_append hlt, ← scalar_quote, h]

/-- Where no scalar starts, none starts in a longer text, unless the text is a colon that a name may follow. -/
theorem scalar_append_absent (hs : s ≠ []) (h : scalar s = .absent) (hc : s = [CodePoint.ofChar ':'] → Breaks t) :
    scalar (s ++ t) = .absent := by
  cases lexes_of_scalar h with
  | nil => exact absurd rfl hs
  | @colon r he =>
    have hrun : (r ++ t).takeWhile isSymbolChar = r.takeWhile isSymbolChar := by
      refine name_append ?_
      cases r with
      | nil => exact .inr (hc rfl)
      | cons d r => exact .inl (by rw [List.isEmpty_iff.1 he]; exact Nat.succ_pos _)
    rw [List.cons_append, scalar_colon, hrun, if_pos he]
  | other hsym h₁ h₂ => exact scalar_other hsym h₁ h₂ _

/-! ### The last code point of a scalar -/

theorem not_separator_of_symbolChar (h : isSymbolChar c = true) : isSeparator c = false := by
  simp only [isSymbolChar, Bool.and_eq_true, Bool.not_eq_true'] at h
  exact h.1.1

/-- A lexeme that ends in a run of symbol characters does not end in a separator. -/
theorem last_of_run {u w v : Text} (hw : w.isEmpty = false) (hall : w.all isSymbolChar = true) :
    ∃ a d, u ++ w ++ v = a ++ d :: v ∧ u.length + w.length = a.length + 1 ∧ isSeparator d = false := by
  rcases List.eq_nil_or_concat' w with rfl | ⟨w', d, rfl⟩
  · cases hw
  have hd : isSymbolChar d = true := List.all_eq_true.1 hall d (by simp)
  refine ⟨u ++ w', d, by simp, ?_, not_separator_of_symbolChar hd⟩
  simp only [List.length_append, List.length_singleton]
  omega

theorem numeral_last {negative : Bool} {ds : Text} (h : numeral? s = some (negative, ds)) :
    ∃ a d v, s = a ++ d :: v ∧ ds.length + negative.toNat = a.length + 1 ∧ isSeparator d = false := by
  obtain ⟨u, v, hs, hu, hall⟩ := numeral?_split h
  have hne : ds.isEmpty = false := List.isEmpty_eq_false_iff.2 (digits_ne_nil h)
  have hsym : ds.all isSymbolChar = true :=
    List.all_eq_true.2 fun x hx => symbolChar_of_digit (List.all_eq_true.1 hall x hx)
  obtain ⟨a, d, had, hl, hsep⟩ := last_of_run (u := u) (v := v) hne hsym
  exact ⟨a, d, v, by rw [hs, had], by rw [← hl, hu, Nat.add_comm], hsep⟩

/-- A scalar does not end in a separator. -/
theorem scalar_last {x : Scalar} {n : Nat} (h : scalar s = .found x n) :
    ∃ a d v, s = a ++ d :: v ∧ n = a.length + 1 ∧ isSeparator d = false := by
  cases lexes_of_scalar h with
  | @keyword r he =>
    obtain ⟨a, d, had, hl, hsep⟩ := last_of_run (u := [CodePoint.ofChar ':']) (v := r.dropWhile isSymbolChar) he
      List.all_takeWhile
    refine ⟨a, d, r.dropWhile isSymbolChar, ?_, by rw [← hl]; exact Nat.add_comm _ _, hsep⟩
    rw [← had, List.append_assoc, List.takeWhile_append_dropWhile]
    rfl
  | number hd hle => exact numeral_last hd
  | @string b y r hb hy => exact ⟨quote :: b, quote, r, rfl, rfl, by decide⟩
  | @name c r hc hn =>
    obtain ⟨a, d, had, hl, hsep⟩ := last_of_run (u := []) (w := (c :: r).takeWhile isSymbolChar)
      (v := (c :: r).dropWhile isSymbolChar) (by rw [takeWhile_isEmpty_cons, hc]; rfl) List.all_takeWhile
    refine ⟨a, d, (c :: r).dropWhile isSymbolChar, ?_, by rw [← hl]; exact (Nat.zero_add _).symm, hsep⟩
    rw [← had, List.nil_append, List.takeWhile_append_dropWhile]

end Scalars

end MalForms.Lexeme
