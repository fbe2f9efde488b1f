import MalForms.Proofs.Lexeme.Boundary

/-!
# What the rules of the grammar match

* Repetition: `Chain` is a sequence of matches, one after another; `many` takes the longest one (`many_of_chain`,
  `chain_of_many`) and `times` one of a given length (`times_of_chain`, `chain_of_times`).
* Scalars: the alternatives for a scalar, taken in order, match what the lexical rules find (`scalars_eq`). The ordered
  choice between a number and a name, and between a constant and a symbol, is the point.
-/

namespace MalForms.Grammar

open Lexeme
open Escape (quote)

/-! ## Repetition -/

section Repetition

variable {α : Type} {rule : Rule α} {as : List α} {t t' : Text} {n : Nat}

/-- Matches of the rule one after another. -/
inductive Chain (rule : Rule α) : Text → List α → Text → Prop
  | nil (t : Text) : Chain rule t [] t
  | cons {a : α} {as : List α} {t r t' : Text} : rule t = some (a, r) → Chain rule r as t' → Chain rule t (a :: as) t'

/-- All matches, when there is none after the last one. -/
theorem many_of_chain (h : Chain rule t as t') (hn : as.length ≤ n) (hstop : rule t' = none) :
    many rule n t = (as, t') := by
  induction h generalizing n with
  | nil t =>
    cases n with
    | zero => rfl
    | succ n => rw [many, hstop]
  | cons ha _ ih =>
    cases n with
    | zero => cases hn
    | succ n =>
      rw [many, ha]
      dsimp only
      rw [ih (Nat.le_of_succ_le_succ hn) hstop]

theorem chain_of_many (h : many rule n t = (as, t')) : Chain rule t as t' := by
  induction n generalizing t as with
  | zero =>
    cases h
    exact .nil _
  | succ n ih =>
    rw [many] at h
    split at h
    · cases h
      exact .nil _
    · rename_i a r ha
      cases h
      exact .cons ha (ih rfl)

theorem times_of_chain (h : Chain rule t as t') (found : List α) :
    times rule as.length found t = some (as.reverse ++ found, t') := by
  induction h generalizing found with
  | nil t => rfl
  | cons ha _ ih =>
    rw [List.length_cons, times, ha, Option.bind_some]
    dsimp only
    rw [ih, List.reverse_cons, List.append_assoc]
    rfl

theorem chain_of_times {found bs : List α} (h : times rule n found t = some (bs, t')) :
    ∃ as, Chain rule t as t' ∧ as.length = n ∧ bs = as.reverse ++ found := by
  induction n generalizing found t with
  | zero =>
    cases h
    exact ⟨[], .nil _, rfl, rfl⟩
  | succ n ih =>
    rw [times, Option.bind_eq_some_iff] at h
    obtain ⟨⟨a, r⟩, ha, h⟩ := h
    obtain ⟨as, has, hl, rfl⟩ := ih h
    refine ⟨a :: as, .cons ha has, by rw [List.length_cons, hl], ?_⟩
    rw [List.reverse_cons, List.append_assoc]
    rfl

end Repetition

/-! ## Strings -/

section Strings

variable {t t' : Text} {cs : List Text} {n : Nat}

theorem stringChar_plain {c : CodePoint} (hc : c ≠ '\\') (hq : c ≠ quote) (t : Text) :
    stringChar (c :: t) = some ([c], t) := by
  simp only [stringChar, if_neg hq, ne_eq, hc, not_false_eq_true, if_true]

theorem stringChar_simple {e : CodePoint} (he : Escape.isSimple e = true) (t : Text) :
    stringChar (CodePoint.ofChar '\\' :: e :: t) = some ([CodePoint.ofChar '\\', e], t) := by
  have hq : CodePoint.ofChar '\\' ≠ quote := by decide
  simp [stringChar, hq, he]

theorem stringChar_unit {ds : Text} (hl : ds.length = 4) (hd : ds.all Hex.isDigit = true) (t : Text) :
    stringChar (CodePoint.ofChar '\\' :: CodePoint.ofChar 'u' :: (ds ++ t)) =
      some (CodePoint.ofChar '\\' :: CodePoint.ofChar 'u' :: ds, t) := by
  have hq : CodePoint.ofChar '\\' ≠ quote := by decide
  have hu : Escape.isSimple (CodePoint.ofChar 'u') = false := by decide
  have htake : (ds ++ t).take 4 = ds := by rw [← hl, List.take_left]
  have hdrop : (ds ++ t).drop 4 = t := by rw [← hl, List.drop_left]
  have hlen : 4 ≤ (ds ++ t).length := by rw [List.length_append]; omega
  simp only [stringChar, if_neg hq, ne_eq, not_true_eq_false, if_false, hu, Bool.false_eq_true, htake, hdrop, hlen, hd,
    and_self, if_true]

/-- A body is a sequence of code points, plain ones and escapes. -/
theorem chain_of_body {b : Text} (hb : Body b) (t : Text) :
    ∃ cs, Chain stringChar (b ++ t) cs t ∧ cs.flatten = b ∧ cs.length ≤ b.length := by
  induction hb with
  | nil => exact ⟨[], .nil t, rfl, Nat.le_refl _⟩
  | @plain c b hc hq _ ih =>
    obtain ⟨cs, hcs, rfl, hl⟩ := ih
    exact ⟨[c] :: cs, .cons (stringChar_plain hc hq _) hcs, rfl, Nat.succ_le_succ hl⟩
  | @simple e b he _ ih =>
    obtain ⟨cs, hcs, rfl, hl⟩ := ih
    refine ⟨['\\', e] :: cs, .cons (stringChar_simple he _) hcs, rfl, ?_⟩
    simp only [List.length_cons]
    omega
  | @unit ds b hld hd _ ih =>
    obtain ⟨cs, hcs, rfl, hl⟩ := ih
    refine ⟨('\\' :: 'u' :: ds) :: cs, .cons ?_ hcs, rfl, ?_⟩
    · rw [List.cons_append, List.cons_append, List.append_assoc]
      exact stringChar_unit hld hd _
    · simp only [List.length_cons, List.length_append]
      omega

theorem stringChar_body {a : Text} (h : stringChar t = some (a, t')) : t = a ++ t' ∧ Body a := by
  unfold stringChar at h
  split at h
  · cases h
  rename_i c rest
  split_ifs at h with hq hc
  · cases h
    exact ⟨rfl, .plain hc hq .nil⟩
  rw [Decidable.not_not] at hc
  subst hc
  split at h
  · cases h
  rename_i e rest
  split_ifs at h with he hu
  · cases h
    exact ⟨rfl, .simple he .nil⟩
  · cases h
    obtain ⟨rfl, hlen, hd⟩ := hu
    have hl : (rest.take 4).length = 4 := by rw [List.length_take]; omega
    have hb := Body.unit hl hd .nil
    rw [List.append_nil] at hb
    exact ⟨by rw [List.cons_append, List.cons_append, List.take_append_drop], hb⟩

theorem body_of_chain (h : Chain stringChar t cs t') : t = cs.flatten ++ t' ∧ Body cs.flatten := by
  induction h with
  | nil t => exact ⟨rfl, .nil⟩
  | cons ha _ ih =>
    obtain ⟨rfl, hb⟩ := stringChar_body ha
    obtain ⟨rfl, hbs⟩ := ih
    exact ⟨by rw [List.flatten_cons, List.append_assoc], hb.append hbs⟩

theorem string_body {b y : Text} (hb : Body b) (hy : Escape.decode b = .ok y) (r : Text) :
    string (quote :: (b ++ quote :: r)) = some (.str y, r) := by
  obtain ⟨cs, hcs, hflat, hl⟩ := chain_of_body hb (quote :: r)
  have hlen : cs.length ≤ (b ++ quote :: r).length := by
    rw [List.length_append]
    omega
  have hmany := many_of_chain hcs hlen (by simp [stringChar])
  simp only [string, if_true, hmany, hflat, hy]

theorem string_broken {r : Text} {k : Nat} {e : Expectation} (h : bodyLength .plain r = (k, some e)) :
    string (quote :: r) = none := by
  rcases hm : many stringChar r.length r with ⟨cs, r'⟩
  obtain ⟨rfl, hb⟩ := body_of_chain (chain_of_many hm)
  rw [bodyLength_body hb] at h
  unfold string
  simp only [if_true, hm]
  split
  · rename_i q r'' y hy
    have hq : q ≠ quote := by
      rintro rfl
      rw [bodyLength_quote] at h
      cases h
    rw [if_neg hq]
  · rfl

end Strings

/-! ## Scalars -/

section Scalars

variable {s : Text} {c : CodePoint}

theorem keyword_other (hc : c ≠ ':') (r : Text) : keyword (c :: r) = none := by
  rw [keyword, if_neg hc]

theorem string_other (hc : c ≠ quote) (r : Text) : string (c :: r) = none := by
  rw [string, if_neg hc]

theorem run_eq {p : CodePoint → Bool} (h : (s.takeWhile p).isEmpty = false) :
    run p s = some (s.takeWhile p, s.drop (s.takeWhile p).length) := by
  rw [run, h]
  rfl

theorem run_empty {p : CodePoint → Bool} (h : (s.takeWhile p).isEmpty = true) : run p s = none := by
  rw [run, h]
  rfl

/-- The rule of numbers matches the numeral a text starts with. -/
theorem number_eq (s : Text) : number s = (numeral? s).map fun (negative, ds) =>
    (.int (if negative then -(Decimal.value ds : Int) else Decimal.value ds), s.drop (ds.length + negative.toNat)) := by
  obtain _ | ⟨c, r⟩ := s
  · rfl
  by_cases hc : c = '-'
  · subst hc
    rw [number, if_pos rfl, numeral?_minus, numeralOf]
    cases he : (r.takeWhile Decimal.isDigit).isEmpty with
    | true => rw [run_empty he]; rfl
    | false => rw [run_eq he]; rfl
  · rw [number, if_neg hc, numeral?_unsigned hc, numeralOf]
    cases he : ((c :: r).takeWhile Decimal.isDigit).isEmpty with
    | true => rw [run_empty he]; rfl
    | false => rw [run_eq he]; rfl

theorem drop_takeWhile (p : CodePoint → Bool) (s : Text) : s.drop (s.takeWhile p).length = s.dropWhile p := by
  induction s with
  | nil => rfl
  | cons c s ih =>
    rw [List.takeWhile_cons, List.dropWhile_cons]
    split_ifs
    · exact ih
    · rfl

/-- A constant is a name of its own, not the beginning of a longer one. -/
theorem constant_eq {w : Text} (hw : w.all isSymbolChar = true) (f : Form) (s : Text) :
    constant w f s = if s.takeWhile isSymbolChar = w then some (f, s.drop w.length) else none := by
  have hiff : (s.startsWith w && !(s.drop w.length).head?.any isSymbolChar) = true ↔
      s.takeWhile isSymbolChar = w := by
    rw [Bool.and_eq_true, Text.startsWith, List.isPrefixOf_iff_prefix, Bool.not_eq_true', Option.any_eq_false]
    constructor
    · rintro ⟨⟨u, rfl⟩, hu⟩
      rw [List.drop_left] at hu
      exact takeWhile_all_append hw fun c hc => hu c hc
    · rintro rfl
      refine ⟨List.takeWhile_prefix _, fun c hc => ?_⟩
      have hnot := List.head?_dropWhile_not isSymbolChar s
      rw [drop_takeWhile] at hc
      rwa [hc] at hnot
  rw [constant]
  simp only [hiff]

/-- The alternatives for a scalar, in order. -/
def scalars : List (Rule Form) :=
  [keyword, number, string, constant "true" (.bool true), constant "false" (.bool false), constant "nil" .nil, symbol]

theorem constants_none (hc : isSymbolChar c = false) {w : Text} (hw : w.all isSymbolChar = true) (hne : w ≠ [])
    (f : Form) (r : Text) : constant w f (c :: r) = none := by
  rw [constant_eq hw, List.takeWhile_cons, hc, if_neg]
  exact fun h => hne h.symm

theorem symbol_none (hc : isSymbolChar c = false) (r : Text) : symbol (c :: r) = none := by
  rw [symbol, run_empty (by rw [takeWhile_isEmpty_cons, hc]; rfl)]
  rfl

/-- Where neither a name nor a number starts, the alternatives are a keyword and a string. -/
theorem scalars_punctuation (hc : isSymbolChar c = false) (r : Text) :
    scalars.findSome? (· (c :: r)) = (keyword (c :: r)).or (string (c :: r)) := by
  have hn : number (c :: r) = none := by
    rw [number_eq, numeral?_not_symbolChar hc]
    rfl
  simp only [scalars, List.findSome?_cons, List.findSome?_nil, hn, symbol_none hc,
    constants_none hc (w := "true") (by decide) (by decide), constants_none hc (w := "false") (by decide) (by decide),
    constants_none hc (w := "nil") (by decide) (by decide)]
  cases keyword (c :: r) <;> cases string (c :: r) <;> rfl

/-- Where a name may start, a number is taken first, and the name itself else. -/
theorem scalars_symbolChar (hc : isSymbolChar c = true) (r : Text) :
    scalars.findSome? (· (c :: r)) = (number (c :: r)).or
      (some ((Scalar.ofName ((c :: r).takeWhile isSymbolChar)).toForm {},
        (c :: r).drop ((c :: r).takeWhile isSymbolChar).length)) := by
  have hk : c ≠ ':' := by rintro rfl; exact absurd hc (by decide)
  have hq : c ≠ quote := by rintro rfl; exact absurd hc (by decide)
  have hs : symbol (c :: r) = some (.symbol ((c :: r).takeWhile isSymbolChar) {},
      (c :: r).drop ((c :: r).takeWhile isSymbolChar).length) := by
    rw [symbol, run_eq (by rw [takeWhile_isEmpty_cons, hc]; rfl)]
    rfl
  simp only [scalars, List.findSome?_cons, keyword_other hk, string_other hq, hs,
    constant_eq (w := "true") (by decide), constant_eq (w := "false") (by decide), constant_eq (w := "nil") (by decide)]
  generalize (c :: r).takeWhile isSymbolChar = w
  rw [Scalar.ofName]
  cases number (c :: r) with
  | some m => rfl
  | none =>
    by_cases h₁ : w = ("true" : Text)
    · subst h₁
      rfl
    by_cases h₂ : w = ("false" : Text)
    · subst h₂
      rfl
    by_cases h₃ : w = ("nil" : Text)
    · subst h₃
      rfl
    simp only [if_neg h₁, if_neg h₂, if_neg h₃]
    rfl

theorem symbolChar_of_numeral {r : Text} {m : Bool × Text} (h : numeral? (c :: r) = some m) :
    isSymbolChar c = true := by
  cases hc : isSymbolChar c with
  | true => rfl
  | false => rw [numeral?_not_symbolChar hc] at h; cases h

/-- **The alternatives for a scalar match the scalar that is found.** -/
theorem scalars_found {x : Scalar} {n : Nat} (h : scalar s = .found x n) :
    scalars.findSome? (· s) = some (x.toForm {}, s.drop n) := by
  cases lexes_of_scalar h with
  | @keyword r he =>
    rw [scalars_punctuation (by decide), keyword, if_pos rfl, run_eq he]
    rfl
  | @number _ negative ds hd hle =>
    obtain _ | ⟨c, r⟩ := s
    · cases hd
    rw [scalars_symbolChar (symbolChar_of_numeral hd), number_eq, hd]
    rfl
  | @string b y r hb hy =>
    rw [scalars_punctuation (by decide), keyword_other (by decide), string_body hb hy]
    simp [Scalar.toForm]
  | @name c r hc hn =>
    rw [scalars_symbolChar hc, number_eq, hn]
    rfl

/-- Where no scalar is found, no alternative for one matches. -/
theorem scalars_absent (h : scalar s = .absent) : scalars.findSome? (· s) = none := by
  cases lexes_of_scalar h with
  | nil => rfl
  | @colon r he =>
    rw [scalars_punctuation (by decide), keyword, if_pos rfl, run_empty he, string_other (by decide)]
    rfl
  | other hc h₁ h₂ => rw [scalars_punctuation hc, keyword_other h₁, string_other h₂]; rfl

theorem scalars_broken {n : Nat} {e : Expectation} (h : scalar s = .broken n e) : scalars.findSome? (· s) = none := by
  obtain ⟨r, m, rfl, hm, -⟩ := quote_of_broken h
  rw [scalars_punctuation (by decide), keyword_other (by decide), string_broken hm]
  rfl

end Scalars

/-! ## Openings -/

section Openings

variable {item : Rule Form} {s : Text} {o : Opening}

/-- The alternative for an opening. -/
def opened (item : Rule Form) : Opening → Rule Form
  | .mark m => marked item m
  | .bracket b => bracketed item b

/-- The alternatives come in the order in which the openings are tried. -/
theorem alternatives_eq (item : Rule Form) : alternatives item = Opening.all.map (opened item) ++ scalars := rfl

theorem opened_none (h : s.startsWith o.text = false) : opened item o s = none := by
  cases o with
  | mark m =>
    have hm : s.startsWith m.text = false := h
    rw [opened, marked, hm]
    rfl
  | bracket b =>
    rw [opened]
    obtain _ | ⟨c, r⟩ := s
    · rfl
    have hb : Text.startsWith (c :: r) [b.opener] = false := h
    rw [startsWith_one, decide_eq_false_iff_not] at hb
    rw [bracketed, if_neg hb]

theorem findSome?_of_find? {α β : Type} {l : List α} {p : α → Bool} {f : α → Option β} {a : α} {b : β}
    (hf : ∀ a, p a = false → f a = none) (hp : l.find? p = some a) (hb : f a = some b) : l.findSome? f = some b := by
  obtain ⟨-, as, bs, rfl, has⟩ := List.find?_eq_some_iff_append.1 hp
  have hnone : as.findSome? f = none := List.findSome?_eq_none_iff.2 fun x hx => hf x (by simpa using has x hx)
  rw [List.findSome?_append, hnone, Option.none_or, List.findSome?_cons, hb]

/-- The alternative for the opening that a text starts with comes first. -/
theorem alternatives_opened {g : Form} {r : Text} (ho : Opening.ofText? s = some o)
    (h : opened item o s = some (g, r)) : (alternatives item).findSome? (· s) = some (g, r) := by
  rw [alternatives_eq, List.findSome?_append, List.findSome?_map]
  have hopen : Opening.all.findSome? ((· s) ∘ opened item) = some (g, r) :=
    findSome?_of_find? (fun _ => opened_none) ho h
  rw [hopen]
  rfl

/-- Where nothing is opened, the alternatives are those for a scalar. -/
theorem alternatives_scalars (ho : Opening.ofText? s = none) :
    (alternatives item).findSome? (· s) = scalars.findSome? (· s) := by
  have hopen : (Opening.all.map (opened item)).findSome? (· s) = none := by
    rw [List.findSome?_map]
    refine List.findSome?_eq_none_iff.2 fun o ho' => opened_none ?_
    exact Bool.eq_false_iff.2 (List.find?_eq_none.1 ho o ho')
  rw [alternatives_eq, List.findSome?_append, hopen, Option.none_or]

/-- One opening can be the beginning of another only if they are `~` and `~@`. -/
theorem eq_of_startsWith {o' : Opening} (ho : Opening.ofText? s = some o) (h : s.startsWith o'.text = true) :
    o' = o ∨ o = .mark .spliceUnquote ∧ o' = .mark .unquote := by
  obtain _ | ⟨c, r⟩ := s
  · cases ho
  rw [ofText?_cons] at ho
  cases o' with
  | bracket b =>
    rw [Opening.text, startsWith_one, decide_eq_true_eq] at h
    subst h
    cases b <;> exact .inl (Option.some.inj ho)
  | mark m =>
    cases m with
    | spliceUnquote =>
      rw [Opening.text, Mark.text, startsWith_two, decide_eq_true_eq] at h
      obtain ⟨rfl, hr⟩ := h
      rw [hr] at ho
      exact .inl (Option.some.inj ho)
    | unquote =>
      rw [Opening.text, Mark.text, startsWith_one, decide_eq_true_eq] at h
      subst h
      have ho' : Opening.mark (if r.head? = some (CodePoint.ofChar '@') then .spliceUnquote else .unquote) = o :=
        Option.some.inj ho
      split_ifs at ho'
      · exact .inr ⟨ho'.symm, rfl⟩
      · exact .inl ho'
    | withMeta | quote | quasiquote | deref =>
      rw [Opening.text, Mark.text, startsWith_one, decide_eq_true_eq] at h
      subst h
      exact .inl (Option.some.inj ho)

/-- A match, where something is opened, is one of the alternative for that opening, or for `~` where there is `~@`. -/
theorem opened_of_alternatives {g : Form} {r : Text} (ho : Opening.ofText? s = some o)
    (h : (alternatives item).findSome? (· s) = some (g, r)) :
    opened item o s = some (g, r) ∨ o = .mark .spliceUnquote ∧ marked item .unquote s = some (g, r) := by
  rw [alternatives_eq, List.findSome?_append, scalars_absent (scalar_opening ho), Option.or_none,
    List.findSome?_map] at h
  obtain ⟨o', -, h⟩ := List.exists_of_findSome?_eq_some h
  have hs : s.startsWith o'.text = true := by
    cases hs : s.startsWith o'.text with
    | true => rfl
    | false => rw [Function.comp_apply, opened_none hs] at h; cases h
  obtain rfl | ⟨hsplice, rfl⟩ := eq_of_startsWith ho hs
  · exact .inl h
  · exact .inr ⟨hsplice, h⟩

/-! ### Matches of a compound form -/

variable {b : Shape} {m : Mark} {g : Form} {fs : List Form} {r r' r'' : Text}

theorem bracketed_of_chain (h : Chain item r fs r') (hn : fs.length ≤ r.length) (hstop : item r' = none)
    (hc : afterGap r' = b.closer :: r'') : bracketed item b (b.opener :: r) = some (.compound b fs none, r'') := by
  rw [bracketed, if_pos rfl, many_of_chain h hn hstop]
  simp only [hc, if_true]

theorem chain_of_bracketed (h : bracketed item b (b.opener :: r) = some (g, r'')) :
    ∃ fs r', Chain item r fs r' ∧ afterGap r' = b.closer :: r'' ∧ g = .compound b fs none := by
  rw [bracketed, if_pos rfl] at h
  rcases hm : many item r.length r with ⟨fs, r'⟩
  simp only [hm] at h
  refine ⟨fs, r', chain_of_many hm, ?_⟩
  split at h
  · cases h
  · rename_i d r₁ hr
    split_ifs at h with hd
    cases h
    exact ⟨by rw [hr, hd], rfl⟩

theorem startsWith_append (w r : Text) : Text.startsWith (w ++ r) w = true :=
  List.isPrefixOf_iff_prefix.2 (List.prefix_append w r)

theorem marked_of_chain (h : Chain item r fs r') (hl : fs.length = m.arity) :
    marked item m (m.text ++ r) = some (.compound .list (.symbol m.head {} :: fs.reverse) none, r') := by
  rw [marked, startsWith_append, if_pos rfl, List.drop_left, ← hl, times_of_chain h, List.append_nil]
  rfl

theorem chain_of_marked (h : marked item m (m.text ++ r) = some (g, r')) :
    ∃ fs, Chain item r fs r' ∧ fs.length = m.arity ∧
      g = .compound .list (.symbol m.head {} :: fs.reverse) none := by
  rw [marked, startsWith_append, if_pos rfl, List.drop_left, Option.map_eq_some_iff] at h
  obtain ⟨⟨bs, r₁⟩, ht, he⟩ := h
  cases he
  obtain ⟨fs, hfs, hl, rfl⟩ := chain_of_times ht
  exact ⟨fs, hfs, hl, by rw [List.append_nil]⟩

end Openings

end MalForms.Grammar
