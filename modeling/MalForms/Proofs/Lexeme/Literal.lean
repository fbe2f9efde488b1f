import MalForms.Lexeme
import Mathlib.Algebra.Group.Nat.Defs
import Mathlib.Data.List.Basic

/-!
# String literals

What may stand between the quotes of a string literal (`Body`), and the two functions that look at it: `bodyLength`
finds where the body ends, and `Escape.decode` the text it denotes.

* The scan runs over a body (`bodyLength_body`) and stops only after one (`body_of_bodyLength`). It looks at nothing
  beyond the place where it stops (`bodyLength_append`); a scan that reaches the end of its text goes on in a longer one
  (`bodyLength_append_end`), and can be ended from every state (`bodyLength_ending`).
* Every body denotes a text (`decode_body`), so a body with a closing quote after it is a literal
  (`stringLiteral_body`).
* What `Escape.encode` writes is a body (`body_encode`) that denotes the text written (`decode_encode`).
-/

namespace MalForms.Lexeme

open Escape (quote)

/-- What may stand between the quotes of a string literal. -/
inductive Body : Text → Prop
  | nil : Body []
  | plain {c : CodePoint} {b : Text} : c ≠ '\\' → c ≠ quote → Body b → Body (c :: b)
  | simple {e : CodePoint} {b : Text} : Escape.isSimple e = true → Body b → Body ('\\' :: e :: b)
  | unit {ds b : Text} : ds.length = 4 → ds.all Hex.isDigit = true → Body b → Body ('\\' :: 'u' :: (ds ++ b))

theorem Body.append {a b : Text} (ha : Body a) (hb : Body b) : Body (a ++ b) := by
  induction ha with
  | nil => exact hb
  | plain hc hq _ ih => exact .plain hc hq ih
  | simple he _ ih => exact .simple he ih
  | unit hl hd _ ih =>
    rw [List.cons_append, List.cons_append, List.append_assoc]
    exact .unit hl hd ih

/-! ## Scanning a body -/

section Scan

variable {s r : StringState} {c : CodePoint}

theorem bodyLength_quote (t : Text) : bodyLength .plain (quote :: t) = (0, none) := by
  simp [bodyLength]

theorem bodyLength_step (hq : s = .plain → c ≠ quote) (hs : s.step c = some r) (t : Text) :
    bodyLength s (c :: t) = ((bodyLength r t).1 + 1, (bodyLength r t).2) := by
  rw [bodyLength, if_neg (not_and.2 hq), hs]

theorem bodyLength_stop (hq : s = .plain → c ≠ quote) (hs : s.step c = none) (t : Text) :
    bodyLength s (c :: t) = (0, some s.expects) := by
  rw [bodyLength, if_neg (not_and.2 hq), hs]

theorem bodyLength_plain (hc : c ≠ '\\') (hq : c ≠ quote) (t : Text) :
    bodyLength .plain (c :: t) = ((bodyLength .plain t).1 + 1, (bodyLength .plain t).2) :=
  bodyLength_step (fun _ => hq) (by rw [StringState.step, if_neg hc]) t

theorem bodyLength_backslash (t : Text) :
    bodyLength .plain (CodePoint.ofChar '\\' :: t) = ((bodyLength .escaped t).1 + 1, (bodyLength .escaped t).2) :=
  bodyLength_step (by decide) rfl t

theorem bodyLength_simple (hc : Escape.isSimple c = true) (t : Text) :
    bodyLength .escaped (c :: t) = ((bodyLength .plain t).1 + 1, (bodyLength .plain t).2) :=
  bodyLength_step (by simp) (by rw [StringState.step, if_pos hc]) t

theorem bodyLength_u (t : Text) :
    bodyLength .escaped (CodePoint.ofChar 'u' :: t) = ((bodyLength (.unit 3) t).1 + 1, (bodyLength (.unit 3) t).2) :=
  bodyLength_step (by simp) (by decide) t

/-- The digits of a code unit are scanned to the last one. -/
theorem bodyLength_digits {k : Nat} {ds : Text} (hl : ds.length = k + 1) (hd : ds.all Hex.isDigit = true) (t : Text) :
    bodyLength (.unit k) (ds ++ t) = ((bodyLength .plain t).1 + (k + 1), (bodyLength .plain t).2) := by
  induction k generalizing ds with
  | zero =>
    obtain ⟨d, rfl⟩ := List.length_eq_one_iff.1 hl
    have hd' : Hex.isDigit d = true := by simpa using hd
    exact bodyLength_step (by simp) (by rw [StringState.step, if_pos hd', if_pos rfl]) t
  | succ k ih =>
    obtain _ | ⟨d, ds⟩ := ds
    · cases hl
    · rw [List.all_cons, Bool.and_eq_true] at hd
      rw [List.cons_append, bodyLength_step (r := .unit k) (by simp) (by simp [StringState.step, hd.1]),
        ih (Nat.succ.inj hl) hd.2]
      rfl

/-- The scan runs over a body, and goes on after it. -/
theorem bodyLength_body {b : Text} (hb : Body b) (t : Text) :
    bodyLength .plain (b ++ t) = ((bodyLength .plain t).1 + b.length, (bodyLength .plain t).2) := by
  induction hb with
  | nil => rfl
  | plain hc hq _ ih => rw [List.cons_append, bodyLength_plain hc hq, ih]; rfl
  | simple he _ ih => rw [List.cons_append, List.cons_append, bodyLength_backslash, bodyLength_simple he, ih]; rfl
  | @unit ds b hl hd _ ih =>
    rw [List.cons_append, List.cons_append, List.append_assoc, bodyLength_backslash, bodyLength_u,
      bodyLength_digits hl hd, ih]
    simp only [List.length_cons, List.length_append, hl, Prod.mk.injEq, and_true]
    omega

/-- A scan that takes a code point gets to its result from the state after it. -/
theorem bodyLength_step_inv {n : Nat} {e : Option Expectation} {t : Text} (hq : s = .plain → c ≠ quote)
    (hs : s.step c = some r) (h : bodyLength s (c :: t) = (n, e)) : ∃ m, bodyLength r t = (m, e) ∧ n = m + 1 := by
  rw [bodyLength_step hq hs] at h
  obtain ⟨hn, he⟩ := Prod.mk.inj h
  exact ⟨_, Prod.ext rfl he, hn.symm⟩

theorem step_of_bodyLength {n : Nat} {t : Text} (hq : s = .plain → c ≠ quote)
    (h : bodyLength s (c :: t) = (n, none)) : ∃ s', s.step c = some s' := by
  cases hs : s.step c with
  | none => rw [bodyLength_stop hq hs] at h; cases h
  | some s' => exact ⟨s', rfl⟩

/-- A scan of digits that comes to a closing quote has seen all digits of the unit. -/
theorem digits_of_bodyLength {k n : Nat} {t : Text} (h : bodyLength (.unit k) t = (n, none)) :
    ∃ ds r m, t = ds ++ r ∧ ds.length = k + 1 ∧ ds.all Hex.isDigit = true ∧ bodyLength .plain r = (m, none) ∧
      n = m + (k + 1) := by
  induction k generalizing t n with
  | zero =>
    obtain _ | ⟨d, r⟩ := t
    · cases h
    obtain ⟨s', hs⟩ := step_of_bodyLength (by simp) h
    obtain ⟨m, hm, rfl⟩ := bodyLength_step_inv (by simp) hs h
    simp only [StringState.step, Option.ite_none_right_eq_some, if_pos, Option.some.injEq] at hs
    obtain ⟨hd, rfl⟩ := hs
    exact ⟨[d], r, m, rfl, rfl, by simpa using hd, hm, rfl⟩
  | succ k ih =>
    obtain _ | ⟨d, r⟩ := t
    · cases h
    obtain ⟨s', hs⟩ := step_of_bodyLength (by simp) h
    obtain ⟨m, hm, rfl⟩ := bodyLength_step_inv (by simp) hs h
    simp only [StringState.step, Option.ite_none_right_eq_some, Nat.succ_ne_zero, if_false, Option.some.injEq,
      Nat.add_sub_cancel] at hs
    obtain ⟨hd, rfl⟩ := hs
    obtain ⟨ds, r', l, rfl, hl, hds, hb, rfl⟩ := ih hm
    exact ⟨d :: ds, r', l, rfl, by rw [List.length_cons, hl], by rw [List.all_cons, hd, hds]; rfl, hb, rfl⟩

/-- What the scan takes before a closing quote is a body. -/
theorem body_of_bodyLength {n : Nat} {t : Text} (h : bodyLength .plain t = (n, none)) :
    ∃ b r, t = b ++ quote :: r ∧ b.length = n ∧ Body b := by
  -- an escape takes more than one code point, so the induction is on the length
  induction hk : t.length using Nat.strongRecOn generalizing t n with
  | _ k ih =>
    subst hk
    obtain _ | ⟨c, t⟩ := t
    · cases h
    by_cases hq : c = quote
    · subst hq
      rw [bodyLength_quote] at h
      exact ⟨[], t, rfl, (Prod.mk.inj h).1, .nil⟩
    by_cases hc : c = '\\'
    · subst hc
      obtain ⟨n₁, h₁, rfl⟩ := bodyLength_step_inv (r := .escaped) (fun _ => hq) rfl h
      obtain _ | ⟨e, t⟩ := t
      · cases h₁
      obtain ⟨s', hs⟩ := step_of_bodyLength (by simp) h₁
      obtain ⟨n₂, h₂, rfl⟩ := bodyLength_step_inv (by simp) hs h₁
      rw [StringState.step] at hs
      split_ifs at hs with he hu
      · cases hs
        have hlt : t.length < (CodePoint.ofChar '\\' :: e :: t).length := by
          simp only [List.length_cons]
          omega
        obtain ⟨b, r, rfl, rfl, hb⟩ := ih t.length hlt h₂ rfl
        exact ⟨'\\' :: e :: b, r, rfl, rfl, .simple he hb⟩
      · cases hs
        subst hu
        obtain ⟨ds, t, m, rfl, hl, hds, hm, rfl⟩ := digits_of_bodyLength h₂
        have hlt : t.length < (CodePoint.ofChar '\\' :: CodePoint.ofChar 'u' :: (ds ++ t)).length := by
          simp only [List.length_cons, List.length_append]
          omega
        obtain ⟨b, r, rfl, rfl, hb⟩ := ih t.length hlt hm rfl
        refine ⟨'\\' :: 'u' :: (ds ++ b), r, by simp, ?_, .unit hl hds hb⟩
        rw [List.length_cons, List.length_cons, List.length_append, hl, Nat.add_comm (3 + 1)]
    · obtain ⟨n₁, h₁, rfl⟩ :=
        bodyLength_step_inv (r := .plain) (fun _ => hq) (by rw [StringState.step, if_neg hc]) h
      obtain ⟨b, r, rfl, rfl, hb⟩ := ih t.length (by simp) h₁ rfl
      exact ⟨c :: b, r, rfl, rfl, .plain hc hq hb⟩

/-! ## Scanning a longer text -/

theorem bodyLength_le (s : StringState) (t : Text) : (bodyLength s t).1 ≤ t.length := by
  fun_induction bodyLength s t with
  | case1 | case2 | case3 => exact Nat.zero_le _
  | case4 _ _ _ _ _ _ _ _ hb ih =>
    rw [hb] at ih
    exact Nat.succ_le_succ ih

/-- The scan looks at nothing beyond the place where it stops. -/
theorem bodyLength_append {t : Text} (h : (bodyLength s t).1 < t.length) (u : Text) :
    bodyLength s (t ++ u) = bodyLength s t := by
  induction t generalizing s with
  | nil => cases h
  | cons c t ih =>
    by_cases hq : s = .plain ∧ c = quote
    · obtain ⟨rfl, rfl⟩ := hq
      rw [List.cons_append, bodyLength_quote, bodyLength_quote]
    · have hq' := not_and.1 hq
      cases hs : s.step c with
      | none => rw [List.cons_append, bodyLength_stop hq' hs, bodyLength_stop hq' hs]
      | some s' =>
        rw [bodyLength_step hq' hs] at h
        rw [List.cons_append, bodyLength_step hq' hs, bodyLength_step hq' hs, ih (Nat.lt_of_succ_lt_succ h)]

/-- A scan that reaches the end of its text waits there in some state, from which it goes on in a longer one. -/
theorem bodyLength_append_end {t : Text} (h : (bodyLength s t).1 = t.length) :
    ∃ s', ∀ u, bodyLength s (t ++ u) = ((bodyLength s' u).1 + t.length, (bodyLength s' u).2) := by
  induction t generalizing s with
  | nil => exact ⟨s, fun u => rfl⟩
  | cons c t ih =>
    by_cases hq : s = .plain ∧ c = quote
    · obtain ⟨rfl, rfl⟩ := hq
      rw [bodyLength_quote] at h
      cases h
    · have hq' := not_and.1 hq
      cases hs : s.step c with
      | none => rw [bodyLength_stop hq' hs] at h; cases h
      | some s₁ =>
        rw [bodyLength_step hq' hs] at h
        obtain ⟨s', hs'⟩ := ih (Nat.succ.inj h)
        refine ⟨s', fun u => ?_⟩
        rw [List.cons_append, bodyLength_step hq' hs, hs']
        rfl

/-- What completes the escape that a scan is in. -/
def StringState.ending : StringState → Text
  | plain => []
  | escaped => ['n']
  | unit left => List.replicate (left + 1) '0'

/-- From every state the scan can be brought to a closing quote. -/
theorem bodyLength_ending (s : StringState) (t : Text) :
    bodyLength s (s.ending ++ quote :: t) = (s.ending.length, none) := by
  cases s with
  | plain => exact bodyLength_quote t
  | escaped =>
    show bodyLength .escaped (CodePoint.ofChar 'n' :: quote :: t) = (1, none)
    rw [bodyLength_simple (by decide), bodyLength_quote]
  | unit left =>
    have hd : (List.replicate (left + 1) (CodePoint.ofChar '0')).all Hex.isDigit = true := by
      rw [List.all_replicate, if_neg (Nat.succ_ne_zero _)]
      decide
    show bodyLength (.unit left) (List.replicate (left + 1) _ ++ quote :: t) = _
    rw [bodyLength_digits List.length_replicate hd, bodyLength_quote, StringState.ending, List.length_replicate,
      Nat.zero_add]

end Scan

/-! ## What a body denotes -/

section Decode

open Escape (Piece pieces assemble decode encode encodePoint)

variable {i : Nat} {c d e : CodePoint}

theorem pieces_plain (hc : c ≠ '\\') (t : Text) : pieces i (c :: t) = (pieces (i + 1) t).map (.point c :: ·) := by
  rw [Escape.pieces.eq_def]
  simp only [if_pos hc]

theorem pieces_simple (he : Escape.simple.lookup e = some d) (t : Text) :
    pieces i ('\\' :: e :: t) = (pieces (i + 2) t).map (.point d :: ·) := by
  rw [Escape.pieces.eq_def]
  simp [he]

theorem pieces_unit {ds : Text} (hl : ds.length = 4) (hd : ds.all Hex.isDigit = true) (t : Text) :
    pieces i ('\\' :: 'u' :: (ds ++ t)) = (pieces (i + 6) t).map (.unit (Hex.value ds).toUInt16 :: ·) := by
  obtain ⟨a₁, a₂, a₃, a₄, rfl⟩ : ∃ a₁ a₂ a₃ a₄, ds = [a₁, a₂, a₃, a₄] := by
    obtain _ | ⟨a₁, _ | ⟨a₂, _ | ⟨a₃, _ | ⟨a₄, _ | ⟨a₅, ds⟩⟩⟩⟩⟩ := ds <;> simp at hl
    exact ⟨a₁, a₂, a₃, a₄, rfl⟩
  have hu : Escape.simple.lookup (CodePoint.ofChar 'u') = none := by decide
  rw [Escape.pieces.eq_def]
  simp only [List.cons_append, List.nil_append, hu, hd, if_true, ne_eq, not_true_eq_false, if_false]

theorem pieces_body {b : Text} (hb : Body b) (i : Nat) : ∃ ps, pieces i b = .ok ps := by
  induction hb generalizing i with
  | nil => exact ⟨[], rfl⟩
  | plain hc _ _ ih =>
    obtain ⟨ps, hps⟩ := ih (i + 1)
    exact ⟨_, by rw [pieces_plain hc, hps]; rfl⟩
  | simple he _ ih =>
    obtain ⟨d, hd⟩ := Option.isSome_iff_exists.1 he
    obtain ⟨ps, hps⟩ := ih (i + 2)
    exact ⟨_, by rw [pieces_simple hd, hps]; rfl⟩
  | unit hl hds _ ih =>
    obtain ⟨ps, hps⟩ := ih (i + 6)
    exact ⟨_, by rw [pieces_unit hl hds, hps]; rfl⟩

/-- Every body denotes a text. -/
theorem decode_body {b : Text} (hb : Body b) : ∃ s, decode b = .ok s := by
  obtain ⟨ps, hps⟩ := pieces_body hb 0
  exact ⟨assemble ps, by rw [decode, hps]; rfl⟩

theorem stringLiteral_body {b s : Text} (hb : Body b) (hs : decode b = .ok s) (t : Text) :
    stringLiteral (b ++ quote :: t) = .found (.str s) (b.length + 2) := by
  rw [stringLiteral, bodyLength_body hb, bodyLength_quote]
  simp only [Nat.zero_add, List.take_left, hs]

/-- A literal that ends or breaks off inside a text is the same in every longer text. -/
theorem stringLiteral_append {t : Text} (h : (bodyLength .plain t).1 < t.length) (u : Text) :
    stringLiteral (t ++ u) = stringLiteral t := by
  rw [stringLiteral, stringLiteral, bodyLength_append h]
  rcases hl : bodyLength .plain t with ⟨m, _ | e⟩
  · rw [hl] at h
    dsimp only
    rw [List.take_append_of_le_length (Nat.le_of_lt h)]
  · rfl

/-! ## Written literals -/

theorem hexDigit_digit {n : Nat} (h : n < 16) : Hex.isDigit (Hex.digit n) = true := by
  have : ∀ n < 16, Hex.isDigit (Hex.digit n) = true := by decide
  exact this n h

theorem digitValue_digit {n : Nat} (h : n < 16) : Hex.digitValue (Hex.digit n) = n := by
  have : ∀ n < 16, Hex.digitValue (Hex.digit n) = n := by decide
  exact this n h

theorem all_digits (w n : Nat) : (Hex.digits w n).all Hex.isDigit = true := by
  induction w generalizing n with
  | zero => rfl
  | succ w ih =>
    rw [Hex.digits, List.all_append, ih, List.all_cons, hexDigit_digit (Nat.mod_lt _ (by decide))]
    rfl

theorem value_digits {w n : Nat} (h : n < 16 ^ w) : Hex.value (Hex.digits w n) = n := by
  induction w generalizing n with
  | zero => simp only [Nat.pow_zero, Nat.lt_one_iff] at h; subst h; rfl
  | succ w ih =>
    have hdiv : n / 16 < 16 ^ w := Nat.div_lt_of_lt_mul (by rw [Nat.pow_succ] at h; omega)
    rw [Hex.value, Hex.digits, List.foldl_append, ← Hex.value, ih hdiv]
    show 16 * (n / 16) + Hex.digitValue (Hex.digit (n % 16)) = n
    rw [digitValue_digit (Nat.mod_lt _ (by decide)), Nat.div_add_mod]

/-- A code point is written by a letter, by its code or as it is. -/
theorem encodePoint_cases (c : CodePoint) :
    (∃ e, Escape.simple.lookup e = some c ∧ encodePoint c = [CodePoint.ofChar '\\', e]) ∨
    (c.val < 0x80 ∧ encodePoint c = CodePoint.ofChar '\\' :: CodePoint.ofChar 'u' :: Hex.digits 4 c.val) ∨
    (c ≠ '\\' ∧ c ≠ quote ∧ (0x20 ≤ c.val ∧ c.val ≠ 0x7F) ∧ encodePoint c = [c]) := by
  by_cases h₁ : c = '\\'
  · subst h₁; exact .inl ⟨'\\', by decide, rfl⟩
  by_cases h₂ : c = quote
  · subst h₂; exact .inl ⟨quote, by decide, rfl⟩
  by_cases h₃ : c = '\n'
  · subst h₃; exact .inl ⟨'n', by decide, rfl⟩
  by_cases h₄ : c = '\r'
  · subst h₄; exact .inl ⟨'r', by decide, rfl⟩
  by_cases h₅ : c = '\t'
  · subst h₅; exact .inl ⟨'t', by decide, rfl⟩
  by_cases h₆ : c = '\x08'
  · subst h₆; exact .inl ⟨'b', by decide, rfl⟩
  by_cases h₇ : c = '\x0c'
  · subst h₇; exact .inl ⟨'f', by decide, rfl⟩
  rw [Escape.encodePoint, if_neg h₁, if_neg h₂, if_neg h₃, if_neg h₄, if_neg h₅, if_neg h₆, if_neg h₇]
  split
  · rename_i h₈
    simp only [Bool.or_eq_true, decide_eq_true_eq] at h₈
    exact .inr (.inl ⟨by omega, rfl⟩)
  · rename_i h₈
    simp only [Bool.or_eq_true, decide_eq_true_eq, not_or, Nat.not_lt] at h₈
    exact .inr (.inr ⟨h₁, h₂, h₈, rfl⟩)

/-- What a code point is written with is no control, and in ASCII if it is not the code point itself. -/
theorem mem_encodePoint {x : CodePoint} (h : x ∈ encodePoint c) :
    0x20 ≤ x.val ∧ x.val ≠ 0x7F ∧ (x = c ∨ x.val < 0x80) := by
  have hletters : ∀ p ∈ Escape.simple, 0x20 ≤ p.1.val ∧ p.1.val < 0x7F := by decide
  have hback : 0x20 ≤ (CodePoint.ofChar '\\').val ∧ (CodePoint.ofChar '\\').val < 0x7F := by decide
  have hu : 0x20 ≤ (CodePoint.ofChar 'u').val ∧ (CodePoint.ofChar 'u').val < 0x7F := by decide
  rcases encodePoint_cases c with ⟨e, he, hc⟩ | ⟨-, hc⟩ | ⟨-, -, hcontrol, hc⟩
  · obtain ⟨before, after, hsimple, -⟩ := List.lookup_eq_some_iff.1 he
    have hletter : 0x20 ≤ e.val ∧ e.val < 0x7F := hletters (e, c) (by simp [hsimple])
    rw [hc, List.mem_cons, List.mem_singleton] at h
    rcases h with rfl | rfl <;> omega
  · rw [hc, List.mem_cons, List.mem_cons] at h
    rcases h with rfl | rfl | h
    · omega
    · omega
    · have hdigit := List.all_eq_true.1 (all_digits 4 c.val) x h
      simp only [Hex.isDigit, Bool.or_eq_true, Bool.and_eq_true, decide_eq_true_eq] at hdigit
      omega
  · rw [hc, List.mem_singleton] at h
    subst h
    exact ⟨hcontrol.1, hcontrol.2, .inl rfl⟩

/-- A written body has no controls, and beyond ASCII only what the text has. -/
theorem mem_encode {x : CodePoint} {s : Text} (h : x ∈ encode s) :
    0x20 ≤ x.val ∧ x.val ≠ 0x7F ∧ (x ∈ s ∨ x.val < 0x80) := by
  obtain ⟨c, hc, hx⟩ := List.mem_flatMap.1 h
  obtain ⟨hlow, hdel, rfl | hascii⟩ := mem_encodePoint hx
  · exact ⟨hlow, hdel, .inl hc⟩
  · exact ⟨hlow, hdel, .inr hascii⟩

theorem body_encodePoint (c : CodePoint) : Body (encodePoint c) := by
  rcases encodePoint_cases c with ⟨e, he, h⟩ | ⟨-, h⟩ | ⟨hc, hq, -, h⟩
  · rw [h]
    exact .simple (by rw [Escape.isSimple, he]; rfl) .nil
  · have hb := Body.unit (Hex.length_digits 4 c.val) (all_digits 4 c.val) .nil
    rwa [List.append_nil, ← h] at hb
  · rw [h]
    exact .plain hc hq .nil

theorem body_encode (s : Text) : Body (encode s) := by
  induction s with
  | nil => exact .nil
  | cons c s ih => exact (body_encodePoint c).append ih

/-- The piece denotes the code point, whatever pieces are beside it. -/
def Denotes (p : Piece) (c : CodePoint) : Prop :=
  p = .point c ∨ ∃ u, p = .unit u ∧ Utf16.single u = c ∧ Utf16.isHigh u = false

theorem assemble_cons {p : Piece} {ps : List Piece} (h : Denotes p c) : assemble (p :: ps) = c :: assemble ps := by
  obtain rfl | ⟨u, rfl, rfl, hh⟩ := h
  · rfl
  · rcases ps with _ | ⟨_ | v, ps⟩
    · rfl
    · rfl
    · rw [assemble, hh]; rfl

theorem pieces_encodePoint (c : CodePoint) (i : Nat) (t : Text) :
    ∃ p, Denotes p c ∧ pieces i (encodePoint c ++ t) = (pieces (i + (encodePoint c).length) t).map (p :: ·) := by
  rcases encodePoint_cases c with ⟨e, he, h⟩ | ⟨hv, h⟩ | ⟨hc, -, -, h⟩
  · exact ⟨.point c, .inl rfl, by rw [h]; exact pieces_simple he t⟩
  · have hu : c.val.toUInt16.toNat = c.val := by
      rw [Nat.toUInt16, UInt16.toNat_ofNat']
      omega
    refine ⟨.unit c.val.toUInt16, .inr ⟨_, rfl, ?_, ?_⟩, ?_⟩
    · cases c
      simp only [Utf16.single, CodePoint.mk.injEq]
      exact hu
    · simp only [Utf16.isHigh, hu, Bool.and_eq_false_imp, decide_eq_true_eq, decide_eq_false_iff_not]
      omega
    · rw [h, List.cons_append, List.cons_append, pieces_unit (Hex.length_digits 4 c.val) (all_digits 4 c.val),
        value_digits (show c.val < 16 ^ 4 by omega)]
      simp only [List.length_cons, Hex.length_digits]
  · exact ⟨.point c, .inl rfl, by rw [h]; exact pieces_plain hc t⟩

theorem pieces_encode (s : Text) (i : Nat) : ∃ ps, pieces i (encode s) = .ok ps ∧ assemble ps = s := by
  induction s generalizing i with
  | nil => exact ⟨[], rfl, rfl⟩
  | cons c s ih =>
    obtain ⟨p, hp, hpieces⟩ := pieces_encodePoint c i (encode s)
    obtain ⟨ps, hps, hs⟩ := ih (i + (encodePoint c).length)
    refine ⟨p :: ps, ?_, by rw [assemble_cons hp, hs]⟩
    rw [Escape.encode, List.flatMap_cons, ← Escape.encode, hpieces, hps]
    rfl

/-- **A written literal denotes the text that was written.** -/
theorem decode_encode (s : Text) : decode (encode s) = .ok s := by
  obtain ⟨ps, hps, hs⟩ := pieces_encode s 0
  rw [decode, hps, ← hs]
  rfl

end Decode

end MalForms.Lexeme
