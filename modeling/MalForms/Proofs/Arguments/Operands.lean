import MalForms.Proofs.Command.Shorthand
import Mathlib.Logic.Relation

/-!
# Which words are files

A word is an operand if it starts with no dash and is no value, and whether it is a value is told by the places of the
words before it (`valueAt`). `Arguments.split` walks over the words and takes one or two of them at a time.

* `split_laws`: the walk takes out exactly the operands, unless the first of them is a verb. What it finds depends on
  the order of the operands and on the order of the others, but not on how they are mixed.

Proof: words are made up of bundles, each a switch with its value, of operands, and of a last switch that may lack its
value (`words_induction`). A bundle adds to the others and an operand to the operands, wherever they stand
(`operands_bundle`, `operands_operand` and their siblings), and the walk follows (`divide?_eq`). All laws come from
there.
-/

namespace MalForms.Arguments

/-! ## Places -/

section Places

/-- Whether the word at a place is the value of the word before it: that one takes a value, and is no value itself. -/
def valueAt (words : List Text) : Nat → Bool
  | 0 => false
  | i + 1 => words[i]?.any takesValue && !valueAt words i

/-- Whether the word at a place is an operand. -/
def operandAt (words : List Text) (i : Nat) : Bool := words[i]?.any (!startsWithDash ·) && !valueAt words i

/-- The words at the places that `p` holds of, in their order. -/
def wordsAt (p : Nat → Bool) (words : List Text) : List Text := (words.zipIdx.filter fun w => p w.2).map Prod.fst

/-- The operands among the words. -/
def operands (words : List Text) : List Text := wordsAt (operandAt words) words

/-- The words that are no operands, but switches and values. -/
def others (words : List Text) : List Text := wordsAt (!operandAt words ·) words

/-- Whether the first operand is the name of a verb. -/
def opensWithVerb (words : List Text) : Bool := (operands words).head?.any fun t => (Verb.ofName? t).isSome

variable {p : Nat → Bool} {front ws : List Text}

theorem wordsAt_append (p : Nat → Bool) (front ws : List Text) :
    wordsAt p (front ++ ws) = wordsAt p front ++ wordsAt (fun i => p (front.length + i)) ws := by
  have hplaces : ws.zipIdx front.length = ws.zipIdx.map fun w => (w.1, front.length + w.2) := List.zipIdx_eq_map_add
  simp only [wordsAt, List.zipIdx_append, List.filter_append, List.map_append, Nat.zero_add, hplaces, List.filter_map,
    List.map_map, Function.comp_def]

theorem wordsAt_eq_nil (h : ∀ i < ws.length, p i = false) : wordsAt p ws = [] := by
  rw [wordsAt, List.map_eq_nil_iff, List.filter_eq_nil_iff]
  intro w hw
  rw [h w.2 (List.snd_lt_of_mem_zipIdx hw)]
  exact Bool.false_ne_true

theorem wordsAt_eq_self (h : ∀ i < ws.length, p i = true) : wordsAt p ws = ws := by
  have hall : ∀ w ∈ ws.zipIdx, p w.2 = true := fun w hw => h w.2 (List.snd_lt_of_mem_zipIdx hw)
  rw [wordsAt, List.filter_eq_self.2 hall, List.zipIdx_map_fst]

/-- After a word that is no value, places count from there. -/
theorem valueAt_append (h : valueAt (front ++ ws) front.length = false) (i : Nat) :
    valueAt (front ++ ws) (front.length + i) = valueAt ws i := by
  induction i with
  | zero => exact h
  | succ i ih =>
    rw [← Nat.add_assoc, valueAt, valueAt, ih, List.getElem?_append_right (Nat.le_add_right _ _),
      Nat.add_sub_cancel_left]

theorem operandAt_append (h : valueAt (front ++ ws) front.length = false) (i : Nat) :
    operandAt (front ++ ws) (front.length + i) = operandAt ws i := by
  rw [operandAt, operandAt, valueAt_append h, List.getElem?_append_right (Nat.le_add_right _ _),
    Nat.add_sub_cancel_left]

theorem operands_append (h : valueAt (front ++ ws) front.length = false) :
    operands (front ++ ws) = wordsAt (operandAt (front ++ ws)) front ++ operands ws := by
  rw [operands, wordsAt_append, operands]
  simp only [operandAt_append h]

theorem others_append (h : valueAt (front ++ ws) front.length = false) :
    others (front ++ ws) = wordsAt (!operandAt (front ++ ws) ·) front ++ others ws := by
  rw [others, wordsAt_append, others]
  simp only [operandAt_append h]

end Places

/-! ## Bundles and operands -/

section Parts

variable {b front ws ws' : List Text} {o : Operand}

/-- A switch with its value, if it takes one. -/
inductive Bundle : List Text → Prop
  | flag {t : Text} : startsWithDash t = true → takesValue t = false → Bundle [t]
  | valued {t value : Text} : takesValue t = true → Bundle [t, value]

theorem startsWithDash_of_takesValue {t : Text} (h : takesValue t = true) : startsWithDash t = true := by
  cases hd : startsWithDash t with
  | true => rfl
  | false => rw [takesValue_of_dashless hd] at h; cases h

/-- Every list of words is made up of bundles and operands, up to a last switch that lacks its value. -/
theorem words_induction {motive : List Text → Prop} (nil : motive [])
    (lacking : ∀ t, takesValue t = true → motive [t]) (bundle : ∀ b ws, Bundle b → motive ws → motive (b ++ ws))
    (operand : ∀ (o : Operand) ws, motive ws → motive (o.text :: ws)) : ∀ words, motive words
  | [] => nil
  | t :: ws => by
    have hws := words_induction nil lacking bundle operand ws
    cases hv : takesValue t with
    | true =>
      match ws with
      | [] => exact lacking t hv
      | value :: rest => exact bundle [t, value] rest (.valued hv) (words_induction nil lacking bundle operand rest)
    | false =>
      cases hd : startsWithDash t with
      | true => exact bundle [t] ws (.flag hd hv) hws
      | false => exact operand ⟨t, hd⟩ ws hws
termination_by words => words.length

theorem Bundle.operandAt_eq (hb : Bundle b) (ws : List Text) : ∀ i < b.length, operandAt (b ++ ws) i = false := by
  cases hb with
  | flag hd hv =>
    intro i hi
    obtain rfl : i = 0 := Nat.lt_one_iff.1 hi
    simp [operandAt, hd]
  | valued hv =>
    intro i hi
    obtain rfl | rfl : i = 0 ∨ i = 1 := by simp only [List.length_cons, List.length_nil] at hi; omega
    · simp [operandAt, startsWithDash_of_takesValue hv]
    · simp [operandAt, valueAt, hv]

theorem Bundle.valueAt_eq (hb : Bundle b) (ws : List Text) : valueAt (b ++ ws) b.length = false := by
  cases hb with
  | flag hd hv => simp [valueAt, hv]
  | valued hv => simp [valueAt, hv]

theorem operands_bundle (hb : Bundle b) (ws : List Text) : operands (b ++ ws) = operands ws := by
  rw [operands_append (hb.valueAt_eq ws), wordsAt_eq_nil (hb.operandAt_eq ws), List.nil_append]

theorem others_bundle (hb : Bundle b) (ws : List Text) : others (b ++ ws) = b ++ others ws := by
  rw [others_append (hb.valueAt_eq ws), wordsAt_eq_self]
  intro i hi
  rw [hb.operandAt_eq ws i hi]
  rfl

theorem operandAt_operand (o : Operand) (ws : List Text) : operandAt (o.text :: ws) 0 = true := by
  simp [operandAt, valueAt, o.dashless]

theorem valueAt_operand (o : Operand) (ws : List Text) : valueAt (o.text :: ws) 1 = false := by
  simp [valueAt, takesValue_of_dashless o.dashless]

theorem operands_operand (o : Operand) (ws : List Text) : operands (o.text :: ws) = o.text :: operands ws := by
  refine (@operands_append [o.text] ws (valueAt_operand o ws)).trans ?_
  simp [wordsAt, operandAt_operand]

theorem others_operand (o : Operand) (ws : List Text) : others (o.text :: ws) = others ws := by
  refine (@others_append [o.text] ws (valueAt_operand o ws)).trans ?_
  simp [wordsAt, operandAt_operand]

theorem operandAt_lacking {t : Text} (h : takesValue t = true) : operandAt [t] 0 = false := by
  simp [operandAt, startsWithDash_of_takesValue h]

theorem operands_lacking {t : Text} (h : takesValue t = true) : operands [t] = [] := by
  simp [operands, wordsAt, operandAt_lacking h]

theorem others_lacking {t : Text} (h : takesValue t = true) : others [t] = [t] := by
  simp [others, wordsAt, operandAt_lacking h]

/-! ## Operands by themselves, and the others by themselves -/

theorem exists_operands (words : List Text) : ∃ os : List Operand, operands words = os.map Operand.text := by
  induction words using words_induction with
  | nil => exact ⟨[], rfl⟩
  | lacking t h => exact ⟨[], operands_lacking h⟩
  | bundle b ws hb ih =>
    rw [operands_bundle hb]
    exact ih
  | operand o ws ih =>
    obtain ⟨os, hos⟩ := ih
    exact ⟨o :: os, by rw [operands_operand, hos, List.map_cons]⟩

theorem operands_others (words : List Text) : operands (others words) = [] := by
  induction words using words_induction with
  | nil => rfl
  | lacking t h => rw [others_lacking h, operands_lacking h]
  | bundle b ws hb ih => rw [others_bundle hb, operands_bundle hb, ih]
  | operand o ws ih => rw [others_operand, ih]

theorem others_others (words : List Text) : others (others words) = others words := by
  induction words using words_induction with
  | nil => rfl
  | lacking t h => rw [others_lacking h, others_lacking h]
  | bundle b ws hb ih => rw [others_bundle hb, others_bundle hb, ih]
  | operand o ws ih => rw [others_operand, ih]

theorem operands_map_append (os : List Operand) (ws : List Text) :
    operands (os.map Operand.text ++ ws) = os.map Operand.text ++ operands ws := by
  induction os with
  | nil => rfl
  | cons o os ih => rw [List.map_cons, List.cons_append, operands_operand, ih, List.cons_append]

theorem others_map_append (os : List Operand) (ws : List Text) : others (os.map Operand.text ++ ws) = others ws := by
  induction os with
  | nil => rfl
  | cons o os ih => rw [List.map_cons, List.cons_append, others_operand, ih]

/-! ## Other mixtures -/

/-- Bundles and operands, one after another, with no switch that lacks its value. -/
inductive Whole : List Text → Prop
  | nil : Whole []
  | bundle {b ws : List Text} : Bundle b → Whole ws → Whole (b ++ ws)
  | operand (o : Operand) {ws : List Text} : Whole ws → Whole (o.text :: ws)

/-- One operand moves to the front of the bundle before it. -/
inductive Swaps : List Text → List Text → Prop
  | swap {front b : List Text} (o : Operand) (rest : List Text) : Whole front → Bundle b →
      Swaps (front ++ (b ++ o.text :: rest)) (front ++ o.text :: (b ++ rest))

/-- The words come from one another by moving operands past bundles, forwards or backwards. -/
def Rearranged : List Text → List Text → Prop := Relation.EqvGen Swaps

/-- The words have the same operands and the same others, each in the same order. -/
def Alike (ws ws' : List Text) : Prop := operands ws = operands ws' ∧ others ws = others ws'

theorem Alike.behind (hf : Whole front) (h : Alike ws ws') : Alike (front ++ ws) (front ++ ws') := by
  induction hf with
  | nil => exact h
  | bundle hb _ ih =>
    rw [Alike, List.append_assoc, List.append_assoc, operands_bundle hb, operands_bundle hb, others_bundle hb,
      others_bundle hb]
    exact ⟨ih.1, congrArg _ ih.2⟩
  | operand o _ ih =>
    rw [Alike, List.cons_append, List.cons_append, operands_operand, operands_operand, others_operand, others_operand]
    exact ⟨congrArg _ ih.1, ih.2⟩

theorem Swaps.alike (h : Swaps ws ws') : Alike ws ws' := by
  obtain ⟨o, rest, hf, hb⟩ := h
  apply Alike.behind hf
  constructor
  · rw [operands_bundle hb, operands_operand, operands_operand, operands_bundle hb]
  · rw [others_bundle hb, others_operand, others_operand, others_bundle hb]

/-- Moving operands past bundles keeps the operands and the others in their orders. -/
theorem Rearranged.alike (h : Rearranged ws ws') : Alike ws ws' := by
  induction h with
  | rel _ _ hs => exact hs.alike
  | refl _ => exact ⟨rfl, rfl⟩
  | symm _ _ _ ih => exact ⟨ih.1.symm, ih.2.symm⟩
  | trans _ _ _ _ _ ih ih' => exact ⟨ih.1.trans ih'.1, ih.2.trans ih'.2⟩

/-- The operands can stand in front of the others. -/
theorem alike_front (words : List Text) : Alike words (operands words ++ others words) := by
  obtain ⟨os, hos⟩ := exists_operands words
  constructor
  · rw [hos, operands_map_append, operands_others, List.append_nil]
  · rw [hos, others_map_append, others_others]

end Parts

/-! ## The walk over the words -/

section Walk

variable {first : Bool} {b : List Text}

theorem divide?_bundle (hb : Bundle b) (ws : List Text) :
    divide? first (b ++ ws) = (divide? first ws).map fun (switches, files) => (b ++ switches, files) := by
  cases hb with
  | flag hd hv => exact divide?_switch hv hd ws
  | valued hv =>
    rw [List.cons_append, List.cons_append, List.nil_append, divide?, if_pos hv]
    rfl

theorem divide?_verb_first {o : Operand} (h : (first && (Verb.ofName? o.text).isSome) = true) (ws : List Text) :
    divide? first (o.text :: ws) = none := by
  cases ws with
  | nil => simp [divide?, o.dashless, h]
  | cons u rest => simp [divide?, takesValue_of_dashless o.dashless, o.dashless, h]

/-- The walk comes to the operands and the others, unless it starts at a verb. -/
theorem divide?_eq (first : Bool) (words : List Text) :
    divide? first words = if first && opensWithVerb words then none else some (others words, operands words) := by
  induction words using words_induction generalizing first with
  | nil => cases first <;> rfl
  | lacking t h =>
    rw [opensWithVerb, operands_lacking h, others_lacking h]
    simp [divide?, startsWithDash_of_takesValue h]
  | bundle b ws hb ih =>
    rw [divide?_bundle hb, ih, opensWithVerb, opensWithVerb, operands_bundle hb, others_bundle hb]
    split <;> rfl
  | operand o ws ih =>
    have hopens : opensWithVerb (o.text :: ws) = (Verb.ofName? o.text).isSome := by
      rw [opensWithVerb, operands_operand]
      rfl
    rw [hopens]
    cases hverb : first && (Verb.ofName? o.text).isSome with
    | true => exact divide?_verb_first hverb ws
    | false =>
      have hnone : first = true → Verb.ofName? o.text = none := by
        rintro rfl
        simpa using hverb
      rw [divide?_operand o hnone, ih, operands_operand, others_operand]
      rfl

theorem split_eq (words : List Text) :
    split words = if opensWithVerb words then (words, []) else (others words, operands words) := by
  rw [split, divide?_eq, Bool.true_and]
  split <;> rfl

/-- Words that are alike are divided the same, unless they come after a verb. -/
theorem Alike.split_eq {ws ws' : List Text} (h : Alike ws ws') (hverb : opensWithVerb ws = false) :
    split ws' = (others ws, operands ws) := by
  have hverb' : opensWithVerb ws' = false := by rw [opensWithVerb, ← h.1]; exact hverb
  rw [Arguments.split_eq, hverb', ← h.1, ← h.2]
  rfl

/-- **The files are the operands.** If the first operand is a verb, all words stay. Otherwise the operands come out in
their order and the others stay in theirs; the operands in front of the others, or in any mixture that keeps each switch
with its value, come out the same, and the others alone have none. -/
theorem split_laws (words : List Text) :
    (opensWithVerb words = true ∧ split words = (words, [])) ∨
    (opensWithVerb words = false ∧ split words = (others words, operands words) ∧
      split (operands words ++ others words) = (others words, operands words) ∧
      split (others words) = (others words, []) ∧
      ∀ words', Rearranged words words' → split words' = (others words, operands words)) := by
  cases hverb : opensWithVerb words with
  | true =>
    left
    exact ⟨rfl, by rw [split_eq, hverb]; rfl⟩
  | false =>
    right
    refine ⟨rfl, Alike.split_eq ⟨rfl, rfl⟩ hverb, (alike_front words).split_eq hverb, ?_, ?_⟩
    · have hnone : opensWithVerb (others words) = false := by rw [opensWithVerb, operands_others]; rfl
      rw [split_eq, hnone, others_others, operands_others]
      rfl
    · intro words' h
      exact h.alike.split_eq hverb

/-- A value and the second file are called as verbs are, another value looks like a switch, and the last switch lacks its
value. One file moves past the switch behind it. -/
theorem split_laws_verbs :
    let words : List Text := ["--log", "check", "a", "--config", "-v", "read", "-c"]
    let moved : List Text := ["--log", "check", "--config", "-v", "a", "read", "-c"]
    let switches : List Text := ["--log", "check", "--config", "-v", "-c"]
    let files : List Text := ["a", "read"]
    Rearranged words moved ∧ opensWithVerb words = false ∧ split moved = (switches, files) ∧
      split (files ++ switches) = (switches, files) ∧ split switches = (switches, []) := by
  intro words moved switches files
  have hfront : Whole ["--log", "check"] := .bundle (.valued (by decide)) .nil
  have hconfig : Bundle ["--config", "-v"] := .valued (by decide)
  have hswaps : Swaps moved words := .swap ⟨"a", by decide⟩ ["read", "-c"] hfront hconfig
  have hmoved : Rearranged words moved := .symm _ _ (.rel _ _ hswaps)
  have hverb : opensWithVerb words = false := by decide
  rcases split_laws words with ⟨h, -⟩ | ⟨-, -, hbehind, halone, hany⟩
  · rw [hverb] at h
    cases h
  · exact ⟨hmoved, hverb, hany moved hmoved, hbehind, halone⟩

end Walk

end MalForms.Arguments
