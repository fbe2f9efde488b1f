import MalForms.Proofs.Datum.Obstacles
import MalForms.Proofs.Form.Erasure
import Mathlib.Data.List.Forall2

/-!
# What maps become

A map becomes a dictionary with one entry for each class of keys that are one key as data: the first key of the class in
its place, and the value of the last entry of the class (`Collects`).

* `ofForm_mono`: with more room a form becomes the same.
* `conversion_laws`: which forms are data, why the others are not, and what becomes of compound forms at any depth.
* `ofForm_nested`: however much room there is, some nested lists are too deep for it.

Proof: a dictionary is looked at through its keys and through the value of a key, and for both there is a law of
`insert` (`keys_insert`, `get?_insert`). What they say of the entries so far is kept by one more entry
(`Gathers.insert`), and so it holds of all entries (`gathers_entriesOf`). The items of a compound form are converted with
less room than the form; that they would become the same with as much as the form has lets one room do for all depths.
-/

namespace MalForms

/-- The key once it is data, in which symbols and keywords are strings. -/
def Key.plain : Key → Key
  | symbol name => str name
  | keyword name => str name
  | k => k

namespace Form

/-- What a form is told apart by as the key of an entry. -/
def entryKey? (f : Form) : Option Key := f.key?.map Key.plain

/-- The keys of entries, of each class the first one. -/
def firstKeys (ps : List (Form × Form)) : List Form :=
  (ps.map Prod.fst).eraseDupsBy fun f g => f.entryKey? = g.entryKey?

/-- The value of the last entry in the class of a key. -/
def lastValue? (k : Form) (ps : List (Form × Form)) : Option Form :=
  (ps.filter fun p => p.1.entryKey? = k.entryKey?).getLast?.map Prod.snd

/-! ## One more entry -/

section Concat

/-- Told apart by `φ`, one more element is the first of its class or not. -/
theorem eraseDupsBy_concat {α β : Type} [DecidableEq β] (φ : α → β) (as : List α) (x : α) :
    (as ++ [x]).eraseDupsBy (fun a b => φ a = φ b) =
      as.eraseDupsBy (fun a b => φ a = φ b) ++ if as.any (fun a => φ a = φ x) then [] else [x] := by
  match as with
  | [] => simp [List.eraseDupsBy_cons]
  | a :: as =>
    rw [List.cons_append, List.eraseDupsBy_cons, List.eraseDupsBy_cons, List.filter_append]
    by_cases hx : φ x = φ a
    · simp [hx]
    · -- an element of the class of `x` is not in the class of `a`, so it is still there
      have hany : (as.filter fun b => decide (φ b = φ a) = false).any (fun b => φ b = φ x) =
          as.any fun b => φ b = φ x := by
        rw [List.any_filter]
        congr 1
        funext b
        by_cases hb : φ b = φ x <;> simp [hb, hx]
      have hkept : [x].filter (fun b => decide (φ b = φ a) = false) = [x] := by simp [hx]
      rw [hkept, eraseDupsBy_concat φ (as.filter fun b => decide (φ b = φ a) = false) x, hany, List.any_cons,
        decide_eq_false (Ne.symm hx), Bool.false_or, List.cons_append]
termination_by as.length
decreasing_by
  simp only [List.length_cons]
  exact Nat.lt_succ_of_le (List.length_filter_le _ _)

theorem isSome_lastValue? (k : Form) (ps : List (Form × Form)) :
    (lastValue? k ps).isSome = (ps.map Prod.fst).any fun f => f.entryKey? = k.entryKey? := by
  rw [lastValue?, Option.isSome_map, List.any_map, Bool.eq_iff_iff]
  simp

theorem firstKeys_concat (ps : List (Form × Form)) (k v : Form) :
    firstKeys (ps ++ [(k, v)]) = firstKeys ps ++ if (lastValue? k ps).isSome then [] else [k] := by
  rw [firstKeys, List.map_append, isSome_lastValue?]
  exact eraseDupsBy_concat entryKey? (ps.map Prod.fst) k

theorem lastValue?_concat (k : Form) (ps : List (Form × Form)) (k' v : Form) :
    lastValue? k (ps ++ [(k', v)]) = if k'.entryKey? = k.entryKey? then some v else lastValue? k ps := by
  simp only [lastValue?, List.filter_append]
  split <;> simp_all

end Concat

end Form

namespace Datum

open Form (inTwos firstKeys lastValue?)

/-! ## Dictionaries by their keys -/

section Insert

variable {a : Atom} {d : Datum} {es : List (Atom × Datum)}

/-- What an atom is told apart by as a key. -/
def Atom.key : Atom → Key
  | null => .nil
  | bool b => .number b.toInt
  | int n => .number n
  | str s => .str s

theorem Atom.key_inj (a b : Atom) : a.key = b.key ↔ a.number = b.number := by
  cases a <;> cases b <;> simp [Atom.key, Atom.number]

theorem entryKey?_of_ofForm {room : Nat} {k : Form} (h : ofForm room k = .ok (.atom a)) :
    k.entryKey? = some a.key := by
  cases k with
  | compound s items span => cases asKey_compound h
  | _ =>
    rcases room with _ | _ | room <;> cases h
    rfl

theorem get?_insert (a : Atom) (d : Datum) (es : List (Atom × Datum)) (b : Atom) :
    get? b (insert a d es) = if a.number = b.number then some d else get? b es := by
  induction es with
  | nil => rfl
  | cons e es ih =>
    rw [insert]
    by_cases he : e.1.number = a.number
    · rw [if_pos he, get?, get?, he]
      split <;> rfl
    · rw [if_neg he, get?, get?, ih]
      by_cases hb : e.1.number = b.number
      · rw [if_pos hb, if_pos hb, if_neg fun hab => he (hb.trans hab.symm)]
      · rw [if_neg hb, if_neg hb]

theorem keys_insert (a : Atom) (d : Datum) (es : List (Atom × Datum)) :
    (insert a d es).map Prod.fst = es.map Prod.fst ++ if (get? a es).isSome then [] else [a] := by
  induction es with
  | nil => rfl
  | cons e es ih =>
    rw [insert]
    split <;> rename_i he <;> simp [get?, he, ih]

end Insert

/-! ## More room -/

section Room

variable {room room' : Nat} {items : List Form} {k v : Form} {es entries : List (Atom × Datum)} {ds : List Datum}

theorem entriesOf_cons_ok {rest : List Form} (h : entriesOf room entries (k :: v :: rest) = .ok es) :
    ∃ a d, ofForm room k = .ok (.atom a) ∧ ofForm room v = .ok d ∧
      entriesOf room (Datum.insert a d entries) rest = .ok es := by
  rw [entriesOf_cons] at h
  obtain ⟨key, hk, h⟩ := bind_eq_ok.1 h
  obtain ⟨d, hv, h⟩ := bind_eq_ok.1 h
  obtain ⟨a, ha, h⟩ := bind_eq_ok.1 h
  cases key with
  | atom a =>
    cases ha
    exact ⟨a, d, hk, hv, h⟩
  | seq _ | dict _ => cases ha

/-- With more room the items become the same. -/
def Keeps (room room' : Nat) (items : List Form) : Prop :=
  ∀ f ∈ items, ∀ d, ofForm room f = .ok d → ofForm room' f = .ok d

theorem ofForms_keeps (h : Keeps room room' items) (hds : ofForms room items = .ok ds) :
    ofForms room' items = .ok ds := by
  induction items generalizing ds with
  | nil => exact hds
  | cons f fs ih =>
    rw [ofForms_cons] at hds ⊢
    obtain ⟨d, hf, hrest⟩ := bind_eq_ok.1 hds
    obtain ⟨ds', hfs, rfl⟩ := map_eq_ok.1 hrest
    rw [h f List.mem_cons_self d hf, ih (fun g hg => h g (List.mem_cons_of_mem f hg)) hfs]
    rfl

theorem entriesOf_keeps (h : Keeps room room' items) (hes : entriesOf room entries items = .ok es) :
    entriesOf room' entries items = .ok es := by
  induction items using Form.inTwos.induct generalizing entries with
  | case1 k v rest ih =>
    obtain ⟨a, d, hk, hv, hrest⟩ := entriesOf_cons_ok hes
    rw [entriesOf_cons, h k (by simp) _ hk, h v (by simp) _ hv]
    exact ih (fun g hg => h g (by simp [hg])) hrest
  | case2 items hshort =>
    rcases items with _ | ⟨k, _ | ⟨v, rest⟩⟩
    · exact hes
    · exact hes
    · exact absurd rfl (hshort k v rest)

/-- **With more room a form becomes the same.** -/
theorem ofForm_mono {f : Form} {d : Datum} (hroom : room ≤ room') (h : ofForm room f = .ok d) :
    ofForm room' f = .ok d := by
  induction f using Form.items_induction generalizing room room' d with
  | compound s items span ih =>
    obtain ⟨inner, rfl, hparts⟩ := converts h
    obtain ⟨inner', rfl⟩ := Nat.exists_eq_add_of_le' (Nat.le_trans (Nat.le_add_left 2 inner) hroom)
    have hkeeps : Keeps inner inner' items := fun f hf d hd => ih f hf (Nat.le_of_add_le_add_right hroom) hd
    cases hparts with
    | row hs hds => rw [ofForm_row hs, ofForms_keeps hkeeps hds]; rfl
    | map heven hpos hes =>
      obtain ⟨n, rfl⟩ := Nat.exists_eq_add_of_le' (Nat.le_trans hpos (Nat.le_of_add_le_add_right hroom))
      rw [ofForm_map heven, entriesOf_keeps hkeeps hes]
      rfl
  | _ =>
    rcases room with _ | _ | room <;> cases h
    obtain ⟨n, rfl⟩ := Nat.exists_eq_add_of_le' (Nat.le_trans (Nat.le_add_left 2 room) hroom)
    rfl

/-- However much room there is, a form becomes one thing only. -/
theorem ofForm_unique {f : Form} {d d' : Datum} (h : ofForm room f = .ok d) (h' : ofForm room' f = .ok d') : d = d' := by
  have hmax := ofForm_mono (Nat.le_max_left room room') h
  rw [ofForm_mono (Nat.le_max_right room room') h'] at hmax
  exact (Except.ok.inj hmax).symm

end Room

/-! ## Entries gathered one by one -/

section Gathers

variable {room room' : Nat} {ps : List (Form × Form)} {es entries : List (Atom × Datum)} {k v : Form} {a : Atom}
  {d : Datum}

/-- A dictionary with the entries so far: its keys, in order and all different, and the value of each key. -/
structure Gathers (room : Nat) (ps : List (Form × Form)) (es : List (Atom × Datum)) : Prop where
  keys : (firstKeys ps).map (ofForm room) = es.map fun e => .ok (.atom e.1)
  value : ∀ k a, k.entryKey? = some a.key → (lastValue? k ps).map (ofForm room) = (get? a es).map .ok
  distinct : (es.map Prod.fst).Pairwise fun a b => a.number ≠ b.number

theorem Gathers.isSome_eq (h : Gathers room ps es) (hk : k.entryKey? = some a.key) :
    (lastValue? k ps).isSome = (get? a es).isSome := by
  rw [← Option.isSome_map (f := ofForm room), h.value k a hk, Option.isSome_map]

theorem get?_eq_none_iff (a : Atom) (es : List (Atom × Datum)) :
    get? a es = none ↔ ∀ e ∈ es, e.1.number ≠ a.number := by
  induction es with
  | nil => simp [get?]
  | cons e es ih =>
    rw [get?, List.forall_mem_cons, ← ih]
    split <;> simp_all

theorem distinct_insert (h : (es.map Prod.fst).Pairwise fun a b => a.number ≠ b.number) (a : Atom) (d : Datum) :
    ((Datum.insert a d es).map Prod.fst).Pairwise fun a b => a.number ≠ b.number := by
  rw [keys_insert]
  split
  · simpa using h
  · rename_i hnew
    rw [Bool.not_eq_true, Option.isSome_eq_false_iff, Option.isNone_iff_eq_none, get?_eq_none_iff] at hnew
    refine List.pairwise_append.2 ⟨h, List.pairwise_singleton _ _, fun b hb c hc => ?_⟩
    obtain ⟨e, he, rfl⟩ := List.mem_map.1 hb
    rw [List.mem_singleton.1 hc]
    exact hnew e he

/-- **One more entry**: the dictionary gathers it too. -/
theorem Gathers.insert (h : Gathers room ps es) (hk : ofForm room k = .ok (.atom a)) (hv : ofForm room v = .ok d) :
    Gathers room (ps ++ [(k, v)]) (insert a d es) where
  keys := by
    have hkeys : (Datum.insert a d es).map (fun e => Except.ok (ε := Fault) (atom e.1)) =
        ((Datum.insert a d es).map Prod.fst).map fun b => .ok (.atom b) := by simp
    rw [hkeys, keys_insert, Form.firstKeys_concat, h.isSome_eq (entryKey?_of_ofForm hk), List.map_append, h.keys]
    split <;> simp [hk]
  value k' b hb := by
    have hclass : k.entryKey? = k'.entryKey? ↔ a.number = b.number := by
      rw [entryKey?_of_ofForm hk, hb, Option.some_inj, Atom.key_inj]
    rw [Form.lastValue?_concat, get?_insert]
    by_cases hab : a.number = b.number
    · rw [if_pos (hclass.2 hab), if_pos hab, Option.map_some, hv, Option.map_some]
    · rw [if_neg (mt hclass.1 hab), if_neg hab, h.value k' b hb]
  distinct := distinct_insert h.distinct a d

theorem gathers_nil : Gathers room [] [] := ⟨rfl, fun _ _ _ => rfl, .nil⟩

/-- What was gathered with less room is gathered with more. -/
theorem Gathers.mono (h : Gathers room ps es) (hroom : room ≤ room') : Gathers room' ps es where
  keys := by
    have hkeys := h.keys
    rw [← List.forall₂_eq_eq_eq, List.forall₂_map_left_iff, List.forall₂_map_right_iff] at hkeys ⊢
    exact hkeys.imp fun _ _ hk => ofForm_mono hroom hk
  value k a hk := by
    have hvalue := h.value k a hk
    cases hlast : lastValue? k ps with
    | none => rwa [hlast] at hvalue
    | some v =>
      rw [hlast, Option.map_some] at hvalue
      obtain ⟨d, hd, hv⟩ := Option.map_eq_some_iff.1 hvalue.symm
      rw [hd, Option.map_some, Option.map_some, ofForm_mono hroom hv.symm]
  distinct := h.distinct

/-- All entries of a map are gathered, after those there were. -/
theorem gathers_entriesOf {items : List Form} (h : Gathers room ps entries)
    (hes : entriesOf room entries items = .ok es) : Gathers room (ps ++ inTwos items) es := by
  induction items using Form.inTwos.induct generalizing ps entries with
  | case1 k v rest ih =>
    obtain ⟨a, d, hk, hv, hrest⟩ := entriesOf_cons_ok hes
    have hall := ih (h.insert hk hv) hrest
    rwa [List.append_assoc] at hall
  | case2 items hshort =>
    rcases items with _ | ⟨k, _ | ⟨v, rest⟩⟩
    · cases hes
      rwa [Form.inTwos.eq_def, List.append_nil]
    · cases hes
      rwa [Form.inTwos.eq_def, List.append_nil]
    · exact absurd rfl (hshort k v rest)

/-- The entries of a dictionary, one for each class of keys in the order of the first keys: the first key and the last
value of the class, as data. -/
def Collects (room : Nat) (ps : List (Form × Form)) (es : List (Atom × Datum)) : Prop :=
  List.Forall₂ (fun k e => ofForm room k = .ok (.atom e.1) ∧ (lastValue? k ps).map (ofForm room) = some (.ok e.2))
    (firstKeys ps) es

end Gathers

/-! ## The laws of conversion -/

section Laws

variable {room room' : Nat} {f g : Form} {s : Shape} {items : List Form} {span : Option Span} {d : Datum} {e e' : Fault}

theorem Obstacle.Reports.eq {o : Obstacle} (h : o.Reports e) (h' : o.Reports e') : e = e' := by
  cases o with
  | oddMap line => exact Eq.trans h h'.symm
  | compoundKey k =>
    obtain ⟨room, d, hd, rfl⟩ := h
    obtain ⟨room', d', hd', rfl⟩ := h'
    rw [ofForm_unique hd hd']
  | tooDeep call => exact Eq.trans h h'.symm

/-- A form that is no data fails with what its first obstacle reports. -/
theorem ofForm_eq_error_iff (room : Nat) (f : Form) (e : Fault) :
    ofForm room f = .error e ↔ ∃ o, (obstacles room f).head? = some o ∧ o.Reports e := by
  have hmeets := meets_ofForm room f
  cases hos : obstacles room f with
  | nil =>
    obtain ⟨d, hd⟩ := hmeets.ok_iff.2 hos
    simp [hd]
  | cons o os =>
    rw [hos] at hmeets
    obtain ⟨e', he', ho⟩ := hmeets
    rw [he', List.head?_cons]
    constructor
    · rintro ⟨rfl⟩
      exact ⟨o, rfl, ho⟩
    · rintro ⟨_, ⟨rfl⟩, ho'⟩
      rw [ho.eq ho']

theorem ofForm_tooDeep_iff (room : Nat) (f : Form) (call : Call) :
    ofForm room f = .error (.tooDeep call) ↔ (obstacles room f).head? = some (.tooDeep call) := by
  rw [ofForm_eq_error_iff]
  constructor
  · rintro ⟨o, ho, hreports⟩
    cases o with
    | oddMap line => cases hreports
    | compoundKey k =>
      obtain ⟨_, _, _, hkey⟩ := hreports
      cases hkey
    | tooDeep call' =>
      cases hreports
      exact ho
  · intro hhead
    exact ⟨_, hhead, rfl⟩

/-- The dictionary of a map gathers its entries. -/
theorem gathers_ofForm (h : ofForm room (.compound .map items span) = .ok d) :
    ∃ es, d = .dict es ∧ Gathers room (inTwos items) es := by
  obtain ⟨inner, rfl, hparts⟩ := converts h
  cases hparts with
  | row hs _ => exact absurd rfl hs
  | map _ _ hes => exact ⟨_, rfl, (gathers_entriesOf gathers_nil hes).mono (Nat.le_add_right inner 2)⟩

/-- **However much room there is, there is not enough for every form**, although none of its maps is to blame: so many
lists within one another are too deep, whatever places they carry. -/
theorem ofForm_nested {n : Nat} (hroom : room < 2 * n + 2) (hf : f.erase = .nested n) :
    ∃ call, ofForm room f = .error (.tooDeep call) := by
  induction n generalizing room f with
  | zero =>
    obtain ⟨items, span, rfl, -⟩ := Form.eq_compound_of_erase hf
    rcases room with _ | _ | room
    · exact ⟨.conversion, rfl⟩
    · exact ⟨.typeTest, rfl⟩
    · omega
  | succ n ih =>
    obtain ⟨items, span, rfl, hitems⟩ := Form.eq_compound_of_erase hf
    rcases room with _ | _ | room
    · exact ⟨.conversion, rfl⟩
    · exact ⟨.typeTest, rfl⟩
    · obtain ⟨g, rfl, hg⟩ := List.map_eq_singleton_iff.1 hitems
      obtain ⟨call, hcall⟩ := @ih room g (by omega) hg
      refine ⟨call, ?_⟩
      rw [ofForm_row (by decide), ofForms_cons, hcall]
      rfl

end Laws

end Datum

end MalForms
