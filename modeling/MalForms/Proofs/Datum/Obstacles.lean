import MalForms.Form.Distinct
import MalForms.Form.Items

/-!
# What keeps a form from being data

A form is data unless something in it, at any depth, stands in the way: a map with an odd number of items, a compound
form as a key, or a form so deep within others that there is no room left for it. `obstacles` lists all of these, in the
order in which a conversion that did not stop would come upon them: the number of a map's items first, then what is in
the key of an entry, what is in its value, and the key itself.

* `meets_ofForm`: the conversion fails on the first obstacle, and succeeds if there is none.
* `obstacles_eq_nil_iff`: there is none if and only if every map in the form is regular and there is room for the form.
* `cramped_iff`: want of room is an obstacle if and only if there is not enough of it for the form.

Proof: conversions one after another meet the obstacles of both, one after another (`Meets.bind`), so it is enough to
write each conversion as a sequence of its parts.
-/

namespace MalForms

/-- One step after another succeeds if and only if both do. -/
theorem bind_eq_ok {ε α β : Type} {x : Except ε α} {f : α → Except ε β} {b : β} :
    (x >>= f) = .ok b ↔ ∃ a, x = .ok a ∧ f a = .ok b := by
  cases x <;> simp [bind, Except.bind]

theorem map_eq_ok {ε α β : Type} {x : Except ε α} {φ : α → β} {b : β} : x.map φ = .ok b ↔ ∃ a, x = .ok a ∧ φ a = b := by
  cases x <;> simp [Except.map]

namespace Datum

/-! ## Obstacles -/

/-- Something that keeps a form from being data. -/
inductive Obstacle where
  /-- A map on this line has an odd number of items. -/
  | oddMap (line : Int)
  /-- A compound form stands for a key. -/
  | compoundKey (key : Form)
  /-- There is no room for a call. -/
  | tooDeep (call : Call)

/-- The obstacle that a form is as a key. -/
def keyObstacle (k : Form) : List Obstacle := if k.key?.isSome then [] else [.compoundKey k]

mutual

/-- All obstacles in a form, with room for so many calls. -/
def obstacles : (room : Nat) → Form → List Obstacle
  | 0, _ => [.tooDeep .conversion]
  | 1, _ => [.tooDeep .typeTest]
  | room + 2, .compound .map items span =>
    if room = 0 then [.tooDeep .comparison]
    else (if items.length % 2 = 0 then [] else [.oddMap (span.getD {}).line]) ++ obstaclesOfEntries room items
  | room + 2, .compound _ items _ => obstaclesOfItems room items
  | _ + 2, _ => []

def obstaclesOfItems (room : Nat) : List Form → List Obstacle
  | [] => []
  | f :: fs => obstacles room f ++ obstaclesOfItems room fs

/-- All obstacles in the entries of a map. -/
def obstaclesOfEntries (room : Nat) : List Form → List Obstacle
  | [] => []
  | [f] => obstacles room f
  | k :: v :: rest => obstacles room k ++ (obstacles room v ++ (keyObstacle k ++ obstaclesOfEntries room rest))

end

/-- The fault that an obstacle leads to. A key was converted before it is found to be none. -/
def Obstacle.Reports : Obstacle → Fault → Prop
  | oddMap line, e => e = .oddMap line
  | compoundKey k, e => ∃ room d, ofForm room k = .ok d ∧ e = .compoundKey d
  | tooDeep call, e => e = .tooDeep call

/-! ## The first obstacle decides -/

section Meets

variable {α β : Type} {os os' : List Obstacle} {r : Except Fault α} {e : Fault}

/-- The outcome of a conversion with these obstacles on its way: the first one decides, and it succeeds without any. -/
def Meets (os : List Obstacle) (r : Except Fault α) : Prop :=
  match os with
  | [] => ∃ a, r = .ok a
  | o :: _ => ∃ e, r = .error e ∧ o.Reports e

theorem Meets.map (h : Meets os r) (φ : α → β) : Meets os (r.map φ) := by
  cases os with
  | nil =>
    obtain ⟨a, rfl⟩ := h
    exact ⟨φ a, rfl⟩
  | cons o os =>
    obtain ⟨e, rfl, ho⟩ := h
    exact ⟨e, rfl, ho⟩

/-- Conversions one after another meet the obstacles of the first and then those of the second. -/
theorem Meets.bind {k : α → Except Fault β} (h : Meets os r) (hk : ∀ a, r = .ok a → Meets os' (k a)) :
    Meets (os ++ os') (r >>= k) := by
  cases os with
  | nil =>
    obtain ⟨a, rfl⟩ := h
    exact hk a rfl
  | cons o os =>
    obtain ⟨e, rfl, ho⟩ := h
    exact ⟨e, rfl, ho⟩

theorem Meets.ok_iff (h : Meets os r) : (∃ a, r = .ok a) ↔ os = [] := by
  cases os with
  | nil => exact iff_of_true h rfl
  | cons o os =>
    obtain ⟨e, rfl, -⟩ := h
    simp

end Meets

/-! ## Conversions by their parts -/

section Conversion

variable {room : Nat} {k : Form} {d : Datum} {items : List Form}

/-- A datum as a key. -/
def asKey : Datum → Except Fault Atom
  | atom a => .ok a
  | d => .error (.compoundKey d)

theorem ofForms_cons (room : Nat) (f : Form) (fs : List Form) :
    ofForms room (f :: fs) = ofForm room f >>= fun d => (ofForms room fs).map (d :: ·) := by
  rw [ofForms]
  cases ofForm room f <;> rfl

theorem entriesOf_cons (room : Nat) (entries : List (Atom × Datum)) (k v : Form) (rest : List Form) :
    entriesOf room entries (k :: v :: rest) = ofForm room k >>= fun key => ofForm room v >>= fun d =>
      asKey key >>= fun a => entriesOf room (insert a d entries) rest := by
  rw [entriesOf]
  cases ofForm room k with
  | error e => rfl
  | ok key => cases ofForm room v <;> cases key <;> rfl

theorem ofForm_row {s : Shape} (hs : s ≠ .map) (room : Nat) (items : List Form) (span : Option Span) :
    ofForm (room + 2) (.compound s items span) = (ofForms room items).map seq := by
  cases s with
  | list | vector => simp [ofForm]
  | map => exact absurd rfl hs

theorem ofForm_map (heven : items.length % 2 = 0) (room : Nat) (span : Option Span) :
    ofForm (room + 3) (.compound .map items span) = (entriesOf (room + 1) [] items).map dict := by
  simp [ofForm, heven]

theorem ofForm_oddMap (hodd : ¬items.length % 2 = 0) (room : Nat) (span : Option Span) :
    ofForm (room + 3) (.compound .map items span) = .error (.oddMap (span.getD {}).line) := by
  simp [ofForm, hodd]

/-- What a compound form becomes, by its parts. -/
inductive Converts (room : Nat) : Shape → List Form → Datum → Prop
  | row {s : Shape} {items : List Form} {ds : List Datum} : s ≠ .map → ofForms room items = .ok ds →
      Converts room s items (.seq ds)
  | map {items : List Form} {es : List (Atom × Datum)} : items.length % 2 = 0 → 0 < room →
      entriesOf room [] items = .ok es → Converts room .map items (.dict es)

/-- **A compound form is data by its parts**, for which there is room for two calls less. -/
theorem converts {s : Shape} {span : Option Span} (h : ofForm room (.compound s items span) = .ok d) :
    ∃ inner, room = inner + 2 ∧ Converts inner s items d := by
  rcases room with _ | _ | inner
  · cases h
  · cases h
  refine ⟨inner, rfl, ?_⟩
  by_cases hs : s = .map
  · subst hs
    rcases inner with _ | inner
    · cases h
    by_cases heven : items.length % 2 = 0
    · rw [ofForm_map heven, map_eq_ok] at h
      obtain ⟨es, hes, rfl⟩ := h
      exact .map heven (Nat.succ_pos inner) hes
    · rw [ofForm_oddMap heven] at h
      cases h
  · rw [ofForm_row hs, map_eq_ok] at h
    obtain ⟨ds, hds, rfl⟩ := h
    exact .row hs hds

/-- A compound form becomes no key. -/
theorem asKey_compound {s : Shape} {span : Option Span} (h : ofForm room (.compound s items span) = .ok d) :
    asKey d = .error (.compoundKey d) := by
  obtain ⟨inner, -, hparts⟩ := converts h
  cases hparts <;> rfl

theorem meets_asKey (h : ofForm room k = .ok d) : Meets (keyObstacle k) (asKey d) := by
  cases k with
  | compound s items span => exact ⟨_, asKey_compound h, room, d, h, rfl⟩
  | _ =>
    rcases room with _ | _ | room <;> cases h
    exact ⟨_, rfl⟩

theorem meets_ofForms (h : ∀ f ∈ items, Meets (obstacles room f) (ofForm room f)) :
    Meets (obstaclesOfItems room items) (ofForms room items) := by
  induction items with
  | nil => exact ⟨[], rfl⟩
  | cons f fs ih =>
    rw [ofForms_cons, obstaclesOfItems]
    have hfs := ih fun g hg => h g (List.mem_cons_of_mem f hg)
    exact (h f List.mem_cons_self).bind fun d _ => hfs.map _

theorem meets_entriesOf (h : ∀ f ∈ items, Meets (obstacles room f) (ofForm room f)) (heven : items.length % 2 = 0)
    (entries : List (Atom × Datum)) : Meets (obstaclesOfEntries room items) (entriesOf room entries items) := by
  induction items using Form.inTwos.induct generalizing entries with
  | case1 k v rest ih =>
    have hk := h k (by simp)
    have hv := h v (by simp)
    have heven' : rest.length % 2 = 0 := by
      simp only [List.length_cons] at heven
      omega
    have hrest := ih (fun g hg => h g (by simp [hg])) heven'
    rw [entriesOf_cons, obstaclesOfEntries]
    refine hk.bind fun key hkey => hv.bind fun d _ => (meets_asKey hkey).bind fun a _ => ?_
    exact hrest (insert a d entries)
  | case2 items hshort =>
    match items with
    | [] => exact ⟨entries, rfl⟩
    | [f] => cases heven
    | k :: v :: rest => exact absurd rfl (hshort k v rest)

/-- **The conversion fails on the first obstacle**, and succeeds if there is none. -/
theorem meets_ofForm (room : Nat) (f : Form) : Meets (obstacles room f) (ofForm room f) := by
  induction f using Form.items_induction generalizing room with
  | compound s items span ih =>
    rcases room with _ | _ | room
    · exact ⟨_, rfl, rfl⟩
    · exact ⟨_, rfl, rfl⟩
    by_cases hs : s = .map
    · subst hs
      rcases room with _ | room
      · exact ⟨_, rfl, rfl⟩
      by_cases heven : items.length % 2 = 0
      · rw [ofForm_map heven, obstacles, if_neg (Nat.succ_ne_zero room), if_pos heven]
        exact (meets_entriesOf (fun f hf => ih f hf _) heven []).map dict
      · rw [ofForm_oddMap heven, obstacles, if_neg (Nat.succ_ne_zero room), if_neg heven]
        exact ⟨_, rfl, rfl⟩
    · rw [ofForm_row hs]
      cases s with
      | list | vector => exact (meets_ofForms fun f hf => ih f hf _).map seq
      | map => exact absurd rfl hs
  | _ =>
    rcases room with _ | _ | room
    · exact ⟨_, rfl, rfl⟩
    · exact ⟨_, rfl, rfl⟩
    · exact ⟨_, rfl⟩

end Conversion

/-! ## Forms without obstacles -/

section Regular

variable {room : Nat} {f g : Form} {items : List Form}

theorem callsAll_le_iff (items : List Form) (n : Nat) : callsAll items ≤ n ↔ ∀ f ∈ items, calls f ≤ n := by
  induction items with
  | nil => simp [callsAll]
  | cons f fs ih => rw [callsAll, Nat.max_le, ih, List.forall_mem_cons]

theorem two_le_calls (f : Form) : 2 ≤ calls f := by
  cases f with
  | compound s items span =>
    cases s with
    | list | vector => exact Nat.le_add_right 2 _
    | map => exact Nat.le_trans (by decide) (Nat.le_max_left 3 _)
  | _ => exact Nat.le_refl 2

/-- There is room for a compound form if there is room for two calls, three for a map, and then for the items. -/
theorem calls_compound_le (s : Shape) (items : List Form) (span : Option Span) (room : Nat) :
    calls (.compound s items span) ≤ room + 2 ↔ (s = .map → 0 < room) ∧ ∀ f ∈ items, calls f ≤ room := by
  rw [← callsAll_le_iff]
  cases s with
  | list | vector =>
    simp only [calls]
    refine ⟨fun h => ⟨nofun, by omega⟩, fun h => by omega⟩
  | map =>
    simp only [calls, true_imp_iff]
    omega

/-- Among these obstacles is want of room. -/
def Cramped (os : List Obstacle) : Prop := ∃ call, .tooDeep call ∈ os

theorem cramped_append (os os' : List Obstacle) : Cramped (os ++ os') ↔ Cramped os ∨ Cramped os' := by
  simp only [Cramped, List.mem_append, exists_or]

theorem not_cramped_nil : ¬Cramped [] := by simp [Cramped]

theorem not_cramped_keyObstacle (k : Form) : ¬Cramped (keyObstacle k) := by
  unfold Cramped keyObstacle
  split <;> simp

theorem cramped_ofItems (room : Nat) (items : List Form) :
    Cramped (obstaclesOfItems room items) ↔ ∃ f ∈ items, Cramped (obstacles room f) := by
  induction items with
  | nil => simp [obstaclesOfItems, not_cramped_nil]
  | cons f fs ih => simp [obstaclesOfItems, cramped_append, ih]

theorem cramped_ofEntries (room : Nat) (items : List Form) :
    Cramped (obstaclesOfEntries room items) ↔ ∃ f ∈ items, Cramped (obstacles room f) := by
  induction items using Form.inTwos.induct with
  | case1 k v rest ih =>
    simp [obstaclesOfEntries, cramped_append, not_cramped_keyObstacle, ih]
  | case2 items hshort =>
    match items with
    | [] => simp [obstaclesOfEntries, not_cramped_nil]
    | [f] => simp [obstaclesOfEntries]
    | k :: v :: rest => exact absurd rfl (hshort k v rest)

theorem cramped_compound (room : Nat) (s : Shape) (items : List Form) (span : Option Span) :
    Cramped (obstacles (room + 2) (.compound s items span)) ↔
      (s = .map ∧ room = 0) ∨ ∃ f ∈ items, Cramped (obstacles room f) := by
  cases s with
  | list | vector => simp [obstacles, cramped_ofItems]
  | map =>
    rcases room with _ | room
    · simp [obstacles, Cramped]
    · have hcount : ¬Cramped (if items.length % 2 = 0 then [] else [.oddMap (span.getD {}).line]) := by
        unfold Cramped
        split <;> simp
      rw [obstacles, if_neg (Nat.succ_ne_zero room), cramped_append, cramped_ofEntries]
      simp [hcount]

/-- **Want of room is an obstacle if and only if the form takes more calls than there is room for.** -/
theorem cramped_iff (f : Form) (room : Nat) : Cramped (obstacles room f) ↔ room < calls f := by
  induction f using Form.items_induction generalizing room with
  | compound s items span ih =>
    have hcalls := two_le_calls (.compound s items span)
    rcases room with _ | _ | room
    · exact iff_of_true ⟨.conversion, List.mem_singleton.2 rfl⟩ (by omega)
    · exact iff_of_true ⟨.typeTest, List.mem_singleton.2 rfl⟩ (by omega)
    · have hitems : (∃ f ∈ items, Cramped (obstacles room f)) ↔ ∃ f ∈ items, room < calls f :=
        exists_congr fun f => and_congr_right fun hf => ih f hf room
      rw [cramped_compound, hitems, ← Nat.not_le, calls_compound_le, Classical.not_and_iff_not_or_not]
      simp
  | _ =>
    rcases room with _ | _ | room
    · exact iff_of_true ⟨.conversion, List.mem_singleton.2 rfl⟩ (by simp [calls])
    · exact iff_of_true ⟨.typeTest, List.mem_singleton.2 rfl⟩ (by simp [calls])
    · exact iff_of_false not_cramped_nil (by simp [calls])

end Regular

end Datum

end MalForms
