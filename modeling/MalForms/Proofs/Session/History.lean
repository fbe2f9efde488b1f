import MalForms.Proofs.Session.Buffer

/-!
# The history of a session

* `history_kept`: the counter is the number of results in the history that were no errors, whatever happens to a session;
  and as long as neither the buffer nor the history is cleared, every line that is fed stands in exactly one place: in the
  code of one new entry of the history, or in the buffer. Each entry has the result of reading its code.

What a line does to a session is said once (`Feeds`): it stays in the buffer, because reading fails or is incomplete, or
the whole buffer goes into the history. One operation keeps the tally (`perform_tallied`), and one action that clears
nothing keeps the lines (`act_keeps`); sequences of them do by induction.
-/

namespace MalForms.Session

/-! ## What a line does -/

section Feed

variable {s : Session} {line : Text}

/-- What feeding a line can leave: the buffer with the line, or a new entry of the history. -/
inductive Feeds (s : Session) (line : Text) : Session → Prop
  | stays : Feeds s line { s with buffer := s.extended line }
  | enters {r : Reply} : read (s.extended line) = .ok r → r.isIncomplete = false →
      Feeds s line ({ s with buffer := [] }.add (s.extended line) r)

theorem feeds (s : Session) (line : Text) : Feeds s line (s.feed line).2 := by
  cases hr : read (s.extended line) with
  | error e =>
    rw [feed_of_error hr]
    exact .stays
  | ok r =>
    rw [feed, hr]
    show Feeds s line (if r.isIncomplete then _ else _)
    split_ifs with hi
    · exact .stays
    · exact .enters hr (by simpa using hi)

end Feed

/-! ## The counter -/

section Tally

variable {s : Session}

/-- The counter is the number of results in the history that were no errors. -/
def Tallied (s : Session) : Prop := s.counter = s.history.countP fun entry => entry.2.isSuccess

theorem tallied_new : Tallied {} := rfl

theorem Tallied.add (h : Tallied s) (code : Text) (r : Reply) : Tallied (s.add code r) := by
  unfold Tallied at h ⊢
  unfold Session.add
  simp only [List.countP_append, List.countP_singleton, h]
  split <;> rfl

theorem Tallied.feed (h : Tallied s) (line : Text) : Tallied (s.feed line).2 := by
  have hf := feeds s line
  generalize (s.feed line).2 = s' at hf
  cases hf with
  | stays => exact h
  | enters hr hi => exact Tallied.add (s := { s with buffer := [] }) h _ _

/-- What can happen to a session: one of its actions, or an entry in the history with any result. -/
inductive Operation where
  | act (a : Action)
  | enter (code : Text) (r : Reply)

def perform (pretty : Bool) (s : Session) : Operation → Session
  | .act a => (s.act pretty a).2
  | .enter code r => s.add code r

/-- The session after operations. -/
def performAll (pretty : Bool) (s : Session) (operations : List Operation) : Session :=
  operations.foldl (perform pretty) s

/-- **One operation keeps the tally.** -/
theorem perform_tallied (pretty : Bool) (h : Tallied s) (o : Operation) : Tallied (perform pretty s o) := by
  cases o with
  | enter code r => exact h.add code r
  | act a =>
    cases a with
    | line line => exact h.feed line
    | add code kind => exact h.add code { kind }
    | clearHistory => rfl
    | read | isComplete | clearBuffer | format => exact h

/-- **All operations keep it.** -/
theorem performAll_tallied (pretty : Bool) (h : Tallied s) (operations : List Operation) :
    Tallied (performAll pretty s operations) := by
  induction operations generalizing s with
  | nil => exact h
  | cons o operations ih => exact ih (perform_tallied pretty h o)

end Tally

/-! ## The lines -/

section Lines

variable {s s₁ s₂ : Session} {lines : List Text}

/-- From one session to another, lines were kept: they stand, after the old buffer, in the code of new entries of the
history and in the new buffer. The new entries have the results of reading their code. -/
def Keeps (s : Session) (lines : List Text) (s' : Session) : Prop :=
  ∃ entries : List (Text × Reply), s'.history = s.history ++ entries ∧
    Text.concat (entries.map Prod.fst) ++ s'.buffer = s.buffer ++ wholeText lines ∧
    ∀ entry ∈ entries, read entry.1 = .ok entry.2 ∧ entry.2.isIncomplete = false

theorem wholeText_append (ls ls' : List Text) : wholeText (ls ++ ls') = wholeText ls ++ wholeText ls' := by
  simp [wholeText, Text.concat]

theorem Keeps.refl (s : Session) : Keeps s [] s := by
  refine ⟨[], ?_, ?_, ?_⟩ <;> simp [wholeText, Text.concat]

theorem Keeps.trans {lines' : List Text} (h : Keeps s lines s₁) (h' : Keeps s₁ lines' s₂) :
    Keeps s (lines ++ lines') s₂ := by
  obtain ⟨entries, hhist, hlines, hreads⟩ := h
  obtain ⟨entries', hhist', hlines', hreads'⟩ := h'
  refine ⟨entries ++ entries', ?_, ?_, ?_⟩
  · rw [hhist', hhist, List.append_assoc]
  · calc Text.concat ((entries ++ entries').map Prod.fst) ++ s₂.buffer
        = Text.concat (entries.map Prod.fst) ++ (Text.concat (entries'.map Prod.fst) ++ s₂.buffer) := by
          simp [Text.concat]
      _ = Text.concat (entries.map Prod.fst) ++ s₁.buffer ++ wholeText lines' := by
          rw [hlines', List.append_assoc]
      _ = s.buffer ++ wholeText (lines ++ lines') := by
          rw [hlines, wholeText_append, List.append_assoc]
  · intro entry hmem
    rcases List.mem_append.1 hmem with hmem | hmem
    · exact hreads entry hmem
    · exact hreads' entry hmem

theorem feed_keeps (s : Session) (line : Text) : Keeps s [line] (s.feed line).2 := by
  have hf := feeds s line
  generalize (s.feed line).2 = s' at hf
  have hcode : s.extended line = s.buffer ++ wholeText [line] := by simp [extended, wholeText, Text.concat]
  cases hf with
  | stays => exact ⟨[], by simp, by simp [Text.concat, hcode], by simp⟩
  | @enters r hr hi =>
    refine ⟨[(s.extended line, r)], rfl, ?_, ?_⟩
    · simp [Session.add, Text.concat, hcode]
    · intro entry hmem
      rw [List.mem_singleton.1 hmem]
      exact ⟨hr, hi⟩

/-- The lines that an action feeds. -/
def Action.fed : Action → List Text
  | .line text => [text]
  | _ => []

/-- Whether an action clears nothing and enters nothing of its own into the history. -/
def Action.isReading : Action → Bool
  | .clearBuffer | .clearHistory | .add _ _ => false
  | _ => true

/-- **One action keeps its line.** -/
theorem act_keeps (pretty : Bool) (s : Session) {a : Action} (ha : a.isReading = true) :
    Keeps s a.fed (s.act pretty a).2 := by
  cases a with
  | line line => exact feed_keeps s line
  | read | isComplete | format => exact Keeps.refl s
  | clearBuffer | clearHistory | add => cases ha

/-- **All actions keep their lines.** -/
theorem after_keeps (pretty : Bool) {actions : List Action} (ha : ∀ a ∈ actions, a.isReading = true) :
    Keeps s (actions.flatMap Action.fed) (after pretty s actions) := by
  induction actions generalizing s with
  | nil => exact Keeps.refl s
  | cons a actions ih =>
    have hfirst := act_keeps pretty s (ha a List.mem_cons_self)
    rw [after_cons, List.flatMap_cons]
    apply hfirst.trans
    apply ih
    intro b hb
    exact ha b (List.mem_cons_of_mem a hb)

/-- **The books of a session are right.** Whatever has happened to a new session, its counter is the number of results in
the history that were no errors. Over actions that clear nothing and enter nothing of their own, whether they fail or not,
the codes of the new entries and then the buffer are the old buffer and then all lines, each with its line feed; and each
new entry is not incomplete and has the result of reading its code. -/
theorem history_kept (pretty : Bool) (operations : List Operation) (actions : List Action)
    (ha : ∀ a ∈ actions, a.isReading = true) :
    let s := performAll pretty {} operations
    let s' := after pretty s actions
    (s.counter = s.history.countP fun entry => entry.2.isSuccess) ∧
      ∃ entries : List (Text × Reply), s'.history = s.history ++ entries ∧
        Text.concat (entries.map Prod.fst) ++ s'.buffer = s.buffer ++ wholeText (actions.flatMap Action.fed) ∧
        ∀ entry ∈ entries, read entry.1 = .ok entry.2 ∧ entry.2.isIncomplete = false :=
  ⟨performAll_tallied pretty tallied_new operations, after_keeps pretty ha⟩

/-- In a new session, a list over two lines and an error after it. -/
theorem history_kept_lines :
    let s := after false {} [.line "(a", .isComplete "(", .line "b)", .read "1", .line ")"]
    Text.concat (s.history.map Prod.fst) ++ s.buffer = wholeText ["(a", "b)", ")"] ∧
      ∀ entry ∈ s.history, read entry.1 = .ok entry.2 ∧ entry.2.isIncomplete = false := by
  obtain ⟨-, entries, hhist, hlines, hreads⟩ := history_kept false []
    [.line "(a", .isComplete "(", .line "b)", .read "1", .line ")"] (by decide)
  rw [show (performAll false {} []).history = [] from rfl, List.nil_append] at hhist
  intro s
  rw [show s.history = entries from hhist]
  exact ⟨hlines, hreads⟩

end Lines

end MalForms.Session
