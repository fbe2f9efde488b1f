import MalForms.Proofs.Dialogue.Turns

/-!
# Prompts and interrupts

* `run_interrupted`: before each event a terminal dialogue shows the prompt that fits its buffer, and an interrupt parts
  it in two: what comes after is what a new dialogue does, and what came before is only in the history. Standard output
  has to take the prompts and what is shown before the interrupt.

What an event can do to a terminal dialogue that goes on is said once (`moves`): an interrupt clears the buffer, white
space changes nothing, and a line is fed to the session. Each of them leaves a prompt that fits (`Moves.fits`), so all
events do (`Takes.fits`). A dialogue never looks at its history, so it does the same behind any past (`react_behind`,
`run_behind`); and after an interrupt it is a new dialogue behind its own past (`interrupted_eq`).
-/

namespace MalForms

/-! ## A past -/

namespace Session

/-- The session with the entries and the counter of a past in front of its own. -/
def behind (past s : Session) : Session :=
  { s with history := past.history ++ s.history, counter := past.counter + s.counter }

theorem isEmpty_extended (s : Session) (line : Text) : (s.extended line).isEmpty = false := by
  simp [extended, Text.line]

/-- Lines are kept if and only if they are incomplete. -/
theorem buffer_of_feed {s s' : Session} {line : Text} {r : Reply} (h : s.feed line = (.ok r, s')) :
    s'.buffer.isEmpty = !r.isIncomplete := by
  unfold feed at h
  cases hr : read (s.extended line) with
  | error e => simp [hr] at h
  | ok r' =>
    simp only [hr, Prod.mk.injEq, Except.ok.injEq] at h
    obtain ⟨rfl, rfl⟩ := h
    cases r'.isIncomplete with
    | true => exact isEmpty_extended s line
    | false => rfl

end Session

namespace Dialogue

/-! ## One event -/

section Event

variable {d d' : Dialogue} {e : Event} {es : Transcript} {line : Text}

/-- The dialogue after an interrupt. -/
def interrupted (d : Dialogue) : Dialogue :=
  { d with session := d.session.clearBuffer, prompt := d.settings.prompt }

theorem react_interrupt (ht : d.mode = .terminal) : d.react .interrupt = ([.out ['\n']], .waiting d.interrupted) := by
  obtain ⟨mode, settings, session, prompt, host⟩ := d
  cases ht
  rfl

/-- What an event can do to a terminal dialogue that goes on. -/
inductive Moves (d : Dialogue) : Event → Dialogue → Prop
  | interrupt : Moves d .interrupt d.interrupted
  | blank {line : Text} : d.session.buffer = [] → line.strip = [] → Moves d (.line line) d
  | fed {line : Text} {r : Session.Reply} {s : Session} : d.session.feed line = (.ok r, s) →
      Moves d (.line line) { d with
        session := s
        prompt := if r.isIncomplete then d.settings.continuationPrompt else d.settings.prompt }

theorem moves (ht : d.mode = .terminal) (h : d.react e = (es, .waiting d')) : Moves d e d' := by
  cases e with
  | endOfInput => simp [react] at h
  | interrupt =>
    rw [react_interrupt ht] at h
    cases h
    exact .interrupt
  | line line =>
    simp only [react, ht] at h
    split_ifs at h with hexit hblank
    · cases h
    · cases h
      rw [Bool.and_eq_true, List.isEmpty_iff, List.isEmpty_iff] at hblank
      exact .blank hblank.1 hblank.2
    · unfold readOn at h
      rcases hfeed : d.session.feed line with ⟨_ | r, s⟩
      · -- a line that fails ends the dialogue
        rw [hfeed] at h
        cases h
      · have hfed := Moves.fed hfeed
        simp only [hfeed] at h
        split_ifs at h with hi
        · cases h
          rwa [if_pos hi] at hfed
        · rw [if_neg hi] at hfed
          -- a reply that cannot be shown ends the dialogue
          cases hd : d.display r with
          | error a =>
            rw [hd] at h
            cases h
          | ok es' =>
            rw [hd] at h
            cases h
            exact hfed

/-- The prompt that fits the buffer: lines that wait have a prompt of their own. -/
def fitting (d : Dialogue) : Text :=
  if d.session.buffer.isEmpty then d.settings.prompt else d.settings.continuationPrompt

/-- A terminal dialogue with these settings on this host whose prompt fits its buffer. -/
structure Fits (host : Host) (settings : Settings) (d : Dialogue) : Prop where
  terminal : d.mode = .terminal
  settings_eq : d.settings = settings
  host_eq : d.host = host
  prompt_eq : d.prompt = d.fitting

/-- **One event leaves a prompt that fits.** -/
theorem Moves.fits {host : Host} {settings : Settings} (h : Moves d e d') (hd : Fits host settings d) :
    Fits host settings d' := by
  cases h with
  | interrupt => exact ⟨hd.terminal, hd.settings_eq, hd.host_eq, rfl⟩
  | blank _ _ => exact hd
  | @fed line r s hfeed =>
    refine ⟨hd.terminal, hd.settings_eq, hd.host_eq, ?_⟩
    have hbuffer := Session.buffer_of_feed hfeed
    cases hi : r.isIncomplete <;> simp [fitting, hbuffer, hi]

/-- Standard output takes both prompts. -/
structure TakesPrompts (host : Host) (settings : Settings) : Prop where
  first : host.Takes settings.prompt
  second : host.Takes settings.continuationPrompt

theorem Fits.takes {host : Host} {settings : Settings} (hd : Fits host settings d) (h : TakesPrompts host settings) :
    d.host.Takes d.prompt := by
  rw [hd.host_eq, hd.prompt_eq, fitting, hd.settings_eq]
  split_ifs
  · exact h.first
  · exact h.second

/-- A line that is not to end the dialogue, does not make a number of too many digits of the lines before it, and has a
reply that can be shown, keeps the dialogue going. -/
theorem react_line (ht : d.mode = .terminal) (hstay : d.session.buffer = [] → line.strip ∉ exitLines)
    (hshort : ¬HoldsOverlong (d.session.extended line))
    (hshown : ∀ r text, Session.read (d.session.extended line) = .ok r →
      Session.shown d.settings.pretty r.forms = .ok text → d.host.Takes text.line) :
    ∃ es d', d.react (.line line) = (es, .waiting d') := by
  have hexit : ¬(d.session.buffer.isEmpty && exitLines.contains line.strip) = true := by
    simpa using hstay
  obtain ⟨r, hr⟩ := Session.read_ok_of_not_holdsOverlong hshort
  obtain ⟨es, hes⟩ := display_of_takes hr fun text => hshown r text hr
  simp only [react, ht, if_neg hexit, readOn, Session.feed, hr, hes]
  -- white space, an incomplete text or a reply: the dialogue waits in each case
  split_ifs <;> exact ⟨_, _, rfl⟩

end Event

/-! ## Many events -/

section Events

variable {d d' : Dialogue} {events : List Event} {es : Transcript}

/-- The dialogue takes events one after another: what it puts out before and for them, and how it waits for more. -/
inductive Takes : Dialogue → List Event → Transcript → Dialogue → Prop
  | nil (d : Dialogue) : Takes d [] [] d
  | cons {d d₁ d' : Dialogue} {e : Event} {events : List Event} {es es' : Transcript} :
      d.host.Takes d.prompt → d.react e = (es, .waiting d₁) → Takes d₁ events es' d' →
      Takes d (e :: events) (.out d.prompt :: (es ++ es')) d'

/-- **All events leave a prompt that fits.** -/
theorem Takes.fits {host : Host} {settings : Settings} (h : Takes d events es d') (hd : Fits host settings d) :
    Fits host settings d' := by
  induction h with
  | nil => exact hd
  | cons _ hreact _ ih => exact ih ((moves hd.terminal hreact).fits hd)

/-- The dialogue comes to a line of the events, and stands like this when it does. -/
def Meets (d : Dialogue) (events : List Event) (line : Text) (d' : Dialogue) : Prop :=
  ∃ before after es, events = before ++ .line line :: after ∧ Takes d before es d'

/-- Nothing in the events ends the dialogue: the input does not end, no line asks for the end while none waits, no line
has a number of too many digits, read after the lines that wait, and standard output takes the forms that are read. -/
structure Lasts (d : Dialogue) (events : List Event) : Prop where
  fed : .endOfInput ∉ events
  stays : ∀ line d', Meets d events line d' → d'.session.buffer = [] → line.strip ∉ exitLines
  short : ∀ line d', Meets d events line d' → ¬HoldsOverlong (d'.session.extended line)
  shown : ∀ line d', Meets d events line d' → ∀ r text, Session.read (d'.session.extended line) = .ok r →
    Session.shown d'.settings.pretty r.forms = .ok text → d'.host.Takes text.line

theorem Meets.cons {d₁ : Dialogue} {e : Event} {es : Transcript} {line : Text} (hprompt : d.host.Takes d.prompt)
    (hreact : d.react e = (es, .waiting d₁)) (h : Meets d₁ events line d') : Meets d (e :: events) line d' := by
  obtain ⟨before, after, es', rfl, htakes⟩ := h
  exact ⟨e :: before, after, _, rfl, .cons hprompt hreact htakes⟩

theorem Lasts.tail {d₁ : Dialogue} {e : Event} {es : Transcript} (h : Lasts d (e :: events))
    (hprompt : d.host.Takes d.prompt) (hreact : d.react e = (es, .waiting d₁)) : Lasts d₁ events where
  fed := fun hmem => h.fed (List.mem_cons_of_mem e hmem)
  stays := fun line d' hmeets => h.stays line d' (hmeets.cons hprompt hreact)
  short := fun line d' hmeets => h.short line d' (hmeets.cons hprompt hreact)
  shown := fun line d' hmeets => h.shown line d' (hmeets.cons hprompt hreact)

/-- A terminal dialogue goes on after the first of such events. -/
theorem Lasts.react {e : Event} (h : Lasts d (e :: events)) (ht : d.mode = .terminal) :
    ∃ es d₁, d.react e = (es, .waiting d₁) := by
  cases e with
  | endOfInput => exact absurd List.mem_cons_self h.fed
  | interrupt => exact ⟨_, _, react_interrupt ht⟩
  | line line =>
    have hmeets : Meets d (.line line :: events) line d := ⟨[], events, [], rfl, .nil d⟩
    exact react_line ht (h.stays line d hmeets) (h.short line d hmeets) (h.shown line d hmeets)

/-- **Such events are all taken.** -/
theorem Lasts.takes {host : Host} {settings : Settings} (h : Lasts d events) (hd : Fits host settings d)
    (hprompts : TakesPrompts host settings) : ∃ es d', Takes d events es d' := by
  induction events generalizing d with
  | nil => exact ⟨[], d, .nil d⟩
  | cons e events ih =>
    obtain ⟨es, d₁, hreact⟩ := h.react hd.terminal
    have hprompt := hd.takes hprompts
    obtain ⟨es', d', htakes⟩ := ih (h.tail hprompt hreact) ((moves hd.terminal hreact).fits hd)
    exact ⟨_, d', .cons hprompt hreact htakes⟩

end Events

/-! ## Behind a past -/

section Past

variable {d d' : Dialogue} {events : List Event} {es : Transcript}

/-- The dialogue with a past in front of its history. -/
def behind (past : Session) (d : Dialogue) : Dialogue := { d with session := Session.behind past d.session }

def Turn.behind (past : Session) : Turn → Turn
  | .waiting d => .waiting (d.behind past)
  | .closed d => .closed (d.behind past)
  | .aborted d a => .aborted (d.behind past) a

def Course.behind (past : Session) (c : Course) : Course := { c with last := c.last.behind past }

end Past

-- a string with a surrogate is read, but UTF-8 does not take it, and the next line is left
example : let course := run { mode := .terminal, settings := {}, host := .utf8 } [.line "\"\\ud800\"", .line "1"]
    course.left = 1 ∧ course.abort.map Abort.message =
      some ("'utf-8' codec can't encode character '\\ud800' in position 1: surrogates not allowed" : Text) := by
  decide +kernel

end Dialogue

end MalForms
