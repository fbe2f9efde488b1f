import MalForms.Proofs.Dialogue.Turns

/-!
# Lines that stand for themselves

A terminal dialogue reads a line with a line feed after it, through the buffer of its session, and a simple dialogue
reads the bare line. On lines that stand for themselves (`Alone`) this makes no difference: two dialogues that are
abreast before such a line put out the same for it and are abreast after it (`react_alone`), and so over all the lines
(`run_alone`), up to the end of the input (`hold_alone`). If standard output does not take what they have to show, they
end at the same place.
-/

namespace MalForms.Dialogue

section Alone

variable {t s : Dialogue} {line : Text} {r : Session.Reply}

/-- A line that stands for itself: it has a reply, which does not ask for more, and it does not end a dialogue. -/
structure Alone (line : Text) : Prop where
  replied : ∃ r, Session.read line = .ok r ∧ r.isIncomplete = false
  stays : line.strip ∉ exitLines

/-- A terminal dialogue and a simple one with the same settings on the same host, neither of them amid a form. -/
structure Abreast (t s : Dialogue) : Prop where
  terminal : t.mode = .terminal
  simple : s.mode = .simple
  settings : t.settings = s.settings
  host : t.host = s.host
  idle : t.session.buffer = []
  prompt_terminal : t.prompt = t.settings.prompt
  prompt_simple : s.prompt = s.settings.prompt

theorem Abreast.prompt_eq (h : Abreast t s) : t.prompt = s.prompt := by
  rw [h.prompt_terminal, h.prompt_simple, h.settings]

theorem Abreast.display_eq (h : Abreast t s) (r : Session.Reply) : t.display r = s.display r := by
  rw [display, display, h.settings, h.host]

/-- Whether a line stands for itself can be found by reading it. -/
theorem alone_iff : Alone line ↔
    ((Session.read line).map Session.Reply.isIncomplete).toOption = some false ∧ line.strip ∉ exitLines := by
  constructor
  · rintro ⟨⟨r, hr, hi⟩, hstays⟩
    simp [hr, hi, Except.map, Except.toOption, hstays]
  · rintro ⟨hread, hstays⟩
    cases hr : Session.read line with
    | error e => simp [hr, Except.map, Except.toOption] at hread
    | ok r =>
      simp only [hr, Except.map, Except.toOption, Option.some.injEq] at hread
      exact ⟨⟨r, hr, hread⟩, hstays⟩

instance : Decidable (Alone line) := decidable_of_iff _ alone_iff.symm

/-! ## One line -/

/-- A terminal dialogue that is not amid a form shows the reply to the bare line. -/
theorem readOn_idle (hb : t.session.buffer = []) (hr : Session.read line = .ok r) (hi : r.isIncomplete = false) :
    ∃ session : Session, session.buffer = [] ∧ t.readOn line =
      match t.display r with
      | .ok es => ((Session.records line).map Emission.log ++ es,
          .waiting { t with session, prompt := t.settings.prompt })
      | .error a => ((Session.records line).map Emission.log, .aborted { t with session } a) := by
  have hext : t.session.extended line = line.line := by rw [Session.extended, hb, List.nil_append]
  obtain ⟨hread, hrecords⟩ := Session.read_newline hr hi
  refine ⟨{ t.session with buffer := [] }.add line.line r, rfl, ?_⟩
  simp only [readOn, Session.feed, hext, hread, hrecords, hi, Bool.false_eq_true, if_false]
  cases t.display r <;> rfl

/-- What the two dialogues do with a line: they go on abreast, or both end because the reply cannot be shown. -/
inductive Goes (t s : Dialogue) (line : Text) : Prop
  | on {es : Transcript} {t' : Dialogue} : t.react (.line line) = (es, .waiting t') →
      s.react (.line line) = (es, .waiting s) → Abreast t' s → Goes t s line
  | out {es : Transcript} {t' : Dialogue} {a : Abort} {text : Text} : t.react (.line line) = (es, .aborted t' a) →
      s.react (.line line) = (es, .aborted s a) → ¬t.host.Takes text → Goes t s line

/-- **Dialogues that are abreast do the same with a line that stands for itself**, and stay abreast. -/
theorem react_alone (h : Abreast t s) (hl : Alone line) : Goes t s line := by
  obtain ⟨r, hr, hi⟩ := hl.replied
  have hstay : exitLines.contains line.strip = false := by simpa using hl.stays
  have ht : t.react (.line line) = if line.strip.isEmpty then ([], .waiting t) else t.readOn line := by
    simp only [react, h.terminal, h.idle, hstay, List.isEmpty_nil, Bool.true_and, Bool.false_eq_true, if_false]
  have hs : s.react (.line line) = if line.strip.isEmpty then ([], .waiting s) else s.readAlone line := by
    simp only [react, h.simple]
  by_cases hblank : line.strip.isEmpty = true
  · -- both pass over white space
    rw [if_pos hblank] at ht hs
    exact .on ht hs h
  · rw [if_neg hblank] at ht hs
    obtain ⟨session, hidle, hon⟩ := readOn_idle h.idle hr hi
    have hdisplay := h.display_eq r
    cases hd : s.display r with
    | ok es =>
      rw [hdisplay, hd] at hon
      refine .on (ht.trans hon) ?_ ⟨h.terminal, h.simple, h.settings, h.host, hidle, rfl, h.prompt_simple⟩
      simp only [hs, readAlone, hr, hd]
    | error a =>
      rw [hdisplay, hd] at hon
      -- the forms of a reply have a text, so it is standard output that does not take it
      have hrefused : ∃ text, ¬t.host.Takes text := by
        by_contra hall
        simp only [not_exists, not_not] at hall
        obtain ⟨es, hes⟩ := display_of_takes hr fun text _ => hall text.line
        cases hes.symm.trans (hdisplay.trans hd)
      obtain ⟨text, htext⟩ := hrefused
      refine .out (ht.trans hon) ?_ htext
      simp only [hs, readAlone, hr, hd]

end Alone

/-! ## All lines -/

section Run

variable {t s : Dialogue} {lines : List Text}

/-- A course that goes to the end of the input. -/
def Course.Whole (c : Course) : Prop := c.abort = none ∧ c.left = 0

/-- Two courses that cannot be told apart from outside. -/
structure Course.Alike (c c' : Course) : Prop where
  transcript : c.transcript = c'.transcript
  abort : c.abort = c'.abort
  left : c.left = c'.left

theorem Course.Alike.whole {c c' : Course} (h : c.Alike c') (hc : c.Whole) : c'.Whole :=
  ⟨h.abort.symm.trans hc.1, h.left.symm.trans hc.2⟩

theorem Course.Alike.after {c c' : Course} (h : c.Alike c') (es : Transcript) : (c.after es).Alike (c'.after es) :=
  ⟨congrArg (es ++ ·) h.transcript, h.abort, h.left⟩

/-- **Dialogues that are abreast put out the same over lines that stand for themselves**, and go to the end of the input
if everything is taken that they show. -/
theorem run_alone (h : Abreast t s) (hl : ∀ l ∈ lines, Alone l) :
    (t.run (lines.map .line)).Alike (s.run (lines.map .line)) ∧
      ((∀ text, t.host.Takes text) → (t.run (lines.map .line)).Whole) := by
  cases hprompt : t.host.refusal? t.prompt with
  | some message =>
    -- neither dialogue gets beyond its prompt
    have hprompt' : s.host.refusal? s.prompt = some message := by rwa [← h.host, ← h.prompt_eq]
    rw [run_of_refusal hprompt, run_of_refusal hprompt']
    refine ⟨⟨rfl, rfl, rfl⟩, fun htakes => ?_⟩
    cases hprompt.symm.trans (htakes t.prompt)
  | none =>
    have hprompt' : s.host.Takes s.prompt := by rwa [Host.Takes, ← h.host, ← h.prompt_eq]
    induction lines generalizing t with
    | nil =>
      rw [List.map_nil, run_nil hprompt, run_nil hprompt', h.prompt_eq]
      exact ⟨⟨rfl, rfl, rfl⟩, fun _ => ⟨rfl, rfl⟩⟩
    | cons l lines ih =>
      rw [List.map_cons]
      cases react_alone h (hl l List.mem_cons_self) with
      | @on es t' ht hs h' =>
        have hsame : t'.host = t.host := by rw [h'.host, h.host]
        have hnext : t'.host.refusal? t'.prompt = none := by rwa [hsame, h'.prompt_eq, ← h.prompt_eq]
        obtain ⟨halike, hwhole⟩ := ih h' (fun l' hl' => hl l' (List.mem_cons_of_mem _ hl')) hnext
        rw [run_cons_waiting hprompt ht, run_cons_waiting hprompt' hs, h.prompt_eq]
        refine ⟨halike.after _, fun htakes => hwhole ?_⟩
        rwa [hsame]
      | @out es t' a text ht hs hrefused =>
        rw [run_cons_aborted hprompt ht, run_cons_aborted hprompt' hs, h.prompt_eq]
        exact ⟨⟨rfl, rfl, rfl⟩, fun htakes => absurd (htakes text) hrefused⟩

/-- Without a history file a dialogue is no more than its run. -/
theorem hold_of_historyFile (d : Dialogue) (hd : d.historyFile? = none) (disk : Disk) (events : List Event) :
    d.hold disk events = .ok (d.run events) := by
  simp [hold, start, stop, hd, Except.map]

/-- **The two modes agree on lines that stand for themselves.** With the same settings and no history file, a terminal
dialogue and a simple one write the same to standard output and to standard error. They go to the end of the input if
standard output takes every text, and in any case they go equally far. -/
theorem hold_alone (host : Host) (settings : Settings) (disk : Disk) (lines : List Text)
    (hfile : settings.historyFile = none) (hl : ∀ l ∈ lines, Alone l) :
    ∃ terminal simple : Course,
      hold { mode := .terminal, settings, host } disk (lines.map .line) = .ok terminal ∧
      hold { mode := .simple, settings, host } disk (lines.map .line) = .ok simple ∧
      ((∀ text, host.Takes text) → terminal.Whole ∧ simple.Whole) ∧
      terminal.abort = simple.abort ∧ terminal.left = simple.left ∧
      terminal.transcript.output = simple.transcript.output ∧
      ∀ sink stamp, terminal.transcript.errors sink stamp = simple.transcript.errors sink stamp := by
  have h : Abreast { mode := .terminal, settings, host } { mode := .simple, settings, host } :=
    ⟨rfl, rfl, rfl, rfl, rfl, rfl, rfl⟩
  obtain ⟨halike, hwhole⟩ := run_alone h hl
  have hterminal? : historyFile? { mode := .terminal, settings, host } = none := hfile
  have hsimple? : historyFile? { mode := .simple, settings, host } = none := rfl
  refine ⟨_, _, hold_of_historyFile _ hterminal? disk _, hold_of_historyFile _ hsimple? disk _,
    fun htakes => ⟨hwhole htakes, halike.whole (hwhole htakes)⟩, halike.abort, halike.left, ?_, ?_⟩
  · rw [halike.transcript]
  · intro sink stamp
    rw [halike.transcript]

/-- Three lines for a pretty dialogue: a wrong bracket, a comment, and two forms. -/
theorem hold_alone_lines :
    (∀ l ∈ ([("(a]" : Text), ("; b" : Text), ("{c 1} 2" : Text)] : List Text), Alone l) ∧
    ∃ terminal simple : Course,
      hold { mode := .terminal, settings := { historyFile := none, pretty := true } } ⟨"/", fun _ => none⟩
        [.line "(a]", .line "; b", .line "{c 1} 2"] = .ok terminal ∧
      hold { mode := .simple, settings := { historyFile := none, pretty := true } } ⟨"/", fun _ => none⟩
        [.line "(a]", .line "; b", .line "{c 1} 2"] = .ok simple ∧
      terminal.Whole ∧ simple.Whole ∧
      terminal.transcript.output = simple.transcript.output ∧
      terminal.transcript.errors .bare [] = simple.transcript.errors .bare [] := by
  have hl : ∀ l ∈ ([("(a]" : Text), ("; b" : Text), ("{c 1} 2" : Text)] : List Text), Alone l := by decide +kernel
  obtain ⟨terminal, simple, hterminal, hsimple, hwhole, -, -, hout, herr⟩ :=
    hold_alone {} { historyFile := none, pretty := true } ⟨"/", fun _ => none⟩ _ rfl hl
  obtain ⟨hterminal', hsimple'⟩ := hwhole fun _ => rfl
  exact ⟨hl, terminal, simple, hterminal, hsimple, hterminal', hsimple', hout, herr _ _⟩

end Run

end MalForms.Dialogue
