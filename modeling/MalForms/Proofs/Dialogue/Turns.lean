import MalForms.Dialogue
import MalForms.Proofs.Session.Reading

/-!
# Dialogues turn by turn

What a run comes to is said here by its first event (`run_nil`, `run_cons_waiting`, `run_cons_aborted`), if standard
output takes the prompt; if it does not, the run is over before an event is taken (`run_of_refusal`). A reply to a line
can always be printed, since no number is read that has too many digits; so it is shown if standard output takes it
(`display_of_takes`).
-/

namespace MalForms.Dialogue

variable {d d' : Dialogue} {e : Event} {es : Transcript} {a : Abort}

/-- A reply is shown, if standard output takes its forms. -/
theorem display_of_takes {code : Text} {r : Session.Reply} (hr : Session.read code = .ok r)
    (h : ∀ text, Session.shown d.settings.pretty r.forms = .ok text → d.host.Takes text.line) :
    ∃ es, d.display r = .ok es := by
  obtain ⟨text, htext⟩ := Session.shown_of_read hr d.settings.pretty
  have hprint : Attempt.print d.host (Session.shown d.settings.pretty r.forms) = .ok (.out text.line) := by
    rw [htext, Attempt.print, Attempt.write_of_takes (h text htext)]
  unfold display
  split
  · rw [hprint]
    exact ⟨_, rfl⟩
  · exact ⟨_, rfl⟩
  · exact ⟨_, rfl⟩
  · exact ⟨_, rfl⟩

theorem attend_of_takes (h : d.host.Takes d.prompt) (e : Event) :
    d.attend e = .ok (.out d.prompt :: (d.react e).1, (d.react e).2) := by
  rw [attend, Attempt.write_of_takes h]
  rfl

/-- A dialogue whose prompt is not taken ends before it takes an event. -/
theorem run_of_refusal {message : Text} (h : d.host.refusal? d.prompt = some message) (events : List Event) :
    d.run events = ⟨[], d, some (.writing message), events.length⟩ := by
  have hattend (e : Event) : d.attend e = .error (.writing message) := by
    rw [attend, Attempt.write, h]
    rfl
  cases events <;> rw [run, hattend] <;> rfl

/-- The end of the input ends a line, and nothing follows it. -/
theorem run_nil (h : d.host.Takes d.prompt) : d.run [] = ⟨[.out d.prompt, .out ['\n']], d, none, 0⟩ := by
  rw [run, attend_of_takes h]
  simp [react]

theorem run_cons_waiting (h : d.host.Takes d.prompt) (hreact : d.react e = (es, .waiting d')) (rest : List Event) :
    d.run (e :: rest) = (d'.run rest).after (.out d.prompt :: es) := by
  rw [run, attend_of_takes h, hreact]

theorem run_cons_aborted (h : d.host.Takes d.prompt) (hreact : d.react e = (es, .aborted d' a)) (rest : List Event) :
    d.run (e :: rest) = ⟨.out d.prompt :: es, d', some a, rest.length⟩ := by
  rw [run, attend_of_takes h, hreact]

end MalForms.Dialogue
