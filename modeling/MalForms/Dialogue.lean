import MalForms.Session
import MalForms.Settings
import MalForms.Transcript

/-!
# Dialogues

A dialogue prompts for lines and shows what they read as. In a terminal dialogue a form may go over several lines,
with a prompt of its own for the further ones, an interrupt drops the lines that wait, and `(exit)` or `(quit)` ends
it. In a simple dialogue every line stands for itself and an interrupt ends it.

* `react`: what a dialogue does with an event.
* `attend`: a prompt, and then an event.
* `run`: a dialogue over a list of events, after which the input ends.
* `start`, `stop`: the history file of a terminal dialogue is read at the start and saved at the end; a file that
  cannot be read or written gives a warning.
* `hold`: all of it.
-/

namespace MalForms

namespace Dialogue

inductive Mode where
  | terminal
  | simple
deriving DecidableEq

def Mode.ofName? (name : Text) : Option Mode :=
  if name = ("terminal" : Text) then some .terminal
  else if name = ("simple" : Text) then some .simple
  else none

/-- The report of a mode that does not exist. -/
def unknownMode (name : Text) : Text := .concat ["Unknown REPL mode: ", name]

/-- What can come when a dialogue waits for a line. -/
inductive Event where
  | line (t : Text)
  | interrupt
  | endOfInput
deriving DecidableEq

/-- The lines that end a terminal dialogue, white space around them aside. -/
def exitLines : List Text := ["(exit)", "(quit)"]

end Dialogue

structure Dialogue where
  mode : Dialogue.Mode
  settings : Settings
  session : Session := {}
  /-- What is shown before the next line. -/
  prompt : Text := settings.prompt
  host : Host := {}

namespace Dialogue

/-- How a dialogue stands after an event. -/
inductive Turn where
  | waiting (d : Dialogue)
  | closed (d : Dialogue)
  | aborted (d : Dialogue) (a : Abort)

/-- What is shown for a result; an incomplete one counts as an error here. -/
def display (d : Dialogue) (r : Session.Reply) : Except Abort Transcript :=
  match r.kind, r.error with
  | .value, _ => (Attempt.print d.host (Session.shown d.settings.pretty r.forms)).map ([·])
  | .empty, _ => .ok []
  | _, none => .ok []
  | _, some e => .ok [.err (Text.concat ["Error: ", e.message]).line]

/-- Read a line in a terminal dialogue, after the lines that wait. -/
def readOn (d : Dialogue) (line : Text) : Transcript × Turn :=
  let records := (Session.records (d.session.extended line)).map Emission.log
  match d.session.feed line with
  | (.error e, s) => (records, .aborted { d with session := s } (.reading e))
  | (.ok r, s) =>
    if r.isIncomplete then (records, .waiting { d with session := s, prompt := d.settings.continuationPrompt })
    else
      match d.display r with
      | .error a => (records, .aborted { d with session := s } a)
      | .ok es => (records ++ es, .waiting { d with session := s, prompt := d.settings.prompt })

/-- Read a line in a simple dialogue. -/
def readAlone (d : Dialogue) (line : Text) : Transcript × Turn :=
  let records := (Session.records line).map Emission.log
  match Session.read line with
  | .error e => (records, .aborted d (.reading e))
  | .ok r =>
    match d.display r with
    | .error a => (records, .aborted d a)
    | .ok es => (records ++ es, .waiting d)

/-- What a dialogue does with an event. -/
def react (d : Dialogue) (e : Event) : Transcript × Turn :=
  match d.mode, e with
  | _, .endOfInput => ([.out ['\n']], .closed d)
  | .terminal, .interrupt =>
    ([.out ['\n']], .waiting { d with session := d.session.clearBuffer, prompt := d.settings.prompt })
  | .terminal, .line l =>
    if d.session.buffer.isEmpty && exitLines.contains l.strip then ([], .closed d)
    else if d.session.buffer.isEmpty && l.strip.isEmpty then ([], .waiting d)
    else d.readOn l
  | .simple, .interrupt => ([], .aborted d .interrupted)
  | .simple, .line l => if l.strip.isEmpty then ([], .waiting d) else d.readAlone l

/-- How a dialogue went: what it put out, how it stands at its end, what ended it early, and how many events were
left. -/
structure Course where
  transcript : Transcript
  last : Dialogue
  abort : Option Abort := none
  left : Nat := 0

/-- Put something out before a course. -/
def Course.after (es : Transcript) (c : Course) : Course := { c with transcript := es ++ c.transcript }

/-- Show the prompt and take an event. If the prompt cannot be shown, the event is not taken. -/
def attend (d : Dialogue) (e : Event) : Except Abort (Transcript × Turn) :=
  (Attempt.write d.host d.prompt).map fun shown => (shown :: (d.react e).1, (d.react e).2)

/-- The dialogue over these events, after which the input ends. -/
def run (d : Dialogue) : List Event → Course
  | [] =>
    match d.attend .endOfInput with
    | .error a => ⟨[], d, some a, 0⟩
    | .ok (es, .waiting d') | .ok (es, .closed d') => ⟨es, d', none, 0⟩
    | .ok (es, .aborted d' a) => ⟨es, d', some a, 0⟩
  | e :: rest =>
    match d.attend e with
    | .error a => ⟨[], d, some a, rest.length + 1⟩
    | .ok (es, .waiting d') => (d'.run rest).after es
    | .ok (es, .closed d') => ⟨es, d', none, rest.length⟩
    | .ok (es, .aborted d' a) => ⟨es, d', some a, rest.length⟩

/-! ## The history file -/

/-- A warning about the history file. -/
def historyWarning (verb path : Text) (f : OsFault) : Emission :=
  .log ⟨.session, .warning, .concat ["could not ", verb, " history file ", path, ": ", f.message]⟩

/-- The history file that a dialogue keeps. -/
def historyFile? (d : Dialogue) : Option Text :=
  match d.mode with
  | .terminal => d.settings.historyFile
  | .simple => none

/-- Read the history file. That it is missing is no fault. -/
def start (d : Dialogue) (disk : Disk) : Except Abort Transcript :=
  match d.historyFile? with
  | none => .ok []
  | some path =>
    match PathFault.of? path, disk.entry path with
    | some f, _ => .error (.opening (.path f) path)
    | none, .node (.file _) | none, .vacant | none, .fault .noEntry => .ok []
    | none, .node .directory | none, .node .device => .ok [historyWarning "read" path .invalid]
    | none, .node (.closed f) | none, .fault f => .ok [historyWarning "read" path f]

/-- Save the history file. -/
def stop (d : Dialogue) (disk : Disk) : Transcript :=
  match d.historyFile? with
  | none => []
  | some path =>
    match disk.writeFault? path with
    | some (.os f) => [historyWarning "write" path f]
    | _ => []

/-- The disk after the history file has been saved: it is there, if it can be. -/
def saved (d : Dialogue) (disk : Disk) : Disk :=
  match d.historyFile? with
  | none => disk
  | some path => if (disk.writeFault? path).isSome then disk else disk.append path []

/-- The whole dialogue: the history file is read, the events are taken, and the history file is saved, also after an
abort. If the history file has no path, the dialogue does not begin. -/
def hold (d : Dialogue) (disk : Disk) (events : List Event) : Except Abort Course :=
  (d.start disk).map fun before =>
    let c := d.run events
    { c with transcript := before ++ c.transcript ++ d.stop disk }

end Dialogue

end MalForms
