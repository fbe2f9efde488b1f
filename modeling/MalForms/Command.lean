import MalForms.Arguments.Request
import MalForms.Dialogue

/-!
# The command

The command reads code or files and prints their forms, checks files, or holds a dialogue. It works at a desk, which
has the disk and the log: a log in a file is on the disk with the rest, and can itself be read.

* `Desk.after`: the desk once records have been written.
* `readFiles`: print the forms of files, up to the first file that fails.
* `checkFiles`: tell of each file whether it reads.
* `plan`: what the command does with its arguments before it holds a dialogue, if it comes to one.
* `run`: all that the command does, the dialogue over a list of events included.
-/

namespace MalForms.Command

/-! ## The desk -/

/-- Where the command works: a disk, and where its records go, all of them with the time `stamp`. -/
structure Desk where
  disk : Disk
  sink : Log.Sink := .bare
  stamp : Text
  host : Host := {}

/-- The desk after something was put out: records for a file are at its end. -/
def Desk.after (desk : Desk) (es : Transcript) : Desk :=
  match desk.sink with
  | .file _ path => { desk with disk := desk.disk.append path (Utf8.encode (es.logged desk.sink desk.stamp)) }
  | _ => desk

/-! ## Steps -/

/-- How a step of the command ended: with a status, or by an abort that ends the command. -/
inductive Ending where
  | status (n : Nat)
  | abort (a : Abort)

/-- A step of the command: what it put out and how it ended. -/
structure Deed where
  transcript : Transcript
  ending : Ending

/-- Print forms, each on lines of its own. -/
def printed (host : Host) (pretty : Bool) (fs : List Form) : List Attempt :=
  fs.map fun f => Attempt.print host (f.layout 0 pretty)

/-- The report of a parse error: with the line of the source, if it is not empty, and a caret below the place. -/
def reported (e : ParseError) : Transcript :=
  .err (Text.concat ["Error: ", e.filename, ":", Decimal.ofInt e.line, ": ", e.message]).line ::
    if e.text.isEmpty then []
    else [.err (Text.concat ["  ", e.text]).line, .err (Text.concat ["  ", .spaces e.col, "^"]).line]

/-- What follows an error of reading: a report and status 1, or an abort. -/
def failed : ReadError → Deed
  | .parse e => ⟨reported e, .status 1⟩
  | e => ⟨[], .abort (.reading e)⟩

/-- The deed after something was put out. -/
def Deed.after (es : Transcript) (d : Deed) : Deed := { d with transcript := es ++ d.transcript }

/-- The deed after attempts, which is not done if one of them fails. -/
def Deed.once (attempts : List Attempt) (d : Deed) : Deed :=
  match Attempt.carry attempts with
  | (es, none) => d.after es
  | (es, some a) => ⟨es, .abort a⟩

def logged (rs : List Log.Record) : Transcript := rs.map .log

/-! ## Files -/

/-- Why a file has no text. -/
inductive FileFault where
  | os (f : OsFault)
  | abort (a : Abort)

/-- The text of the file at a path, with line ends unified. -/
def textOf (disk : Disk) (path : Text) : Except FileFault Text :=
  match disk.read path with
  | .error (.os f) => .error (.os f)
  | .error (.path f) => .error (.abort (.opening (.path f) path))
  | .ok bytes =>
    match Disk.textOf bytes with
    | .error f => .error (.abort (.decoding f))
    | .ok t => .ok t

/-- What follows a file that has no text: a report and status 1, or an abort. -/
def unopened (path : Text) : FileFault → Deed
  | .os f => ⟨[.err (Text.concat ["Error: cannot read ", path, ": ", f.messageAt path]).line], .status 1⟩
  | .abort a => ⟨[], .abort a⟩

/-- Print each form of a source when it is read. -/
def readSource (host : Host) (pretty : Bool) (source filename : Text) : Deed :=
  let t := trace (.start source)
  let forms := t.forms.flatMap fun (f, stop) => .ok (.log (Log.ofForm f stop)) :: printed host pretty [f]
  .once forms <|
    match t.failure with
    | none => ⟨[], .status 0⟩
    | some e =>
      let error := e.toError source filename
      (failed error).after (logged (Log.ofError filename error))

/-- Print the forms of a file. -/
def readFile (desk : Desk) (pretty : Bool) (path : Text) : Deed :=
  match textOf desk.disk path with
  | .error f => unopened path f
  | .ok source =>
    (readSource desk.host pretty source path).after [.log ⟨.command, .info, .concat ["reading ", path]⟩]

/-- Print the forms of files, up to the first file that fails. -/
def readFiles (desk : Desk) (pretty : Bool) : List Text → Deed
  | [] => ⟨[], .status 0⟩
  | path :: rest =>
    let d := readFile desk pretty path
    match d.ending with
    | .status 0 => (readFiles (desk.after d.transcript) pretty rest).after d.transcript
    | _ => d

/-- Tell whether a file reads. -/
def checkFile (desk : Desk) (path : Text) : Deed :=
  match textOf desk.disk path with
  | .error f => unopened path f
  | .ok source =>
    let t := trace (.start source)
    let records := logged (Log.ofTrace t source path)
    match t.result source path with
    | .error e => (failed e).after records
    | .ok fs =>
      let line := Text.concat [path, ": ok (", Decimal.ofNat fs.length, " forms)"]
      (Deed.once [Attempt.print desk.host (.ok line)] ⟨[], .status 0⟩).after records

/-- Tell of each file whether it reads. The status is 1 if one does not; an abort ends the check. -/
def checkFiles (desk : Desk) : List Text → Deed
  | [] => ⟨[], .status 0⟩
  | path :: rest =>
    let d := checkFile desk path
    match d.ending with
    | .abort _ => d
    | .status n =>
      let others := checkFiles (desk.after d.transcript) rest
      let ending := match others.ending with
        | .abort a => .abort a
        | .status m => .status (max n m)
      ⟨d.transcript ++ others.transcript, ending⟩

/-- What the source of code on the command line is called in reports. -/
def codeName : Text := "<string>"

/-- Read code and print its forms if all of it reads. -/
def readCode (host : Host) (pretty : Bool) (code : Text) : Deed :=
  let t := trace (.start code)
  let records := logged (Log.ofTrace t code codeName)
  match t.result code codeName with
  | .error e => (failed e).after records
  | .ok fs => (Deed.once (printed host pretty fs) ⟨[], .status 0⟩).after records

/-! ## The plan -/

/-- What is left to do after the plan. -/
inductive Next where
  | exit (status : Nat)
  | abort (a : Abort)
  | dialogue (d : Dialogue)

/-- What the command puts out before a dialogue, the desk that is left, and what is left to do. -/
structure Plan where
  transcript : Transcript
  desk : Desk
  next : Next

/-- Put something out, and leave this to do. -/
def Desk.say (desk : Desk) (es : Transcript) (next : Next) : Plan := ⟨es, desk.after es, next⟩

/-- The desk with the log that a request names. Its file is made if it is not there. -/
def openLog (desk : Desk) (r : Request) (s : Settings) : Except Abort Desk :=
  let threshold := if r.verbose then .debug else s.logLevel
  match r.log with
  | none | some .nothing | some (.text []) => .ok { desk with sink := .stream threshold }
  | some (.text name) =>
    let path := Path.absolute desk.disk.cwd name
    match desk.disk.writeFault? path with
    | some f => .error (.opening f path)
    | none => .ok { desk with disk := desk.disk.append path [], sink := .file threshold path }

/-- What comes after the first step: the dialogue, if one is wanted, or the end. -/
def Next.ofEnding (dialogue : Option Dialogue) : Ending → Next
  | .abort a => .abort a
  | .status n => match dialogue with
    | some d => .dialogue d
    | none => .exit n

/-- Do what a request asks for. -/
def serve (desk : Desk) (r : Request) (files : List Text) (s : Settings) : Transcript × Next :=
  let pretty := r.pretty || s.pretty
  let dialogue : Dialogue := { mode := .terminal, settings := { s with pretty }, host := desk.host }
  let wanted := if r.interactive then some dialogue else none
  let step (d : Deed) (after : Option Dialogue) := (d.transcript, Next.ofEnding after d.ending)
  match r.verb, r.command with
  | some .repl, _ => ([], .dialogue dialogue)
  | some .read, _ => step (readFiles desk pretty r.files) none
  | some .check, _ => step (checkFiles desk r.files) none
  | none, some (.text code) => step (readCode desk.host pretty code) wanted
  | none, some .nothing => ([], .abort (.valueless .command))
  | none, none => if files.isEmpty then ([], .dialogue dialogue) else step (readFiles desk pretty files) wanted

/-- Do what a request asks for, with these settings and the log that it names. -/
def proceed (desk : Desk) (r : Request) (files : List Text) (s : Settings) : Plan :=
  match openLog desk r s with
  | .error a => desk.say [] (.abort a)
  | .ok desk' =>
    let loaded := s.path.toList.map fun p => Emission.log ⟨.command, .debug, .concat ["loaded config from ", p]⟩
    let (es, next) := serve (desk'.after loaded) r files s
    desk'.say (loaded ++ es) next

/-- Do what a request asks for, with the settings of the file that it names, or of the nearest one. -/
def fulfil (desk : Desk) (r : Request) (files : List Text) : Plan :=
  let within (found : Except Settings.Fault Settings) : Plan :=
    match found with
    | .error (.tooDeep call) => desk.say [] (.abort (.nesting call))
    | .error f => desk.say [.err (Text.concat ["Error in config: ", f.message]).line] (.exit 1)
    | .ok s => proceed desk r files s
  match r.config with
  | none => within (Settings.load desk.host desk.disk none)
  | some (.text path) => within (Settings.load desk.host desk.disk (some path))
  | some .nothing => desk.say [] (.abort (.valueless .config))

/-- What the command does with its arguments, before it holds a dialogue. -/
def plan (host : Host) (disk : Disk) (stamp : Text) (arguments : List Text) : Plan :=
  let desk : Desk := { disk, stamp, host }
  let (words, files) := Arguments.split arguments
  match Request.ofArguments words with
  | .error (.help p) => desk.say [.out p.help] (.exit 0)
  | .error (.refused p f) => desk.say [.err (p.report f.message)] (.exit 2)
  | .ok r => fulfil desk r files

/-- The paths that the command looks at before a dialogue, for someone in the directory `cwd`. -/
def reach (cwd : Text) (arguments : List Text) : List Text :=
  let (words, files) := Arguments.split arguments
  match Request.ofArguments words with
  | .error _ => []
  | .ok r =>
    let settings := match r.config with
      | some v => v.text?.toList
      | none => Settings.candidates cwd
    let log := (r.log.bind Value.text?).toList.map (Path.absolute cwd)
    settings ++ log ++ r.files ++ files

/-! ## The whole run -/

/-- All that a run of the command comes to: what it put out, the desk that is left, and how it ended. -/
structure Run where
  transcript : Transcript
  desk : Desk
  ending : Ending

/-- A dialogue over these events, with its history file. -/
def converse (disk : Disk) (d : Dialogue) (events : List Dialogue.Event) : Deed :=
  match d.hold disk events with
  | .error a => ⟨[], .abort a⟩
  | .ok course =>
    let ending := match course.abort with
      | none => .status 0
      | some a => .abort a
    ⟨course.transcript, ending⟩

/-- The command with these arguments, and these events in a dialogue; all records have the time `stamp`. -/
def run (host : Host) (disk : Disk) (stamp : Text) (arguments : List Text) (events : List Dialogue.Event) : Run :=
  let p := plan host disk stamp arguments
  match p.next with
  | .exit n => ⟨p.transcript, p.desk, .status n⟩
  | .abort a => ⟨p.transcript, p.desk, .abort a⟩
  | .dialogue d =>
    let deed := converse p.desk.disk d events
    let desk := p.desk.after deed.transcript
    ⟨p.transcript ++ deed.transcript, { desk with disk := d.saved desk.disk }, deed.ending⟩

end MalForms.Command
