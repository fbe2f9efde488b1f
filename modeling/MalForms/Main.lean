import MalForms.Command
import Std.Time

/-!
# The program

The program looks up what stands at the paths that the command can ask for, lets the command decide, and writes out
what it says. In a dialogue it hands over one line after another.
-/

namespace MalForms.Program

/-! ## Looking at the disk -/

/-- The number of an error, which may be given with its sign turned. -/
def numberOf (n : UInt32) : Nat := if n.toNat < 0x80000000 then n.toNat else 0x100000000 - n.toNat

/-- The fault that an error of the system tells of. -/
def faultOf : IO.Error → OsFault
  | .alreadyExists _ n t | .invalidArgument _ n t | .permissionDenied _ n t | .resourceExhausted _ n t
  | .inappropriateType _ n t | .noSuchThing _ n t | .interrupted _ n t | .noFileOrDirectory _ n t
  | .otherError n t | .resourceBusy n t | .resourceVanished n t | .unsupportedOperation n t | .hardwareFault n t
  | .unsatisfiedConstraints n t | .illegalOperation n t | .protocolError n t | .timeExpired n t =>
    .ofNumber (numberOf n) t
  | .unexpectedEof => .other 5 "Unexpected end of file"
  | .userError t => .other 5 t

/-- These bytes as a path of the system. -/
def named (bytes : List UInt8) : Option String := String.fromUTF8? ⟨bytes.toArray⟩

/-- What stands at a place. -/
def nodeAt (place : Place) : IO (Option Node) := do
  let some path := named (place.flatMap (Path.encode [Path.slash] ++ ·)) | return none
  try return some (.file (← IO.FS.readBinFile path).toList)
  catch e =>
    match faultOf e with
    | .isDirectory => return some .directory
    | .noEntry | .notDirectory => return none
    | f => return some (.closed f)

/-- The disk, as far as these paths are concerned. -/
def look (cwd : Text) (paths : List Text) : IO Disk := do
  let bare : Disk := { cwd, node := fun _ => none }
  let found ← (paths.flatMap bare.placesOn).mapM fun place => return (place, ← nodeAt place)
  return { bare with node := fun place => (found.lookup place).join }

/-! ## Writing out -/

/-- The time in the form that log lines show. -/
def timeStamp : IO Text := return (← Std.Time.PlainDateTime.now).format "uuuu-MM-dd HH:mm:ss,SSS"

def write (s : IO.FS.Stream) (t : Text) : IO Unit := do
  s.write ⟨(Utf8.encode t).toArray⟩
  s.flush

/-- Add text to the end of a file. -/
def append (path t : Text) : IO Unit := do
  if let some s := named (Path.encode path) then
    (← IO.FS.Handle.mk s .append).write ⟨(Utf8.encode t).toArray⟩

def emit (sink : Log.Sink) (stamp : Text) : Emission → IO Unit
  | .out t => do write (← IO.getStdout) t
  | .err t => do write (← IO.getStderr) t
  | .log r => do
    write (← IO.getStderr) (sink.errorText stamp r)
    if let .file _ path := sink then append path (sink.fileText stamp r)

def emitAll (sink : Log.Sink) (stamp : Text) (es : Transcript) : IO Unit := es.forM (emit sink stamp)

/-! ## Running -/

/-- The end of a run that was aborted. -/
def abort (a : Abort) : IO UInt32 := do
  write (← IO.getStderr) a.message.line
  return 1

/-- The next event at the console. -/
def event : IO Dialogue.Event := do
  let line ← (← IO.getStdin).getLine
  if line.isEmpty then return .endOfInput
  return .line (if line.endsWith "\n" then (Text.ofString line).dropLast else Text.ofString line)

/-- Hold a dialogue at the console. -/
def converse (sink : Log.Sink) (cwd : Text) (d : Dialogue) : IO UInt32 := do
  let disk ← look cwd d.historyFile?.toList
  match d.start disk with
  | .error a => abort a
  | .ok es =>
    emitAll sink (← timeStamp) es
    let mut current := d
    let mut status : Option Abort := none
    repeat
      match Attempt.write current.host current.prompt with
      | .error a =>
        status := some a
        break
      | .ok shown =>
        emit sink [] shown
        let (es, turn) := current.react (← event)
        emitAll sink (← timeStamp) es
        match turn with
        | .waiting d' => current := d'
        | .closed _ => break
        | .aborted _ a =>
          status := some a
          break
    let warnings := d.stop disk
    emitAll sink (← timeStamp) warnings
    if warnings.isEmpty then
      if let some path := d.historyFile? then append path []
    match status with
    | none => return 0
    | some a => abort a

/-- Run the command at the console. -/
def run (arguments : List Text) : IO UInt32 := do
  let cwd := Text.ofString (← IO.currentDir).toString
  let stamp ← timeStamp
  let p := Command.plan .utf8 (← look cwd (Command.reach cwd arguments)) stamp arguments
  let sink := p.desk.sink
  if let .file _ path := sink then append path []
  emitAll sink stamp p.transcript
  match p.next with
  | .exit n => return n.toUInt32
  | .abort a => abort a
  | .dialogue d => converse sink cwd d

end MalForms.Program

def main (arguments : List String) : IO UInt32 := MalForms.Program.run (arguments.map MalForms.Text.ofString)
