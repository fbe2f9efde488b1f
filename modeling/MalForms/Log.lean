import MalForms.Reader

/-!
# Log records

Parts of the program tell what they do in records, each with a level. A record is kept if its level reaches a
threshold, and is written as one line with the time, the part, the level and the message.
-/

namespace MalForms.Log

inductive Level where
  | debug
  | info
  | warning
  | error
  | critical
deriving DecidableEq

namespace Level

/-- The levels from the lowest to the highest. -/
def all : List Level := [debug, info, warning, error, critical]

def number : Level → Nat
  | debug => 10
  | info => 20
  | warning => 30
  | error => 40
  | critical => 50

def name : Level → Text
  | debug => "debug"
  | info => "info"
  | warning => "warning"
  | error => "error"
  | critical => "critical"

/-- The name in capitals, as records show it. -/
def capitals : Level → Text
  | debug => "DEBUG"
  | info => "INFO"
  | warning => "WARNING"
  | error => "ERROR"
  | critical => "CRITICAL"

def ofName? (t : Text) : Option Level := all.find? (·.name = t)

end Level

/-- The parts of the program that write records. -/
inductive Part where
  | command
  | reader
  | session
deriving DecidableEq

def Part.name : Part → Text
  | command => "malreader.cli"
  | reader => "malreader.reader.reader"
  | session => "malreader.repl.backend"

structure Record where
  part : Part
  level : Level
  message : Text
deriving DecidableEq

/-- The line of a record written at the time `stamp`. -/
def Record.line (r : Record) (stamp : Text) : Text :=
  .concat [stamp, " ", r.part.name, " ", r.level.capitals, ": ", r.message.line]

/-- Where records go. -/
inductive Sink where
  /-- No log was set up: warnings and worse go to standard error, the message alone. -/
  | bare
  /-- Lines of records from the threshold on, on standard error. -/
  | stream (threshold : Level)
  /-- Lines of records from the threshold on, at the end of a file. -/
  | file (threshold : Level) (path : Text)
deriving DecidableEq

/-- What the sink puts on standard error for a record. -/
def Sink.errorText (stamp : Text) (r : Record) : Sink → Text
  | bare => if Level.warning.number ≤ r.level.number then r.message.line else []
  | stream threshold => if threshold.number ≤ r.level.number then r.line stamp else []
  | file _ _ => []

/-- The text without surrogates, which a file cannot hold: each is written as its escape. -/
def withoutSurrogates (t : Text) : Text :=
  t.flatMap fun c => if c.isSurrogate then ("\\u" : Text) ++ Hex.digits 4 c.val else [c]

/-- What the sink puts into its file for a record. -/
def Sink.fileText (stamp : Text) (r : Record) : Sink → Text
  | file threshold _ => if threshold.number ≤ r.level.number then withoutSurrogates (r.line stamp) else []
  | _ => []

/-! ## Records of reading -/

/-- The record of a finished form that ends at an offset. -/
def ofForm (f : Form) (stop : Nat) : Record :=
  ⟨.reader, .debug, .concat ["read ", f.kindName, " ending at offset ", Decimal.ofNat stop]⟩

/-- The record of an error; only errors of the grammar have one. -/
def ofError (filename : Text) : ReadError → List Record
  | .parse e => [⟨.reader, .debug, .concat ["parse error in ", filename, ": ", e.message]⟩]
  | _ => []

/-- The records of reading a source. -/
def ofTrace (t : Trace) (source filename : Text) : List Record :=
  t.forms.map (fun (f, stop) => ofForm f stop) ++
    match t.failure with
    | none => []
    | some e => ofError filename (e.toError source filename)

end MalForms.Log
