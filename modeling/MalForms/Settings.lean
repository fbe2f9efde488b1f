import MalForms.Datum
import MalForms.Disk
import MalForms.Host
import MalForms.Log
import MalForms.Text.LetterCase

/-!
# Settings

Settings come from a file `.malrc` in the working directory or the nearest directory above it, or from a file that is
named. The file holds one map, in which every entry is optional and unknown entries are allowed, or nothing at all.

* `Settings.find?`: the nearest settings file.
* `Settings.ofDatum`: the settings of a dictionary, or the first entry that has the wrong type.
* `Settings.load`: the settings of a file, or the defaults if none is named and none is found.
-/

namespace MalForms

structure Settings where
  /-- What is shown before a new form. -/
  prompt : Text := "user> "
  /-- What is shown before a further line of a form. -/
  continuationPrompt : Text := "... "
  /-- The file that keeps the lines of former sessions. -/
  historyFile : Option Text := some ".mal_history"
  /-- Whether long forms are laid out over several lines. -/
  pretty : Bool := false
  logLevel : Log.Level := .warning
  /-- The file the settings came from. -/
  path : Option Text := none

namespace Settings

/-- Why there are no settings. -/
inductive Fault where
  | missing (path : Text)
  | undecodable (fault : Utf8.Fault)
  | unreadable (path : Text) (error : ReadError)
  | notOneMap (path : Text)
  | notData (path : Text) (fault : Datum.Fault)
  /-- There is no room for a call in the conversion to data. -/
  | tooDeep (call : Datum.Call)
  | wrongType (key wanted : Text) (got : Datum)
  | unknownLevel (name : Text)

def Fault.message : Fault → Text
  | missing path => .concat ["Config file does not exist: ", path]
  | undecodable f => f.message
  | unreadable path (.parse e) => .concat ["Failed to parse ", path, ": ", e.describe]
  | unreadable _ e => e.message
  | notOneMap path => .concat [path, " must contain a single map"]
  | notData path f => .concat [path, ": ", f.message]
  | tooDeep call => (Datum.Fault.tooDeep call).message
  | wrongType key wanted got => .concat [":", key, " must be a ", wanted, ", got ", got.kindName]
  | unknownLevel name =>
    .concat [":log-level must be one of ", .join ", " (Log.Level.all.map Log.Level.name), ", got ", Quoted.encode name]

/-! ## Finding the file -/

def fileName : Text := ".malrc"

/-- The settings file in a directory or the nearest one above it. -/
def findFrom (isFile : Text → Bool) (dir : Text) : Option Text :=
  if isFile (Path.join dir fileName) then some (Path.join dir fileName)
  else if _h : Path.parent dir = dir then none
  else findFrom isFile (Path.parent dir)
termination_by dir.length
decreasing_by exact Path.length_parent_lt _h

/-- The paths where a settings file is looked for from a directory on, the nearest first. -/
def candidates (dir : Text) : List Text :=
  Path.join dir fileName :: if _h : Path.parent dir = dir then [] else candidates (Path.parent dir)
termination_by dir.length
decreasing_by exact Path.length_parent_lt _h

/-- The nearest settings file from a directory on; an empty path is the working directory. -/
def find? (d : Disk) (start : Text) : Option Text :=
  findFrom d.isFile (if start.isEmpty then d.cwd else Path.absolute d.cwd start)

/-! ## Reading the entries -/

section

variable (entries : List (Datum.Atom × Datum))

/-- The string of a key, or the default if the key is absent. -/
def stringEntry (key default : Text) : Except Fault Text :=
  match Datum.get? (.str key) entries with
  | none => .ok default
  | some (.atom (.str s)) => .ok s
  | some d => .error (.wrongType key "string" d)

def boolEntry (key : Text) (default : Bool) : Except Fault Bool :=
  match Datum.get? (.str key) entries with
  | none => .ok default
  | some (.atom (.bool b)) => .ok b
  | some d => .error (.wrongType key "boolean" d)

/-- The string of a key, which may be nil. -/
def optionalEntry (key : Text) (default : Option Text) : Except Fault (Option Text) :=
  match Datum.get? (.str key) entries with
  | none => .ok default
  | some (.atom .null) => .ok none
  | some (.atom (.str s)) => .ok (some s)
  | some d => .error (.wrongType key "string or nil" d)

/-- The level of a name in any case. -/
def levelNamed (name : Text) : Except Fault Log.Level :=
  match Log.Level.ofName? name.lower with
  | some l => .ok l
  | none => .error (.unknownLevel name.lower)

/-- The settings of the entries of a file. Of several faults the first in this order is reported. -/
def ofEntries (path : Text) : Except Fault Settings := do
  let base : Settings := {}
  let prompt ← stringEntry entries "prompt" base.prompt
  let continuationPrompt ← stringEntry entries "continuation-prompt" base.continuationPrompt
  let pretty ← boolEntry entries "pretty" base.pretty
  let levelName ← stringEntry entries "log-level" base.logLevel.name
  let historyFile ← optionalEntry entries "history-file" base.historyFile
  let logLevel ← levelNamed levelName
  return { prompt, continuationPrompt, historyFile, pretty, logLevel, path := some path }

end

/-! ## Loading -/

/-- The settings of a file with these forms. A fault of the data is reported with the path, want of room is not. -/
def ofForms (host : Host) (path : Text) : List Form → Except Fault Settings
  | [] => .ok { path := some path }
  | [.compound .map items span] =>
    match Datum.ofForm host.calls (.compound .map items span) with
    | .ok (.dict entries) => ofEntries entries path
    | .ok _ => .error (.notOneMap path)
    | .error (.tooDeep call) => .error (.tooDeep call)
    | .error f => .error (.notData path f)
  | _ => .error (.notOneMap path)

/-- The settings of a file with this text. -/
def ofText (host : Host) (path source : Text) : Except Fault Settings :=
  match MalForms.read source path with
  | .error e => .error (.unreadable path e)
  | .ok fs => ofForms host path fs

/-- The settings of the file at a path. -/
def ofFile (host : Host) (d : Disk) (path : Text) : Except Fault Settings :=
  match d.text? path with
  | none => .error (.missing path)
  | some (.error f) => .error (.undecodable f)
  | some (.ok t) => ofText host path t

/-- The settings of the named file, or of the nearest settings file. -/
def load (host : Host) (d : Disk) : Option Text → Except Fault Settings
  | some path => ofFile host d path
  | none =>
    match find? d [] with
    | none => .ok {}
    | some path => ofFile host d path

end Settings

end MalForms
