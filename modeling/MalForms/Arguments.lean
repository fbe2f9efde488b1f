import MalForms.Text

/-!
# Arguments of the command

The words after the command's name: switches, which start with a dash, values of switches, and operands. The first
operand is a verb, such as `check`, or all operands are files to read.

* `Verb`, `Switch`: what can be asked for, with the names.
* `Arguments.split`: take the files out of arguments without a verb.
-/

namespace MalForms

/-- What the command can be told to do. -/
inductive Verb where
  | repl
  | read
  | check
deriving DecidableEq

namespace Verb

def all : List Verb := [repl, read, check]

def name : Verb → Text
  | repl => "repl"
  | read => "read"
  | check => "check"

def ofName? (t : Text) : Option Verb := all.find? (·.name = t)

end Verb

/-- A switch without a value. -/
inductive Flag where
  | help
  | interactive
  | pretty
  | verbose
deriving DecidableEq

/-- A switch with a value. -/
inductive Parameter where
  | command
  | config
  | log
deriving DecidableEq

def Parameter.names : Parameter → List Text
  | command => ["-c", "--command"]
  | config => ["--config"]
  | log => ["--log"]

def Flag.names : Flag → List Text
  | help => ["-h", "--help"]
  | interactive => ["-i", "--interactive"]
  | pretty => ["--pretty"]
  | verbose => ["-v", "--verbose"]

inductive Switch where
  | flag (f : Flag)
  | parameter (p : Parameter)
deriving DecidableEq

namespace Switch

/-- The names of a switch, the one with a single dash first. -/
def names : Switch → List Text
  | flag f => f.names
  | parameter p => p.names

/-- How reports call a switch. -/
def title (s : Switch) : Text := .join "/" s.names

/-- The switches before a verb, in the order in which reports list them. -/
def global : List Switch :=
  [flag .help, parameter .command, flag .interactive, flag .pretty, parameter .config, parameter .log, flag .verbose]

/-- The switches after a verb. -/
def ofVerb : List Switch := [flag .help]

end Switch

namespace Arguments

def dash : CodePoint := '-'

def startsWithDash (t : Text) : Bool := t.head? = some dash

/-- Whether the next word is the value of this one, whatever it looks like. -/
def takesValue (t : Text) : Bool := [Parameter.command, .config, .log].any (·.names.contains t)

/-- The words divided into switches with their values and files. None if the first operand is a verb; `first` tells
that no file has come yet. -/
def divide? (first : Bool) : List Text → Option (List Text × List Text)
  | [] => some ([], [])
  | [t] =>
    if startsWithDash t then some ([t], [])
    else if first && (Verb.ofName? t).isSome then none
    else some ([], [t])
  | t :: u :: rest =>
    if takesValue t then (divide? first rest).map fun (switches, files) => (t :: u :: switches, files)
    else if startsWithDash t then (divide? first (u :: rest)).map fun (switches, files) => (t :: switches, files)
    else if first && (Verb.ofName? t).isSome then none
    else (divide? false (u :: rest)).map fun (switches, files) => (switches, t :: files)

/-- The words without the files, and the files. If the first operand is a verb, all words stay and no file comes out. -/
def split (words : List Text) : List Text × List Text := (divide? true words).getD (words, [])

end Arguments

end MalForms
