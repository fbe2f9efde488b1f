import MalForms.Arguments
import MalForms.Datum
import MalForms.Disk
import MalForms.Form.Printer
import MalForms.Host
import MalForms.Log

/-!
# What a run puts out

A run writes to standard output and standard error and makes log records; a transcript lists all of it in order. Where
the records end up is for the sink to say.

Standard output need not take a text, and a form need not have one. So what is to be printed is an attempt, which ends
the run if it fails; standard error takes everything.
-/

namespace MalForms

/-- One thing that a run puts out. -/
inductive Emission where
  | out (t : Text)
  | err (t : Text)
  | log (r : Log.Record)
deriving DecidableEq

/-- All that a run puts out, in order. -/
abbrev Transcript := List Emission

namespace Transcript

/-- What is written to standard output. -/
def output (es : Transcript) : Text :=
  es.flatMap fun
    | .out t => t
    | _ => []

/-- What is written to standard error, records included that the sink puts there. -/
def errors (sink : Log.Sink) (stamp : Text) (es : Transcript) : Text :=
  es.flatMap fun
    | .err t => t
    | .log r => sink.errorText stamp r
    | _ => []

/-- What is added to the sink's file. -/
def logged (sink : Log.Sink) (stamp : Text) (es : Transcript) : Text :=
  es.flatMap fun
    | .log r => sink.fileText stamp r
    | _ => []

end Transcript

/-- What ends a run that nothing in it takes care of. -/
inductive Abort where
  | reading (e : ReadError)
  | interrupted
  | decoding (f : Utf8.Fault)
  | opening (f : OpenFault) (path : Text)
  /-- A parameter whose value is needed has none left. -/
  | valueless (p : Parameter)
  /-- Standard output does not take a text. -/
  | writing (message : Text)
  /-- A form has no text. -/
  | printing (u : Form.Unprintable)
  /-- There is no room for a call. -/
  | nesting (call : Datum.Call)

def Abort.message : Abort → Text
  | reading e => e.message
  | interrupted => []
  | decoding f => f.message
  | opening (.path f) _ => f.message
  | opening (.os f) path => f.messageAt path
  | valueless .command => "expected string or bytes-like object, got 'list'"
  | valueless _ => "stat: path should be string, bytes, os.PathLike or integer, not list"
  | writing message => message
  | printing u => u.message
  | nesting call => (Datum.Fault.tooDeep call).message

/-! ## Attempts -/

/-- Something to be put out, or what ends the run instead. -/
abbrev Attempt := Except Abort Emission

namespace Attempt

/-- Write a text to standard output. -/
def write (host : Host) (t : Text) : Attempt :=
  match host.refusal? t with
  | none => .ok (.out t)
  | some message => .error (.writing message)

theorem write_of_takes {host : Host} {t : Text} (h : host.Takes t) : write host t = .ok (.out t) := by
  have hnone : host.refusal? t = none := h
  rw [write, hnone]

/-- Write a line to standard output, if there is a text for it. -/
def print (host : Host) : Except Form.Unprintable Text → Attempt
  | .ok t => write host t.line
  | .error u => .error (.printing u)

/-- What attempts put out one after another, up to the first that fails, and what it fails with. -/
def carry : List Attempt → Transcript × Option Abort
  | [] => ([], none)
  | .error a :: _ => ([], some a)
  | .ok e :: rest => (e :: (carry rest).1, (carry rest).2)

end Attempt

end MalForms
