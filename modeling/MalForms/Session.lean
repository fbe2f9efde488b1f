import MalForms.Form.Layout
import MalForms.Log
import MalForms.Text.Blank

/-!
# Sessions

A session reads code that comes line by line. Lines are kept in a buffer as long as they form an incomplete text; then
the buffer is read, and goes into the history with its result. The counter counts the results that were no errors.
-/

namespace MalForms

namespace Session

inductive Kind where
  | value
  | error
  | incomplete
  | empty
deriving DecidableEq

/-- The result of reading code: forms, an error, a demand for more code, or nothing. -/
structure Reply where
  kind : Kind
  forms : List Form := []
  error : Option ParseError := none

namespace Reply

def isSuccess (r : Reply) : Bool := r.kind = .value || r.kind = .empty

def isError (r : Reply) : Bool := r.kind = .error

def isIncomplete (r : Reply) : Bool := r.kind = .incomplete

end Reply

/-- What the source of a session is called in reports. -/
def filename : Text := "<repl>"

/-- Read code into forms. Code of white space has none. Errors other than those of the grammar are passed on. -/
def read (code : Text) : Except ReadError Reply :=
  if code.strip.isEmpty then .ok { kind := .empty }
  else
    match MalForms.read code filename with
    | .ok [] => .ok { kind := .empty }
    | .ok fs => .ok { kind := .value, forms := fs }
    | .error (.parse e) => .ok { kind := if e.incomplete then .incomplete else .error, error := some e }
    | .error e => .error e

/-- The records of reading code. -/
def records (code : Text) : List Log.Record :=
  if code.strip.isEmpty then [] else Log.ofTrace (trace (.start code)) code filename

/-- Whether code can be read without more input. Code that no further input can mend counts as complete. -/
def isComplete (code : Text) : Except ReadError Bool :=
  match MalForms.read code with
  | .ok _ => .ok true
  | .error (.parse e) => .ok !e.incomplete
  | .error e => .error e

/-- The forms as a session shows them. -/
def shown (pretty : Bool) (fs : List Form) : Except Form.Unprintable Text :=
  if pretty then Form.layoutAll fs else Form.printAll fs

end Session

structure Session where
  /-- The code that has been read and its results, the first one first. -/
  history : List (Text × Session.Reply) := []
  /-- How many results were no errors. -/
  counter : Nat := 0
  /-- The lines that wait for more. -/
  buffer : Text := []

namespace Session

def add (s : Session) (code : Text) (r : Reply) : Session :=
  { s with history := s.history ++ [(code, r)], counter := if r.isSuccess then s.counter + 1 else s.counter }

/-- The buffer with one more line. -/
def extended (s : Session) (line : Text) : Text := s.buffer ++ line.line

/-- Read the buffer with one more line. If it is incomplete, or reading fails, the buffer keeps the line. -/
def feed (s : Session) (line : Text) : Except ReadError Reply × Session :=
  let code := s.extended line
  match read code with
  | .error e => (.error e, { s with buffer := code })
  | .ok r => (.ok r, if r.isIncomplete then { s with buffer := code } else { s with buffer := [] }.add code r)

def clearBuffer (s : Session) : Session := { s with buffer := [] }

def clearHistory (s : Session) : Session := { s with history := [], counter := 0 }

/-- What a session can be asked to do. -/
inductive Action where
  | read (code : Text)
  | line (text : Text)
  | isComplete (code : Text)
  | clearBuffer
  | clearHistory
  | format (source : Text)
  | add (code : Text) (kind : Kind)

/-- What a session answers. -/
inductive Answer where
  | done
  | reply (r : Reply)
  | truth (b : Bool)
  | text (t : Text)
  | error (e : ReadError)
  | unprintable (u : Form.Unprintable)

/-- The answer to a wish to see forms. -/
def Answer.ofShown : Except Form.Unprintable Text → Answer
  | .ok t => .text t
  | .error u => .unprintable u

def Answer.ofExcept {α : Type} (f : α → Answer) : Except ReadError α → Answer
  | .ok a => f a
  | .error e => .error e

/-- Do what is asked. -/
def act (pretty : Bool) (s : Session) : Action → Answer × Session
  | .read code => (.ofExcept .reply (read code), s)
  | .line text => let (r, s') := s.feed text; (.ofExcept .reply r, s')
  | .isComplete code => (.ofExcept .truth (isComplete code), s)
  | .clearBuffer => (.done, s.clearBuffer)
  | .clearHistory => (.done, s.clearHistory)
  | .format source => (.ofExcept (fun fs => .ofShown (shown pretty fs)) (MalForms.read source), s)
  | .add code kind => (.done, s.add code { kind })

/-- Do what is asked, one action after another; each answer comes with the session after it. -/
def run (pretty : Bool) (s : Session) : List Action → List (Answer × Session)
  | [] => []
  | a :: rest => let (answer, s') := s.act pretty a; (answer, s') :: s'.run pretty rest

end Session

end MalForms
