import MalForms.Form.Same
import MalForms.ParseError
import MalForms.Reader.Step

/-!
# Reading source text

The forms of a text, one after another, until the text ends or does not fit.

* `trace`: the forms with the offsets at which they end, and how the reading ended.
* `read`: all forms of a text, or the error.
-/

namespace MalForms

/-! ## Errors -/

/-- Why a text has no forms. -/
inductive ReadError where
  | parse (e : ParseError)
  | overlong (digits : Nat)
  | misescaped (fault : Escape.Fault)
deriving DecidableEq

def ReadError.message : ReadError → Text
  | parse e => e.message
  | overlong digits =>
    .concat ["Exceeds the limit (", Decimal.ofNat Lexeme.maxDigits,
      " digits) for integer string conversion: value has ", Decimal.ofNat digits,
      " digits; use sys.set_int_max_str_digits() to increase the limit"]
  | misescaped f => f.message

/-- The error of a failure in a source. -/
def Failure.toError (source filename : Text) : Failure → ReadError
  | mismatch place expected => .parse (.atPosition source place expected filename)
  | overlong digits => .overlong digits
  | misescaped fault => .misescaped fault

/-! ## Traces -/

/-- The forms read from a cursor on, each with the offset of its end, and how the reading ended: with a failure or at
the end of the text, and where the cursor was left. -/
structure Trace where
  forms : List (Form × Nat)
  failure : Option Failure
  last : Cursor

theorem rest_lt_of_next {stack : List Frame} {c c' : Cursor} {f : Form} (h : next stack c = .form f c') :
    c'.rest.length < c.rest.length := by
  fun_induction next stack c with
  | case1 stack c stack' c₁ hs ih => exact Nat.lt_trans (ih h) (rest_lt_of_step hs)
  | case2 stack c o hs =>
    subst h
    exact rest_lt_of_step_form hs

/-- Read forms until the text ends or does not fit. -/
def trace (c : Cursor) : Trace :=
  match _h : next [] c with
  | .form f c' => let t := trace c'; { t with forms := (f, c'.pos.offset) :: t.forms }
  | .finished c' => ⟨[], none, c'⟩
  | .failed e c' => ⟨[], some e, c'⟩
termination_by c.rest.length
decreasing_by exact rest_lt_of_next _h

/-- The forms of the trace, or the error that ended it. -/
def Trace.result (t : Trace) (source filename : Text) : Except ReadError (List Form) :=
  match t.failure with
  | none => .ok (t.forms.map Prod.fst)
  | some e => .error (e.toError source filename)

/-- All forms of a source. -/
def read (source : Text) (filename : Text := "<input>") : Except ReadError (List Form) :=
  (trace (.start source)).result source filename

/-- Whether the text reads as these forms, places aside. -/
def readsAs (text : Text) (fs : List Form) : Except ReadError Bool := (read text).map (Form.sameAll · fs)

end MalForms
