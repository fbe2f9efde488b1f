import MalForms.Arguments.Help
import MalForms.Arguments.Word

/-!
# Requests

A request is what the arguments ask for: the settings of the switches before the verb, the verb, and the files after
it. Arguments may instead ask for a page of help, or be refused with a report by the command or by the verb.

* `Request.ofArguments`: the request of the arguments. The first thing that stops it decides; words that nobody knows
  are reported last.
-/

namespace MalForms

/-- The value of a parameter. -/
inductive Value where
  | text (t : Text)
  /-- The divider is taken out where it stands for a value, and nothing is left. -/
  | nothing
deriving DecidableEq

namespace Value

def ofText (t : Text) : Value := if t = Word.divider then nothing else text t

/-- The text of the value, if there is one. -/
def text? : Value → Option Text
  | text t => some t
  | nothing => none

end Value

/-- What the arguments ask for. -/
structure Request where
  command : Option Value := none
  interactive : Bool := false
  pretty : Bool := false
  config : Option Value := none
  log : Option Value := none
  verbose : Bool := false
  verb : Option Verb := none
  /-- The files after the verb. -/
  files : List Text := []
deriving DecidableEq

namespace Request

open Arguments

/-- Why arguments do not come to a request. -/
inductive Stop where
  | help (p : Page)
  | refused (p : Page) (f : Fault)
deriving DecidableEq

/-- The fault of a page, where there is one. -/
def orRefuse {α : Type} (p : Page) : Except Fault α → Except Stop α
  | .ok a => .ok a
  | .error f => .error (.refused p f)

/-- Make a choice. Help stops at once. -/
def choose (p : Page) (r : Request) : Choice → Except Stop Request
  | .flag .help => .error (.help p)
  | .flag .interactive => .ok { r with interactive := true }
  | .flag .pretty => .ok { r with pretty := true }
  | .flag .verbose => .ok { r with verbose := true }
  | .value .command t => .ok { r with command := some (.ofText t) }
  | .value .config t => .ok { r with config := some (.ofText t) }
  | .value .log t => .ok { r with log := some (.ofText t) }

def chooseAll (p : Page) (r : Request) (cs : List Choice) : Except Stop Request := cs.foldlM (choose p) r

/-! ## After the verb -/

/-- What a word outside the files leaves unknown, after a verb. -/
def unknownAfter (v : Verb) (w : Word) : Except Stop (List Text) :=
  match w.role with
  | .use u => do
    let s ← orRefuse (.verb v) (u.resolve Switch.ofVerb none)
    let _ ← chooseAll (.verb v) {} s.choices
    return []
  | _ => .ok [w.text]

/-- The files of a verb and the words that it does not know. The files are the first unbroken run of operands, without
the divider. -/
def filesOf (v : Verb) (ws : List Word) : Except Stop (List Text × List Text) := do
  let front := ws.takeWhile (!·.isPlain)
  let run := (ws.drop front.length).takeWhile Word.isPlain
  let back := ws.drop (front.length + run.length)
  let before ← front.mapM (unknownAfter v)
  let after ← back.mapM (unknownAfter v)
  if v = .repl then return ([], before.flatten ++ run.map Word.text ++ after.flatten)
  else if run.any (·.role = .operand) then
    return ((run.map Word.text).erase Word.divider, before.flatten ++ after.flatten)
  else .error (.refused (.verb v) .filesMissing)

/-- The request with a verb and the words after it, and the words that the verb does not know. -/
def withVerb (r : Request) (v : Verb) (texts : List Text) : Except Stop (Request × List Text) := do
  let ws ← orRefuse (.verb v) (Word.ofTexts Switch.ofVerb texts)
  let (files, extras) ← filesOf v ws
  return ({ r with verb := some v, files }, extras)

/-! ## Before the verb -/

/-- The operand at the front, if there is one. -/
def operand? : List Word → Option Text
  | ⟨t, .operand⟩ :: _ => some t
  | _ => none

/-- The request after these words, and all words that nobody knows. -/
def ofWords (r : Request) : List Word → Except Stop (Request × List Text)
  | [] => .ok (r, [])
  | ⟨_, .use u⟩ :: rest => do
    let s ← orRefuse .command (u.resolve Switch.global (operand? rest))
    let r' ← chooseAll .command r s.choices
    ofWords r' (if s.takesNext then rest.tail else rest)
  | ⟨t, .unknown⟩ :: rest => do
    let (r', extras) ← ofWords r rest
    return (r', t :: extras)
  | [⟨t, .divider⟩] => .ok (r, [t])
  | ⟨t, .divider⟩ :: _ :: _ => .error (.refused .command (.unknownVerb t))
  | ⟨t, .operand⟩ :: rest =>
    match Verb.ofName? t with
    | none => .error (.refused .command (.unknownVerb t))
    | some v => r.withVerb v (rest.map Word.text)
termination_by ws => ws.length
decreasing_by
  · split
    · exact Nat.lt_succ_of_le (List.length_tail ▸ Nat.sub_le _ _)
    · exact Nat.lt_succ_self _
  · exact Nat.lt_succ_self _

/-- The request of the arguments without their files. -/
def ofArguments (texts : List Text) : Except Stop Request := do
  let ws ← orRefuse .command (Word.ofTexts Switch.global texts)
  let (r, extras) ← ofWords {} ws
  if extras.isEmpty then return r else .error (.refused .command (.unrecognized extras))

end Request

end MalForms
