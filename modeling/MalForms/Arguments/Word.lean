import MalForms.Arguments
import MalForms.Text.Digit
import MalForms.Text.Quoted

/-!
# The role of a word

Each word is a switch, possibly with text attached to its name, an unknown switch, an operand, or the divider `--`,
after which all words are operands. A long name may be cut short as long as it stays unique.

* `Word.ofTexts`: the words with their roles.
* `Use.resolve`: the settings made by a word that is a switch, or by a cluster of switches such as `-vi`.
-/

namespace MalForms

/-! ## Faults -/

namespace Arguments

/-- Why arguments are refused. -/
inductive Fault where
  | ambiguous (word : Text) (names : List Text)
  | valueMissing (p : Parameter)
  | valueUnwanted (s : Switch) (value : Text)
  | unknownVerb (word : Text)
  | filesMissing
  | unrecognized (words : List Text)
deriving DecidableEq

def Fault.message : Fault → Text
  | ambiguous word names => .concat ["ambiguous option: ", word, " could match ", .join ", " names]
  | valueMissing p => .concat ["argument ", (Switch.parameter p).title, ": expected one argument"]
  | valueUnwanted s value => .concat ["argument ", s.title, ": ignored explicit argument ", Quoted.encode value]
  | unknownVerb word =>
    .concat ["argument <command>: invalid choice: ", Quoted.encode word, " (choose from ",
      .join ", " (Verb.all.map (Quoted.encode ·.name)), ")"]
  | filesMissing => "the following arguments are required: FILE"
  | unrecognized words => .concat ["unrecognized arguments: ", .join " " words]

end Arguments

/-! ## Roles -/

/-- A switch as it is written. -/
structure Use where
  switch : Switch
  /-- Whether the name has a single dash. -/
  short : Bool
  /-- The text attached to the name in the same word, after an equals sign or directly. -/
  attached : Option Text := none
deriving DecidableEq

/-- What a word is. -/
inductive Role where
  | operand
  | divider
  | unknown
  | use (u : Use)
deriving DecidableEq

structure Word where
  text : Text
  role : Role
deriving DecidableEq

namespace Word

open Arguments

/-- Whether the word is an operand or the divider. -/
def isPlain (w : Word) : Bool :=
  match w.role with
  | .operand | .divider => true
  | _ => false

/-- The divider between switches and operands. -/
def divider : Text := "--"

def isLong (name : Text) : Bool := name.startsWith divider

section

variable (known : List Switch)

/-- The known names, each with its switch. -/
def nameTable : List (Text × Switch) := known.flatMap fun s => s.names.map (·, s)

def find? (name : Text) : Option Switch := (nameTable known).lookup name

/-- The long names that start as the word does up to its equals sign, each with its use. -/
def abbreviated (t : Text) : List (Text × Use) :=
  let (front, value) := t.cut '='
  ((nameTable known).filter (·.1.startsWith front)).map fun (name, s) => (name, ⟨s, false, value⟩)

/-- The known names that the word can stand for, when it is none of them: for two dashes a cut-off long name, for one
dash a name of one letter with text attached. -/
def candidates (t : Text) : List (Text × Use) :=
  if isLong t then abbreviated known t
  else
    let name := t.take 2
    ((find? known name).map fun s => (name, ⟨s, true, some (t.drop 2)⟩)).toList

/-- The use of a word that is a known name, alone or with an equals sign and text after it. -/
def spelled? (t : Text) : Option Use :=
  match find? known t, t.cut '=' with
  | some s, _ => some ⟨s, !isLong t, none⟩
  | none, (name, some value) => (find? known name).map fun s => ⟨s, !isLong name, some value⟩
  | none, (_, none) => none

/-- Whether the word is a negative number: digits, with or without a point before the last of them. A line feed may
follow. -/
def isNegativeNumber (t : Text) : Bool :=
  match if t.getLast? = some '\n' then t.dropLast else t with
  | [] => false
  | c :: body =>
    c = dash &&
      match body.dropWhile CodePoint.isDecimal with
      | [] => !body.isEmpty
      | d :: rest => d = '.' && !rest.isEmpty && rest.all CodePoint.isDecimal

/-- The role of a word before the divider. -/
def roleOf (t : Text) : Except Fault Role :=
  if !startsWithDash t then .ok .operand
  else
    match spelled? known t with
    | some u => .ok (.use u)
    | none =>
      if t.length = 1 then .ok .operand
      else
        match candidates known t with
        | [(_, u)] => .ok (.use u)
        | [] => .ok (if isNegativeNumber t || t.contains (' ' : CodePoint) then .operand else .unknown)
        | cs => .error (.ambiguous t (cs.map Prod.fst))

/-- The words with their roles. -/
def ofTexts : List Text → Except Fault (List Word)
  | [] => .ok []
  | t :: rest =>
    if t = divider then .ok (⟨t, .divider⟩ :: rest.map (⟨·, .operand⟩))
    else do
      let role ← roleOf known t
      return ⟨t, role⟩ :: (← ofTexts rest)

end

end Word

/-! ## Choices -/

/-- What a switch sets. -/
inductive Choice where
  | flag (f : Flag)
  | value (p : Parameter) (t : Text)
deriving DecidableEq

/-- What a word with a switch comes to: its choices in order, and whether it takes the next word. -/
structure Resolution where
  choices : List Choice
  takesNext : Bool := false
deriving DecidableEq

namespace Use

open Arguments

section

variable (known : List Switch) (next : Option Text)

/-- The resolution of a switch with nothing attached; `next` is the operand that follows. -/
def alone : Switch → Except Fault Resolution
  | .flag f => .ok ⟨[.flag f], false⟩
  | .parameter p =>
    match next with
    | some t => .ok ⟨[.value p t], true⟩
    | none => .error (.valueMissing p)

/-- The resolution of a switch with a single dash and text attached. The value of a parameter is all of the text; after
a flag the text goes on with the letter of another switch. -/
def cluster : Switch → Text → Except Fault Resolution
  | .parameter p, t => .ok ⟨[.value p t], false⟩
  | .flag f, [] => .error (.valueUnwanted (.flag f) [])
  | .flag f, c :: rest =>
    match Word.find? known [dash, c] with
    | none => .error (.valueUnwanted (.flag f) (c :: rest))
    | some s => do
      let r ← if rest.isEmpty then alone next s else cluster s rest
      return { r with choices := .flag f :: r.choices }

/-- The resolution of a switch as it is written. -/
def resolve (u : Use) : Except Fault Resolution :=
  match u.attached, u.switch with
  | none, s => alone next s
  | some t, .parameter p => .ok ⟨[.value p t], false⟩
  | some t, .flag f => if u.short then cluster known next (.flag f) t else .error (.valueUnwanted (.flag f) t)

end

end Use

end MalForms
