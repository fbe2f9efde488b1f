import MalForms.Reader

/-!
# A reader and its cursor

A reader holds a source and a cursor into it, which may be set to any number, even outside the text. Its forms can be
asked for all at once, one at a time, or lazily: a lazy run looks for the next form when it is asked to, from wherever
the cursor is then, and is over once it met the end of the text or a failure. All runs share the cursor, and none can
go on from a cursor that has more than 64 bits.
-/

namespace MalForms

structure Reader where
  source : Text
  filename : Text := "<input>"
  /-- The offset of the cursor. -/
  offset : Int := 0
  /-- For each lazy run, whether it goes on. -/
  runs : List Bool := []

namespace Reader

/-- The cursor, moved to the nearest place of the text. -/
def cursor (r : Reader) : Cursor := (Cursor.start r.source).advance r.offset.toNat

def moveTo (r : Reader) (c : Cursor) : Reader := { r with offset := c.pos.offset }

/-- What a reader can be asked to do. -/
inductive Action where
  | readAll
  | readForm
  /-- Start a lazy run. -/
  | start
  /-- Go on with the lazy run of this signed index. -/
  | resume (k : Int)
  | skip
  | seek (i : Int)
  | atEnd
  | peek (k : Int)
  | location (p : Int)

/-- What a reader answers. -/
inductive Answer where
  | done
  | forms (fs : List Form)
  | form (f : Form)
  | index (k : Nat)
  | over
  | truth (b : Bool)
  | text (t : Text)
  | place (line col : Int)
  | error (e : ReadError)
  /-- There is no lazy run of this index. -/
  | noRun (f : SignedIndex.Fault)
  /-- The cursor has more than 64 bits. -/
  | tooFar

/-- The report of a cursor with more than 64 bits. -/
def tooFarMessage : Text := "Python int too large to convert to C ssize_t"

def fail (r : Reader) (e : Failure) : Answer := .error (e.toError r.source r.filename)

/-- Look for the next form from the cursor on. -/
def advance (r : Reader) : Answer × Reader :=
  if SignedIndex.fits r.offset then
    match next [] r.cursor with
    | .form f c => (.form f, r.moveTo c)
    | .finished c => (.over, r.moveTo c)
    | .failed e c => (r.fail e, r.moveTo c)
  else (.tooFar, r)

/-- The reader after a lazy run had an answer: the run goes on if it was a form. -/
def keepRun (r : Reader) (place : Nat) : Answer → Reader
  | .form _ => r
  | _ => { r with runs := r.runs.set place false }

/-- Do what is asked. -/
def act (r : Reader) : Action → Answer × Reader
  | .readAll =>
    if SignedIndex.fits r.offset then
      let t := trace r.cursor
      match t.result r.source r.filename with
      | .ok fs => (.forms fs, r.moveTo t.last)
      | .error e => (.error e, r.moveTo t.last)
    else (.tooFar, r)
  | .readForm =>
    match r.advance with
    | (.over, r') => (r'.fail (.mismatch r'.cursor.pos [.form]), r')
    | other => other
  | .start => (.index r.runs.length, { r with runs := r.runs ++ [true] })
  | .resume k =>
    match SignedIndex.place r.runs.length k with
    | .error f => (.noRun f, r)
    | .ok place =>
      if r.runs[place]? = some true then
        let (answer, r') := r.advance
        (answer, r'.keepRun place answer)
      else (.over, r)
  | .skip => if SignedIndex.fits r.offset then (.done, r.moveTo r.cursor.skipGap) else (.tooFar, r)
  | .seek i => (.done, { r with offset := i })
  | .atEnd => (.truth (r.source.length ≤ r.offset), r)
  | .peek k => (.text (SignedIndex.slice r.source (some (r.offset + k)) (some (r.offset + k + 1))), r)
  | .location p => let (line, col) := r.source.location p; (.place line col, r)

/-- Do what is asked, one action after another; each answer comes with the offset of the cursor after it. -/
def run (r : Reader) : List Action → List (Answer × Int)
  | [] => []
  | a :: rest => let (answer, r') := r.act a; (answer, r'.offset) :: r'.run rest

end Reader

end MalForms
