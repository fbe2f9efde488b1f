import MalForms.Path
import MalForms.Text.Decimal
import MalForms.Text.Lines
import MalForms.Text.Quoted
import MalForms.Text.Utf8

/-!
# What stands on a disk

A disk holds files and directories at places, and a path leads to a place. It is followed name by name: through directories
only, with `.` for the directory itself and `..` for the one it is in. Some texts are no paths at all. From this follow the
outcomes of reading a file, of making one, and of looking for one; text can be added to the end of a file.

* `Disk.locate`: the place that a path leads to.
* `Disk.read`, `Disk.file?`, `Disk.text?`: what the file at a path holds.
* `Disk.writeFault?`, `Disk.append`: writing to the end of a file, which is made if it is not there.
-/

namespace MalForms

/-! ## Faults -/

/-- What the system reports of a path. -/
inductive OsFault where
  | noEntry
  | notDirectory
  | isDirectory
  | invalid
  | nameTooLong
  | other (number : Nat) (text : Text)
deriving DecidableEq

namespace OsFault

def number : OsFault → Nat
  | noEntry => 2
  | notDirectory => 20
  | isDirectory => 21
  | invalid => 22
  | nameTooLong => 36
  | other n _ => n

def text : OsFault → Text
  | noEntry => "No such file or directory"
  | notDirectory => "Not a directory"
  | isDirectory => "Is a directory"
  | invalid => "Invalid argument"
  | nameTooLong => "File name too long"
  | other _ t => t

/-- The fault with a number; the text counts if the number is none of those above. -/
def ofNumber (n : Nat) (text : Text) : OsFault :=
  ([noEntry, notDirectory, isDirectory, invalid, nameTooLong].find? (·.number = n)).getD (other n text)

def message (f : OsFault) : Text := .concat ["[Errno ", Decimal.ofNat f.number, "] ", f.text]

/-- The report with the path it is about. -/
def messageAt (f : OsFault) (path : Text) : Text := .concat [f.message, ": ", Quoted.encode path]

end OsFault

/-- Why a text is no path. -/
inductive PathFault where
  /-- It has a NUL. -/
  | null
  /-- It has surrogates that stand for no bytes. -/
  | surrogates (s : Utf8.Surrogates)
deriving DecidableEq

namespace PathFault

def message : PathFault → Text
  | null => "embedded null byte"
  | surrogates s => s.message

/-- Surrogates from `0xDC80` to `0xDCFF` stand for the single bytes from `0x80` to `0xFF`. -/
def isByte (c : CodePoint) : Bool := 0xDC80 ≤ c.val && c.val ≤ 0xDCFF

/-- What is wrong with a path, surrogates before NULs. -/
def of? (p : Text) : Option PathFault :=
  ((Utf8.surrogates? isByte 0 p).map surrogates).or (if p.any (·.val = 0) then some null else none)

end PathFault

/-- Why a file cannot be opened. -/
inductive OpenFault where
  | path (f : PathFault)
  | os (f : OsFault)
deriving DecidableEq

/-! ## Places -/

/-- The bytes of a path. Some surrogates stand for a single byte. -/
def Path.encode (p : Text) : List UInt8 :=
  p.flatMap fun c => if PathFault.isByte c then [(c.val - 0xDC00).toUInt8] else Utf8.bytes c

/-- A place on a disk: the names that lead to it from the root, in bytes. -/
abbrev Place := List (List UInt8)

/-- The names in a path, in bytes; some may be empty. -/
def Path.names (p : Text) : Place := (Path.components p).map Path.encode

/-- What can stand at a place. -/
inductive Node where
  | file (bytes : List UInt8)
  | directory
  /-- A device that holds nothing and forgets what is written to it. -/
  | device
  /-- Something that cannot be opened. -/
  | closed (f : OsFault)
deriving DecidableEq

/-! ## Disks -/

structure Disk where
  /-- The working directory, from the root. -/
  cwd : Text
  /-- What stands at a place, if anything does. The root is a directory in any case. -/
  node : Place → Option Node

/-- What a path leads to. -/
inductive Entry where
  | node (n : Node)
  /-- Nothing, in a directory that is there. -/
  | vacant
  /-- There is no way to the path. -/
  | fault (f : OsFault)
deriving DecidableEq

namespace Disk

/-- The greatest number of bytes in a name. -/
def maxName : Nat := 255

/-- The number of bytes that no path reaches. -/
def maxPath : Nat := 4096

def node? (d : Disk) (place : Place) : Option Node := if place.isEmpty then some .directory else d.node place

/-- Follow names from a directory. The last one may be missing. -/
def walk (d : Disk) (here : Place) : Place → Except OsFault Place
  | [] => .ok here
  | name :: rest =>
    if name.isEmpty || name = Path.encode Path.self then d.walk here rest
    else if name = Path.encode Path.above then d.walk here.dropLast rest
    else if name.length > maxName then .error .nameTooLong
    else
      match d.node? (here ++ [name]) with
      | none => if rest.isEmpty then .ok (here ++ [name]) else .error .noEntry
      | some .directory => d.walk (here ++ [name]) rest
      | some (.closed f) => if rest.isEmpty then .ok (here ++ [name]) else .error f
      | some _ => if rest.isEmpty then .ok (here ++ [name]) else .error .notDirectory

/-- The directory that a path is followed from. -/
def origin (d : Disk) (p : Text) : Place :=
  if p.head? = some Path.slash then [] else (Path.names d.cwd).filter (!·.isEmpty)

/-- The place that a path leads to. -/
def locate (d : Disk) (p : Text) : Except OsFault Place :=
  if p.isEmpty then .error .noEntry
  else if (Path.encode p).length ≥ maxPath then .error .nameTooLong
  else d.walk (d.origin p) (Path.names p)

/-- What a path leads to. -/
def entry (d : Disk) (p : Text) : Entry :=
  match d.locate p with
  | .error f => .fault f
  | .ok place =>
    match d.node? place with
    | some n => .node n
    | none => .vacant

/-! ## Reading -/

/-- The bytes of the regular file at a path, if there is one. -/
def file? (d : Disk) (p : Text) : Option (List UInt8) :=
  if (PathFault.of? p).isSome then none
  else
    match d.entry p with
    | .node (.file bytes) => some bytes
    | _ => none

def isFile (d : Disk) (p : Text) : Bool := (d.file? p).isSome

/-- Open a file for reading. -/
def read (d : Disk) (p : Text) : Except OpenFault (List UInt8) :=
  match PathFault.of? p with
  | some f => .error (.path f)
  | none =>
    match d.entry p with
    | .node (.file bytes) => .ok bytes
    | .node .device => .ok []
    | .node .directory => .error (.os .isDirectory)
    | .node (.closed f) | .fault f => .error (.os f)
    | .vacant => .error (.os .noEntry)

/-- The text in these bytes, with line ends unified. -/
def textOf (bytes : List UInt8) : Except Utf8.Fault Text := (Utf8.decode bytes).map Text.unifyLineEnds

/-- The text of the regular file at a path, if there is one. -/
def text? (d : Disk) (p : Text) : Option (Except Utf8.Fault Text) := (d.file? p).map textOf

/-! ## Writing -/

/-- What stands in the way of opening a file for writing, and making it if it is not there. A slash at the end asks for a
directory. -/
def writeFault? (d : Disk) (p : Text) : Option OpenFault :=
  match PathFault.of? p with
  | some f => some (.path f)
  | none =>
    if (Path.encode p).length ≥ maxPath then some (.os .nameTooLong)
    else if p.getLast? = some Path.slash then
      let front := (Path.components (Path.trimEnd Path.isSlash p)).dropLast ++ [Path.self]
      match d.walk (d.origin p) (front.map Path.encode) with
      | .error f => some (.os f)
      | .ok _ => some (.os .isDirectory)
    else
      match d.entry p with
      | .node (.closed f) | .fault f => some (.os f)
      | .node .directory => some (.os .isDirectory)
      | _ => none

/-- The disk with this at a place. -/
def put (d : Disk) (place : Place) (n : Node) : Disk :=
  { d with node := fun q => if q = place then some n else d.node q }

/-- The disk after bytes have been added to the end of the file at a path, which is made if it is not there. -/
def append (d : Disk) (p : Text) (bytes : List UInt8) : Disk :=
  match d.locate p with
  | .error _ => d
  | .ok place =>
    match d.node? place with
    | none => d.put place (.file bytes)
    | some (.file old) => d.put place (.file (old ++ bytes))
    | some _ => d

/-- The places that come up when a path is followed, whatever stands there. -/
def placesOn (d : Disk) (p : Text) : List Place :=
  let step (places : List Place) (name : List UInt8) : List Place :=
    let here := places.headD []
    if name.isEmpty || name = Path.encode Path.self then places
    else (if name = Path.encode Path.above then here.dropLast else here ++ [name]) :: places
  (d.origin p ++ Path.names p).foldl step [[]]

end Disk

end MalForms
