import MalForms.Disk

/-!
# Disks by their files

A tree lists the files and directories there are by their places.
-/

namespace MalForms

/-- What stands at some places. -/
abbrev Tree := List (Place × Node)

namespace Tree

def find? (t : Tree) (place : Place) : Option Node := (List.find? (·.1 = place) t).map Prod.snd

/-- Add a directory, unless something is there. -/
def addNew (t : Tree) (place : Place) : Tree := if (t.find? place).isSome then t else (place, .directory) :: t

/-- Add a directory and those it is in. -/
def addDirectory (t : Tree) (place : Place) : Tree :=
  (List.range place.length).foldl (fun t n => t.addNew (place.take (n + 1))) t

/-- Add a node and the directories it is in. -/
def addNode (t : Tree) (place : Place) (n : Node) : Tree := (place, n) :: t.addDirectory place.dropLast

/-- The disk with this tree, for someone in the directory `cwd`. -/
def disk (t : Tree) (cwd : Text) : Disk := ⟨cwd, t.find?⟩

end Tree

end MalForms
