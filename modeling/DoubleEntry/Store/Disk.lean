import DoubleEntry.Text.Split

/-!
# Directories and files

As much of a file system as opening a database depends on: which directories there are, and which
places are taken by files that are no databases. A path leads to a place, a double dot one directory
back. A directory can be made unless such a file is in the way.
-/

namespace DoubleEntry

/-- A path, taken apart at its slashes. -/
structure DiskPath where
  isAbsolute : Bool
  names : List String
  deriving DecidableEq

namespace DiskPath

/-- Whether a part leads on. Empty parts and single dots do not. -/
def isStep (part : String) : Bool := part != "" && part != "."

/-- The path that is written as some parts: those that lead on, and a dot in front. -/
def ofParts (parts : List String) : DiskPath :=
  let isAbsolute := parts.length > 1 && parts.head? == some ""
  let leadingDot := if parts.head? == some "." then ["."] else []
  ⟨isAbsolute, leadingDot ++ parts.filter isStep⟩

/-- Takes a path apart. -/
def ofText (s : String) : DiskPath := ofParts ((Text.split '/' s.toList).map String.ofList)

/-- The directory of a path. A path without names has none. -/
def parent? (p : DiskPath) : Option DiskPath :=
  if p.names.isEmpty then none else some { p with names := p.names.dropLast }

/-- The working directory, to which the empty path leads. -/
def working : DiskPath := ⟨false, []⟩

/-- Whether a path is empty. -/
def isEmpty (p : DiskPath) : Bool := !p.isAbsolute && p.names.isEmpty

/-- Whether there is a NUL in a path, which no file system takes. -/
def hasNul (p : DiskPath) : Bool := p.names.any fun name => name.toList.contains '\x00'

/-- Goes on to the next name of a path. A double dot goes back, but not beyond the root. -/
def enter (isAbsolute : Bool) (place : List String) (name : String) : List String :=
  if name = "." then place
  else if name ≠ ".." then place ++ [name]
  else if place.isEmpty && isAbsolute then place
  else if place.isEmpty || place.getLast? == some ".." then place ++ [".."]
  else place.dropLast

/-- The place to which a path leads. -/
def place (p : DiskPath) : DiskPath := { p with names := p.names.foldl (enter p.isAbsolute) [] }

/-- All directories on the way to a path, and the path. -/
def ways (p : DiskPath) : List DiskPath :=
  (List.range (p.names.length + 1)).map fun n => { p with names := p.names.take n }

end DiskPath

/-- The places of the directories and files that there are. The root, the working directory and those
in which that one is are always there. -/
structure Disk where
  directories : List DiskPath
  /-- Files that are no databases. -/
  files : List DiskPath
  deriving DecidableEq

namespace Disk

/-- Whether a place is a directory. -/
def hasDirectory (d : Disk) (place : DiskPath) : Bool :=
  (place.names.all fun name => name == "..") || d.directories.contains place

/-- Makes a directory and those on the way to it. -/
def makeDirectory? (p : DiskPath) (d : Disk) : Option Disk :=
  let places := p.ways.map DiskPath.place
  if p.hasNul || places.any d.files.contains then none
  else some { d with directories := d.directories ++ places }

/-- Whether a database can be opened or made where a path leads: the directory is there, and nothing
else is. -/
def canOpen (d : Disk) (p : DiskPath) : Bool :=
  match p.place.parent? with
  | none => false
  | some parent => d.hasDirectory parent && !d.hasDirectory p.place && !d.files.contains p.place

end Disk

end DoubleEntry
