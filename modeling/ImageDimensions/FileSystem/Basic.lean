import ImageDimensions.FileSystem.Path

/-!
# FileSystem/Basic — a file system as data

A `FileSystem` is a list of entries, each under the location at which it is found, and a working
directory.  A `Location` lists names from the entry up to the root, so that `n :: d` is the entry `n` of
the directory `d`.  The root is always there, and is a directory.

A name is spelled by the bytes of a path, or drawn by the system for a temporary file.  A drawn name is
spelled by no path: what the system draws is in nobody's hands, and collides with nothing.

Whoever uses the file system owns everything in it and has no rights beyond that, so that of a mode only what
it allows the owner counts.  A name is looked up in a directory that may be searched, and is added, replaced
or taken away in one that may be written to as well.
-/

namespace ImageDimensions

/-- The name of an entry in its directory. -/
inductive Name where
  | spelled (bytes : List UInt8)
  | drawn (serial : Nat)
deriving DecidableEq, Repr

/-- The place of an entry: its name, that of its directory, and so on up to the root. -/
abbrev Location := List Name

/-- Who may do what with an entry, as the system's number for it. -/
abbrev Mode := Nat

/-- Contents are compared as core Lean compares them, whatever else is imported. -/
instance (priority := high) decidableEqContents : DecidableEq ByteArray := ByteArray.instDecidableEq

/-- What is found at a location. -/
inductive Entry where
  | file (mode : Mode) (contents : ByteArray)
  | directory (mode : Mode)
  | link (target : Path)
deriving DecidableEq

/-- The entries of a file system, and the directory at which relative paths start. -/
structure FileSystem where
  entries : List (Location × Entry)
  workingDirectory : Location
deriving DecidableEq

/-- The mode of directories. -/
def Mode.directory : Mode := 0o755

/-- The mode of a file that only its owner may read and write. -/
def Mode.ownerOnly : Mode := 0o600

/-- Whether the owner of a file or directory of the mode may read it. -/
def Mode.ownerReads (m : Mode) : Bool := m.testBit 8

/-- Whether the owner of a file or directory of the mode may write to it. -/
def Mode.ownerWrites (m : Mode) : Bool := m.testBit 7

/-- Whether the owner of a directory of the mode may look up names in it. -/
def Mode.ownerSearches (m : Mode) : Bool := m.testBit 6

/-- Whether the owner of an entry may read it. -/
def Entry.ownerReads : Entry → Bool
  | file mode _ => mode.ownerReads
  | directory mode => mode.ownerReads
  | link _ => true

/-- The bytes by which a name is shown and sorted. -/
def Name.bytes : Name → List UInt8
  | .spelled b => b
  | .drawn n => (".tmp" ++ toString n).toUTF8.toList

/-- The number of bytes of the path that leads from the root to a location. -/
def Location.pathLength : Location → Nat
  | [] => 0
  | n :: l => n.bytes.length + 1 + Location.pathLength l

namespace FileSystem

/-- The location at which a new file system is used. -/
def home : Location := ["generation", "tmp"].map fun n => .spelled n.toUTF8.toList

/-- The file system with an empty working directory. -/
def empty : FileSystem where
  entries := [(home, .directory .directory), (home.tail, .directory .directory)]
  workingDirectory := home

/-- What is found at a location, if anything. -/
def get? (fs : FileSystem) : Location → Option Entry
  | [] => some (.directory .directory)
  | l => fs.entries.lookup l

/-- The mode of the directory at the location, if there is one. -/
def directoryMode? (fs : FileSystem) (l : Location) : Option Mode :=
  match fs.get? l with
  | some (.directory mode) => some mode
  | _ => none

/-- Whether there is a directory at the location. -/
def isDirectory (fs : FileSystem) (l : Location) : Bool := (fs.directoryMode? l).isSome

/-- Whether there is a directory at the location in which its owner may look up names. -/
def isOpen (fs : FileSystem) (l : Location) : Bool := (fs.directoryMode? l).any Mode.ownerSearches

/-- Whether there is a directory at the location to which its owner may write. -/
def isWritable (fs : FileSystem) (l : Location) : Bool := (fs.directoryMode? l).any Mode.ownerWrites

/-- Puts an entry in place of the one that a list has at the location, or at the end of the list. -/
def setIn (l : Location) (e : Entry) : List (Location × Entry) → List (Location × Entry)
  | [] => [(l, e)]
  | (k, d) :: rest => if k = l then (l, e) :: rest else (k, d) :: setIn l e rest

/-- Puts an entry at a location, in place of what was there. -/
def set (fs : FileSystem) (l : Location) (e : Entry) : FileSystem :=
  { fs with entries := setIn l e fs.entries }

/-- Removes what is found at a location. -/
def erase (fs : FileSystem) (l : Location) : FileSystem :=
  { fs with entries := fs.entries.filter (·.1 ≠ l) }

/-- A serial above that of the entry at a location, if its name is drawn. -/
def serialBound : Location → Nat
  | .drawn n :: _ => n + 1
  | _ => 0

/-- A serial above that of every drawn name. -/
def unusedSerial (fs : FileSystem) : Nat :=
  fs.entries.foldr (fun p bound => max (serialBound p.1) bound) 0

end FileSystem

end ImageDimensions
