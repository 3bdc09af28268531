import ImageDimensions.FileSystem.Resolution

/-!
# FileSystem/Operations — what can be done with files

Reading and looking at modes follow every link.  Renaming acts on the entry that the last name of a path
denotes in its directory, be it a link or not.
-/

namespace ImageDimensions.FileSystem

/-- The contents of the file that a path leads to, if its owner may read it. -/
def read (fs : FileSystem) (p : Path) : Except IoError ByteArray :=
  match fs.find p with
  | .error e => .error e
  | .ok l => match fs.get? l with
    | none => .error .notFound
    | some entry =>
      if entry.ownerReads then
        match entry with
        | .file _ contents => .ok contents
        | .directory _ | .link _ => .error .isADirectory
      else .error .permissionDenied

/-- The mode of the file that a path leads to, if it leads to a file. -/
def fileMode? (fs : FileSystem) (p : Path) : Option Mode :=
  match fs.find p with
  | .error _ => none
  | .ok l => match fs.get? l with
    | some (.file mode _) => some mode
    | _ => none

/-- The number of bytes that a drawn name adds to the path of its directory. -/
def drawnLength : Nat := 11

/-- The number of bytes of the path of a file with a drawn name.  Such a path starts at the root, so that
the file can be found again from everywhere. -/
def drawnPathLength (fs : FileSystem) (directory : Path) : Nat :=
  (if directory.isAbsolute then 0 else fs.workingDirectory.pathLength + 1)
    + directory.bytes.length + drawnLength

/-- What is in the way from the root to where a path starts. -/
def barrierBefore? (fs : FileSystem) (p : Path) : Option IoError :=
  if p.isAbsolute then none else fs.barrierAbove? fs.workingDirectory

/-- Creates an empty file under a drawn name in the directory that a path leads to, and returns its
location.  The walk there starts at the root, like the path of the file. -/
def createTemporary (fs : FileSystem) (directory : Path) : Except IoError (Location × FileSystem) :=
  if 0 ∈ directory.bytes then .error .invalidInput
  else if Path.lengthLimit < fs.drawnPathLength directory then .error .invalidFilename
  else match fs.barrierBefore? directory with
    | some e => .error e
    | none => match fs.walk directory (directory.named ++ [.stay]) with
      | .error e => .error e
      | .ok d =>
        if fs.isWritable d then
          let l := .drawn fs.unusedSerial :: d
          .ok (l, fs.set l (.file .ownerOnly .empty))
        else .error .permissionDenied

/-- Gives the file at a location new contents. -/
def fill (fs : FileSystem) (l : Location) (contents : ByteArray) : FileSystem :=
  match fs.get? l with
  | some (.file mode _) => fs.set l (.file mode contents)
  | _ => fs

/-- Gives the file at a location a new mode. -/
def setMode (fs : FileSystem) (l : Location) (mode : Mode) : FileSystem :=
  match fs.get? l with
  | some (.file _ contents) => fs.set l (.file mode contents)
  | _ => fs

/-- The directory in which the last name of a path is looked up, and that name.  The root, a dot and two
dots are busy as long as they are in use, which is always. -/
def lastName (fs : FileSystem) (p : Path) : Except IoError (Location × List UInt8) :=
  match p.named.getLast? with
  | none => .error .resourceBusy
  | some last => match fs.walk p (p.named.dropLast ++ [.stay]) with
    | .error e => .error e
    | .ok directory => match last with
      | .into name => .ok (directory, name)
      | .stay | .up | .demand => .error .resourceBusy

/-- The location that a file takes when it is renamed to a path. -/
def renameTarget (fs : FileSystem) (p : Path) : Except IoError Location :=
  match p.refusal? with
  | some e => .error e
  | none => match fs.lastName p with
    | .error e => .error e
    | .ok (directory, name) =>
      if Path.nameLimit < name.length then .error .invalidFilename
      else if p.endsInSlash then .error .notADirectory
      else if !fs.isWritable directory then .error .permissionDenied
      else if fs.isDirectory (.spelled name :: directory) then .error .isADirectory
      else .ok (.spelled name :: directory)

/-- Moves the file at a location to a path, in place of the file or link that is there.  The directory in
which the file is found is one that its owner may write to, as it was when the file was made there. -/
def rename (fs : FileSystem) (l : Location) (p : Path) : Except IoError FileSystem :=
  match fs.renameTarget p with
  | .error e => .error e
  | .ok target => match fs.get? l with
    | some e => .ok ((fs.erase l).set target e)
    | none => .error .notFound

end ImageDimensions.FileSystem
