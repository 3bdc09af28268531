import ImageDimensions.FileSystem.Operations

/-!
# FileSystem/Construction — file systems built entry by entry

Directories and links are made, and entries removed, where the last name of a path is looked up.  A file
is put where writing to the path ends up: behind every link, even one that leads nowhere yet.
-/

namespace ImageDimensions.FileSystem

/-- The location of the entry that the last name of a path denotes, be it a link or not. -/
def entryLocation (fs : FileSystem) (p : Path) : Except IoError Location :=
  match p.refusal? with
  | some e => .error e
  | none => match fs.lastName p with
    | .error e => .error e
    | .ok (directory, name) =>
      if Path.nameLimit < name.length then .error .invalidFilename
      else .ok (.spelled name :: directory)

/-- Makes an entry where there is none. -/
def make (fs : FileSystem) (p : Path) (e : Entry) : Except IoError FileSystem :=
  match fs.entryLocation p with
  | .error e => .error e
  | .ok l => match fs.get? l with
    | some _ => .error .alreadyExists
    | none => if fs.isWritable l.tail then .ok (fs.set l e) else .error .permissionDenied

def makeDirectory (fs : FileSystem) (p : Path) : Except IoError FileSystem :=
  fs.make p (.directory .directory)

/-- Makes a link.  Its target is not looked up, but must be fit for that. -/
def makeLink (fs : FileSystem) (p target : Path) : Except IoError FileSystem :=
  match target.refusal? with
  | some e => .error e
  | none => if p.endsInSlash then .error .notFound else fs.make p (.link target)

/-- Removes a file or a link. -/
def remove (fs : FileSystem) (p : Path) : Except IoError FileSystem :=
  match fs.entryLocation p with
  | .error e => .error e
  | .ok l => match fs.get? l with
    | none => .error .notFound
    | some entry =>
      if p.endsInSlash then
        .error (if fs.isDirectory l then .isADirectory else .notADirectory)
      else if !fs.isWritable l.tail then .error .permissionDenied
      else match entry with
        | .directory _ => .error .isADirectory
        | .file .. | .link _ => .ok (fs.erase l)

/-- Where writing to a path that is read in the given directory ends up, after at most the given number
of links. -/
def writingLocation (fs : FileSystem) (directory : Location) (p : Path) :
    Nat → Except IoError Location
  | 0 => .error .filesystemLoop
  | links + 1 =>
    match fs.resolve (startOf p directory) (p.named.dropLast ++ [.stay]) linkLimit with
    | .error e => .error e
    | .ok d => match p.named.getLast? with
      | some (.into name) =>
        if Path.nameLimit < name.length then .error .invalidFilename
        else if p.endsInSlash then .error .isADirectory
        else match fs.get? (.spelled name :: d) with
          | some (.link target) => fs.writingLocation d target links
          | some (.directory _) => .error .isADirectory
          | some (.file mode _) =>
            if mode.ownerWrites then .ok (.spelled name :: d) else .error .permissionDenied
          | none => if fs.isWritable d then .ok (.spelled name :: d) else .error .permissionDenied
      | _ => .error .isADirectory

/-- Writes a file of the given mode and contents, in place of one that its owner may write to. -/
def writeFile (fs : FileSystem) (p : Path) (mode : Mode) (contents : ByteArray) :
    Except IoError FileSystem :=
  match p.refusal? with
  | some e => .error e
  | none => (fs.writingLocation fs.workingDirectory p (linkLimit + 1)).map
      (fs.set · (.file mode contents))

end ImageDimensions.FileSystem
