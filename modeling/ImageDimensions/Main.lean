import ImageDimensions.CommandLine.Run

/-!
# Main — the program on the real file system

The operations of `Disk` on real files, and the entry point.
-/

namespace ImageDimensions.RealDisk

/-- The number that the system gives to a refusal, perhaps with its sign changed. -/
def signedNumber : IO.Error → UInt32
  | .alreadyExists _ n _ | .otherError n _ | .resourceBusy n _ | .resourceVanished n _
  | .unsupportedOperation n _ | .hardwareFault n _ | .unsatisfiedConstraints n _
  | .illegalOperation n _ | .protocolError n _ | .timeExpired n _ | .interrupted _ n _
  | .noFileOrDirectory _ n _ | .invalidArgument _ n _ | .permissionDenied _ n _
  | .resourceExhausted _ n _ | .inappropriateType _ n _ | .noSuchThing _ n _ => n
  | .unexpectedEof | .userError _ => 0

def errorNumber (e : IO.Error) : Nat :=
  let n := signedNumber e
  (if n < 0x80000000 then n else -n).toNat

def refusal (e : IO.Error) : IoError :=
  match errorNumber e with
  | 2 => .notFound
  | 13 => .permissionDenied
  | 16 => .resourceBusy
  | 17 => .alreadyExists
  | 20 => .notADirectory
  | 21 => .isADirectory
  | 36 => .invalidFilename
  | 40 => .filesystemLoop
  | _ => .other (toString e)

def attempt {α : Type} (action : IO α) : ExceptT IoError IO α :=
  ExceptT.mk do match ← action.toBaseIO with
    | .ok a => return .ok a
    | .error e => return .error (refusal e)

def right (digit : Nat) : IO.AccessRight where
  read := digit / 4 % 2 = 1
  write := digit / 2 % 2 = 1
  execution := digit % 2 = 1

def rights (mode : Mode) : IO.FileRight where
  user := right (mode / 64 % 8)
  group := right (mode / 8 % 8)
  other := right (mode % 8)

/-- The mode that a file has in a working copy. -/
def usualMode : Mode := 0o644

/-- Real files; a file in the making is known by its name.  A mode cannot be asked for here, so that a
file that is there already is taken to have the usual one. -/
instance : Disk String IO where
  createTemporary directory := attempt do
    let name := directory.text ++ "/.tmp" ++ toString (← IO.rand 0 999999999)
    let _ ← IO.FS.Handle.mk name .writeNew
    IO.setAccessRights name (rights .ownerOnly)
    return name
  fill name contents := attempt (IO.FS.writeBinFile name contents)
  fileMode? p := do
    try
      let metadata ← (← IO.FS.realPath p.text).metadata
      return if metadata.type == .file then some usualMode else none
    catch _ => return none
  setMode name mode := attempt (IO.setAccessRights name (rights mode))
  rename name p := attempt (IO.FS.rename name p.text)
  discard name := do
    try IO.FS.removeFile name catch _ => return
  read p := attempt (IO.FS.readBinFile p.text)

end ImageDimensions.RealDisk

/-- Runs the program with the arguments. -/
def main (arguments : List String) : IO UInt32 := do
  let outcome : ImageDimensions.CommandLine.Outcome ← ImageDimensions.CommandLine.run arguments
  IO.print outcome.stdout
  IO.eprint outcome.stderr
  return outcome.code.toUInt32
