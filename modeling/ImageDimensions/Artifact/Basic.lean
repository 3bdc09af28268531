import ImageDimensions.Disk
import ImageDimensions.Failure
import ImageDimensions.Generator

/-!
# Artifact/Basic — the generated file

`Artifact.write` puts the generated code into a file, and `Artifact.check` says whether a file still holds
it.  A file is replaced in one step: the new contents are written to a temporary file beside it, which is
then renamed, so that nobody ever sees a part of them, and a failure leaves everything as it was.
-/

namespace ImageDimensions.Artifact

/-- The name of the generated file in the working directory. -/
def fileName : String := "gen_get_dimensions.slang"

/-- The generated code for the image types of the shader library. -/
def source : String := Generator.standard.render.text

/-- How a file compares with the generated code. -/
inductive Status where
  | inSync
  | outOfSync
  | missing
deriving DecidableEq, Repr

/-- What is known after the file has been written. -/
structure Report where
  statistics : Statistics
  /-- What was logged. -/
  events : List Event
deriving DecidableEq, Repr

/-- What is known after the generated code has been written to the path. -/
def Report.onWriting (path : Path) : Report where
  statistics := Generator.standard.statistics
  events := Generator.standard.events ++ [.wroteSource path.text Generator.standard.statistics]

variable {τ : Type} {m : Type → Type} [Monad m] [Disk τ m]

/-- Fills a temporary file and moves it to the path.  If the path leads to a file, the new one takes
over its mode. -/
def install (t : τ) (path : Path) (contents : ByteArray) : ExceptT IoError m Unit := do
  Disk.fill t contents
  if let some mode ← ExceptT.lift (Disk.fileMode? path) then
    Disk.setMode t mode
  Disk.rename t path

/-- Replaces the file at the path in one step.  When that fails the temporary file is removed. -/
def replaceFile (path : Path) (contents : ByteArray) : ExceptT IoError m Unit := do
  let t ← Disk.createTemporary path.directory
  tryCatch (install t path contents) fun e => do
    ExceptT.lift (Disk.discard t)
    throw e

/-- Replaces the file at the path by one that holds the text. -/
def replace (path : Path) (text : String) : ExceptT Failure m Unit :=
  (replaceFile path text.toUTF8).adapt (.write path)

/-- Writes the generated code to the path. -/
def write (path : Path) : ExceptT Failure m Report := do
  replace path source
  return .onWriting path

/-- The verdict on the outcome of reading a path: a file that does not exist is missing, and any other
refusal is a failure. -/
def verdict (path : Path) : Except IoError ByteArray → Except Failure Status
  | .ok contents => .ok (if contents = source.toUTF8 then .inSync else .outOfSync)
  | .error .notFound => .ok .missing
  | .error e => .error (.read path e)

/-- Compares the file at the path with the generated code. -/
def check (path : Path) : ExceptT Failure m Status :=
  ExceptT.mk do return verdict path (← (Disk.read path).run)

end ImageDimensions.Artifact
