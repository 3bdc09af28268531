import ImageDimensions.FileSystem.IoError
import ImageDimensions.Text.Utf8

/-!
# FileSystem/Path — how a place in a file system is spelled

A `Path` is any sequence of bytes.  The system reads it as `Step`s: the pieces between slashes, of which
empty ones count for nothing, and a demand for a directory if there is a slash at the end.

`Path.directory` names the directory of a path by its spelling alone, without a look at the file system:
it forgets trailing slashes and single dots before it drops the last piece.
-/

namespace ImageDimensions

/-- A path as it is written. -/
structure Path where
  bytes : List UInt8
deriving DecidableEq, Repr

/-- One step on the way along a path. -/
inductive Step where
  /-- A single dot. -/
  | stay
  /-- Two dots. -/
  | up
  /-- Any other piece. -/
  | into (name : List UInt8)
  /-- A slash at the end: there must be a directory, but nothing is looked up in it. -/
  | demand
deriving DecidableEq, Repr

/-- The byte of a dot. -/
def dot : UInt8 := 46

/-- The byte between the pieces of a path. -/
def slash : UInt8 := 47

/-- The step that a piece between slashes stands for, if it is not empty. -/
def Step.ofPiece? (piece : List UInt8) : Option Step :=
  if piece = [] then none
  else if piece = [dot] then some .stay
  else if piece = [dot, dot] then some .up
  else some (.into piece)

namespace Path

def ofString (s : String) : Path := ⟨s.toUTF8.toList⟩

/-- The path as it is shown in messages. -/
def text (p : Path) : String := Utf8.decodeLossy p.bytes

/-- Whether the path starts at the root. -/
def isAbsolute (p : Path) : Bool := p.bytes.head? = some slash

def endsInSlash (p : Path) : Bool := p.bytes.getLast? = some slash

/-- The parts between slashes. -/
def pieces (p : Path) : List (List UInt8) := p.bytes.splitOn slash

/-- The steps that the path names, without what a slash at its end demands. -/
def named (p : Path) : List Step := p.pieces.filterMap Step.ofPiece?

/-- The steps of the path. -/
def steps (p : Path) : List Step := p.named ++ if p.endsInSlash then [.demand] else []

/-- The number of bytes that the name of an entry may have. -/
def nameLimit : Nat := 255

/-- The number of bytes that a path may have. -/
def lengthLimit : Nat := 4095

/-- Why a path is refused before any of its steps is taken. -/
def refusal? (p : Path) : Option IoError :=
  if 0 ∈ p.bytes then some .invalidInput
  else if p.bytes = [] then some .notFound
  else if lengthLimit < p.bytes.length then some .invalidFilename
  else none

/-- Drops pieces from the end that do not matter there: empty ones and single dots. -/
def dropBlank (backwards : List (List UInt8)) : List (List UInt8) :=
  backwards.dropWhile fun piece => piece = [] ∨ piece = [dot]

/-- The directory of the path by its spelling: the path without its last piece that matters, and the
working directory if no piece remains.  A dot at the beginning of a path matters. -/
def directory (p : Path) : Path :=
  match p.pieces with
  | [] => ⟨[dot]⟩
  | start :: rest =>
    match dropBlank rest.reverse with
    | [] => ⟨[dot]⟩
    | _ :: before =>
      match start :: (dropBlank before).reverse with
      | [[]] => ⟨[slash]⟩
      | kept => ⟨[slash].intercalate kept⟩

end Path

end ImageDimensions
