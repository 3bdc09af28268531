import ImageDimensions.FileSystem.Basic

/-!
# Disk — what writing and checking a file ask of the system

`Disk` collects the operations on files that the library uses.  They act in any monad: in
`StateM FileSystem` on a file system as data (`FileSystem/Disk`), and at the command line on real files.
-/

namespace ImageDimensions

/-- The operations on files, for files in the making that are known by a `τ`. -/
class Disk (τ : outParam Type) (m : Type → Type) where
  /-- Creates an empty file for its owner only, under an unused name in the directory. -/
  createTemporary : Path → ExceptT IoError m τ
  /-- Writes the contents of a file in the making. -/
  fill : τ → ByteArray → ExceptT IoError m Unit
  /-- The mode of the file that the path leads to, if it leads to a file. -/
  fileMode? : Path → m (Option Mode)
  /-- Gives a file in the making another mode. -/
  setMode : τ → Mode → ExceptT IoError m Unit
  /-- Moves a file in the making to the path, in place of what is there. -/
  rename : τ → Path → ExceptT IoError m Unit
  /-- Removes a file in the making. -/
  discard : τ → m Unit
  /-- The contents of the file that the path leads to. -/
  read : Path → ExceptT IoError m ByteArray

end ImageDimensions
