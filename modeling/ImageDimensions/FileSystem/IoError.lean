/-!
# FileSystem/IoError — why the system refuses an operation
-/

namespace ImageDimensions

/-- Why the system refuses an operation on a file. -/
inductive IoError where
  | notFound
  | permissionDenied
  | resourceBusy
  | alreadyExists
  | notADirectory
  | isADirectory
  | invalidFilename
  | filesystemLoop
  /-- A path that holds a zero byte never reaches the system. -/
  | invalidInput
  /-- Any other refusal, in the system's own words. -/
  | other (text : String)
deriving DecidableEq, Repr

/-- The text of a refusal by the system, with its number. -/
def IoError.text (description : String) (number : Nat) : String :=
  description ++ " (os error " ++ toString number ++ ")"

/-- The message about a refusal. -/
def IoError.message : IoError → String
  | notFound => text "No such file or directory" 2
  | permissionDenied => text "Permission denied" 13
  | resourceBusy => text "Device or resource busy" 16
  | alreadyExists => text "File exists" 17
  | notADirectory => text "Not a directory" 20
  | isADirectory => text "Is a directory" 21
  | invalidFilename => text "File name too long" 36
  | filesystemLoop => text "Too many levels of symbolic links" 40
  | invalidInput => "file name contained an unexpected NUL byte"
  | other s => s

end ImageDimensions
