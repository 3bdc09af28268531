import ImageDimensions.FileSystem.Path
import ImageDimensions.Tables.Fault

/-!
# Failure — why generating or checking fails
-/

namespace ImageDimensions

/-- Why something was not generated or not checked. -/
inductive Failure where
  | inconsistent (f : Fault)
  | write (path : Path) (cause : IoError)
  | read (path : Path) (cause : IoError)
deriving DecidableEq, Repr

namespace Failure

/-- The message about tables that are unfit for generation. -/
def inconsistencyMessage (detail : String) : String := "inconsistent domain tables: " ++ detail

/-- The message about a failure.  A path is shown as it was given. -/
def message : Failure → String
  | inconsistent f => inconsistencyMessage f.message
  | write p _ => "failed to write " ++ p.text
  | read p _ => "failed to read " ++ p.text

/-- Why the system refused, if it is the system that did. -/
def cause? : Failure → Option IoError
  | inconsistent _ => none
  | write _ e | read _ e => some e

end Failure

end ImageDimensions
