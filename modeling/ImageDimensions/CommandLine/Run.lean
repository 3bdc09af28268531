import ImageDimensions.Artifact.Basic
import ImageDimensions.CommandLine.Text

/-!
# CommandLine/Run — a run of the program

`CommandLine.run` does what the arguments ask for and returns what is to be printed.  A run exits with 0
if it did what was asked, with 1 if that failed or the file is not in sync, and with 2 if the arguments
cannot be read.
-/

namespace ImageDimensions.CommandLine

/-- What a run of the program leaves behind besides files. -/
structure Outcome where
  code : Nat
  stdout : String
  stderr : String
deriving DecidableEq, Repr

namespace Outcome

def success (stdout : String) : Outcome := ⟨0, stdout, ""⟩

/-- The lines of a report that say what caused a failure: numbered if there are several. -/
def causeLines : List String → List String
  | [] => []
  | [cause] => ["    " ++ cause]
  | causes => causes.mapIdx fun i cause => "    " ++ toString i ++ ": " ++ cause

/-- A run that failed for the given reason, with what caused it. -/
def failure (stdout reason : String) (causes : List String) : Outcome where
  code := 1
  stdout := stdout
  stderr := "Error: " ++ reason ++ "\n" ++
    match causeLines causes with
    | [] => ""
    | lines => "\nCaused by:\n" ++ "\n".intercalate lines ++ "\n"

end Outcome

/-- The line that says how much has been generated. -/
def summary (s : Statistics) : String :=
  "✓ Done! " ++ toString s.methods ++ " methods (" ++ toString s.mipLevelMethods
    ++ " taking a mip level) in " ++ toString s.blocks ++ " blocks\n"

/-- The outcome of generating the file. -/
def generateOutcome (result : Except Failure Artifact.Report) : Outcome :=
  let announcement := "Generating " ++ Artifact.fileName ++ "...\n"
  match result with
  | .ok report => .success (announcement ++ summary report.statistics)
  | .error f => .failure announcement ("Failed to generate " ++ Artifact.fileName)
      (f.message :: f.cause?.toList.map IoError.message)

/-- The outcome of checking the file. -/
def checkOutcome (result : Except Failure Artifact.Status) : Outcome :=
  let announcement := "Checking " ++ Artifact.fileName ++ " is in sync...\n"
  match result with
  | .ok .inSync => .success (announcement ++ "✓ " ++ Artifact.fileName ++ " is in sync!\n")
  | .ok .outOfSync => .failure announcement (Artifact.fileName ++ " is out of sync. Run '" ++ program
      ++ " generate' to regenerate.") []
  | .ok .missing => .failure announcement (Artifact.fileName ++ " does not exist. Run '" ++ program
      ++ " generate' to create it.") []
  | .error f => .failure announcement f.message (f.cause?.toList.map IoError.message)

variable {τ : Type} {m : Type → Type} [Monad m] [Disk τ m]

/-- Does what is asked for. -/
def perform : Request → m Outcome
  | .run .generate => return generateOutcome (← (Artifact.write (.ofString Artifact.fileName)).run)
  | .run .check => return checkOutcome (← (Artifact.check (.ofString Artifact.fileName)).run)
  | .help page => return .success page.text
  | .version => return .success versionText
  | .misuse e => return ⟨2, "", e.message ++ "\n"⟩

/-- A run of the program with the arguments. -/
def run (arguments : List String) : m Outcome := perform (.ofArguments arguments)

end ImageDimensions.CommandLine
