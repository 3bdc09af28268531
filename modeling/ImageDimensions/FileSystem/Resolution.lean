import ImageDimensions.FileSystem.Basic

/-!
# FileSystem/Resolution — from a path to a location

A walk takes the steps of a path one by one.  Each needs a directory to start from, and what looks something
up there needs one that may be searched.  A link met on the way puts the steps of its target before those that
are left.

`FileSystem.advance` walks to the next link, by recursion on the steps.  `FileSystem.resolve` goes on
from there, by recursion on the number of links that may still be followed.
-/

namespace ImageDimensions.FileSystem

/-- Where a walk comes to a halt. -/
inductive Halt where
  /-- All steps have been taken. -/
  | arrived (l : Location)
  /-- A directory holds a link of the name to be looked up next, and some steps are left. -/
  | link (directory : Location) (target : Path) (left : List Step)
  | failed (e : IoError)
deriving DecidableEq

/-- Why a step cannot be taken from a location, whatever is found there.  A single dot and two dots are
looked up as names are. -/
def barrier? (fs : FileSystem) (l : Location) (step : Step) : Option IoError :=
  if fs.isDirectory l then
    if step = .demand ∨ fs.isOpen l then none else some .permissionDenied
  else some .notADirectory

/-- Walks from a location until the steps are used up, a link is met or a step is impossible. -/
def advance (fs : FileSystem) (l : Location) : List Step → Halt
  | [] => .arrived l
  | step :: left =>
    match fs.barrier? l step with
    | some e => .failed e
    | none => match step with
      | .stay | .demand => fs.advance l left
      | .up => fs.advance l.tail left
      | .into name =>
        if Path.nameLimit < name.length then .failed .invalidFilename
        else match fs.get? (.spelled name :: l) with
          | none => .failed .notFound
          | some (.link target) => .link l target left
          | some _ => fs.advance (.spelled name :: l) left

/-- The location at which a path starts when it is read in the given directory. -/
def startOf (p : Path) (directory : Location) : Location := if p.isAbsolute then [] else directory

/-- Walks from a location along all steps, following at most the given number of links. -/
def resolve (fs : FileSystem) (l : Location) (steps : List Step) (links : Nat) :
    Except IoError Location :=
  match fs.advance l steps, links with
  | .arrived l, _ => .ok l
  | .failed e, _ => .error e
  | .link .., 0 => .error .filesystemLoop
  | .link directory target left, links + 1 =>
    fs.resolve (startOf target directory) (target.steps ++ left) links

/-- How many links are followed on one walk. -/
def linkLimit : Nat := 40

/-- Walks from where the path starts along the steps. -/
def walk (fs : FileSystem) (p : Path) (steps : List Step) : Except IoError Location :=
  fs.resolve (startOf p fs.workingDirectory) steps linkLimit

/-- The location that a path leads to when every link is followed. -/
def find (fs : FileSystem) (p : Path) : Except IoError Location :=
  match p.refusal? with
  | some e => .error e
  | none => fs.walk p p.steps

/-- What is in the way from the root to a location, if anything: names are looked up in each directory above
it. -/
def barrierAbove? (fs : FileSystem) : Location → Option IoError
  | [] => none
  | n :: directory => (fs.barrierAbove? directory).or (fs.barrier? directory (.into n.bytes))

end ImageDimensions.FileSystem
