import ImageDimensions.FileSystem.Disk

/-!
# Proofs/FileSystem/Refusals — a disk that may refuse each operation

A disk may be full, or be taken away, in the middle of an action.  `Refusals` says which operations are
refused beyond what the file system itself rules out.  A refusal comes before the operation has changed
anything, but for one: a file may have been written in part.  And one refusal does not end the action: a mode
that cannot be looked at counts as none.

`under` runs an action on such a disk as one on a file system as data.  It respects how actions are put
together, so that an action can be opened step by step.
-/

namespace ImageDimensions

/-- Which operations a disk refuses, and why. -/
structure Refusals where
  create : Option IoError
  /-- What has been written by then, be it a part or all, and why the file is not complete. -/
  fill : Option (ByteArray × IoError)
  /-- Why the mode of what is there cannot be looked at. -/
  fileMode : Option IoError
  setMode : Option IoError
  rename : Option IoError
  read : Option IoError
deriving DecidableEq

namespace Refusals

open FileSystem

/-- Nothing is refused but what the file system itself rules out and, it may be, a look at a mode. -/
def ofLook (refused : Option IoError) : Refusals where
  create := .none
  fill := .none
  fileMode := refused
  setMode := .none
  rename := .none
  read := .none

/-- Nothing is refused but what the file system itself rules out. -/
def none : Refusals := ofLook .none

variable {ε α β : Type}

/-- An action, or the refusal that takes its place. -/
def instead (refusal? : Option IoError) (x : ExceptT IoError (StateM FileSystem) α) :
    ExceptT IoError (StateM FileSystem) α :=
  match refusal? with
  | some e => throw e
  | .none => x

/-- Writing to a file, all of it or a part. -/
def fillInstead (refusal? : Option (ByteArray × IoError)) (l : Location) (contents : ByteArray) :
    ExceptT IoError (StateM FileSystem) Unit :=
  match refusal? with
  | some (written, e) => do
    Disk.fill l written
    throw e
  | .none => Disk.fill l contents

/-- Looking at a mode, or going without. -/
def lookInstead (refusal? : Option IoError) (p : Path) : StateM FileSystem (Option Mode) :=
  match refusal? with
  | some _ => return .none
  | .none => Disk.fileMode? p

instance : Disk Location (ReaderT Refusals (StateM FileSystem)) where
  createTemporary directory := ExceptT.mk fun r => (instead r.create (Disk.createTemporary directory)).run
  fill l contents := ExceptT.mk fun r => (fillInstead r.fill l contents).run
  fileMode? p := fun r => lookInstead r.fileMode p
  setMode l mode := ExceptT.mk fun r => (instead r.setMode (Disk.setMode l mode)).run
  rename l p := ExceptT.mk fun r => (instead r.rename (Disk.rename l p)).run
  discard l := fun _ => Disk.discard l
  read p := ExceptT.mk fun r => (instead r.read (Disk.read p)).run

/-- An action on a disk with the refusals. -/
def under (r : Refusals) (x : ExceptT ε (ReaderT Refusals (StateM FileSystem)) α) :
    ExceptT ε (StateM FileSystem) α :=
  ExceptT.mk (x.run.run r)

/-! ## Running single operations -/

theorem run_instead (fs : FileSystem) (refusal? : Option IoError)
    (x : ExceptT IoError (StateM FileSystem) α) :
    (instead refusal? x).run.run fs = match refusal? with
      | some e => (.error e, fs)
      | .none => x.run.run fs := by
  cases refusal? <;> rfl

theorem run_fillInstead (fs : FileSystem) (refusal? : Option (ByteArray × IoError)) (l : Location)
    (contents : ByteArray) :
    (fillInstead refusal? l contents).run.run fs = match refusal? with
      | some (written, e) => (.error e, fs.fill l written)
      | .none => (.ok (), fs.fill l contents) := by
  cases refusal? with
  | none => exact run_fill fs l contents
  | some refused =>
    obtain ⟨written, e⟩ := refused
    rw [fillInstead, run_bind, run_fill]
    rfl

theorem run_lookInstead (fs : FileSystem) (refusal? : Option IoError) (p : Path) :
    (ExceptT.lift (lookInstead refusal? p) : ExceptT IoError _ _).run.run fs =
      (.ok (if refusal?.isSome then .none else fs.fileMode? p), fs) := by
  cases refusal? with
  | none => exact run_fileMode? fs p
  | some e => rfl

/-- What reading a path gives, where it may be refused. -/
def readOf (r : Refusals) (fs : FileSystem) (p : Path) : Except IoError ByteArray :=
  match r.read with
  | some e => .error e
  | .none => fs.read p

theorem readOf_eq_ok_iff {r : Refusals} {fs : FileSystem} {p : Path} {contents : ByteArray} :
    r.readOf fs p = .ok contents ↔ r.read = .none ∧ fs.read p = .ok contents := by
  unfold readOf
  cases r.read <;> simp

theorem run_instead_read (fs : FileSystem) (r : Refusals) (p : Path) :
    (instead r.read (Disk.read p)).run.run fs = (r.readOf fs p, fs) := by
  rw [run_instead, run_read, readOf]
  cases r.read <;> rfl

/-! ## Putting actions together -/

section Actions

variable (r : Refusals)

theorem run_under (x : ExceptT ε (ReaderT Refusals (StateM FileSystem)) α) :
    (r.under x).run = x.run.run r := rfl

theorem under_bind (x : ExceptT ε (ReaderT Refusals (StateM FileSystem)) α)
    (f : α → ExceptT ε (ReaderT Refusals (StateM FileSystem)) β) :
    r.under (x >>= f) = r.under x >>= fun a => r.under (f a) := by
  refine ExceptT.ext ?_
  rw [ExceptT.run_bind, run_under, run_under, ExceptT.run_bind, ReaderT.run_bind]
  refine bind_congr fun result => ?_
  cases result <;> rfl

theorem under_tryCatch (x : ExceptT ε (ReaderT Refusals (StateM FileSystem)) α)
    (f : ε → ExceptT ε (ReaderT Refusals (StateM FileSystem)) α) :
    r.under (tryCatch x f) = tryCatch (r.under x) fun e => r.under (f e) := by
  refine ExceptT.ext ?_
  simp only [run_under, tryCatch, tryCatchThe, MonadExceptOf.tryCatch, ExceptT.tryCatch, ExceptT.run_mk]
  rw [ReaderT.run_bind]
  refine bind_congr fun result => ?_
  cases result <;> rfl

theorem under_adapt {ε' : Type} (x : ExceptT ε (ReaderT Refusals (StateM FileSystem)) α) (f : ε → ε') :
    r.under (x.adapt f) = (r.under x).adapt f := rfl

end Actions

/-! ## The operations -/

section Operations

variable (r : Refusals) (p : Path) (l : Location)

theorem under_createTemporary :
    r.under (Disk.createTemporary p) = instead r.create (Disk.createTemporary p) := rfl

theorem under_fill (contents : ByteArray) :
    r.under (Disk.fill l contents) = fillInstead r.fill l contents := rfl

theorem under_fileMode? :
    r.under (ExceptT.lift (Disk.fileMode? p) : ExceptT IoError _ _) =
      ExceptT.lift (lookInstead r.fileMode p) := rfl

theorem under_setMode (mode : Mode) :
    r.under (Disk.setMode l mode) = instead r.setMode (Disk.setMode l mode) := rfl

theorem under_rename : r.under (Disk.rename l p) = instead r.rename (Disk.rename l p) := rfl

theorem under_discard :
    r.under (ExceptT.lift (Disk.discard l) : ExceptT IoError _ _) = ExceptT.lift (Disk.discard l) := rfl

end Operations

end Refusals

end ImageDimensions
