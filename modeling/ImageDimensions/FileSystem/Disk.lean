import ImageDimensions.Disk
import ImageDimensions.FileSystem.Operations

/-!
# FileSystem/Disk — a file system as data is a disk

Files in the making are known by their location.  An action is run on a file system, and gives its result
and the file system that it leaves; `run_bind` and `run_tryCatch` say how actions are put together, and a
lemma for each operation says what it does.
-/

namespace ImageDimensions.FileSystem

/-- An operation that changes nothing when it is refused. -/
def attempt {α : Type} (f : FileSystem → Except IoError (α × FileSystem)) :
    ExceptT IoError (StateM FileSystem) α :=
  ExceptT.mk <| modifyGet fun fs => match f fs with
    | .ok (a, fs') => (.ok a, fs')
    | .error e => (.error e, fs)

instance : Disk Location (StateM FileSystem) where
  createTemporary directory := attempt (·.createTemporary directory)
  fill l contents := modify (·.fill l contents)
  fileMode? p := return (← get).fileMode? p
  setMode l mode := modify (·.setMode l mode)
  rename l p := attempt fun fs => (fs.rename l p).map ((), ·)
  discard l := modify (·.erase l)
  read p := ExceptT.mk do return (← get).read p

/-! ## Running actions -/

section Run

variable {ε α β : Type} (fs : FileSystem)

theorem run_bind (x : ExceptT ε (StateM FileSystem) α) (f : α → ExceptT ε (StateM FileSystem) β) :
    (x >>= f).run.run fs = match x.run.run fs with
      | (.ok a, fs') => (f a).run.run fs'
      | (.error e, fs') => (.error e, fs') := by
  simp only [ExceptT.run_bind, StateT.run_bind]
  change (match x.run.run fs with | (a, fs') => _) = _
  rcases x.run.run fs with ⟨_ | _, _⟩ <;> rfl

theorem run_tryCatch (x : ExceptT ε (StateM FileSystem) α)
    (f : ε → ExceptT ε (StateM FileSystem) α) :
    (tryCatch x f : ExceptT ε (StateM FileSystem) α).run.run fs = match x.run.run fs with
      | (.ok a, fs') => (.ok a, fs')
      | (.error e, fs') => (f e).run.run fs' := by
  cases h : x.run.run fs with
  | mk result fs' =>
    have h' : StateT.run x fs = (result, fs') := h
    simp only [tryCatch, tryCatchThe, MonadExceptOf.tryCatch, ExceptT.tryCatch, ExceptT.run_mk]
    rw [StateT.run_bind, h']
    cases result <;> rfl

theorem run_adapt {ε' : Type} (x : ExceptT ε (StateM FileSystem) α) (f : ε → ε') :
    (x.adapt f).run.run fs = ((x.run.run fs).1.mapError f, (x.run.run fs).2) := rfl

theorem run_attempt (f : FileSystem → Except IoError (α × FileSystem)) :
    (attempt f).run.run fs = match f fs with
      | .ok (a, fs') => (.ok a, fs')
      | .error e => (.error e, fs) := rfl

end Run

/-! ## The operations -/

section Operations

variable (fs : FileSystem) (p : Path) (l : Location)

theorem run_createTemporary :
    (Disk.createTemporary p : ExceptT IoError (StateM FileSystem) Location).run.run fs =
      match fs.createTemporary p with
      | .ok (l, fs') => (.ok l, fs')
      | .error e => (.error e, fs) := by
  change (attempt (·.createTemporary p)).run.run fs = _
  rw [run_attempt]
  cases fs.createTemporary p <;> rfl

theorem run_fill (contents : ByteArray) :
    (Disk.fill l contents : ExceptT IoError (StateM FileSystem) Unit).run.run fs =
      (.ok (), fs.fill l contents) := rfl

theorem run_fileMode? :
    (ExceptT.lift (Disk.fileMode? p) : ExceptT IoError (StateM FileSystem) (Option Mode)).run.run fs =
      (.ok (fs.fileMode? p), fs) := rfl

theorem run_setMode (mode : Mode) :
    (Disk.setMode l mode : ExceptT IoError (StateM FileSystem) Unit).run.run fs =
      (.ok (), fs.setMode l mode) := rfl

theorem run_rename :
    (Disk.rename l p : ExceptT IoError (StateM FileSystem) Unit).run.run fs =
      match fs.rename l p with
      | .ok fs' => (.ok (), fs')
      | .error e => (.error e, fs) := by
  cases h : fs.rename l p <;> simp [Disk.rename, run_attempt, h, Except.map]

theorem run_discard :
    (ExceptT.lift (Disk.discard l) : ExceptT IoError (StateM FileSystem) Unit).run.run fs =
      (.ok (), fs.erase l) := rfl

theorem run_read :
    (Disk.read p : ExceptT IoError (StateM FileSystem) ByteArray).run.run fs = (fs.read p, fs) := rfl

end Operations

end ImageDimensions.FileSystem
