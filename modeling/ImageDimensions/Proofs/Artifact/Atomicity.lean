import ImageDimensions.Artifact.Basic
import ImageDimensions.Proofs.FileSystem.Refusals
import ImageDimensions.Proofs.FileSystem.Replacement

/-!
# Proofs/Artifact/Atomicity — a file is replaced, or everything stays as it was

From the moment at which the temporary file is made until it is renamed, it is the only difference to the
file system from before (`FileSystem.Draft`).  Whichever operation fails in between, removing it undoes
everything.

So an action at a path has two outcomes, which the `_cases` lemmas set side by side: it makes of the file system
what `FileSystem.replacement` says, or it fails and leaves everything as it was.
-/

namespace ImageDimensions.Artifact

open FileSystem

variable {fs fs' : FileSystem} {l : Location} {path : Path} {contents : ByteArray} {mode : Mode}

/-! ## From the temporary file to the renamed one

On a disk that refuses nothing but looks at modes, an action fails only where the file system itself rules it
out. -/

/-- Renaming a draft puts it at the target, or it is still a draft. -/
theorem run_under_rename_cases (r : Refusals) (h : Draft fs l (fs.set l (.file mode contents))) :
    (∃ target, fs.renameTarget path = .ok target ∧
      (r.under (Disk.rename l path)).run.run (fs.set l (.file mode contents)) =
        (.ok (), fs.set target (.file mode contents))) ∨
    ∃ e fs', (r.under (Disk.rename l path)).run.run (fs.set l (.file mode contents)) = (.error e, fs') ∧
      Draft fs l fs' ∧ (r = .ofLook r.fileMode → fs.renameTarget path = .error e) := by
  rw [Refusals.under_rename, Refusals.run_instead]
  cases hrename : r.rename with
  | some e =>
    refine .inr ⟨e, _, rfl, h, fun hr => ?_⟩
    rw [hr] at hrename
    cases hrename
  | none =>
    simp only [run_rename, h.rename_eq (get?_set_self h.ne_nil)]
    cases htarget : fs.renameTarget path with
    | ok target => exact .inl ⟨target, rfl, rfl⟩
    | error e => exact .inr ⟨e, _, rfl, h, fun _ => rfl⟩

/-- The mode that a temporary file is given, if it is given one. -/
theorem getD_look_eq {directory : Path} (h : fs.createTemporary directory = .ok (l, fs'))
    (path : Path) (contents : ByteArray) (refused : Option IoError) :
    (if refused.isSome then none else (fs.set l (.file .ownerOnly contents)).fileMode? path).getD .ownerOnly =
      fs.handedOn path refused := by
  have hdraft := draft_of_createTemporary h
  cases refused with
  | some e => rfl
  | none => exact Draft.getD_fileMode?_eq ⟨hdraft.drawn, hdraft.notMem, _, _, rfl⟩ rfl path

/-- A temporary file is put in place of what is at the path, with the mode that the path hands on, or it is
still a draft. -/
theorem run_under_install_cases (r : Refusals) (contents : ByteArray)
    (h : fs.createTemporary path.directory = .ok (l, fs')) :
    (∃ target, fs.renameTarget path = .ok target ∧ (r.under (install l path contents)).run.run fs' =
        (.ok (), fs.set target (.file (fs.handedOn path r.fileMode) contents))) ∨
    ∃ e fs'', (r.under (install l path contents)).run.run fs' = (.error e, fs'') ∧
      Draft fs l fs'' ∧ (r = .ofLook r.fileMode → fs.renameTarget path = .error e) := by
  have hmade := draft_of_createTemporary h
  have hdraft (mode contents) : Draft fs l (fs.set l (.file mode contents)) :=
    ⟨hmade.drawn, hmade.notMem, mode, contents, rfl⟩
  obtain ⟨-, rfl⟩ := eq_of_createTemporary h
  simp only [install, Refusals.under_bind, run_bind, Refusals.under_fill, Refusals.run_fillInstead]
  cases hfill : r.fill with
  | some refused =>
    obtain ⟨written, e⟩ := refused
    refine .inr ⟨e, _, rfl, hmade.fill written, fun hr => ?_⟩
    rw [hr] at hfill
    cases hfill
  | none =>
    simp only [fill_set hmade.ne_nil, Refusals.under_fileMode?, Refusals.run_lookInstead]
    have hmode := getD_look_eq h path contents r.fileMode
    generalize (if r.fileMode.isSome then none else _ : Option Mode) = look at hmode
    cases look with
    | none =>
      rw [← hmode]
      exact run_under_rename_cases r (hdraft ..)
    | some mode =>
      rw [Option.getD_some] at hmode
      simp only [Refusals.under_bind, run_bind, Refusals.under_setMode, Refusals.run_instead,
        run_setMode]
      cases hset : r.setMode with
      | some e =>
        refine .inr ⟨e, _, rfl, hdraft .., fun hr => ?_⟩
        rw [hr] at hset
        cases hset
      | none =>
        simp only [setMode_set hmade.ne_nil, hmode]
        exact run_under_rename_cases r (hdraft ..)

/-- A file is replaced, or nothing has changed. -/
theorem run_under_replaceFile_cases (r : Refusals) (fs : FileSystem) (path : Path) (contents : ByteArray) :
    (∃ fs', fs.replacement path r.fileMode contents = .ok fs' ∧
      (r.under (replaceFile path contents)).run.run fs = (.ok (), fs')) ∨
    ∃ e, (r.under (replaceFile path contents)).run.run fs = (.error e, fs) ∧
      (r = .ofLook r.fileMode → fs.replacement path r.fileMode contents = .error e) := by
  simp only [replaceFile, Refusals.under_bind, run_bind, Refusals.under_createTemporary,
    Refusals.run_instead]
  cases hcreate : r.create with
  | some e =>
    refine .inr ⟨e, rfl, fun hr => ?_⟩
    rw [hr] at hcreate
    cases hcreate
  | none =>
    simp only [run_createTemporary, replacement]
    cases h : fs.createTemporary path.directory with
    | error e => exact .inr ⟨e, rfl, fun _ => rfl⟩
    | ok made =>
      obtain ⟨l, fs₁⟩ := made
      simp only [Refusals.under_tryCatch, run_tryCatch]
      obtain ⟨target, htarget, hok⟩ | ⟨e, fs₂, herror, hdraft, hexact⟩ :=
        run_under_install_cases r contents h
      · left
        rw [hok, htarget]
        exact ⟨_, rfl, rfl⟩
      · right
        rw [herror]
        simp only [Refusals.under_bind, run_bind, Refusals.under_discard, run_discard, hdraft.erase_eq]
        refine ⟨e, rfl, fun hr => ?_⟩
        rw [hexact hr]

/-! ## Failures -/

/-- A file is replaced by the text, or the error tells the path and nothing has changed. -/
theorem run_under_replace_cases (r : Refusals) (fs : FileSystem) (path : Path) (text : String) :
    (∃ fs', fs.replacement path r.fileMode text.toUTF8 = .ok fs' ∧
      (r.under (replace path text)).run.run fs = (.ok (), fs')) ∨
    ∃ e, (r.under (replace path text)).run.run fs = (.error (.write path e), fs) ∧
      (r = .ofLook r.fileMode → fs.replacement path r.fileMode text.toUTF8 = .error e) := by
  simp only [replace, Refusals.under_adapt, run_adapt]
  obtain ⟨fs', hreplaced, hok⟩ | ⟨e, herror, hexact⟩ := run_under_replaceFile_cases r fs path text.toUTF8
  · left
    rw [hok]
    exact ⟨fs', hreplaced, rfl⟩
  · right
    rw [herror]
    exact ⟨e, rfl, hexact⟩

/-- A disk with no refusals is a disk. -/
theorem under_none_replace (path : Path) (text : String) :
    Refusals.none.under (replace path text) = replace path text := by
  have hinstall (l : Location) : Refusals.none.under (install l path text.toUTF8) =
      install l path text.toUTF8 := by
    simp only [install, Refusals.under_bind, Refusals.under_fileMode?]
    refine bind_congr fun _ => bind_congr fun mode? => ?_
    cases mode? <;> rfl
  simp only [replace, replaceFile, Refusals.under_adapt, Refusals.under_bind, Refusals.under_tryCatch,
    hinstall]
  rfl

theorem under_none_write (path : Path) : Refusals.none.under (write path) = write path := by
  simp only [write, Refusals.under_bind, under_none_replace]
  rfl

theorem run_replace_cases (fs : FileSystem) (path : Path) (text : String) :
    (∃ fs', fs.replacement path none text.toUTF8 = .ok fs' ∧
      (replace path text : ExceptT Failure (StateM FileSystem) Unit).run.run fs = (.ok (), fs')) ∨
    ∃ e, (replace path text : ExceptT Failure (StateM FileSystem) Unit).run.run fs =
        (.error (.write path e), fs) ∧ fs.replacement path none text.toUTF8 = .error e := by
  rw [← under_none_replace]
  obtain hok | ⟨e, herror, hexact⟩ := run_under_replace_cases .none fs path text
  · exact .inl hok
  · exact .inr ⟨e, herror, hexact rfl⟩

/-- What a replacement makes of a file system is what a disk makes of it that refuses nothing but looks. -/
theorem run_ofLook_replace {refused : Option IoError} {text : String}
    (h : fs.replacement path refused text.toUTF8 = .ok fs') :
    ((Refusals.ofLook refused).under (replace path text)).run.run fs = (.ok (), fs') := by
  obtain ⟨fs₁, hreplaced, hok⟩ | ⟨e, -, hexact⟩ := run_under_replace_cases (.ofLook refused) fs path text
  · rw [hok, Except.ok.inj (hreplaced.symm.trans h)]
  · cases h.symm.trans (hexact rfl)

/-- Writing the generated code replaces the file, or the error tells the path and nothing has changed. -/
theorem run_under_write_cases (r : Refusals) (fs : FileSystem) (path : Path) :
    (∃ fs', fs.replacement path r.fileMode source.toUTF8 = .ok fs' ∧
      (r.under (write path)).run.run fs = (.ok (.onWriting path), fs')) ∨
    ∃ e, (r.under (write path)).run.run fs = (.error (.write path e), fs) := by
  simp only [write, Refusals.under_bind, run_bind]
  obtain ⟨fs', hreplaced, hok⟩ | ⟨e, herror, -⟩ := run_under_replace_cases r fs path source
  · left
    rw [hok]
    exact ⟨fs', hreplaced, rfl⟩
  · right
    rw [herror]
    exact ⟨e, rfl⟩

/-- **A failed replacement leaves everything as it was.**  On every file system, at every path and for every
text: the failure tells the path as it was given, and the file system is the one from before, entry by
entry.  That is so on a disk that refuses nothing of itself, and on every disk that does. -/
theorem unchanged_of_replace_error (fs : FileSystem) (path : Path) (text : String) :
    (∀ f fs', (replace path text : ExceptT Failure (StateM FileSystem) Unit).run.run fs = (.error f, fs') →
      (∃ e, f = .write path e) ∧ fs' = fs) ∧
    ∀ (r : Refusals) f fs', (r.under (replace path text)).run.run fs = (.error f, fs') →
      (∃ e, f = .write path e) ∧ fs' = fs := by
  constructor
  · intro f fs' h
    obtain ⟨fs₁, -, hok⟩ | ⟨e, herror, -⟩ := run_replace_cases fs path text
    · cases hok.symm.trans h
    · cases herror.symm.trans h
      exact ⟨⟨e, rfl⟩, rfl⟩
  · intro r f fs' h
    obtain ⟨fs₁, -, hok⟩ | ⟨e, herror, -⟩ := run_under_replace_cases r fs path text
    · cases hok.symm.trans h
    · cases herror.symm.trans h
      exact ⟨⟨e, rfl⟩, rfl⟩

/-- A directory `d` and nothing else. -/
def loneDirectory : FileSystem where
  entries := [([.spelled [100]], .directory .directory)]
  workingDirectory := []

/-- A disk that is full after the first byte of a file. -/
def fullDisk : Refusals := { Refusals.none with fill := some (⟨#[120]⟩, .other "No space left on device") }

/-- The directory is not replaced, and the file is not begun. -/
theorem unchanged_loneDirectory :
    let onto := (replace ⟨[100]⟩ "xyz" : ExceptT Failure (StateM FileSystem) Unit).run.run loneDirectory
    let within := (fullDisk.under (replace ⟨[100, 47, 102]⟩ "xyz")).run.run loneDirectory
    onto.1 = .error (.write ⟨[100]⟩ .isADirectory) ∧ onto.2 = loneDirectory ∧
      within.1 = .error (.write ⟨[100, 47, 102]⟩ (.other "No space left on device")) ∧
      within.2 = loneDirectory := by
  intro onto within
  have honto : onto.1 = .error (.write ⟨[100]⟩ .isADirectory) := by rfl
  have hwithin : within.1 = .error (.write ⟨[100, 47, 102]⟩ (.other "No space left on device")) := by rfl
  refine ⟨honto, ?_, hwithin, ?_⟩
  · exact ((unchanged_of_replace_error loneDirectory ⟨[100]⟩ "xyz").1 _ _ (Prod.ext honto rfl)).2
  · exact ((unchanged_of_replace_error loneDirectory ⟨[100, 47, 102]⟩ "xyz").2 fullDisk _ _
      (Prod.ext hwithin rfl)).2

end ImageDimensions.Artifact
