import Mathlib.Data.Prod.Basic
import ImageDimensions.Proofs.Artifact.Atomicity
import ImageDimensions.Proofs.Artifact.Verdict

/-!
# Proofs/Artifact/Success — what a successful write leaves, and what a check makes of it

A text that has been written stands in one file, under the last piece of the path in the directory to which
its front leads, and nothing else has changed (`replace_changes_one_entry`).

A check reads the same file, if the front of the path still leads to a directory: the entry that was
replaced may have been a link on the way there.  The check then tells whether the text is the generated
code, as long as the mode that the file has taken over lets its owner read it (`check_after_writing`).
-/

namespace ImageDimensions.Artifact

open FileSystem

variable {fs fs' : FileSystem} {path : Path} {text : String} {report : Report} {d : Location}

/-! ## One entry -/

theorem replacement_of_replace
    (h : (replace path text : ExceptT Failure (StateM FileSystem) Unit).run.run fs = (.ok (), fs')) :
    fs.replacement path none text.toUTF8 = .ok fs' := by
  obtain ⟨fs₁, hreplaced, hok⟩ | ⟨e, herror, -⟩ := run_replace_cases fs path text
  · rw [hok, Prod.mk.injEq] at h
    rw [hreplaced, h.2]
  · rw [herror] at h
    cases h

/-- **A successful write changes one entry.**  The last piece of the path, in the directory to which its
front leads, is then a file that holds the text.  The file has the mode that the path handed on, and was
made in that directory.  No directory was there before, and everything else is as it was: so is the file
behind a link that has been replaced. -/
theorem replace_changes_one_entry (fs fs' : FileSystem) (path : Path) (text : String)
    (h : (replace path text : ExceptT Failure (StateM FileSystem) Unit).run.run fs = (.ok (), fs')) :
    ∃ d mode, fs.find path.front = .ok d ∧ fs.isDirectory d ∧
      (∃ serial made, fs.createTemporary path.directory = .ok (.drawn serial :: d, made)) ∧
      fs.HandsOn path mode ∧
      fs.Replaced (.spelled path.lastPiece :: d) mode text.toUTF8 fs' ∧
      ∀ link k m c, fs.get? (.spelled path.lastPiece :: d) = some (.link link) →
        fs.find path = .ok k → fs.get? k = some (.file m c) → fs'.get? k = some (.file m c) := by
  have hreplaced := replacement_of_replace h
  obtain ⟨⟨⟨l, made⟩, hmade⟩, -⟩ := replacement_eq_ok_iff.1 hreplaced
  obtain ⟨target, htarget, heffect⟩ := replaced_of_replacement hreplaced
  obtain ⟨hends, d, rfl, hfront, hopen, -⟩ := renameTarget_eq_ok_iff_find_front.1 htarget
  obtain ⟨serial, rfl⟩ := createTemporary_of_find_front hends hfront hopen hmade
  refine ⟨d, fs.inheritedMode path, hfront, isDirectory_of_isOpen hopen, ⟨serial, made, hmade⟩,
    handsOn_inheritedMode fs path, heffect, ?_⟩
  intro link k m c hlink _ hfile
  have hne : k ≠ .spelled path.lastPiece :: d := by
    rintro rfl
    rw [hlink] at hfile
    cases hfile
  rw [heffect.get?_of_ne k hne, hfile]

/-- A link `d/l` that leads to a file `t` by way of `d/k`. -/
def linkedTwice : FileSystem where
  entries := [([.spelled [100]], .directory .directory),
    ([.spelled [108], .spelled [100]], .link ⟨[107]⟩),
    ([.spelled [107], .spelled [100]], .link ⟨[46, 46, 47, 116]⟩),
    ([.spelled [116]], .file 0o640 ⟨#[1, 2, 3]⟩)]
  workingDirectory := []

/-- The link is replaced by a file of the mode of the file to which it led, and that file stays. -/
theorem replace_linkedTwice :
    let path : Path := ⟨[100, 47, 46, 47, 108]⟩
    let written := (replace path "xyz" : ExceptT Failure (StateM FileSystem) Unit).run.run linkedTwice
    written.1 = .ok () ∧ ∃ d mode, linkedTwice.find path.front = .ok d ∧ linkedTwice.isDirectory d ∧
      (∃ serial made, linkedTwice.createTemporary path.directory = .ok (.drawn serial :: d, made)) ∧
      linkedTwice.HandsOn path mode ∧
      linkedTwice.Replaced (.spelled path.lastPiece :: d) mode "xyz".toUTF8 written.2 ∧
      ∀ link k m c, linkedTwice.get? (.spelled path.lastPiece :: d) = some (.link link) →
        linkedTwice.find path = .ok k → linkedTwice.get? k = some (.file m c) →
          written.2.get? k = some (.file m c) := by
  intro path written
  have hok : written.1 = .ok () := by decide +kernel
  exact ⟨hok, replace_changes_one_entry linkedTwice _ path "xyz" (Prod.fst_eq_iff.1 hok)⟩

/-! ## Checking what has been written -/

theorem run_write (fs : FileSystem) (path : Path) :
    (write path : ExceptT Failure (StateM FileSystem) Report).run.run fs =
      match (replace path source : ExceptT Failure (StateM FileSystem) Unit).run.run fs with
      | (.ok (), fs') => (.ok (.onWriting path), fs')
      | (.error f, fs') => (.error f, fs') := by
  simp only [write, run_bind]
  rcases (replace path source : ExceptT Failure (StateM FileSystem) Unit).run.run fs
    with ⟨_ | _, _⟩ <;> rfl

theorem replace_of_write
    (h : (write path : ExceptT Failure (StateM FileSystem) Report).run.run fs = (.ok report, fs')) :
    (replace path source : ExceptT Failure (StateM FileSystem) Unit).run.run fs = (.ok (), fs') := by
  rw [run_write] at h
  obtain ⟨fs₁, -, hok⟩ | ⟨e, herror, -⟩ := run_replace_cases fs path source
  · rw [hok] at h ⊢
    rw [(Prod.mk.inj h).2]
  · rw [herror] at h
    cases h

theorem check_of_replace
    (h : (replace path text : ExceptT Failure (StateM FileSystem) Unit).run.run fs = (.ok (), fs'))
    (hfront : fs'.find path.front = .ok d) :
    (check path : ExceptT Failure (StateM FileSystem) Status).run.run fs' =
      (if (fs.inheritedMode path).ownerReads then .ok (if text = source then .inSync else .outOfSync)
        else .error (.read path .permissionDenied), fs') := by
  have hbytes : text.toUTF8 = source.toUTF8 ↔ text = source := String.toByteArray_inj
  rw [run_check, read_of_replacement (replacement_of_replace h) hfront, handedOn_none]
  split
  · simp only [verdict, hbytes]
  · rfl

/-- **A check agrees with the write before it.**  If the front of the path still leads to a directory after
a text has been written, a check says whether the text is the generated code, provided that the mode which
the path handed on lets the owner read; otherwise it says that it may not read the file. -/
theorem check_after_writing (fs fs' : FileSystem) (path : Path) (d : Location)
    (hfront : fs'.find path.front = .ok d) :
    (∀ text, (replace path text : ExceptT Failure (StateM FileSystem) Unit).run.run fs = (.ok (), fs') →
      ∃ mode, fs.HandsOn path mode ∧
        (check path : ExceptT Failure (StateM FileSystem) Status).run.run fs' =
          (if mode.ownerReads then .ok (if text = source then .inSync else .outOfSync)
            else .error (.read path .permissionDenied), fs')) ∧
    ∀ report, (write path : ExceptT Failure (StateM FileSystem) Report).run.run fs = (.ok report, fs') →
      ∃ mode, fs.HandsOn path mode ∧
        (check path : ExceptT Failure (StateM FileSystem) Status).run.run fs' =
          (if mode.ownerReads then .ok .inSync else .error (.read path .permissionDenied), fs') := by
  constructor
  · intro text h
    exact ⟨_, handsOn_inheritedMode fs path, check_of_replace h hfront⟩
  · intro report h
    refine ⟨_, handsOn_inheritedMode fs path, ?_⟩
    rw [check_of_replace (replace_of_write h) hfront, if_pos rfl]

/-- What is written behind the links is read back, and the generated code is in sync. -/
theorem check_linkedTwice :
    let path : Path := ⟨[100, 47, 46, 47, 108]⟩
    let replaced := (replace path "xyz" : ExceptT Failure (StateM FileSystem) Unit).run.run linkedTwice
    let written := (write path : ExceptT Failure (StateM FileSystem) Report).run.run linkedTwice
    replaced.1 = .ok () ∧ replaced.2.find path.front = .ok [.spelled [100]] ∧
      written.1 = .ok (.onWriting path) ∧ written.2.find path.front = .ok [.spelled [100]] ∧
      (∃ mode, linkedTwice.HandsOn path mode ∧
        (check path : ExceptT Failure (StateM FileSystem) Status).run.run replaced.2 =
          (if mode.ownerReads then .ok (if "xyz" = source then .inSync else .outOfSync)
            else .error (.read path .permissionDenied), replaced.2)) ∧
      ∃ mode, linkedTwice.HandsOn path mode ∧
        (check path : ExceptT Failure (StateM FileSystem) Status).run.run written.2 =
          (if mode.ownerReads then .ok .inSync else .error (.read path .permissionDenied), written.2) := by
  intro path replaced written
  have hreplaced : replaced.1 = .ok () := by decide +kernel
  have hwritten : written.1 = .ok (.onWriting path) := by rfl
  have hfront : replaced.2.find path.front = .ok [.spelled [100]] := by decide +kernel
  have hfront' : written.2.find path.front = .ok [.spelled [100]] := by decide +kernel
  exact ⟨hreplaced, hfront, hwritten, hfront',
    (check_after_writing linkedTwice _ path _ hfront).1 "xyz" (Prod.fst_eq_iff.1 hreplaced),
    (check_after_writing linkedTwice _ path _ hfront').2 _ (Prod.fst_eq_iff.1 hwritten)⟩

/-- A file `f` that its owner may write to, but not read. -/
def unreadable : FileSystem where
  entries := [([.spelled [102]], .file 0o200 ⟨#[1, 2, 3]⟩)]
  workingDirectory := []

/-- The mode is handed on with the name: a file that could not be read is replaced, and what has been
written cannot be read back either. -/
theorem check_unreadable :
    let path : Path := ⟨[102]⟩
    let written := (replace path "xyz" : ExceptT Failure (StateM FileSystem) Unit).run.run unreadable
    written.1 = .ok () ∧ written.2.find path.front = .ok [] ∧ written.2.isDirectory [] ∧
      ((check path : ExceptT Failure (StateM FileSystem) Status).run.run written.2).1 =
        .error (.read path .permissionDenied) := by
  refine ⟨?_, ?_, ?_, ?_⟩ <;> decide +kernel

end ImageDimensions.Artifact
