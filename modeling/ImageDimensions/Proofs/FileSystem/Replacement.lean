import Mathlib.Data.List.Basic
import ImageDimensions.Proofs.FileSystem.Draft

/-!
# Proofs/FileSystem/Replacement — replacing a file, without the temporary file

`FileSystem.replacement` says in one line what becomes of a file system when a file is replaced: one entry
is set, or the replacement is refused.  The temporary file is in no way part of the answer.

A replacement sees nothing of the one before it (`replacement_after_replacement`).  The first one leaves a
file at its target.  Where the second one gets to its own target, no link on the way was replaced, so that
the targets are the same; and the mode that it takes over is the one that the first one handed on.

Only a mode that cannot be looked at leaves a trace.  The file is then for its owner only, and stays so.
-/

namespace ImageDimensions.FileSystem

variable {fs fs' fs₁ fs₂ : FileSystem} {d l target : Location} {path : Path} {contents contents' : ByteArray}
  {refused refused' : Option IoError}

/-- The mode that a path hands on to a file that replaces what is there. -/
def inheritedMode (fs : FileSystem) (path : Path) : Mode := (fs.fileMode? path).getD .ownerOnly

/-- The mode of the file that replaces what is at the path, where looking at the mode of what is there may be
refused. -/
def handedOn (fs : FileSystem) (path : Path) (refused : Option IoError) : Mode :=
  match refused with
  | some _ => .ownerOnly
  | none => fs.inheritedMode path

@[simp] theorem handedOn_none : fs.handedOn path none = fs.inheritedMode path := rfl

/-- The file system after the file at the path has been replaced, where looking at the mode of what is there
may be refused. -/
def replacement (fs : FileSystem) (path : Path) (refused : Option IoError) (contents : ByteArray) :
    Except IoError FileSystem :=
  match fs.createTemporary path.directory with
  | .error e => .error e
  | .ok _ => match fs.renameTarget path with
    | .error e => .error e
    | .ok target => .ok (fs.set target (.file (fs.handedOn path refused) contents))

/-! ## Where a renamed file goes -/

/-- The directory in which the last name of the path is looked up is where the rest of it leads. -/
theorem lastName_eq_ok_iff {name : List UInt8} : fs.lastName path = .ok (d, name) ↔
    path.named.getLast? = some (.into name) ∧
      fs.walk path (path.named.dropLast ++ [.stay]) = .ok d := by
  unfold lastName
  cases path.named.getLast? with
  | none => simp
  | some last =>
    cases fs.walk path (path.named.dropLast ++ [.stay]) with
    | error e => simp
    | ok k => cases last <;> simp [and_comm]

/-- A file is renamed to the last name of the path, in the directory to which the rest of it leads. -/
theorem renameTarget_eq_ok_iff : fs.renameTarget path = .ok target ↔
    path.refusal? = none ∧ ∃ d name, target = .spelled name :: d ∧ fs.lastName path = .ok (d, name) ∧
      name.length ≤ Path.nameLimit ∧ path.endsInSlash = false ∧ fs.isWritable d ∧
      fs.isDirectory target = false := by
  unfold renameTarget
  cases path.refusal? with
  | some e => simp
  | none =>
    cases fs.lastName path with
    | error e => simp
    | ok found =>
      obtain ⟨d, name⟩ := found
      constructor
      · intro h
        dsimp only at h
        split at h
        · cases h
        split at h
        · cases h
        split at h
        · cases h
        split at h
        · cases h
        rename_i hlength hslash hwritable hdirectory
        obtain rfl := Except.ok.inj h
        exact ⟨rfl, d, name, rfl, rfl, Nat.not_lt.1 hlength, Bool.not_eq_true _ ▸ hslash,
          by simpa using hwritable, Bool.not_eq_true _ ▸ hdirectory⟩
      · rintro ⟨-, d', name', rfl, h, hlength, hslash, hwritable, hdirectory⟩
        obtain ⟨rfl, rfl⟩ := Prod.mk.inj (Except.ok.inj h)
        have hshort : ¬ Path.nameLimit < name.length := Nat.not_lt.2 hlength
        simp only [hshort, hslash, hwritable, hdirectory, Bool.not_true, Bool.false_eq_true, if_false]

/-- A replacement that succeeds sets an entry at the target, and could be made. -/
theorem replacement_eq_ok_iff : fs.replacement path refused contents = .ok fs' ↔
    (∃ made, fs.createTemporary path.directory = .ok made) ∧
      ∃ target, fs.renameTarget path = .ok target ∧
        fs' = fs.set target (.file (fs.handedOn path refused) contents) := by
  unfold replacement
  constructor
  · intro h
    cases hmade : fs.createTemporary path.directory with
    | error e =>
      rw [hmade] at h
      cases h
    | ok made =>
      cases htarget : fs.renameTarget path with
      | error e =>
        rw [hmade, htarget] at h
        cases h
      | ok target =>
        rw [hmade, htarget] at h
        exact ⟨⟨made, rfl⟩, target, rfl, (Except.ok.inj h).symm⟩
  · rintro ⟨⟨made, hmade⟩, target, htarget, rfl⟩
    rw [hmade, htarget]

theorem target_ne_nil (h : fs.renameTarget path = .ok target) : target ≠ [] := by
  obtain ⟨-, d, name, rfl, -⟩ := renameTarget_eq_ok_iff.1 h
  simp

/-- A file at the target of a path is the one to which the path leads. -/
theorem find_of_renameTarget {m : Mode} {c : ByteArray} (h : fs.renameTarget path = .ok target)
    (hfile : fs.get? target = some (.file m c)) : fs.find path = .ok target := by
  obtain ⟨hrefusal, d, name, rfl, hlast, hlength, hslash, -⟩ := renameTarget_eq_ok_iff.1 h
  obtain ⟨hname, hwalk⟩ := lastName_eq_ok_iff.1 hlast
  obtain ⟨hwalk, hbarrier⟩ := (resolve_concat_eq_ok_iff (.inl rfl)).1 hwalk
  obtain ⟨k, hk⟩ := exists_resolve_append_eq hwalk
  have hsteps : path.steps = path.named.dropLast ++ [.into name] := by
    rw [Path.steps, hslash, if_neg (by simp), List.append_nil,
      List.dropLast_append_getLast? _ (Option.mem_def.2 hname)]
  have hlast : fs.advance d [.into name] = .arrived (.spelled name :: d) := by
    have hshort : ¬ Path.nameLimit < name.length := Nat.not_lt.2 hlength
    have hopen := (barrier?_eq_none_iff (by simp)).1 hbarrier
    simp only [advance, barrier?_of_isOpen hopen, hshort, hfile, if_false]
  simp only [find, hrefusal]
  rw [walk, hsteps, hk]
  exact resolve_of_arrived hlast

theorem inheritedMode_of_renameTarget {m : Mode} {c : ByteArray} (h : fs.renameTarget path = .ok target)
    (hfile : fs.get? target = some (.file m c)) : fs.inheritedMode path = m := by
  simp only [inheritedMode, fileMode?, find_of_renameTarget h hfile, hfile, Option.getD_some]

/-! ## One replacement after another -/

/-- What a walk meets before the last name of a path was there before a file has been renamed to the path. -/
theorem walk_of_walk_set {m : Mode} {c : ByteArray} (h : fs.renameTarget path = .ok target)
    (hwalk : (fs.set target (.file m c)).walk path (path.named.dropLast ++ [.stay]) = .ok d) :
    fs.walk path (path.named.dropLast ++ [.stay]) = .ok d :=
  resolve_past_file (.inl rfl) (get?_set_self (target_ne_nil h)) (fun _ hl => get?_set_of_ne hl) ⟨_, rfl⟩
    hwalk

/-- Renaming to a path for the second time ends up at the same place, if it succeeds. -/
theorem renameTarget_eq_of_set {m : Mode} {c : ByteArray} {target' : Location}
    (h : fs.renameTarget path = .ok target)
    (h' : (fs.set target (.file m c)).renameTarget path = .ok target') : target' = target := by
  obtain ⟨-, d', name', rfl, hlast', -⟩ := renameTarget_eq_ok_iff.1 h'
  obtain ⟨hname', hwalk'⟩ := lastName_eq_ok_iff.1 hlast'
  have hagain := walk_of_walk_set h hwalk'
  obtain ⟨-, d, name, rfl, hlast, -⟩ := renameTarget_eq_ok_iff.1 h
  obtain ⟨hname, hwalk⟩ := lastName_eq_ok_iff.1 hlast
  rw [hname, Option.some.injEq, Step.into.injEq] at hname'
  rw [hwalk, Except.ok.injEq] at hagain
  rw [hname', hagain]

/-- A file that has been put in place hands its own mode on, unless that cannot be looked at. -/
theorem handedOn_eq_of_replacement (h : fs.replacement path refused contents = .ok fs₁)
    (h' : fs₁.renameTarget path = .ok target) (refused' : Option IoError) :
    fs₁.handedOn path refused' = fs.handedOn path (refused.or refused') := by
  obtain ⟨-, target', htarget, rfl⟩ := replacement_eq_ok_iff.1 h
  obtain rfl := renameTarget_eq_of_set htarget h'
  cases refused' with
  | some e => cases refused <;> rfl
  | none =>
    rw [Option.or_none]
    exact inheritedMode_of_renameTarget h' (get?_set_self (target_ne_nil htarget))

/-- **A replacement sees nothing of the one before it.**  What it makes of the file system is what it would
have made of the file system from before both, if it may look at the same modes there. -/
theorem replacement_after_replacement (h : fs.replacement path refused contents = .ok fs₁)
    (h' : fs₁.replacement path refused' contents' = .ok fs₂) :
    fs.replacement path (refused.or refused') contents' = .ok fs₂ := by
  obtain ⟨-, target', htarget', rfl⟩ := replacement_eq_ok_iff.1 h'
  rw [handedOn_eq_of_replacement h htarget']
  obtain ⟨hmade, target, htarget, rfl⟩ := replacement_eq_ok_iff.1 h
  obtain rfl := renameTarget_eq_of_set htarget htarget'
  rw [set_set]
  exact replacement_eq_ok_iff.2 ⟨hmade, _, htarget, rfl⟩

end ImageDimensions.FileSystem
