import ImageDimensions.FileSystem.Operations
import ImageDimensions.Proofs.FileSystem.Walks

/-!
# Proofs/FileSystem/Draft — a file in the making is the only difference

A temporary file is made where no entry was, under a name that no path spells.  Filling it and giving it a
mode change nothing else, so that erasing it gives the file system from before back, entry by entry.
`Draft` keeps this as one fact about the two file systems; what a walk meets does not depend on the draft.
-/

namespace ImageDimensions.FileSystem

variable {fs fs' : FileSystem} {k l : Location} {e e' : Entry}

/-! ## Changes at one location -/

theorem setIn_setIn (l : Location) (e e' : Entry) :
    ∀ entries : List (Location × Entry), setIn l e' (setIn l e entries) = setIn l e' entries
  | [] => by simp only [setIn, if_true]
  | (k, d) :: rest => by
    by_cases h : k = l
    · simp only [setIn, h, if_true]
    · simp only [setIn, h, if_false, setIn_setIn l e e' rest]

/-- Of two entries set at one location, the second counts. -/
theorem set_set : (fs.set l e).set l e' = fs.set l e' := by
  unfold set
  rw [setIn_setIn]

theorem filter_setIn (l : Location) (e : Entry) : ∀ entries : List (Location × Entry),
    (setIn l e entries).filter (·.1 ≠ l) = entries.filter (·.1 ≠ l)
  | [] => by simp [setIn]
  | (k, d) :: rest => by
    by_cases hk : k = l
    · simp [setIn, hk]
    · simp only [setIn, hk, if_false]
      rw [List.filter_cons_of_pos (by simpa using hk), List.filter_cons_of_pos (by simpa using hk),
        filter_setIn l e rest]

/-- What is set at a location is gone when it is erased. -/
theorem erase_set (l : Location) (e : Entry) : (fs.set l e).erase l = fs.erase l := by
  simp only [set, erase, filter_setIn]

/-- What is set where nothing was, and erased again, leaves no trace. -/
theorem erase_set_of_notMem (h : l ∉ fs.entries.map Prod.fst) : (fs.set l e).erase l = fs := by
  have hkept : ∀ p ∈ fs.entries, decide (p.1 ≠ l) = true := fun p hp =>
    decide_eq_true fun he => h (he ▸ List.mem_map_of_mem hp)
  rw [erase_set, erase, List.filter_eq_self.2 hkept]

/-! ## Files just made -/

theorem fill_set (hl : l ≠ []) (m : Mode) (c contents : ByteArray) :
    (fs.set l (.file m c)).fill l contents = fs.set l (.file m contents) := by
  simp only [fill, get?_set_self hl, set_set]

theorem setMode_set (hl : l ≠ []) (m mode : Mode) (c : ByteArray) :
    (fs.set l (.file m c)).setMode l mode = fs.set l (.file mode c) := by
  simp only [setMode, get?_set_self hl, set_set]

/-- A temporary file is made empty, for its owner only, under a drawn name above those in use. -/
theorem eq_of_createTemporary {directory : Path} (h : fs.createTemporary directory = .ok (l, fs')) :
    (∃ d, l = .drawn fs.unusedSerial :: d) ∧ fs' = fs.set l (.file .ownerOnly .empty) := by
  unfold createTemporary at h
  split at h
  · cases h
  split at h
  · cases h
  split at h
  · cases h
  split at h
  · cases h
  rename_i d _
  split at h
  · obtain ⟨rfl, rfl⟩ := Prod.mk.inj (Except.ok.inj h)
    exact ⟨⟨d, rfl⟩, rfl⟩
  · cases h

/-! ## Drafts -/

/-- The second file system is the first one with a file in the making, under a drawn name that was not in
use. -/
structure Draft (fs : FileSystem) (l : Location) (fs' : FileSystem) : Prop where
  drawn : ∃ n d, l = .drawn n :: d
  notMem : l ∉ fs.entries.map Prod.fst
  eq_set : ∃ mode contents, fs' = fs.set l (.file mode contents)

/-- A temporary file is a draft. -/
theorem draft_of_createTemporary {directory : Path}
    (h : fs.createTemporary directory = .ok (l, fs')) : Draft fs l fs' := by
  obtain ⟨⟨d, rfl⟩, hset⟩ := eq_of_createTemporary h
  refine ⟨⟨_, d, rfl⟩, ?_, ⟨_, _, hset⟩⟩
  intro hmem
  obtain ⟨⟨l, e⟩, he, rfl⟩ := List.mem_map.1 hmem
  exact absurd (lt_unusedSerial he) (Nat.lt_irrefl _)

namespace Draft

theorem ne_nil (h : Draft fs l fs') : l ≠ [] := by
  obtain ⟨n, d, rfl⟩ := h.drawn
  simp

theorem erase_eq (h : Draft fs l fs') : fs'.erase l = fs := by
  obtain ⟨m, c, rfl⟩ := h.eq_set
  exact erase_set_of_notMem h.notMem

theorem get?_self (h : Draft fs l fs') : ∃ mode contents, fs'.get? l = some (.file mode contents) := by
  obtain ⟨m, c, rfl⟩ := h.eq_set
  exact ⟨m, c, get?_set_self h.ne_nil⟩

theorem get?_of_ne (h : Draft fs l fs') (hk : k ≠ l) : fs'.get? k = fs.get? k := by
  rw [← h.erase_eq, get?_erase_of_ne hk]

theorem get?_eq_none (h : Draft fs l fs') : fs.get? l = none := by
  rw [← h.erase_eq, get?_erase_self h.ne_nil]

theorem workingDirectory_eq (h : Draft fs l fs') : fs'.workingDirectory = fs.workingDirectory := by
  obtain ⟨m, c, rfl⟩ := h.eq_set
  rfl

/-- A draft stays one when it is filled. -/
theorem fill (h : Draft fs l fs') (contents : ByteArray) : Draft fs l (fs'.fill l contents) := by
  obtain ⟨m, c, rfl⟩ := h.eq_set
  exact ⟨h.drawn, h.notMem, m, contents, fill_set h.ne_nil m c contents⟩

/-- A draft stays one when it is given a mode. -/
theorem setMode (h : Draft fs l fs') (mode : Mode) : Draft fs l (fs'.setMode l mode) := by
  obtain ⟨m, c, rfl⟩ := h.eq_set
  exact ⟨h.drawn, h.notMem, mode, c, setMode_set h.ne_nil m mode c⟩

/-! ## What does not depend on the draft -/

theorem get?_spelled (h : Draft fs l fs') (name : List UInt8) (d : Location) :
    fs'.get? (.spelled name :: d) = fs.get? (.spelled name :: d) := by
  obtain ⟨n, d', rfl⟩ := h.drawn
  exact h.get?_of_ne (by simp)

theorem directoryMode?_eq (h : Draft fs l fs') (k : Location) :
    fs'.directoryMode? k = fs.directoryMode? k := by
  by_cases hk : k = l
  · obtain ⟨m, c, hm⟩ := h.get?_self
    rw [hk, directoryMode?_of_get?_file hm]
    simp only [directoryMode?, h.get?_eq_none]
  · exact directoryMode?_congr (h.get?_of_ne hk)

theorem walk_eq (h : Draft fs l fs') (p : Path) (steps : List Step) :
    fs'.walk p steps = fs.walk p steps := by
  simp only [walk, h.workingDirectory_eq, resolve_eq_of_agree h.directoryMode?_eq h.get?_spelled]

theorem find_eq (h : Draft fs l fs') (p : Path) : fs'.find p = fs.find p := by
  simp only [find, h.walk_eq]

theorem renameTarget_eq (h : Draft fs l fs') (p : Path) : fs'.renameTarget p = fs.renameTarget p := by
  simp only [renameTarget, lastName, h.walk_eq, isWritable_congr (h.directoryMode?_eq _),
    isDirectory_congr (h.directoryMode?_eq _)]

/-- Renaming a draft sets it at the target.  Nothing is left where it was made. -/
theorem rename_eq (h : Draft fs l fs') (he : fs'.get? l = some e) (p : Path) :
    fs'.rename l p = (fs.renameTarget p).map (fs.set · e) := by
  unfold rename
  rw [h.renameTarget_eq, h.erase_eq, he]
  cases fs.renameTarget p <;> rfl

/-- The mode that a file at the path hands on.  A walk may end at the draft, but only where it ended at
nothing before, so that the draft hands on what it has. -/
theorem getD_fileMode?_eq {contents : ByteArray} (h : Draft fs l fs')
    (hl : fs' = fs.set l (.file .ownerOnly contents)) (p : Path) :
    (fs'.fileMode? p).getD .ownerOnly = (fs.fileMode? p).getD .ownerOnly := by
  simp only [fileMode?, h.find_eq]
  cases fs.find p with
  | error e => rfl
  | ok k =>
    by_cases hk : k = l
    · have hself : fs'.get? l = some (.file .ownerOnly contents) := by
        rw [hl, get?_set_self h.ne_nil]
      simp only [hk, hself, h.get?_eq_none, Option.getD_some, Option.getD_none]
    · simp only [h.get?_of_ne hk]

end Draft

end ImageDimensions.FileSystem
