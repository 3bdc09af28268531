import ImageDimensions.Proofs.FileSystem.Front
import ImageDimensions.Proofs.FileSystem.Replacement

/-!
# Proofs/FileSystem/Effect — what a replacement leaves behind

A replacement puts one file at the place that the path names: behind the front of the path, under its last
piece (`renameTarget_eq_ok`).  Nothing else changes (`replaced_of_replacement`), and where the path goes
through no link that was replaced it now leads to the new file (`find_of_replacement`).
-/

namespace ImageDimensions.FileSystem

variable {fs fs' : FileSystem} {d l target : Location} {path : Path} {mode : Mode} {contents : ByteArray}
  {refused : Option IoError}

/-! ## Reading -/

/-- A file is read where a path leads to one that its owner may read. -/
theorem read_eq_ok_iff : fs.read path = .ok contents ↔
    ∃ l mode, fs.find path = .ok l ∧ fs.get? l = some (.file mode contents) ∧ mode.ownerReads := by
  unfold read
  cases fs.find path with
  | error e => simp
  | ok l =>
    cases hget : fs.get? l with
    | none => simp [hget]
    | some entry =>
      cases entry with
      | file mode contents' => by_cases hmode : mode.ownerReads <;> simp [Entry.ownerReads, hget, hmode]
      | directory mode => by_cases hmode : mode.ownerReads <;> simp [Entry.ownerReads, hget, hmode]
      | link target => simp [Entry.ownerReads, hget]

/-! ## The mode that is handed on -/

/-- The mode that a path hands on is that of the file to which it leads.  If it leads to none, only the
owner may read and write. -/
structure HandsOn (fs : FileSystem) (path : Path) (mode : Mode) : Prop where
  eq_of_file : ∀ l m c, fs.find path = .ok l → fs.get? l = some (.file m c) → mode = m
  eq_of_no_file : (∀ l m c, fs.find path = .ok l → fs.get? l ≠ some (.file m c)) → mode = .ownerOnly

theorem fileMode?_eq_some_iff : fs.fileMode? path = some mode ↔
    ∃ l c, fs.find path = .ok l ∧ fs.get? l = some (.file mode c) := by
  unfold fileMode?
  cases fs.find path with
  | error e => simp
  | ok l =>
    cases hget : fs.get? l with
    | none => simp [hget]
    | some e => cases e <;> simp [hget]

/-- A file that may be read hands on that it may be read, whether its mode can be looked at or not. -/
theorem ownerReads_handedOn (h : (fs.inheritedMode path).ownerReads) (refused : Option IoError) :
    (fs.handedOn path refused).ownerReads := by
  cases refused with
  | none => exact h
  | some e => exact (rfl : Mode.ownerOnly.ownerReads = true)

theorem handsOn_inheritedMode (fs : FileSystem) (path : Path) :
    fs.HandsOn path (fs.inheritedMode path) where
  eq_of_file l m c hfind hget := by
    rw [inheritedMode, fileMode?_eq_some_iff.2 ⟨l, c, hfind, hget⟩, Option.getD_some]
  eq_of_no_file h := by
    rw [inheritedMode]
    cases hmode : fs.fileMode? path with
    | none => rfl
    | some m =>
      obtain ⟨l, c, hfind, hget⟩ := fileMode?_eq_some_iff.1 hmode
      exact absurd hget (h l m c hfind)

/-! ## The place that is named -/

/-- **A file is renamed to the last piece of the path, in the directory to which its front leads**, if its
owner may look up names there and write to it. -/
theorem renameTarget_eq_ok_iff_find_front : fs.renameTarget path = .ok target ↔
    path.EndsInName ∧ ∃ d, target = .spelled path.lastPiece :: d ∧ fs.find path.front = .ok d ∧
      fs.isOpen d ∧ fs.isWritable d ∧ fs.isDirectory target = false := by
  rw [renameTarget_eq_ok_iff]
  constructor
  · rintro ⟨hrefusal, d, name, rfl, hlast, hlength, hslash, hwritable, hdirectory⟩
    obtain ⟨hname, hwalk⟩ := lastName_eq_ok_iff.1 hlast
    have hne := (Path.refusal?_eq_none_iff.1 hrefusal).2.1
    obtain rfl := (Step.eq_of_ofPiece? (Path.front_of_name hne hslash hname).1).1
    have hends : path.EndsInName := ⟨hrefusal, hslash, hname, hlength⟩
    obtain ⟨hfront, hopen⟩ := (walk_dropLast_named_iff hends).1 hwalk
    exact ⟨hends, d, rfl, hfront, hopen, hwritable, hdirectory⟩
  · rintro ⟨hends, d, rfl, hfront, hopen, hwritable, hdirectory⟩
    have hwalk := (walk_dropLast_named_iff hends).2 ⟨hfront, hopen⟩
    exact ⟨hends.refusal?_eq_none, d, _, rfl, lastName_eq_ok_iff.2 ⟨hends.getLast?_named, hwalk⟩,
      hends.length_le, hends.endsInSlash_eq_false, hwritable, hdirectory⟩

/-- The front of the path leads to the directory in which the temporary file is made. -/
theorem createTemporary_of_find_front {made : Location × FileSystem} (hends : path.EndsInName)
    (hfront : fs.find path.front = .ok d) (hopen : fs.isOpen d)
    (hmade : fs.createTemporary path.directory = .ok made) : ∃ serial, made.1 = .drawn serial :: d := by
  have hwalk := (walk_directory hends).trans ((walk_dropLast_named_iff hends).2 ⟨hfront, hopen⟩)
  unfold createTemporary at hmade
  split at hmade
  · cases hmade
  split at hmade
  · cases hmade
  split at hmade
  · cases hmade
  rw [hwalk] at hmade
  dsimp only at hmade
  split at hmade
  · obtain rfl := Except.ok.inj hmade
    exact ⟨_, rfl⟩
  · cases hmade

/-- An entry set in a directory does not change the mode of the directory. -/
theorem directoryMode?_set_cons {name : Name} {e : Entry} :
    (fs.set (name :: d) e).directoryMode? d = fs.directoryMode? d :=
  directoryMode?_congr (get?_set_of_ne List.ne_cons_self)

/-- Where the front of a path leads after a file has been renamed to the path, it led before. -/
theorem find_front_of_set (h : fs.renameTarget path = .ok target)
    (hfront : (fs.set target (.file mode contents)).find path.front = .ok d) :
    fs.find path.front = .ok d := by
  obtain ⟨hends, -⟩ := renameTarget_eq_ok_iff_find_front.1 h
  obtain ⟨-, last, hlast, hsteps⟩ := hends.front
  simp only [find, Path.refusal?_front hends.refusal?_eq_none] at hfront ⊢
  exact resolve_past_file hlast (get?_set_self (target_ne_nil h)) (fun _ hl => get?_set_of_ne hl)
    ⟨_, hsteps⟩ hfront

/-- A file can be renamed once more to where it has been renamed to, if the front of the path still leads
somewhere. -/
theorem renameTarget_set (h : fs.renameTarget path = .ok target)
    (hfront : (fs.set target (.file mode contents)).find path.front = .ok d) :
    (fs.set target (.file mode contents)).renameTarget path = .ok target ∧
      target = .spelled path.lastPiece :: d := by
  have hfile : (fs.set target (.file mode contents)).get? target = some (.file mode contents) :=
    get?_set_self (target_ne_nil h)
  have hbefore := find_front_of_set h hfront
  obtain ⟨hends, d', rfl, hfront', hopen, hwritable, -⟩ := renameTarget_eq_ok_iff_find_front.1 h
  rw [hfront', Except.ok.injEq] at hbefore
  subst hbefore
  exact ⟨renameTarget_eq_ok_iff_find_front.2 ⟨hends, d', rfl, hfront,
    (isOpen_congr directoryMode?_set_cons).trans hopen,
    (isWritable_congr directoryMode?_set_cons).trans hwritable, isDirectory_of_get?_file hfile⟩, rfl⟩

/-! ## The change -/

/-- The second file system has a file at the location, where the first one has no directory, and is the
same everywhere else. -/
structure Replaced (fs : FileSystem) (l : Location) (mode : Mode) (contents : ByteArray)
    (fs' : FileSystem) : Prop where
  isDirectory_eq_false : fs.isDirectory l = false
  get?_self : fs'.get? l = some (.file mode contents)
  get?_of_ne : ∀ k, k ≠ l → fs'.get? k = fs.get? k
  erase_eq : fs'.erase l = fs.erase l

/-- **A replacement changes one entry.** -/
theorem replaced_of_replacement (h : fs.replacement path refused contents = .ok fs') :
    ∃ target, fs.renameTarget path = .ok target ∧
      fs.Replaced target (fs.handedOn path refused) contents fs' := by
  obtain ⟨-, target, htarget, rfl⟩ := replacement_eq_ok_iff.1 h
  obtain ⟨-, -, -, -, -, -, hdirectory⟩ := renameTarget_eq_ok_iff_find_front.1 htarget
  exact ⟨target, htarget, hdirectory, get?_set_self (target_ne_nil htarget),
    fun k hk => get?_set_of_ne hk, erase_set target _⟩

/-- **After a replacement the path leads to the new file**, if its front still leads somewhere. -/
theorem find_of_replacement (h : fs.replacement path refused contents = .ok fs')
    (hfront : fs'.find path.front = .ok d) :
    fs'.find path = .ok (.spelled path.lastPiece :: d) ∧
      fs'.get? (.spelled path.lastPiece :: d) = some (.file (fs.handedOn path refused) contents) := by
  obtain ⟨-, target, htarget, rfl⟩ := replacement_eq_ok_iff.1 h
  have hfile : (fs.set target (.file (fs.handedOn path refused) contents)).get? target = _ :=
    get?_set_self (target_ne_nil htarget)
  obtain ⟨hagain, rfl⟩ := renameTarget_set htarget hfront
  exact ⟨find_of_renameTarget hagain hfile, hfile⟩

/-- **The new file is read back**, unless the mode that it has taken over forbids that. -/
theorem read_of_replacement (h : fs.replacement path refused contents = .ok fs')
    (hfront : fs'.find path.front = .ok d) :
    fs'.read path = if (fs.handedOn path refused).ownerReads then .ok contents
      else .error .permissionDenied := by
  obtain ⟨hfind, hget⟩ := find_of_replacement h hfront
  simp only [read, hfind, hget]
  rfl

/-- The working directory is where it was, whatever has been replaced in it. -/
theorem exists_find_front_of_notMem (hmem : slash ∉ path.bytes)
    (h : fs.replacement path refused contents = .ok fs') : ∃ d, fs'.find path.front = .ok d := by
  have hdot (fs : FileSystem) (d : Location) : fs.find path.front = .ok d ↔
      fs.workingDirectory = d ∧ fs.isOpen d := by
    have hfront : path.front = ⟨[dot]⟩ := if_neg hmem
    have hwalk : fs.find ⟨[dot]⟩ = fs.resolve fs.workingDirectory ([] ++ [.stay]) linkLimit := rfl
    rw [hfront, hwalk, resolve_concat_eq_ok_iff (.inl rfl), resolve_nil, Except.ok.injEq,
      barrier?_eq_none_iff (by simp)]
  obtain ⟨-, target, htarget, rfl⟩ := replacement_eq_ok_iff.1 h
  obtain ⟨-, d, rfl, hfront, hopen, -⟩ := renameTarget_eq_ok_iff_find_front.1 htarget
  obtain ⟨rfl, -⟩ := (hdot fs d).1 hfront
  exact ⟨fs.workingDirectory, (hdot _ _).2 ⟨rfl, (isOpen_congr directoryMode?_set_cons).trans hopen⟩⟩

end ImageDimensions.FileSystem
