import ImageDimensions.Proofs.FileSystem.Effect
import ImageDimensions.Proofs.FileSystem.Passage

/-!
# Proofs/FileSystem/Obstacles — what keeps a path from being read

A path leads to a file that its owner may read, or something is in the way.  `Obstacle` lists what that can
be: the path itself, a step on the way that cannot be taken, or what is found at its end.  The system names
an obstacle if and only if it is there (`read_eq_error_iff`).

A walk that starts at a directory comes to directories and files only (`Comes.isDirectory_or_file`).  So
where a step needs a directory and finds none, there is a file.
-/

namespace ImageDimensions

variable {fs : FileSystem} {p : Path} {l start : Location} {steps left : List Step} {n : Nat} {e : IoError}

namespace FileSystem

/-- The path can be walked along, and the walk comes to the location with some steps left. -/
def Comes (fs : FileSystem) (p : Path) (l : Location) (left : List Step) : Prop :=
  p.refusal? = none ∧ ∃ n ≤ linkLimit, fs.Passes (startOf p fs.workingDirectory) p.steps n l left

/-- **What is in the way** of reading a path, and what the system says about it. -/
inductive Obstacle (fs : FileSystem) (p : Path) : IoError → Prop
  | zeroByte (h : 0 ∈ p.bytes) : Obstacle fs p .invalidInput
  | empty (h : p.bytes = []) : Obstacle fs p .notFound
  | longPath (hzero : 0 ∉ p.bytes) (h : Path.lengthLimit < p.bytes.length) :
      Obstacle fs p .invalidFilename
  | onTheWay {l : Location} {left : List Step} {e : IoError} (h : fs.Comes p l left)
      (hstop : fs.Stops l left (.error e)) : Obstacle fs p e
  | links {l : Location} {left : List Step} (h : p.refusal? = none)
      (hpass : fs.Passes (startOf p fs.workingDirectory) p.steps (linkLimit + 1) l left) :
      Obstacle fs p .filesystemLoop
  | nothing {l : Location} (h : fs.Comes p l []) (hget : fs.get? l = none) : Obstacle fs p .notFound
  | noFile {l : Location} {entry : Entry} (h : fs.Comes p l []) (hget : fs.get? l = some entry)
      (hentry : ∀ mode contents, entry ≠ .file mode contents) (hmode : entry.ownerReads) :
      Obstacle fs p .isADirectory
  | unreadable {l : Location} {entry : Entry} (h : fs.Comes p l []) (hget : fs.get? l = some entry)
      (hmode : entry.ownerReads = false) : Obstacle fs p .permissionDenied

end FileSystem

/-! ## The path itself -/

theorem Path.refusal?_eq_some_iff : p.refusal? = some e ↔
    0 ∈ p.bytes ∧ e = .invalidInput ∨ p.bytes = [] ∧ e = .notFound ∨
      0 ∉ p.bytes ∧ lengthLimit < p.bytes.length ∧ e = .invalidFilename := by
  unfold refusal?
  by_cases hzero : 0 ∈ p.bytes
  · have hne : p.bytes ≠ [] := List.ne_nil_of_mem hzero
    simp [hzero, hne, @eq_comm _ e]
  by_cases hempty : p.bytes = []
  · simp [hempty, @eq_comm _ e]
  by_cases hlength : lengthLimit < p.bytes.length
  · simp [hzero, hempty, hlength, @eq_comm _ e]
  · simp [hzero, hempty, hlength]

namespace FileSystem

/-! ## The way -/

/-- A path is refused, or leads to where the walk along it stops, or through too many links. -/
theorem find_eq_iff {r : Except IoError Location} : fs.find p = r ↔
    (∃ e, p.refusal? = some e ∧ r = .error e) ∨
    (∃ l left, fs.Comes p l left ∧ fs.Stops l left r) ∨
      p.refusal? = none ∧ r = .error .filesystemLoop ∧
        ∃ l left, fs.Passes (startOf p fs.workingDirectory) p.steps (linkLimit + 1) l left := by
  unfold find Comes
  cases hrefusal : p.refusal? with
  | some e => simp [eq_comm]
  | none =>
    rw [walk, resolve_eq_iff]
    constructor
    · rintro (⟨n, hn, l, left, hpass, hstop⟩ | ⟨hpass, hloop⟩)
      · exact .inr (.inl ⟨l, left, ⟨rfl, n, hn, hpass⟩, hstop⟩)
      · exact .inr (.inr ⟨rfl, hloop, hpass⟩)
    · rintro (⟨e, h, -⟩ | ⟨l, left, ⟨-, n, hn, hpass⟩, hstop⟩ | ⟨-, hloop, hpass⟩)
      · cases h
      · exact .inl ⟨n, hn, l, left, hpass, hstop⟩
      · exact .inr ⟨hpass, hloop⟩

theorem find_eq_ok_iff : fs.find p = .ok l ↔ fs.Comes p l [] := by
  rw [find_eq_iff]
  constructor
  · rintro (⟨e, -, h⟩ | ⟨k, left, hcomes, hstop⟩ | ⟨-, h, -⟩)
    · cases h
    · cases hstop with
      | arrived => exact hcomes
    · cases h
  · exact fun hcomes => .inr (.inl ⟨l, [], hcomes, .arrived⟩)

/-! ## The end -/

/-- Reading fails on the way, or at the end of it. -/
theorem read_eq_error_iff_find : fs.read p = .error e ↔ fs.find p = .error e ∨ ∃ l, fs.find p = .ok l ∧
    (fs.get? l = none ∧ e = .notFound ∨
      (∃ entry, fs.get? l = some entry ∧ (∀ mode contents, entry ≠ .file mode contents) ∧
        entry.ownerReads ∧ e = .isADirectory) ∨
      ∃ entry, fs.get? l = some entry ∧ entry.ownerReads = false ∧ e = .permissionDenied) := by
  unfold read
  cases fs.find p with
  | error e' => simp
  | ok l =>
    cases hget : fs.get? l with
    | none => simp [hget, @eq_comm _ e]
    | some entry =>
      by_cases hmode : entry.ownerReads
      · cases entry <;> simp [hget, hmode, @eq_comm _ e]
      · simp [hget, hmode, @eq_comm _ e]

/-- **Reading fails where something is in the way**, and the system says what it is. -/
theorem read_eq_error_iff : fs.read p = .error e ↔ fs.Obstacle p e := by
  simp only [read_eq_error_iff_find, find_eq_ok_iff]
  simp only [find_eq_iff, Path.refusal?_eq_some_iff, Except.error.injEq, exists_eq_right']
  constructor
  · rintro ((hrefusal | ⟨l, left, hcomes, hstop⟩ | ⟨h, rfl, l, left, hpass⟩) | ⟨l, hcomes, hend⟩)
    · obtain ⟨h, rfl⟩ | ⟨h, rfl⟩ | ⟨hzero, h, rfl⟩ := hrefusal
      · exact .zeroByte h
      · exact .empty h
      · exact .longPath hzero h
    · exact .onTheWay hcomes hstop
    · exact .links h hpass
    · obtain ⟨hget, rfl⟩ | ⟨entry, hget, hentry, hmode, rfl⟩ | ⟨entry, hget, hmode, rfl⟩ := hend
      · exact .nothing hcomes hget
      · exact .noFile hcomes hget hentry hmode
      · exact .unreadable hcomes hget hmode
  · intro h
    cases h with
    | zeroByte h => exact .inl (.inl (.inl ⟨h, rfl⟩))
    | empty h => exact .inl (.inl (.inr (.inl ⟨h, rfl⟩)))
    | longPath hzero h => exact .inl (.inl (.inr (.inr ⟨hzero, h, rfl⟩)))
    | onTheWay hcomes hstop => exact .inl (.inr (.inl ⟨_, _, hcomes, hstop⟩))
    | links h hpass => exact .inl (.inr (.inr ⟨h, rfl, _, _, hpass⟩))
    | nothing hcomes hget => exact .inr ⟨_, hcomes, .inl ⟨hget, rfl⟩⟩
    | noFile hcomes hget hentry hmode =>
      exact .inr ⟨_, hcomes, .inr (.inl ⟨_, hget, hentry, hmode, rfl⟩)⟩
    | unreadable hcomes hget hmode => exact .inr ⟨_, hcomes, .inr (.inr ⟨_, hget, hmode, rfl⟩)⟩

/-- Nothing is found where a path leads if the path is empty, if a name on the way is not there, or if the
walk ends where nothing is. -/
theorem obstacle_notFound_iff : fs.Obstacle p .notFound ↔ p.bytes = [] ∨
    (∃ l name left, fs.Comes p l (.into name :: left) ∧ fs.isOpen l ∧
      name.length ≤ Path.nameLimit ∧ fs.get? (.spelled name :: l) = none) ∨
    ∃ l, fs.Comes p l [] ∧ fs.get? l = none := by
  constructor
  · intro h
    cases h with
    | empty h => exact .inl h
    | onTheWay hcomes hstop =>
      cases hstop with
      | absent hl hname hget => exact .inr (.inl ⟨_, _, _, hcomes, hl, hname, hget⟩)
    | nothing hcomes hget => exact .inr (.inr ⟨_, hcomes, hget⟩)
  · rintro (h | ⟨l, name, left, hcomes, hl, hname, hget⟩ | ⟨l, hcomes, hget⟩)
    · exact .empty h
    · exact .onTheWay hcomes (.absent hl hname hget)
    · exact .nothing hcomes hget

/-! ## What a walk comes to -/

/-- There are directories all the way from the root to the location. -/
def DirectoriesTo (fs : FileSystem) (l : Location) : Prop := ∀ d, d <:+ l → fs.isDirectory d

namespace DirectoriesTo

theorem isDirectory (h : fs.DirectoriesTo l) : fs.isDirectory l := h l (List.suffix_refl l)

theorem root : fs.DirectoriesTo [] := by
  intro d hd
  rw [List.suffix_nil.1 hd]
  rfl

theorem tail (h : fs.DirectoriesTo l) : fs.DirectoriesTo l.tail :=
  fun d hd => h d (hd.trans (List.tail_suffix l))

theorem of_tail (h : fs.DirectoriesTo l.tail) (hl : fs.isDirectory l) : fs.DirectoriesTo l := by
  cases l with
  | nil => exact root
  | cons name l =>
    intro d hd
    obtain rfl | hd := List.suffix_cons_iff.1 hd
    · exact hl
    · exact h d hd

/-- Every path that is read in a directory starts at one. -/
theorem startOf (h : fs.DirectoriesTo l) (p : Path) : fs.DirectoriesTo (startOf p l) := by
  unfold FileSystem.startOf
  split
  · exact root
  · exact h

end DirectoriesTo

/-- **A walk that starts at a directory comes to directories and files**, and stays below directories. -/
theorem Passes.isDirectory_or_file (h : fs.Passes start steps n l left) (hstart : fs.DirectoriesTo start) :
    fs.DirectoriesTo l.tail ∧
      (fs.isDirectory l ∨ ∃ mode contents, fs.get? l = some (.file mode contents)) := by
  induction h with
  | here => exact ⟨hstart.tail, .inl hstart.isDirectory⟩
  | stay _ _ ih | demand _ _ ih => exact ih
  | up _ _ ih => exact ⟨ih.1.tail, .inl ih.1.isDirectory⟩
  | @into n l left name e _ hl _ hget hlink ih =>
    refine ⟨ih.1.of_tail (isDirectory_of_isOpen hl), ?_⟩
    cases e with
    | file mode contents => exact .inr ⟨mode, contents, hget⟩
    | directory mode => exact .inl (by rw [isDirectory, directoryMode?, hget]; rfl)
    | link t => exact absurd rfl (hlink t)
  | @follow n l left name t _ hl _ _ ih =>
    have hstart' := (ih.1.of_tail (isDirectory_of_isOpen hl)).startOf t
    exact ⟨hstart'.tail, .inl hstart'.isDirectory⟩

theorem Comes.isDirectory_or_file (h : fs.Comes p l left)
    (hworking : fs.DirectoriesTo fs.workingDirectory) :
    fs.isDirectory l ∨ ∃ mode contents, fs.get? l = some (.file mode contents) := by
  obtain ⟨-, n, -, hpass⟩ := h
  exact (hpass.isDirectory_or_file (hworking.startOf p)).2

end FileSystem

end ImageDimensions
