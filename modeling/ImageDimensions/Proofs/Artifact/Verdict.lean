import ImageDimensions.Artifact.Basic
import ImageDimensions.FileSystem.Disk
import ImageDimensions.Proofs.FileSystem.Obstacles

/-!
# Proofs/Artifact/Verdict — what a check says of each file system and path

    a file that may be read, with the generated code    in sync
    a file that may be read, with anything else         out of sync
    nothing                                             missing
    anything else in the way                            a failure

Each verdict is given exactly where its line applies (`check_tells_what_is_there`), and the lines leave out
nothing: what keeps a path from being read is an obstacle (`FileSystem.read_eq_error_iff`).
-/

namespace ImageDimensions.Artifact

open FileSystem

variable {path : Path} {result : Except IoError ByteArray}

theorem run_check (fs : FileSystem) (path : Path) :
    (check path : ExceptT Failure (StateM FileSystem) Status).run.run fs =
      (verdict path (fs.read path), fs) := rfl

/-! ## Verdicts on what has been read -/

theorem verdict_eq_inSync_iff : verdict path result = .ok .inSync ↔ result = .ok source.toUTF8 := by
  cases result with
  | error e => cases e <;> simp [verdict]
  | ok contents => by_cases h : contents = source.toUTF8 <;> simp [verdict, h]

theorem verdict_eq_outOfSync_iff : verdict path result = .ok .outOfSync ↔
    ∃ contents, result = .ok contents ∧ contents ≠ source.toUTF8 := by
  cases result with
  | error e => cases e <;> simp [verdict]
  | ok contents => by_cases h : contents = source.toUTF8 <;> simp [verdict, h]

theorem verdict_eq_missing_iff : verdict path result = .ok .missing ↔ result = .error .notFound := by
  cases result with
  | error e => cases e <;> simp [verdict]
  | ok contents =>
    simp only [verdict]
    split <;> simp

theorem verdict_eq_error_iff {f : Failure} : verdict path result = .error f ↔
    ∃ e, result = .error e ∧ e ≠ .notFound ∧ f = .read path e := by
  cases result with
  | error e => cases e <;> simp [verdict, @eq_comm _ f]
  | ok contents => simp [verdict]

/-! ## Verdicts on what is there -/

/-- **A check tells what is there, and changes nothing.**  It finds the path in sync if and only if it leads
to a file that its owner may read and that holds the generated code, and out of sync if and only if it leads
to such a file with other contents.  It finds the file missing if and only if the path is empty, a name on
the way is not there in a directory that may be searched, or nothing is where the path leads.  In every other
case it fails, with the path as it was given and with what is in the way.

If the working directory is there, a walk comes to directories and files only: what is in the way of a next
step is then a file, what a path leads to without its being a file is a directory, and something always is
where a path leads. -/
theorem check_tells_what_is_there (fs : FileSystem) (path : Path) :
    ∃ result, (check path : ExceptT Failure (StateM FileSystem) Status).run.run fs = (result, fs) ∧
      (result = .ok .inSync ↔ ∃ l mode, fs.Comes path l [] ∧
        fs.get? l = some (.file mode source.toUTF8) ∧ mode.ownerReads) ∧
      (result = .ok .outOfSync ↔ ∃ l mode contents, fs.Comes path l [] ∧
        fs.get? l = some (.file mode contents) ∧ mode.ownerReads ∧ contents ≠ source.toUTF8) ∧
      (result = .ok .missing ↔ path.bytes = [] ∨
        (∃ l name left, fs.Comes path l (.into name :: left) ∧ fs.isOpen l ∧
          name.length ≤ Path.nameLimit ∧ fs.get? (.spelled name :: l) = none) ∨
        ∃ l, fs.Comes path l [] ∧ fs.get? l = none) ∧
      (∀ f, result = .error f ↔ ∃ e, fs.Obstacle path e ∧ e ≠ .notFound ∧ f = .read path e) ∧
      (fs.DirectoriesTo fs.workingDirectory → ∀ l left, fs.Comes path l left →
        fs.isDirectory l ∨ ∃ mode contents, fs.get? l = some (.file mode contents)) := by
  refine ⟨verdict path (fs.read path), run_check fs path, ?_, ?_, ?_, fun f => ?_,
    fun hworking l left hcomes => hcomes.isDirectory_or_file hworking⟩
  · simp only [verdict_eq_inSync_iff, read_eq_ok_iff, find_eq_ok_iff]
  · simp only [verdict_eq_outOfSync_iff, read_eq_ok_iff, find_eq_ok_iff]
    constructor
    · rintro ⟨contents, ⟨l, mode, hcomes, hget, hmode⟩, hne⟩
      exact ⟨l, mode, contents, hcomes, hget, hmode, hne⟩
    · rintro ⟨l, mode, contents, hcomes, hget, hmode, hne⟩
      exact ⟨contents, ⟨l, mode, hcomes, hget, hmode⟩, hne⟩
  · rw [verdict_eq_missing_iff, read_eq_error_iff, obstacle_notFound_iff]
  · simp only [verdict_eq_error_iff, read_eq_error_iff]

/-- A file `f` that holds the generated code, a link `d/l` that leads to it by way of `k`, a link `x` that
leads nowhere and a link `o` that leads to itself. -/
def crossroads : FileSystem where
  entries := [([.spelled [102]], .file 0o644 source.toUTF8),
    ([.spelled [100]], .directory .directory),
    ([.spelled [108], .spelled [100]], .link ⟨[46, 46, 47, 107]⟩),
    ([.spelled [107]], .link ⟨[102]⟩),
    ([.spelled [120]], .link ⟨[121]⟩),
    ([.spelled [111]], .link ⟨[111]⟩)]
  workingDirectory := []

/-- The file behind the links is in sync, the file behind `x` is missing, and nothing can be said of `o` and
`f/`.  What a walk along `d/l` comes to is a directory or a file. -/
theorem check_crossroads :
    let checked (bytes : List UInt8) :=
      ((check ⟨bytes⟩ : ExceptT Failure (StateM FileSystem) Status).run.run crossroads).1
    crossroads.DirectoriesTo crossroads.workingDirectory ∧
      checked [100, 47, 108] = .ok .inSync ∧
      checked [120] = .ok .missing ∧
      checked [111] = .error (.read ⟨[111]⟩ .filesystemLoop) ∧
      checked [102, 47] = .error (.read ⟨[102, 47]⟩ .notADirectory) ∧
      ∀ l left, crossroads.Comes ⟨[100, 47, 108]⟩ l left →
        crossroads.isDirectory l ∨ ∃ mode contents, crossroads.get? l = some (.file mode contents) := by
  intro checked
  have hworking : crossroads.DirectoriesTo crossroads.workingDirectory := DirectoriesTo.root
  have hfind : crossroads.find ⟨[100, 47, 108]⟩ = .ok [.spelled [102]] := by decide +kernel
  have hget : crossroads.get? [.spelled [102]] = some (.file 0o644 source.toUTF8) := by rfl
  obtain ⟨result, hrun, hinSync, -, -, -, hpassed⟩ :=
    check_tells_what_is_there crossroads ⟨[100, 47, 108]⟩
  have hchecked : checked [100, 47, 108] = result := congrArg Prod.fst hrun
  have hresult : result = .ok .inSync :=
    hinSync.2 ⟨_, _, find_eq_ok_iff.1 hfind, hget, by decide⟩
  exact ⟨hworking, hchecked.trans hresult, by decide +kernel, by decide +kernel, by decide +kernel,
    hpassed hworking⟩

/-- The generated code in a file `f` that nobody may read. -/
def sealedSource : FileSystem where
  entries := [([.spelled [102]], .file 0 source.toUTF8)]
  workingDirectory := []

/-- A file that holds the generated code is not in sync as long as it cannot be read. -/
theorem check_sealedSource :
    (∃ l, sealedSource.Comes ⟨[102]⟩ l [] ∧ sealedSource.get? l = some (.file 0 source.toUTF8)) ∧
      (check ⟨[102]⟩ : ExceptT Failure (StateM FileSystem) Status).run.run sealedSource =
        (.error (.read ⟨[102]⟩ .permissionDenied), sealedSource) := by
  have hfind : sealedSource.find ⟨[102]⟩ = .ok [.spelled [102]] := by decide +kernel
  have hget : sealedSource.get? [.spelled [102]] = some (.file 0 source.toUTF8) := by rfl
  have hread : sealedSource.read ⟨[102]⟩ = .error .permissionDenied := by decide +kernel
  refine ⟨⟨_, find_eq_ok_iff.1 hfind, hget⟩, ?_⟩
  rw [run_check, hread]
  rfl

end ImageDimensions.Artifact
