import ImageDimensions.CommandLine.Run
import ImageDimensions.Proofs.Artifact.LastWrite
import ImageDimensions.Proofs.Artifact.Success

/-!
# Proofs/CommandLine/Runs — one run of the program after another

A run changes files only if it is asked to generate the file and exits with 0; then it has done what
`Artifact.write` does (`runOn_cases`).  A check exits with 0 where the generated code can be read.

Once the file has been generated, whatever is run makes of the file system what one write has made of it
(`runOn_of_replacement`), and nothing changes any more as long as modes may be looked at.  So a check finds what
was generated (`afterRuns_of_replacement`), unless the file has taken over a mode that does not let its owner
read.
-/

namespace ImageDimensions.CommandLine

open FileSystem Artifact

/-- The path of the generated file. -/
def outputPath : Path := .ofString fileName

/-- A run of the program on a disk with the refusals: its outcome, and the file system that it leaves. -/
def runOn (r : Refusals) (fs : FileSystem) (arguments : List String) : Outcome × FileSystem :=
  ((run arguments : ReaderT Refusals (StateM FileSystem) Outcome).run r).run fs

/-- The file system after runs of the program, each with its arguments on a disk with its own refusals. -/
def afterRuns (fs : FileSystem) : List (Refusals × List String) → FileSystem
  | [] => fs
  | (r, arguments) :: rest => afterRuns (runOn r fs arguments).2 rest

variable {r : Refusals} {fs fs' : FileSystem} {path : Path} {arguments : List String} {refused : Option IoError}

/-! ## Outcomes -/

/-- A check exits with 0 if the file is in sync, and only then. -/
theorem checkOutcome_code_eq_zero_iff {result : Except Failure Status} :
    (checkOutcome result).code = 0 ↔ result = .ok .inSync := by
  cases result with
  | error f => simp [checkOutcome, Outcome.failure]
  | ok status => cases status <;> simp [checkOutcome, Outcome.success, Outcome.failure]

/-! ## What one run does -/

theorem runOn_eq {request : Request} (h : Request.ofArguments arguments = request) :
    runOn r fs arguments =
      ((perform request : ReaderT Refusals (StateM FileSystem) Outcome).run r).run fs := by
  rw [← h]
  rfl

theorem runOn_of_generate (h : Request.ofArguments arguments = .run .generate) :
    runOn r fs arguments =
      (generateOutcome ((r.under (write outputPath)).run.run fs).1,
        ((r.under (write outputPath)).run.run fs).2) :=
  runOn_eq h

theorem runOn_of_check (h : Request.ofArguments arguments = .run .check) :
    runOn r fs arguments = (checkOutcome (verdict outputPath (r.readOf fs outputPath)), fs) := by
  have hchecked : runOn r fs arguments =
      (checkOutcome ((r.under (check outputPath)).run.run fs).1,
        ((r.under (check outputPath)).run.run fs).2) := runOn_eq h
  rw [hchecked, run_under_check]

/-- A run of the program is one on a disk with no refusals. -/
theorem runOn_none (fs : FileSystem) (arguments : List String) :
    runOn .none fs arguments = (run arguments : StateM FileSystem Outcome).run fs := by
  rw [run]
  cases hrequest : Request.ofArguments arguments with
  | run c =>
    cases c with
    | generate =>
      rw [runOn_of_generate hrequest, under_none_write]
      rfl
    | check =>
      rw [runOn_eq hrequest]
      rfl
  | help | version | misuse =>
    rw [runOn_eq hrequest]
    rfl

/-- **A run generates the file and exits with 0, or it changes nothing.** -/
theorem runOn_cases (r : Refusals) (fs : FileSystem) (arguments : List String) :
    (∃ fs', Request.ofArguments arguments = .run .generate ∧
      fs.replacement outputPath r.fileMode source.toUTF8 = .ok fs' ∧
      runOn r fs arguments = (generateOutcome (.ok (.onWriting outputPath)), fs')) ∨
    (runOn r fs arguments).2 = fs ∧
      (Request.ofArguments arguments = .run .generate → (runOn r fs arguments).1.code ≠ 0) := by
  cases hrequest : Request.ofArguments arguments with
  | run c =>
    cases c with
    | generate =>
      rw [runOn_of_generate hrequest]
      obtain ⟨fs', hreplaced, hok⟩ | ⟨e, herror⟩ := run_under_write_cases r fs outputPath
      · rw [hok]
        exact .inl ⟨fs', rfl, hreplaced, rfl⟩
      · rw [herror]
        exact .inr ⟨rfl, fun _ => Nat.one_ne_zero⟩
    | check =>
      rw [runOn_of_check hrequest]
      exact .inr ⟨rfl, nofun⟩
  | help | version | misuse =>
    -- What neither generates nor checks does not look at the disk.
    rw [runOn_eq hrequest]
    exact .inr ⟨rfl, nofun⟩

/-- A check exits with 0 if the generated code is read, and only then. -/
theorem code_eq_zero_iff_of_check (h : Request.ofArguments arguments = .run .check) :
    (runOn r fs arguments).1.code = 0 ↔
      r.read = none ∧ fs.read outputPath = .ok source.toUTF8 := by
  rw [runOn_of_check h, checkOutcome_code_eq_zero_iff, verdict_eq_inSync_iff, Refusals.readOf_eq_ok_iff]

/-! ## After the file has been generated -/

/-- Once the file has been generated, a run leaves it generated.  Only its mode may change, and only if a look
at it is refused. -/
theorem runOn_of_replacement (h : fs.replacement outputPath refused source.toUTF8 = .ok fs') (r : Refusals)
    (arguments : List String) : ∃ refused', (refused = none → r.fileMode = none → refused' = none) ∧
      fs.replacement outputPath refused' source.toUTF8 = .ok (runOn r fs' arguments).2 := by
  obtain ⟨fs'', -, hreplaced, hrun⟩ | ⟨hsame, -⟩ := runOn_cases r fs' arguments
  · refine ⟨refused.or r.fileMode, fun hnone hlook => by rw [hnone, hlook, Option.or_none], ?_⟩
    rw [hrun]
    exact replacement_after_replacement h hreplaced
  · refine ⟨refused, fun hnone _ => hnone, ?_⟩
    rw [hsame]
    exact h

theorem afterRuns_of_replacement (h : fs.replacement outputPath refused source.toUTF8 = .ok fs')
    (runs : List (Refusals × List String)) :
    ∃ refused', (refused = none → (∀ p ∈ runs, p.1.fileMode = none) → refused' = none) ∧
      fs.replacement outputPath refused' source.toUTF8 = .ok (afterRuns fs' runs) := by
  induction runs generalizing fs' refused with
  | nil => exact ⟨refused, fun hnone _ => hnone, h⟩
  | cons run rest ih =>
    obtain ⟨r, arguments⟩ := run
    obtain ⟨refused₁, hfirst, hrun⟩ := runOn_of_replacement h r arguments
    obtain ⟨refused₂, hrest, hruns⟩ := ih hrun
    refine ⟨refused₂, fun hnone hlooks => ?_, hruns⟩
    rw [List.forall_mem_cons] at hlooks
    exact hrest (hfirst hnone hlooks.1) hlooks.2

/-- The generated code is read back, unless the mode that the file has taken over forbids that. -/
theorem read_outputPath_iff (h : fs.replacement outputPath refused source.toUTF8 = .ok fs') :
    fs'.read outputPath = .ok source.toUTF8 ↔ (fs.handedOn outputPath refused).ownerReads := by
  obtain ⟨d, hfront⟩ := exists_find_front_of_notMem (by decide +kernel) h
  rw [read_of_replacement h hfront]
  split <;> simp_all

/-- A run that generates the file and exits with 0 does what `Artifact.write` does. -/
theorem run_write_of_replacement (h : fs.replacement outputPath refused source.toUTF8 = .ok fs') :
    ((Refusals.ofLook refused).under (write outputPath)).run.run fs = (.ok (.onWriting outputPath), fs') := by
  simp only [write, Refusals.under_bind, run_bind, run_ofLook_replace h]
  rfl

/-- **What runs do to files, and what checks see of it.**  A run that exits with another code than 0 changes
nothing, and neither does one that is not asked to generate the file.  A check exits with 0 if and only if
the path leads to a file that holds the generated code and may be read by its owner.

A run that generates the file and exits with 0 does what `Artifact.write` does, on a disk that refuses no more
than looks at modes.  Whatever has been run since, a check then exits with 0 if the mode that the path handed
on to the generated file lets the owner read; and only then, as long as modes may be looked at. -/
theorem files_follow_exit_codes (r : Refusals) (fs : FileSystem) (arguments : List String) :
    runOn .none fs arguments = (run arguments : StateM FileSystem Outcome).run fs ∧
    ((runOn r fs arguments).1.code ≠ 0 → (runOn r fs arguments).2 = fs) ∧
    (Request.ofArguments arguments ≠ .run .generate → (runOn r fs arguments).2 = fs) ∧
    (Request.ofArguments arguments = .run .check → ((runOn r fs arguments).1.code = 0 ↔
      r.read = none ∧ ∃ l mode, fs.find outputPath = .ok l ∧
        fs.get? l = some (.file mode source.toUTF8) ∧ mode.ownerReads)) ∧
    (Request.ofArguments arguments = .run .generate → (runOn r fs arguments).1.code = 0 →
      ((Refusals.ofLook r.fileMode).under (write outputPath)).run.run fs =
        (.ok (.onWriting outputPath), (runOn r fs arguments).2) ∧
      (r.fileMode = none → (write outputPath : ExceptT Failure (StateM FileSystem) Report).run.run fs =
        (.ok (.onWriting outputPath), (runOn r fs arguments).2)) ∧
      ∃ mode, fs.HandsOn outputPath mode ∧ ∀ between r' arguments',
        Request.ofArguments arguments' = .run .check →
          (r'.read = none → mode.ownerReads →
            (runOn r' (afterRuns (runOn r fs arguments).2 between) arguments').1.code = 0) ∧
          (r.fileMode = none → (∀ p ∈ between, p.1.fileMode = none) →
            ((runOn r' (afterRuns (runOn r fs arguments).2 between) arguments').1.code = 0 ↔
              r'.read = none ∧ mode.ownerReads))) := by
  refine ⟨runOn_none fs arguments, ?_, ?_, ?_, ?_⟩
  · intro hcode
    obtain ⟨fs', -, -, hrun⟩ | ⟨hsame, -⟩ := runOn_cases r fs arguments
    · rw [hrun] at hcode
      exact absurd rfl hcode
    · exact hsame
  · intro hrequest
    obtain ⟨-, hgenerate, -⟩ | ⟨hsame, -⟩ := runOn_cases r fs arguments
    · exact absurd hgenerate hrequest
    · exact hsame
  · intro hcheck
    rw [code_eq_zero_iff_of_check hcheck, read_eq_ok_iff]
  · intro hgenerate hcode
    obtain ⟨fs', -, hreplaced, hrun⟩ | ⟨-, hfailed⟩ := runOn_cases r fs arguments
    · rw [hrun]
      refine ⟨run_write_of_replacement hreplaced, fun hlook => ?_, fs.inheritedMode outputPath,
        handsOn_inheritedMode fs outputPath, ?_⟩
      · rw [hlook] at hreplaced
        rw [← under_none_write]
        exact run_write_of_replacement hreplaced
      · intro between r' arguments' hcheck
        obtain ⟨refused, hlooks, hbetween⟩ := afterRuns_of_replacement hreplaced between
        rw [code_eq_zero_iff_of_check hcheck, read_outputPath_iff hbetween]
        refine ⟨fun hread hmode => ⟨hread, ownerReads_handedOn hmode refused⟩, fun hlook hall => ?_⟩
        rw [hlooks hlook hall, handedOn_none]
    · exact absurd hcode (hfailed hgenerate)

/-- The file is generated in an empty directory.  The disk is then full, the program is asked for its
version, and a check exits with 0. -/
theorem files_follow_generate_check :
    let generated := runOn .none .empty ["generate"]
    let between := [(fullDisk, []), (Refusals.none, ["--version"])]
    Request.ofArguments ["generate"] = .run .generate ∧ generated.1.code = 0 ∧
      (runOn .none (afterRuns generated.2 between) ["check"]).1.code = 0 := by
  intro generated between
  have hgenerate : Request.ofArguments ["generate"] = .run .generate := by decide +kernel
  have hcode : generated.1.code = 0 := by decide +kernel
  have hmissing : FileSystem.empty.find outputPath = .error .notFound := by decide +kernel
  obtain ⟨-, -, -, -, hlast⟩ := files_follow_exit_codes .none .empty ["generate"]
  obtain ⟨-, -, mode, hmode, hchecked⟩ := hlast hgenerate hcode
  have hreads : mode.ownerReads := by
    rw [hmode.eq_of_no_file fun l m c hfind => absurd (hmissing.symm.trans hfind) (by simp)]
    rfl
  have hlooks : ∀ p ∈ between, p.1.fileMode = none := by decide +kernel
  exact ⟨hgenerate, hcode,
    ((hchecked between .none ["check"] (by decide +kernel)).2 rfl hlooks).2 ⟨rfl, hreads⟩⟩

/-- The generated code in a file that nobody may read. -/
def sealedOutput : FileSystem where
  entries := [([.spelled outputPath.bytes], .file 0 source.toUTF8)]
  workingDirectory := []

/-- A check fails on a file that holds the generated code but cannot be read.  Generating the file again
succeeds, and does not help. -/
theorem check_sealedOutput :
    (∃ l, sealedOutput.find outputPath = .ok l ∧
      sealedOutput.get? l = some (.file 0 source.toUTF8)) ∧
    (runOn .none sealedOutput ["check"]).1.code = 1 ∧
    (runOn .none sealedOutput ["generate"]).1.code = 0 ∧
    (runOn .none (runOn .none sealedOutput ["generate"]).2 ["check"]).1.code = 1 := by
  refine ⟨⟨[.spelled outputPath.bytes], ?_, List.lookup_cons_self⟩, ?_, ?_, ?_⟩ <;> decide +kernel

end ImageDimensions.CommandLine
