import ImageDimensions.Proofs.Artifact.Atomicity

/-!
# Proofs/Artifact/LastWrite — of many writes, the last one that succeeds counts

A path is written and checked again and again, on disks that refuse now this and now that.  What comes of it
is what the last successful write alone would have made of the file system at the start.

One refusal is not noticed by the write that meets it: if the mode of what is there cannot be looked at, the
file is put in place for its owner only, and hands that mode on to all that follow.  So the last write is to be
thought of as one that could not look at the mode either (`refusedLook`).

The invariant is `Reached`.  A step keeps it, because a write sees nothing of the one before it
(`FileSystem.replacement_after_replacement`) and a failed write changes nothing.
-/

namespace ImageDimensions.Artifact

open FileSystem

/-! ## Calls -/

/-- What may be done at a path. -/
inductive Call where
  | replace (text : String)
  | write
  | check
deriving DecidableEq

/-- Checking changes nothing, whether reading is refused or not. -/
theorem run_under_check (r : Refusals) (fs : FileSystem) (path : Path) :
    (r.under (check path)).run.run fs = (verdict path (r.readOf fs path), fs) := by
  have hread : (r.under (check path)).run.run fs =
      let read := (Refusals.instead r.read (Disk.read path)).run.run fs
      (verdict path read.1, read.2) := rfl
  rw [hread, Refusals.run_instead_read]

namespace Call

/-- What the call writes, if it writes. -/
def text? : Call → Option String
  | replace text => some text
  | write => some source
  | check => none

section

variable {τ : Type} {m : Type → Type} [Monad m] [Disk τ m]

/-- The call as an action, without what it returns. -/
def act (path : Path) : Call → ExceptT Failure m Unit
  | replace text => Artifact.replace path text
  | write => do
    let _ ← Artifact.write path
    return ()
  | check => do
    let _ ← Artifact.check path
    return ()

theorem act_of_text? [LawfulMonad m] {path : Path} {c : Call} {text : String} (h : c.text? = some text) :
    (c.act path : ExceptT Failure m Unit) = Artifact.replace path text := by
  cases c with
  | replace text' =>
    obtain rfl := Option.some.inj h
    rfl
  | write =>
    obtain rfl := Option.some.inj h
    simp only [act, Artifact.write, bind_assoc, pure_bind, bind_pure_unit]
  | check => cases h

end

/-- What comes of a call on a disk with the refusals. -/
def run (path : Path) (fs : FileSystem) (r : Refusals) (c : Call) : Except Failure Unit × FileSystem :=
  (r.under (c.act path)).run.run fs

variable {fs : FileSystem} {path : Path} {c : Call}

/-- What does not write changes nothing. -/
theorem run_of_text?_eq_none (r : Refusals) (h : c.text? = none) : (c.run path fs r).2 = fs := by
  cases c with
  | replace text => cases h
  | write => cases h
  | check =>
    simp only [run, act, Refusals.under_bind, run_bind, run_under_check]
    cases verdict path (r.readOf fs path) <;> rfl

/-- A write replaces the file, or it fails and changes nothing. -/
theorem run_cases {text : String} (r : Refusals) (h : c.text? = some text) :
    (∃ fs', fs.replacement path r.fileMode text.toUTF8 = .ok fs' ∧ c.run path fs r = (.ok (), fs')) ∨
      ∃ f, c.run path fs r = (.error f, fs) := by
  rw [run, act_of_text? h]
  obtain hok | ⟨e, herror, -⟩ := run_under_replace_cases r fs path text
  · exact .inl hok
  · exact .inr ⟨_, herror⟩

end Call

/-! ## Runs -/

/-- The file system after the calls, each on a disk with its own refusals. -/
def after (path : Path) (fs : FileSystem) : List (Refusals × Call) → FileSystem
  | [] => fs
  | (r, c) :: rest => after path (c.run path fs r).2 rest

/-- The writes among the calls that succeed, in the order of the calls. -/
def successes (path : Path) (fs : FileSystem) : List (Refusals × Call) → List (Refusals × Call)
  | [] => []
  | (r, c) :: rest =>
    if c.text?.isSome && (c.run path fs r).1.isOk then (r, c) :: successes path (c.run path fs r).2 rest
    else successes path (c.run path fs r).2 rest

/-- The first refusal of a look at a mode on the disks of the calls. -/
def refusedLook (calls : List (Refusals × Call)) : Option IoError := calls.findSome? (·.1.fileMode)

theorem refusedLook_concat (calls : List (Refusals × Call)) (r : Refusals) (c : Call) :
    refusedLook (calls ++ [(r, c)]) = (refusedLook calls).or r.fileMode := by
  rw [refusedLook, refusedLook, List.findSome?_append, List.findSome?_singleton]

/-- The file system is the one from the start, or what the last one of the writes makes of that. -/
def Reached (start : FileSystem) (path : Path) (writes : List (Refusals × Call)) (fs : FileSystem) : Prop :=
  match writes.getLast? with
  | none => fs = start
  | some (_, c) => ∃ text, c.text? = some text ∧
      start.replacement path (refusedLook writes) text.toUTF8 = .ok fs

section Run

variable {start fs : FileSystem} {path : Path} {writes : List (Refusals × Call)} {refused : Option IoError}

theorem Reached.replacement {fs' : FileSystem} {contents : ByteArray} (h : Reached start path writes fs)
    (h' : fs.replacement path refused contents = .ok fs') :
    start.replacement path ((refusedLook writes).or refused) contents = .ok fs' := by
  obtain rfl | ⟨before, ⟨r, c⟩, rfl⟩ := List.eq_nil_or_concat' writes
  · obtain rfl : fs = start := h
    exact h'
  · rw [Reached, List.getLast?_concat] at h
    obtain ⟨text, -, hstart⟩ := h
    exact replacement_after_replacement hstart h'

/-- **One call keeps the invariant.** -/
theorem Reached.run (h : Reached start path writes fs) (r : Refusals) (c : Call) :
    Reached start path (writes ++ if c.text?.isSome && (c.run path fs r).1.isOk then [(r, c)] else [])
      (c.run path fs r).2 := by
  cases htext : c.text? with
  | none =>
    rw [Call.run_of_text?_eq_none r htext]
    simpa using h
  | some text =>
    obtain ⟨fs', hreplaced, hrun⟩ | ⟨f, hrun⟩ := @Call.run_cases fs path c text r htext
    · rw [hrun]
      change Reached start path (writes ++ [(r, c)]) fs'
      rw [Reached, List.getLast?_concat]
      exact ⟨text, htext, refusedLook_concat writes r c ▸ h.replacement hreplaced⟩
    · rw [hrun]
      change Reached start path (writes ++ []) fs
      rwa [List.append_nil]

/-- **All calls keep the invariant**, with the writes that succeeded. -/
theorem Reached.after (h : Reached start path writes fs) (calls : List (Refusals × Call)) :
    Reached start path (writes ++ successes path fs calls) (after path fs calls) := by
  induction calls generalizing writes fs with
  | nil => exact (List.append_nil writes).symm ▸ h
  | cons call rest ih =>
    obtain ⟨r, c⟩ := call
    have hrest := ih (h.run r c)
    unfold successes
    split
    · rename_i hc
      rw [if_pos hc, List.append_assoc] at hrest
      exact hrest
    · rename_i hc
      rw [if_neg hc, List.append_nil] at hrest
      exact hrest

theorem after_append (fs : FileSystem) (calls calls' : List (Refusals × Call)) :
    after path fs (calls ++ calls') = after path (after path fs calls) calls' := by
  induction calls generalizing fs with
  | nil => rfl
  | cons call rest ih => exact ih _

/-- Writing once more what the file system has come from changes nothing, whether it succeeds or not. -/
theorem run_of_replacement {c : Call} {text : String} {r : Refusals} (hlook : r.fileMode = none)
    (h : c.text? = some text) (hstart : start.replacement path refused text.toUTF8 = .ok fs) :
    (c.run path fs r).2 = fs := by
  obtain ⟨fs', hreplaced, hrun⟩ | ⟨f, hrun⟩ := @Call.run_cases fs path c text r h
  · have hagain := replacement_after_replacement hstart hreplaced
    rw [hlook, Option.or_none, hstart, Except.ok.injEq] at hagain
    rw [hrun, hagain]
  · rw [hrun]

/-- Writing fails wherever it would fail on a disk that refuses nothing. -/
theorem run_of_refused {c : Call} {text : String} {e : IoError} {r : Refusals} (hlook : r.fileMode = none)
    (h : c.text? = some text) (hrefused : fs.replacement path none text.toUTF8 = .error e) :
    (c.run path fs r).2 = fs := by
  obtain ⟨fs', hreplaced, -⟩ | ⟨f, hrun⟩ := @Call.run_cases fs path c text r h
  · rw [hlook, hrefused] at hreplaced
    cases hreplaced
  · rw [hrun]

end Run

/-- **Only the last successful write counts.**  Calls in any order, each on a disk with its own refusals,
leave the file system as it was if no write among them succeeds.  Otherwise they leave what the last
successful write alone makes of it on a disk that refuses nothing; but if one of the successful writes could
not look at the mode of what was there, then the last one must not look at it either.

Writing the same once more, after that write or after any write on a disk that refuses nothing, changes
nothing, whether it succeeds or not, as long as it may look at the mode of what is there. -/
theorem after_eq_last_write (path : Path) (fs : FileSystem) (calls : List (Refusals × Call)) :
    (match (successes path fs calls).getLast? with
      | none => after path fs calls = fs
      | some (_, c) =>
        c.run path fs (.ofLook (refusedLook (successes path fs calls))) = (.ok (), after path fs calls) ∧
          (refusedLook (successes path fs calls) = none →
            (c.act path : ExceptT Failure (StateM FileSystem) Unit).run.run fs =
              (.ok (), after path fs calls))) ∧
    (∀ r c, (successes path fs calls).getLast? = some (r, c) → ∀ r' c', r'.fileMode = none →
      c'.text? = c.text? → after path fs (calls ++ [(r', c')]) = after path fs calls) ∧
    ∀ (c : Call) result fs',
      (c.act path : ExceptT Failure (StateM FileSystem) Unit).run.run fs = (result, fs') →
        ∀ r c', r.fileMode = none → c'.text? = c.text? → after path fs' [(r, c')] = fs' := by
  have start : Reached fs path [] fs := rfl
  have reached := start.after calls
  rw [List.nil_append] at reached
  refine ⟨?_, ?_, ?_⟩
  · cases hlast : (successes path fs calls).getLast? with
    | none =>
      rw [Reached, hlast] at reached
      exact reached
    | some last =>
      rw [Reached, hlast] at reached
      obtain ⟨text, htext, hreplaced⟩ := reached
      simp only [Call.run, Call.act_of_text? htext]
      refine ⟨run_ofLook_replace hreplaced, fun hlook => ?_⟩
      rw [hlook] at hreplaced
      rw [← under_none_replace]
      exact run_ofLook_replace hreplaced
  · intro r c hlast r' c' hlook hc'
    rw [Reached, hlast] at reached
    obtain ⟨text, htext, hreplaced⟩ := reached
    rw [after_append]
    exact run_of_replacement hlook (hc'.trans htext) hreplaced
  · intro c result fs' hrun r c' hlook hc'
    cases htext : c.text? with
    | none => exact Call.run_of_text?_eq_none r (hc'.trans htext)
    | some text =>
      rw [Call.act_of_text? htext] at hrun
      obtain ⟨fs₁, hreplaced, hok⟩ | ⟨e, herror, hrefused⟩ := run_replace_cases fs path text
      · cases hok.symm.trans hrun
        exact run_of_replacement hlook (hc'.trans htext) hreplaced
      · cases herror.symm.trans hrun
        exact run_of_refused hlook (hc'.trans htext) hrefused

/-- A file in a lone directory is written, and then the disk is full. -/
theorem after_repeated_write :
    let path : Path := ⟨[100, 47, 102]⟩
    let calls := [(Refusals.none, Call.replace "xy"), (fullDisk, .replace "xyz")]
    refusedLook (successes path loneDirectory calls) = none ∧
      (successes path loneDirectory calls).getLast? = some (.none, .replace "xy") ∧
      after path loneDirectory (calls ++ [(Refusals.none, .replace "xy")]) =
        after path loneDirectory calls := by
  intro path calls
  have hlast : (successes path loneDirectory calls).getLast? = some (.none, .replace "xy") := by
    decide +kernel
  exact ⟨by decide +kernel, hlast, (after_eq_last_write path loneDirectory calls).2.1 _ _ hlast _ _ rfl rfl⟩

end ImageDimensions.Artifact
