import ImageDimensions.FileSystem.Lemmas
import ImageDimensions.FileSystem.Resolution

/-!
# Proofs/FileSystem/Walks — how walks are cut in two, and what they depend on

A walk along `s ++ tail` goes on from where the walk along `s` ends, whatever `tail` is.  It looks at nothing
but entries with spelled names and the modes of directories.  A walk whose last step stays where it is needs a
directory to end in.  So it avoids every location that holds a file, and would have ended in the same place
with anything else there.
-/

namespace ImageDimensions

/-- A step that goes nowhere: nothing comes of it but that a directory must be there. -/
def Step.Stays (step : Step) : Prop := step = .stay ∨ step = .demand

namespace FileSystem

variable {fs fs' : FileSystem} {d l target : Location} {step : Step} {s : List Step} {links : Nat}

/-! ## Directories -/

theorem directoryMode?_congr (h : fs'.get? l = fs.get? l) : fs'.directoryMode? l = fs.directoryMode? l := by
  unfold directoryMode?
  rw [h]

theorem isDirectory_congr (h : fs'.directoryMode? l = fs.directoryMode? l) :
    fs'.isDirectory l = fs.isDirectory l := congrArg Option.isSome h

theorem isOpen_congr (h : fs'.directoryMode? l = fs.directoryMode? l) : fs'.isOpen l = fs.isOpen l :=
  congrArg (Option.any Mode.ownerSearches) h

theorem isWritable_congr (h : fs'.directoryMode? l = fs.directoryMode? l) :
    fs'.isWritable l = fs.isWritable l := congrArg (Option.any Mode.ownerWrites) h

theorem directoryMode?_of_get?_file {m : Mode} {c : ByteArray} (h : fs.get? l = some (.file m c)) :
    fs.directoryMode? l = none := by
  unfold directoryMode?
  rw [h]

theorem isDirectory_of_get?_file {m : Mode} {c : ByteArray} (h : fs.get? l = some (.file m c)) :
    fs.isDirectory l = false := by
  rw [isDirectory, directoryMode?_of_get?_file h, Option.isSome_none]

theorem isDirectory_of_isOpen (h : fs.isOpen l) : fs.isDirectory l := by
  obtain ⟨mode, hmode, -⟩ := (Option.any_eq_true ..).1 h
  rw [isDirectory, hmode, Option.isSome_some]

/-! ## What is in the way of a step -/

theorem barrier?_of_not_isDirectory (h : fs.isDirectory l = false) (step : Step) :
    fs.barrier? l step = some .notADirectory := by
  simp only [barrier?, h, Bool.false_eq_true, if_false]

theorem barrier?_of_closed (hl : fs.isDirectory l) (h : fs.isOpen l = false) (hstep : step ≠ .demand) :
    fs.barrier? l step = some .permissionDenied := by
  simp only [barrier?, hl, h, hstep, Bool.false_eq_true, or_self, if_true, if_false]

theorem barrier?_of_isOpen (h : fs.isOpen l) (step : Step) : fs.barrier? l step = none := by
  simp only [barrier?, isDirectory_of_isOpen h, h, or_true, if_true]

theorem barrier?_demand_eq_none_iff : fs.barrier? l .demand = none ↔ fs.isDirectory l := by
  cases h : fs.isDirectory l <;> simp [barrier?, h]

/-- What looks something up in a directory needs one that may be searched. -/
theorem barrier?_eq_none_iff (h : step ≠ .demand) : fs.barrier? l step = none ↔ fs.isOpen l := by
  refine ⟨fun hnone => ?_, fun hopen => barrier?_of_isOpen hopen step⟩
  unfold barrier? at hnone
  split at hnone
  · split at hnone
    · rename_i hor
      exact hor.resolve_left h
    · cases hnone
  · cases hnone

theorem barrier?_congr (h : fs'.directoryMode? l = fs.directoryMode? l) (step : Step) :
    fs'.barrier? l step = fs.barrier? l step := by
  unfold barrier?
  rw [isDirectory_congr h, isOpen_congr h]

theorem advance_cons_of_barrier {e : IoError} (h : fs.barrier? l step = some e) (left : List Step) :
    fs.advance l (step :: left) = .failed e := by
  simp only [advance, h]

/-! ## One halt after the other -/

theorem resolve_of_arrived (h : fs.advance l s = .arrived d) : fs.resolve l s links = .ok d := by
  unfold resolve
  rw [h]

theorem resolve_of_failed {e : IoError} (h : fs.advance l s = .failed e) :
    fs.resolve l s links = .error e := by
  unfold resolve
  rw [h]

theorem resolve_zero_of_link {t : Path} {left : List Step} (h : fs.advance l s = .link d t left) :
    fs.resolve l s 0 = .error .filesystemLoop := by
  unfold resolve
  rw [h]

theorem resolve_succ_of_link {t : Path} {left : List Step} (h : fs.advance l s = .link d t left) :
    fs.resolve l s (links + 1) = fs.resolve (startOf t d) (t.steps ++ left) links := by
  rw [resolve.eq_def, h]

theorem resolve_congr {l' : Location} {s' : List Step} (h : fs.advance l s = fs.advance l' s') :
    fs.resolve l s links = fs.resolve l' s' links := by
  unfold resolve
  rw [h]

/-! ## Walks in two parts -/

theorem advance_append (tail : List Step) :
    ∀ l : Location, fs.advance l (s ++ tail) = match fs.advance l s with
      | .arrived d => fs.advance d tail
      | .link d t left => .link d t (left ++ tail)
      | .failed e => .failed e := by
  induction s with
  | nil => exact fun l => rfl
  | cons step left ih =>
    intro l
    cases hl : fs.barrier? l step with
    | some e => rw [List.cons_append, advance_cons_of_barrier hl, advance_cons_of_barrier hl]
    | none =>
      cases step with
      | stay | demand | up => simp only [List.cons_append, advance, hl, ih]
      | into name =>
        simp only [List.cons_append, advance, hl]
        split
        · rfl
        · split
          · rfl
          · rfl
          · rw [ih]

/-- A last step that stays is still there after a link. -/
theorem exists_concat_of_link {t : Path} {left : List Step} (hstep : step.Stays) (h : fs.advance l (s ++ [step]) = .link d t left) : ∃ left', left = left' ++ [step] := by
  rw [advance_append] at h
  cases hs : fs.advance l s with
  | arrived k =>
    cases hk : fs.barrier? k step with
    | some e =>
      simp only [hs, advance_cons_of_barrier hk] at h
      cases h
    | none =>
      obtain rfl | rfl := hstep <;> simp only [hs, advance, hk] at h <;> cases h
  | failed e =>
    rw [hs] at h
    cases h
  | link k t' left' =>
    rw [hs] at h
    cases h
    exact ⟨left', rfl⟩

/-- A walk fails within its first part, or goes on from the end of it. -/
theorem resolve_append (l : Location) (s : List Step) (links : Nat) :
    (∃ e, ∀ tail, fs.resolve l (s ++ tail) links = .error e) ∨
      ∃ d k, ∀ tail, fs.resolve l (s ++ tail) links = fs.resolve d tail k := by
  fun_induction fs.resolve l s links with
  | case1 links l s d h =>
    refine .inr ⟨d, links, fun tail => resolve_congr ?_⟩
    rw [advance_append, h]
  | case2 links l s e h =>
    refine .inl ⟨e, fun tail => resolve_of_failed ?_⟩
    rw [advance_append, h]
  | case3 l s d t left h =>
    refine .inl ⟨.filesystemLoop, fun tail => ?_⟩
    have : fs.advance l (s ++ tail) = .link d t (left ++ tail) := by rw [advance_append, h]
    exact resolve_zero_of_link this
  | case4 l s d t left links h ih =>
    have step (tail : List Step) : fs.resolve l (s ++ tail) (links + 1) =
        fs.resolve (startOf t d) ((t.steps ++ left) ++ tail) links := by
      rw [List.append_assoc]
      apply resolve_succ_of_link
      rw [advance_append, h]
    simpa only [step] using ih

theorem resolve_nil : fs.resolve l [] links = .ok l := resolve_of_arrived rfl

/-- Every walk that begins like one that succeeds goes on from where that one ends. -/
theorem exists_resolve_append_eq (h : fs.resolve l s links = .ok d) :
    ∃ k, ∀ tail, fs.resolve l (s ++ tail) links = fs.resolve d tail k := by
  obtain ⟨e, he⟩ | ⟨d', k, hk⟩ := @resolve_append fs l s links
  · have hfailed := he []
    rw [List.append_nil, h] at hfailed
    cases hfailed
  · have harrived := hk []
    rw [List.append_nil, h, resolve_nil, Except.ok.injEq] at harrived
    exact ⟨k, harrived ▸ hk⟩

/-- A last step that stays has no other effect than that nothing may be in its way. -/
theorem resolve_concat_eq_ok_iff (hstep : step.Stays) :
    fs.resolve l (s ++ [step]) links = .ok d ↔
      fs.resolve l s links = .ok d ∧ fs.barrier? d step = none := by
  have last (k : Location) (links : Nat) :
      fs.resolve k [step] links = .ok d ↔ k = d ∧ fs.barrier? d step = none := by
    cases hk : fs.barrier? k step with
    | some e =>
      rw [resolve_of_failed (advance_cons_of_barrier hk [])]
      refine ⟨nofun, ?_⟩
      rintro ⟨rfl, hnone⟩
      cases hk.symm.trans hnone
    | none =>
      have hadv : fs.advance k [step] = .arrived k := by
        obtain rfl | rfl := hstep <;> simp only [advance, hk]
      rw [resolve_of_arrived hadv, Except.ok.injEq]
      exact ⟨fun h => ⟨h, h ▸ hk⟩, And.left⟩
  obtain ⟨e, he⟩ | ⟨k, links', hk⟩ := @resolve_append fs l s links
  · have hfailed := he []
    rw [List.append_nil] at hfailed
    simp [he, hfailed]
  · have harrived := hk []
    rw [List.append_nil, resolve_nil] at harrived
    rw [hk, harrived, last, Except.ok.injEq]

/-! ## Walks in two file systems -/

section Congruence

variable (hdir : ∀ l, fs'.directoryMode? l = fs.directoryMode? l)
  (hget : ∀ name d, fs'.get? (.spelled name :: d) = fs.get? (.spelled name :: d))

include hdir hget

theorem advance_eq_of_agree (s : List Step) : ∀ l : Location, fs'.advance l s = fs.advance l s := by
  induction s with
  | nil => exact fun l => rfl
  | cons step left ih =>
    intro l
    cases step with
    | stay | demand | up => simp only [advance, barrier?_congr (hdir l), ih]
    | into name => simp only [advance, barrier?_congr (hdir l), hget, ih]

theorem resolve_eq_of_agree (l : Location) (s : List Step) (links : Nat) :
    fs'.resolve l s links = fs.resolve l s links := by
  have advance_eq (l s) := advance_eq_of_agree hdir hget s l
  fun_induction fs.resolve l s links with
  | case1 links l s d h => exact resolve_of_arrived (by rw [advance_eq, h])
  | case2 links l s e h => exact resolve_of_failed (by rw [advance_eq, h])
  | case3 l s d t left h => exact resolve_zero_of_link (by rw [advance_eq, h])
  | case4 l s d t left links h ih =>
    rw [← ih]
    exact resolve_succ_of_link (by rw [advance_eq, h])

end Congruence

/-! ## Walks past a file -/

section PastFile

variable {m : Mode} {c : ByteArray} (hstep : step.Stays) (hfile : fs'.get? target = some (.file m c))
  (hget : ∀ l, l ≠ target → fs'.get? l = fs.get? l)

include hstep hfile hget

/-- What a walk meets first is the same, or it comes to a halt at the file. -/
theorem advance_past_file (s : List Step) : ∀ l : Location,
    (∃ e, fs'.advance l (s ++ [step]) = .failed e) ∨
      fs'.advance l (s ++ [step]) = fs.advance l (s ++ [step]) := by
  have halt (s : List Step) : fs'.advance target (s ++ [step]) = .failed .notADirectory := by
    have hbarrier := barrier?_of_not_isDirectory (isDirectory_of_get?_file hfile)
    cases s with
    | nil => exact advance_cons_of_barrier (hbarrier step) []
    | cons first left => exact advance_cons_of_barrier (hbarrier first) _
  have hbarrier (l : Location) (hl : l ≠ target) := barrier?_congr (directoryMode?_congr (hget l hl))
  induction s with
  | nil =>
    intro l
    by_cases hl : l = target
    · exact .inl ⟨_, hl ▸ halt []⟩
    · right
      obtain rfl | rfl := hstep <;> simp only [List.nil_append, advance, hbarrier l hl]
  | cons first left ih =>
    intro l
    by_cases hl : l = target
    · exact .inl ⟨_, hl ▸ halt (first :: left)⟩
    cases hfirst : fs.barrier? l first with
    | some e =>
      right
      rw [List.cons_append, advance_cons_of_barrier hfirst,
        advance_cons_of_barrier ((hbarrier l hl first).trans hfirst)]
    | none =>
      cases first with
      | stay | demand => simpa only [List.cons_append, advance, hbarrier l hl, hfirst] using ih l
      | up => simpa only [List.cons_append, advance, hbarrier l hl, hfirst] using ih l.tail
      | into name =>
        simp only [List.cons_append, advance, hbarrier l hl, hfirst]
        split
        · exact .inr rfl
        by_cases hn : .spelled name :: l = target
        · left
          rw [hn, hfile]
          exact ⟨_, halt left⟩
        · rw [hget _ hn]
          split
          · exact .inr rfl
          · exact .inr rfl
          · exact ih _

/-- **A walk whose last step stays passes no file.**  It would have ended in the same place with anything else
in place of the file. -/
theorem resolve_past_file {steps : List Step} (hs : ∃ s, steps = s ++ [step])
    (h : fs'.resolve l steps links = .ok d) : fs.resolve l steps links = .ok d := by
  have advance_eq {l steps halt} (hs : ∃ s, steps = s ++ [step]) (h : fs'.advance l steps = halt)
      (hok : ∀ e, halt ≠ .failed e) : fs.advance l steps = halt := by
    obtain ⟨s, rfl⟩ := hs
    obtain ⟨e, he⟩ | hadv := advance_past_file hstep hfile hget s l
    · exact absurd (h.symm.trans he) (hok e)
    · rw [← hadv, h]
  fun_induction fs'.resolve l steps links with
  | case1 links l steps k hadv =>
    rw [← h]
    exact resolve_of_arrived (advance_eq hs hadv (by simp))
  | case2 links l steps e hadv => cases h
  | case3 l steps k t left hadv => cases h
  | case4 l steps k t left links hadv ih =>
    rw [resolve_succ_of_link (advance_eq hs hadv (by simp))]
    refine ih ?_ h
    obtain ⟨s, rfl⟩ := hs
    obtain ⟨left', rfl⟩ := exists_concat_of_link hstep hadv
    exact ⟨t.steps ++ left', (List.append_assoc ..).symm⟩

end PastFile

end FileSystem

end ImageDimensions
