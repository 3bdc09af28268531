import ImageDimensions.Proofs.FileSystem.Walks

/-!
# Proofs/FileSystem/Passage — what a walk passes, and where it stops

`Passes` is walking as a relation, one step at a time, with a count of the links that have been followed;
`Stops` says where no further step can be taken, and what comes of it.  `FileSystem.resolve`, which walks
from link to link and is given a number of links that it may follow, finds the place where the walk stops,
unless it has to follow one link more (`resolve_eq_iff`).
-/

namespace ImageDimensions.FileSystem

/-- **What a walk passes.**  It begins at `start` with `steps` to be taken, and comes to a location with some
steps left, after following a number of links. -/
inductive Passes (fs : FileSystem) (start : Location) (steps : List Step) :
    Nat → Location → List Step → Prop
  | here : Passes fs start steps 0 start steps
  | stay {n : Nat} {l : Location} {left : List Step} (h : Passes fs start steps n l (.stay :: left))
      (hl : fs.isOpen l) : Passes fs start steps n l left
  | demand {n : Nat} {l : Location} {left : List Step} (h : Passes fs start steps n l (.demand :: left))
      (hl : fs.isDirectory l) : Passes fs start steps n l left
  | up {n : Nat} {l : Location} {left : List Step} (h : Passes fs start steps n l (.up :: left))
      (hl : fs.isOpen l) : Passes fs start steps n l.tail left
  | into {n : Nat} {l : Location} {left : List Step} {name : List UInt8} {e : Entry}
      (h : Passes fs start steps n l (.into name :: left)) (hl : fs.isOpen l)
      (hname : name.length ≤ Path.nameLimit) (hget : fs.get? (.spelled name :: l) = some e)
      (hlink : ∀ t, e ≠ .link t) : Passes fs start steps n (.spelled name :: l) left
  | follow {n : Nat} {l : Location} {left : List Step} {name : List UInt8} {t : Path}
      (h : Passes fs start steps n l (.into name :: left)) (hl : fs.isOpen l)
      (hname : name.length ≤ Path.nameLimit) (hget : fs.get? (.spelled name :: l) = some (.link t)) :
      Passes fs start steps (n + 1) (startOf t l) (t.steps ++ left)

/-- **Where a walk stops**, and what comes of it: it has arrived, or the next step cannot be taken. -/
inductive Stops (fs : FileSystem) (l : Location) : List Step → Except IoError Location → Prop
  | arrived : Stops fs l [] (.ok l)
  | absent {name : List UInt8} {left : List Step} (hl : fs.isOpen l)
      (hname : name.length ≤ Path.nameLimit) (hget : fs.get? (.spelled name :: l) = none) :
      Stops fs l (.into name :: left) (.error .notFound)
  | longName {name : List UInt8} {left : List Step} (hl : fs.isOpen l)
      (hname : Path.nameLimit < name.length) : Stops fs l (.into name :: left) (.error .invalidFilename)
  | closed {step : Step} {left : List Step} (hdirectory : fs.isDirectory l) (hl : fs.isOpen l = false)
      (hstep : step ≠ .demand) : Stops fs l (step :: left) (.error .permissionDenied)
  | noDirectory {step : Step} {left : List Step} (hl : fs.isDirectory l = false) :
      Stops fs l (step :: left) (.error .notADirectory)

variable {fs : FileSystem} {start l : Location} {steps left : List Step} {name : List UInt8} {n links : Nat}

/-! ## One step -/

theorem resolve_stay (hl : fs.isOpen l) : fs.resolve l (.stay :: left) links = fs.resolve l left links :=
  resolve_congr (by simp only [advance, barrier?_of_isOpen hl])

theorem resolve_demand (hl : fs.isDirectory l) :
    fs.resolve l (.demand :: left) links = fs.resolve l left links :=
  resolve_congr (by simp only [advance, barrier?_demand_eq_none_iff.2 hl])

theorem resolve_up (hl : fs.isOpen l) :
    fs.resolve l (.up :: left) links = fs.resolve l.tail left links :=
  resolve_congr (by simp only [advance, barrier?_of_isOpen hl])

theorem advance_into (hl : fs.isOpen l) (hname : name.length ≤ Path.nameLimit) :
    fs.advance l (.into name :: left) = match fs.get? (.spelled name :: l) with
      | none => .failed .notFound
      | some (.link target) => .link l target left
      | some _ => fs.advance (.spelled name :: l) left := by
  rw [advance, barrier?_of_isOpen hl]
  exact if_neg (Nat.not_lt.2 hname)

theorem resolve_into {e : Entry} (hl : fs.isOpen l) (hname : name.length ≤ Path.nameLimit)
    (hget : fs.get? (.spelled name :: l) = some e) (hlink : ∀ t, e ≠ .link t) :
    fs.resolve l (.into name :: left) links = fs.resolve (.spelled name :: l) left links := by
  refine resolve_congr ?_
  rw [advance_into hl hname, hget]
  cases e with
  | file | directory => rfl
  | link t => exact absurd rfl (hlink t)

theorem advance_into_of_link {t : Path} (hl : fs.isOpen l) (hname : name.length ≤ Path.nameLimit)
    (hget : fs.get? (.spelled name :: l) = some (.link t)) :
    fs.advance l (.into name :: left) = .link l t left := by
  rw [advance_into hl hname, hget]

/-- Where a walk stops, it ends, however many links it might still follow. -/
theorem Stops.resolve_eq {r : Except IoError Location} (h : fs.Stops l left r) :
    fs.resolve l left links = r := by
  cases h with
  | arrived => exact resolve_of_arrived rfl
  | absent hl hname hget => exact resolve_of_failed (by rw [advance_into hl hname, hget])
  | longName hl hname =>
    exact resolve_of_failed (by rw [advance, barrier?_of_isOpen hl]; exact if_pos hname)
  | closed hdirectory hl hstep =>
    exact resolve_of_failed (advance_cons_of_barrier (barrier?_of_closed hdirectory hl hstep) _)
  | noDirectory hl => exact resolve_of_failed (advance_cons_of_barrier (barrier?_of_not_isDirectory hl _) _)

/-! ## Whole walks -/

/-- **A walk goes on from whatever it passes**, with as many links fewer as it has followed. -/
theorem Passes.resolve_eq (h : fs.Passes start steps n l left) (k : Nat) :
    fs.resolve start steps (n + k) = fs.resolve l left k := by
  induction h generalizing k with
  | here => rw [Nat.zero_add]
  | stay _ hl ih => rw [ih, resolve_stay hl]
  | demand _ hl ih => rw [ih, resolve_demand hl]
  | up _ hl ih => rw [ih, resolve_up hl]
  | into _ hl hname hget hlink ih => rw [ih, resolve_into hl hname hget hlink]
  | follow _ hl hname hget ih =>
    rw [Nat.add_assoc, Nat.add_comm 1, ih, resolve_succ_of_link (advance_into_of_link hl hname hget)]

/-- A walk that has to follow more links than it may is in a loop. -/
theorem Passes.resolve_of_lt (h : fs.Passes start steps n l left) (hlt : links < n) :
    fs.resolve start steps links = .error .filesystemLoop := by
  induction h with
  | here => exact absurd hlt (Nat.not_lt_zero _)
  | stay _ _ ih | demand _ _ ih | up _ _ ih | into _ _ _ _ _ ih => exact ih hlt
  | @follow n l left name t h hl hname hget ih =>
    rcases Nat.lt_succ_iff_lt_or_eq.1 hlt with hlt | rfl
    · exact ih hlt
    · have hlink : fs.resolve l (.into name :: left) 0 = .error .filesystemLoop :=
        resolve_zero_of_link (advance_into_of_link hl hname hget)
      rw [← hlink]
      exact h.resolve_eq 0

/-- From whatever it passes, a walk comes to a stop or follows a link. -/
theorem Passes.exists_stops_or_follow (h : fs.Passes start steps n l left) :
    (∃ l' left' r, fs.Passes start steps n l' left' ∧ fs.Stops l' left' r) ∨
      ∃ l' left', fs.Passes start steps (n + 1) l' left' := by
  -- On the steps that are left: one after the other is taken, up to the first link.
  induction left generalizing l with
  | nil => exact .inl ⟨l, [], _, h, .arrived⟩
  | cons step left ih =>
    by_cases hdirectory : fs.isDirectory l
    · by_cases hstep : step = .demand
      · subst hstep
        exact ih (h.demand hdirectory)
      by_cases hl : fs.isOpen l
      · cases step with
        | demand => exact absurd rfl hstep
        | stay => exact ih (h.stay hl)
        | up => exact ih (h.up hl)
        | into name =>
          by_cases hname : name.length ≤ Path.nameLimit
          · cases hget : fs.get? (.spelled name :: l) with
            | none => exact .inl ⟨l, _, _, h, .absent hl hname hget⟩
            | some e =>
              cases e with
              | link t => exact .inr ⟨_, _, h.follow hl hname hget⟩
              | file | directory => exact ih (h.into hl hname hget (by simp))
          · exact .inl ⟨l, _, _, h, .longName hl (Nat.not_le.1 hname)⟩
      · exact .inl ⟨l, _, _, h, .closed hdirectory (Bool.not_eq_true _ ▸ hl) hstep⟩
    · exact .inl ⟨l, _, _, h, .noDirectory (Bool.not_eq_true _ ▸ hdirectory)⟩

/-- From whatever it passes, a walk comes to a stop, or it follows one link more than it may. -/
theorem Passes.exists_stops_or_passes (h : fs.Passes start steps n l left) (k : Nat) :
    (∃ n' ≤ n + k, ∃ l' left' r, fs.Passes start steps n' l' left' ∧ fs.Stops l' left' r) ∨
      ∃ l' left', fs.Passes start steps (n + k + 1) l' left' := by
  -- On the links that may still be followed; what is left to walk may grow with each of them.
  induction k generalizing n l left with
  | zero =>
    obtain ⟨l', left', r, hpass, hstop⟩ | hfollow := h.exists_stops_or_follow
    · exact .inl ⟨n, Nat.le_refl _, l', left', r, hpass, hstop⟩
    · exact .inr hfollow
  | succ k ih =>
    obtain ⟨l', left', r, hpass, hstop⟩ | ⟨l', left', hpass⟩ := h.exists_stops_or_follow
    · exact .inl ⟨n, Nat.le_add_right .., l', left', r, hpass, hstop⟩
    · simpa only [Nat.add_right_comm n 1, Nat.add_assoc] using ih hpass

/-- **A walk ends where it stops**, unless it has to follow more links than it may. -/
theorem resolve_eq_iff {r : Except IoError Location} : fs.resolve start steps links = r ↔
    (∃ n ≤ links, ∃ l left, fs.Passes start steps n l left ∧ fs.Stops l left r) ∨
      (∃ l left, fs.Passes start steps (links + 1) l left) ∧ r = .error .filesystemLoop := by
  have ends {n l left r} (hn : n ≤ links) (hpass : fs.Passes start steps n l left)
      (hstop : fs.Stops l left r) : fs.resolve start steps links = r := by
    rw [← Nat.add_sub_cancel' hn, hpass.resolve_eq, hstop.resolve_eq]
  constructor
  · rintro rfl
    obtain ⟨n, hn, l, left, r, hpass, hstop⟩ | ⟨l, left, hpass⟩ :=
      (Passes.here : fs.Passes start steps 0 start steps).exists_stops_or_passes links
    · rw [Nat.zero_add] at hn
      exact .inl ⟨n, hn, l, left, hpass, ends hn hpass hstop ▸ hstop⟩
    · rw [Nat.zero_add] at hpass
      exact .inr ⟨⟨l, left, hpass⟩, hpass.resolve_of_lt (Nat.lt_succ_self _)⟩
  · rintro (⟨n, hn, l, left, hpass, hstop⟩ | ⟨⟨l, left, hpass⟩, rfl⟩)
    · exact ends hn hpass hstop
    · exact hpass.resolve_of_lt (Nat.lt_succ_self _)

end ImageDimensions.FileSystem
