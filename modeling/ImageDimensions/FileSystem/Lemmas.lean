import ImageDimensions.FileSystem.Basic

/-!
# FileSystem/Lemmas — what is found where after a change

Setting or erasing an entry changes what is found at its location, and nowhere else.  The serials of drawn
names in use lie below the unused one.
-/

namespace ImageDimensions.FileSystem

variable {fs : FileSystem} {k l : Location} {e : Entry}

theorem get?_of_ne_nil (h : l ≠ []) : fs.get? l = fs.entries.lookup l := by
  cases l with
  | nil => exact absurd rfl h
  | cons n d => rfl

/-! ## Setting -/

theorem lookup_setIn_self (l : Location) (e : Entry) :
    ∀ entries : List (Location × Entry), (setIn l e entries).lookup l = some e
  | [] => by simp [setIn]
  | (k, d) :: rest => by
    by_cases h : k = l
    · simp [setIn, h]
    · have h' : (l == k) = false := by simpa using Ne.symm h
      simp only [setIn, h, if_false, List.lookup_cons, h', lookup_setIn_self l e rest]

theorem lookup_setIn_of_ne (e : Entry) (h : k ≠ l) :
    ∀ entries : List (Location × Entry), (setIn l e entries).lookup k = entries.lookup k
  | [] => by
    have h' : (k == l) = false := by simpa using h
    simp [setIn, List.lookup_cons, h']
  | (j, d) :: rest => by
    by_cases hj : j = l
    · have h' : (k == l) = false := by simpa using h
      simp [setIn, hj, List.lookup_cons, h']
    · simp only [setIn, hj, if_false, List.lookup_cons, lookup_setIn_of_ne e h rest]

theorem get?_set_self (h : l ≠ []) : (fs.set l e).get? l = some e := by
  rw [get?_of_ne_nil h]
  exact lookup_setIn_self l e fs.entries

theorem get?_set_of_ne (h : k ≠ l) : (fs.set l e).get? k = fs.get? k := by
  cases k with
  | nil => rfl
  | cons n d => exact lookup_setIn_of_ne e h fs.entries

/-! ## Erasing -/

theorem get?_erase_self (h : l ≠ []) : (fs.erase l).get? l = none := by
  rw [get?_of_ne_nil h, List.lookup_eq_none_iff]
  intro p hp
  have := (List.mem_filter.1 hp).2
  simpa using Ne.symm (of_decide_eq_true this)

theorem lookup_filter_of_ne (h : k ≠ l) :
    ∀ entries : List (Location × Entry), (entries.filter (·.1 ≠ l)).lookup k = entries.lookup k
  | [] => rfl
  | (j, d) :: rest => by
    by_cases hj : j = l
    · have h' : (k == j) = false := by simpa [hj] using h
      rw [List.filter_cons_of_neg (by simp [hj]), lookup_filter_of_ne h rest, List.lookup_cons, h']
    · rw [List.filter_cons_of_pos (by simp [hj]), List.lookup_cons, List.lookup_cons,
        lookup_filter_of_ne h rest]

theorem get?_erase_of_ne (h : k ≠ l) : (fs.erase l).get? k = fs.get? k := by
  cases k with
  | nil => rfl
  | cons n d => exact lookup_filter_of_ne h fs.entries

/-! ## Drawn names -/

theorem serialBound_le_foldr : ∀ {entries : List (Location × Entry)}, (l, e) ∈ entries →
    serialBound l ≤ entries.foldr (fun p bound => max (serialBound p.1) bound) 0
  | p :: rest, h => by
    rw [List.foldr_cons]
    rcases List.mem_cons.1 h with rfl | h
    · exact Nat.le_max_left ..
    · exact Nat.le_trans (serialBound_le_foldr h) (Nat.le_max_right ..)

/-- The unused serial lies above every serial in use. -/
theorem lt_unusedSerial {n : Nat} {d : Location} (h : (.drawn n :: d, e) ∈ fs.entries) :
    n < fs.unusedSerial :=
  serialBound_le_foldr h

end ImageDimensions.FileSystem
