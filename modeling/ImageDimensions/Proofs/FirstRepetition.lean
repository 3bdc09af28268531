import Mathlib.Data.List.Nodup
import Mathlib.Order.Bounds.Defs
import ImageDimensions.Proofs.Repetition

/-!
# Proofs/FirstRepetition — the place at which a list first repeats an item

A list repeats at a place if the item there stands at an earlier place too (`RepeatsAt`).  The part before a
place has pairwise distinct items exactly if the list repeats at no place of it (`nodup_take_iff`), so the
least place at which a list repeats is the one whose item stands in the part before it, which repeats
nothing (`isLeast_repeatsAt_iff`).  That is the item at which the search stops.
-/

namespace ImageDimensions

variable {α : Type}

/-- Whether the item at a place stands at an earlier place too. -/
def RepeatsAt (l : List α) (place : Nat) : Prop :=
  ∃ earlier < place, ∃ a, l[earlier]? = some a ∧ l[place]? = some a

variable {l : List α} {a : α} {i j : Nat}

theorem getElem?_take_eq_some_iff : (l.take j)[i]? = some a ↔ i < j ∧ l[i]? = some a := by
  simp [List.getElem?_take, ite_eq_iff]

theorem repeatsAt_iff_mem_take (hj : l[j]? = some a) : RepeatsAt l j ↔ a ∈ l.take j := by
  rw [List.mem_iff_getElem?]
  simp [RepeatsAt, getElem?_take_eq_some_iff, hj]

/-- Before a place it does not matter what stands from there on. -/
theorem repeatsAt_take_iff : RepeatsAt (l.take j) i ↔ i < j ∧ RepeatsAt l i := by
  constructor
  · rintro ⟨k, hki, a, hk, hi⟩
    rw [getElem?_take_eq_some_iff] at hk hi
    exact ⟨hi.1, k, hki, a, hk.2, hi.2⟩
  · rintro ⟨hij, k, hki, a, hk, hi⟩
    exact ⟨k, hki, a, getElem?_take_eq_some_iff.2 ⟨Nat.lt_trans hki hij, hk⟩,
      getElem?_take_eq_some_iff.2 ⟨hij, hi⟩⟩

/-- **Items are pairwise distinct** exactly if there is no place at which one is repeated. -/
theorem nodup_iff_forall_not_repeatsAt : l.Nodup ↔ ∀ i, ¬ RepeatsAt l i := by
  rw [List.nodup_iff_getElem?_ne_getElem?]
  constructor
  · rintro h j ⟨i, hij, a, hi, hj⟩
    obtain ⟨hlt, -⟩ := List.getElem?_eq_some_iff.1 hj
    exact h i j hij hlt (hi.trans hj.symm)
  · intro h i j hij hlt heq
    have hj : l[j]? = some l[j] := List.getElem?_eq_getElem hlt
    exact h j ⟨i, hij, l[j], heq.trans hj, hj⟩

theorem nodup_take_iff : (l.take j).Nodup ↔ ∀ i < j, ¬ RepeatsAt l i := by
  simp only [nodup_iff_forall_not_repeatsAt, repeatsAt_take_iff, not_and]

/-- **The least place at which a list repeats** is the one with an item of the part before it, if that part
repeats nothing. -/
theorem isLeast_repeatsAt_iff (hj : l[j]? = some a) :
    IsLeast {i | RepeatsAt l i} j ↔ a ∈ l.take j ∧ (l.take j).Nodup := by
  rw [← repeatsAt_iff_mem_take hj, nodup_take_iff]
  refine and_congr_right fun _ => ⟨fun h i hij hi => ?_, fun h i hi => ?_⟩
  · exact absurd (h hi) (Nat.not_le.2 hij)
  · exact Nat.not_lt.1 fun hij => h i hij hi

/-- The first item that has been seen before is the one at that place. -/
theorem isFirstRepeated_iff_isLeast :
    IsFirstRepeated l a ↔ ∃ j, l[j]? = some a ∧ IsLeast {i | RepeatsAt l i} j := by
  constructor
  · -- The part before the item is the list up to its place.
    rintro ⟨before, after, rfl, ha, hnd⟩
    have hj : (before ++ a :: after)[before.length]? = some a := by simp
    have hbefore : (before ++ a :: after).take before.length = before := by simp
    refine ⟨before.length, hj, (isLeast_repeatsAt_iff hj).2 ?_⟩
    rw [hbefore]
    exact ⟨ha, hnd⟩
  · rintro ⟨j, hj, hleast⟩
    obtain ⟨hlt, rfl⟩ := List.getElem?_eq_some_iff.1 hj
    refine ⟨l.take j, l.drop (j + 1), ?_, (isLeast_repeatsAt_iff hj).1 hleast⟩
    rw [← List.drop_eq_getElem_cons, List.take_append_drop]

/-- When that place has been read, its item is the one value that has been read twice. -/
theorem two_le_count_take_iff [DecidableEq α] (hj : l[j]? = some a)
    (hleast : IsLeast {i | RepeatsAt l i} j) (b : α) : 2 ≤ (l.take (j + 1)).count b ↔ b = a := by
  obtain ⟨ha, hnd⟩ := (isLeast_repeatsAt_iff hj).1 hleast
  have hread : l.take (j + 1) = l.take j ++ [a] := by rw [List.take_add_one, hj, Option.toList_some]
  rw [hread, List.count_append, hnd.count]
  by_cases hb : b = a
  · simp [hb, ha]
  · have hother : [a].count b = 0 := List.count_eq_zero_of_not_mem (by simpa using hb)
    rw [hother]
    split <;> simp [hb]

/-- **The search names the item at the least place at which the list repeats**, and nothing if the items are
pairwise distinct.  Of several values that are repeated, that is the one which is repeated first, wherever
they begin. -/
theorem firstRepeated?_at_least_place [DecidableEq α] (l : List α) :
    (firstRepeated? l = none ↔ l.Pairwise (· ≠ ·)) ∧
      ∀ a, firstRepeated? l = some a ↔ ∃ j, l[j]? = some a ∧ IsLeast {i | RepeatsAt l i} j ∧
        ∀ b, 2 ≤ (l.take (j + 1)).count b ↔ b = a := by
  refine ⟨firstRepeated?_eq_none_iff, fun a => ?_⟩
  rw [firstRepeated?_eq_some_iff, isFirstRepeated_iff_isLeast]
  refine exists_congr fun j => and_congr_right fun hj => ?_
  exact ⟨fun hleast => ⟨hleast, two_le_count_take_iff hj hleast⟩, fun h => h.1⟩

end ImageDimensions
