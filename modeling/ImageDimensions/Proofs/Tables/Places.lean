import Mathlib.Algebra.BigOperators.Group.List.Basic
import Mathlib.Algebra.Order.Ring.Nat
import ImageDimensions.Combination

/-!
# Proofs/Tables/Places — where a combination stands in the list

    rows before it ──▸ layering ──▸ sampling ──▸ access

The index of a combination is a number whose digits are its places on the axes, the last axis counting
least.  How many values a digit has depends on the row, so that what the rows before it hold is added up
(`Tables.combinations_by_place`).  Nothing is assumed of the tables: lists may be empty or repeat items, and
shapes may have several rows or none.

It is proved one axis at a time.  What is listed for an item stands behind what is listed for the items
before it (`getElem?_flatMap_behind`), which is a product where every item has equally much listed for it
(`getElem?_flatMap_mul_add`).
-/

namespace ImageDimensions

/-! ## Indices in lists of lists -/

section Axis

variable {α β : Type} {l : List α} {f : α → List β}

/-- **One axis**: what is listed for an item stands behind what is listed for the items before it. -/
theorem getElem?_flatMap_behind (i : Fin l.length) {j : Nat} (hj : j < (f l[i]).length) :
    (l.flatMap f)[((l.take i).map fun a => (f a).length).sum + j]? = (f l[i])[j]? := by
  have hbefore : (l.take i).map (fun a => (f a).length) = ((l.map f).map List.length).take i := by
    rw [List.map_map, List.map_take]
    rfl
  have hbehind : (l.map f).drop i = f l[i] :: (l.map f).drop (i + 1) := by
    rw [List.drop_eq_getElem_cons (by simp), List.getElem_map]
    rfl
  rw [← List.getElem?_drop, hbefore, List.flatMap_def, List.drop_sum_flatten, hbehind,
    List.flatten_cons, List.getElem?_append_left hj]

/-- What is listed for an item, where equally much is listed for every item. -/
theorem getElem?_flatMap_mul_add {k : Nat} (hk : ∀ a, (f a).length = k) (i : Fin l.length) (j : Fin k) :
    (l.flatMap f)[i * k + j]? = (f l[i])[(j : Nat)]? := by
  have hbefore : ((l.take i).map fun a => (f a).length).sum = i * k := by
    simp only [hk, List.map_const', List.sum_replicate_nat, List.length_take]
    rw [Nat.min_eq_left (Nat.le_of_lt i.isLt)]
  rw [← getElem?_flatMap_behind i (by rw [hk]; exact j.isLt), hbefore]

end Axis

/-! ## Combinations -/

namespace ShapeRow

variable (r : ShapeRow) (accesses : List Access)

theorem length_combinations : (r.combinations accesses).length =
    r.layerings.length * r.samplings.length * accesses.length := by
  simp only [combinations, List.length_flatMap, List.length_map, List.map_const',
    List.sum_replicate_nat, Nat.mul_assoc]

/-- The combinations of a row, by their places on its two axes and among the accesses. -/
theorem getElem?_combinations (a : Fin r.layerings.length) (m : Fin r.samplings.length)
    (c : Fin accesses.length) :
    (r.combinations accesses)[(a * r.samplings.length + m) * accesses.length + c]? =
      some ⟨r, r.layerings[a], r.samplings[m], accesses[c]⟩ := by
  have hinner : m * accesses.length + c < r.samplings.length * accesses.length := by
    calc m * accesses.length + c
        < m * accesses.length + accesses.length := Nat.add_lt_add_left c.isLt _
      _ = (m + 1) * accesses.length := (Nat.succ_mul _ _).symm
      _ ≤ r.samplings.length * accesses.length := Nat.mul_le_mul_right _ m.isLt
  have hindex : (a * r.samplings.length + m) * accesses.length + c =
      a * (r.samplings.length * accesses.length) + (m * accesses.length + c) := by
    rw [Nat.add_mul, Nat.mul_assoc, Nat.add_assoc]
  rw [hindex, combinations]
  rw [getElem?_flatMap_mul_add (fun l => by simp [List.length_flatMap]) a ⟨_, hinner⟩]
  rw [getElem?_flatMap_mul_add (fun s => List.length_map _) m c]
  simp

end ShapeRow

/-- **A combination stands where its places on the axes say.**  There are as many combinations as the
lengths of the lists say, row by row.  Behind those of the rows before it, the combination of a row with its
`a`-th layering, its `m`-th sampling and the `c`-th access is the one at the index with the digits `a`, `m`
and `c`. -/
theorem Tables.combinations_by_place (t : Tables) :
    t.combinations.length = (t.rows.map fun r =>
        r.layerings.length * r.samplings.length * t.accesses.length).sum ∧
      ∀ (i : Fin t.rows.length) (a : Fin t.rows[i].layerings.length)
        (m : Fin t.rows[i].samplings.length) (c : Fin t.accesses.length),
        t.combinations[((t.rows.take i).map fun r =>
            r.layerings.length * r.samplings.length * t.accesses.length).sum
          + (a * t.rows[i].samplings.length + m) * t.accesses.length + c]? =
        some ⟨t.rows[i], t.rows[i].layerings[a], t.rows[i].samplings[m], t.accesses[c]⟩ := by
  constructor
  · simp only [combinations, List.length_flatMap, ShapeRow.length_combinations]
  · intro i a m c
    have hrow := t.rows[i].getElem?_combinations t.accesses a m c
    have hbound := (List.getElem?_eq_some_iff.1 hrow).1
    have hbehind := getElem?_flatMap_behind (f := (·.combinations t.accesses)) i hbound
    simp only [ShapeRow.length_combinations, ← Nat.add_assoc] at hbehind
    exact hbehind.trans hrow

/-- Behind the four combinations of the first row stand those of the second, here with the digits 1, 0
and 1. -/
example : Tables.standard.combinations[4 + (1 * 2 + 0) * 2 + 1]?.map
    (fun c : Combination => (c.row.shape, c.layering, c.sampling, c.access)) =
      some (Shape.twoD, Layering.array, Sampling.single, Access.readWrite) := by decide +kernel

end ImageDimensions
