import Mathlib.Algebra.Order.BigOperators.Group.List
import Mathlib.Algebra.Order.Ring.Nat
import Mathlib.Data.Fintype.Card
import ImageDimensions.Proofs.Generator.Counts

/-!
# Proofs/Generator/Bounds — how much can be generated at most

Sound tables have one row for each shape (`Tables.Sound.shapes_perm_all`), and no list in them is longer
than there are values on its axis.  So the numbers that `Generator.statistics` gives lie between fixed
bounds, whatever the names are and however many extents a shape has (`Generator.bounded_by_tables`), and a
machine word is more than enough to count in.

Both ends are reached: by tables that list everything, and by tables that list one value on each axis and
sample every image several times.
-/

namespace ImageDimensions

/-! ## Rows -/

namespace Tables.Sound

variable {t : Tables} (h : t.Sound)
include h

/-- **The rows are one for each shape.** -/
theorem shapes_perm_all : (t.rows.map ShapeRow.shape).Perm Shape.all := by
  refine (List.perm_ext_iff_of_nodup h.nodup_shapes (by decide)).2 fun s => ?_
  obtain ⟨r, hr, rfl⟩ := h.exists_row s
  exact iff_of_true (List.mem_map_of_mem hr) (Shape.mem_all _)

theorem length_rows : t.rows.length = 4 := by
  rw [← List.length_map ShapeRow.shape, h.shapes_perm_all.length_eq]
  rfl

/-- The row that is found for a shape is the only one that has it. -/
theorem exists_filter_rows_eq (s : Shape) :
    ∃ r, t.row? s = some r ∧ t.rows.filter (·.shape = s) = [r] := by
  obtain ⟨r, hr, hs⟩ := h.exists_row s
  have hnodup : (t.rows.filter (·.shape = s)).Nodup := (List.Nodup.of_map _ h.nodup_shapes).filter _
  refine ⟨r, h.row?_eq_some_iff.2 ⟨hr, hs⟩, List.perm_singleton.1 ?_⟩
  refine (List.perm_ext_iff_of_nodup hnodup (List.nodup_singleton r)).2 fun r' => ?_
  rw [List.mem_filter, List.mem_singleton, decide_eq_true_eq]
  constructor
  · rintro ⟨hr', hs'⟩
    exact h.eq_of_shape_eq hr' hr (hs'.trans hs.symm)
  · rintro rfl
    exact ⟨hr, hs⟩

end Tables.Sound

/-! ## Axes -/

instance : Fintype Layering := ⟨{.single, .array}, fun l => by cases l <;> decide⟩

instance : Fintype Sampling := ⟨{.single, .multi}, fun s => by cases s <;> decide⟩

instance : Fintype Access := ⟨{.readOnly, .readWrite}, fun a => by cases a <;> decide⟩

instance : Fintype Scalar := ⟨{.float, .int, .uint}, fun s => by cases s <;> decide⟩

namespace ShapeRow.Sound

variable {r : ShapeRow} (h : r.Sound)
include h

theorem length_layerings_le : r.layerings.length ≤ 2 := h.nodup_layerings.length_le_card

theorem length_samplings_le : r.samplings.length ≤ 2 := h.nodup_samplings.length_le_card

/-- A row has at least one kind of image, and at most four. -/
theorem kinds_bounded : 1 ≤ r.layerings.length * r.samplings.length ∧
    r.layerings.length * r.samplings.length ≤ 4 := by
  have hlayerings := List.length_pos_of_ne_nil h.layerings_ne_nil
  have hsamplings := List.length_pos_of_ne_nil h.samplings_ne_nil
  exact ⟨Nat.mul_pos hlayerings hsamplings, Nat.mul_le_mul h.length_layerings_le h.length_samplings_le⟩

/-- At most two kinds are sampled once: a sampling is not listed twice. -/
theorem singles_le : r.layerings.length * r.samplings.count .single ≤ 2 :=
  Nat.mul_le_mul h.length_layerings_le (List.nodup_iff_count_le_one.1 h.nodup_samplings .single)

end ShapeRow.Sound

namespace Tables.Sound

variable {t : Tables} (h : t.Sound)
include h

theorem length_accesses_bounded : 1 ≤ t.accesses.length ∧ t.accesses.length ≤ 2 :=
  ⟨List.length_pos_of_ne_nil h.accesses_ne_nil, h.nodup_accesses.length_le_card⟩

theorem length_scalars_bounded : 1 ≤ t.scalars.length ∧ t.scalars.length ≤ 3 :=
  ⟨List.length_pos_of_ne_nil h.scalars_ne_nil, h.nodup_scalars.length_le_card⟩

/-- What every row has at most, the rows together have at most four times. -/
theorem sum_rows_le {f : ShapeRow → Nat} {n : Nat} (hf : ∀ r, r.Sound → f r ≤ n) :
    (t.rows.map f).sum ≤ 4 * n := by
  have hsum := List.sum_le_card_nsmul (t.rows.map f) n fun x hx => by
    obtain ⟨r, hr, rfl⟩ := List.mem_map.1 hx
    exact hf r (h.rows r hr)
  rwa [List.length_map, h.length_rows, Nat.nsmul_eq_mul] at hsum

theorem le_sum_rows {f : ShapeRow → Nat} {n : Nat} (hf : ∀ r, r.Sound → n ≤ f r) :
    4 * n ≤ (t.rows.map f).sum := by
  have hsum := List.card_nsmul_le_sum (t.rows.map f) n fun x hx => by
    obtain ⟨r, hr, rfl⟩ := List.mem_map.1 hx
    exact hf r (h.rows r hr)
  rwa [List.length_map, h.length_rows, Nat.nsmul_eq_mul] at hsum

end Tables.Sound

/-! ## Statistics -/

namespace Generator

variable (g : Generator)

theorem blocks_bounded : 4 ≤ g.statistics.blocks ∧ g.statistics.blocks ≤ 32 := by
  obtain ⟨haccess, haccess'⟩ := g.sound.length_accesses_bounded
  rw [blocks_eq]
  exact ⟨Nat.mul_le_mul haccess (g.sound.le_sum_rows fun r hr => hr.kinds_bounded.1),
    Nat.mul_le_mul haccess' (g.sound.sum_rows_le fun r hr => hr.kinds_bounded.2)⟩

theorem mipLevelMethods_le : g.statistics.mipLevelMethods ≤ 48 := by
  rw [mipLevelMethods_eq]
  exact Nat.mul_le_mul g.sound.length_scalars_bounded.2 (Nat.mul_le_mul
    g.sound.length_accesses_bounded.2 (g.sound.sum_rows_le fun r hr => hr.singles_le))

theorem methods_bounded : 4 ≤ g.statistics.methods ∧ g.statistics.methods ≤ 144 := by
  obtain ⟨hblocks, hblocks'⟩ := g.blocks_bounded
  obtain ⟨hscalar, hscalar'⟩ := g.sound.length_scalars_bounded
  rw [methods_eq]
  constructor
  · calc 4 ≤ g.tables.scalars.length * g.statistics.blocks := Nat.mul_le_mul hscalar hblocks
      _ ≤ _ := Nat.le_add_right _ _
  · exact Nat.add_le_add (Nat.mul_le_mul hscalar' hblocks') g.mipLevelMethods_le

end Generator

/-! ## Counting in machine words -/

section Word

variable {α : Type}

/-- How many items have the property, counted one by one in a machine word, which starts again at 0 when it
overflows. -/
def countInWord (p : α → Bool) (l : List α) : USize :=
  l.foldl (fun n a => if p a then n + 1 else n) 0

theorem foldl_count_eq (p : α → Bool) : ∀ (l : List α) (n : USize),
    l.foldl (fun n a => if p a then n + 1 else n) n = n + .ofNat (l.countP p)
  | [], n => (USize.add_zero n).symm
  | a :: l, n => by
    rw [List.foldl_cons, foldl_count_eq p l, List.countP_cons]
    split
    · rw [Nat.add_comm, USize.ofNat_add, ← USize.add_assoc]
      rfl
    · rw [Nat.add_zero]

/-- **A word counts right** as long as there is less to be counted than it can hold. -/
theorem toNat_countInWord {p : α → Bool} {l : List α} (h : l.countP p < USize.size) :
    (countInWord p l).toNat = l.countP p := by
  rw [countInWord, foldl_count_eq, USize.zero_add, USize.toNat_ofNat_of_lt' h]

end Word

namespace Generator

/-- The statistics can be counted in machine words. -/
theorem counted_in_words (g : Generator) :
    (countInWord (fun _ => true) g.combinations).toNat = g.statistics.blocks ∧
    (countInWord (fun _ => true) g.methods).toNat = g.statistics.methods ∧
    (countInWord (·.overload.query = .dimensionsAtMipLevel) g.methods).toNat =
      g.statistics.mipLevelMethods := by
  have hword : 144 < USize.size := Nat.lt_of_lt_of_le (by decide) USize.le_size
  have fits {n bound : Nat} (hn : n ≤ bound) (hbound : bound ≤ 144) : n < USize.size :=
    Nat.lt_of_le_of_lt (Nat.le_trans hn hbound) hword
  have hblocks : g.combinations.countP (fun _ => true) = g.statistics.blocks := congrFun List.countP_true _
  have hmethods : g.methods.countP (fun _ => true) = g.statistics.methods := congrFun List.countP_true _
  refine ⟨?_, ?_, ?_⟩
  · rw [toNat_countInWord (hblocks ▸ fits g.blocks_bounded.2 (by decide)), hblocks]
  · rw [toNat_countInWord (hmethods ▸ fits g.methods_bounded.2 (by decide)), hmethods]
  · exact toNat_countInWord (fits g.mipLevelMethods_le (by decide))

/-- **Sound tables bound whatever is made of them.**  Their rows are one for each shape, so that the row of
a shape is found, is the only one, and is that of every image type of the shape.  There are at least 4 and at
most 32 blocks, at least 4 and at most 144 methods, and at most 48 methods for a mip level.  Counting them in
machine words gives the same numbers. -/
theorem bounded_by_tables (g : Generator) :
    (g.tables.rows.map ShapeRow.shape).Perm Shape.all ∧
    (∀ s, ∃ r, g.tables.row? s = some r ∧ g.tables.rows.filter (·.shape = s) = [r]) ∧
    (∀ c ∈ g.combinations, g.tables.row? c.row.shape = some c.row) ∧
    (4 ≤ g.statistics.blocks ∧ g.statistics.blocks ≤ 32) ∧
    (4 ≤ g.statistics.methods ∧ g.statistics.methods ≤ 144) ∧
    g.statistics.mipLevelMethods ≤ 48 ∧
    (countInWord (fun _ => true) g.combinations).toNat = g.statistics.blocks ∧
    (countInWord (fun _ => true) g.methods).toNat = g.statistics.methods ∧
    (countInWord (·.overload.query = .dimensionsAtMipLevel) g.methods).toNat =
      g.statistics.mipLevelMethods := by
  refine ⟨g.sound.shapes_perm_all, g.sound.exists_filter_rows_eq, fun c hc => ?_, g.blocks_bounded,
    g.methods_bounded, g.mipLevelMethods_le, g.counted_in_words⟩
  exact g.sound.row?_eq_some_iff.2 ⟨row_mem_of_mem_combinations hc, rfl⟩

/-- Tables that list the same for every shape. -/
def uniform (layerings : List Layering) (samplings : List Sampling) (accesses : List Access)
    (scalars : List Scalar) : Tables where
  rows := Shape.all.map fun s => ⟨s, layerings, samplings, ["width"]⟩
  accesses := accesses
  scalars := scalars

/-- The generator for as much as there is. -/
def fullest : Generator where
  tables := uniform [.single, .array] [.single, .multi] [.readOnly, .readWrite] [.float, .int, .uint]
  fault?_tables := by decide +kernel

/-- A generator for as little as there can be. -/
def leanest : Generator where
  tables := uniform [.single] [.multi] [.readWrite] [.uint]
  fault?_tables := by decide +kernel

/-- The bounds are reached, and every image type has the row of its shape. -/
theorem bounds_reached :
    fullest.statistics = ⟨32, 144, 48⟩ ∧ leanest.statistics = ⟨4, 4, 0⟩ ∧
      ∃ c ∈ leanest.combinations, c.row.shape = .cube ∧ leanest.tables.row? .cube = some c.row := by
  have hmem : ⟨⟨.cube, [.single], [.multi], ["width"]⟩, .single, .multi, .readWrite⟩ ∈
    leanest.combinations := by decide +kernel
  obtain ⟨-, -, hrow, -⟩ := bounded_by_tables leanest
  exact ⟨by decide +kernel, by decide +kernel, _, hmem, rfl, hrow _ hmem⟩

end Generator

end ImageDimensions
