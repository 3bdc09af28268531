import Mathlib.Data.List.Nodup
import Mathlib.Tactic.MkIffOfInductiveProp
import ImageDimensions.Generator
import ImageDimensions.Proofs.Repetition

/-!
# Proofs/Tables/Sound — tables without fault

`Tables.Sound` says what tables without fault are like, list by list, without a word on the order in
which the lists are looked at; `Tables.fault?_eq_none_iff` says that `Tables.fault?` looks at all of it.
A generator holds such tables (`Generator.sound`).

In sound tables the row of a shape is *the* row that has it (`Tables.Sound.row?_eq_some_iff`), and rows are
told apart by their shapes (`Tables.Sound.eq_of_shape_eq`).
-/

namespace ImageDimensions

/-- What the row of a shape is like when nothing is wrong with it. -/
@[mk_iff]
structure ShapeRow.Sound (r : ShapeRow) : Prop where
  layerings_ne_nil : r.layerings ≠ []
  nodup_layerings : r.layerings.Nodup
  samplings_ne_nil : r.samplings ≠ []
  nodup_samplings : r.samplings.Nodup
  extents_ne_nil : r.extents ≠ []
  nodup_extents : r.extents.Nodup
  notMem_reserved : ∀ name ∈ r.extents, name ∉ ReservedName.all

/-- What tables are like when nothing is wrong with them. -/
@[mk_iff]
structure Tables.Sound (t : Tables) : Prop where
  nodup_shapes : (t.rows.map ShapeRow.shape).Nodup
  exists_row : ∀ s, ∃ r ∈ t.rows, r.shape = s
  rows : ∀ r ∈ t.rows, r.Sound
  accesses_ne_nil : t.accesses ≠ []
  nodup_accesses : t.accesses.Nodup
  scalars_ne_nil : t.scalars ≠ []
  nodup_scalars : t.scalars.Nodup

theorem faultOfEmpty?_eq_none_iff {α φ : Type} {l : List α} {f : φ} :
    faultOfEmpty? l f = none ↔ l ≠ [] := by cases l <;> simp [faultOfEmpty?]

namespace ShapeRow

theorem fault?_eq_none_iff {r : ShapeRow} : r.fault? = none ↔ r.Sound := by
  simp only [fault?, Option.or_eq_none_iff, Option.map_eq_none_iff, faultOfEmpty?_eq_none_iff,
    firstRepeated?_eq_none_iff, List.find?_eq_none, decide_eq_true_eq, sound_iff]

end ShapeRow

namespace Tables

variable {t : Tables} {r r' : ShapeRow} {s : Shape}

theorem row?_eq_none_iff : t.row? s = none ↔ ¬ ∃ r ∈ t.rows, r.shape = s := by
  simp [row?, List.find?_eq_none]

/-- **Nothing is wrong with tables exactly if they are sound.** -/
theorem fault?_eq_none_iff : t.fault? = none ↔ t.Sound := by
  have hall : ∀ p : Shape → Prop, (∀ s ∈ Shape.all, p s) ↔ ∀ s, p s := fun p =>
    ⟨fun h s => h s (Shape.mem_all s), fun h s _ => h s⟩
  simp only [fault?, Option.or_eq_none_iff, Option.map_eq_none_iff, faultOfEmpty?_eq_none_iff,
    firstRepeated?_eq_none_iff, List.find?_eq_none, List.findSome?_eq_none_iff,
    ShapeRow.fault?_eq_none_iff, Option.isNone_iff_eq_none, row?_eq_none_iff, not_not, hall, sound_iff]

namespace Sound

/-- A shape has one row only. -/
theorem eq_of_shape_eq (h : t.Sound) (hr : r ∈ t.rows) (hr' : r' ∈ t.rows)
    (hs : r.shape = r'.shape) : r = r' :=
  List.inj_on_of_nodup_map h.nodup_shapes hr hr' hs

/-- **The row that is found for a shape is the row that has it.** -/
theorem row?_eq_some_iff (h : t.Sound) : t.row? s = some r ↔ r ∈ t.rows ∧ r.shape = s := by
  constructor
  · intro hrow
    exact ⟨List.mem_of_find?_eq_some hrow, by simpa using List.find?_some hrow⟩
  · rintro ⟨hr, rfl⟩
    cases hrow : t.row? r.shape with
    | none => exact absurd ⟨r, hr, rfl⟩ (row?_eq_none_iff.1 hrow)
    | some r' =>
      have hs : r'.shape = r.shape := by simpa using List.find?_some hrow
      rw [h.eq_of_shape_eq (List.mem_of_find?_eq_some hrow) hr hs]

theorem rows_ne_nil (h : t.Sound) : t.rows ≠ [] := by
  obtain ⟨r, hr, -⟩ := h.exists_row .oneD
  exact List.ne_nil_of_mem hr

end Sound

end Tables

namespace Generator

theorem sound (g : Generator) : g.tables.Sound := Tables.fault?_eq_none_iff.1 g.fault?_tables

end Generator

end ImageDimensions
