import ImageDimensions.Tables.Basic

/-!
# Combination — one image type

A `Combination` picks a value on each axis but the scalar type.  `Tables.combinations` lists those that
the tables allow, the last axis varying fastest, whether or not the tables are free of faults.
-/

namespace ImageDimensions

/-- An image type: a shape, with what is known of it, and a value on each further axis. -/
structure Combination where
  row : ShapeRow
  layering : Layering
  sampling : Sampling
  access : Access
deriving DecidableEq, Repr

/-- The combinations of one shape. -/
def ShapeRow.combinations (r : ShapeRow) (accesses : List Access) : List Combination :=
  r.layerings.flatMap fun l => r.samplings.flatMap fun s => accesses.map fun a => ⟨r, l, s, a⟩

/-- All combinations: the rows in order, in each row its layerings, for each of these its samplings, and
for each of these the accesses. -/
def Tables.combinations (t : Tables) : List Combination :=
  t.rows.flatMap (·.combinations t.accesses)

end ImageDimensions
