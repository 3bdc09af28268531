import ImageDimensions.Axis

/-!
# Tables/Basic — which image types exist

`Tables` lists, shape by shape, the layerings and samplings that exist and the extents that are
reported, and for all shapes together the accesses and the scalar types.  Nothing is assumed of the
lists: which tables are fit for generation is decided by `Tables.fault?` (`Tables/Fault`).
-/

namespace ImageDimensions

/-- What is known of one shape. -/
structure ShapeRow where
  shape : Shape
  layerings : List Layering
  samplings : List Sampling
  /-- The names of the dimensions of a single surface, in the order in which they are reported. -/
  extents : List String
deriving DecidableEq, Repr

/-- The values that occur on each axis. -/
structure Tables where
  rows : List ShapeRow
  accesses : List Access
  scalars : List Scalar
deriving DecidableEq, Repr

namespace Tables

/-- The image types of the shader library: volumes are never layered, and only plane images are ever
multisampled. -/
def standard : Tables where
  rows := [
    ⟨.oneD, [.single, .array], [.single], ["width"]⟩,
    ⟨.twoD, [.single, .array], [.single, .multi], ["width", "height"]⟩,
    ⟨.threeD, [.single], [.single], ["width", "height", "depth"]⟩,
    ⟨.cube, [.single, .array], [.single], ["width", "height"]⟩]
  accesses := [.readOnly, .readWrite]
  scalars := [.float, .int, .uint]

/-- The first row for the shape. -/
def row? (t : Tables) (s : Shape) : Option ShapeRow := t.rows.find? (·.shape = s)

end Tables

end ImageDimensions
