/-!
# Axis — the axes along which image types differ

An image type is fixed by its `Shape`, its `Layering`, its `Sampling` and the `Access` to it; a method
reports the dimensions in one `Scalar` type.  Each axis is an enumeration together with the texts and
numbers by which generated code refers to its values.
-/

namespace ImageDimensions

/-- The topology of an image. -/
inductive Shape where
  | oneD
  | twoD
  | threeD
  | cube
deriving DecidableEq, Repr

/-- Whether an image is a single surface or an array of surfaces. -/
inductive Layering where
  | single
  | array
deriving DecidableEq, Repr

/-- Whether a texel holds one sample or several. -/
inductive Sampling where
  | single
  | multi
deriving DecidableEq, Repr

/-- What generated code may do with the image that it looks up. -/
inductive Access where
  | readOnly
  | readWrite
deriving DecidableEq, Repr

/-- The scalar type in which dimensions are reported. -/
inductive Scalar where
  | float
  | int
  | uint
deriving DecidableEq, Repr

namespace Shape

/-- Every shape, in the order in which a table of shapes is checked for gaps. -/
def all : List Shape := [oneD, twoD, threeD, cube]

theorem mem_all (s : Shape) : s ∈ all := by cases s <;> decide

/-- The ending of the shape's tag type, which is also its name in messages. -/
def suffix : Shape → String
  | oneD => "1D"
  | twoD => "2D"
  | threeD => "3D"
  | cube => "Cube"

end Shape

namespace Layering

/-- The value of the generic argument that tells arrays from single surfaces. -/
def flag : Layering → Nat
  | single => 0
  | array => 1

def label : Layering → String
  | single => "Non-array"
  | array => "Array"

end Layering

namespace Sampling

/-- The value of the generic argument that tells multisampled images from others. -/
def flag : Sampling → Nat
  | single => 0
  | multi => 1

def label : Sampling → String
  | single => "Non-MS"
  | multi => "MS"

/-- Whether the image can be asked about one of its mip levels: a multisampled image has exactly one
level, so it is never asked. -/
def hasMipLevels (s : Sampling) : Bool := s ≠ multi

end Sampling

namespace Access

/-- The value of the generic argument for the access. -/
def code : Access → Nat
  | readOnly => 0
  | readWrite => 1

def label : Access → String
  | readOnly => "Read-Only"
  | readWrite => "Read/Write"

/-- The array of descriptors in which an image with this access is looked up. -/
def descriptors : Access → String
  | readOnly => "Images"
  | readWrite => "RWImages"

end Access

/-- The keyword that declares a value of the type, which is also its name in messages. -/
def Scalar.keyword : Scalar → String
  | .float => "float"
  | .int => "int"
  | .uint => "uint"

end ImageDimensions
