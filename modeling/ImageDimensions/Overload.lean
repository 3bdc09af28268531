import ImageDimensions.Combination
import ImageDimensions.ReservedName

/-!
# Overload — the signatures that an image type gets

Every image type can be asked for its dimensions.  One with mip levels can also be asked for the
dimensions of a level, which takes the level in and gives the number of levels out.
-/

namespace ImageDimensions

/-- Whether a parameter is passed in or given out. -/
inductive Direction where
  | input
  | output
deriving DecidableEq, Repr

/-- A parameter of a signature. -/
structure Parameter where
  name : String
  direction : Direction
deriving DecidableEq, Repr

/-- What a method is asked. -/
inductive Query where
  | dimensions
  | dimensionsAtMipLevel
deriving DecidableEq, Repr

/-- One of the signatures of an image type. -/
structure Overload where
  query : Query
  parameters : List Parameter
deriving DecidableEq, Repr

namespace Parameter

def input (name : String) : Parameter := ⟨name, .input⟩

def output (name : String) : Parameter := ⟨name, .output⟩

end Parameter

/-- The names of the parameters in order, which are also the arguments of the call in the body. -/
def Overload.argumentNames (o : Overload) : List String := o.parameters.map Parameter.name

/-- The names of the values that are reported of every image of the kind: the extents, for an array the
number of its layers, and for a multisampled image the number of its samples. -/
def ShapeRow.reportedNames (r : ShapeRow) (l : Layering) (s : Sampling) : List String :=
  r.extents ++ (if l = .array then [ReservedName.elements] else [])
    ++ (if s = .multi then [ReservedName.sampleCount] else [])

namespace Combination

/-- The names of the values that are reported of every image of the type. -/
def reportedNames (c : Combination) : List String := c.row.reportedNames c.layering c.sampling

/-- The signature that asks for the dimensions. -/
def dimensions (c : Combination) : Overload where
  query := .dimensions
  parameters := c.reportedNames.map .output

/-- The signature that asks for the dimensions of one mip level. -/
def dimensionsAtMipLevel (c : Combination) : Overload where
  query := .dimensionsAtMipLevel
  parameters := .input ReservedName.mipLevel ::
    (c.reportedNames.map .output ++ [.output ReservedName.numberOfLevels])

/-- The signatures of the type, the plain one first. -/
def overloads (c : Combination) : List Overload :=
  c.dimensions :: if c.sampling.hasMipLevels then [c.dimensionsAtMipLevel] else []

end Combination

end ImageDimensions
