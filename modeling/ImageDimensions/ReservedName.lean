/-!
# ReservedName — the parameter names that generated signatures use themselves

Besides the extents of a shape a signature may hold four further values.  Their names are reserved: no
shape may use one of them for an extent, or two parameters of one signature would share it.
-/

namespace ImageDimensions.ReservedName

/-- The number of layers of an array. -/
def elements : String := "elements"

/-- The number of samples of a texel. -/
def sampleCount : String := "sampleCount"

/-- The mip level that is asked about. -/
def mipLevel : String := "mipLevel"

/-- The number of mip levels. -/
def numberOfLevels : String := "numberOfLevels"

/-- The reserved names. -/
def all : List String := [elements, sampleCount, mipLevel, numberOfLevels]

end ImageDimensions.ReservedName
