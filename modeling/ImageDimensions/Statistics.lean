/-!
# Statistics — how much is generated
-/

namespace ImageDimensions

/-- The numbers of what a generator writes. -/
structure Statistics where
  blocks : Nat
  methods : Nat
  /-- The number of methods that take a mip level. -/
  mipLevelMethods : Nat
deriving DecidableEq, Repr

end ImageDimensions
