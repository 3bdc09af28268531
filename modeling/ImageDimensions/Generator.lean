import ImageDimensions.Document
import ImageDimensions.Event
import ImageDimensions.Tables.Fault
import ImageDimensions.Template

/-!
# Generator — generated code, and what it consists of

A `Generator` holds tables without fault.  `Generator.methods` lists the methods that the tables call
for and `Generator.statistics` counts them.  `Generator.blocks` lists the blocks of generated code, each
with the event that announces it, and `Generator.render` is the generated code.
-/

namespace ImageDimensions

/-- Tables without fault. -/
structure Generator where
  tables : Tables
  fault?_tables : tables.fault? = none

/-- One generated method. -/
structure Method where
  combination : Combination
  scalar : Scalar
  overload : Overload
deriving DecidableEq, Repr

/-- The block of one image type. -/
structure Block where
  /-- What is logged when the block is generated. -/
  event : Event
  fragments : List String
deriving DecidableEq, Repr

/-- The block of an image type with methods for the scalar types. -/
def Combination.block (c : Combination) (scalars : List Scalar) : Block where
  event := .emittingBlock c.row.shape.suffix c.layering.flag c.sampling.flag c.access.descriptors
  fragments := Template.block scalars c

namespace Generator

/-- The generator for the tables, unless they have a fault. -/
def ofTables (t : Tables) : Except Fault Generator :=
  match h : t.fault? with
  | none => .ok ⟨t, h⟩
  | some f => .error f

/-- The generator for the image types of the shader library. -/
def standard : Generator := ⟨Tables.standard, by decide +kernel⟩

/-- The image types, each of which gets a block. -/
def combinations (g : Generator) : List Combination := g.tables.combinations

/-- The methods: the image types in order, for each its scalar types, and for each of these its
signatures. -/
def methods (g : Generator) : List Method :=
  g.combinations.flatMap fun c => g.tables.scalars.flatMap fun s => c.overloads.map fun o => ⟨c, s, o⟩

/-- The numbers of blocks and of methods. -/
def statistics (g : Generator) : Statistics where
  blocks := g.combinations.length
  methods := g.methods.length
  mipLevelMethods := g.methods.countP (·.overload.query = .dimensionsAtMipLevel)

/-- The blocks, in the order of the image types. -/
def blocks (g : Generator) : List Block := g.combinations.map (·.block g.tables.scalars)

/-- What is logged while the code is generated. -/
def events (g : Generator) : List Event := g.blocks.map Block.event

/-- The generated code: two lines about the file, then the blocks. -/
def render (g : Generator) : Document :=
  (Document.empty.push Template.fileHeader |>.push Template.moduleDeclaration).extend
    (g.blocks.flatMap Block.fragments)

end Generator

end ImageDimensions
