import ImageDimensions.Proofs.Generator.Blocks

/-!
# Proofs/Generator/Signatures — what a caller can tell apart

A shader calls a method by its name, on an image of some type, with arguments.  All methods have the same
name, so a call is resolved by the image type, which the line that opens a block shows
(`Template.extensionLine_inj`), and by the types of the parameters.  These are enough: of one image type no
two methods have the same types of parameters (`Generator.methods_told_apart`).  What could be mixed up is
the plain method for unsigned values and the one for a mip level, which takes an unsigned value first; the
latter has two parameters more.

Within one signature no name comes twice, and only a mip level is passed in
(`Generator.names_and_directions`).  The names that are passed on in the body of a method leave nothing open
about the call but the shape, the access and the scalar type (`Generator.question_of_argumentNames`).
-/

namespace ImageDimensions

/-! ## Types of parameters -/

/-- What generated code writes before the type of a parameter. -/
def Direction.qualifier : Direction → String
  | input => ""
  | output => "out "

/-- The type of a parameter in generated code, in a method for a scalar type. -/
def Direction.typeName (s : Scalar) : Direction → String
  | input => Scalar.uint.keyword
  | output => s.keyword

/-- The types of the parameters of a method, whether they are passed in or given out. -/
def Method.parameterTypes (m : Method) : List String :=
  m.overload.parameters.map fun p => p.direction.typeName m.scalar

/-- The declaration of a parameter with a type. -/
def Parameter.declaredAs (p : Parameter) (typeName : String) : String :=
  p.direction.qualifier ++ typeName ++ " " ++ p.name

theorem Scalar.keyword_injective : Function.Injective keyword := by
  intro s s'
  cases s <;> cases s' <;> decide

theorem Template.declaration_eq (s : Scalar) (p : Parameter) :
    declaration s p = p.declaredAs (p.direction.typeName s) := by
  have huint : "uint " = "" ++ Scalar.uint.keyword ++ " " := by decide
  cases h : p.direction with
  | input => rw [declaration, Parameter.declaredAs, h, huint, Direction.qualifier, Direction.typeName]
  | output => rw [declaration, Parameter.declaredAs, h, Direction.qualifier, Direction.typeName]

/-- The parameters of a method are declared with their types. -/
theorem Method.map_declaration_eq (m : Method) : m.overload.parameters.map (Template.declaration m.scalar) =
    List.zipWith Parameter.declaredAs m.overload.parameters m.parameterTypes := by
  rw [parameterTypes, List.zipWith_map_right, List.zipWith_self]
  exact List.map_congr_left fun p _ => Template.declaration_eq m.scalar p

variable {s s' : Scalar} {n : Nat}

/-- The number of types shows what is asked, and the types of what is given out show the scalar type. -/
theorem Query.eq_of_map_typeName_eq {q q' : Query} (hn : 0 < n)
    (h : (q.directions n).map (Direction.typeName s) = (q'.directions n).map (Direction.typeName s')) :
    q = q' ∧ s = s' := by
  have hscalar : ∀ {m : Nat}, 0 < m → List.replicate m s.keyword = List.replicate m s'.keyword →
      s = s' := fun hm he =>
    Scalar.keyword_injective ((List.replicate_right_inj (Nat.ne_of_gt hm)).1 he)
  have hlength := congrArg List.length h
  cases q <;> cases q' <;>
    simp only [directions, List.map_cons, List.map_replicate, List.length_cons,
      List.length_replicate, Direction.typeName, List.cons_eq_cons, true_and] at h hlength
  · exact ⟨rfl, hscalar hn h⟩
  · omega
  · omega
  · exact ⟨rfl, hscalar n.succ_pos h⟩

namespace Generator

variable {g : Generator} {c c' : Combination} {m m' : Method}

theorem mem_methods : m ∈ g.methods ↔
    m.combination ∈ g.combinations ∧ m.scalar ∈ g.tables.scalars ∧ m.overload ∈ m.combination.overloads := by
  simp only [methods, List.mem_flatMap, List.mem_map]
  constructor
  · rintro ⟨c, hc, s, hs, o, ho, rfl⟩
    exact ⟨hc, hs, ho⟩
  · rintro ⟨hc, hs, ho⟩
    exact ⟨_, hc, _, hs, _, ho, rfl⟩

theorem row_sound (hc : c ∈ g.combinations) : c.row.Sound :=
  g.sound.rows _ (row_mem_of_mem_combinations hc)

/-- **An image type is its choices on the axes.** -/
theorem eq_of_axes_eq (hc : c ∈ g.combinations) (hc' : c' ∈ g.combinations)
    (h : c.row.shape = c'.row.shape ∧ c.layering = c'.layering ∧ c.sampling = c'.sampling
      ∧ c.access = c'.access) : c = c' := by
  obtain ⟨hshape, hlayering, hsampling, haccess⟩ := h
  have hrow : c.row = c'.row := g.sound.eq_of_shape_eq (row_mem_of_mem_combinations hc)
    (row_mem_of_mem_combinations hc') hshape
  cases c
  cases c'
  simp_all

theorem parameterTypes_eq (hm : m ∈ g.methods) : m.parameterTypes =
    (m.overload.query.directions m.combination.reportedNames.length).map
      (Direction.typeName m.scalar) := by
  rw [← Combination.map_direction_of_mem_overloads (mem_methods.1 hm).2.2, List.map_map]
  rfl

/-- **Of one image type, a method is told by the types of its parameters.** -/
theorem key_eq_of_parameterTypes_eq (hm : m ∈ g.methods) (hm' : m' ∈ g.methods)
    (hc : m.combination = m'.combination) (h : m.parameterTypes = m'.parameterTypes) :
    m.key = m'.key := by
  have hextents := (row_sound (mem_methods.1 hm).1).extents_ne_nil
  rw [parameterTypes_eq hm, parameterTypes_eq hm', ← hc] at h
  obtain ⟨hquery, hscalar⟩ :=
    Query.eq_of_map_typeName_eq (Combination.length_reportedNames_pos hextents) h
  simp only [Method.key, hc, hquery, hscalar]

theorem nodup_map_blockComment (g : Generator) : (g.combinations.map Template.blockComment).Nodup :=
  g.nodup_combinations.map_on fun _ hc _ hc' h => eq_of_axes_eq hc hc' (Template.blockComment_inj h)

/-- **No call is ambiguous**: two methods are for image types that are opened by different lines, or the
types of their parameters differ, even if it is not considered which of them are passed in.  Nor is it
left open for a reader which image type a block is for: no comment above a block comes twice.  The types are
those with which a method declares its parameters. -/
theorem methods_told_apart (g : Generator) :
    (g.methods.Pairwise fun m m' =>
      Template.extensionLine m.combination ≠ Template.extensionLine m'.combination
        ∨ m.parameterTypes ≠ m'.parameterTypes)
      ∧ (g.combinations.map Template.blockComment).Nodup
      ∧ ∀ m : Method, m.overload.parameters.map (Template.declaration m.scalar) =
        List.zipWith Parameter.declaredAs m.overload.parameters m.parameterTypes := by
  refine ⟨(List.pairwise_map.1 nodup_map_key_methods).imp_of_mem fun {m m'} hm hm' hkey => ?_,
    g.nodup_map_blockComment, Method.map_declaration_eq⟩
  by_contra hsame
  obtain ⟨hline, htypes⟩ := not_or.1 hsame
  have hc : m.combination = m'.combination := eq_of_axes_eq (mem_methods.1 hm).1 (mem_methods.1 hm').1
    (Template.extensionLine_inj (not_not.1 hline))
  exact hkey (key_eq_of_parameterTypes_eq hm hm' hc (not_not.1 htypes))

/-! ## Names and directions -/

theorem eq_output_of_map_direction_eq {ps : List Parameter}
    (h : ps.map Parameter.direction = List.replicate n .output) {p : Parameter} (hp : p ∈ ps) :
    p.direction = .output :=
  List.eq_of_mem_replicate (h ▸ List.mem_map_of_mem hp)

/-- **A signature names each of its parameters differently**, takes in the mip level that it asks about,
before all else, and nothing besides, and gives something out. -/
theorem names_and_directions (hm : m ∈ g.methods) :
    m.overload.argumentNames.Nodup
      ∧ (m.overload.query = .dimensionsAtMipLevel → ∃ p rest, m.overload.parameters = p :: rest
        ∧ p.direction = .input ∧ ∀ q ∈ rest, q.direction = .output)
      ∧ (m.overload.query ≠ .dimensionsAtMipLevel → ∀ p ∈ m.overload.parameters, p.direction = .output)
      ∧ ∃ p ∈ m.overload.parameters, p.direction = .output := by
  obtain ⟨hc, -, ho⟩ := mem_methods.1 hm
  have hrow := row_sound hc
  have hdirections := Combination.map_direction_of_mem_overloads ho
  refine ⟨Combination.nodup_argumentNames hrow.nodup_extents hrow.notMem_reserved ho, ?_, ?_,
    Combination.exists_output hrow.extents_ne_nil ho⟩
  · intro hquery
    rw [hquery, Query.directions, List.map_eq_cons_iff] at hdirections
    obtain ⟨p, rest, hparameters, hinput, hrest⟩ := hdirections
    exact ⟨p, rest, hparameters, hinput, fun q hq => eq_output_of_map_direction_eq hrest hq⟩
  · intro hquery p hp
    cases hq : m.overload.query with
    | dimensions =>
      rw [hq, Query.directions] at hdirections
      exact eq_output_of_map_direction_eq hdirections hp
    | dimensionsAtMipLevel => exact absurd hq hquery

/-- Arrays of cubes, as the standard tables have them. -/
def cubeArray : Combination where
  row := ⟨.cube, [.single, .array], [.single], ["width", "height"]⟩
  layering := .array
  sampling := .single
  access := .readWrite

/-- An array of cubes is asked about a mip level. -/
def cubesAtMipLevel : Method := ⟨cubeArray, .uint, cubeArray.dimensionsAtMipLevel⟩

/-- Three kinds of reserved names come in the signature for cubes, each once. -/
theorem names_cubesAtMipLevel : cubesAtMipLevel ∈ standard.methods
    ∧ cubesAtMipLevel.overload.argumentNames.Nodup
    ∧ (∃ p rest, cubesAtMipLevel.overload.parameters = p :: rest ∧ p.direction = .input
      ∧ ∀ q ∈ rest, q.direction = .output)
    ∧ ∃ p ∈ cubesAtMipLevel.overload.parameters, p.direction = .output := by
  have hm : cubesAtMipLevel ∈ standard.methods := by decide +kernel
  obtain ⟨hnames, hinput, -, houtput⟩ := names_and_directions hm
  exact ⟨hm, hnames, hinput rfl, houtput⟩

/-! ## Names alone -/

theorem ofNames_argumentNames (hm : m ∈ g.methods) :
    Question.ofNames m.overload.argumentNames = m.combination.question m.overload.query := by
  obtain ⟨hc, -, ho⟩ := mem_methods.1 hm
  exact Combination.ofNames_argumentNames (row_sound hc).notMem_reserved ho

/-- **The names of its arguments tell what a method asks**: methods with the same names, be it for other
tables, ask the same of the same kind of image, with the same extents in the same order.  All four are read
off the names. -/
theorem question_of_argumentNames {g g' : Generator} {m m' : Method} (hm : m ∈ g.methods)
    (hm' : m' ∈ g'.methods) (h : m.overload.argumentNames = m'.overload.argumentNames) :
    m.overload.query = m'.overload.query
      ∧ m.combination.layering = m'.combination.layering
      ∧ m.combination.sampling = m'.combination.sampling
      ∧ m.combination.row.extents = m'.combination.row.extents
      ∧ Question.ofNames m.overload.argumentNames =
        ⟨m.overload.query, m.combination.layering, m.combination.sampling, m.combination.row.extents⟩ := by
  have hread := ofNames_argumentNames hm
  have hsame : m.combination.question m.overload.query = m'.combination.question m'.overload.query := by
    rw [← hread, ← ofNames_argumentNames hm', h]
  obtain ⟨hquery, hlayering, hsampling, hextents⟩ := Question.mk.inj hsame
  exact ⟨hquery, hlayering, hsampling, hextents, hread⟩

/-- Arrays of planes, as the standard tables have them. -/
def planeArray : Combination where
  row := ⟨.twoD, [.single, .array], [.single, .multi], ["width", "height"]⟩
  layering := .array
  sampling := .single
  access := .readOnly

/-- An array of planes is asked about a mip level. -/
def planesAtMipLevel : Method := ⟨planeArray, .float, planeArray.dimensionsAtMipLevel⟩

/-- Planes of the standard tables are asked in the names in which cubes are asked in tables that differ in
what a plane is. -/
theorem question_planesAtMipLevel : planesAtMipLevel ∈ standard.methods
    ∧ cubesAtMipLevel ∈ joinedExtents.methods
    ∧ planesAtMipLevel.overload.argumentNames = cubesAtMipLevel.overload.argumentNames
    ∧ planesAtMipLevel.combination.row.extents = cubesAtMipLevel.combination.row.extents
    ∧ Question.ofNames planesAtMipLevel.overload.argumentNames =
      ⟨.dimensionsAtMipLevel, .array, .single, ["width", "height"]⟩ := by
  have hplanes : planesAtMipLevel ∈ standard.methods := by decide +kernel
  have hcubes : cubesAtMipLevel ∈ joinedExtents.methods := by decide +kernel
  have hnames : planesAtMipLevel.overload.argumentNames = cubesAtMipLevel.overload.argumentNames := rfl
  obtain ⟨-, -, -, hextents, hread⟩ := question_of_argumentNames hplanes hcubes hnames
  exact ⟨hplanes, hcubes, hnames, hextents, hread⟩

end Generator

end ImageDimensions
