import Mathlib.Data.List.Nodup
import ImageDimensions.Overload

/-!
# Proofs/Overload — the signatures of an image type

Which signatures an image type has depends on its sampling alone (`map_query_overloads`).  The names in a
signature are the extents and some of the reserved names (`exists_argumentNames_perm`), so that none comes
twice; which parameters are passed in and which are given out depends on what is asked
(`map_direction_of_mem_overloads`).  The signature that asks for the dimensions gives the extents back,
once the layering and the sampling are known.

The names alone tell all that a signature is made from, unless an extent has a reserved name: what is asked,
the layering, the sampling and the extents (`ofNames_argumentNames`).
-/

namespace ImageDimensions

/-- What is asked, in the order in which the signatures of an image type come. -/
def Query.all : List Query := [dimensions, dimensionsAtMipLevel]

/-- What images of a sampling are asked. -/
def Sampling.queries (s : Sampling) : List Query :=
  Query.all.filter fun q => q = .dimensions ∨ s = .single

theorem Sampling.mem_queries {s : Sampling} {q : Query} : q ∈ s.queries ↔
    q = .dimensions ∨ q = .dimensionsAtMipLevel ∧ s = .single := by
  cases s <;> cases q <;> decide

theorem ReservedName.newline_notMem {name : String} (h : name ∈ all) : '\n' ∉ name.toList := by
  revert name
  decide

/-- The directions of the parameters of a signature that asks `q` about an image of which `n` values are
reported. -/
def Query.directions (n : Nat) : Query → List Direction
  | dimensions => List.replicate n .output
  | dimensionsAtMipLevel => .input :: List.replicate (n + 1) .output

theorem Query.output_mem_directions {n : Nat} (q : Query) (hn : 0 < n) : .output ∈ q.directions n := by
  cases q <;> simp [directions, Nat.ne_of_gt hn]

namespace ReservedName

/-- The reserved names, in the order in which they come in a signature. -/
def inOrder : List String := [mipLevel, elements, sampleCount, numberOfLevels]

theorem nodup_inOrder : inOrder.Nodup := by decide

theorem inOrder_subset : inOrder ⊆ all := by decide

end ReservedName

namespace Combination

theorem argumentNames_dimensions (c : Combination) : c.dimensions.argumentNames = c.reportedNames := by
  simp [Overload.argumentNames, dimensions, Parameter.output, Function.comp_def]

theorem argumentNames_dimensionsAtMipLevel (c : Combination) : c.dimensionsAtMipLevel.argumentNames =
    ReservedName.mipLevel :: (c.reportedNames ++ [ReservedName.numberOfLevels]) := by
  simp [Overload.argumentNames, dimensionsAtMipLevel, Parameter.input, Parameter.output,
    Function.comp_def]

/-- **The sampling decides which signatures there are.** -/
theorem map_query_overloads (c : Combination) :
    c.overloads.map Overload.query = c.sampling.queries := by
  rw [overloads]
  cases c.sampling <;> rfl

theorem length_overloads (c : Combination) : c.overloads.length = c.sampling.queries.length := by
  rw [← map_query_overloads, List.length_map]

variable {c c' : Combination} {o : Overload}

theorem eq_of_mem_overloads (ho : o ∈ c.overloads) :
    o = c.dimensions ∨ o = c.dimensionsAtMipLevel := by
  rcases List.mem_cons.1 ho with rfl | ho
  · exact .inl rfl
  · split at ho <;> simp_all

theorem extents_eq_of_reportedNames_eq (hl : c.layering = c'.layering) (hs : c.sampling = c'.sampling)
    (h : c.reportedNames = c'.reportedNames) : c.row.extents = c'.row.extents := by
  rw [reportedNames, reportedNames, ShapeRow.reportedNames, ShapeRow.reportedNames, hl, hs] at h
  exact List.append_cancel_right (List.append_cancel_right h)

theorem reportedNames_eq_of_parameters_eq (h : c.dimensions.parameters = c'.dimensions.parameters) :
    c.reportedNames = c'.reportedNames := by
  rw [← argumentNames_dimensions, ← argumentNames_dimensions]
  exact congrArg (List.map Parameter.name) h

/-! ## Names -/

/-- What is reported besides the extents. -/
theorem exists_reportedNames_eq (c : Combination) : ∃ added : List String,
    added.Sublist [ReservedName.elements, ReservedName.sampleCount] ∧
      c.reportedNames = c.row.extents ++ added := by
  refine ⟨(if c.layering = .array then [ReservedName.elements] else [])
    ++ (if c.sampling = .multi then [ReservedName.sampleCount] else []), ?_, List.append_assoc ..⟩
  cases c.layering <;> cases c.sampling <;> decide

/-- **The names in a signature are the extents and some of the reserved names**, each of these once. -/
theorem exists_argumentNames_perm (ho : o ∈ c.overloads) : ∃ added : List String,
    added.Sublist ReservedName.inOrder ∧ o.argumentNames.Perm (c.row.extents ++ added) := by
  obtain ⟨added, hadded, hreported⟩ := c.exists_reportedNames_eq
  rcases eq_of_mem_overloads ho with rfl | rfl
  · have hlast := hadded.trans (List.sublist_append_left _ [ReservedName.numberOfLevels])
    exact ⟨added, hlast.cons _, by rw [argumentNames_dimensions, hreported]⟩
  · refine ⟨ReservedName.mipLevel :: (added ++ [ReservedName.numberOfLevels]),
      (hadded.append_right _).cons_cons _, ?_⟩
    rw [argumentNames_dimensionsAtMipLevel, hreported, List.append_assoc]
    exact List.perm_middle.symm

theorem name_mem_of_mem_overloads (ho : o ∈ c.overloads) {p : Parameter} (hp : p ∈ o.parameters) :
    p.name ∈ c.row.extents ∨ p.name ∈ ReservedName.all := by
  obtain ⟨added, hadded, hperm⟩ := exists_argumentNames_perm ho
  have hname : p.name ∈ c.row.extents ++ added := hperm.subset (List.mem_map_of_mem hp)
  exact (List.mem_append.1 hname).imp_right fun h => ReservedName.inOrder_subset (hadded.subset h)

/-- **No two parameters of a signature share a name**, if the extents are told apart by theirs and have
none that is reserved. -/
theorem nodup_argumentNames (hextents : c.row.extents.Nodup)
    (hreserved : ∀ name ∈ c.row.extents, name ∉ ReservedName.all) (ho : o ∈ c.overloads) :
    o.argumentNames.Nodup := by
  obtain ⟨added, hadded, hperm⟩ := exists_argumentNames_perm ho
  rw [hperm.nodup_iff]
  exact hextents.append (hadded.nodup ReservedName.nodup_inOrder) fun name hname h =>
    hreserved name hname (ReservedName.inOrder_subset (hadded.subset h))

/-! ## Directions -/

/-- **What is asked, and how much is reported, decide the directions of the parameters.** -/
theorem map_direction_of_mem_overloads (ho : o ∈ c.overloads) :
    o.parameters.map Parameter.direction = o.query.directions c.reportedNames.length := by
  rcases eq_of_mem_overloads ho with rfl | rfl
  · simp [dimensions, Query.directions, Parameter.output, Function.comp_def]
  · simp [dimensionsAtMipLevel, Query.directions, Parameter.input, Parameter.output,
      Function.comp_def, List.replicate_succ']

theorem length_reportedNames_pos (h : c.row.extents ≠ []) : 0 < c.reportedNames.length := by
  obtain ⟨added, -, hreported⟩ := c.exists_reportedNames_eq
  rw [hreported, List.length_append]
  exact Nat.add_pos_left (List.length_pos_of_ne_nil h) _

theorem exists_output (h : c.row.extents ≠ []) (ho : o ∈ c.overloads) :
    ∃ p ∈ o.parameters, p.direction = .output := by
  have houtput := o.query.output_mem_directions (length_reportedNames_pos h)
  rw [← map_direction_of_mem_overloads ho] at houtput
  exact List.mem_map.1 houtput

end Combination

/-! ## What names tell -/

/-- What a signature is made from: what is asked, of which kind of image, with which extents. -/
structure Question where
  query : Query
  layering : Layering
  sampling : Sampling
  extents : List String
deriving DecidableEq, Repr

/-- What the names in a signature say that it is made from: each reserved name stands for one thing, and the
other names are the extents. -/
def Question.ofNames (names : List String) : Question where
  query := if ReservedName.mipLevel ∈ names then .dimensionsAtMipLevel else .dimensions
  layering := if ReservedName.elements ∈ names then .array else .single
  sampling := if ReservedName.sampleCount ∈ names then .multi else .single
  extents := names.filter (· ∉ ReservedName.all)

namespace Combination

variable {c : Combination} {o : Overload} {name : String}

/-- What a signature of the image type is made from. -/
def question (c : Combination) (q : Query) : Question := ⟨q, c.layering, c.sampling, c.row.extents⟩

theorem mem_reportedNames_iff (h : name ∉ c.row.extents) : name ∈ c.reportedNames ↔
    c.layering = .array ∧ name = ReservedName.elements
      ∨ c.sampling = .multi ∧ name = ReservedName.sampleCount := by
  cases hl : c.layering <;> cases hs : c.sampling <;>
    simp [reportedNames, ShapeRow.reportedNames, hl, hs, h]

theorem mem_argumentNames_iff (ho : o ∈ c.overloads) : name ∈ o.argumentNames ↔
    name ∈ c.reportedNames ∨ o.query = .dimensionsAtMipLevel
      ∧ (name = ReservedName.mipLevel ∨ name = ReservedName.numberOfLevels) := by
  rcases eq_of_mem_overloads ho with rfl | rfl
  · have hquery : c.dimensions.query = .dimensions := rfl
    simp [argumentNames_dimensions, hquery]
  · have hquery : c.dimensionsAtMipLevel.query = .dimensionsAtMipLevel := rfl
    simp [argumentNames_dimensionsAtMipLevel, hquery, or_left_comm]

/-- What is left when the reserved names are taken away are the extents. -/
theorem filter_reportedNames (h : ∀ name ∈ c.row.extents, name ∉ ReservedName.all) :
    c.reportedNames.filter (· ∉ ReservedName.all) = c.row.extents := by
  obtain ⟨added, hadded, hreported⟩ := c.exists_reportedNames_eq
  have hreserved : [ReservedName.elements, ReservedName.sampleCount] ⊆ ReservedName.all := by decide
  have hextents : c.row.extents.filter (· ∉ ReservedName.all) = c.row.extents :=
    List.filter_eq_self.2 fun name hname => decide_eq_true (h name hname)
  have hnone : added.filter (· ∉ ReservedName.all) = [] :=
    List.filter_eq_nil_iff.2 fun name hname => by simpa using hreserved (hadded.subset hname)
  rw [hreported, List.filter_append, hextents, hnone, List.append_nil]

theorem filter_argumentNames (h : ∀ name ∈ c.row.extents, name ∉ ReservedName.all)
    (ho : o ∈ c.overloads) : o.argumentNames.filter (· ∉ ReservedName.all) = c.row.extents := by
  rcases eq_of_mem_overloads ho with rfl | rfl
  · rw [argumentNames_dimensions, filter_reportedNames h]
  · have hfirst : ReservedName.mipLevel ∈ ReservedName.all := by decide
    have hlast : ReservedName.numberOfLevels ∈ ReservedName.all := by decide
    rw [argumentNames_dimensionsAtMipLevel, List.filter_cons_of_neg (by simpa using hfirst),
      List.filter_append, filter_reportedNames h, List.filter_cons_of_neg (by simpa using hlast),
      List.filter_nil, List.append_nil]

/-- **The names in a signature tell what it is made from**, unless an extent has a reserved name. -/
theorem ofNames_argumentNames (h : ∀ name ∈ c.row.extents, name ∉ ReservedName.all)
    (ho : o ∈ c.overloads) : Question.ofNames o.argumentNames = c.question o.query := by
  -- A reserved name is no extent, so that it is there for what it stands for.
  have hmem : ∀ name ∈ ReservedName.all, name ∈ o.argumentNames ↔
      (c.layering = .array ∧ name = ReservedName.elements
        ∨ c.sampling = .multi ∧ name = ReservedName.sampleCount)
      ∨ o.query = .dimensionsAtMipLevel
        ∧ (name = ReservedName.mipLevel ∨ name = ReservedName.numberOfLevels) := fun name hname => by
    rw [mem_argumentNames_iff ho, mem_reportedNames_iff fun hextent => h name hextent hname]
  have hquery : ReservedName.mipLevel ∈ o.argumentNames ↔ o.query = .dimensionsAtMipLevel := by
    rw [hmem _ (by decide)]
    simp +decide
  have hlayering : ReservedName.elements ∈ o.argumentNames ↔ c.layering = .array := by
    rw [hmem _ (by decide)]
    simp +decide
  have hsampling : ReservedName.sampleCount ∈ o.argumentNames ↔ c.sampling = .multi := by
    rw [hmem _ (by decide)]
    simp +decide
  rw [Question.ofNames, question, filter_argumentNames h ho]
  simp only [hquery, hlayering, hsampling]
  cases o.query <;> cases c.layering <;> cases c.sampling <;> rfl

end Combination

end ImageDimensions
