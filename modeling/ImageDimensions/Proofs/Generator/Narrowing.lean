import ImageDimensions.Proofs.Generator.Relisting
import ImageDimensions.Proofs.Generator.Rendering

/-!
# Proofs/Generator/Narrowing — fewer values listed, less generated

    tables ──enumerate──▸ image types
      │ narrow              │ filter
      ▾                     ▾
    tables ──enumerate──▸ image types

A `Selection` says which of the listed values are kept.  Narrowing tables to it and then enumerating is
enumerating and then filtering (`Tables.combinations_narrow`): the order stays, and an image type that is kept
differs only in what else the row of its shape lists, which shows nowhere in its methods or its block.  So
the methods are filtered too, and whole blocks are dropped (`Generator.narrow_filters`).

The square commutes axis by axis (`filter_flatMap_of_and`), for any tables; only a generator for the narrowed
tables needs that no list has become empty (`Tables.Sound.fault?_narrow_eq_none_iff`).
-/

namespace ImageDimensions

/-- Which values are kept: for each shape some layerings and samplings, and for all shapes together some
accesses and scalar types. -/
structure Selection where
  layering : Shape → Layering → Bool
  sampling : Shape → Sampling → Bool
  access : Access → Bool
  scalar : Scalar → Bool

/-- The row with the values that are kept. -/
def ShapeRow.narrow (r : ShapeRow) (p : Selection) : ShapeRow where
  shape := r.shape
  layerings := r.layerings.filter (p.layering r.shape)
  samplings := r.samplings.filter (p.sampling r.shape)
  extents := r.extents

/-- The tables with the values that are kept. -/
def Tables.narrow (t : Tables) (p : Selection) : Tables where
  rows := t.rows.map (·.narrow p)
  accesses := t.accesses.filter p.access
  scalars := t.scalars.filter p.scalar

/-- The image type in narrowed tables. -/
def Combination.narrow (c : Combination) (p : Selection) : Combination := { c with row := c.row.narrow p }

namespace Selection

/-- Whether an image type is kept. -/
def keeps (p : Selection) (c : Combination) : Bool :=
  p.layering c.row.shape c.layering && (p.sampling c.row.shape c.sampling && p.access c.access)

/-- Whether a method is kept. -/
def keepsMethod (p : Selection) (m : Method) : Bool := p.keeps m.combination && p.scalar m.scalar

end Selection

/-- **One axis**: what is listed for the items of a list and has a property is what is listed for the items
with a part of it, and has the rest of it. -/
theorem filter_flatMap_of_and {α β : Type} {f : α → List β} {p r : β → Bool} {q : α → Bool} :
    ∀ {l : List α}, (∀ a ∈ l, ∀ x ∈ f a, p x = (q a && r x)) →
      (l.flatMap f).filter p = (l.filter q).flatMap fun a => (f a).filter r
  | [], _ => rfl
  | a :: l, h => by
    rw [List.forall_mem_cons] at h
    rw [List.flatMap_cons, List.filter_append, filter_flatMap_of_and h.2]
    by_cases ha : q a
    · have hhead : (f a).filter p = (f a).filter r :=
        List.filter_congr fun x hx => by rw [h.1 x hx, ha, Bool.true_and]
      rw [List.filter_cons_of_pos ha, List.flatMap_cons, hhead]
    · rw [Bool.not_eq_true] at ha
      have hhead : (f a).filter p = [] := by
        refine List.filter_eq_nil_iff.2 fun x hx => ?_
        rw [h.1 x hx, ha, Bool.false_and]
        exact Bool.false_ne_true
      rw [List.filter_cons_of_neg (Bool.eq_false_iff.1 ha), hhead, List.nil_append]

/-! ## Image types -/

namespace ShapeRow

variable (r : ShapeRow) (accesses : List Access) (p : Selection)

/-- The image types of a row that are kept, axis by axis. -/
theorem filter_combinations : (r.combinations accesses).filter p.keeps =
    (r.layerings.filter (p.layering r.shape)).flatMap fun l =>
      (r.samplings.filter (p.sampling r.shape)).flatMap fun s =>
        (accesses.filter p.access).map fun a => ⟨r, l, s, a⟩ := by
  have hlayerings : (r.combinations accesses).filter p.keeps = _ :=
    filter_flatMap_of_and (q := p.layering r.shape)
      (r := fun c => p.sampling c.row.shape c.sampling && p.access c.access) fun l _ c hc => by
        simp only [List.mem_flatMap, List.mem_map] at hc
        obtain ⟨s, -, a, -, rfl⟩ := hc
        rfl
  rw [hlayerings]
  congr 1
  funext l
  rw [filter_flatMap_of_and (q := p.sampling r.shape) (r := fun c => p.access c.access)]
  · simp only [List.filter_map]
    rfl
  · intro s _ c hc
    obtain ⟨a, -, rfl⟩ := List.mem_map.1 hc
    rfl

theorem combinations_narrow : (r.narrow p).combinations (accesses.filter p.access) =
    ((r.combinations accesses).filter p.keeps).map (·.narrow p) := by
  rw [filter_combinations]
  simp only [List.map_flatMap, List.map_map]
  rfl

end ShapeRow

/-- **Narrowing before the enumeration is filtering after it.** -/
theorem Tables.combinations_narrow (t : Tables) (p : Selection) :
    (t.narrow p).combinations = (t.combinations.filter p.keeps).map (·.narrow p) := by
  rw [combinations, combinations, List.filter_flatMap, List.map_flatMap]
  simp only [← ShapeRow.combinations_narrow]
  exact List.flatMap_map ..

/-- **Narrowed tables are fit for generation** unless a list in them has become empty. -/
theorem Tables.Sound.fault?_narrow_eq_none_iff {t : Tables} {p : Selection} (h : t.Sound) :
    (t.narrow p).fault? = none ↔
      (∀ r ∈ t.rows, (r.narrow p).layerings ≠ [] ∧ (r.narrow p).samplings ≠ []) ∧
        (t.narrow p).accesses ≠ [] ∧ (t.narrow p).scalars ≠ [] := by
  rw [fault?_eq_none_iff]
  constructor
  · intro hnarrow
    refine ⟨fun r hr => ?_, hnarrow.accesses_ne_nil, hnarrow.scalars_ne_nil⟩
    have hrow := hnarrow.rows _ (List.mem_map_of_mem hr)
    exact ⟨hrow.layerings_ne_nil, hrow.samplings_ne_nil⟩
  · rintro ⟨hrows, haccesses, hscalars⟩
    have hshapes : (t.narrow p).rows.map ShapeRow.shape = t.rows.map ShapeRow.shape := List.map_map
    refine ⟨hshapes ▸ h.nodup_shapes, fun s => ?_, fun r' hr' => ?_, haccesses,
      h.nodup_accesses.filter _, hscalars, h.nodup_scalars.filter _⟩
    · obtain ⟨r, hr, hs⟩ := h.exists_row s
      exact ⟨r.narrow p, List.mem_map_of_mem hr, hs⟩
    · obtain ⟨r, hr, rfl⟩ := List.mem_map.1 hr'
      have hrow := h.rows r hr
      exact ⟨(hrows r hr).1, hrow.nodup_layerings.filter _, (hrows r hr).2,
        hrow.nodup_samplings.filter _, hrow.extents_ne_nil, hrow.nodup_extents, hrow.notMem_reserved⟩

/-! ## Methods and blocks -/

namespace Combination

variable (c : Combination) (p : Selection)

/-- Signatures do not show what else a row lists, and neither do blocks. -/
theorem overloads_narrow : (c.narrow p).overloads = c.overloads := rfl

theorem block_narrow (scalars : List Scalar) : (c.narrow p).block scalars = c.block scalars := rfl

end Combination

namespace Generator

variable (g : Generator) (p : Selection)

/-- The generator for narrowed tables. -/
def narrow (h : (g.tables.narrow p).fault? = none) : Generator := ⟨g.tables.narrow p, h⟩

variable (h : (g.tables.narrow p).fault? = none)

theorem combinations_narrow :
    (g.narrow p h).combinations = (g.combinations.filter p.keeps).map (·.narrow p) :=
  g.tables.combinations_narrow p

/-- The methods that are kept, axis by axis. -/
theorem filter_keepsMethod : g.methods.filter p.keepsMethod =
    (g.combinations.filter p.keeps).flatMap fun c =>
      (g.tables.scalars.filter p.scalar).flatMap fun s => c.overloads.map fun o => ⟨c, s, o⟩ := by
  have hcombinations : g.methods.filter p.keepsMethod = _ :=
    filter_flatMap_of_and (q := p.keeps) (r := fun m => p.scalar m.scalar) fun c _ m hm => by
      simp only [List.mem_flatMap, List.mem_map] at hm
      obtain ⟨s, -, o, -, rfl⟩ := hm
      rfl
  rw [hcombinations]
  congr 1
  funext c
  rw [filter_flatMap_of_and (q := p.scalar) (r := fun _ => true)]
  · simp only [List.filter_true]
  · intro s _ m hm
    obtain ⟨o, -, rfl⟩ := List.mem_map.1 hm
    exact (Bool.and_true _).symm

/-- **The methods of narrowed tables are the methods that are kept.** -/
theorem map_view_methods_narrow : (g.narrow p h).methods.map Method.view =
    (g.methods.filter p.keepsMethod).map Method.view := by
  rw [filter_keepsMethod, methods, combinations_narrow, List.flatMap_map]
  simp only [List.map_flatMap, List.map_map, Combination.overloads_narrow]
  rfl

theorem blocks_narrow : (g.narrow p h).blocks =
    (g.combinations.filter p.keeps).map (·.block (g.tables.scalars.filter p.scalar)) := by
  rw [blocks, combinations_narrow, List.map_map]
  exact List.map_congr_left fun c _ => c.block_narrow p _

theorem fragments_render_eq_flatMap_blocks : g.render.fragments =
    Template.fileHeader :: Template.moduleDeclaration :: g.blocks.flatMap Block.fragments := rfl

/-- **To narrow tables is to filter what is generated.**  The methods are those that are kept, in the same
order.  If all scalar types are kept, the blocks of the image types that are kept stay as they are, and
nothing but the other blocks is left out. -/
theorem narrow_filters :
    (g.narrow p h).methods.map Method.view = (g.methods.filter p.keepsMethod).map Method.view ∧
    ((g.tables.narrow p).scalars = g.tables.scalars →
      g.render.fragments = Template.fileHeader :: Template.moduleDeclaration ::
        g.combinations.flatMap (Template.block g.tables.scalars) ∧
      (g.narrow p h).render.fragments = Template.fileHeader :: Template.moduleDeclaration ::
        (g.combinations.filter p.keeps).flatMap (Template.block g.tables.scalars)) := by
  refine ⟨g.map_view_methods_narrow p h, fun hscalars => ?_⟩
  have hscalars' : g.tables.scalars.filter p.scalar = g.tables.scalars := hscalars
  constructor
  · rw [fragments_render_eq_flatMap_blocks, blocks, List.flatMap_map]
    rfl
  · rw [fragments_render_eq_flatMap_blocks, blocks_narrow, hscalars', List.flatMap_map]
    rfl

/-- Writable images only: of cubes only arrays, and of planes only those that are sampled several times. -/
def writable : Selection where
  layering s l := s ≠ .cube || l = .array
  sampling s m := s ≠ .twoD || m = .multi
  access a := a = .readWrite
  scalar _ := true

/-- Of the 18 blocks of the standard tables 6 are kept, as they are. -/
theorem narrow_filters_writable :
    ∃ h : (standard.tables.narrow writable).fault? = none,
      (standard.tables.narrow writable).scalars = standard.tables.scalars ∧
      (standard.narrow writable h).statistics.blocks = 6 ∧
      (standard.narrow writable h).methods.map Method.view =
        (standard.methods.filter writable.keepsMethod).map Method.view ∧
      (standard.narrow writable h).render.fragments = Template.fileHeader :: Template.moduleDeclaration ::
        (standard.combinations.filter writable.keeps).flatMap (Template.block standard.tables.scalars) := by
  have h : (standard.tables.narrow writable).fault? = none :=
    standard.sound.fault?_narrow_eq_none_iff.2 (by decide +kernel)
  have hscalars : (standard.tables.narrow writable).scalars = standard.tables.scalars := by decide +kernel
  obtain ⟨hmethods, hrender⟩ := narrow_filters standard writable h
  have hblocks : (standard.tables.narrow writable).combinations.length = 6 := by decide +kernel
  exact ⟨h, hscalars, hblocks, hmethods, (hrender hscalars).2⟩

end Generator

end ImageDimensions
