import ImageDimensions.Proofs.Overload
import ImageDimensions.Proofs.Tables.Sound
import ImageDimensions.Proofs.Template.Lines
import ImageDimensions.Proofs.Template.Signature

/-!
# Proofs/Generator/Rendering — generated code determines the tables

Generated code is read back in three steps.  Its fragments fall into blocks, since no fragment of a block
but the last is the end of a block.  A block tells its image type by its comment, and by its methods the
scalar types and the extents (`opened_inj`).  And the image types, in their order, tell the lists that
they were combined from (`eq_of_map_summary_eq`), since those are neither empty nor repeat anything.

If no name holds a line break, the text alone shows the fragments, and so the tables.
-/

namespace ImageDimensions

/-! ## What a block tells -/

/-- What the block of an image type tells of it: the shape with its extents, and the other axes. -/
def Combination.summary (c : Combination) : (Shape × List String) × Layering × Sampling × Access :=
  ((c.row.shape, c.row.extents), c.layering, c.sampling, c.access)

namespace Template

variable {c c' : Combination} {s s' : Scalar} {scalars scalars' : List Scalar}

theorem length_blockHeader (c : Combination) : (blockHeader c).length = 2 := rfl

theorem length_method (s : Scalar) (o : Overload) : (method s o).length = 4 := rfl

theorem length_flatMap_method (s : Scalar) (os : List Overload) :
    (os.flatMap (method s)).length = 4 * os.length := by
  induction os with
  | nil => rfl
  | cons o os ih =>
    rw [List.flatMap_cons, List.length_append, length_method, ih, List.length_cons]
    omega

/-- The methods for one scalar type tell it, and what is reported. -/
theorem dimensions_inj (hextents : c.row.extents ≠ [])
    (h : c.overloads.flatMap (method s) = c'.overloads.flatMap (method s')) :
    s = s' ∧ c.reportedNames = c'.reportedNames := by
  have hmethod : method s c.dimensions = method s' c'.dimensions :=
    (List.append_inj h (by rw [length_method, length_method])).1
  simp only [method, List.cons_eq_cons, and_true, true_and] at hmethod
  obtain ⟨hparameters, hscalar⟩ := parameters_of_lines hmethod.1 hmethod.2
  obtain ⟨p, hp, hdirection⟩ :=
    Combination.exists_output hextents (List.mem_cons_self : c.dimensions ∈ c.overloads)
  exact ⟨hscalar p hp hdirection, Combination.reportedNames_eq_of_parameters_eq hparameters⟩

/-- **The methods of an image type tell the scalar types**, and what is reported. -/
theorem methodLines_inj (hsampling : c.sampling = c'.sampling) (hextents : c.row.extents ≠ []) :
    ∀ {scalars scalars' : List Scalar}, methodLines scalars c = methodLines scalars' c' →
      scalars = scalars' ∧ (scalars ≠ [] → c.reportedNames = c'.reportedNames)
  | [], [], _ => by simp
  | [], s :: _, h => by simp [methodLines, Combination.overloads, method] at h
  | s :: _, [], h => by simp [methodLines, Combination.overloads, method] at h
  | s :: scalars, s' :: scalars', h => by
    have hlength : (c.overloads.flatMap (method s)).length
        = (c'.overloads.flatMap (method s')).length := by
      rw [length_flatMap_method, length_flatMap_method, c.length_overloads, c'.length_overloads,
        hsampling]
    obtain ⟨hhead, htail⟩ := List.append_inj h hlength
    obtain ⟨rfl, hnames⟩ := dimensions_inj hextents hhead
    exact ⟨by rw [(methodLines_inj hsampling hextents htail).1], fun _ => hnames⟩

/-- **A block tells its image type and the scalar types.** -/
theorem opened_inj (hscalars : scalars ≠ []) (hextents : c.row.extents ≠ [])
    (h : opened scalars c = opened scalars' c') : scalars = scalars' ∧ c.summary = c'.summary := by
  obtain ⟨hcomment, hrest⟩ := List.cons_eq_cons.1 h
  obtain ⟨hshape, hlayering, hsampling, haccess⟩ := blockComment_inj hcomment
  have hmethods : methodLines scalars c = methodLines scalars' c' :=
    (List.append_inj hrest (by rw [length_blockHeader, length_blockHeader])).2
  obtain ⟨heq, hnames⟩ := methodLines_inj hsampling hextents hmethods
  have hextents := Combination.extents_eq_of_reportedNames_eq hlayering hsampling (hnames hscalars)
  exact ⟨heq, by simp only [Combination.summary, hshape, hextents, hlayering, hsampling, haccess]⟩

end Template

/-! ## What the image types tell -/

namespace Tables

variable {t t' : Tables}

/-- What is told of the image types of a row, apart from the shape and its extents. -/
def choices (t : Tables) (r : ShapeRow) : List (Layering × Sampling × Access) :=
  r.layerings ×ˢ (r.samplings ×ˢ t.accesses)

theorem map_summary_combinations (t : Tables) : t.combinations.map Combination.summary
    = t.rows.flatMap fun r => (t.choices r).map ((r.shape, r.extents), ·) := by
  simp only [combinations, ShapeRow.combinations, choices, SProd.sprod, List.product, List.map_flatMap,
    List.map_map]
  rfl

namespace Sound

variable (h : t.Sound)
include h

theorem samplings_product_accesses_ne_nil {r : ShapeRow} (hr : r ∈ t.rows) :
    r.samplings ×ˢ t.accesses ≠ [] := by
  obtain ⟨s, hs⟩ := List.exists_mem_of_ne_nil _ (h.rows r hr).samplings_ne_nil
  obtain ⟨a, ha⟩ := List.exists_mem_of_ne_nil _ h.accesses_ne_nil
  exact List.ne_nil_of_mem (List.pair_mem_product.2 ⟨hs, ha⟩)

theorem choices_ne_nil {r : ShapeRow} (hr : r ∈ t.rows) : t.choices r ≠ [] := by
  obtain ⟨l, hl⟩ := List.exists_mem_of_ne_nil _ (h.rows r hr).layerings_ne_nil
  obtain ⟨x, hx⟩ := List.exists_mem_of_ne_nil _ (h.samplings_product_accesses_ne_nil hr)
  exact List.ne_nil_of_mem (List.pair_mem_product.2 ⟨hl, hx⟩)

theorem nodup_tags : (t.rows.map fun r => (r.shape, r.extents)).Nodup := by
  refine List.Nodup.of_map Prod.fst ?_
  rw [List.map_map]
  exact h.nodup_shapes

theorem combinations_ne_nil : t.combinations ≠ [] := by
  intro hnil
  obtain ⟨r, hr⟩ := List.exists_mem_of_ne_nil _ h.rows_ne_nil
  have hsummary := t.map_summary_combinations
  rw [hnil, List.map_nil, eq_comm, List.flatMap_eq_nil_iff] at hsummary
  exact h.choices_ne_nil hr (List.map_eq_nil_iff.1 (hsummary r hr))

/-- The choices of a row tell its lists and the accesses. -/
theorem choices_inj (h' : t'.Sound) {r r' : ShapeRow} (hr : r ∈ t.rows) (hr' : r' ∈ t'.rows)
    (heq : t.choices r = t'.choices r') :
    r.layerings = r'.layerings ∧ r.samplings = r'.samplings ∧ t.accesses = t'.accesses := by
  obtain ⟨hlayerings, hrest⟩ := product_inj (h.rows r hr).layerings_ne_nil
    (h.samplings_product_accesses_ne_nil hr) (h'.samplings_product_accesses_ne_nil hr')
    (h.rows r hr).nodup_layerings (h'.rows r' hr').nodup_layerings heq
  exact ⟨hlayerings, product_inj (h.rows r hr).samplings_ne_nil h.accesses_ne_nil h'.accesses_ne_nil
    (h.rows r hr).nodup_samplings (h'.rows r' hr').nodup_samplings hrest⟩

/-- **The image types, in their order, tell the rows and the accesses.** -/
theorem eq_of_map_summary_eq (h' : t'.Sound)
    (heq : t.combinations.map Combination.summary = t'.combinations.map Combination.summary) :
    t.rows = t'.rows ∧ t.accesses = t'.accesses := by
  rw [map_summary_combinations, map_summary_combinations] at heq
  have hrows := map_eq_of_flatMap_map_pair_eq _ h.nodup_tags h'.nodup_tags
    (fun r hr => h.choices_ne_nil hr) (fun r hr => h'.choices_ne_nil hr) heq
  have hrow : ∀ r ∈ t.rows, ∀ r' ∈ t'.rows, ((r.shape, r.extents), t.choices r)
      = ((r'.shape, r'.extents), t'.choices r') → r = r' ∧ t.accesses = t'.accesses := by
    intro r hr r' hr' he
    obtain ⟨htag, hchoices⟩ := Prod.mk.inj he
    obtain ⟨hshape, hextents⟩ := Prod.mk.inj htag
    obtain ⟨hlayerings, hsamplings, haccesses⟩ := h.choices_inj h' hr hr' hchoices
    refine ⟨?_, haccesses⟩
    cases r
    cases r'
    simp_all
  constructor
  · have hid : t.rows.map id = t'.rows.map id :=
      map_eq_map_of_map_eq_map (fun r hr r' hr' he => (hrow r hr r' hr' he).1) hrows
    rwa [List.map_id, List.map_id] at hid
  · obtain ⟨r, rest, hr⟩ := List.exists_cons_of_ne_nil h.rows_ne_nil
    obtain ⟨r', rest', hr'⟩ := List.exists_cons_of_ne_nil h'.rows_ne_nil
    rw [hr, hr', List.map_cons, List.map_cons, List.cons_eq_cons] at hrows
    exact (hrow r (by simp [hr]) r' (by simp [hr']) hrows.1).2

end Sound

end Tables

/-! ## What generated code tells -/

namespace Generator

variable {g g' : Generator}

theorem fragments_render (g : Generator) : g.render.fragments
    = Template.fileHeader :: Template.moduleDeclaration
      :: (g.combinations.map (Template.opened g.tables.scalars)).flatMap (· ++ [Template.blockClose]) := by
  simp only [render, blocks, Document.fragments_extend, Document.fragments_push,
    Document.fragments_empty, List.flatMap_map, Combination.block, Template.block_eq_opened_append]
  rfl

/-- Whether every signature of a generator can be written on one line. -/
def NamesOnOneLine (g : Generator) : Prop :=
  ∀ r ∈ g.tables.rows, ∀ name ∈ r.extents, '\n' ∉ name.toList

theorem row_mem_of_mem_combinations {c : Combination} (hc : c ∈ g.combinations) : c.row ∈ g.tables.rows := by
  simp only [combinations, Tables.combinations, ShapeRow.combinations, List.mem_flatMap, List.mem_map] at hc
  obtain ⟨r, hr, _, _, _, _, _, _, rfl⟩ := hc
  exact hr

/-- The blocks tell the tables. -/
theorem tables_eq_of_map_opened_eq
    (h : g.combinations.map (Template.opened g.tables.scalars)
      = g'.combinations.map (Template.opened g'.tables.scalars)) : g.tables = g'.tables := by
  have hblock : ∀ c ∈ g.combinations, ∀ c' ∈ g'.combinations,
      Template.opened g.tables.scalars c = Template.opened g'.tables.scalars c' →
        g.tables.scalars = g'.tables.scalars ∧ c.summary = c'.summary := fun c hc c' _ he =>
    Template.opened_inj g.sound.scalars_ne_nil
      (g.sound.rows _ (row_mem_of_mem_combinations hc)).extents_ne_nil he
  obtain ⟨hrows, haccesses⟩ := g.sound.eq_of_map_summary_eq g'.sound
    (map_eq_map_of_map_eq_map (fun c hc c' hc' he => (hblock c hc c' hc' he).2) h)
  have hscalars : g.tables.scalars = g'.tables.scalars := by
    obtain ⟨c, rest, hc⟩ := List.exists_cons_of_ne_nil g.sound.combinations_ne_nil
    obtain ⟨c', rest', hc'⟩ := List.exists_cons_of_ne_nil g'.sound.combinations_ne_nil
    rw [combinations, combinations, hc, hc', List.map_cons, List.map_cons, List.cons_eq_cons] at h
    exact (hblock c (by simp [combinations, hc]) c' (by simp [combinations, hc']) h.1).1
  calc g.tables = ⟨g.tables.rows, g.tables.accesses, g.tables.scalars⟩ := rfl
    _ = g'.tables := by rw [hrows, haccesses, hscalars]

/-- **Generated code determines the tables.** -/
theorem tables_eq_of_render_eq (h : g.render = g'.render) : g.tables = g'.tables := by
  have hfragments := congrArg Document.fragments h
  rw [fragments_render, fragments_render, List.cons_eq_cons, List.cons_eq_cons] at hfragments
  have hopened : ∀ (g : Generator) (b), b ∈ g.combinations.map (Template.opened g.tables.scalars) →
      Template.blockClose ∉ b := by
    intro g b hb
    obtain ⟨c, -, rfl⟩ := List.mem_map.1 hb
    exact Template.blockClose_notMem_opened _ c
  exact tables_eq_of_map_opened_eq
    (eq_of_flatMap_concat_eq (hopened g) (hopened g') hfragments.2.2)

/-! ## What its text tells -/

theorem onOneLine_of_mem_overloads (h : g.NamesOnOneLine) {c : Combination} (hc : c ∈ g.combinations)
    {o : Overload} (ho : o ∈ c.overloads) : Template.OnOneLine o := by
  intro p hp
  rcases Combination.name_mem_of_mem_overloads ho hp with hname | hname
  · exact h _ (row_mem_of_mem_combinations hc) _ hname
  · exact ReservedName.newline_notMem hname

theorem isFragment_of_mem_render (h : g.NamesOnOneLine) {f : String} (hf : f ∈ g.render.fragments) :
    Document.IsFragment f := by
  simp only [fragments_render, List.mem_cons, List.flatMap_map, List.mem_flatMap] at hf
  rcases hf with rfl | rfl | ⟨c, hc, hf⟩
  · exact ⟨"// Generated boilerplate code for _Image.get_dimensions method.", by constructor <;> decide,
      .inr rfl⟩
  · exact ⟨"implementing bindless;", by constructor <;> decide, .inr rfl⟩
  · exact Template.isFragment_of_mem_block (fun o ho => onOneLine_of_mem_overloads h hc ho) hf

theorem render_eq_of_text_eq (h : g.NamesOnOneLine) (h' : g'.NamesOnOneLine)
    (htext : g.render.text = g'.render.text) : g.render = g'.render := by
  refine Document.eq_of_text_eq ?_ ?_ (fun f hf => isFragment_of_mem_render h hf)
    (fun f hf => isFragment_of_mem_render h' hf) htext
  all_goals
    rw [fragments_render]
    exact List.cons_ne_nil _ _

/-- **No table is lost in the generated code**: two generators have the same fragments only if they have the
same tables, to the order of every list and whatever the names are.  If no name holds a line break, the
same holds of the text. -/
theorem tables_eq_of_same_code (g g' : Generator) :
    (g.render = g'.render → g.tables = g'.tables)
      ∧ (g.NamesOnOneLine → g'.NamesOnOneLine → g.render.text = g'.render.text →
        g.tables = g'.tables) :=
  ⟨tables_eq_of_render_eq, fun h h' htext => tables_eq_of_render_eq (render_eq_of_text_eq h h' htext)⟩

/-- The generator for the standard tables, but for the extents of a plane: they are one name, which reads
like the two. -/
def joinedExtents : Generator where
  tables := { Tables.standard with rows := Tables.standard.rows.map fun r =>
    if r.shape = .twoD then { r with extents := ["width, out float height"] } else r }
  fault?_tables := by decide +kernel

/-- A name that imitates two declarations is told from the two, in the fragments and in the text. -/
theorem render_joinedExtents_ne_standard :
    joinedExtents.NamesOnOneLine ∧ standard.NamesOnOneLine
      ∧ joinedExtents.render ≠ standard.render
      ∧ joinedExtents.render.text ≠ standard.render.text := by
  have hjoined : joinedExtents.NamesOnOneLine := by unfold NamesOnOneLine; decide +kernel
  have hstandard : standard.NamesOnOneLine := by unfold NamesOnOneLine; decide +kernel
  have hne : joinedExtents.tables ≠ standard.tables := by decide +kernel
  obtain ⟨hrender, htext⟩ := tables_eq_of_same_code joinedExtents standard
  exact ⟨hjoined, hstandard, fun h => hne (hrender h), fun h => hne (htext hjoined hstandard h)⟩

end Generator

end ImageDimensions
