import Mathlib.Algebra.BigOperators.Ring.List
import Mathlib.Algebra.Ring.Nat
import ImageDimensions.Proofs.Generator.Signatures

/-!
# Proofs/Generator/Counts — how much is generated

Three descriptions of the same numbers: `Generator.statistics` counts the image types and the methods; the
lengths of the lists in the tables give them by multiplication (`Generator.blocks_eq`,
`Generator.mipLevelMethods_eq`, `Generator.methods_eq`); and generated code has that many closing braces and
that many lines that open a method (`Generator.statistics_count_code`).

Generated code is counted in two parts, what stands around the methods and their lines
(`Generator.fragments_render_perm`): the order does not matter to a count.
-/

namespace ImageDimensions

/-- **Counting level by level**: where each item of a list stands for `k` hits if it has a property, and for
none otherwise, there are `k` times as many hits as items with the property. -/
theorem countP_flatMap_of_forall {α β : Type} {f : α → List β} {p : β → Bool} {q : α → Bool} {k : Nat} :
    ∀ {l : List α}, (∀ a ∈ l, (f a).countP p = if q a then k else 0) →
      (l.flatMap f).countP p = k * l.countP q
  | [], _ => rfl
  | a :: l, h => by
    rw [List.forall_mem_cons] at h
    rw [List.flatMap_cons, List.countP_append, h.1, countP_flatMap_of_forall h.2, List.countP_cons,
      Nat.mul_add, Nat.add_comm]
    split <;> simp

theorem length_flatMap_of_forall {α β : Type} {f : α → List β} {k : Nat} {l : List α}
    (h : ∀ a ∈ l, (f a).length = k) : (l.flatMap f).length = k * l.length := by
  simpa using countP_flatMap_of_forall (p := fun _ => true) (q := fun _ => true) (by simpa using h)

/-! ## By multiplication -/

theorem ShapeRow.countP_combinations (r : ShapeRow) (accesses : List Access) (p : Sampling → Bool) :
    (r.combinations accesses).countP (fun c => p c.sampling) =
      accesses.length * (r.layerings.length * r.samplings.countP p) := by
  have hsamplings : ∀ l, (r.samplings.flatMap fun s => accesses.map (Combination.mk r l s)).countP
      (fun c => p c.sampling) = accesses.length * r.samplings.countP p := fun l =>
    countP_flatMap_of_forall fun s _ => by
      rw [List.countP_map]
      cases h : p s <;> simp [Function.comp_def, h]
  have hlayerings : (r.combinations accesses).countP (fun c => p c.sampling) =
      accesses.length * r.samplings.countP p * r.layerings.countP fun _ => true :=
    countP_flatMap_of_forall fun l _ => hsamplings l
  rw [hlayerings, List.countP_true, Nat.mul_assoc, Nat.mul_comm (r.samplings.countP p)]

theorem Tables.countP_combinations (t : Tables) (p : Sampling → Bool) :
    t.combinations.countP (fun c => p c.sampling) =
      t.accesses.length * (t.rows.map fun r => r.layerings.length * r.samplings.countP p).sum := by
  rw [← List.sum_map_mul_left t.rows _ t.accesses.length, combinations, List.countP_flatMap]
  exact congrArg List.sum (List.map_congr_left fun r _ => r.countP_combinations t.accesses p)

namespace Combination

variable (c : Combination)

theorem countP_overloads_dimensions :
    c.overloads.countP (fun o => o.query = .dimensions) = 1 := by
  rw [overloads]
  cases c.sampling <;> rfl

theorem countP_overloads_dimensionsAtMipLevel :
    c.overloads.countP (fun o => o.query = .dimensionsAtMipLevel) =
      if c.sampling == .single then 1 else 0 := by
  rw [overloads]
  cases c.sampling <;> rfl

end Combination

namespace Generator

variable (g : Generator)

theorem countP_methods {q : Combination → Bool} {p : Query → Bool}
    (h : ∀ c : Combination, c.overloads.countP (fun o => p o.query) = if q c then 1 else 0) :
    g.methods.countP (fun m => p m.overload.query) = g.tables.scalars.length * g.combinations.countP q := by
  refine countP_flatMap_of_forall fun c _ => ?_
  have hscalars := countP_flatMap_of_forall (l := g.tables.scalars)
    (f := fun s => c.overloads.map (Method.mk c s)) (p := fun m => p m.overload.query)
    (q := fun _ => q c) (k := 1) fun s _ => by rw [List.countP_map]; exact h c
  rw [hscalars]
  cases q c <;> simp

/-- **One block for each combination** of a layering, a sampling and an access. -/
theorem blocks_eq : g.statistics.blocks = g.tables.accesses.length *
    (g.tables.rows.map fun r => r.layerings.length * r.samplings.length).sum := by
  have hcount := g.tables.countP_combinations fun _ => true
  simp only [List.countP_true] at hcount
  exact hcount

/-- **One method for a mip level, and each scalar type**, for each combination that is sampled once. -/
theorem mipLevelMethods_eq : g.statistics.mipLevelMethods = g.tables.scalars.length *
    (g.tables.accesses.length *
      (g.tables.rows.map fun r => r.layerings.length * r.samplings.count .single).sum) := by
  have hmip := g.countP_methods (p := (· = .dimensionsAtMipLevel))
    Combination.countP_overloads_dimensionsAtMipLevel
  rw [combinations, g.tables.countP_combinations (· == .single)] at hmip
  exact hmip

/-- **One plain method for each scalar type in each block**, besides the methods for a mip level. -/
theorem methods_eq : g.statistics.methods =
    g.tables.scalars.length * g.statistics.blocks + g.statistics.mipLevelMethods := by
  have hplain : g.methods.countP (fun m => m.overload.query = .dimensions) =
      g.tables.scalars.length * g.statistics.blocks := by
    have hcount := g.countP_methods (p := (· = .dimensions)) (q := fun _ => true)
      Combination.countP_overloads_dimensions
    rwa [List.countP_true] at hcount
  have hother : ∀ m : Method, m.overload.query ≠ .dimensions ↔
      m.overload.query = .dimensionsAtMipLevel := fun m => by cases m.overload.query <;> simp
  have hlength := g.methods.length_eq_countP_add_countP fun m => m.overload.query = .dimensions
  simp only [decide_eq_true_eq, hother] at hlength
  rw [← hplain]
  exact hlength

end Generator

/-! ## How lines begin -/

namespace Template

variable {f pat start lead : String} {s : Scalar} {c : Combination} {o : Overload}

theorem prefix_append_left (start rest : String) : start.toList <+: (start ++ rest).toList := by
  rw [String.toList_append]
  exact List.prefix_append _ _

theorem startsWith_of_prefix (h : pat.toList <+: f.toList) : f.startsWith pat = true :=
  String.startsWith_string_iff.2 h

/-- A text does not start with what begins differently. -/
theorem startsWith_eq_false (hf : start.toList <+: f.toList) (hpat : lead.toList <+: pat.toList)
    (h : ¬ start.toList <+: lead.toList) (h' : ¬ lead.toList <+: start.toList) :
    f.startsWith pat = false := by
  refine Bool.eq_false_iff.2 fun hstarts => ?_
  have hlead : lead.toList <+: f.toList := hpat.trans (String.startsWith_string_iff.1 hstarts)
  exact (List.prefix_or_prefix_of_prefix hf hlead).elim h h'

theorem startsWith_eq_false_of_head? {a : Char} (hf : f.toList.head? ≠ some a)
    (hpat : pat.toList.head? = some a) : f.startsWith pat = false := by
  refine Bool.eq_false_iff.2 fun hstarts => hf ?_
  obtain ⟨rest, hrest⟩ := String.startsWith_string_iff.1 hstarts
  rw [← hrest, List.head?_append, hpat]
  rfl

theorem prefix_methodLine (first : String)
    (h : first.toList <+: (", ".intercalate (o.parameters.map (declaration s))).toList) :
    ("    public void get_dimensions(" ++ first).toList <+: (methodLine s o).toList := by
  unfold methodLine
  rw [String.append_assoc, String.toList_append, String.toList_append, List.prefix_append_right_inj,
    String.toList_append]
  exact h.trans (List.prefix_append _ _)

/-- Behind the bracket of a plain method there is something that is given out. -/
theorem prefix_methodLine_dimensions (s : Scalar) (h : c.row.extents ≠ []) :
    "    public void get_dimensions(out ".toList <+: (methodLine s c.dimensions).toList := by
  obtain ⟨name, names, hnames⟩ :=
    List.exists_cons_of_length_pos (Combination.length_reportedNames_pos h)
  have hdeclaration : "out ".toList <+: (declaration s (.output name)).toList := by
    rw [declaration, Parameter.output, String.append_assoc, String.append_assoc]
    exact prefix_append_left _ _
  refine prefix_methodLine "out " (hdeclaration.trans ?_)
  rw [Combination.dimensions, hnames, List.map_cons, List.map_cons]
  cases names with
  | nil => simp only [List.map_nil, String.intercalate_singleton, List.prefix_rfl]
  | cons name' names =>
    rw [List.map_cons, List.map_cons, String.intercalate_cons_cons, String.append_assoc]
    exact prefix_append_left _ _

/-- Behind the bracket of a method for a mip level there is the level. -/
theorem prefix_methodLine_dimensionsAtMipLevel (s : Scalar) (c : Combination) :
    "    public void get_dimensions(uint mipLevel, ".toList <+:
      (methodLine s c.dimensionsAtMipLevel).toList := by
  refine prefix_methodLine "uint mipLevel, " ?_
  rw [Combination.dimensionsAtMipLevel, List.map_cons, String.intercalate_cons_of_ne_nil (by simp)]
  exact prefix_append_left _ _

/-- Of the lines of a method only the first opens one. -/
theorem countP_method (hpat : "    public".toList <+: pat.toList) (s : Scalar) (o : Overload) :
    (method s o).countP (·.startsWith pat) = if (methodLine s o).startsWith pat then 1 else 0 := by
  have hget : "        ImageType image = get();".startsWith pat = false :=
    startsWith_eq_false List.prefix_rfl hpat (by decide) (by decide)
  have hcall : (callLine o).startsWith pat = false := by
    unfold callLine
    rw [String.append_assoc]
    exact startsWith_eq_false (prefix_append_left _ _) hpat (by decide) (by decide)
  have hend : "    \x7d".startsWith pat = false :=
    startsWith_eq_false List.prefix_rfl hpat (by decide) (by decide)
  rw [method, List.countP_cons, List.countP_cons_of_neg (by simp [hget]),
    List.countP_cons_of_neg (by simp [hcall]), List.countP_cons_of_neg (by simp [hend]),
    List.countP_nil, Nat.zero_add]

theorem startsWith_methodLine (s : Scalar) (o : Overload) :
    (methodLine s o).startsWith "    public void get_dimensions(" = true := by
  unfold methodLine
  rw [String.append_assoc]
  exact startsWith_of_prefix (prefix_append_left _ _)

/-- **A method is seen to be asked about a mip level** by how it begins, whatever the names in it are. -/
theorem startsWith_methodLine_mipLevel (s : Scalar) (h : c.row.extents ≠ []) (ho : o ∈ c.overloads) :
    (methodLine s o).startsWith "    public void get_dimensions(uint mipLevel, " =
      decide (o.query = .dimensionsAtMipLevel) := by
  rcases Combination.eq_of_mem_overloads ho with rfl | rfl
  · exact startsWith_eq_false (prefix_methodLine_dimensions s h) List.prefix_rfl (by decide) (by decide)
  · exact startsWith_of_prefix (prefix_methodLine_dimensionsAtMipLevel s c)

theorem count_blockClose_frame (c : Combination) :
    (blockComment c :: blockHeader c ++ [blockClose]).count blockClose = 1 := by
  have hopened : blockClose ∉ blockComment c :: blockHeader c := by
    simpa [opened, methodLines] using blockClose_notMem_opened [] c
  rw [List.count_append, List.count_eq_zero_of_not_mem hopened, List.count_singleton_self]

end Template

namespace Generator

variable (g : Generator)

/-! ## Counted in generated code -/

/-- **Generated code is the frame and the lines of the methods**, in some order. -/
theorem fragments_render_perm : g.render.fragments.Perm (g.frame ++ g.methods.flatMap Method.lines) := by
  have hblocks : (g.combinations.flatMap fun c => Template.blockComment c :: Template.blockHeader c
        ++ (g.methods.filter (·.combination = c)).flatMap Method.lines ++ [Template.blockClose]).Perm
      (g.combinations.flatMap fun c =>
        (Template.blockComment c :: Template.blockHeader c ++ [Template.blockClose])
          ++ (g.methods.filter (·.combination = c)).flatMap Method.lines) := by
    refine .flatMap_left _ fun c _ => ?_
    rw [List.append_assoc, List.append_assoc]
    exact List.perm_append_comm.append_left _
  have hlines : (g.combinations.flatMap fun c =>
      (g.methods.filter (·.combination = c)).flatMap Method.lines) = g.methods.flatMap Method.lines := by
    rw [← List.flatMap_assoc, flatMap_filter_methods]
  rw [fragments_render_eq, frame, List.cons_append, List.cons_append, ← hlines]
  exact ((hblocks.trans (List.flatMap_append_perm _ _ _).symm).cons _).cons _

theorem countP_fragments_render (p : String → Bool) : g.render.fragments.countP p =
    g.frame.countP p + (g.methods.flatMap Method.lines).countP p := by
  rw [g.fragments_render_perm.countP_eq, List.countP_append]

theorem length_frame : g.frame.length = 2 + 4 * g.statistics.blocks := by
  have hblocks := length_flatMap_of_forall (l := g.combinations) (k := 4)
    (f := fun c => Template.blockComment c :: Template.blockHeader c ++ [Template.blockClose])
    fun _ _ => rfl
  rw [frame, List.length_cons, List.length_cons, hblocks, Nat.add_assoc, Nat.add_comm]
  rfl

theorem length_flatMap_lines : (g.methods.flatMap Method.lines).length = 4 * g.statistics.methods :=
  length_flatMap_of_forall fun _ _ => rfl

theorem length_fragments_render : g.render.fragments.length =
    2 + 4 * g.statistics.blocks + 4 * g.statistics.methods := by
  rw [g.fragments_render_perm.length_eq, List.length_append, length_frame, length_flatMap_lines]

/-- No line of a method closes a block. -/
theorem count_blockClose_render : g.render.fragments.count Template.blockClose = g.statistics.blocks := by
  have hframe : g.frame.count Template.blockClose = g.combinations.length := by
    have hblocks := countP_flatMap_of_forall (l := g.combinations) (q := fun _ => true) (k := 1)
      (p := (· == Template.blockClose)) fun c _ => Template.count_blockClose_frame c
    rw [frame, List.count_cons_of_ne (by decide), List.count_cons_of_ne (by decide), List.count, hblocks,
      List.countP_true, Nat.one_mul]
  have hlines : (g.methods.flatMap Method.lines).count Template.blockClose = 0 := by
    refine List.count_eq_zero_of_not_mem fun h => ?_
    obtain ⟨m, -, hm⟩ := List.mem_flatMap.1 h
    exact absurd (Template.head?_of_mem_method hm) (by decide)
  rw [g.fragments_render_perm.count_eq, List.count_append, hframe, hlines, Nat.add_zero]
  rfl

/-- What opens a method is indented, so that only lines of methods are counted. -/
theorem countP_startsWith_render {pat : String} (hpat : "    public".toList <+: pat.toList) :
    g.render.fragments.countP (·.startsWith pat) =
      g.methods.countP fun m => (Template.methodLine m.scalar m.overload).startsWith pat := by
  have hspace : pat.toList.head? = some ' ' := by
    obtain ⟨rest, hrest⟩ := hpat
    rw [← hrest]
    rfl
  have hframe : g.frame.countP (·.startsWith pat) = 0 := by
    refine List.countP_eq_zero.2 fun f hf => ?_
    rw [Template.startsWith_eq_false_of_head? (g.head?_of_mem_frame hf) hspace]
    exact Bool.false_ne_true
  have hlines : (g.methods.flatMap Method.lines).countP (·.startsWith pat) =
      1 * g.methods.countP fun m => (Template.methodLine m.scalar m.overload).startsWith pat :=
    countP_flatMap_of_forall fun m _ => Template.countP_method hpat m.scalar m.overload
  rw [countP_fragments_render, hframe, hlines, Nat.zero_add, Nat.one_mul]

theorem countP_mipLevel_render : g.render.fragments.countP
    (·.startsWith "    public void get_dimensions(uint mipLevel, ") = g.statistics.mipLevelMethods := by
  rw [countP_startsWith_render g (by decide)]
  refine List.countP_congr fun m hm => ?_
  obtain ⟨hc, -, ho⟩ := mem_methods.1 hm
  rw [Template.startsWith_methodLine_mipLevel m.scalar (row_sound hc).extents_ne_nil ho]

/-- **As much is generated as the tables say**, and as much as is counted.  The numbers of blocks and of
methods follow from the lengths of the lists, and they are the numbers of the lines that close a block and
that open a method, whatever the names in it are. -/
theorem statistics_count_code (g : Generator) :
    g.statistics.blocks = g.tables.accesses.length *
        (g.tables.rows.map fun r => r.layerings.length * r.samplings.length).sum
      ∧ g.statistics.mipLevelMethods = g.tables.scalars.length * g.tables.accesses.length *
        (g.tables.rows.map fun r => r.layerings.length * r.samplings.count .single).sum
      ∧ g.statistics.methods =
        g.tables.scalars.length * g.statistics.blocks + g.statistics.mipLevelMethods
      ∧ g.render.fragments.count Template.blockClose = g.statistics.blocks
      ∧ g.render.fragments.countP (·.startsWith "    public void get_dimensions(") =
        g.statistics.methods
      ∧ g.render.fragments.countP (·.startsWith "    public void get_dimensions(uint mipLevel, ") =
        g.statistics.mipLevelMethods
      ∧ g.render.fragments.length = 2 + 4 * g.statistics.blocks + 4 * g.statistics.methods := by
  have hmethods : g.render.fragments.countP (·.startsWith "    public void get_dimensions(") =
      g.statistics.methods := by
    rw [countP_startsWith_render g (by decide)]
    exact List.countP_eq_length.2 fun m _ => Template.startsWith_methodLine m.scalar m.overload
  refine ⟨g.blocks_eq, ?_, g.methods_eq, g.count_blockClose_render, hmethods, g.countP_mipLevel_render,
    g.length_fragments_render⟩
  rw [g.mipLevelMethods_eq, Nat.mul_assoc]

end Generator

end ImageDimensions
