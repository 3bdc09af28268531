import ImageDimensions.Proofs.Generator.Methods
import ImageDimensions.Proofs.Generator.Rendering

/-!
# Proofs/Generator/Blocks — the methods, block by block

`Generator.methods` lists the methods one after the other, and `Generator.render` puts those of an image
type into one block.  Since no image type comes twice (`Generator.nodup_combinations`), cutting the list by
image types gives the blocks (`Generator.filter_methods`), and taking away what stands around the methods
gives the list (`Generator.filter_fragments_render`).
-/

namespace ImageDimensions

/-! ## Lists cut by an axis -/

section Axis

variable {α β : Type} {f : α → List β}

theorem nodup_flatMap_of_axis {l : List α} (axis : β → α) (hl : l.Nodup)
    (haxis : ∀ a ∈ l, ∀ x ∈ f a, axis x = a) (hf : ∀ a ∈ l, (f a).Nodup) : (l.flatMap f).Nodup := by
  rw [List.nodup_flatMap]
  exact ⟨hf, hl.imp_of_mem fun ha hb hne x hx hx' =>
    hne ((haxis _ ha x hx).symm.trans (haxis _ hb x hx'))⟩

/-- **The items of one value on an axis** are those that have been listed for it. -/
theorem filter_flatMap_of_axis [DecidableEq α] {a : α} (axis : β → α) :
    ∀ {l : List α}, l.Nodup → (∀ b ∈ l, ∀ x ∈ f b, axis x = b) → a ∈ l →
      (l.flatMap f).filter (axis · = a) = f a
  | b :: l, hl, haxis, ha => by
    rw [List.nodup_cons] at hl
    rw [List.forall_mem_cons] at haxis
    rw [List.flatMap_cons, List.filter_append]
    rcases List.mem_cons.1 ha with rfl | ha
    · have hhead : (f a).filter (axis · = a) = f a :=
        List.filter_eq_self.2 fun x hx => decide_eq_true (haxis.1 x hx)
      have htail : (l.flatMap f).filter (axis · = a) = [] := by
        refine List.filter_eq_nil_iff.2 fun x hx => ?_
        obtain ⟨b, hb, hx⟩ := List.mem_flatMap.1 hx
        rw [haxis.2 b hb x hx, decide_eq_true_eq]
        exact fun he => hl.1 (he ▸ hb)
      rw [hhead, htail, List.append_nil]
    · have hhead : (f b).filter (axis · = a) = [] := by
        refine List.filter_eq_nil_iff.2 fun x hx => ?_
        rw [haxis.1 x hx, decide_eq_true_eq]
        exact fun he => hl.1 (he ▸ ha)
      rw [hhead, List.nil_append, filter_flatMap_of_axis axis hl.2 haxis.2 ha]

end Axis

/-! ## What stands around the methods -/

/-- The lines of a method. -/
def Method.lines (m : Method) : List String := Template.method m.scalar m.overload

namespace Template

variable {f : String}

theorem head?_append {start rest : String} {a : Char} (h : start.toList.head? = some a) :
    (start ++ rest).toList.head? = some a := by
  rw [String.toList_append, List.head?_append, h]
  rfl

/-- Every line of a method is indented. -/
theorem head?_of_mem_method {s : Scalar} {o : Overload} (hf : f ∈ method s o) :
    f.toList.head? = some ' ' := by
  simp only [method, List.mem_cons, List.not_mem_nil, or_false] at hf
  rcases hf with rfl | rfl | rfl | rfl
  · exact head?_append (head?_append rfl)
  · rfl
  · exact head?_append (head?_append rfl)
  · rfl

theorem head?_blockComment (c : Combination) : (blockComment c).toList.head? = some '/' := by
  unfold blockComment
  simp only [String.append_assoc]
  exact head?_append rfl

theorem head?_extensionLine (c : Combination) : (extensionLine c).toList.head? = some 'p' := by
  unfold extensionLine
  simp only [String.append_assoc]
  exact head?_append rfl

/-- What stands around the methods of an image type is not indented. -/
theorem head?_of_mem_frame {c : Combination} (hf : f ∈ blockComment c :: blockHeader c ++ [blockClose]) :
    f.toList.head? ≠ some ' ' := by
  simp only [blockHeader, List.cons_append, List.nil_append, List.mem_cons, List.not_mem_nil,
    or_false] at hf
  rcases hf with rfl | rfl | rfl | rfl
  · rw [head?_blockComment]
    decide
  · decide
  · rw [head?_extensionLine]
    decide
  · decide

end Template

namespace Generator

variable (g : Generator)

/-- The fragments that belong to no method: the two lines about the file, and of each block its comment,
its header and its end. -/
def frame : List String :=
  Template.fileHeader :: Template.moduleDeclaration ::
    g.combinations.flatMap fun c => Template.blockComment c :: Template.blockHeader c ++ [Template.blockClose]

theorem head?_of_mem_frame {f : String} (hf : f ∈ g.frame) : f.toList.head? ≠ some ' ' := by
  rcases List.mem_cons.1 hf with rfl | hf
  · decide
  rcases List.mem_cons.1 hf with rfl | hf
  · decide
  · obtain ⟨c, -, hf⟩ := List.mem_flatMap.1 hf
    exact Template.head?_of_mem_frame hf

/-! ## Blocks -/

/-- **No image type comes twice.** -/
theorem nodup_combinations : g.combinations.Nodup := by
  have hrows : g.tables.rows.Nodup := .of_map _ g.sound.nodup_shapes
  refine nodup_flatMap_of_axis Combination.row hrows ?_ fun r hr =>
    nodup_flatMap_of_axis Combination.layering (g.sound.rows r hr).nodup_layerings ?_ fun l _ =>
    nodup_flatMap_of_axis Combination.sampling (g.sound.rows r hr).nodup_samplings ?_ fun s _ =>
    g.sound.nodup_accesses.map fun a a' h => congrArg Combination.access h
  -- Whatever is listed for a value on an axis has this value there.
  all_goals simp only [ShapeRow.combinations, List.mem_flatMap, List.mem_map]; grind

/-- **The methods of an image type** are its signatures for each of the scalar types. -/
theorem filter_methods {c : Combination} (hc : c ∈ g.combinations) :
    g.methods.filter (·.combination = c) =
      g.tables.scalars.flatMap fun s => c.overloads.map fun o => ⟨c, s, o⟩ := by
  refine filter_flatMap_of_axis Method.combination g.nodup_combinations (fun c' _ m hm => ?_) hc
  obtain ⟨s, -, hm⟩ := List.mem_flatMap.1 hm
  obtain ⟨o, -, rfl⟩ := List.mem_map.1 hm
  rfl

/-- The methods of all image types, in their order, are all methods. -/
theorem flatMap_filter_methods :
    (g.combinations.flatMap fun c => g.methods.filter (·.combination = c)) = g.methods :=
  List.flatMap_congr fun _ hc => g.filter_methods hc

theorem nodup_methods : g.methods.Nodup := nodup_map_key_methods.of_map

theorem methodLines_eq {c : Combination} (hc : c ∈ g.combinations) :
    Template.methodLines g.tables.scalars c =
      (g.methods.filter (·.combination = c)).flatMap Method.lines := by
  rw [g.filter_methods hc, List.flatMap_assoc]
  simp only [List.flatMap_map]
  rfl

/-- **Each block holds the methods of its image type.** -/
theorem fragments_render_eq : g.render.fragments =
    Template.fileHeader :: Template.moduleDeclaration :: g.combinations.flatMap fun c =>
      Template.blockComment c :: Template.blockHeader c
        ++ (g.methods.filter (·.combination = c)).flatMap Method.lines ++ [Template.blockClose] := by
  rw [fragments_render, List.flatMap_map]
  congr 2
  refine List.flatMap_congr fun c hc => ?_
  rw [Template.opened, g.methodLines_eq hc]

theorem mem_frame {c : Combination} (hc : c ∈ g.combinations) {f : String}
    (hf : f ∈ Template.blockComment c :: Template.blockHeader c ++ [Template.blockClose]) : f ∈ g.frame :=
  List.mem_cons_of_mem _ (List.mem_cons_of_mem _ (List.mem_flatMap.2 ⟨c, hc, hf⟩))

theorem filter_frame {c : Combination} (hc : c ∈ g.combinations) (ms : List Method) :
    (Template.blockComment c :: Template.blockHeader c ++ ms.flatMap Method.lines
      ++ [Template.blockClose]).filter (· ∉ g.frame) = ms.flatMap Method.lines := by
  have hdropped : ∀ fs : List String, (∀ f ∈ fs, f ∈ g.frame) → fs.filter (· ∉ g.frame) = [] :=
    fun fs hfs => List.filter_eq_nil_iff.2 fun f hf => by simpa using hfs f hf
  have hkept : (ms.flatMap Method.lines).filter (· ∉ g.frame) = ms.flatMap Method.lines := by
    refine List.filter_eq_self.2 fun f hf => decide_eq_true fun hframe => ?_
    obtain ⟨m, -, hf⟩ := List.mem_flatMap.1 hf
    exact g.head?_of_mem_frame hframe (Template.head?_of_mem_method hf)
  rw [List.filter_append, List.filter_append, hkept,
    hdropped _ fun f hf => g.mem_frame hc (List.mem_append_left _ hf),
    hdropped _ fun f hf => g.mem_frame hc (List.mem_append_right _ hf), List.nil_append, List.append_nil]

/-- **Between the methods there is nothing but the frame.** -/
theorem filter_fragments_render :
    g.render.fragments.filter (· ∉ g.frame) = g.methods.flatMap Method.lines := by
  have hheader : Template.fileHeader ∈ g.frame := List.mem_cons_self
  have hmodule : Template.moduleDeclaration ∈ g.frame := List.mem_cons_of_mem _ List.mem_cons_self
  calc g.render.fragments.filter (· ∉ g.frame)
      = g.combinations.flatMap fun c =>
          (g.methods.filter (·.combination = c)).flatMap Method.lines := by
        rw [fragments_render_eq, List.filter_cons_of_neg (by simpa using hheader),
          List.filter_cons_of_neg (by simpa using hmodule), List.filter_flatMap]
        exact List.flatMap_congr fun c hc => g.filter_frame hc _
    _ = (g.combinations.flatMap fun c => g.methods.filter (·.combination = c)).flatMap Method.lines :=
        List.flatMap_assoc.symm
    _ = g.methods.flatMap Method.lines := by rw [flatMap_filter_methods]

/-- **Generated code is the list of methods, block by block.**  Each block holds the methods of its image
type in the order in which they are listed; the blocks hold all methods, none of which comes twice; what is
left when all that stands around methods is taken away are the methods in their order.  One event is logged
for each block, with what it is about. -/
theorem render_eq_methods_by_block (g : Generator) :
    g.render.fragments = Template.fileHeader :: Template.moduleDeclaration ::
      (g.combinations.flatMap fun c => Template.blockComment c :: Template.blockHeader c
        ++ (g.methods.filter (·.combination = c)).flatMap (fun m => Template.method m.scalar m.overload)
        ++ [Template.blockClose]) ∧
    (g.combinations.flatMap fun c => g.methods.filter (·.combination = c)) = g.methods ∧
    g.methods.Nodup ∧
    g.render.fragments.filter (· ∉ g.frame) =
      g.methods.flatMap (fun m => Template.method m.scalar m.overload) ∧
    g.events = (g.combinations.map fun c => .emittingBlock c.row.shape.suffix c.layering.flag
      c.sampling.flag c.access.descriptors) ∧
    ∀ e ∈ g.events, e.level = .debug := by
  have hevents : g.events = g.combinations.map fun c =>
      (c.block g.tables.scalars).event := List.map_map
  refine ⟨g.fragments_render_eq, g.flatMap_filter_methods, g.nodup_methods, g.filter_fragments_render,
    hevents, ?_⟩
  intro e he
  rw [hevents] at he
  obtain ⟨c, -, rfl⟩ := List.mem_map.1 he
  rfl

end Generator

end ImageDimensions
