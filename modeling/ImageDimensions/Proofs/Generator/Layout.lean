import ImageDimensions.Proofs.Generator.Counts

/-!
# Proofs/Generator/Layout — the lines of generated code

Fragments are joined with line breaks, and some end in one: the two about the file and the end of a block.
Behind these, and nowhere else, a line is empty.  So if no name holds a line break, generated code is a list
of paragraphs with an empty line behind each (`Generator.lines_render`): the two lines about the file, and
the blocks.
-/

namespace ImageDimensions

open Document (linesOf IsLine IsParagraph)

/-- The line about how the file came about. -/
def Template.headerLine : String := "// Generated boilerplate code for _Image.get_dimensions method."

/-- The line that declares the module. -/
def Template.moduleLine : String := "implementing bindless;"

namespace Generator

variable {g : Generator} {c : Combination}

/-- The lines of the block of an image type. -/
def blockLines (g : Generator) (c : Combination) : List String :=
  Template.blockComment c :: Template.blockHeader c
    ++ (g.methods.filter (·.combination = c)).flatMap Method.lines ++ ["\x7d"]

/-- The lines of generated code, paragraph by paragraph. -/
def paragraphLines (g : Generator) : List (List String) :=
  [Template.headerLine] :: [Template.moduleLine] :: g.combinations.map g.blockLines

/-! ## Lines -/

theorem isLine_of_mem_lines (h : g.NamesOnOneLine) {m : Method} (hm : m ∈ g.methods) {line : String}
    (hline : line ∈ m.lines) : IsLine line := by
  obtain ⟨hc, -, ho⟩ := mem_methods.1 hm
  exact Template.isLine_of_mem_method (onOneLine_of_mem_overloads h hc ho) hline

theorem isLine_of_mem_blockLines (h : g.NamesOnOneLine) {line : String} (hline : line ∈ g.blockLines c) :
    IsLine line := by
  simp only [blockLines, Template.blockHeader, List.cons_append, List.nil_append, List.mem_cons,
    List.mem_append, List.mem_flatMap, List.mem_filter, List.not_mem_nil, or_false] at hline
  rcases hline with rfl | rfl | rfl | ⟨m, ⟨hm, -⟩, hline⟩ | rfl
  · exact Template.isLine_blockComment c
  · exact Template.isLine_genericLine
  · exact Template.isLine_extensionLine c
  · exact isLine_of_mem_lines h hm hline
  · constructor <;> decide

theorem isParagraph_blockLines (h : g.NamesOnOneLine) (c : Combination) : IsParagraph (g.blockLines c) :=
  ⟨List.cons_ne_nil _ _, fun _ hline => isLine_of_mem_blockLines h hline⟩

theorem isParagraph_of_mem_paragraphLines (h : g.NamesOnOneLine) {p : List String}
    (hp : p ∈ g.paragraphLines) : IsParagraph p := by
  have hfile : ∀ {line : String}, IsLine line → IsParagraph [line] := fun hline =>
    ⟨List.cons_ne_nil _ _, fun _ hmem => List.mem_singleton.1 hmem ▸ hline⟩
  rcases List.mem_cons.1 hp with rfl | hp
  · exact hfile (by constructor <;> decide)
  rcases List.mem_cons.1 hp with rfl | hp
  · exact hfile (by constructor <;> decide)
  · obtain ⟨c, -, rfl⟩ := List.mem_map.1 hp
    exact isParagraph_blockLines h c

theorem linesOf_fileHeader : linesOf Template.fileHeader = [Template.headerLine, ""] := by
  have hheader : Template.fileHeader = Template.headerLine ++ "\n" := by decide
  rw [hheader, Document.linesOf_append_break (by constructor <;> decide)]

theorem linesOf_moduleDeclaration : linesOf Template.moduleDeclaration = [Template.moduleLine, ""] := by
  have hdeclaration : Template.moduleDeclaration = Template.moduleLine ++ "\n" := by decide
  rw [hdeclaration, Document.linesOf_append_break (by constructor <;> decide)]

theorem linesOf_blockClose : linesOf Template.blockClose = ["\x7d", ""] := by
  have hclose : Template.blockClose = "\x7d" ++ "\n" := by decide
  rw [hclose, Document.linesOf_append_break (by constructor <;> decide)]

theorem fragments_render_ne_nil (g : Generator) : g.render.fragments ≠ [] := by
  rw [fragments_render]
  exact List.cons_ne_nil _ _

/-- **The lines of generated code.** -/
theorem lines_render (h : g.NamesOnOneLine) : g.render.lines =
    Template.headerLine :: "" :: Template.moduleLine :: ""
      :: g.combinations.flatMap fun c => g.blockLines c ++ [""] := by
  have hblock : ∀ c, (Template.blockComment c :: Template.blockHeader c
      ++ (g.methods.filter (·.combination = c)).flatMap Method.lines
      ++ [Template.blockClose]).flatMap linesOf = g.blockLines c ++ [""] := by
    intro c
    have hopened := Document.flatMap_linesOf_of_notMem fun line hline =>
      (isLine_of_mem_blockLines (c := c) h (List.mem_append_left _ hline)).newline_notMem
    rw [List.flatMap_append, hopened, List.flatMap_singleton, linesOf_blockClose, blockLines,
      List.append_assoc _ _ [""]]
    rfl
  rw [Document.lines_eq_flatMap g.fragments_render_ne_nil, fragments_render_eq, List.flatMap_cons,
    List.flatMap_cons, linesOf_fileHeader, linesOf_moduleDeclaration, List.flatMap_assoc,
    List.flatMap_congr fun c _ => hblock c]
  simp only [List.cons_append, List.nil_append]

/-- **Behind each paragraph there is an empty line**, also behind the last. -/
theorem lines_render_eq_flatMap (h : g.NamesOnOneLine) :
    g.render.lines = g.paragraphLines.flatMap (· ++ [""]) := by
  rw [lines_render h, paragraphLines, List.flatMap_cons, List.flatMap_cons, List.flatMap_map]
  rfl

/-! ## Numbers of lines -/

/-- What stands around the methods has an empty line behind the two lines about the file and the end of each
block. -/
theorem length_flatMap_linesOf_frame (g : Generator) :
    (g.frame.flatMap linesOf).length = 4 + 5 * g.statistics.blocks := by
  have hblock : ∀ c ∈ g.combinations, ((Template.blockComment c :: Template.blockHeader c
      ++ [Template.blockClose]).flatMap linesOf).length = 5 := fun c _ => by
    simp only [Template.blockHeader, List.cons_append, List.nil_append, List.flatMap_cons,
      List.flatMap_nil, Document.linesOf_of_notMem (Template.isLine_blockComment c).newline_notMem,
      Document.linesOf_of_notMem Template.isLine_genericLine.newline_notMem,
      Document.linesOf_of_notMem (Template.isLine_extensionLine c).newline_notMem, linesOf_blockClose]
    rfl
  rw [frame, List.flatMap_cons, List.flatMap_cons, linesOf_fileHeader, linesOf_moduleDeclaration,
    List.flatMap_assoc, List.length_append, List.length_append, length_flatMap_of_forall hblock,
    ← Nat.add_assoc]
  rfl

theorem length_lines_render (h : g.NamesOnOneLine) :
    g.render.lines.length = 4 + 5 * g.statistics.blocks + 4 * g.statistics.methods := by
  have hlines : (g.methods.flatMap Method.lines).flatMap linesOf = g.methods.flatMap Method.lines := by
    refine Document.flatMap_linesOf_of_notMem fun line hline => ?_
    obtain ⟨m, hm, hline⟩ := List.mem_flatMap.1 hline
    exact (isLine_of_mem_lines h hm hline).newline_notMem
  rw [Document.lines_eq_flatMap g.fragments_render_ne_nil,
    (g.fragments_render_perm.flatMap_right linesOf).length_eq, List.flatMap_append, List.length_append,
    length_flatMap_linesOf_frame, hlines, length_flatMap_lines]

/-! ## Comments -/

theorem startsWith_blockComment (c : Combination) :
    (Template.blockComment c).startsWith "// Shape" = true := by
  have hshape : "// Shape".toList <+: "// Shape ".toList := by decide
  rw [Template.blockComment_eq]
  exact Template.startsWith_of_prefix (hshape.trans (Template.prefix_append_left _ _))

/-- **Of the lines of a block only the first is a comment**: no other begins with a slash. -/
theorem filter_blockLines (g : Generator) (c : Combination) :
    (g.blockLines c ++ [""]).filter (·.startsWith "// Shape") = [Template.blockComment c] := by
  have hrest : ∀ line ∈ Template.blockHeader c
      ++ (g.methods.filter (·.combination = c)).flatMap Method.lines ++ ["\x7d"] ++ [""],
      line.toList.head? ≠ some '/' := by
    intro line hline
    simp only [Template.blockHeader, List.cons_append, List.nil_append, List.mem_cons, List.mem_append,
      List.mem_flatMap, List.not_mem_nil, or_false] at hline
    rcases hline with rfl | rfl | (⟨m, -, hline⟩ | rfl) | rfl
    · decide
    · rw [Template.head?_extensionLine]
      decide
    · rw [Template.head?_of_mem_method hline]
      decide
    · decide
    · decide
  have hfilter : (Template.blockHeader c ++ (g.methods.filter (·.combination = c)).flatMap Method.lines
      ++ ["\x7d"] ++ [""]).filter (·.startsWith "// Shape") = [] :=
    List.filter_eq_nil_iff.2 fun line hline => by
      rw [Template.startsWith_eq_false_of_head? (hrest line hline) rfl]
      exact Bool.false_ne_true
  have hcomment := startsWith_blockComment c
  rw [blockLines, List.cons_append, List.cons_append, List.cons_append, List.filter_cons, hfilter]
  simp only [hcomment, if_true]

theorem filter_lines_render (h : g.NamesOnOneLine) :
    g.render.lines.filter (·.startsWith "// Shape") = g.combinations.map Template.blockComment := by
  have hheader : Template.headerLine.startsWith "// Shape" = false :=
    Template.startsWith_eq_false List.prefix_rfl List.prefix_rfl (by decide) (by decide)
  have hmodule : Template.moduleLine.startsWith "// Shape" = false :=
    Template.startsWith_eq_false_of_head? (by decide) rfl
  have hempty : "".startsWith "// Shape" = false := Template.startsWith_eq_false_of_head? (by decide) rfl
  have hblocks : (g.combinations.flatMap fun c => g.blockLines c ++ [""]).filter
      (·.startsWith "// Shape") = g.combinations.map Template.blockComment := by
    rw [List.filter_flatMap, List.flatMap_congr fun c _ => g.filter_blockLines c, List.map_eq_flatMap]
  rw [lines_render h]
  simp only [List.filter_cons, hheader, hmodule, hempty, Bool.false_eq_true, if_false, hblocks]

/-! ## Paragraphs -/

theorem paragraphs_render (h : g.NamesOnOneLine) {cs : List Combination}
    (hcs : g.combinations = cs ++ [c]) : g.render.paragraphs = Template.headerLine :: Template.moduleLine
      :: cs.map (fun c => "\n".intercalate (g.blockLines c))
      ++ ["\n".intercalate (g.blockLines c) ++ "\n"] := by
  have hparagraphs : g.paragraphLines =
      ([Template.headerLine] :: [Template.moduleLine] :: cs.map g.blockLines) ++ [g.blockLines c] := by
    rw [paragraphLines, hcs, List.map_append]
    rfl
  have hlines := lines_render_eq_flatMap h
  rw [hparagraphs] at hlines
  have hbefore : ∀ p ∈ [Template.headerLine] :: [Template.moduleLine] :: cs.map g.blockLines,
      IsParagraph p := fun p hp =>
    isParagraph_of_mem_paragraphLines h (hparagraphs ▸ List.mem_append_left _ hp)
  rw [Document.paragraphs_eq hbefore (isParagraph_blockLines h c) hlines, List.map_cons, List.map_cons,
    String.intercalate_singleton, String.intercalate_singleton, List.map_map, Function.comp_def]

/-- **Generated code, line by line.**  The two lines about the file and each block are followed by an empty
line, and no other line is empty; the lines that look like the comment of a block are the comments of the
blocks; and cut at blank lines the text gives the two lines and the blocks. -/
theorem text_layout (g : Generator) (h : g.NamesOnOneLine) :
    g.render.lines = Template.headerLine :: "" :: Template.moduleLine :: ""
        :: g.combinations.flatMap (fun c =>
          Template.blockComment c :: Template.genericLine :: Template.extensionLine c
            :: (g.methods.filter (·.combination = c)).flatMap (fun m => Template.method m.scalar m.overload)
            ++ ["\x7d", ""])
      ∧ g.render.lines.length = 4 + 5 * g.statistics.blocks + 4 * g.statistics.methods
      ∧ g.render.lines = g.paragraphLines.flatMap (· ++ [""])
      ∧ (∀ p ∈ g.paragraphLines, "" ∉ p)
      ∧ g.render.lines.filter (·.startsWith "// Shape") = g.combinations.map Template.blockComment
      ∧ ∃ cs c, g.combinations = cs ++ [c] ∧ g.render.paragraphs = Template.headerLine :: Template.moduleLine
        :: cs.map (fun c => "\n".intercalate (g.blockLines c))
        ++ ["\n".intercalate (g.blockLines c) ++ "\n"] := by
  have hne := g.sound.combinations_ne_nil
  refine ⟨?_, length_lines_render h, lines_render_eq_flatMap h, fun p hp =>
    (isParagraph_of_mem_paragraphLines h hp).empty_notMem, filter_lines_render h, g.combinations.dropLast,
    g.combinations.getLast hne, (List.dropLast_append_getLast hne).symm,
    paragraphs_render h (List.dropLast_append_getLast hne).symm⟩
  rw [lines_render h]
  simp only [blockLines, Template.blockHeader, List.append_assoc, List.cons_append, List.nil_append]
  rfl

/-- The generator for the standard tables, but for the extents of a volume: one has no name, and the others
are called like lines of generated code. -/
def imitatedLines : Generator where
  tables := { Tables.standard with rows := Tables.standard.rows.map fun r =>
    if r.shape = .threeD then { r with extents := ["", "// Shape 1D, Read-Only, Array, MS", "\x7d"] } else r }
  fault?_tables := by decide +kernel

/-- Names that look like lines, or like nothing, make no line of their own. -/
theorem layout_imitatedLines : imitatedLines.NamesOnOneLine
    ∧ imitatedLines.render.lines.length = 478
    ∧ (imitatedLines.render.lines.filter (·.startsWith "// Shape")).length = 18
    ∧ imitatedLines.render.paragraphs.length = 20 := by
  have hnames : imitatedLines.NamesOnOneLine := by unfold NamesOnOneLine; decide +kernel
  have hblocks : imitatedLines.combinations.length = 18 := by decide +kernel
  have hstatistics : imitatedLines.statistics = ⟨18, 96, 42⟩ := by decide +kernel
  obtain ⟨-, hlength, -, -, hcomments, cs, c, hcs, hparagraphs⟩ := text_layout imitatedLines hnames
  refine ⟨hnames, by rw [hlength, hstatistics]; rfl, ?_, ?_⟩
  · rw [hcomments, List.length_map, hblocks]
  · rw [hcs, List.length_append] at hblocks
    rw [hparagraphs]
    simpa using hblocks

end Generator

end ImageDimensions
