import ImageDimensions.Document
import ImageDimensions.Proofs.Concatenation
import ImageDimensions.Proofs.Separation

/-!
# Proofs/Document — fragments and lines

The lines of a document are the lines of its fragments, one after the other (`lines_eq_flatMap`).  In general
that does not show where a fragment ends.  It does for fragments that are a line, or a line with a line
break behind it (`IsFragment`): only behind such a break is a line empty.

A text is cut at blank lines into paragraphs.  If each of them has lines only, and is followed by one empty
line, these are what it is cut into, the last with a line break behind it (`paragraphs_eq`).
-/

namespace ImageDimensions.Document

/-- The lines of a text. -/
def linesOf (text : String) : List String := (text.toList.splitOn '\n').map String.ofList

theorem linesOf_append_newline (a b : String) : linesOf (a ++ "\n" ++ b) = linesOf a ++ linesOf b := by
  simp [linesOf, List.splitOn_append_cons_self]

theorem linesOf_of_notMem {f : String} (h : '\n' ∉ f.toList) : linesOf f = [f] := by
  rw [linesOf, List.splitOn_eq_singleton h, List.map_singleton, String.ofList_toList]

theorem linesOf_empty : linesOf "" = [""] := rfl

theorem linesOf_ne_nil (text : String) : linesOf text ≠ [] := by
  simp [linesOf]

theorem intercalate_linesOf (text : String) : "\n".intercalate (linesOf text) = text := by
  rw [← String.toList_inj, String.toList_intercalate, linesOf, List.map_map]
  simp [Function.comp_def, List.intercalate_splitOn]

theorem linesOf_append_blank (a b : String) : linesOf (a ++ "\n\n" ++ b) = linesOf a ++ "" :: linesOf b := by
  have hbreaks : "\n\n" = "\n" ++ "\n" := by decide
  have hblank : a ++ "\n\n" ++ b = a ++ "\n" ++ ("" ++ "\n" ++ b) := by
    rw [hbreaks, String.empty_append]
    simp only [String.append_assoc]
  rw [hblank, linesOf_append_newline, linesOf_append_newline, linesOf_empty, List.singleton_append]

theorem flatMap_linesOf_of_notMem : ∀ {fs : List String}, (∀ f ∈ fs, '\n' ∉ f.toList) →
    fs.flatMap linesOf = fs
  | [], _ => rfl
  | f :: fs, h => by
    rw [List.forall_mem_cons] at h
    rw [List.flatMap_cons, linesOf_of_notMem h.1, flatMap_linesOf_of_notMem h.2, List.singleton_append]

theorem linesOf_intercalate : ∀ {fs : List String}, fs ≠ [] →
    linesOf ("\n".intercalate fs) = fs.flatMap linesOf
  | [f], _ => by simp
  | f :: g :: fs, _ => by
    rw [String.intercalate_cons_cons, linesOf_append_newline, linesOf_intercalate (List.cons_ne_nil g fs)]
    rfl

/-- **The lines of a document are those of its fragments.** -/
theorem lines_eq_flatMap {d : Document} (h : d.fragments ≠ []) :
    d.lines = d.fragments.flatMap linesOf :=
  linesOf_intercalate h

/-! ## Fragments that are recovered from their lines -/

/-- A text on one line, with something on it. -/
structure IsLine (f : String) : Prop where
  ne_empty : f ≠ ""
  newline_notMem : '\n' ∉ f.toList

/-- A line, perhaps with a line break behind it. -/
def IsFragment (f : String) : Prop := ∃ line, IsLine line ∧ (f = line ∨ f = line ++ "\n")

theorem IsLine.isFragment {f : String} (h : IsLine f) : IsFragment f := ⟨f, h, .inl rfl⟩

theorem linesOf_append_break {line : String} (h : IsLine line) : linesOf (line ++ "\n") = [line, ""] := by
  rw [← String.append_empty (s := line ++ "\n"), linesOf_append_newline, linesOf_of_notMem h.newline_notMem]
  rfl

theorem IsFragment.linesOf_eq {f : String} (h : IsFragment f) : ∃ line, line ≠ "" ∧
    (f = line ∧ linesOf f = [line] ∨ f = line ++ "\n" ∧ linesOf f = [line, ""]) := by
  obtain ⟨line, hline, rfl | rfl⟩ := h
  · exact ⟨f, hline.ne_empty, .inl ⟨rfl, linesOf_of_notMem hline.newline_notMem⟩⟩
  · exact ⟨line, hline.ne_empty, .inr ⟨rfl, linesOf_append_break hline⟩⟩

/-- Fragments do not begin with an empty line. -/
theorem flatMap_linesOf_ne_cons_empty {fs : List String} (h : ∀ f ∈ fs, IsFragment f)
    (rest : List String) : fs.flatMap linesOf ≠ "" :: rest := by
  cases fs with
  | nil => simp
  | cons f fs =>
    obtain ⟨line, hne, ⟨-, hf⟩ | ⟨-, hf⟩⟩ := (h f List.mem_cons_self).linesOf_eq
    all_goals simp [hf, hne]

/-- **Fragments are recovered from their lines.** -/
theorem eq_of_flatMap_linesOf_eq : ∀ {fs fs' : List String}, (∀ f ∈ fs, IsFragment f) →
    (∀ f ∈ fs', IsFragment f) → fs.flatMap linesOf = fs'.flatMap linesOf → fs = fs'
  | [], [], _, _, _ => rfl
  | [], f :: _, _, h', heq => by
    obtain ⟨line, -, ⟨-, hf⟩ | ⟨-, hf⟩⟩ := (h' f List.mem_cons_self).linesOf_eq
    all_goals simp [hf] at heq
  | f :: _, [], h, _, heq => by
    obtain ⟨line, -, ⟨-, hf⟩ | ⟨-, hf⟩⟩ := (h f List.mem_cons_self).linesOf_eq
    all_goals simp [hf] at heq
  | f :: fs, g :: fs', h, h', heq => by
    rw [List.forall_mem_cons] at h h'
    obtain ⟨line, -, hf⟩ := h.1.linesOf_eq
    obtain ⟨line', -, hg⟩ := h'.1.linesOf_eq
    rw [List.flatMap_cons, List.flatMap_cons] at heq
    rcases hf with ⟨rfl, hf⟩ | ⟨rfl, hf⟩ <;> rcases hg with ⟨rfl, hg⟩ | ⟨rfl, hg⟩ <;>
      rw [hf, hg] at heq <;> simp only [List.cons_append, List.nil_append, List.cons_eq_cons] at heq
    · rw [heq.1, eq_of_flatMap_linesOf_eq h.2 h'.2 heq.2]
    · exact absurd heq.2 (flatMap_linesOf_ne_cons_empty h.2 _)
    · exact absurd heq.2.symm (flatMap_linesOf_ne_cons_empty h'.2 _)
    · rw [heq.1, eq_of_flatMap_linesOf_eq h.2 h'.2 heq.2.2]

/-- **Documents of such fragments with the same text are the same.** -/
theorem eq_of_text_eq {d d' : Document} (hne : d.fragments ≠ []) (hne' : d'.fragments ≠ [])
    (h : ∀ f ∈ d.fragments, IsFragment f) (h' : ∀ f ∈ d'.fragments, IsFragment f)
    (htext : d.text = d'.text) : d = d' := by
  have hlines : d.lines = d'.lines := congrArg linesOf htext
  rw [lines_eq_flatMap hne, lines_eq_flatMap hne'] at hlines
  have hfragments := eq_of_flatMap_linesOf_eq h h' hlines
  cases d
  cases d'
  exact congrArg mk hfragments

/-! ## Paragraphs -/

/-- The text, cut at every blank line. -/
def paragraphs (d : Document) : List String := partsBetween "\n\n" d.text

/-- Whether lines can stand between blank lines. -/
structure IsParagraph (lines : List String) : Prop where
  ne_nil : lines ≠ []
  isLine : ∀ line ∈ lines, IsLine line

namespace IsParagraph

variable {lines : List String}

theorem empty_notMem (h : IsParagraph lines) : "" ∉ lines := fun hmem => (h.isLine "" hmem).ne_empty rfl

theorem linesOf_intercalate (h : IsParagraph lines) : linesOf ("\n".intercalate lines) = lines := by
  rw [Document.linesOf_intercalate h.ne_nil,
    flatMap_linesOf_of_notMem fun line hline => (h.isLine line hline).newline_notMem]

/-- Behind a paragraph a blank line is found where the paragraph ends. -/
theorem foundBehind (h : IsParagraph lines) : FoundBehind "\n\n" ("\n".intercalate lines) := by
  intro before after heq
  have hlines : lines ++ "" :: [""] = linesOf before ++ "" :: linesOf after := by
    rw [← linesOf_append_blank, ← heq, ← String.append_empty (s := _ ++ "\n\n"), linesOf_append_blank,
      h.linesOf_intercalate, linesOf_empty]
  have hafter : linesOf after = [""] := by
    rcases List.suffix_cons_iff.1 (suffix_of_append_cons_eq h.empty_notMem hlines) with hone | hnil
    · exact hone
    · exact absurd (List.suffix_nil.1 hnil) (linesOf_ne_nil after)
  rw [← intercalate_linesOf after, hafter, String.intercalate_singleton]

/-- In a paragraph with a line break behind it there is no blank line. -/
theorem ne_append_blank (h : IsParagraph lines) (before after : String) :
    "\n".intercalate lines ++ "\n" ≠ before ++ "\n\n" ++ after := by
  intro heq
  have hlines : lines ++ "" :: [] = linesOf before ++ "" :: linesOf after := by
    rw [← linesOf_append_blank, ← heq, ← String.append_empty (s := _ ++ "\n"), linesOf_append_newline,
      h.linesOf_intercalate, linesOf_empty]
  have hafter := List.suffix_nil.1 (suffix_of_append_cons_eq h.empty_notMem hlines)
  exact linesOf_ne_nil after hafter

end IsParagraph

/-- Lines with an empty line behind each paragraph, joined. -/
theorem intercalate_flatMap_paragraphs (last : List String) (hlast : last ≠ []) :
    ∀ {paragraphs : List (List String)}, (∀ p ∈ paragraphs, p ≠ []) →
      "\n".intercalate ((paragraphs ++ [last]).flatMap (· ++ [""])) =
        "\n\n".intercalate (paragraphs.map ("\n".intercalate ·) ++ ["\n".intercalate last ++ "\n"])
  | [], _ => by
    simp [String.intercalate_append_of_ne_nil hlast]
  | p :: paragraphs, h => by
    rw [List.forall_mem_cons] at h
    have hbreaks : "\n\n" = "\n" ++ "\n" := by decide
    have hrest : (paragraphs ++ [last]).flatMap (· ++ [""]) ≠ [] := by simp
    rw [List.cons_append, List.flatMap_cons, List.append_assoc, List.singleton_append,
      String.intercalate_append_of_ne_nil h.1 (List.cons_ne_nil _ _),
      String.intercalate_cons_of_ne_nil hrest, intercalate_flatMap_paragraphs last hlast h.2,
      List.map_cons, List.cons_append, String.intercalate_cons_of_ne_nil (by simp), hbreaks]
    simp only [String.append_assoc, String.empty_append]

/-- **A text with an empty line behind each paragraph is cut into its paragraphs**, the last with a line break
behind it. -/
theorem paragraphs_eq {d : Document} {paragraphs : List (List String)} {last : List String}
    (h : ∀ p ∈ paragraphs, IsParagraph p) (hlast : IsParagraph last)
    (hlines : d.lines = (paragraphs ++ [last]).flatMap (· ++ [""])) :
    d.paragraphs = paragraphs.map ("\n".intercalate ·) ++ ["\n".intercalate last ++ "\n"] := by
  have htext : d.text = "\n".intercalate d.lines := (intercalate_linesOf d.text).symm
  rw [Document.paragraphs, htext, hlines,
    intercalate_flatMap_paragraphs last hlast.ne_nil fun p hp => (h p hp).ne_nil]
  refine partsBetween_intercalate (by decide) (fun part hpart => ?_) hlast.ne_append_blank
  obtain ⟨p, hp, rfl⟩ := List.mem_map.1 hpart
  exact (h p hp).foundBehind

end ImageDimensions.Document
