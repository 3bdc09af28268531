import Mathlib.Data.List.Basic
import ImageDimensions.Proofs.Concatenation
import ImageDimensions.Proofs.Document
import ImageDimensions.Template

/-!
# Proofs/Template/Lines — the fragments of generated code

What the templates put together has no line break of its own, other than at the end of the header and of a
block.  So the fragments of a block are lines if the names in it are (`isFragment_of_mem_block`).  Whatever
the names are, none of them but the last is the end of a block (`blockClose_notMem_opened`).

The comment above a block and the line that opens it each tell the image type on every axis
(`blockComment_inj`, `extensionLine_inj`): both list it field by field (`eq_of_joined_eq`).
-/

namespace ImageDimensions

/-! ## Labels and numbers -/

/-- Whether a text can stand in a list on one line: it has no comma and no line break. -/
def IsField (text : String) : Prop := ',' ∉ text.toList ∧ '\n' ∉ text.toList

instance : DecidablePred IsField := fun _ => inferInstanceAs (Decidable (_ ∧ _))

theorem Shape.isField_suffix (s : Shape) : IsField s.suffix := by cases s <;> decide

theorem Access.isField_label (a : Access) : IsField a.label := by cases a <;> decide

theorem Layering.isField_label (l : Layering) : IsField l.label := by cases l <;> decide

theorem Sampling.isField_label (s : Sampling) : IsField s.label := by cases s <;> decide

theorem Layering.isField_flag (l : Layering) : IsField (toString l.flag) := by cases l <;> decide

theorem Sampling.isField_flag (s : Sampling) : IsField (toString s.flag) := by cases s <;> decide

theorem Access.isField_code (a : Access) : IsField (toString a.code) := by cases a <;> decide

theorem Shape.suffix_injective : Function.Injective suffix := by
  intro s s'
  cases s <;> cases s' <;> decide

theorem Access.label_injective : Function.Injective label := by
  intro a a'
  cases a <;> cases a' <;> decide

theorem Layering.label_injective : Function.Injective label := by
  intro l l'
  cases l <;> cases l' <;> decide

theorem Sampling.label_injective : Function.Injective label := by
  intro s s'
  cases s <;> cases s' <;> decide

theorem Layering.flag_injective : Function.Injective fun l => toString (flag l) := by
  intro l l'
  cases l <;> cases l' <;> decide

theorem Sampling.flag_injective : Function.Injective fun s => toString (flag s) := by
  intro s s'
  cases s <;> cases s' <;> decide

theorem Access.code_injective : Function.Injective fun a => toString (code a) := by
  intro a a'
  cases a <;> cases a' <;> decide

namespace Template

open Document (IsLine IsFragment)

variable {c c' : Combination}

/-! ## Fields -/

/-- Fields are recovered from the text that they are joined to. -/
theorem eq_of_joined_eq {ss ts : List String} (hss : ss ≠ []) (hts : ts ≠ [])
    (hfields : ∀ s ∈ ss, IsField s) (hfields' : ∀ t ∈ ts, IsField t)
    (h : ", ".intercalate ss = ", ".intercalate ts) : ss = ts := by
  have hjoined : [',', ' '].intercalate (ss.map String.toList)
      = [',', ' '].intercalate (ts.map String.toList) := by
    have hlists := congrArg String.toList h
    rwa [String.toList_intercalate, String.toList_intercalate] at hlists
  have hmap : ss.map String.toList = ts.map String.toList :=
    eq_of_intercalate_eq (by simpa using hss) (by simpa using hts)
      (List.forall_mem_map.2 fun s hs => (hfields s hs).1)
      (List.forall_mem_map.2 fun t ht => (hfields' t ht).1) hjoined
  exact List.map_injective_iff.2 (fun _ _ => String.toList_inj.1) hmap

theorem newline_notMem_joined {ss : List String} (h : ∀ s ∈ ss, '\n' ∉ s.toList) :
    '\n' ∉ (", ".intercalate ss).toList := by
  rw [String.toList_intercalate]
  refine notMem_intercalate (by decide) fun l hl => ?_
  obtain ⟨s, hs, rfl⟩ := List.mem_map.1 hl
  exact h s hs

/-- What the comment above a block lists. -/
def commentFields (c : Combination) : List String :=
  [c.row.shape.suffix, c.access.label, c.layering.label, c.sampling.label]

/-- What the line that opens a block lists. -/
def extensionFields (c : Combination) : List String :=
  [c.row.shape.suffix, toString c.layering.flag, toString c.sampling.flag, "sampleCount",
    toString c.access.code, "format> \x7b"]

theorem blockComment_eq (c : Combination) :
    blockComment c = "// Shape " ++ ", ".intercalate (commentFields c) := by
  unfold blockComment
  simp only [commentFields, String.intercalate_cons_cons, String.intercalate_singleton,
    String.append_assoc]

theorem extensionLine_eq (c : Combination) : extensionLine c =
    "public extension _Image<T, __Shape" ++ ", ".intercalate (extensionFields c) := by
  have hcount : ", sampleCount, " = ", " ++ ("sampleCount" ++ ", ") := by decide
  have hformat : ", format> \x7b" = ", " ++ "format> \x7b" := by decide
  unfold extensionLine
  simp only [extensionFields, hcount, hformat, String.intercalate_cons_cons,
    String.intercalate_singleton, String.append_assoc]

theorem isField_of_mem_commentFields {s : String} (hs : s ∈ commentFields c) : IsField s := by
  simp only [commentFields, List.mem_cons, List.not_mem_nil, or_false] at hs
  rcases hs with rfl | rfl | rfl | rfl
  · exact Shape.isField_suffix _
  · exact Access.isField_label _
  · exact Layering.isField_label _
  · exact Sampling.isField_label _

theorem isField_of_mem_extensionFields {s : String} (hs : s ∈ extensionFields c) : IsField s := by
  simp only [extensionFields, List.mem_cons, List.not_mem_nil, or_false] at hs
  rcases hs with rfl | rfl | rfl | rfl | rfl | rfl
  · exact Shape.isField_suffix _
  · exact Layering.isField_flag _
  · exact Sampling.isField_flag _
  · decide
  · exact Access.isField_code _
  · decide

/-- **The comment above a block tells its image type.** -/
theorem blockComment_inj (h : blockComment c = blockComment c') :
    c.row.shape = c'.row.shape ∧ c.layering = c'.layering ∧ c.sampling = c'.sampling
      ∧ c.access = c'.access := by
  rw [blockComment_eq, blockComment_eq, String.append_right_inj] at h
  have hfields : commentFields c = commentFields c' :=
    eq_of_joined_eq (List.cons_ne_nil _ _) (List.cons_ne_nil _ _)
      (fun _ => isField_of_mem_commentFields) (fun _ => isField_of_mem_commentFields) h
  simp only [commentFields, List.cons_eq_cons, and_true] at hfields
  obtain ⟨hshape, haccess, hlayering, hsampling⟩ := hfields
  exact ⟨Shape.suffix_injective hshape, Layering.label_injective hlayering,
    Sampling.label_injective hsampling, Access.label_injective haccess⟩

/-- **The line that opens a block tells its image type.** -/
theorem extensionLine_inj (h : extensionLine c = extensionLine c') :
    c.row.shape = c'.row.shape ∧ c.layering = c'.layering ∧ c.sampling = c'.sampling
      ∧ c.access = c'.access := by
  rw [extensionLine_eq, extensionLine_eq, String.append_right_inj] at h
  have hfields : extensionFields c = extensionFields c' :=
    eq_of_joined_eq (List.cons_ne_nil _ _) (List.cons_ne_nil _ _)
      (fun _ => isField_of_mem_extensionFields) (fun _ => isField_of_mem_extensionFields) h
  simp only [extensionFields, List.cons_eq_cons, and_true, true_and] at hfields
  obtain ⟨hshape, hlayering, hsampling, haccess⟩ := hfields
  exact ⟨Shape.suffix_injective hshape, Layering.flag_injective hlayering,
    Sampling.flag_injective hsampling, Access.code_injective haccess⟩

/-! ## Lines -/

theorem isLine_blockComment (c : Combination) : IsLine (blockComment c) := by
  have hfields : '\n' ∉ (", ".intercalate (commentFields c)).toList :=
    newline_notMem_joined fun _ hs => (isField_of_mem_commentFields hs).2
  rw [blockComment_eq]
  constructor
  · simp
  · simp only [String.toList_append, List.mem_append, hfields]
    decide

theorem isLine_genericLine : IsLine genericLine := by
  constructor <;> decide

theorem isLine_extensionLine (c : Combination) : IsLine (extensionLine c) := by
  have hfields : '\n' ∉ (", ".intercalate (extensionFields c)).toList :=
    newline_notMem_joined fun _ hs => (isField_of_mem_extensionFields hs).2
  rw [extensionLine_eq]
  constructor
  · simp
  · simp only [String.toList_append, List.mem_append, hfields]
    decide

/-- Whether a signature can be written on one line. -/
def OnOneLine (o : Overload) : Prop := ∀ p ∈ o.parameters, '\n' ∉ p.name.toList

theorem newline_notMem_declaration (s : Scalar) {p : Parameter} (h : '\n' ∉ p.name.toList) :
    '\n' ∉ (declaration s p).toList := by
  have hkeyword : '\n' ∉ s.keyword.toList := by cases s <;> decide
  cases hd : p.direction <;> simp [declaration, hd, h, hkeyword]

theorem isLine_methodLine (s : Scalar) {o : Overload} (h : OnOneLine o) : IsLine (methodLine s o) := by
  have hdeclarations : '\n' ∉ (", ".intercalate (o.parameters.map (declaration s))).toList := by
    refine newline_notMem_joined fun text htext => ?_
    obtain ⟨p, hp, rfl⟩ := List.mem_map.1 htext
    exact newline_notMem_declaration s (h p hp)
  unfold methodLine
  constructor
  · simp
  · simp only [String.toList_append, List.mem_append, hdeclarations]
    decide

theorem isLine_callLine {o : Overload} (h : OnOneLine o) : IsLine (callLine o) := by
  have hnames : '\n' ∉ (", ".intercalate o.argumentNames).toList := by
    refine newline_notMem_joined fun name hname => ?_
    obtain ⟨p, hp, rfl⟩ := List.mem_map.1 hname
    exact h p hp
  unfold callLine
  constructor
  · simp
  · simp only [String.toList_append, List.mem_append, hnames]
    decide

theorem isLine_of_mem_method {s : Scalar} {o : Overload} (h : OnOneLine o) {f : String}
    (hf : f ∈ method s o) : IsLine f := by
  simp only [method, List.mem_cons, List.not_mem_nil, or_false] at hf
  rcases hf with rfl | rfl | rfl | rfl
  · exact isLine_methodLine s h
  · constructor <;> decide
  · exact isLine_callLine h
  · constructor <;> decide

/-! ## Blocks -/

/-- The lines of all methods of an image type. -/
def methodLines (scalars : List Scalar) (c : Combination) : List String :=
  scalars.flatMap fun s => c.overloads.flatMap (method s)

/-- The block of an image type without its end. -/
def opened (scalars : List Scalar) (c : Combination) : List String :=
  blockComment c :: blockHeader c ++ methodLines scalars c

theorem block_eq_opened_append (scalars : List Scalar) (c : Combination) :
    block scalars c = opened scalars c ++ [blockClose] := rfl

theorem mem_methodLines {scalars : List Scalar} {f : String} : f ∈ methodLines scalars c ↔
    ∃ s ∈ scalars, ∃ o ∈ c.overloads, f ∈ method s o := by
  simp [methodLines, List.mem_flatMap]

theorem blockClose_ne_append {start : String} (h : ¬ start.toList <+: blockClose.toList)
    (rest : String) : blockClose ≠ start ++ rest :=
  fun he => h ⟨rest.toList, by rw [he, String.toList_append]⟩

/-- **A block ends once only**, whatever the names in it are. -/
theorem blockClose_notMem_opened (scalars : List Scalar) (c : Combination) :
    blockClose ∉ opened scalars c := by
  intro h
  simp only [opened, blockHeader, List.cons_append, List.nil_append, List.mem_cons,
    mem_methodLines, method, List.not_mem_nil, or_false] at h
  unfold blockComment genericLine extensionLine methodLine callLine at h
  simp only [String.append_assoc] at h
  rcases h with h | h | h | ⟨s, -, o, -, h | h | h | h⟩
  · exact blockClose_ne_append (by decide) _ h
  · exact absurd h (by decide)
  · exact blockClose_ne_append (by decide) _ h
  · exact blockClose_ne_append (by decide) _ h
  · exact absurd h (by decide)
  · exact blockClose_ne_append (by decide) _ h
  · exact absurd h (by decide)

/-- **The fragments of a block are lines**, but for its end. -/
theorem isFragment_of_mem_block {scalars : List Scalar} (h : ∀ o ∈ c.overloads, OnOneLine o)
    {f : String} (hf : f ∈ block scalars c) : IsFragment f := by
  simp only [block_eq_opened_append, opened, blockHeader, List.cons_append, List.nil_append, List.mem_cons,
    List.mem_append, mem_methodLines, List.not_mem_nil, or_false] at hf
  rcases hf with rfl | rfl | rfl | ⟨s, -, o, ho, hf⟩ | rfl
  · exact (isLine_blockComment c).isFragment
  · exact isLine_genericLine.isFragment
  · exact (isLine_extensionLine c).isFragment
  · exact (isLine_of_mem_method (h o ho) hf).isFragment
  · exact ⟨"\x7d", ⟨by simp, by decide⟩, .inr rfl⟩

end Template

end ImageDimensions
