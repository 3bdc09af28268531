import Mathlib.Data.List.Basic

/-!
# Proofs/Separation — a text cut at a separator

A text is cut where a separator is found, from left to right (`partsBetween`).  Texts that have been joined
with the separator between any two are what it is cut into (`partsBetween_intercalate`), if the separator is
not found too soon: behind a text it may begin in the text, as a blank line does behind a text that ends in
a line break.  `FoundBehind` says that it does not.
-/

namespace ImageDimensions

open String.Slice (Subslice)
open String.Slice.Pattern.Model

/-- The parts of a text between the occurrences of a separator, which is looked for from left to right. -/
def partsBetween (sep text : String) : List String := (text.split sep).toList.map String.Slice.copy

/-- Whether a separator that is put behind a text is found there and no sooner. -/
def FoundBehind (sep part : String) : Prop :=
  ∀ before after, part ++ sep = before ++ sep ++ after → after = ""

variable {sep part rest before : String} {s : String.Slice} {pos pos' : s.Pos}

/-- An occurrence of the separator that begins in the text ends within text and separator. -/
theorem FoundBehind.eq_empty (h : FoundBehind sep part) {u v after : String} (hpart : part = u ++ v)
    (hv : v ++ (sep ++ rest) = sep ++ after) : v = "" := by
  have hfound : sep.toList <+: (v ++ (sep ++ rest)).toList := by
    rw [hv, String.toList_append]
    exact List.prefix_append _ _
  have hbehind : (v ++ sep).toList <+: (v ++ (sep ++ rest)).toList := by
    rw [← String.append_assoc, String.toList_append (s := v ++ sep)]
    exact List.prefix_append _ _
  obtain ⟨w, hw⟩ := List.prefix_of_prefix_length_le hfound hbehind (by simp)
  have hvsep : v ++ sep = sep ++ String.ofList w := by
    rw [← String.toList_inj, ← hw, String.toList_append, String.toList_ofList]
  have hlength := congrArg String.length hvsep
  rw [h u (String.ofList w) (by rw [hpart, String.append_assoc, hvsep, String.append_assoc])] at hlength
  rw [← String.length_eq_zero_iff]
  simpa using hlength

theorem copy_subslice (h : pos ≤ pos') {text : String} (hpos : pos.Splits before (text ++ rest))
    (hpos' : pos'.Splits (before ++ text) rest) : (s.subslice pos pos' h).copy = text := by
  obtain ⟨_, hcopy⟩ := String.Slice.copy_slice_eq_iff_splits.2 ⟨before, rest, hpos, hpos'⟩
  exact hcopy

/-- **From a position on**, a text is cut into what has been joined behind the position. -/
theorem map_copy_split [StrictPatternModel sep] {last : String}
    (hlast : ∀ before after, last ≠ before ++ sep ++ after) :
    ∀ {parts : List String}, (∀ part ∈ parts, FoundBehind sep part) → ∀ {pos : s.Pos} {before : String},
      pos.Splits before (sep.intercalate (parts ++ [last])) →
        (String.Slice.Pattern.Model.split sep pos pos (Std.le_refl _)).map Subslice.copy = parts ++ [last]
  | [], _, pos, before, hpos => by
    rw [List.nil_append, String.intercalate_singleton] at hpos
    have hnone : ∀ q : s.Pos, pos ≤ q → q < s.endPos → ¬ MatchesAt sep q := by
      intro q hle _ hmatch
      obtain ⟨t, after, hq⟩ := ForwardStringSearcher.matchesAt_iff_splits.1 hmatch
      obtain ⟨u, -, hu⟩ := (hpos.le_iff_exists_eq_append hq).1 hle
      exact hlast u after (by rw [hu, String.append_assoc])
    have hend : s.endPos.Splits (before ++ last) "" := by
      rw [← hpos.eq_append]
      exact String.Slice.splits_endPos s
    have hpos' : pos.Splits before (last ++ "") := by rwa [String.append_empty]
    rw [split_eq_of_not_matchesAt s.endPos (String.Slice.Pos.le_endPos _) hnone, split_endPos,
      List.map_singleton, copy_subslice _ hpos' hend, List.nil_append]
  | part :: parts, hparts, pos, before, hpos => by
    rw [List.forall_mem_cons] at hparts
    rw [List.cons_append, String.intercalate_cons_of_ne_nil (by simp), String.append_assoc] at hpos
    have hfound := hpos.splits_rotateRight
    have hbehind := hfound.splits_rotateRight
    have hle : pos ≤ hpos.rotateRight := (hpos.le_iff_exists_eq_append hfound).2 ⟨part, rfl, rfl⟩
    have hnone : ∀ q : s.Pos, pos ≤ q → q < hpos.rotateRight → ¬ MatchesAt sep q := by
      intro q hle hlt hmatch
      obtain ⟨t, after, hq⟩ := ForwardStringSearcher.matchesAt_iff_splits.1 hmatch
      obtain ⟨u, rfl, -⟩ := (hpos.le_iff_exists_eq_append hq).1 hle
      obtain ⟨v, hne, huv, hafter⟩ := (hq.lt_iff_exists_eq_append hfound).1 hlt
      rw [String.append_assoc, String.append_right_inj] at huv
      exact hne (hparts.1.eq_empty huv hafter.symm)
    have hmatch : IsLongestMatchAt sep hpos.rotateRight hfound.rotateRight :=
      ForwardStringSearcher.isLongestMatchAt_iff_splits.2 ⟨_, _, hfound, hbehind⟩
    rw [split_eq_of_not_matchesAt _ hle hnone, split_eq_of_isLongestMatchAt hmatch, List.map_cons,
      copy_subslice _ hpos hfound, map_copy_split hlast hparts.2 hbehind, List.cons_append]

/-- **What has been joined is what is cut.** -/
theorem partsBetween_intercalate (hsep : sep ≠ "") {parts : List String} {last : String}
    (hparts : ∀ part ∈ parts, FoundBehind sep part)
    (hlast : ∀ before after, last ≠ before ++ sep ++ after) :
    partsBetween sep (sep.intercalate (parts ++ [last])) = parts ++ [last] := by
  have := ForwardStringSearcher.strictPatternModel hsep
  have := ForwardStringSearcher.lawfulToForwardSearcherModel hsep
  have hstart := String.Slice.splits_startPos (sep.intercalate (parts ++ [last])).toSlice
  rw [String.copy_toSlice] at hstart
  rw [partsBetween, String.split, String.Slice.toList_split_eq_splitToSubslice,
    String.Slice.Pattern.toList_splitToSubslice_eq_modelSplit, List.map_map]
  exact map_copy_split hlast hparts hstart

end ImageDimensions
