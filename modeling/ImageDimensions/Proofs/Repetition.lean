import ImageDimensions.Repetition

/-!
# Proofs/Repetition — what a list repeats first, if anything

`firstRepeated?` reads a list with the items before it at hand, so that what is proved of it by
induction speaks of these items too: nothing is found in the rest exactly if the rest repeats neither
itself nor them, and what is found is behind a part that does neither.
-/

namespace ImageDimensions

variable {α : Type} [DecidableEq α]

theorem firstRepeatedAfter?_eq_none_iff (seen : List α) :
    ∀ l : List α, firstRepeatedAfter? seen l = none ↔ l.Nodup ∧ ∀ a ∈ l, a ∉ seen
  | [] => by simp [firstRepeatedAfter?]
  | a :: l => by
    rw [firstRepeatedAfter?, List.nodup_cons, List.forall_mem_cons]
    by_cases ha : a ∈ seen
    · simp [ha]
    · rw [if_neg ha, firstRepeatedAfter?_eq_none_iff (a :: seen) l]
      constructor
      · rintro ⟨hnd, hseen⟩
        exact ⟨⟨fun h => hseen a h List.mem_cons_self, hnd⟩, ha,
          fun b hb h => hseen b hb (List.mem_cons_of_mem a h)⟩
      · rintro ⟨⟨hal, hnd⟩, -, hseen⟩
        refine ⟨hnd, fun b hb h => ?_⟩
        rcases List.mem_cons.1 h with rfl | h
        · exact hal hb
        · exact hseen b hb h

/-- **No item is named exactly if no item is repeated.** -/
theorem firstRepeated?_eq_none_iff {l : List α} : firstRepeated? l = none ↔ l.Nodup := by
  simp [firstRepeated?, firstRepeatedAfter?_eq_none_iff]

/-- Whether an item is the first of a list that has been seen before: it is among the items before it,
and these repeat nothing. -/
def IsFirstRepeated (l : List α) (a : α) : Prop :=
  ∃ before after, l = before ++ a :: after ∧ a ∈ before ∧ before.Nodup

theorem firstRepeatedAfter?_eq_some_iff {a : α} (seen : List α) : ∀ l : List α,
    firstRepeatedAfter? seen l = some a ↔ ∃ before after, l = before ++ a :: after
      ∧ (a ∈ seen ∨ a ∈ before) ∧ before.Nodup ∧ ∀ b ∈ before, b ∉ seen
  | [] => by simp [firstRepeatedAfter?]
  | b :: l => by
    -- An item that has been read is seen for the rest, and is before the rest for the list.
    have hmem : ∀ before, a ∈ b :: seen ∨ a ∈ before ↔ a ∈ seen ∨ a ∈ b :: before := fun before => by
      simp only [List.mem_cons, or_assoc, or_left_comm]
    rw [firstRepeatedAfter?]
    by_cases hb : b ∈ seen
    · rw [if_pos hb, Option.some_inj]
      constructor
      · rintro rfl
        exact ⟨[], l, rfl, .inl hb, .nil, by simp⟩
      · rintro ⟨_ | ⟨c, before⟩, after, hl, -, -, hseen⟩
        · exact (List.cons_eq_cons.1 hl).1
        · rw [(List.cons_eq_cons.1 hl).1] at hb
          exact absurd hb (hseen c List.mem_cons_self)
    · rw [if_neg hb, firstRepeatedAfter?_eq_some_iff (b :: seen) l]
      constructor
      · rintro ⟨before, after, rfl, ha, hnd, hseen⟩
        have hbefore : b ∉ before := fun h => hseen b h List.mem_cons_self
        exact ⟨b :: before, after, rfl, (hmem before).1 ha, List.nodup_cons.2 ⟨hbefore, hnd⟩,
          List.forall_mem_cons.2 ⟨hb, fun c hc h => hseen c hc (List.mem_cons_of_mem b h)⟩⟩
      · rintro ⟨_ | ⟨c, before⟩, after, hl, ha, hnd, hseen⟩
        · rw [(List.cons_eq_cons.1 hl).1] at hb
          simp [hb] at ha
        · obtain ⟨rfl, rfl⟩ := List.cons_eq_cons.1 hl
          rw [List.nodup_cons] at hnd
          rw [List.forall_mem_cons] at hseen
          refine ⟨before, after, rfl, (hmem before).2 ha, hnd.2, fun c hc h => ?_⟩
          rcases List.mem_cons.1 h with rfl | h
          · exact hnd.1 hc
          · exact hseen.2 c hc h

/-- **The item that is named is the first one that has been seen before.** -/
theorem firstRepeated?_eq_some_iff {l : List α} {a : α} :
    firstRepeated? l = some a ↔ IsFirstRepeated l a := by
  simp [firstRepeated?, firstRepeatedAfter?_eq_some_iff, IsFirstRepeated]

end ImageDimensions
