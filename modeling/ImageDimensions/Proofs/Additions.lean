import ImageDimensions.Proofs.Document

/-!
# Proofs/Additions — documents put together, and told apart by their text

    additions ──fragments──▸ document ──text──▸ lines

A document is what has been added, however it was divided into additions (`ofAdditions_eq_iff`).  The text
forgets where a fragment ends if the fragment has line breaks of its own.  If none has, the lines are the
fragments again (`lines_eq_fragments`), and only the document without fragments is taken for another one:
that of a single empty fragment (`text_eq_text_iff`).
-/

namespace ImageDimensions.Document

theorem fragments_inj {d d' : Document} : d.fragments = d'.fragments ↔ d = d' := by
  cases d
  cases d'
  rw [mk.injEq]

theorem fragments_ne_nil_iff {d : Document} : d.fragments ≠ [] ↔ d ≠ empty := fragments_inj.not

/-! ## Additions -/

/-- What may be done to a document under construction. -/
inductive Addition where
  | push (fragment : String)
  | extend (fragments : List String)
deriving DecidableEq

namespace Addition

/-- The fragments that are added. -/
def fragments : Addition → List String
  | push fragment => [fragment]
  | extend fragments => fragments

/-- The document with the addition. -/
def addTo (d : Document) : Addition → Document
  | push fragment => d.push fragment
  | extend fragments => d.extend fragments

theorem fragments_addTo (d : Document) (addition : Addition) :
    (addition.addTo d).fragments = d.fragments ++ addition.fragments := by
  cases addition <;> rfl

end Addition

/-- The document with the additions, one after the other. -/
def withAdditions (d : Document) (additions : List Addition) : Document := additions.foldl Addition.addTo d

/-- What has been put together from additions. -/
def ofAdditions (additions : List Addition) : Document := empty.withAdditions additions

/-- **Additions add up**: the document has all their fragments, in the order of the additions. -/
theorem fragments_withAdditions (d : Document) (additions : List Addition) :
    (d.withAdditions additions).fragments = d.fragments ++ additions.flatMap Addition.fragments := by
  induction additions generalizing d with
  | nil => simp [withAdditions]
  | cons addition rest ih =>
    have hrest := ih (addition.addTo d)
    rw [Addition.fragments_addTo, List.append_assoc, ← List.flatMap_cons] at hrest
    exact hrest

theorem fragments_ofAdditions (additions : List Addition) :
    (ofAdditions additions).fragments = additions.flatMap Addition.fragments := by
  rw [ofAdditions, fragments_withAdditions, fragments_empty, List.nil_append]

/-- How fragments are divided into additions does not matter. -/
theorem ofAdditions_eq_iff {additions additions' : List Addition} :
    ofAdditions additions = ofAdditions additions' ↔
      additions.flatMap Addition.fragments = additions'.flatMap Addition.fragments := by
  rw [← fragments_inj, fragments_ofAdditions, fragments_ofAdditions]

/-- Additions one by one, or all their fragments at once. -/
theorem withAdditions_eq_extend (d : Document) (additions : List Addition) :
    d.withAdditions additions = d.extend (ofAdditions additions).fragments := by
  rw [← fragments_inj, fragments_withAdditions, fragments_extend, fragments_ofAdditions]

/-! ## Texts -/

/-- **Texts add up** with a line break in between, unless one of the documents is empty. -/
theorem text_extend_eq_iff {d d' : Document} :
    (d.extend d'.fragments).text = d.text ++ "\n" ++ d'.text ↔ d ≠ empty ∧ d' ≠ empty := by
  constructor
  · intro htext
    -- An empty document adds nothing to the text, so the line break is one character too many.
    have hlength := congrArg String.length htext
    constructor
    · rintro rfl
      simp [text] at hlength
    · rintro rfl
      simp [text] at hlength
  · rintro ⟨hne, hne'⟩
    exact String.intercalate_append_of_ne_nil (fragments_ne_nil_iff.2 hne) (fragments_ne_nil_iff.2 hne')

theorem lines_empty : empty.lines = [""] := linesOf_empty

/-- Fragments without line breaks are the lines of the document. -/
theorem lines_eq_fragments {d : Document} (hne : d ≠ empty) (h : ∀ f ∈ d.fragments, '\n' ∉ f.toList) :
    d.lines = d.fragments := by
  rw [lines_eq_flatMap (fragments_ne_nil_iff.2 hne), flatMap_linesOf_of_notMem h]

/-- The document of one empty fragment is the only one that looks like the empty document. -/
theorem eq_push_empty_of_text_eq {d : Document} (hne : d ≠ empty) (h : ∀ f ∈ d.fragments, '\n' ∉ f.toList)
    (htext : d.text = empty.text) : d = empty.push "" := by
  have hlines : d.lines = empty.lines := congrArg linesOf htext
  rw [lines_eq_fragments hne h, lines_empty] at hlines
  exact fragments_inj.1 hlines

/-- **Texts of fragments without line breaks** tell the documents apart, but for the empty document and that
of one empty fragment. -/
theorem text_eq_text_iff {d d' : Document} (h : ∀ f ∈ d.fragments, '\n' ∉ f.toList)
    (h' : ∀ f ∈ d'.fragments, '\n' ∉ f.toList) :
    d.text = d'.text ↔ d = d' ∨ d = empty ∧ d' = empty.push "" ∨ d = empty.push "" ∧ d' = empty := by
  constructor
  · intro htext
    rcases eq_or_ne d empty with rfl | hne <;> rcases eq_or_ne d' empty with rfl | hne'
    · exact .inl rfl
    · exact .inr (.inl ⟨rfl, eq_push_empty_of_text_eq hne' h' htext.symm⟩)
    · exact .inr (.inr ⟨eq_push_empty_of_text_eq hne h htext, rfl⟩)
    · have hlines : d.lines = d'.lines := congrArg linesOf htext
      rw [lines_eq_fragments hne h, lines_eq_fragments hne' h'] at hlines
      exact .inl (fragments_inj.1 hlines)
  · rintro (rfl | ⟨rfl, rfl⟩ | ⟨rfl, rfl⟩)
    all_goals rfl

/-- A fragment with a line break is taken for two. -/
example : (empty.push "a\nb").text = ((empty.push "a").push "b").text := by decide

/-- **Documents, what was added to them, and their texts.**  Documents are equal exactly if the same fragments
were added in the same order, in whatever groups.  Additions to a document put a line break and their own
text behind its text, exactly if neither is empty.  Where no fragment has a line break, texts are equal
exactly if the documents are, or if one is empty and the other has one empty fragment only. -/
theorem additions_and_text :
    (∀ additions additions' : List Addition, ofAdditions additions = ofAdditions additions' ↔
      additions.flatMap Addition.fragments = additions'.flatMap Addition.fragments) ∧
    (∀ (d : Document) (additions : List Addition),
      (d.withAdditions additions).text = d.text ++ "\n" ++ (ofAdditions additions).text ↔
        d ≠ empty ∧ ofAdditions additions ≠ empty) ∧
    ∀ d d' : Document, (∀ f ∈ d.fragments, '\n' ∉ f.toList) → (∀ f ∈ d'.fragments, '\n' ∉ f.toList) →
      (d.text = d'.text ↔ d = d' ∨ d = empty ∧ d' = empty.push "" ∨ d = empty.push "" ∧ d' = empty) := by
  refine ⟨fun _ _ => ofAdditions_eq_iff, fun d additions => ?_, fun _ _ => text_eq_text_iff⟩
  rw [withAdditions_eq_extend]
  exact text_extend_eq_iff

/-- An empty fragment alone does not show in a text, two do. -/
theorem text_of_emptyFragments :
    (∀ f ∈ (ofAdditions [.push ""]).fragments, '\n' ∉ f.toList) ∧
      (∀ f ∈ (ofAdditions [.push "", .extend [""]]).fragments, '\n' ∉ f.toList) ∧
      (ofAdditions [.push ""]).text = empty.text ∧
      (ofAdditions [.push ""]).text ≠ (ofAdditions [.push "", .extend [""]]).text := by
  have hone : ∀ f ∈ (ofAdditions [.push ""]).fragments, '\n' ∉ f.toList := by decide
  have htwo : ∀ f ∈ (ofAdditions [.push "", .extend [""]]).fragments, '\n' ∉ f.toList := by decide
  obtain ⟨-, -, htold⟩ := additions_and_text
  refine ⟨hone, htwo, ?_, fun htext => ?_⟩
  · exact (htold _ empty hone (by simp)).2 (.inr (.inr ⟨rfl, rfl⟩))
  · exact absurd ((htold _ _ hone htwo).1 htext) (by decide)

end ImageDimensions.Document
