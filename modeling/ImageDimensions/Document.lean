/-!
# Document — text under construction

A `Document` is a list of fragments.  Fragments are only ever added at the end, and the text is all of
them with a line break between any two.
-/

namespace ImageDimensions

/-- A text as the list of its fragments. -/
structure Document where
  fragments : List String
deriving DecidableEq, Repr

namespace Document

/-- The document without fragments. -/
def empty : Document := ⟨[]⟩

/-- Adds a fragment at the end. -/
def push (d : Document) (fragment : String) : Document := ⟨d.fragments ++ [fragment]⟩

/-- Adds fragments at the end, in their order. -/
def extend (d : Document) (fragments : List String) : Document := ⟨d.fragments ++ fragments⟩

/-- The fragments, with a line break between any two. -/
def text (d : Document) : String := "\n".intercalate d.fragments

/-- The text, cut at every line break. -/
def lines (d : Document) : List String := (d.text.toList.splitOn '\n').map String.ofList

@[simp] theorem fragments_empty : empty.fragments = [] := rfl

@[simp] theorem fragments_push (d : Document) (fragment : String) :
    (d.push fragment).fragments = d.fragments ++ [fragment] := rfl

@[simp] theorem fragments_extend (d : Document) (fragments : List String) :
    (d.extend fragments).fragments = d.fragments ++ fragments := rfl

end Document

end ImageDimensions
