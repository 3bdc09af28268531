/-!
# Repetition — the first item of a list that has been seen before

`firstRepeated? l` reads `l` from the left and stops at the first item that equals an earlier one.  Of
several repeated values it names the one whose *second* occurrence comes first.
-/

namespace ImageDimensions

variable {α : Type} [DecidableEq α]

/-- The first item that equals one of `seen` or an earlier item of the list. -/
def firstRepeatedAfter? (seen : List α) : List α → Option α
  | [] => none
  | a :: l => if a ∈ seen then some a else firstRepeatedAfter? (a :: seen) l

/-- The first item that equals an earlier item of the list. -/
def firstRepeated? (l : List α) : Option α := firstRepeatedAfter? [] l

example : firstRepeated? [1, 2, 2, 1] = some 2 := by decide

end ImageDimensions
