import ImageDimensions.FileSystem.Basic

/-!
# FileSystem/Listing — everything below the working directory

`FileSystem.listing` gives each entry with the names that lead to it.  The names of a directory come in
the order of their bytes, and its contents right after it: that is the lexicographic order of the
sequences of names.
-/

namespace ImageDimensions

/-- The names on the way down from a directory to a location below it. -/
def Location.below? (directory l : Location) : Option (List (List UInt8)) :=
  if directory <:+ l ∧ l ≠ directory then
    some ((l.take (l.length - directory.length)).reverse.map Name.bytes)
  else none

/-- The entries below the working directory, each with the names that lead to it. -/
def FileSystem.listing (fs : FileSystem) : List (List (List UInt8) × Entry) :=
  let below := fs.entries.filterMap fun (l, e) =>
    (Location.below? fs.workingDirectory l).map fun names => (names, e)
  below.mergeSort fun a b => a.1 ≤ b.1

end ImageDimensions
