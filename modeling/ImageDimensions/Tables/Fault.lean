import ImageDimensions.ReservedName
import ImageDimensions.Repetition
import ImageDimensions.Tables.Basic

/-!
# Tables/Fault — what can be wrong with a table

Tables are fit for generation when every shape has exactly one row, no list is empty, no list repeats an
item, and no extent has a reserved name.  `Tables.fault?` names the first thing that is wrong: first the
list of shapes, then each row in turn, then the accesses, then the scalar types.
-/

namespace ImageDimensions

/-- What can be wrong with the row of one shape. -/
inductive RowFault where
  | noLayering
  | repeatedLayering (l : Layering)
  | noSampling
  | repeatedSampling (s : Sampling)
  | noExtent
  | repeatedExtent (name : String)
  | reservedExtent (name : String)
deriving DecidableEq, Repr

/-- What can be wrong with tables. -/
inductive Fault where
  | repeatedShape (s : Shape)
  | missingShape (s : Shape)
  | row (s : Shape) (f : RowFault)
  | noAccess
  | repeatedAccess (a : Access)
  | noScalar
  | repeatedScalar (s : Scalar)
deriving DecidableEq, Repr

/-- The fault `f` if the list is empty. -/
def faultOfEmpty? {α φ : Type} (l : List α) (f : φ) : Option φ := if l.isEmpty then some f else none

/-- What is wrong with a row, if anything: of each list first that it is empty, then that it repeats an
item, and of the extents last that one of them has a reserved name. -/
def ShapeRow.fault? (r : ShapeRow) : Option RowFault :=
  (faultOfEmpty? r.layerings .noLayering).or <|
  ((firstRepeated? r.layerings).map .repeatedLayering).or <|
  (faultOfEmpty? r.samplings .noSampling).or <|
  ((firstRepeated? r.samplings).map .repeatedSampling).or <|
  (faultOfEmpty? r.extents .noExtent).or <|
  ((firstRepeated? r.extents).map .repeatedExtent).or <|
  (r.extents.find? (· ∈ ReservedName.all)).map .reservedExtent

/-- What is wrong with tables, if anything. -/
def Tables.fault? (t : Tables) : Option Fault :=
  ((firstRepeated? (t.rows.map ShapeRow.shape)).map .repeatedShape).or <|
  ((Shape.all.find? fun s => (t.row? s).isNone).map .missingShape).or <|
  (t.rows.findSome? fun r => r.fault?.map (.row r.shape)).or <|
  (faultOfEmpty? t.accesses .noAccess).or <|
  ((firstRepeated? t.accesses).map .repeatedAccess).or <|
  (faultOfEmpty? t.scalars .noScalar).or <|
  (firstRepeated? t.scalars).map .repeatedScalar

/-- The message about a fault of a row, without the name of its shape. -/
def RowFault.message : RowFault → String
  | noLayering => "has no array variants"
  | repeatedLayering l => "lists array variant " ++ l.label ++ " twice"
  | noSampling => "has no multisample flags"
  | repeatedSampling s => "lists multisample flag " ++ toString s.flag ++ " twice"
  | noExtent => "has no positional parameters"
  | repeatedExtent name => "lists parameter `" ++ name ++ "` twice"
  | reservedExtent name => "uses reserved parameter name `" ++ name ++ "`"

/-- The message about a fault. -/
def Fault.message : Fault → String
  | repeatedShape s => "shape " ++ s.suffix ++ " is listed more than once"
  | missingShape s => "shape " ++ s.suffix ++ " is missing from the shape table"
  | row s f => "shape " ++ s.suffix ++ " " ++ f.message
  | noAccess => "no access modes"
  | repeatedAccess a => "access mode " ++ a.label ++ " is listed more than once"
  | noScalar => "no element types"
  | repeatedScalar s => "element type " ++ s.keyword ++ " is listed more than once"

end ImageDimensions
