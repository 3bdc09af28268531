import Mathlib.Data.List.Lex
import Mathlib.Tactic.MkIffOfInductiveProp
import ImageDimensions.Failure
import ImageDimensions.Proofs.Tables.Sound

/-!
# Proofs/Tables/Objections — what is said about unsound tables

Much can be wrong with tables at once, and one message is given.  `Tables.Objection` lists every check on
its own: its place in the order of the checks, when it fails, and what is said then.  The message about
tables is the objection with the least place (`Tables.fault?_names_first_objection`).

Places are compared like words: a row is checked at `[2, i, n]`, behind the lists of shapes at `[0]` and
`[1]` and ahead of the accesses at `[3]`, the rows by their index `i` and one row by the number `n` of the
check.
-/

namespace ImageDimensions

/-- Whether an item is the first of a list that has a property. -/
def IsFirst {α : Type} (p : α → Prop) (l : List α) (a : α) : Prop :=
  ∃ before after, l = before ++ a :: after ∧ p a ∧ ∀ b ∈ before, ¬ p b

/-- What can be objected to a row: at which place among the checks of a row, and in which words. -/
@[mk_iff]
inductive ShapeRow.Objection (r : ShapeRow) : Nat → String → Prop
  | noLayering : r.layerings = [] → r.Objection 0 "has no array variants"
  | repeatedLayering {l : Layering} : IsFirstRepeated r.layerings l →
      r.Objection 1 ("lists array variant " ++ l.label ++ " twice")
  | noSampling : r.samplings = [] → r.Objection 2 "has no multisample flags"
  | repeatedSampling {s : Sampling} : IsFirstRepeated r.samplings s →
      r.Objection 3 ("lists multisample flag " ++ toString s.flag ++ " twice")
  | noExtent : r.extents = [] → r.Objection 4 "has no positional parameters"
  | repeatedExtent {name : String} : IsFirstRepeated r.extents name →
      r.Objection 5 ("lists parameter `" ++ name ++ "` twice")
  | reservedExtent {name : String} : IsFirst (· ∈ ReservedName.all) r.extents name →
      r.Objection 6 ("uses reserved parameter name `" ++ name ++ "`")

/-- What can be objected to tables: at which place among all checks, and in which words. -/
@[mk_iff]
inductive Tables.Objection (t : Tables) : List Nat → String → Prop
  | repeatedShape {s : Shape} : IsFirstRepeated (t.rows.map ShapeRow.shape) s →
      t.Objection [0] ("shape " ++ s.suffix ++ " is listed more than once")
  | missingShape {s : Shape} : IsFirst (fun s => ¬ ∃ r ∈ t.rows, r.shape = s) Shape.all s →
      t.Objection [1] ("shape " ++ s.suffix ++ " is missing from the shape table")
  | row {i n : Nat} {r : ShapeRow} {text : String} : t.rows[i]? = some r → r.Objection n text →
      t.Objection [2, i, n] ("shape " ++ r.shape.suffix ++ " " ++ text)
  | noAccess : t.accesses = [] → t.Objection [3] "no access modes"
  | repeatedAccess {a : Access} : IsFirstRepeated t.accesses a →
      t.Objection [4] ("access mode " ++ a.label ++ " is listed more than once")
  | noScalar : t.scalars = [] → t.Objection [5] "no element types"
  | repeatedScalar {s : Scalar} : IsFirstRepeated t.scalars s →
      t.Objection [6] ("element type " ++ s.keyword ++ " is listed more than once")

/-! ## What comes first -/

section First

variable {ι α φ ψ : Type} [LT ι] {P Q : ι → φ → Prop} {o o' : Option φ}

/-- Whether an option holds what comes first of all that `P` puts at some place, and nothing if `P` puts
nothing anywhere. -/
def HoldsFirst (P : ι → φ → Prop) : Option φ → Prop
  | none => ∀ place x, ¬ P place x
  | some x => ∃ place, P place x ∧ ∀ place' y, P place' y → place' = place ∧ y = x ∨ place < place'

/-- One thing after another: what the second puts somewhere counts if the first puts nothing anywhere. -/
theorem HoldsFirst.or (h : HoldsFirst P o) (h' : HoldsFirst Q o')
    (hlt : ∀ i j x y, P i x → Q j y → i < j) :
    HoldsFirst (fun place x => P place x ∨ Q place x) (o.or o') := by
  cases o with
  | none =>
    cases o' with
    | none => exact fun i x hx => hx.elim (h i x) (h' i x)
    | some x =>
      obtain ⟨i, hi, hlater⟩ := h'
      exact ⟨i, .inr hi, fun j y hy => hy.elim (fun hy => absurd hy (h j y)) (hlater j y)⟩
  | some x =>
    obtain ⟨i, hi, hlater⟩ := h
    exact ⟨i, .inl hi, fun j y hy => hy.elim (hlater j y) fun hy => .inr (hlt i j x y hi hy)⟩

theorem holdsFirst_map {R : φ → Prop} (h : ∀ x, o = some x ↔ R x) (place : ι) (text : φ → ψ) :
    HoldsFirst (fun i y => ∃ x, R x ∧ i = place ∧ y = text x) (o.map text) := by
  cases o with
  | none =>
    rintro i y ⟨x, hx, -⟩
    simpa using (h x).2 hx
  | some x =>
    refine ⟨place, ⟨x, (h x).1 rfl, rfl, rfl⟩, ?_⟩
    rintro i y ⟨x', hx', rfl, rfl⟩
    exact .inl ⟨rfl, by rw [Option.some_inj.1 ((h x').2 hx')]⟩

theorem holdsFirst_faultOfEmpty? (l : List α) (f : φ) (place : ι) (text : φ → ψ) :
    HoldsFirst (fun i y => l = [] ∧ i = place ∧ y = text f) ((faultOfEmpty? l f).map text) := by
  cases l with
  | nil => exact ⟨place, ⟨rfl, rfl, rfl⟩, fun i y h => .inl h.2⟩
  | cons a l => exact fun i y h => List.cons_ne_nil a l h.1

/-- One list of things after another, the lists in the order of the items that they belong to. -/
theorem holdsFirst_findSome? {P : α → Nat → φ → Prop} {o : α → Option φ} {l : List α}
    (h : ∀ a ∈ l, HoldsFirst (P a) (o a)) (k : Nat) (text : α → φ → ψ) :
    HoldsFirst (fun place y => ∃ i n a x, l[i]? = some a ∧ P a n x ∧ place = [k, i, n] ∧ y = text a x)
      (l.findSome? fun a => (o a).map (text a)) := by
  -- An item of which nothing is held has nothing at any place.
  have hnothing : ∀ a ∈ l, (o a).map (text a) = none → ∀ n x, ¬ P a n x := by
    intro a ha hnone
    have hfirst := h a ha
    rwa [Option.map_eq_none_iff.1 hnone] at hfirst
  cases hfound : l.findSome? fun a => (o a).map (text a) with
  | none =>
    rintro place y ⟨i, n, a, x, hi, hx, -, -⟩
    have ha := List.mem_of_getElem? hi
    exact hnothing a ha (List.findSome?_eq_none_iff.1 hfound a ha) n x hx
  | some y =>
    obtain ⟨before, a, after, rfl, hy, hbefore⟩ := List.findSome?_eq_some_iff.1 hfound
    obtain ⟨x, hx, rfl⟩ := Option.map_eq_some_iff.1 hy
    have hfirst := h a (by simp)
    rw [hx] at hfirst
    obtain ⟨n, hn, hlater⟩ := hfirst
    refine ⟨[k, before.length, n], ⟨before.length, n, a, x, by simp, hn, rfl, rfl⟩, ?_⟩
    rintro place y ⟨i, m, b, x', hi, hx', rfl, rfl⟩
    rcases lt_trichotomy i before.length with hlt | rfl | hgt
    · have hb : b ∈ before := by
        rw [List.getElem?_append_left hlt] at hi
        exact List.mem_of_getElem? hi
      exact absurd hx' (hnothing b (List.mem_append_left _ hb) (hbefore b hb) m x')
    · obtain rfl : a = b := by simpa using hi
      rcases hlater m x' hx' with ⟨rfl, rfl⟩ | hlt
      · exact .inl ⟨rfl, rfl⟩
      · exact .inr (by simpa [List.cons_lt_cons_iff] using hlt)
    · exact .inr (by simp [List.cons_lt_cons_iff, hgt])

/-- What comes first is what has the least place. -/
theorem HoldsFirst.eq_some_iff {P : List Nat → φ → Prop} (h : HoldsFirst P o) {x : φ} :
    o = some x ↔ ∃ place, P place x ∧ ∀ place' y, P place' y → place ≤ place' := by
  constructor
  · rintro rfl
    obtain ⟨place, hx, hlater⟩ := h
    exact ⟨place, hx, fun place' y hy => (hlater place' y hy).elim (fun he => he.1.ge) le_of_lt⟩
  · rintro ⟨place, hx, hleast⟩
    cases o with
    | none => exact absurd hx (h place x)
    | some y =>
      obtain ⟨place', hy, hlater⟩ := h
      rcases hlater place x hx with ⟨-, rfl⟩ | hlt
      · rfl
      · exact absurd hlt (hleast place' y hy).not_gt

end First

/-! ## What is objected to first -/

theorem find?_eq_some_iff_isFirst {α : Type} {p : α → Prop} [DecidablePred p] {l : List α} {a : α} :
    l.find? (p ·) = some a ↔ IsFirst p l a := by
  simp only [List.find?_eq_some_iff_append, IsFirst, decide_eq_true_eq, Bool.not_eq_true',
    decide_eq_false_iff_not]
  grind

namespace ShapeRow

/-- **A row is refused with the first objection to it.** -/
theorem holdsFirst_fault? (r : ShapeRow) :
    HoldsFirst r.Objection (r.fault?.map RowFault.message) := by
  change HoldsFirst (fun place text => r.Objection place text) _
  simp only [fault?, Option.map_or, Option.map_map, objection_iff]
  refine .or (holdsFirst_faultOfEmpty? _ _ 0 _) ?_ (by grind)
  refine .or (holdsFirst_map (fun _ => firstRepeated?_eq_some_iff) 1 _) ?_ (by grind)
  refine .or (holdsFirst_faultOfEmpty? _ _ 2 _) ?_ (by grind)
  refine .or (holdsFirst_map (fun _ => firstRepeated?_eq_some_iff) 3 _) ?_ (by grind)
  refine .or (holdsFirst_faultOfEmpty? _ _ 4 _) ?_ (by grind)
  refine .or (holdsFirst_map (fun _ => firstRepeated?_eq_some_iff) 5 _) ?_ (by grind)
  exact holdsFirst_map (fun _ => find?_eq_some_iff_isFirst) 6 _

/-- What is said about a row in tables names its shape. -/
theorem map_message_map_row (r : ShapeRow) : (r.fault?.map (.row r.shape)).map Fault.message
    = (r.fault?.map RowFault.message).map ("shape " ++ r.shape.suffix ++ " " ++ ·) := by
  rw [Option.map_map, Option.map_map]
  rfl

end ShapeRow

namespace Tables

theorem find?_row?_eq_some_iff {t : Tables} {s : Shape} :
    (Shape.all.find? fun s => (t.row? s).isNone) = some s ↔
      IsFirst (fun s => ¬ ∃ r ∈ t.rows, r.shape = s) Shape.all s := by
  rw [← find?_eq_some_iff_isFirst]
  simp only [← row?_eq_none_iff, ← Option.isNone_iff_eq_none, Bool.decide_eq_true]

/-- **Tables are refused with the first objection to them.** -/
theorem holdsFirst_fault? (t : Tables) :
    HoldsFirst t.Objection (t.fault?.map Fault.message) := by
  change HoldsFirst (fun place text => t.Objection place text) _
  simp only [fault?, Option.map_or, List.map_findSome?, Function.comp_def, ShapeRow.map_message_map_row,
    objection_iff]
  rw [Option.map_map, Option.map_map, Option.map_map, Option.map_map]
  refine .or (holdsFirst_map (fun _ => firstRepeated?_eq_some_iff) [0] _) ?_
    (by grind [List.cons_lt_cons_iff])
  refine .or (holdsFirst_map (fun _ => find?_row?_eq_some_iff) [1] _) ?_
    (by grind [List.cons_lt_cons_iff])
  refine .or (holdsFirst_findSome? (fun r _ => r.holdsFirst_fault?) 2 _) ?_
    (by grind [List.cons_lt_cons_iff])
  refine .or (holdsFirst_faultOfEmpty? _ _ [3] _) ?_ (by grind [List.cons_lt_cons_iff])
  refine .or (holdsFirst_map (fun _ => firstRepeated?_eq_some_iff) [4] _) ?_
    (by grind [List.cons_lt_cons_iff])
  refine .or (holdsFirst_faultOfEmpty? _ _ [5] _) ?_ (by grind [List.cons_lt_cons_iff])
  exact holdsFirst_map (fun _ => firstRepeated?_eq_some_iff) [6] _

/-- **Tables are refused exactly if they are not sound, and what is said about them is the first objection**:
of the checks that fail, the first in their order decides what is said, and about which item. -/
theorem fault?_names_first_objection (t : Tables) :
    (t.fault? = none ↔ t.Sound) ∧
      ∀ message, (t.fault?.map fun f => (Failure.inconsistent f).message) = some message ↔
        ∃ place text, message = "inconsistent domain tables: " ++ text ∧ t.Objection place text ∧
          ∀ place' text', t.Objection place' text' → place ≤ place' := by
  refine ⟨fault?_eq_none_iff, fun message => ?_⟩
  have hmessage : (t.fault?.map fun f => (Failure.inconsistent f).message)
      = (t.fault?.map Fault.message).map ("inconsistent domain tables: " ++ ·) := by
    rw [Option.map_map]
    rfl
  rw [hmessage, Option.map_eq_some_iff]
  simp only [t.holdsFirst_fault?.eq_some_iff]
  constructor
  · rintro ⟨text, ⟨place, htext, hleast⟩, rfl⟩
    exact ⟨place, text, rfl, htext, hleast⟩
  · rintro ⟨place, text, rfl, htext, hleast⟩
    exact ⟨text, ⟨place, htext, hleast⟩, rfl⟩

/-- A shape that is listed twice is named before one that is missing, and before what is wrong with its
rows. -/
example : ({ standard with rows := [⟨.cube, [], [], []⟩, ⟨.cube, [], [], []⟩] } : Tables).fault?
    = some (.repeatedShape .cube) := by decide

end Tables

end ImageDimensions
