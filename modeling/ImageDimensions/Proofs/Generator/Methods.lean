import ImageDimensions.Proofs.Overload
import ImageDimensions.Proofs.Tables.Sound

/-!
# Proofs/Generator/Methods — the methods as an enumeration

A method is a choice on each of five axes, and of what is asked: its `Method.key`.  The tables call for a
choice if they list it on every axis (`Tables.CallsFor`), and place it by where they list it
(`Tables.position`).  The methods of a generator are the choices that its tables call for, each once, in
the order of their places.

The order is the source of the rest: a list whose places strictly increase repeats nothing.  It is
proved axis by axis, by `pairwise_flatMap_of_axis`.
-/

namespace ImageDimensions

/-- What a method is for: a choice on every axis, and what is asked. -/
structure Method.Key where
  shape : Shape
  layering : Layering
  sampling : Sampling
  access : Access
  scalar : Scalar
  query : Query
deriving DecidableEq, Repr

/-- What a method is for. -/
def Method.key (m : Method) : Method.Key where
  shape := m.combination.row.shape
  layering := m.combination.layering
  sampling := m.combination.sampling
  access := m.combination.access
  scalar := m.scalar
  query := m.overload.query

namespace Tables

/-- Whether the tables call for a method: the row of its shape lists the layering and the sampling, the
tables list the access and the scalar type, and a mip level is only asked about where there are several. -/
def CallsFor (t : Tables) (k : Method.Key) : Prop :=
  (∃ r, t.row? k.shape = some r ∧ k.layering ∈ r.layerings ∧ k.sampling ∈ r.samplings)
    ∧ k.access ∈ t.accesses ∧ k.scalar ∈ t.scalars
    ∧ (k.query = .dimensions ∨ k.query = .dimensionsAtMipLevel ∧ k.sampling = .single)

/-- Where a row and the lists for all shapes have the values of a choice. -/
def positionIn (t : Tables) (r : ShapeRow) (k : Method.Key) : List Nat :=
  [r.layerings.idxOf k.layering, r.samplings.idxOf k.sampling, t.accesses.idxOf k.access,
    t.scalars.idxOf k.scalar, Query.all.idxOf k.query]

/-- Where the tables have the values of a choice, axis by axis. -/
def position (t : Tables) (k : Method.Key) : List Nat :=
  (t.rows.map ShapeRow.shape).idxOf k.shape ::
    ((t.row? k.shape).map (t.positionIn · k)).getD []

end Tables

/-! ## Lists in lexicographic order -/

section Order

variable {α β : Type}

theorem pairwise_idxOf_map [DecidableEq β] (f : α → β) : ∀ {l : List α}, (l.map f).Nodup →
    l.Pairwise fun a b => (l.map f).idxOf (f a) < (l.map f).idxOf (f b)
  | [], _ => .nil
  | a :: l, h => by
    rw [List.map_cons, List.nodup_cons] at h
    have hne : ∀ b ∈ l, f b ≠ f a := fun b hb he => h.1 (he ▸ List.mem_map_of_mem hb)
    rw [List.pairwise_cons]
    refine ⟨fun b hb => ?_, (pairwise_idxOf_map f h.2).imp_of_mem fun {b c} hb hc hbc => ?_⟩
    · rw [List.map_cons, List.idxOf_cons_self, List.idxOf_cons_ne _ (hne b hb).symm]
      exact Nat.succ_pos _
    · rw [List.map_cons, List.idxOf_cons_ne _ (hne b hb).symm, List.idxOf_cons_ne _ (hne c hc).symm]
      exact Nat.succ_lt_succ hbc

theorem pairwise_idxOf [DecidableEq α] {l : List α} (h : l.Nodup) :
    l.Pairwise fun a b => l.idxOf a < l.idxOf b := by
  simpa using pairwise_idxOf_map id (by simpa using h)

/-- **One axis of a lexicographic order**: the lists of the items of a list, one after the other, are in
order if the items are and each of the lists is. -/
theorem pairwise_flatMap_of_axis {l : List α} {f : α → List β} {index : α → Nat} (axis : β → α)
    (rest : β → List Nat) (hl : l.Pairwise fun a b => index a < index b)
    (haxis : ∀ a ∈ l, ∀ x ∈ f a, axis x = a)
    (hf : ∀ a ∈ l, (f a).Pairwise fun x y => rest x < rest y) :
    (l.flatMap f).Pairwise fun x y => index (axis x) :: rest x < index (axis y) :: rest y := by
  rw [List.pairwise_flatMap]
  refine ⟨fun a ha => (hf a ha).imp_of_mem fun {x y} hx hy hxy => ?_,
    hl.imp_of_mem fun {a b} ha hb hab x hx y hy => ?_⟩
  · rw [haxis a ha x hx, haxis a ha y hy, List.cons_lt_cons_iff]
    exact .inr ⟨rfl, hxy⟩
  · rw [haxis a ha x hx, haxis b hb y hy, List.cons_lt_cons_iff]
    exact .inl hab

end Order

/-! ## The methods, axis by axis -/

namespace Generator

variable (g : Generator)

/-- The choices of one row, axis by axis. -/
def rowKeys (r : ShapeRow) : List Method.Key :=
  r.layerings.flatMap fun l => r.samplings.flatMap fun s => g.tables.accesses.flatMap fun a =>
    g.tables.scalars.flatMap fun k => s.queries.map fun q => ⟨r.shape, l, s, a, k, q⟩

/-- **What the methods are for, axis by axis.** -/
theorem map_key_methods : g.methods.map Method.key = g.tables.rows.flatMap g.rowKeys := by
  have hkeys : ∀ (c : Combination) (k : Scalar),
      (c.overloads.map fun o => (⟨c, k, o⟩ : Method)).map Method.key
        = c.sampling.queries.map fun q => ⟨c.row.shape, c.layering, c.sampling, c.access, k, q⟩ := by
    intro c k
    rw [← c.map_query_overloads, List.map_map, List.map_map]
    rfl
  simp only [methods, combinations, Tables.combinations, ShapeRow.combinations, List.map_flatMap,
    List.flatMap_assoc, List.flatMap_map, hkeys]
  rfl

variable {g}

theorem mem_rowKeys {r : ShapeRow} {k : Method.Key} : k ∈ g.rowKeys r ↔
    r.shape = k.shape ∧ k.layering ∈ r.layerings ∧ k.sampling ∈ r.samplings
      ∧ k.access ∈ g.tables.accesses ∧ k.scalar ∈ g.tables.scalars
      ∧ k.query ∈ k.sampling.queries := by
  simp only [rowKeys, List.mem_flatMap, List.mem_map]
  constructor
  · rintro ⟨l, hl, s, hs, a, ha, k, hk, q, hq, rfl⟩
    exact ⟨rfl, hl, hs, ha, hk, hq⟩
  · rintro ⟨hr, hl, hs, ha, hk, hq⟩
    exact ⟨_, hl, _, hs, _, ha, _, hk, _, hq, by rw [hr]⟩

theorem mem_map_key_methods {k : Method.Key} :
    k ∈ g.methods.map Method.key ↔ g.tables.CallsFor k := by
  rw [map_key_methods, List.mem_flatMap, Tables.CallsFor]
  simp only [mem_rowKeys, Sampling.mem_queries, g.sound.row?_eq_some_iff]
  constructor
  · rintro ⟨r, hr, hs, hl, hm, h⟩
    exact ⟨⟨r, ⟨hr, hs⟩, hl, hm⟩, h⟩
  · rintro ⟨⟨r, ⟨hr, hs⟩, hl, hm⟩, h⟩
    exact ⟨r, hr, hs, hl, hm, h⟩

/-- The choices of a row are in order: its own two axes, the axes of all shapes, and what is asked. -/
theorem pairwise_rowKeys {r : ShapeRow} (hr : r ∈ g.tables.rows) :
    (g.rowKeys r).Pairwise fun k k' => g.tables.positionIn r k < g.tables.positionIn r k' := by
  have hrow := g.sound.rows r hr
  have hqueries : Query.all.Nodup := by decide
  refine pairwise_flatMap_of_axis Method.Key.layering _ (pairwise_idxOf hrow.nodup_layerings)
    ?_ fun l _ =>
    pairwise_flatMap_of_axis Method.Key.sampling _ (pairwise_idxOf hrow.nodup_samplings)
    ?_ fun s _ =>
    pairwise_flatMap_of_axis Method.Key.access _ (pairwise_idxOf g.sound.nodup_accesses)
    ?_ fun a _ =>
    pairwise_flatMap_of_axis Method.Key.scalar _ (pairwise_idxOf g.sound.nodup_scalars)
    ?_ fun k _ => ?_
  case refine_5 =>
    rw [List.pairwise_map]
    exact ((pairwise_idxOf hqueries).filter _).imp fun h => List.cons_lt_cons_iff.2 (.inl h)
  -- Whatever is listed for a value on an axis has this value there.
  all_goals simp only [List.mem_flatMap, List.mem_map]; grind

theorem position_eq {r : ShapeRow} (hr : r ∈ g.tables.rows) {k : Method.Key} (hk : k ∈ g.rowKeys r) :
    g.tables.position k = (g.tables.rows.map ShapeRow.shape).idxOf k.shape :: g.tables.positionIn r k := by
  rw [Tables.position, g.sound.row?_eq_some_iff.2 ⟨hr, (mem_rowKeys.1 hk).1⟩]
  rfl

/-- **The methods are in the order of their places.** -/
theorem pairwise_map_key_methods : (g.methods.map Method.key).Pairwise fun k k' =>
    g.tables.position k < g.tables.position k' := by
  rw [map_key_methods, List.pairwise_flatMap]
  refine ⟨fun r hr => (pairwise_rowKeys hr).imp_of_mem fun {k k'} hk hk' h => ?_,
    (pairwise_idxOf_map _ g.sound.nodup_shapes).imp_of_mem fun {r r'} hr hr' h k hk k' hk' => ?_⟩
  · have hs : k.shape = k'.shape := (mem_rowKeys.1 hk).1.symm.trans (mem_rowKeys.1 hk').1
    rw [position_eq hr hk, position_eq hr hk', hs]
    exact List.cons_lt_cons_iff.2 (.inr ⟨rfl, h⟩)
  · rw [position_eq hr hk, position_eq hr' hk', ← (mem_rowKeys.1 hk).1, ← (mem_rowKeys.1 hk').1]
    exact List.cons_lt_cons_iff.2 (.inl h)

theorem nodup_map_key_methods : (g.methods.map Method.key).Nodup := by
  refine pairwise_map_key_methods.imp fun h he => ?_
  exact absurd h (he ▸ List.lt_irrefl _)

/-- **The methods enumerate what the tables call for**: each choice once, no other, and in the order in
which the tables list the values on the axes, the first axis counting most. -/
theorem methods_enumerate (g : Generator) :
    (g.methods.map Method.key).Nodup
      ∧ (∀ k, k ∈ g.methods.map Method.key ↔ g.tables.CallsFor k)
      ∧ (g.methods.map Method.key).Pairwise fun k k' => g.tables.position k < g.tables.position k' := by
  exact ⟨nodup_map_key_methods, fun k => mem_map_key_methods, pairwise_map_key_methods⟩

end Generator

end ImageDimensions
