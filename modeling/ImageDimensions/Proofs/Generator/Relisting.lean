import Mathlib.Data.Multiset.Bind
import ImageDimensions.Proofs.Generator.Methods

/-!
# Proofs/Generator/Relisting — what the order of listing means

`Tables.Relisted` relates tables that list the same on every axis, in whatever order: the rows, what each
row lists, the accesses and the scalar types.  What it says of the extents of a row, whose order shows in
signatures, is a parameter: they may be rearranged as well, or not.

Whether tables are sound does not depend on any order (`Tables.Relisted.sound_iff`), though which fault is
named first does.  With the extents in order, the methods are the same up to their own order
(`Generator.perm_methods`), and so is all that is found or counted.

Lists that match up to order are related as multisets, by `Multiset.Rel`.  What is listed for the items of
such lists matches up to order again, one axis at a time (`rel_flatMap`).
-/

namespace ImageDimensions

/-- Rows of one shape that list the same layerings and samplings, in whatever order. -/
structure ShapeRow.Relisted (sameExtents : List String → List String → Prop) (r r' : ShapeRow) :
    Prop where
  shape_eq : r.shape = r'.shape
  layerings : r.layerings.Perm r'.layerings
  samplings : r.samplings.Perm r'.samplings
  extents : sameExtents r.extents r'.extents

/-- Tables that list the same, in whatever order. -/
structure Tables.Relisted (sameExtents : List String → List String → Prop) (t t' : Tables) : Prop where
  rows : Multiset.Rel (ShapeRow.Relisted sameExtents) t.rows t'.rows
  accesses : t.accesses.Perm t'.accesses
  scalars : t.scalars.Perm t'.scalars

/-- Image types that differ only in how the rows of their shape list what exists. -/
structure Combination.Relisted (c c' : Combination) : Prop where
  row : c.row.Relisted Eq c'.row
  layering_eq : c.layering = c'.layering
  sampling_eq : c.sampling = c'.sampling
  access_eq : c.access = c'.access

/-- What a method is for, and its signature. -/
def Method.view (m : Method) : Method.Key × Overload := (m.key, m.overload)

/-! ## Lists that match up to order -/

section UpToOrder

variable {α α' β β' : Type} {R : α → α' → Prop} {S : β → β' → Prop} {l : List α} {l' : List α'}

/-- What agrees on matching items is the same up to order. -/
theorem perm_map_of_rel {f : α → β} {f' : α' → β} (h : Multiset.Rel R l l')
    (hf : ∀ a a', R a a' → f a = f' a') : (l.map f).Perm (l'.map f') := by
  rw [← Multiset.coe_eq_coe, ← Multiset.map_coe, ← Multiset.map_coe, ← Multiset.rel_eq,
    Multiset.rel_map]
  exact h.mono fun a _ a' _ => hf a a'

/-- **One axis**: what is listed for the items of two lists matches up to order, if the items do and what
is listed for matching items does. -/
theorem rel_flatMap {f : α → List β} {f' : α' → List β'} (h : Multiset.Rel R l l')
    (hf : ∀ a a', R a a' → Multiset.Rel S (f a) (f' a')) :
    Multiset.Rel S (l.flatMap f) (l'.flatMap f') := by
  rw [← Multiset.coe_bind, ← Multiset.coe_bind]
  exact Multiset.rel_bind (fun a a' => hf a a') h

theorem forall_mem_iff_of_rel {p : α → Prop} {p' : α' → Prop} (h : Multiset.Rel R l l')
    (hp : ∀ a a', R a a' → (p a ↔ p' a')) : (∀ a ∈ l, p a) ↔ ∀ a ∈ l', p' a := by
  have hvalues := perm_map_of_rel h fun a a' ha => propext (hp a a' ha)
  calc (∀ a ∈ l, p a)
      ↔ ∀ v ∈ l.map p, v := (List.forall_mem_map (P := id)).symm
    _ ↔ ∀ v ∈ l'.map p', v := forall_congr' fun _ => by rw [hvalues.mem_iff]
    _ ↔ ∀ a ∈ l', p' a := List.forall_mem_map (P := id)

theorem rel_of_perm {l l' : List α} (h : l.Perm l') : Multiset.Rel Eq (l : Multiset α) l' :=
  Multiset.rel_eq.2 (Multiset.coe_eq_coe.2 h)

theorem rel_flatMap_of_perm {l l' : List α} {f : α → List β} {f' : α → List β'} (h : l.Perm l')
    (hf : ∀ a, Multiset.Rel S (f a) (f' a)) : Multiset.Rel S (l.flatMap f) (l'.flatMap f') := by
  refine rel_flatMap (rel_of_perm h) fun a a' ha => ?_
  rw [← ha]
  exact hf a

theorem rel_map_of_perm {l l' : List α} {f : α → β} {f' : α → β'} (h : l.Perm l')
    (hf : ∀ a, S (f a) (f' a)) : Multiset.Rel S (l.map f) (l'.map f') := by
  rw [← Multiset.map_coe, ← Multiset.map_coe, Multiset.rel_map]
  refine (rel_of_perm h).mono fun a _ a' _ ha => ?_
  rw [← ha]
  exact hf a

theorem ne_nil_iff_of_perm {l l' : List α} (h : l.Perm l') : l ≠ [] ↔ l' ≠ [] := by
  rw [← List.length_pos_iff, ← List.length_pos_iff, h.length_eq]

end UpToOrder

/-! ## Faults -/

namespace ShapeRow.Relisted

variable {r r' : ShapeRow}

theorem sound_iff (h : r.Relisted List.Perm r') : r.Sound ↔ r'.Sound := by
  simp only [ShapeRow.sound_iff, ne_nil_iff_of_perm h.layerings, h.layerings.nodup_iff,
    ne_nil_iff_of_perm h.samplings, h.samplings.nodup_iff, ne_nil_iff_of_perm h.extents,
    h.extents.nodup_iff, h.extents.mem_iff]

end ShapeRow.Relisted

namespace Tables.Relisted

variable {t t' : Tables} {sameExtents : List String → List String → Prop}

theorem perm_shapes (h : t.Relisted sameExtents t') :
    (t.rows.map ShapeRow.shape).Perm (t'.rows.map ShapeRow.shape) :=
  perm_map_of_rel h.rows fun _ _ hr => hr.shape_eq

/-- **Soundness is a matter of what is listed, not of the order.** -/
theorem sound_iff (h : t.Relisted List.Perm t') : t.Sound ↔ t'.Sound := by
  have hexists : ∀ s, (∃ r ∈ t.rows, r.shape = s) ↔ ∃ r ∈ t'.rows, r.shape = s := fun s => by
    rw [← List.mem_map, ← List.mem_map, h.perm_shapes.mem_iff]
  have hrows : (∀ r ∈ t.rows, r.Sound) ↔ ∀ r ∈ t'.rows, r.Sound :=
    forall_mem_iff_of_rel h.rows fun _ _ hr => hr.sound_iff
  simp only [Tables.sound_iff, h.perm_shapes.nodup_iff, hexists, hrows,
    ne_nil_iff_of_perm h.accesses, h.accesses.nodup_iff, ne_nil_iff_of_perm h.scalars,
    h.scalars.nodup_iff]

theorem fault?_eq_none_iff (h : t.Relisted List.Perm t') : t.fault? = none ↔ t'.fault? = none := by
  rw [Tables.fault?_eq_none_iff, Tables.fault?_eq_none_iff, h.sound_iff]

/-- The rows that are found for a shape match. -/
theorem exists_row? (h : t.Relisted sameExtents t') (ht : t.Sound) (ht' : t'.Sound) (s : Shape) :
    ∃ r r', t.row? s = some r ∧ t'.row? s = some r' ∧ r.Relisted sameExtents r' := by
  obtain ⟨r, hr, hs⟩ := ht.exists_row s
  obtain ⟨r', hr', hrelisted⟩ := Multiset.exists_mem_of_rel_of_mem h.rows (Multiset.mem_coe.2 hr)
  exact ⟨r, r', ht.row?_eq_some_iff.2 ⟨hr, hs⟩,
    ht'.row?_eq_some_iff.2 ⟨Multiset.mem_coe.1 hr', hrelisted.shape_eq.symm.trans hs⟩, hrelisted⟩

end Tables.Relisted

/-! ## Image types and methods -/

theorem ShapeRow.Relisted.rel_combinations {r r' : ShapeRow} {accesses accesses' : List Access}
    (h : r.Relisted Eq r') (haccesses : accesses.Perm accesses') :
    Multiset.Rel Combination.Relisted (r.combinations accesses) (r'.combinations accesses') :=
  rel_flatMap_of_perm h.layerings fun _ => rel_flatMap_of_perm h.samplings fun _ =>
    rel_map_of_perm haccesses fun _ => ⟨h, rfl, rfl, rfl⟩

theorem Tables.Relisted.rel_combinations {t t' : Tables} (h : t.Relisted Eq t') :
    Multiset.Rel Combination.Relisted t.combinations t'.combinations :=
  rel_flatMap h.rows fun _ _ hr => hr.rel_combinations h.accesses

/-- Signatures do not show what else a row lists. -/
theorem Combination.Relisted.overloads_eq {c c' : Combination} (h : c.Relisted c') :
    c.overloads = c'.overloads := by
  have hnames : c.reportedNames = c'.reportedNames := by
    rw [reportedNames, reportedNames, ShapeRow.reportedNames, ShapeRow.reportedNames, h.row.extents,
      h.layering_eq, h.sampling_eq]
  rw [overloads, overloads, dimensions, dimensions, dimensionsAtMipLevel, dimensionsAtMipLevel, hnames,
    h.sampling_eq]

namespace Generator

variable {g g' : Generator}

theorem rel_methods (h : g.tables.Relisted Eq g'.tables) :
    Multiset.Rel (fun m m' : Method => m.view = m'.view) g.methods g'.methods := by
  refine rel_flatMap h.rel_combinations fun c c' hc => rel_flatMap_of_perm h.scalars fun s => ?_
  rw [hc.overloads_eq]
  refine rel_map_of_perm (List.Perm.refl _) fun o => ?_
  simp only [Method.view, Method.key, hc.row.shape_eq, hc.layering_eq, hc.sampling_eq, hc.access_eq]

/-- **The methods of relisted tables are the same up to order.** -/
theorem perm_methods (h : g.tables.Relisted Eq g'.tables) :
    (g.methods.map Method.view).Perm (g'.methods.map Method.view) :=
  perm_map_of_rel (rel_methods h) fun _ _ hm => hm

theorem statistics_eq_of_relisted (h : g.tables.Relisted Eq g'.tables) :
    g.statistics = g'.statistics := by
  have hblocks : g.combinations.length = g'.combinations.length :=
    Multiset.card_eq_card_of_rel h.rel_combinations
  have hmethods : g.methods.length = g'.methods.length := by
    simpa only [List.length_map] using (perm_methods h).length_eq
  have hmip : g.methods.countP (·.overload.query = .dimensionsAtMipLevel)
      = g'.methods.countP (·.overload.query = .dimensionsAtMipLevel) := by
    have hcount := (perm_methods h).countP_eq fun v => v.2.query = .dimensionsAtMipLevel
    rwa [List.countP_map, List.countP_map] at hcount
  rw [statistics, statistics, hblocks, hmethods, hmip]

/-- **The order of listing is an order of output, and nothing else.**  Tables that list the same, extents
included, are fit for generation alike.  If they are, and have the extents in the same order, then the
methods are the same up to their order, as many are counted, and the rows found for a shape differ in the
order of their lists only. -/
theorem order_of_listing :
    (∀ t t' : Tables, t.Relisted List.Perm t' → (t.fault? = none ↔ t'.fault? = none))
      ∧ ∀ g g' : Generator, g.tables.Relisted Eq g'.tables →
        (g.methods.map Method.view).Perm (g'.methods.map Method.view)
          ∧ g.statistics = g'.statistics
          ∧ ∀ s, ∃ r r', g.tables.row? s = some r ∧ g'.tables.row? s = some r' ∧ r.Relisted Eq r' :=
  ⟨fun _ _ h => h.fault?_eq_none_iff, fun g g' h =>
    ⟨perm_methods h, statistics_eq_of_relisted h, fun s => h.exists_row? g.sound g'.sound s⟩⟩

end Generator

/-- Tables that list everything backwards, and the extents of each row as `order` has them. -/
def Tables.backwards (t : Tables) (order : List String → List String) : Tables where
  rows := (t.rows.map fun r =>
    ⟨r.shape, r.layerings.reverse, r.samplings.reverse, order r.extents⟩).reverse
  accesses := t.accesses.reverse
  scalars := t.scalars.reverse

theorem Tables.relisted_backwards (t : Tables) {sameExtents : List String → List String → Prop}
    {order : List String → List String} (h : ∀ l, sameExtents l (order l)) :
    t.Relisted sameExtents (t.backwards order) where
  rows := by
    rw [backwards, Multiset.coe_reverse, ← Multiset.map_coe, Multiset.rel_map_right]
    exact Multiset.rel_refl_of_refl_on fun r _ =>
      ⟨rfl, (List.reverse_perm _).symm, (List.reverse_perm _).symm, h _⟩
  accesses := (List.reverse_perm _).symm
  scalars := (List.reverse_perm _).symm

namespace Generator

/-- The image types of the shader library, listed backwards. -/
def backwards : Generator := ⟨Tables.standard.backwards id, by decide +kernel⟩

/-- Backwards the methods come in another order, and a row lists its samplings in another, but nothing is
lost; and the extents may be turned around too. -/
theorem order_of_listing_backwards :
    (Tables.standard.backwards List.reverse).fault? = none
      ∧ standard.methods.map Method.view ≠ backwards.methods.map Method.view
      ∧ (standard.methods.map Method.view).Perm (backwards.methods.map Method.view)
      ∧ standard.statistics = backwards.statistics
      ∧ standard.tables.row? .twoD ≠ backwards.tables.row? .twoD
      ∧ ∀ s, ∃ r r', standard.tables.row? s = some r ∧ backwards.tables.row? s = some r'
        ∧ r.Relisted Eq r' := by
  obtain ⟨hfault, hmethods⟩ := order_of_listing
  obtain ⟨hperm, hstatistics, hrows⟩ :=
    hmethods standard backwards (Tables.standard.relisted_backwards fun _ => rfl)
  refine ⟨(hfault _ _ (Tables.standard.relisted_backwards fun l => l.reverse_perm.symm)).1
    standard.fault?_tables, ?_, hperm, hstatistics, by decide +kernel, hrows⟩
  decide +kernel

end Generator

end ImageDimensions
