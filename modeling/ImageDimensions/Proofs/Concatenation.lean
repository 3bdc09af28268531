import Mathlib.Data.List.Basic
import Mathlib.Data.List.ProdSigma
import Mathlib.Data.Prod.Basic

/-!
# Proofs/Concatenation — lists recovered from their concatenation

Four ways to put lists one after the other without forgetting where one ends:

* each is closed by an item that occurs in none of them (`eq_of_flatMap_concat_eq`);
* between any two is a separator that begins with such an item (`eq_of_intercalate_eq`);
* each is marked, item by item, with a tag of its own (`map_eq_of_flatMap_map_pair_eq`);
* all are the same list, marked with the items of another: a product (`product_inj`).
-/

namespace ImageDimensions

variable {α β γ δ : Type}

/-- Two lists with the same image have the same image under what their items determine. -/
theorem map_eq_map_of_map_eq_map {f f' : α → γ} {g g' : α → δ} :
    ∀ {l l' : List α}, (∀ a ∈ l, ∀ b ∈ l', f a = f' b → g a = g' b) → l.map f = l'.map f' →
      l.map g = l'.map g'
  | [], [], _, _ => rfl
  | [], _ :: _, _, h => by simp at h
  | _ :: _, [], _, h => by simp at h
  | a :: l, b :: l', hfg, h => by
    rw [List.map_cons, List.map_cons, List.cons_eq_cons] at h
    rw [List.map_cons, List.map_cons, hfg a List.mem_cons_self b List.mem_cons_self h.1,
      map_eq_map_of_map_eq_map (fun a ha b hb =>
        hfg a (List.mem_cons_of_mem _ ha) b (List.mem_cons_of_mem _ hb)) h.2]

/-- What stands before the first occurrence of an item, and what after it. -/
theorem append_cons_inj {a : α} {l l' r r' : List α} (hl : a ∉ l) (hl' : a ∉ l')
    (h : l ++ a :: r = l' ++ a :: r') : l = l' ∧ r = r' := by
  rcases List.append_eq_append_iff.1 h with ⟨c, rfl, hc⟩ | ⟨c, rfl, hc⟩
  all_goals
    cases c with
    | nil => simp_all
    | cons b c =>
      obtain ⟨rfl, -⟩ := List.cons_eq_cons.1 hc
      simp at hl hl'

/-- What stands after the first occurrence of an item is all that can stand after one. -/
theorem suffix_of_append_cons_eq {a : α} {l l' r r' : List α} (hl : a ∉ l)
    (h : l ++ a :: r = l' ++ a :: r') : r' <:+ r := by
  rcases List.append_eq_append_iff.1 h with ⟨c, -, hc⟩ | ⟨c, rfl, hc⟩
  · cases c with
    | nil => exact (List.cons_eq_cons.1 hc).2 ▸ List.suffix_rfl
    | cons b c =>
      rw [(List.cons_eq_cons.1 hc).2]
      exact (List.suffix_cons a r').trans (List.suffix_append c _)
  · cases c with
    | nil => exact (List.cons_eq_cons.1 hc).2 ▸ List.suffix_rfl
    | cons b c =>
      obtain ⟨rfl, -⟩ := List.cons_eq_cons.1 hc
      simp at hl

/-- **Closed lists**: they are recovered by cutting after each occurrence of the item that closes them. -/
theorem eq_of_flatMap_concat_eq {close : α} : ∀ {ls ls' : List (List α)}, (∀ l ∈ ls, close ∉ l) →
    (∀ l ∈ ls', close ∉ l) → ls.flatMap (· ++ [close]) = ls'.flatMap (· ++ [close]) → ls = ls'
  | [], [], _, _, _ => rfl
  | [], _ :: _, _, _, h => by simp at h
  | _ :: _, [], _, _, h => by simp at h
  | l :: ls, l' :: ls', hls, hls', h => by
    rw [List.forall_mem_cons] at hls hls'
    simp only [List.flatMap_cons, List.append_assoc, List.singleton_append] at h
    obtain ⟨hhead, htail⟩ := append_cons_inj hls.1 hls'.1 h
    rw [hhead, eq_of_flatMap_concat_eq hls.2 hls'.2 htail]

/-- Lists with a separator between any two, and one more in front. -/
theorem append_intercalate {sep : List α} : ∀ {ls : List (List α)}, ls ≠ [] →
    sep ++ sep.intercalate ls = ls.flatMap (sep ++ ·)
  | [l], _ => by simp
  | l :: l' :: ls, _ => by
    rw [List.intercalate_cons_cons, List.flatMap_cons, ← append_intercalate (List.cons_ne_nil l' ls)]
    simp only [List.append_assoc]

theorem notMem_intercalate {a : α} {sep : List α} {ls : List (List α)} (hsep : a ∉ sep)
    (hls : ∀ l ∈ ls, a ∉ l) : a ∉ sep.intercalate ls := by
  intro h
  rcases eq_or_ne ls [] with rfl | hne
  · simp at h
  · have hmem : a ∈ sep ++ sep.intercalate ls := List.mem_append_right sep h
    rw [append_intercalate hne] at hmem
    obtain ⟨l, hl, hal⟩ := List.mem_flatMap.1 hmem
    exact (List.mem_append.1 hal).elim hsep (hls l hl)

/-- **Separated lists**: they are recovered by cutting at each occurrence of the item with which the
separator begins. -/
theorem eq_of_intercalate_eq {a : α} {sep : List α} : ∀ {ls ls' : List (List α)}, ls ≠ [] → ls' ≠ [] →
    (∀ l ∈ ls, a ∉ l) → (∀ l ∈ ls', a ∉ l) → (a :: sep).intercalate ls = (a :: sep).intercalate ls' →
      ls = ls'
  | [l], [l'], _, _, _, _, h => by simpa using h
  | [l], l' :: m' :: ls', _, _, hls, _, h => by
    rw [List.intercalate_singleton, List.intercalate_cons_cons] at h
    exact absurd (by simp [h]) (hls l List.mem_cons_self)
  | l :: m :: ls, [l'], _, _, _, hls', h => by
    rw [List.intercalate_singleton, List.intercalate_cons_cons] at h
    exact absurd (by simp [← h]) (hls' l' List.mem_cons_self)
  | l :: m :: ls, l' :: m' :: ls', _, _, hls, hls', h => by
    rw [List.forall_mem_cons] at hls hls'
    rw [List.intercalate_cons_cons, List.intercalate_cons_cons, List.append_assoc, List.append_assoc,
      List.cons_append, List.cons_append] at h
    obtain ⟨hhead, htail⟩ := append_cons_inj hls.1 hls'.1 h
    rw [hhead, eq_of_intercalate_eq (List.cons_ne_nil m ls) (List.cons_ne_nil m' ls') hls.2 hls'.2
      (List.append_cancel_left htail)]

/-! ## Tagged lists -/

/-- What is marked with a tag, at the beginning of a list in which the tag does not come again. -/
theorem map_pair_append_inj [DecidableEq γ] {tag : γ} {l l' : List δ} {rest rest' : List (γ × δ)}
    (hrest : ∀ p ∈ rest, p.1 ≠ tag) (hrest' : ∀ p ∈ rest', p.1 ≠ tag)
    (h : l.map (tag, ·) ++ rest = l'.map (tag, ·) ++ rest') : l = l' ∧ rest = rest' := by
  have htagged : ∀ {l : List δ}, ∀ p ∈ l.map (tag, ·), decide (p.1 = tag) = true := by simp
  have hfilter : ∀ {r : List (γ × δ)}, (∀ p ∈ r, p.1 ≠ tag) → r.filter (·.1 = tag) = [] := by
    intro r hr
    simpa [List.filter_eq_nil_iff] using fun a b => hr (a, b)
  have hl : l.map (tag, ·) = l'.map (tag, ·) := by
    have := congrArg (List.filter fun p : γ × δ => p.1 = tag) h
    rwa [List.filter_append, List.filter_append, hfilter hrest, hfilter hrest', List.append_nil,
      List.append_nil, List.filter_eq_self.2 htagged, List.filter_eq_self.2 htagged] at this
  refine ⟨List.map_injective_iff.2 (Prod.mk_right_injective tag) hl, ?_⟩
  rw [hl] at h
  exact List.append_cancel_left h

/-- **Tagged lists**: if no tag comes twice and no list is empty, the tags and the lists are recovered. -/
theorem map_eq_of_flatMap_map_pair_eq [DecidableEq γ] (tag : α → γ) {f f' : α → List δ} :
    ∀ {l l' : List α}, (l.map tag).Nodup → (l'.map tag).Nodup → (∀ a ∈ l, f a ≠ []) →
      (∀ a ∈ l', f' a ≠ []) →
      l.flatMap (fun a => (f a).map (tag a, ·)) = l'.flatMap (fun a => (f' a).map (tag a, ·)) →
      l.map (fun a => (tag a, f a)) = l'.map fun a => (tag a, f' a)
  | [], [], _, _, _, _, _ => rfl
  | [], a :: _, _, _, _, hf', h => by simp [hf'] at h
  | a :: _, [], _, _, hf, _, h => by simp [hf] at h
  | a :: l, b :: l', hnd, hnd', hf, hf', h => by
    rw [List.forall_mem_cons] at hf hf'
    rw [List.map_cons, List.nodup_cons] at hnd hnd'
    rw [List.flatMap_cons, List.flatMap_cons] at h
    have htag : tag a = tag b := by
      obtain ⟨x, xs, hx⟩ := List.exists_cons_of_ne_nil hf.1
      obtain ⟨y, ys, hy⟩ := List.exists_cons_of_ne_nil hf'.1
      rw [hx, hy] at h
      exact congrArg Prod.fst (List.cons_eq_cons.1 h).1
    -- Behind the first list its tag is gone: no tag comes twice.
    have hne : ∀ {c : α} {m : List α} {g : α → List δ}, tag c ∉ m.map tag →
        ∀ p ∈ m.flatMap fun a => (g a).map (tag a, ·), p.1 ≠ tag c := by
      intro c m g hc p hp he
      obtain ⟨a, ha, hp⟩ := List.mem_flatMap.1 hp
      obtain ⟨x, -, rfl⟩ := List.mem_map.1 hp
      exact hc (he ▸ List.mem_map_of_mem ha)
    rw [← htag] at h
    obtain ⟨hhead, htail⟩ := map_pair_append_inj (hne hnd.1) (htag ▸ hne hnd'.1) h
    rw [List.map_cons, List.map_cons, hhead, htag,
      map_eq_of_flatMap_map_pair_eq tag hnd.2 hnd'.2 hf.2 hf'.2 htail]

/-- **A product** of lists that are not empty, the first of which repeats nothing, gives back both. -/
theorem product_inj [DecidableEq α] {l l' : List α} {m m' : List β} (hl : l ≠ []) (hm : m ≠ [])
    (hm' : m' ≠ []) (hnd : l.Nodup) (hnd' : l'.Nodup) (h : l ×ˢ m = l' ×ˢ m') : l = l' ∧ m = m' := by
  have hmap : l.map (fun a => (a, m)) = l'.map fun a => (a, m') :=
    map_eq_of_flatMap_map_pair_eq id (by simpa using hnd) (by simpa using hnd')
      (fun _ _ => hm) (fun _ _ => hm') h
  have hll' : l = l' := by
    simpa [Function.comp_def] using congrArg (List.map Prod.fst) hmap
  obtain ⟨a, as, rfl⟩ := List.exists_cons_of_ne_nil hl
  rw [← hll', List.map_cons, List.map_cons, List.cons_eq_cons] at hmap
  exact ⟨hll', congrArg Prod.snd hmap.1⟩

end ImageDimensions
