/-
Lists whose elements have a key: found by it, replaced at it, sorted by it.

With one element for a key, a list is the map `find` reads from it: order does
not matter to it (`find_perm`), and a sorted list is the only one with its map
(`eq_of_find`).
-/
import Mathlib.Data.List.Sort
import Mathlib.Order.Defs.LinearOrder

namespace Keyed

variable {α κ : Type} [LinearOrder κ] (key : α → κ)

/-! ## The map of a list -/

/-- The element at a key. -/
def find (k : κ) (l : List α) : Option α := l.find? fun x => decide (key x = k)

/-- Replace the element with the key of `x` by it, or add it at the end. -/
def put (x : α) : List α → List α
  | [] => [x]
  | y :: l => if key y = key x then x :: l else y :: put x l

variable {key}

@[simp] theorem find_nil (k : κ) : find key k [] = none := rfl

theorem find_cons (k : κ) (x : α) (l : List α) :
    find key k (x :: l) = if key x = k then some x else find key k l := by
  rw [find, List.find?_cons]
  by_cases h : key x = k
  · rw [if_pos h, decide_eq_true h]
  · rw [if_neg h, decide_eq_false h, find]

theorem find_eq_some {l : List α} (h : (l.map key).Nodup) {k : κ} {x : α} :
    find key k l = some x ↔ x ∈ l ∧ key x = k := by
  induction l with
  | nil => simp
  | cons y l ih =>
    rw [List.map_cons, List.nodup_cons] at h
    rw [find_cons, List.mem_cons]
    by_cases hy : key y = k
    · rw [if_pos hy, Option.some.injEq]
      constructor
      · rintro rfl
        exact ⟨.inl rfl, hy⟩
      · rintro ⟨rfl | hx, hk⟩
        · rfl
        · exact absurd (hy.trans hk.symm ▸ List.mem_map_of_mem hx) h.1
    · rw [if_neg hy, ih h.2]
      constructor
      · exact fun hx => ⟨.inr hx.1, hx.2⟩
      · rintro ⟨rfl | hx, hk⟩
        · exact absurd hk hy
        · exact ⟨hx, hk⟩

theorem find_perm {l l' : List α} (h : l.Perm l') (hn : (l.map key).Nodup) (k : κ) : find key k l = find key k l' := by
  have hn' : (l'.map key).Nodup := (h.map key).nodup_iff.1 hn
  refine Option.ext fun x => ?_
  rw [find_eq_some hn, find_eq_some hn', h.mem_iff]

theorem find_put (x : α) (l : List α) (k : κ) :
    find key k (put key x l) = if k = key x then some x else find key k l := by
  induction l with
  | nil => rw [put, find_cons]; simp [eq_comm]
  | cons y l ih =>
    rw [put]
    by_cases hy : key y = key x
    · rw [if_pos hy, find_cons, find_cons, hy]
      by_cases hk : k = key x
      · rw [if_pos hk.symm, if_pos hk]
      · rw [if_neg (Ne.symm hk), if_neg hk, if_neg (Ne.symm hk)]
    · rw [if_neg hy, find_cons, find_cons, ih]
      by_cases hk : key y = k
      · rw [if_pos hk, if_pos hk, if_neg fun h => hy (hk.trans h)]
      · rw [if_neg hk, if_neg hk]

theorem map_put_subset (x : α) (l : List α) {k : κ} (h : k ∈ (put key x l).map key) :
    k = key x ∨ k ∈ l.map key := by
  induction l with
  | nil => exact .inl (by simpa [put] using h)
  | cons y l ih =>
    rw [put] at h
    by_cases hy : key y = key x
    · rw [if_pos hy, List.map_cons, List.mem_cons] at h
      rcases h with h | h
      · exact .inl h
      · exact .inr (List.mem_cons_of_mem _ h)
    · rw [if_neg hy, List.map_cons, List.mem_cons] at h
      rcases h with h | h
      · exact .inr (h ▸ List.mem_cons_self)
      · exact (ih h).imp_right (List.mem_cons_of_mem _)

theorem nodup_put (x : α) {l : List α} (h : (l.map key).Nodup) : ((put key x l).map key).Nodup := by
  induction l with
  | nil => simp [put]
  | cons y l ih =>
    rw [List.map_cons, List.nodup_cons] at h
    rw [put]
    by_cases hy : key y = key x
    · rw [if_pos hy, List.map_cons, List.nodup_cons, ← hy]
      exact h
    · rw [if_neg hy, List.map_cons, List.nodup_cons]
      refine ⟨fun hm => ?_, ih h.2⟩
      rcases map_put_subset x l hm with hk | hk
      · exact hy hk
      · exact h.1 hk

theorem find_filter_ne (l : List α) (k k' : κ) :
    find key k' (l.filter fun x => decide (key x ≠ k)) = if k' = k then none else find key k' l := by
  induction l with
  | nil => simp
  | cons x l ih =>
    by_cases hx : key x = k
    · rw [List.filter_cons_of_neg (by simpa using hx), ih, find_cons, hx]
      by_cases hk : k' = k
      · rw [if_pos hk, if_pos hk]
      · rw [if_neg hk, if_neg hk, if_neg (Ne.symm hk)]
    · rw [List.filter_cons_of_pos (by simpa using hx), find_cons, find_cons, ih]
      by_cases hk : key x = k'
      · rw [if_pos hk, if_pos hk, if_neg fun h => hx (hk.trans h)]
      · rw [if_neg hk, if_neg hk]

/-! ## Sorted lists -/

variable (key) in
/-- The list in the order of the keys. -/
def sort (l : List α) : List α := l.mergeSort fun x y => decide (key x ≤ key y)

/-- In order, and no key twice. -/
def StrictlySorted (key : α → κ) (l : List α) : Prop := l.Pairwise fun x y => key x < key y

theorem sort_perm (l : List α) : (sort key l).Perm l := List.mergeSort_perm l _

theorem sort_sorted (l : List α) : (sort key l).Pairwise fun x y => key x ≤ key y := by
  have h := @List.pairwise_mergeSort _ (fun x y : α => decide (key x ≤ key y))
    (fun a b c hab hbc => by simp only [decide_eq_true_eq] at *; exact le_trans hab hbc)
    (fun a b => by simp only [Bool.or_eq_true, decide_eq_true_eq]; exact le_total _ _) l
  exact h.imp fun hxy => of_decide_eq_true hxy

theorem sort_of_sorted {l : List α} (h : l.Pairwise fun x y => key x ≤ key y) : sort key l = l :=
  List.mergeSort_of_pairwise (h.imp decide_eq_true)

theorem sort_sort (l : List α) : sort key (sort key l) = sort key l := sort_of_sorted (sort_sorted l)

/-- Sorting sees nothing but the keys. -/
theorem sort_map {β : Type} {key' : β → κ} {f : α → β} (h : ∀ x, key' (f x) = key x) (l : List α) :
    (sort key l).map f = sort key' (l.map f) :=
  List.map_mergeSort fun x _ y _ => by rw [h x, h y]

theorem strictlySorted_sort {l : List α} (h : (l.map key).Nodup) : StrictlySorted key (sort key l) := by
  have hkeys : ((sort key l).map key).Nodup := ((sort_perm l).map key).nodup_iff.2 h
  exact ((sort_sorted l).and (List.pairwise_map.1 hkeys)).imp fun hxy => lt_of_le_of_ne hxy.1 hxy.2

theorem StrictlySorted.nodup {l : List α} (h : StrictlySorted key l) : (l.map key).Nodup :=
  List.pairwise_map.2 (h.imp ne_of_lt)

/-- A sorted list is the only one with its map. -/
theorem eq_of_find {l l' : List α} (h : StrictlySorted key l) (h' : StrictlySorted key l')
    (hf : ∀ k, find key k l = find key k l') : l = l' := by
  have hsub {m m' : List α} (hm : StrictlySorted key m) (hm' : StrictlySorted key m')
      (he : ∀ k, find key k m = find key k m') {x : α} (hx : x ∈ m) : x ∈ m' :=
    ((find_eq_some hm'.nodup).1 ((he (key x)).symm.trans ((find_eq_some hm.nodup).2 ⟨hx, rfl⟩))).1
  have hperm : l.Perm l' := by
    refine (List.perm_ext_iff_of_nodup h.nodup.of_map h'.nodup.of_map).2 fun x => ⟨hsub h h' hf, ?_⟩
    exact hsub h' h fun k => (hf k).symm
  exact hperm.eq_of_pairwise (fun a b _ _ hab hba => absurd (hab.trans hba) (lt_irrefl _)) h h'

end Keyed
