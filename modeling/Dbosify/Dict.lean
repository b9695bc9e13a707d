/-
Python's dictionaries: entries in insertion order, at most one for a key
(the field `nodup`, so a dictionary with two is not a value of the type).

Setting a key that is there replaces its entry in place; a new key goes to
the end. What a program observes of a dictionary is `get?` and the order of
`entries`; the lemmas below say what each operation does to both.
-/
import Mathlib.Data.List.Nodup
import Mathlib.Data.List.Perm.Basic

namespace Py

/-- A dictionary: its entries in insertion order. -/
structure Dict (κ α : Type) where
  entries : List (κ × α)
  nodup : (entries.map (·.1)).Nodup
deriving DecidableEq

namespace Dict

variable {κ α : Type}

/-- `{}`. -/
def empty : Dict κ α := ⟨[], List.nodup_nil⟩

def keys (d : Dict κ α) : List κ := d.entries.map (·.1)

def values (d : Dict κ α) : List α := d.entries.map (·.2)

variable [DecidableEq κ]

/-- `d.get(k)`. -/
def get? (d : Dict κ α) (k : κ) : Option α := (d.entries.find? (·.1 = k)).map (·.2)

theorem find?_key {l : List (κ × α)} {k : κ} :
    (l.find? (·.1 = k)).isSome = true ↔ k ∈ l.map (·.1) := by
  simp only [List.find?_isSome, decide_eq_true_eq, List.mem_map]

/-- Replacing the value at `k` moves no key. -/
theorem map_replace_keys (l : List (κ × α)) (k : κ) (f : α → α) :
    (l.map fun e => if e.1 = k then (e.1, f e.2) else e).map (·.1) = l.map (·.1) := by
  rw [List.map_map]
  refine List.map_congr_left fun e _ => ?_
  simp only [Function.comp]
  split <;> rfl

/-- `d[k].x = …`: change the value at `k`, if there is one. -/
def modify (d : Dict κ α) (k : κ) (f : α → α) : Dict κ α where
  entries := d.entries.map fun e => if e.1 = k then (e.1, f e.2) else e
  nodup := by rw [map_replace_keys]; exact d.nodup

/-- `d[k] = v`. -/
def set (d : Dict κ α) (k : κ) (v : α) : Dict κ α :=
  if h : k ∈ d.keys then d.modify k fun _ => v
  else
    { entries := d.entries ++ [(k, v)]
      nodup := by
        rw [List.map_append, List.nodup_append]
        refine ⟨d.nodup, by simp, ?_⟩
        intro a ha b hb hab
        simp only [List.map_cons, List.map_nil, List.mem_singleton] at hb
        subst hb; subst hab
        exact h ha }

/-- `d.pop(k, None)`, without its answer. -/
def pop (d : Dict κ α) (k : κ) : Dict κ α where
  entries := d.entries.filter (·.1 ≠ k)
  nodup := d.nodup.sublist (List.Sublist.map _ List.filter_sublist)

/-! ## What each operation leaves at a key -/

@[simp] theorem get?_empty (k : κ) : (empty : Dict κ α).get? k = none := rfl

theorem mem_keys_iff {d : Dict κ α} {k : κ} : k ∈ d.keys ↔ (d.get? k).isSome = true := by
  rw [keys, ← find?_key, get?, Option.isSome_map]

theorem get?_modify_self (d : Dict κ α) (k : κ) (f : α → α) :
    (d.modify k f).get? k = (d.get? k).map f := by
  simp only [get?, modify]
  induction d.entries with
  | nil => rfl
  | cons e l ih =>
    by_cases he : e.1 = k
    · simp [he]
    · simp only [List.map_cons, he, if_false, List.find?_cons, decide_false]
      exact ih

theorem get?_modify_other (d : Dict κ α) {k k' : κ} (f : α → α) (hne : k' ≠ k) :
    (d.modify k f).get? k' = d.get? k' := by
  simp only [get?, modify]
  induction d.entries with
  | nil => rfl
  | cons e l ih =>
    by_cases he : e.1 = k
    · have hk : ¬ e.1 = k' := fun h => hne (h.symm.trans he)
      simp only [List.map_cons, he, if_true, List.find?_cons]
      simp only [he] at hk
      simpa [hk] using ih
    · simp only [List.map_cons, he, if_false, List.find?_cons]
      split
      · rfl
      · exact ih

theorem get?_modify (d : Dict κ α) (k k' : κ) (f : α → α) :
    (d.modify k f).get? k' = if k' = k then (d.get? k').map f else d.get? k' := by
  split
  · next h => rw [h, get?_modify_self]
  · next h => exact get?_modify_other d f h

theorem get?_set (d : Dict κ α) (k k' : κ) (v : α) :
    (d.set k v).get? k' = if k' = k then some v else d.get? k' := by
  unfold set
  split
  · next h =>
    rw [get?_modify]
    split
    · next he =>
      obtain ⟨w, hw⟩ := Option.isSome_iff_exists.1 (mem_keys_iff.1 h)
      rw [he, hw]; rfl
    · rfl
  · next h =>
    have hnone : d.get? k = none := by
      rw [← Option.not_isSome_iff_eq_none]; exact fun hs => h (mem_keys_iff.2 hs)
    simp only [get?, List.find?_append, Option.map_eq_none_iff] at hnone ⊢
    by_cases he : k' = k
    · subst he; simp [hnone]
    · have hk : ¬ k = k' := fun h => he h.symm
      simp only [he, if_false]
      cases List.find? (fun x => decide (x.1 = k')) d.entries <;> simp [hk]

@[simp] theorem get?_set_self (d : Dict κ α) (k : κ) (v : α) : (d.set k v).get? k = some v := by
  rw [get?_set, if_pos rfl]

theorem get?_set_other (d : Dict κ α) {k k' : κ} (v : α) (hne : k' ≠ k) :
    (d.set k v).get? k' = d.get? k' := by
  rw [get?_set, if_neg hne]

theorem get?_pop (d : Dict κ α) (k k' : κ) :
    (d.pop k).get? k' = if k' = k then none else d.get? k' := by
  simp only [get?, pop]
  induction d.entries with
  | nil => split <;> rfl
  | cons e l ih =>
    by_cases he : e.1 = k
    · by_cases hk : k' = k
      · simp [he, hk]
      · have hk' : ¬ k = k' := fun h => hk h.symm
        simpa [List.filter_cons, he, hk, hk'] using ih
    · by_cases hk : k' = k
      · subst hk
        simp [he]
      · simp only [hk, if_false] at ih ⊢
        by_cases hek : e.1 = k'
        · simp [hek, hk]
        · simpa [List.filter_cons, he, List.find?_cons, hek] using ih

@[simp] theorem get?_pop_self (d : Dict κ α) (k : κ) : (d.pop k).get? k = none := by
  rw [get?_pop, if_pos rfl]

theorem get?_pop_other (d : Dict κ α) {k k' : κ} (hne : k' ≠ k) : (d.pop k).get? k' = d.get? k' := by
  rw [get?_pop, if_neg hne]

theorem get?_pop_some {d : Dict κ α} {k k' : κ} {v : α} :
    (d.pop k).get? k' = some v ↔ k' ≠ k ∧ d.get? k' = some v := by
  rw [get?_pop]
  split
  · next h => simp [h]
  · next h => simp [h]

/-! ## Entries -/

omit [DecidableEq κ] in
theorem mem_values_iff {d : Dict κ α} {v : α} : v ∈ d.values ↔ ∃ k, (k, v) ∈ d.entries := by
  simp [values, List.mem_map]

/-- With one entry for a key, `get?` finds exactly the entries. -/
theorem mem_entries_iff {d : Dict κ α} {k : κ} {v : α} : (k, v) ∈ d.entries ↔ d.get? k = some v := by
  obtain ⟨l, hl⟩ := d
  simp only [get?]
  induction l with
  | nil => simp
  | cons e l ih =>
    simp only [List.map_cons, List.nodup_cons] at hl
    have ih := ih hl.2
    by_cases he : e.1 = k
    · simp only [List.find?_cons, he, decide_true, Option.map_some, Option.some.injEq, List.mem_cons]
      constructor
      · rintro (rfl | h)
        · rfl
        · exact absurd (List.mem_map_of_mem (f := (·.1)) h) (he ▸ hl.1)
      · rintro rfl; exact .inl (by rw [← he])
    · simp only [List.find?_cons, he, decide_false, List.mem_cons]
      rw [← ih]
      constructor
      · rintro (rfl | h)
        · exact absurd rfl he
        · exact h
      · exact .inr

theorem mem_values_get? {d : Dict κ α} {v : α} : v ∈ d.values ↔ ∃ k, d.get? k = some v := by
  simp only [mem_values_iff, mem_entries_iff]

@[simp] theorem entries_modify (d : Dict κ α) (k : κ) (f : α → α) :
    (d.modify k f).entries = d.entries.map fun e => if e.1 = k then (e.1, f e.2) else e := rfl

omit [DecidableEq κ] in
theorem ext_entries {d d' : Dict κ α} (h : d.entries = d'.entries) : d = d' := by
  cases d
  cases d'
  cases h
  rfl

/-- A change that changes nothing. -/
theorem modify_eq_self {d : Dict κ α} {k : κ} {f : α → α} (h : ∀ v, d.get? k = some v → f v = v) : d.modify k f = d := by
  refine ext_entries ?_
  rw [entries_modify]
  refine (List.map_congr_left fun e he => ?_).trans (List.map_id _)
  obtain ⟨k', v⟩ := e
  dsimp only
  split
  · next hk =>
    subst hk
    rw [h v (mem_entries_iff.1 he)]
    rfl
  · rfl

theorem entries_set_of_none {d : Dict κ α} {k : κ} (h : d.get? k = none) (v : α) :
    (d.set k v).entries = d.entries ++ [(k, v)] := by
  have hk : k ∉ d.keys := by rw [mem_keys_iff, h]; simp
  simp only [set, dif_neg hk]

/-- What is popped, and what is left. -/
theorem perm_pop {d : Dict κ α} {k : κ} {v : α} (h : d.get? k = some v) : d.entries.Perm ((k, v) :: (d.pop k).entries) := by
  obtain ⟨l, hl⟩ := d
  simp only [get?, pop] at h ⊢
  induction l with
  | nil => cases h
  | cons e l ih =>
    rw [List.map_cons, List.nodup_cons] at hl
    by_cases he : e.1 = k
    · have hv : e.2 = v := by simpa [he] using h
      have hrest : l.filter (fun e => decide (e.1 ≠ k)) = l := List.filter_eq_self.2 fun a ha => by
        have : a.1 ≠ k := fun hk => hl.1 (he ▸ hk ▸ List.mem_map_of_mem ha)
        simpa using this
      obtain ⟨k', v'⟩ := e
      subst he hv
      simp only [ne_eq, not_true_eq_false, decide_false, Bool.false_eq_true, not_false_eq_true, List.filter_cons_of_neg]
      exact .of_eq (by rw [hrest])
    · rw [List.find?_cons_of_neg (by simpa using he)] at h
      rw [List.filter_cons_of_pos (by simpa using he)]
      exact ((ih hl.2 h).cons e).trans (.swap _ _ _)

/-! ## Built from a list -/

/-- `{k: v for k, v in l}`: each entry set in turn. -/
def ofEntries (l : List (κ × α)) : Dict κ α := l.foldl (fun d e => d.set e.1 e.2) empty

theorem mem_entries_set {d : Dict κ α} {k : κ} {v : α} {e : κ × α} (h : e ∈ (d.set k v).entries) :
    e = (k, v) ∨ e ∈ d.entries := by
  obtain ⟨k', v'⟩ := e
  rw [mem_entries_iff, get?_set] at h
  split at h
  · next he =>
    cases h
    rw [he]
    exact .inl rfl
  · exact .inr (mem_entries_iff.2 h)

theorem mem_entries_foldl_set {l : List (κ × α)} {d : Dict κ α} {e : κ × α}
    (h : e ∈ (l.foldl (fun d e => d.set e.1 e.2) d).entries) : e ∈ l ∨ e ∈ d.entries := by
  induction l generalizing d with
  | nil => exact .inr h
  | cons a l ih =>
    rcases ih h with h | h
    · exact .inl (List.mem_cons_of_mem a h)
    · rcases mem_entries_set h with rfl | h
      · exact .inl List.mem_cons_self
      · exact .inr h

theorem mem_of_mem_ofEntries {l : List (κ × α)} {e : κ × α} (h : e ∈ (ofEntries l).entries) : e ∈ l :=
  (mem_entries_foldl_set h).resolve_right (by simp [empty])

theorem entries_foldl_set {l : List (κ × α)} {d : Dict κ α} (h : (d.entries.map (·.1) ++ l.map (·.1)).Nodup) :
    (l.foldl (fun d e => d.set e.1 e.2) d).entries = d.entries ++ l := by
  induction l generalizing d with
  | nil => exact (List.append_nil _).symm
  | cons a l ih =>
    have hnone : d.get? a.1 = none := by
      rw [← Option.not_isSome_iff_eq_none, ← mem_keys_iff]
      intro hk
      rw [List.map_cons, List.nodup_append] at h
      exact h.2.2 a.1 hk a.1 List.mem_cons_self rfl
    have hset := entries_set_of_none hnone a.2
    rw [List.foldl_cons, ih, hset, List.append_assoc, List.singleton_append]
    rw [hset, List.map_append, List.append_assoc]
    exact h

/-- Of distinct keys, the entries are the list. -/
theorem entries_ofEntries {l : List (κ × α)} (h : (l.map (·.1)).Nodup) : (ofEntries l).entries = l :=
  entries_foldl_set h

end Dict

end Py
