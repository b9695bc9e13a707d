/-
Upserts of search attributes (`common.TypedSearchAttributes.updated`,
`attributes.apply_sa_updates`), over values of any kind.

A collection is the map its pairs make of names. An update writes one name of
it, so a row of updates leaves what the last of each name wrote
(`applySaUpdates_spec`); and the stored map, written name by name, is that of
the collection (`encode_applySaUpdates`). What is stored reads back as the same
attributes (`decode_encode`).
-/
import Dbosify.KeyedLists
import Dbosify.SearchAttributes

namespace Dbosify

variable {V J : Type}

/-! ## Collections -/

/-- `SearchAttributePair`. -/
structure AttributePair (V : Type) where
  key : SearchAttributeKey
  value : V

def AttributePair.name (p : AttributePair V) : String := p.key.name

/-- `TypedSearchAttributes`: sorted by name, no name twice. -/
structure AttributeCollection (V : Type) where
  pairs : List (AttributePair V)
  sorted : Keyed.StrictlySorted AttributePair.name pairs

namespace AttributeCollection

def empty : AttributeCollection V := ⟨[], .nil⟩

/-- The pair of a name. -/
def lookup (c : AttributeCollection V) (name : String) : Option (AttributePair V) :=
  Keyed.find AttributePair.name name c.pairs

/-- The name of the first pair with the name of the one before it. -/
def firstDuplicate : List (AttributePair V) → Option String
  | p :: q :: l => if p.name = q.name then some q.name else firstDuplicate (q :: l)
  | _ => none

instance (l : List (AttributePair V)) : Decidable (Keyed.StrictlySorted AttributePair.name l) :=
  inferInstanceAs (Decidable (List.Pairwise _ l))

/-- `TypedSearchAttributes(pairs)`. -/
def of (l : List (AttributePair V)) : Except Exc (AttributeCollection V) :=
  let sorted := Keyed.sort AttributePair.name l
  if h : Keyed.StrictlySorted AttributePair.name sorted then .ok ⟨sorted, h⟩
  else
    .error (.valueError ("Duplicate search attribute entries found for key " ++ (firstDuplicate sorted).getD ""))

/-- `updated`. -/
def updated (c : AttributeCollection V) (attrs : List (AttributePair V)) : Except Exc (AttributeCollection V) :=
  of (attrs.foldl (fun l attr => Keyed.put AttributePair.name attr l) c.pairs)

end AttributeCollection

/-- `SearchAttributeUpdate`; without a value the key is unset. -/
structure AttributeUpdate (V : Type) where
  key : SearchAttributeKey
  value : Option V

/-- `apply_sa_updates`, of typed updates. -/
def AttributeCollection.applySaUpdates (current : AttributeCollection V) (updates : List (AttributeUpdate V)) :
    Except Exc (AttributeCollection V) :=
  updates.foldlM (fun result update =>
    match update.value with
    | none => AttributeCollection.of (result.pairs.filter fun p => decide (p.name ≠ update.key.name))
    | some v => result.updated [⟨update.key, v⟩]) current

/-! ## What an update leaves -/

namespace AttributeCollection

/-- Pairs of distinct names make a collection, with their map. -/
theorem of_nodup {l : List (AttributePair V)} (h : (l.map AttributePair.name).Nodup) :
    ∃ c, of l = .ok c ∧ ∀ name, c.lookup name = Keyed.find AttributePair.name name l := by
  have hs := Keyed.strictlySorted_sort h
  refine ⟨⟨_, hs⟩, dif_pos hs, fun name => ?_⟩
  exact (Keyed.find_perm (Keyed.sort_perm l).symm h name).symm

theorem nodup (c : AttributeCollection V) : (c.pairs.map AttributePair.name).Nodup := c.sorted.nodup

theorem lookup_eq_some {c : AttributeCollection V} {name : String} {p : AttributePair V} :
    c.lookup name = some p ↔ p ∈ c.pairs ∧ p.name = name := Keyed.find_eq_some c.nodup

/-- A collection is its map. -/
theorem eq_of_lookup {c d : AttributeCollection V} (h : ∀ name, c.lookup name = d.lookup name) : c = d := by
  obtain ⟨l, hl⟩ := c
  obtain ⟨m, hm⟩ := d
  obtain rfl : l = m := Keyed.eq_of_find hl hm h
  rfl

end AttributeCollection

/-- What the map of a collection is after an update. -/
def AttributeUpdate.write (u : AttributeUpdate V) (m : String → Option (AttributePair V)) :
    String → Option (AttributePair V) :=
  fun name => if name = u.key.name then u.value.map fun v => ⟨u.key, v⟩ else m name

theorem applySaUpdates_cons (c : AttributeCollection V) (u : AttributeUpdate V) (us : List (AttributeUpdate V)) :
    c.applySaUpdates (u :: us) = (do (← c.applySaUpdates [u]).applySaUpdates us) := by
  simp only [AttributeCollection.applySaUpdates, List.foldlM_cons, List.foldlM_nil, bind_pure]

theorem applySaUpdates_one (c : AttributeCollection V) (u : AttributeUpdate V) :
    ∃ c', c.applySaUpdates [u] = .ok c' ∧ c'.lookup = u.write c.lookup := by
  simp only [AttributeCollection.applySaUpdates, List.foldlM_cons, List.foldlM_nil, bind_pure]
  cases hv : u.value with
  | none =>
    have hn : ((c.pairs.filter fun p => decide (p.name ≠ u.key.name)).map AttributePair.name).Nodup :=
      c.nodup.sublist (List.filter_sublist.map _)
    obtain ⟨c', hc, hl⟩ := AttributeCollection.of_nodup hn
    refine ⟨c', hc, funext fun name => ?_⟩
    rw [hl, Keyed.find_filter_ne, AttributeUpdate.write, hv]
    rfl
  | some v =>
    have hn : ((Keyed.put AttributePair.name ⟨u.key, v⟩ c.pairs).map AttributePair.name).Nodup :=
      Keyed.nodup_put _ c.nodup
    obtain ⟨c', hc, hl⟩ := AttributeCollection.of_nodup hn
    refine ⟨c', hc, funext fun name => ?_⟩
    rw [hl, Keyed.find_put, AttributeUpdate.write, hv]
    rfl

/-- **Upserts fold**: they never fail, and leave what the last update of each
name wrote. -/
theorem applySaUpdates_spec (c : AttributeCollection V) (us : List (AttributeUpdate V)) :
    ∃ c', c.applySaUpdates us = .ok c' ∧ c'.lookup = us.foldl (fun m u => u.write m) c.lookup := by
  induction us generalizing c with
  | nil => exact ⟨c, rfl, rfl⟩
  | cons u us ih =>
    obtain ⟨c₁, hc₁, hl₁⟩ := applySaUpdates_one c u
    obtain ⟨c₂, hc₂, hl₂⟩ := ih c₁
    refine ⟨c₂, by rw [applySaUpdates_cons, hc₁, ok_bind, hc₂], ?_⟩
    rw [hl₂, hl₁, List.foldl_cons]

/-! ## What is stored -/

/-- The stored map: for each name its type and its value as JSON. -/
abbrev StoredMap (J : Type) := Py.Dict String (String × J)

/-- `encode_search_attributes`. -/
def encodeCollection (toJson : SearchAttributeKey → V → Except Exc J) (c : AttributeCollection V) :
    Except Exc (StoredMap J) :=
  c.pairs.foldlM (fun out p => (toJson p.key p.value).map fun j => out.set p.name (p.key.type.metadataType, j)) .empty

/-- The stored map, written by an update. -/
def AttributeUpdate.store (toJson : SearchAttributeKey → V → Except Exc J) (d : StoredMap J)
    (u : AttributeUpdate V) : Except Exc (StoredMap J) :=
  match u.value with
  | none => .ok (d.pop u.key.name)
  | some v => (toJson u.key v).map fun j => d.set u.key.name (u.key.type.metadataType, j)

variable {toJson : SearchAttributeKey → V → Except Exc J}

/-- The stored map is the image of the collection's. -/
def Stores (toJson : SearchAttributeKey → V → Except Exc J) (m : String → Option (AttributePair V))
    (d : StoredMap J) : Prop :=
  ∀ name, match m name with
    | none => d.get? name = none
    | some p => ∃ j, toJson p.key p.value = .ok j ∧ d.get? name = some (p.key.type.metadataType, j)

theorem Stores.unique {m : String → Option (AttributePair V)} {d d' : StoredMap J} (h : Stores toJson m d)
    (h' : Stores toJson m d') (name : String) : d.get? name = d'.get? name := by
  have h := h name
  have h' := h' name
  cases hm : m name with
  | none =>
    simp only [hm] at h h'
    rw [h, h']
  | some p =>
    simp only [hm] at h h'
    obtain ⟨j, hj, hd⟩ := h
    obtain ⟨j', hj', hd'⟩ := h'
    rw [hj] at hj'
    cases hj'
    rw [hd, hd']

theorem Stores.set {m : String → Option (AttributePair V)} {d : StoredMap J} (h : Stores toJson m d)
    {key : SearchAttributeKey} {v : V} {j : J} (hj : toJson key v = .ok j) :
    Stores toJson ((⟨key, some v⟩ : AttributeUpdate V).write m) (d.set key.name (key.type.metadataType, j)) := by
  intro name
  simp only [AttributeUpdate.write]
  by_cases hn : name = key.name
  · simp only [hn, if_true, Option.map_some]
    exact ⟨j, hj, Py.Dict.get?_set_self ..⟩
  · simp only [hn, if_false, Py.Dict.get?_set_other _ _ hn]
    exact h name

theorem Stores.store {m : String → Option (AttributePair V)} {d : StoredMap J} (h : Stores toJson m d)
    (u : AttributeUpdate V) (hu : ∀ v, u.value = some v → ∃ j, toJson u.key v = .ok j) :
    ∃ d', u.store toJson d = .ok d' ∧ Stores toJson (u.write m) d' := by
  obtain ⟨key, value⟩ := u
  cases value with
  | none =>
    refine ⟨_, rfl, fun name => ?_⟩
    simp only [AttributeUpdate.write]
    by_cases hn : name = key.name
    · simp [hn]
    · simp only [hn, if_false, Py.Dict.get?_pop_other _ hn]
      exact h name
  | some v =>
    obtain ⟨j, hj⟩ := hu v rfl
    exact ⟨_, by simp only [AttributeUpdate.store, hj]; rfl, h.set hj⟩

/-- A row of updates, written into the stored map. -/
theorem Stores.foldlM {m : String → Option (AttributePair V)} {d : StoredMap J} (h : Stores toJson m d)
    {us : List (AttributeUpdate V)} (hu : ∀ u ∈ us, ∀ v, u.value = some v → ∃ j, toJson u.key v = .ok j) :
    ∃ d', us.foldlM (fun d u => u.store toJson d) d = .ok d' ∧
      Stores toJson (us.foldl (fun m u => u.write m) m) d' := by
  induction us generalizing m d with
  | nil => exact ⟨d, rfl, h⟩
  | cons u us ih =>
    rw [List.forall_mem_cons] at hu
    obtain ⟨d₁, hd₁, h₁⟩ := h.store u hu.1
    obtain ⟨d₂, hd₂, h₂⟩ := ih h₁ hu.2
    exact ⟨d₂, by rw [List.foldlM_cons, hd₁, ok_bind, hd₂], h₂⟩

/-- Pairs whose values can be stored are stored in turn. -/
theorem encode_fold {l : List (AttributePair V)} (hn : (l.map AttributePair.name).Nodup)
    (hj : ∀ p ∈ l, ∃ j, toJson p.key p.value = .ok j) (d : StoredMap J) :
    ∃ d', l.foldlM (fun out p => (toJson p.key p.value).map fun j => out.set p.name (p.key.type.metadataType, j)) d =
        .ok d' ∧
      ∀ name, match Keyed.find AttributePair.name name l with
        | none => d'.get? name = d.get? name
        | some p => ∃ j, toJson p.key p.value = .ok j ∧ d'.get? name = some (p.key.type.metadataType, j) := by
  induction l generalizing d with
  | nil => exact ⟨d, rfl, fun _ => rfl⟩
  | cons p l ih =>
    rw [List.map_cons, List.nodup_cons] at hn
    rw [List.forall_mem_cons] at hj
    obtain ⟨j, hp⟩ := hj.1
    obtain ⟨d', hd', hl⟩ := ih hn.2 hj.2 (d.set p.name (p.key.type.metadataType, j))
    refine ⟨d', by rw [List.foldlM_cons, hp]; exact hd', fun name => ?_⟩
    have hname := hl name
    rw [Keyed.find_cons]
    by_cases he : p.name = name
    · -- No later pair has this name.
      have hnone : Keyed.find AttributePair.name name l = none := by
        cases hf : Keyed.find AttributePair.name name l with
        | none => rfl
        | some q =>
          obtain ⟨hq, hqn⟩ := (Keyed.find_eq_some hn.2).1 hf
          exact absurd (he.trans hqn.symm ▸ List.mem_map_of_mem hq) hn.1
      rw [if_pos he]
      rw [hnone] at hname
      exact ⟨j, hp, by rw [hname, he, Py.Dict.get?_set_self]⟩
    · rw [if_neg he]
      cases hf : Keyed.find AttributePair.name name l with
      | none =>
        rw [hf] at hname
        exact hname.trans (Py.Dict.get?_set_other _ _ (Ne.symm he))
      | some q =>
        rw [hf] at hname
        exact hname

theorem encodeCollection_ok {c : AttributeCollection V} (hj : ∀ p ∈ c.pairs, ∃ j, toJson p.key p.value = .ok j) :
    ∃ d, encodeCollection toJson c = .ok d ∧ Stores toJson c.lookup d := encode_fold c.nodup hj .empty

theorem foldlM_ok_mem {α β ε : Type} {f : β → α → Except ε β} {l : List α} {b b' : β}
    (h : l.foldlM f b = .ok b') {a : α} (ha : a ∈ l) : ∃ x y, f x a = .ok y := by
  induction l generalizing b with
  | nil => cases ha
  | cons c l ih =>
    rw [List.foldlM_cons] at h
    obtain ⟨y, hy, h⟩ := bind_eq_ok.1 h
    rcases List.mem_cons.1 ha with rfl | ha
    · exact ⟨b, y, hy⟩
    · exact ih h ha

/-- A collection is stored exactly if each of its values can be. -/
theorem encodeCollection_isOk {c : AttributeCollection V} :
    (∃ d, encodeCollection toJson c = .ok d) ↔ ∀ p ∈ c.pairs, ∃ j, toJson p.key p.value = .ok j := by
  constructor
  · intro ⟨d, hd⟩ p hp
    obtain ⟨x, y, hy⟩ := foldlM_ok_mem hd hp
    obtain ⟨j, hj, -⟩ := except_map_eq_ok.1 hy
    exact ⟨j, hj⟩
  · intro h
    obtain ⟨d, hd, -⟩ := encodeCollection_ok h
    exact ⟨d, hd⟩

theorem encodeCollection_stores {c : AttributeCollection V} {d : StoredMap J} (h : encodeCollection toJson c = .ok d) :
    Stores toJson c.lookup d := by
  obtain ⟨d', hd', hs⟩ := encodeCollection_ok (encodeCollection_isOk.1 ⟨d, h⟩)
  rw [h] at hd'
  cases hd'
  exact hs

/-- **Encoding commutes with updates**: the stored map of the updated
collection is the stored map, updated name by name. -/
theorem encode_applySaUpdates {c : AttributeCollection V} {d : StoredMap J} (h : encodeCollection toJson c = .ok d)
    {us : List (AttributeUpdate V)} (hu : ∀ u ∈ us, ∀ v, u.value = some v → ∃ j, toJson u.key v = .ok j) :
    ∃ c' d' d'', c.applySaUpdates us = .ok c' ∧ encodeCollection toJson c' = .ok d' ∧
      us.foldlM (fun d u => u.store toJson d) d = .ok d'' ∧ ∀ name, d'.get? name = d''.get? name := by
  obtain ⟨c', hc', hl⟩ := applySaUpdates_spec c us
  obtain ⟨d'', hd'', hs⟩ := (encodeCollection_stores h).foldlM hu
  rw [← hl] at hs
  -- What the updates wrote can be stored, and so can what they left.
  have hall : ∀ p ∈ c'.pairs, ∃ j, toJson p.key p.value = .ok j := by
    intro p hp
    have hp' : c'.lookup p.name = some p := AttributeCollection.lookup_eq_some.2 ⟨hp, rfl⟩
    have hname := hs p.name
    rw [hp'] at hname
    obtain ⟨j, hj, -⟩ := hname
    exact ⟨j, hj⟩
  obtain ⟨d', hd', hs'⟩ := encodeCollection_ok hall
  exact ⟨c', d', d'', hc', hd', hd'', hs'.unique hs⟩

/-! ## Reading back -/

/-- The pair of a stored entry; an entry that is malformed is skipped. -/
def pairOfStored (fromJson : SearchAttributeKey → J → Option V) (e : String × String × J) :
    Option (AttributePair V) :=
  (IndexedValueType.fromMetadataType e.2.1).bind fun type =>
    (fromJson ⟨e.1, type⟩ e.2.2).map fun v => ⟨⟨e.1, type⟩, v⟩

/-- `decode_search_attributes`. -/
def decodeCollection (fromJson : SearchAttributeKey → J → Option V) (stored : StoredMap J) :
    Except Exc (AttributeCollection V) :=
  AttributeCollection.of (stored.entries.filterMap (pairOfStored fromJson))

variable {fromJson : SearchAttributeKey → J → Option V}

theorem pairOfStored_name {e : String × String × J} {p : AttributePair V} (h : pairOfStored fromJson e = some p) :
    p.name = e.1 := by
  obtain ⟨type, -, h⟩ := Option.bind_eq_some_iff.1 h
  obtain ⟨v, -, rfl⟩ := Option.map_eq_some_iff.1 h
  rfl

/-- The pairs of the entries have the entries' names. -/
theorem find_filterMap {l : List (String × String × J)} (hn : (l.map (·.1)).Nodup) :
    ((l.filterMap (pairOfStored fromJson)).map AttributePair.name).Nodup ∧
      ∀ name, Keyed.find AttributePair.name name (l.filterMap (pairOfStored fromJson)) =
        (l.find? (·.1 = name)).bind (pairOfStored fromJson) := by
  induction l with
  | nil => exact ⟨List.nodup_nil, fun _ => rfl⟩
  | cons e l ih =>
    rw [List.map_cons, List.nodup_cons] at hn
    obtain ⟨hnodup, hfind⟩ := ih hn.2
    have hmem {q : AttributePair V} (hq : q ∈ l.filterMap (pairOfStored fromJson)) : q.name ∈ l.map (·.1) := by
      obtain ⟨e', he', hq⟩ := List.mem_filterMap.1 hq
      rw [pairOfStored_name hq]
      exact List.mem_map_of_mem he'
    cases hp : pairOfStored fromJson e with
    | none =>
      rw [List.filterMap_cons_none hp]
      refine ⟨hnodup, fun name => ?_⟩
      rw [hfind, List.find?_cons]
      by_cases he : e.1 = name
      · have hnone : l.find? (·.1 = name) = none := by
          rw [List.find?_eq_none]
          intro e' he' hk
          exact hn.1 (he.trans (of_decide_eq_true hk).symm ▸ List.mem_map_of_mem he')
        simp [he, hnone, hp]
      · simp [he]
    | some p =>
      have hname := pairOfStored_name hp
      rw [List.filterMap_cons_some hp]
      refine ⟨?_, fun name => ?_⟩
      · rw [List.map_cons, List.nodup_cons]
        refine ⟨fun hm => ?_, hnodup⟩
        obtain ⟨q, hq, hqn⟩ := List.mem_map.1 hm
        exact hn.1 (hname ▸ hqn ▸ hmem hq)
      · rw [Keyed.find_cons, hname, hfind, List.find?_cons]
        by_cases he : e.1 = name
        · simp [he, hp]
        · simp [he]

theorem decodeCollection_lookup (d : StoredMap J) :
    ∃ c, decodeCollection fromJson d = .ok c ∧
      ∀ name, c.lookup name = (d.get? name).bind fun x => pairOfStored fromJson (name, x) := by
  obtain ⟨hn, hf⟩ := @find_filterMap _ _ fromJson _ d.nodup
  obtain ⟨c, hc, hl⟩ := AttributeCollection.of_nodup hn
  refine ⟨c, hc, fun name => ?_⟩
  rw [hl, hf, Py.Dict.get?]
  cases he : d.entries.find? (·.1 = name) with
  | none => rfl
  | some e =>
    obtain ⟨k, x⟩ := e
    have hk : k = name := by simpa using List.find?_some he
    rw [hk]
    rfl

/-- The collection with each value as it reads back. -/
def AttributeCollection.mapValues (f : SearchAttributeKey → V → V) (c : AttributeCollection V) :
    AttributeCollection V where
  pairs := c.pairs.map fun p => ⟨p.key, f p.key p.value⟩
  sorted := by
    rw [Keyed.StrictlySorted, List.pairwise_map]
    exact c.sorted

theorem AttributeCollection.lookup_mapValues (f : SearchAttributeKey → V → V) (c : AttributeCollection V)
    (name : String) : (c.mapValues f).lookup name = (c.lookup name).map fun p => ⟨p.key, f p.key p.value⟩ := by
  simp only [AttributeCollection.lookup, AttributeCollection.mapValues]
  induction c.pairs with
  | nil => rfl
  | cons p l ih =>
    rw [List.map_cons, Keyed.find_cons, Keyed.find_cons, ih]
    by_cases he : p.name = name
    · have he' : (⟨p.key, f p.key p.value⟩ : AttributePair V).name = name := he
      rw [if_pos he, if_pos he']
      rfl
    · have he' : ¬ (⟨p.key, f p.key p.value⟩ : AttributePair V).name = name := he
      rw [if_neg he, if_neg he']

/-- **What is stored reads back**, under the same keys, each value as `back`
says. -/
theorem decode_encode {back : SearchAttributeKey → V → V}
    (hb : ∀ key v j, toJson key v = .ok j → fromJson key j = some (back key v)) {c : AttributeCollection V}
    {d : StoredMap J} (h : encodeCollection toJson c = .ok d) :
    decodeCollection fromJson d = .ok (c.mapValues back) := by
  obtain ⟨c', hc', hl⟩ := @decodeCollection_lookup _ _ fromJson d
  rw [hc']
  refine congrArg _ (AttributeCollection.eq_of_lookup fun name => ?_)
  have hs := encodeCollection_stores h name
  rw [hl, AttributeCollection.lookup_mapValues]
  cases hp : c.lookup name with
  | none =>
    rw [hp] at hs
    rw [hs]
    rfl
  | some p =>
    rw [hp] at hs
    obtain ⟨j, hj, hd⟩ := hs
    have hname : p.key.name = name := (AttributeCollection.lookup_eq_some.1 hp).2
    subst hname
    rw [hd]
    simp [pairOfStored, hb _ _ _ hj]

end Dbosify
