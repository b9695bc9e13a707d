/-
The values of search attributes in Python, and which of them are equal after
they were stored (`_sa_value_to_json`, `_sa_value_from_json`).

A list comes back as it was, and every other sequence as a list; a datetime
comes back in a zone of its offset, and Python takes it for another if its own
zone has two offsets for its wall clock (`pyEq_readBack`).
-/
import Dbosify.AttributeUpdates
import Dbosify.VisibilityQuery

namespace Dbosify

/-! ## Values -/

/-- A `datetime`: its wall clock in microseconds, its offset unless it is
naive, and whether its zone has another offset for the wall clock under the
other `fold`. -/
structure AttributeDatetime where
  wall : Int
  utcoffset : Option Int
  folds : Bool := false
deriving DecidableEq

/-- A Python value that a workflow gives an attribute. -/
inductive AttributeValue
  | none
  | str (s : String)
  | int (i : Int)
  | float (x : ℚ)
  | bool (b : Bool)
  | datetime (d : AttributeDatetime)
  | list (items : List AttributeValue)
  | tuple (items : List AttributeValue)
  /-- A value of another type: what `list` makes of it, if it is iterable, and
  whether `json.dumps` takes it. -/
  | other (type : String) (items : Option (List AttributeValue)) (jsonable : Bool)

namespace AttributeValue

/-- `type(value).__name__`. -/
def typeName : AttributeValue → String
  | none => "NoneType"
  | str _ => "str"
  | int _ => "int"
  | float _ => "float"
  | bool _ => "bool"
  | datetime _ => "datetime"
  | list _ => "list"
  | tuple _ => "tuple"
  | other type _ _ => type

/-- `list(value)`. -/
def items : AttributeValue → Except Exc (List AttributeValue)
  | str s => .ok (s.toList.map fun c => str (.ofList [c]))
  | list xs | tuple xs | other _ (some xs) _ => .ok xs
  | v => .error (.typeError (quoted v.typeName ++ " object is not iterable"))

/-- What a number is compared by. -/
def number : AttributeValue → Option ℚ
  | int i => some i
  | float x => some x
  | bool b => some (if b then 1 else 0)
  | _ => Option.none

end AttributeValue

/-- `==`, of datetimes of two zones. -/
def AttributeDatetime.pyEq (d e : AttributeDatetime) : Bool :=
  match d.utcoffset, e.utcoffset with
  | none, none => d.wall = e.wall
  | some x, some y => !d.folds && !e.folds && d.wall - x = e.wall - y
  | _, _ => false

mutual

/-- `==`, of values of the types above. -/
def AttributeValue.pyEq : AttributeValue → AttributeValue → Bool
  | .none, .none => true
  | .str s, .str t => s = t
  | .datetime d, .datetime e => d.pyEq e
  | .list xs, .list ys => pyEqItems xs ys
  | .tuple xs, .tuple ys => pyEqItems xs ys
  | v, u =>
    match v.number, u.number with
    | some x, some y => x = y
    | _, _ => false

def pyEqItems : List AttributeValue → List AttributeValue → Bool
  | [], [] => true
  | x :: xs, y :: ys => x.pyEq y && pyEqItems xs ys
  | _, _ => false

end

theorem pyEqItems_strs (l : List String) : pyEqItems (l.map .str) (l.map .str) = true := by
  induction l with
  | nil => rfl
  | cons s l ih => simp [pyEqItems, AttributeValue.pyEq, ih]

/-- `==`, of collections. -/
def AttributeCollection.PyEq (c c' : AttributeCollection AttributeValue) : Prop :=
  List.Forall₂ (fun p q => p.key = q.key ∧ p.value.pyEq q.value = true) c.pairs c'.pairs

/-! ## As JSON -/

/-- A stored value; the text of a datetime is what it says. -/
inductive AttributeJson
  | value (v : AttributeValue)
  | isoformat (wall utcoffset : Int)
  | list (items : List AttributeValue)

/-- `_sa_value_to_json`. -/
def saValueToJson (key : SearchAttributeKey) (v : AttributeValue) : Except Exc AttributeJson :=
  match key.type with
  | .datetime =>
    match v with
    | .datetime d =>
      match d.utcoffset with
      | some utcoffset => .ok (.isoformat d.wall utcoffset)
      | none =>
        .error (.valueError
          ("Search attribute " ++ quoted key.name ++ ": datetime values must be timezone-aware"))
    | v =>
      .error (.typeError
        ("Search attribute " ++ quoted key.name ++ " expects a datetime, got " ++ v.typeName))
  | .keywordList => v.items.map .list
  | _ => .ok (.value v)

/-- `_sa_value_from_json`; a value that is none of the key's type is skipped. -/
def saValueFromJson (key : SearchAttributeKey) (j : AttributeJson) : Option AttributeValue :=
  match key.type, j with
  | .datetime, .isoformat wall utcoffset => some (.datetime { wall, utcoffset := some utcoffset })
  | .datetime, _ => none
  | .keywordList, .list items => some (.list items)
  | .keywordList, .value v => v.items.toOption.map .list
  | _, .value v => some v
  | _, .list items => some (.list items)
  | _, .isoformat _ _ => none

/-- What a value is after it was stored. -/
def AttributeValue.readBack (key : SearchAttributeKey) (v : AttributeValue) : AttributeValue :=
  match key.type, v with
  | .datetime, .datetime d => .datetime { wall := d.wall, utcoffset := d.utcoffset }
  | .keywordList, v => ((v.items.toOption.map .list).getD v)
  | _, v => v

theorem fromJson_toJson (key : SearchAttributeKey) (v : AttributeValue) (j : AttributeJson)
    (h : saValueToJson key v = .ok j) : saValueFromJson key j = some (v.readBack key) := by
  obtain ⟨name, type⟩ := key
  cases type with
  | datetime =>
    cases v with
    | datetime d =>
      obtain ⟨wall, utcoffset, folds⟩ := d
      cases utcoffset with
      | none => cases h
      | some x => cases h; rfl
    | _ => cases h
  | keywordList =>
    obtain ⟨items, hi, he⟩ := except_map_eq_ok.1 h
    cases he
    simp [saValueFromJson, AttributeValue.readBack, hi, Except.toOption]
  | _ => cases h; rfl

/-- A value its key can store: of a datetime key an aware datetime, of a list
key a sequence. -/
def AttributeValue.Storable (key : SearchAttributeKey) (v : AttributeValue) : Prop :=
  (key.type = .datetime → ∃ d x, v = .datetime d ∧ d.utcoffset = some x) ∧
    (key.type = .keywordList → ∃ items, v.items = .ok items)

theorem toJson_of_storable {key : SearchAttributeKey} {v : AttributeValue} (h : v.Storable key) :
    ∃ j, saValueToJson key v = .ok j := by
  obtain ⟨name, type⟩ := key
  cases type with
  | datetime =>
    obtain ⟨d, x, rfl, hx⟩ := h.1 rfl
    exact ⟨.isoformat d.wall x, by simp only [saValueToJson, hx]⟩
  | keywordList =>
    obtain ⟨items, hi⟩ := h.2 rfl
    exact ⟨.list items, by simp only [saValueToJson, hi]; rfl⟩
  | _ => exact ⟨.value v, rfl⟩

/-! ## Equal after storing -/

/-- A value that comes back equal: of a list key a list, of a datetime key one
whose zone has one offset for it. -/
def AttributeValue.KeepsEqual (key : SearchAttributeKey) (v : AttributeValue) : Prop :=
  (key.type = .datetime → ∀ d, v = .datetime d → d.folds = false) ∧
    (key.type = .keywordList → ∃ items, v = .list items)

/-- The value is one of the key's type: a text, a number (each is finite), an
aware datetime, a sequence of texts. -/
def AttributeValue.Inhabits (key : SearchAttributeKey) (v : AttributeValue) : Prop :=
  match key.type with
  | .text | .keyword => ∃ s, v = .str s
  | .int | .bool | .double => v.number.isSome = true
  | .datetime => ∃ d x, v = .datetime d ∧ d.utcoffset = some x
  | .keywordList => ∃ strs : List String, v.items = .ok (strs.map .str)

theorem AttributeValue.Inhabits.storable {key : SearchAttributeKey} {v : AttributeValue} (h : v.Inhabits key) :
    v.Storable key := by
  refine ⟨fun ht => ?_, fun ht => ?_⟩
  · simpa only [Inhabits, ht] using h
  · simp only [Inhabits, ht] at h
    obtain ⟨strs, hs⟩ := h
    exact ⟨_, hs⟩

theorem pyEq_number {v : AttributeValue} (h : v.number.isSome = true) : v.pyEq v = true := by
  cases v with
  | int i => simp [AttributeValue.pyEq, AttributeValue.number]
  | float x => simp [AttributeValue.pyEq, AttributeValue.number]
  | bool b => simp [AttributeValue.pyEq, AttributeValue.number]
  | _ => cases h

/-- Which values come back equal. -/
theorem pyEq_readBack {key : SearchAttributeKey} {v : AttributeValue} (h : v.Inhabits key) :
    (v.readBack key).pyEq v = true ↔ v.KeepsEqual key := by
  obtain ⟨name, type⟩ := key
  cases type with
  | text | keyword =>
    obtain ⟨s, rfl⟩ := h
    exact iff_of_true (by simp [AttributeValue.readBack, AttributeValue.pyEq]) (by simp [AttributeValue.KeepsEqual])
  | int | bool | double =>
    have hnumber : v.number.isSome = true := h
    exact iff_of_true (pyEq_number hnumber) (by simp [AttributeValue.KeepsEqual])
  | datetime =>
    obtain ⟨d, x, rfl, hx⟩ := h
    simp [AttributeValue.readBack, AttributeValue.pyEq, AttributeDatetime.pyEq, AttributeValue.KeepsEqual, hx]
  | keywordList =>
    obtain ⟨strs, hs⟩ := h
    have hback : v.readBack ⟨name, .keywordList⟩ = .list (strs.map .str) := by
      simp only [AttributeValue.readBack, hs, Except.toOption, Option.map_some, Option.getD_some]
    rw [hback]
    constructor
    · intro he
      refine ⟨(fun ht => by cases ht), fun _ => ?_⟩
      -- A list is equal to no value but a list.
      cases v with
      | list items => exact ⟨items, rfl⟩
      | _ => simp [AttributeValue.pyEq, AttributeValue.number] at he
    · intro hk
      obtain ⟨items, rfl⟩ := hk.2 rfl
      obtain rfl : items = strs.map .str := by simpa [AttributeValue.items] using hs
      simpa only [AttributeValue.pyEq] using pyEqItems_strs strs

theorem pyEq_mapValues {c : AttributeCollection AttributeValue} (h : ∀ p ∈ c.pairs, p.value.Inhabits p.key) :
    (c.mapValues AttributeValue.readBack).PyEq c ↔ ∀ p ∈ c.pairs, p.value.KeepsEqual p.key := by
  simp only [AttributeCollection.PyEq, AttributeCollection.mapValues, List.forall₂_map_left_iff]
  rw [List.forall₂_same]
  exact forall₂_congr fun p hp => (and_iff_right rfl).trans (pyEq_readBack (h p hp))

/-- **Attributes round-trip and upserts fold.** What was stored reads back
under the same keys, the values equal where `KeepsEqual` says; updates never
fail and leave the map the last of each name wrote, sorted and without
duplicates (as every collection is); and the stored map of the result is the
stored map, updated name by name. -/
theorem attributes_law (c : AttributeCollection AttributeValue) (hc : ∀ p ∈ c.pairs, p.value.Inhabits p.key)
    (us : List (AttributeUpdate AttributeValue)) :
    (∃ d, encodeCollection saValueToJson c = .ok d ∧
      decodeCollection saValueFromJson d = .ok (c.mapValues AttributeValue.readBack) ∧
      ((c.mapValues AttributeValue.readBack).PyEq c ↔ ∀ p ∈ c.pairs, p.value.KeepsEqual p.key)) ∧
    (∃ c', c.applySaUpdates us = .ok c' ∧ c'.lookup = us.foldl (fun m u => u.write m) c.lookup) ∧
    ((∀ u ∈ us, ∀ v, u.value = some v → v.Inhabits u.key) →
      ∃ c' d d' d'', c.applySaUpdates us = .ok c' ∧ encodeCollection saValueToJson c = .ok d ∧
        encodeCollection saValueToJson c' = .ok d' ∧ us.foldlM (fun d u => u.store saValueToJson d) d = .ok d'' ∧
        ∀ name, d'.get? name = d''.get? name) := by
  obtain ⟨d, hd, -⟩ := encodeCollection_ok fun p hp => toJson_of_storable (hc p hp).storable
  refine ⟨⟨d, hd, decode_encode fromJson_toJson hd, pyEq_mapValues hc⟩, applySaUpdates_spec c us, fun hu => ?_⟩
  obtain ⟨c', d', d'', hc', hd', hd'', he⟩ :=
    encode_applySaUpdates hd fun u hm v hv => toJson_of_storable (hu u hm v hv).storable
  exact ⟨c', d, d', d'', hc', hd, hd', hd'', he⟩

/-- The collection of one pair. -/
def AttributeCollection.single (key : SearchAttributeKey) (v : AttributeValue) : AttributeCollection AttributeValue :=
  ⟨[⟨key, v⟩], List.pairwise_singleton _ _⟩

def tagsKey : SearchAttributeKey := { name := "tags", type := .keywordList }

theorem attributes_law_tags :
    ∃ c', (AttributeCollection.single tagsKey (.list [.str "a"])).applySaUpdates
        [⟨{ name := "tags", type := .text }, some (.str "b")⟩] = .ok c' ∧
      c'.lookup "tags" = some ⟨{ name := "tags", type := .text }, .str "b"⟩ := by
  have hc : ∀ p ∈ (AttributeCollection.single tagsKey (.list [.str "a"])).pairs, p.value.Inhabits p.key := by
    intro p hp
    rw [List.mem_singleton.1 hp]
    exact ⟨["a"], rfl⟩
  obtain ⟨c', hc', hl⟩ :=
    (attributes_law _ hc [⟨{ name := "tags", type := .text }, some (.str "b")⟩]).2.1
  exact ⟨c', hc', by rw [hl]; rfl⟩

/-- A list given as a tuple comes back as a list, which is not equal to it. -/
theorem tuple_comes_back_list :
    let c := AttributeCollection.single tagsKey (.tuple [.str "a"])
    (∀ p ∈ c.pairs, p.value.Inhabits p.key) ∧
      ∃ d c', encodeCollection saValueToJson c = .ok d ∧ decodeCollection saValueFromJson d = .ok c' ∧
        ¬ c'.PyEq c := by
  intro c
  have hc : ∀ p ∈ c.pairs, p.value.Inhabits p.key := by
    intro p hp
    rw [List.mem_singleton.1 hp]
    exact ⟨["a"], rfl⟩
  obtain ⟨d, hd, -⟩ := encodeCollection_ok fun p hp => toJson_of_storable (hc p hp).storable
  refine ⟨hc, d, _, hd, decode_encode fromJson_toJson hd, fun he => ?_⟩
  obtain ⟨items, hi⟩ := ((pyEq_mapValues hc).1 he _ (List.mem_singleton.2 rfl)).2 rfl
  cases hi

end Dbosify
