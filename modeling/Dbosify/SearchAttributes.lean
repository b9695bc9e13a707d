/-
Search attributes, as a caller gives them and as they are stored
(`_internal/attributes.py`, `common.TypedSearchAttributes`).

A typed attribute is stored with the name of its type and its value as JSON.
What was stored so reads back, as typed attributes sorted by name, and is
stored the same again, but for the order (`encode_decode`).
-/
import Mathlib.Data.List.Sort
import Mathlib.Data.String.Basic
import Dbosify.Dict
import Dbosify.StartWorkflow

namespace Dbosify

/-! ## Keys -/

/-- `SearchAttributeIndexedValueType`. -/
inductive IndexedValueType | text | keyword | int | double | bool | datetime | keywordList
deriving DecidableEq, Repr

namespace IndexedValueType

/-- `SearchAttributeKey._metadata_type`. -/
def metadataType : IndexedValueType → String
  | text => "Text"
  | keyword => "Keyword"
  | int => "Int"
  | double => "Double"
  | bool => "Bool"
  | datetime => "Datetime"
  | keywordList => "KeywordList"

/-- The name in SCREAMING_SNAKE_CASE. -/
def screamingType : IndexedValueType → String
  | text => "INDEXED_VALUE_TYPE_TEXT"
  | keyword => "INDEXED_VALUE_TYPE_KEYWORD"
  | int => "INDEXED_VALUE_TYPE_INT"
  | double => "INDEXED_VALUE_TYPE_DOUBLE"
  | bool => "INDEXED_VALUE_TYPE_BOOL"
  | datetime => "INDEXED_VALUE_TYPE_DATETIME"
  | keywordList => "INDEXED_VALUE_TYPE_KEYWORD_LIST"

def all : List IndexedValueType := [text, keyword, int, double, bool, datetime, keywordList]

/-- `SearchAttributeKey._from_metadata_type`. -/
def fromMetadataType (s : String) : Option IndexedValueType :=
  all.find? fun t => s = t.metadataType || s = t.screamingType

@[simp] theorem fromMetadataType_metadataType (t : IndexedValueType) : fromMetadataType t.metadataType = some t := by
  cases t <;> decide

end IndexedValueType

structure SearchAttributeKey where
  name : String
  type : IndexedValueType
deriving DecidableEq, Repr

def SearchValue.isList : SearchValue → Bool
  | .keywordList _ => true
  | _ => false

/-- `common.SearchAttributePair`: a list under a key for lists, and under no
other. -/
structure TypedPair where
  key : SearchAttributeKey
  value : SearchValue
  fits : value.isList = decide (key.type = .keywordList)

namespace TypedPair

variable (p : TypedPair)

/-- The pair, as a start reads it. -/
def pair : SearchAttributePair :=
  { name := p.key.name
    metadataType := p.key.type.metadataType
    isDatetime := decide (p.key.type = .datetime)
    value := p.value }

/-- What is stored of the pair, when its value can be. -/
def entry : String × String × SearchValue := (p.key.name, p.key.type.metadataType, p.value)

/-- A value for a datetime key is a datetime with a time zone. -/
def Storable : Prop := p.key.type = .datetime → ∃ iso, p.value = .datetime iso true

theorem toJson_eq : p.pair.toJson = .ok p.value ∨ ∃ e, p.pair.toJson = .error e := by
  rw [SearchAttributePair.toJson]
  split
  · exact .inr ⟨_, rfl⟩
  · exact .inr ⟨_, rfl⟩
  · exact .inr ⟨_, rfl⟩
  · exact .inl rfl

theorem toJson_isOk : (∃ v, p.pair.toJson = .ok v) ↔ p.Storable := by
  obtain ⟨⟨name, type⟩, value, fits⟩ := p
  by_cases ht : type = .datetime
  · subst ht
    cases value with
    | datetime iso aware => cases aware <;> simp [pair, SearchAttributePair.toJson, Storable]
    | keywordList items => simp [pair, SearchAttributePair.toJson, Storable]
    | scalar json => simp [pair, SearchAttributePair.toJson, Storable]
  · simp [pair, SearchAttributePair.toJson, Storable, ht]

end TypedPair

/-! ## Typed attributes -/

/-- `common.TypedSearchAttributes`: sorted by name, no name twice. -/
structure TypedSearchAttributes where
  pairs : List TypedPair
  sorted : pairs.Pairwise fun p q => p.key.name < q.key.name

namespace TypedSearchAttributes

/-- `TypedSearchAttributes.empty`. -/
def empty : TypedSearchAttributes := ⟨[], .nil⟩

/-- The name of the first pair with the name of the one before it. -/
def firstDuplicate : List TypedPair → Option String
  | p :: q :: l => if p.key.name = q.key.name then some q.key.name else firstDuplicate (q :: l)
  | _ => none

/-- The pairs in the order of their names. -/
def byName (l : List TypedPair) : List TypedPair := l.mergeSort fun p q => decide (p.key.name ≤ q.key.name)

/-- `TypedSearchAttributes(pairs)`. -/
def of (l : List TypedPair) : Except Exc TypedSearchAttributes :=
  if h : (byName l).Pairwise fun p q => p.key.name < q.key.name then .ok ⟨byName l, h⟩
  else
    .error (.valueError
      ("Duplicate search attribute entries found for key " ++ (firstDuplicate (byName l)).getD ""))

theorem byName_perm (l : List TypedPair) : (byName l).Perm l := List.mergeSort_perm l _

theorem byName_sorted (l : List TypedPair) : (byName l).Pairwise fun p q => p.key.name ≤ q.key.name := by
  have h := @List.pairwise_mergeSort _ (fun p q : TypedPair => decide (p.key.name ≤ q.key.name))
    (fun a b c hab hbc => by simp only [decide_eq_true_eq] at *; exact le_trans hab hbc)
    (fun a b => by simp only [Bool.or_eq_true, decide_eq_true_eq]; exact le_total _ _) l
  exact h.imp fun hpq => of_decide_eq_true hpq

/-- Pairs of distinct names are all kept. -/
theorem of_nodup {l : List TypedPair} (h : (l.map (·.key.name)).Nodup) : ∃ t, of l = .ok t ∧ t.pairs.Perm l := by
  have hperm := byName_perm l
  have hnames : ((byName l).map (·.key.name)).Nodup := (hperm.map (·.key.name)).nodup_iff.2 h
  have hnodup : (byName l).Pairwise fun p q => p.key.name ≠ q.key.name := List.pairwise_map.1 hnames
  have hlt : (byName l).Pairwise fun p q => p.key.name < q.key.name :=
    ((byName_sorted l).and hnodup).imp fun hpq => lt_of_le_of_ne hpq.1 hpq.2
  exact ⟨⟨byName l, hlt⟩, dif_pos hlt, hperm⟩

theorem nodup (t : TypedSearchAttributes) : (t.pairs.map (·.key.name)).Nodup :=
  List.pairwise_map.2 (t.sorted.imp fun h => ne_of_lt h)

end TypedSearchAttributes

/-! ## Untyped attributes -/

/-- A value of an untyped attribute, by its Python type, with its JSON text. -/
inductive UntypedValue
  | str (json : String)
  | int (json : String)
  | bool (json : String)
  | float (json : String)
  | datetime (iso : String) (aware : Bool)
deriving DecidableEq, Repr

namespace UntypedValue

def json : UntypedValue → String
  | str j | int j | bool j | float j | datetime j _ => j

def isStr : UntypedValue → Bool
  | str _ => true
  | _ => false

def searchValue : UntypedValue → SearchValue
  | datetime iso aware => .datetime iso aware
  | v => .scalar v.json

/-- The type of a single value; a `bool` is an `int`. -/
def guess : UntypedValue → IndexedValueType
  | str _ => .keyword
  | int _ | bool _ => .int
  | float _ => .double
  | datetime _ _ => .datetime

theorem guess_ne (v : UntypedValue) : v.guess ≠ .keywordList := by
  cases v <;> simp [guess]

theorem isList_searchValue (v : UntypedValue) : v.searchValue.isList = false := by
  cases v <;> rfl

/-- `_guess_from_untyped_values`, with the value `_typed_pairs` takes: several
values are a list if the first is a `str`, and nothing otherwise. -/
def typedPair (name : String) : List UntypedValue → Option TypedPair
  | [] => none
  | [v] =>
    some {
      key := { name, type := v.guess }
      value := v.searchValue
      fits := by rw [isList_searchValue, decide_eq_false v.guess_ne] }
  | v :: w :: vs =>
    if v.isStr then
      some {
        key := { name, type := .keywordList }
        value := .keywordList ((v :: w :: vs).map json)
        fits := rfl }
    else none

end UntypedValue

/-- `common.SearchAttributes`: values by name. -/
abbrev UntypedAttributes := Py.Dict String (List UntypedValue)

/-- `_typed_pairs` of untyped attributes. -/
def untypedPairs (d : UntypedAttributes) : List TypedPair := d.entries.filterMap fun e => UntypedValue.typedPair e.1 e.2

/-! ## Stored attributes -/

abbrev StoredEntry := String × String × SearchValue

/-- `_sa_value_from_json`: what a stored value is under a key. Under a key of
another kind than it was written with it is nothing. -/
def valueFromJson (t : IndexedValueType) (v : SearchValue) : Option SearchValue :=
  match t, v with
  | .datetime, .datetime _ _ | .keywordList, .keywordList _ => some v
  | .datetime, _ | .keywordList, _ => none
  | _, .keywordList _ => none
  | _, v => some v

theorem fits_of_fromJson {t : IndexedValueType} {v w : SearchValue} (h : valueFromJson t v = some w) :
    w.isList = decide (t = .keywordList) := by
  cases t <;> cases v <;> simp only [valueFromJson, reduceCtorEq, Option.some.injEq] at h <;> subst h <;> rfl

/-- The pair of a stored entry; an entry that is malformed is skipped. -/
def pairOfEntry (e : StoredEntry) : Option TypedPair :=
  match IndexedValueType.fromMetadataType e.2.1 with
  | none => none
  | some t =>
    match h : valueFromJson t e.2.2 with
    | none => none
    | some v => some { key := { name := e.1, type := t }, value := v, fits := fits_of_fromJson h }

/-- `attributes.decode_search_attributes`. -/
def decodeSearchAttributes (stored : List StoredEntry) : Except Exc TypedSearchAttributes :=
  TypedSearchAttributes.of (stored.filterMap pairOfEntry)

/-- An entry that some pair was stored as. -/
def Written (e : StoredEntry) : Prop := ∃ p : TypedPair, p.Storable ∧ e = p.entry

/-- What is written reads back as the pair it was written of. -/
theorem pairOfEntry_entry {p : TypedPair} (hp : p.Storable) : pairOfEntry p.entry = some p := by
  obtain ⟨⟨name, type⟩, value, fits⟩ := p
  have hv : valueFromJson type value = some value := by
    cases type <;> cases value <;> simp [TypedPair.Storable, SearchValue.isList] at hp fits <;> rfl
  simp only [pairOfEntry, TypedPair.entry, IndexedValueType.fromMetadataType_metadataType]
  split
  · next h => rw [hv] at h; cases h
  · next v h =>
    rw [hv] at h
    cases h
    rfl

theorem encode_pair (p : TypedPair) (e : StoredEntry) :
    (p.pair.toJson.map (p.pair.name, p.pair.metadataType, ·)) = .ok e ↔ p.Storable ∧ e = p.entry := by
  rw [← p.toJson_isOk]
  rcases p.toJson_eq with h | ⟨err, h⟩
  · rw [h]
    simp [Except.map, TypedPair.pair, TypedPair.entry, eq_comm]
  · rw [h]
    simp [Except.map]

/-- Pairs are encoded exactly if each can be stored, and then as their
entries. -/
theorem encodeSearchAttributes_pairs {l : List TypedPair} {stored : List StoredEntry} :
    encodeSearchAttributes (l.map TypedPair.pair) = .ok stored ↔
      (∀ p ∈ l, p.Storable) ∧ stored = l.map TypedPair.entry := by
  induction l generalizing stored with
  | nil =>
    rw [List.map_nil, encodeSearchAttributes, List.mapM_nil, pure_eq_ok]
    simp [eq_comm]
  | cons p l ih =>
    rw [encodeSearchAttributes] at ih
    rw [List.map_cons, encodeSearchAttributes, List.mapM_cons]
    simp only [bind_eq_ok, encode_pair, ih, pure_eq_ok, List.forall_mem_cons, List.map_cons]
    constructor
    · rintro ⟨_, ⟨hp, rfl⟩, _, ⟨hl, rfl⟩, rfl⟩
      exact ⟨⟨hp, hl⟩, rfl⟩
    · rintro ⟨⟨hp, hl⟩, rfl⟩
      exact ⟨_, ⟨hp, rfl⟩, _, ⟨hl, rfl⟩, rfl⟩

/-- **Written entries of distinct names read back, and are encoded the same
again, but for the order.** -/
theorem encode_decode {stored : List StoredEntry} (hw : ∀ e ∈ stored, Written e) (hn : (stored.map (·.1)).Nodup) :
    ∃ t again, decodeSearchAttributes stored = .ok t ∧
      encodeSearchAttributes (t.pairs.map TypedPair.pair) = .ok again ∧ again.Perm stored := by
  have hpairs : ∃ l : List TypedPair, (∀ p ∈ l, p.Storable) ∧ stored = l.map TypedPair.entry := by
    clear hn
    induction stored with
    | nil => exact ⟨[], by simp, rfl⟩
    | cons e stored ih =>
      obtain ⟨p, hp, he⟩ := hw e List.mem_cons_self
      obtain ⟨l, hl, hs⟩ := ih fun e he => hw e (List.mem_cons_of_mem _ he)
      exact ⟨p :: l, List.forall_mem_cons.2 ⟨hp, hl⟩, by rw [he, hs, List.map_cons]⟩
  obtain ⟨l, hl, rfl⟩ := hpairs
  have hread : (l.map TypedPair.entry).filterMap pairOfEntry = l := by
    clear hn hw
    induction l with
    | nil => rfl
    | cons p l ih =>
      rw [List.map_cons, List.filterMap_cons, pairOfEntry_entry (hl p List.mem_cons_self)]
      rw [ih fun p hp => hl p (List.mem_cons_of_mem _ hp)]
  rw [List.map_map] at hn
  obtain ⟨t, ht, hperm⟩ := TypedSearchAttributes.of_nodup hn
  refine ⟨t, t.pairs.map TypedPair.entry, ?_, ?_, hperm.map TypedPair.entry⟩
  · rw [decodeSearchAttributes, hread, ht]
  · exact encodeSearchAttributes_pairs.2 ⟨fun p hp => hl p (hperm.mem_iff.1 hp), rfl⟩

end Dbosify
