/-
`converter.value_to_type`: a value rebuilt from its JSON by a type hint.

The hints are those of JSON-like values: scalars, datetimes, lists, tuples,
dicts with string keys, unions and dataclasses. A dataclass is hinted by its
name, so a class may have fields of its own type.
-/
import Dbosify.PayloadDicts

namespace Dbosify.Typed

open Py (Json)
open Py.Json (JsonError)

/-! ## Hints and values -/

/-- A type hint. `none` is `NoneType`; `bareNone` is the `None` that the
builtin generics keep in their arguments, as in `list[None]`. -/
inductive TypeHint
  | none
  | bareNone
  | bool
  | int
  | float
  | str
  | datetime
  | list (item : TypeHint)
  | tuple (items : List TypeHint)
  | tupleOf (item : TypeHint)
  | dict (value : TypeHint)
  | union (alternatives : List TypeHint)
  | dataclass (cls : String)

/-- A value: floats of `F`, datetimes of `D`. -/
inductive PyValue (F D : Type)
  | none
  | bool (b : Bool)
  | int (n : Int)
  | float (x : F)
  | str (s : String)
  | datetime (d : D)
  | list (items : List (PyValue F D))
  | tuple (items : List (PyValue F D))
  | dict (entries : List (String × PyValue F D))
  | object (cls : String) (fields : List (String × PyValue F D))

/-- A field of a dataclass. `default` is also what a `default_factory` makes. -/
structure Field (F D : Type) where
  name : String
  hint : TypeHint
  init : Bool := true
  default : Option (PyValue F D) := none

/-- The dataclasses, by name. -/
structure Classes (F D : Type) where
  fields : String → List (Field F D)
  nodup : ∀ c, ((fields c).map Field.name).Nodup

/-- `float(n)`, `int(x)`, and the texts of datetimes. -/
structure Scalars (F D : Type) extends Py.FloatText F where
  ofInt : Int → Option F
  truncate : F → Option Int
  isoformat : D → String
  fromisoformat : String → Option D
  fromisoformat_isoformat : ∀ d, fromisoformat (isoformat d) = some d

/-- The type of a loaded value. -/
inductive Kind
  | none | bool | int | float | str | list | dict
deriving DecidableEq, Repr

/-- What `value_to_type` raises, with the path to it. -/
inductive ConvertError
  | expected (hint : TypeHint) (got : Kind)
  | datetime (text : String)
  | number (hint : TypeHint)
  | union (hint : TypeHint)
  | value (key : String) (hint : TypeHint) (cause : ConvertError)
  | field (name cls : String) (cause : ConvertError)
  | index (i : Nat) (hint : TypeHint) (cause : ConvertError)
  | onlyExpecting (hint : TypeHint) (values atLeast : Nat)
  | unexpectedArgument (cls name : String)
  | missingArgument (cls name : String)
  | unserializable

/-! ## JSON -/

section Values

variable {F D : Type}

mutual

/-- A value without a hint. -/
def raw : Json F → PyValue F D
  | .null => .none
  | .bool b => .bool b
  | .int n => .int n
  | .float x => .float x
  | .str s => .str s
  | .arr js => .list (rawItems js)
  | .obj es => .dict (rawEntries es)

def rawItems : List (Json F) → List (PyValue F D)
  | [] => []
  | j :: js => raw j :: rawItems js

def rawEntries : List (String × Json F) → List (String × PyValue F D)
  | [] => []
  | (k, j) :: es => (k, raw j) :: rawEntries es

end

def kind : Json F → Kind
  | .null => .none
  | .bool _ => .bool
  | .int _ => .int
  | .float _ => .float
  | .str _ => .str
  | .arr _ => .list
  | .obj _ => .dict

/-- What `enumerate` goes through: items, characters, or keys. -/
def iterate : Json F → Option (List (Json F))
  | .arr js => some js
  | .str s => some (s.toList.map fun c => .str (.singleton c))
  | .obj es => some (es.map fun e => .str e.1)
  | _ => none

mutual

/-- How deep a value is nested. -/
def depth : Json F → Nat
  | .arr js => depthItems js + 1
  | .obj es => depthEntries es + 1
  | _ => 0

def depthItems : List (Json F) → Nat
  | [] => 0
  | j :: js => max (depth j) (depthItems js)

def depthEntries : List (String × Json F) → Nat
  | [] => 0
  | (_, j) :: es => max (depth j) (depthEntries es)

end

theorem depthItems_le {js : List (Json F)} {n : Nat} (h : ∀ j ∈ js, depth j ≤ n) : depthItems js ≤ n := by
  induction js with
  | nil => exact Nat.zero_le n
  | cons j js ih =>
    rw [List.forall_mem_cons] at h
    exact Nat.max_le.2 ⟨h.1, ih h.2⟩

theorem depth_le_items {js : List (Json F)} {j : Json F} (h : j ∈ js) : depth j ≤ depthItems js := by
  induction js with
  | nil => cases h
  | cons i js ih =>
    rcases List.mem_cons.1 h with rfl | h
    · exact Nat.le_max_left _ _
    · exact Nat.le_trans (ih h) (Nat.le_max_right _ _)

theorem depth_le_entries {es : List (String × Json F)} {e : String × Json F} (h : e ∈ es) :
    depth e.2 ≤ depthEntries es := by
  induction es with
  | nil => cases h
  | cons x es ih =>
    rcases List.mem_cons.1 h with rfl | h
    · exact Nat.le_max_left _ _
    · exact Nat.le_trans (ih h) (Nat.le_max_right _ _)

/-- What is gone through is nested no deeper. -/
theorem depth_iterate {j : Json F} {js : List (Json F)} (h : iterate j = some js) : depthItems js ≤ depth j := by
  cases j with
  | arr is =>
    cases h
    exact Nat.le_succ _
  | str s =>
    cases h
    refine depthItems_le fun j hj => ?_
    obtain ⟨c, -, rfl⟩ := List.mem_map.1 hj
    exact Nat.le_refl _
  | obj es =>
    cases h
    refine depthItems_le fun j hj => ?_
    obtain ⟨e, -, rfl⟩ := List.mem_map.1 hj
    exact Nat.zero_le _
  | null | bool | int | float => cases h

theorem mem_of_lookup {es : List (String × Json F)} {k : String} {j : Json F} (h : es.lookup k = some j) : (k, j) ∈ es := by
  induction es with
  | nil => cases h
  | cons e es ih =>
    obtain ⟨k', i⟩ := e
    rw [List.lookup_cons] at h
    split at h
    · next hk =>
      cases h
      rw [eq_of_beq hk]
      exact List.mem_cons_self
    · exact List.mem_cons_of_mem _ (ih h)

end Values

theorem sizeOf_hint_lt {F D : Type} (f : Field F D) : sizeOf f.hint < sizeOf f := by
  cases f
  simp only [Field.mk.sizeOf_spec]
  omega

/-- Less deep, or as deep with a smaller hint, or that with fewer items. -/
theorem lex_lt {a a' b b' c c' : Nat} (h : a < a' ∨ a ≤ a' ∧ (b < b' ∨ b ≤ b' ∧ c < c')) :
    Prod.Lex (· < ·) (Prod.Lex (· < ·) (· < ·)) (a, b, c) (a', b', c') := by
  simp only [Prod.lex_def]
  omega

/-! ## `value_to_type` -/

section Convert

variable {F D : Type} (s : Scalars F D) (classes : Classes F D)

/-- `int(value)`. -/
def toInt : Json F → Except ConvertError (PyValue F D)
  | .bool b => .ok (.int (if b then 1 else 0))
  | .int n => .ok (.int n)
  | .float x =>
    match s.truncate x with
    | some n => .ok (.int n)
    | none => .error (.number .int)
  | j => .error (.expected .int (kind j))

def toFloatOf (n : Int) : Except ConvertError (PyValue F D) :=
  match s.ofInt n with
  | some x => .ok (.float x)
  | none => .error (.number .float)

/-- `float(value)`. -/
def toFloat : Json F → Except ConvertError (PyValue F D)
  | .bool b => toFloatOf s (if b then 1 else 0)
  | .int n => toFloatOf s n
  | .float x => .ok (.float x)
  | j => .error (.expected .float (kind j))

def toDatetime : Json F → Except ConvertError (PyValue F D)
  | .str t =>
    match s.fromisoformat t with
    | some d => .ok (.datetime d)
    | none => .error (.datetime t)
  | j => .error (.expected .datetime (kind j))

/-- `hint(**field_values)`: a field has the value given, or its default. -/
def construct (cls : String) (values : List (Field F D × Option (PyValue F D))) : Except ConvertError (PyValue F D) :=
  match values.find? fun p => !p.1.init && p.2.isSome with
  | some p => .error (.unexpectedArgument cls p.1.name)
  | none =>
    match values.find? fun p => p.1.init && p.2.isNone && p.1.default.isNone with
    | some p => .error (.missingArgument cls p.1.name)
    | none => .ok (.object cls (values.filterMap fun p => (p.2.or p.1.default).map fun v => (p.1.name, v)))

mutual

/-- `value_to_type`. -/
def valueToType : TypeHint → Json F → Except ConvertError (PyValue F D)
  | .none, .null => .ok .none
  | .none, j => .error (.expected .none (kind j))
  | .bareNone, _ => .error .unserializable
  | .bool, .bool b => .ok (.bool b)
  | .bool, j => .error (.expected .bool (kind j))
  | .int, j => toInt s j
  | .float, j => toFloat s j
  | .str, .str t => .ok (.str t)
  | .str, j => .error (.expected .str (kind j))
  | .datetime, j => toDatetime s j
  | .union hs, j => firstOf (.union hs) hs j
  -- `if this_value_type`: a bare `None` is no hint here
  | .dict .bareNone, .obj es => .ok (.dict (rawEntries es))
  | .dict h, .obj es => (convertValues (.dict h) h es).map .dict
  | .dict h, j => .error (.expected (.dict h) (kind j))
  | .dataclass c, .obj es => convertFields c (classes.fields c) es >>= construct c
  | .dataclass c, j => .error (.expected (.dataclass c) (kind j))
  | .list h, j =>
    match _hj : iterate j with
    | some js => (convertItems (.list h) h 0 js).map .list
    | none => .error (.expected (.list h) (kind j))
  -- `if not type_args`
  | .tuple [], j =>
    match iterate j with
    | some js => .ok (.tuple (rawItems js))
    | none => .error (.expected (.tuple []) (kind j))
  | .tuple (h :: hs), j =>
    match _hj : iterate j with
    | some js => (convertTuple (h :: hs) (h :: hs) 0 js).map .tuple
    | none => .error (.expected (.tuple (h :: hs)) (kind j))
  | .tupleOf h, j =>
    match _hj : iterate j with
    | some js => (convertItems (.tupleOf h) h 0 js).map .tuple
    | none => .error (.expected (.tupleOf h) (kind j))
termination_by h j => (depth j, sizeOf h, 0)
decreasing_by
  all_goals refine lex_lt ?_
  · simp only [TypeHint.union.sizeOf_spec]
    omega
  · exact .inl (Nat.lt_succ_self _)
  · exact .inl (Nat.lt_succ_self _)
  · have := depth_iterate _hj
    simp only [TypeHint.list.sizeOf_spec]
    omega
  · have := depth_iterate _hj
    simp only [TypeHint.tuple.sizeOf_spec]
    omega
  · have := depth_iterate _hj
    simp only [TypeHint.tupleOf.sizeOf_spec]
    omega

/-- The first alternative that does not raise. -/
def firstOf (union : TypeHint) : List TypeHint → Json F → Except ConvertError (PyValue F D)
  | [], _ => .error (.union union)
  | h :: hs, j =>
    match valueToType h j with
    | .ok v => .ok v
    | .error _ => firstOf union hs j
termination_by hs j => (depth j, sizeOf hs, 0)
decreasing_by
  all_goals
    refine lex_lt ?_
    simp only [List.cons.sizeOf_spec]
    omega

/-- The items from index `i` on, all with one hint. -/
def convertItems (hint h : TypeHint) : Nat → List (Json F) → Except ConvertError (List (PyValue F D))
  | _, [] => .ok []
  | i, j :: js => do
    let v ← (valueToType h j).mapError (.index i hint)
    let vs ← convertItems hint h (i + 1) js
    .ok (v :: vs)
termination_by _ js => (depthItems js, sizeOf h, js.length + 1)
decreasing_by
  all_goals
    refine lex_lt ?_
    simp only [depthItems, List.length_cons]
    omega

/-- The items from index `i` on, each with its own hint. -/
def convertTuple (all : List TypeHint) : List TypeHint → Nat → List (Json F) → Except ConvertError (List (PyValue F D))
  | _, _, [] => .ok []
  | [], i, _ :: _ => .error (.onlyExpecting (.tuple all) all.length (i + 1))
  | h :: hs, i, j :: js => do
    let v ← (valueToType h j).mapError (.index i (.tuple all))
    let vs ← convertTuple all hs (i + 1) js
    .ok (v :: vs)
termination_by hs _ js => (depthItems js, sizeOf hs, 0)
decreasing_by
  all_goals
    refine lex_lt ?_
    simp only [depthItems, List.cons.sizeOf_spec]
    omega

/-- The entries of a mapping. -/
def convertValues (hint h : TypeHint) : List (String × Json F) → Except ConvertError (List (String × PyValue F D))
  | [] => .ok []
  | (k, j) :: es => do
    let v ← (valueToType h j).mapError (.value k hint)
    let vs ← convertValues hint h es
    .ok ((k, v) :: vs)
termination_by es => (depthEntries es, sizeOf h, es.length + 1)
decreasing_by
  all_goals
    refine lex_lt ?_
    simp only [depthEntries, List.length_cons]
    omega

/-- The fields that are there. -/
def convertFields (cls : String) :
    List (Field F D) → List (String × Json F) → Except ConvertError (List (Field F D × Option (PyValue F D)))
  | [], _ => .ok []
  | f :: fs, es =>
    match _hj : es.lookup f.name with
    | some j => do
      let v ← (valueToType f.hint j).mapError (.field f.name cls)
      let vs ← convertFields cls fs es
      .ok ((f, some v) :: vs)
    | none => do
      let vs ← convertFields cls fs es
      .ok ((f, none) :: vs)
termination_by fs es => (depthEntries es, sizeOf fs, 0)
decreasing_by
  · have hdepth : depth _ ≤ depthEntries es := depth_le_entries (mem_of_lookup _hj)
    have hhint := sizeOf_hint_lt f
    refine lex_lt ?_
    simp only [List.cons.sizeOf_spec] at hdepth ⊢
    omega
  all_goals
    refine lex_lt ?_
    simp only [List.cons.sizeOf_spec]
    omega

end

theorem valueToType_firstOf (hs : List TypeHint) (j : Json F) :
    valueToType s classes (.union hs) j = firstOf s classes (.union hs) hs j := by
  rw [valueToType]

end Convert

/-! ## The JSON converter -/

section Converter

variable {F D : Type} (s : Scalars F D) (classes : Classes F D)

mutual

/-- What `AdvancedJSONEncoder` writes of a value: a datetime as its ISO text, a
dataclass as the dict of its fields. -/
def toJson : PyValue F D → Json F
  | .none => .null
  | .bool b => .bool b
  | .int n => .int n
  | .float x => .float x
  | .str t => .str t
  | .datetime d => .str (s.isoformat d)
  | .list vs => .arr (jsonItems vs)
  | .tuple vs => .arr (jsonItems vs)
  | .dict es => .obj (jsonEntries es)
  | .object _ es => .obj (jsonEntries es)

def jsonItems : List (PyValue F D) → List (Json F)
  | [] => []
  | v :: vs => toJson v :: jsonItems vs

def jsonEntries : List (String × PyValue F D) → List (String × Json F)
  | [] => []
  | (k, v) :: es => (k, toJson v) :: jsonEntries es

end

mutual

/-- No integer is too long to write. -/
def shortInts : PyValue F D → Bool
  | .int n => n.natAbs < 10 ^ Py.intMaxStrDigits
  | .list vs => shortItems vs
  | .tuple vs => shortItems vs
  | .dict es => shortEntries es
  | .object _ es => shortEntries es
  | _ => true

def shortItems : List (PyValue F D) → Bool
  | [] => true
  | v :: vs => shortInts v && shortItems vs

def shortEntries : List (String × PyValue F D) → Bool
  | [] => true
  | (_, v) :: es => shortInts v && shortEntries es

end

/-- What the converter raises: the `ValueError` of a long integer, `Failed
parsing`, what else `json.loads` raises, or what `value_to_type` does. -/
inductive ConverterError
  | longInt
  | parsing (message : String)
  | json (error : JsonError)
  | convert (error : ConvertError)

/-- `JSONPlainPayloadConverter.to_payload`. -/
def toPayload (v : PyValue F D) : Except ConverterError Conversion.Payload :=
  if shortInts v then
    .ok
      { metadata := Py.Dict.empty.set "encoding" (Py.encodeUtf8 "json/plain")
        data := Json.dumps s.toFloatText (toJson s v) }
  else .error .longInt

/-- `if type_hint`: `None` is no hint. -/
def convertTo : TypeHint → Json F → Except ConvertError (PyValue F D)
  | .bareNone, j => .ok (raw j)
  | h, j => valueToType s classes h j

/-- `JSONPlainPayloadConverter.from_payload`. -/
def fromPayload (h : TypeHint) (p : Conversion.Payload) : Except ConverterError (PyValue F D) :=
  match Json.loads s.toFloatText p.data with
  | .ok j => (convertTo s classes h j).mapError .convert
  | .error (.decode message) => .error (.parsing message)
  | .error e => .error (.json e)

/-- A value through its payload. -/
def throughPayload (h : TypeHint) (v : PyValue F D) : Except ConverterError (PyValue F D) :=
  toPayload s v >>= fromPayload s classes h

end Converter

end Dbosify.Typed
