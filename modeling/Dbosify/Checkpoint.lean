/-
`serializer.py`: the text in which a value or an exception is stored.

Both go into one column and come back through one function, so a value is
written under the key "v" and an exception under "e". What is read is never
taken for the other, whatever a value looks like; the markers of a run's end
come back as what they were, so a run's status stays what it was; what cannot
be read is not written; and what was read can be stored again
(`checkpoint_round_trip`).
-/
import Dbosify.JsonLayout
import Dbosify.JsonLoads
import Dbosify.Status
import Dbosify.Values

namespace Dbosify.Serializer

open Py Py.Json

/-- What is handed to the serializer. -/
inductive Data (F : Type)
  | null
  | bool (b : Bool)
  | int (n : Int)
  | float (x : F)
  | str (s : String)
  | list (items : List (Data F))
  | tuple (items : List (Data F))
  | dict (entries : List (String × Data F))
  /-- A schedule's `fired_at`, by its `isoformat`. -/
  | datetime (iso : String)
  /-- An object of another class. -/
  | other (typeName : String)

namespace Data

variable {F : Type}

mutual

/-- No dictionary has a key twice. -/
def Keyed : Data F → Prop
  | .list ds | .tuple ds => KeyedItems ds
  | .dict es => (es.map Prod.fst).Nodup ∧ KeyedEntries es
  | _ => True

def KeyedItems : List (Data F) → Prop
  | [] => True
  | d :: ds => Keyed d ∧ KeyedItems ds

def KeyedEntries : List (String × Data F) → Prop
  | [] => True
  | (_, d) :: es => Keyed d ∧ KeyedEntries es

end

mutual

/-- What `json.dumps` writes for a value, or raises; the last two cases are
`_json_default`. -/
def json : Data F → Except Exc (Json F)
  | .null => .ok .null
  | .bool b => .ok (.bool b)
  | .int n =>
    if n.natAbs < 10 ^ intMaxStrDigits then .ok (.int n)
    else .error (.valueError "Exceeds the limit (4300 digits) for integer string conversion")
  | .float x => .ok (.float x)
  | .str s => .ok (.str s)
  | .list ds => (jsonItems ds).map .arr
  | .tuple ds => (jsonItems ds).map .arr
  | .dict es => (jsonEntries es).map .obj
  | .datetime iso => .ok (.str iso)
  | .other typeName => .error (.typeError ("Object of type " ++ typeName ++ " is not JSON serializable"))

def jsonItems : List (Data F) → Except Exc (List (Json F))
  | [] => .ok []
  | d :: ds => do return (← json d) :: (← jsonItems ds)

def jsonEntries : List (String × Data F) → Except Exc (List (String × Json F))
  | [] => .ok []
  | (k, d) :: es => do return (k, ← json d) :: (← jsonEntries es)

end

mutual

/-- What Python has for a JSON value. -/
def ofJson : Json F → Data F
  | .null => .null
  | .bool b => .bool b
  | .int n => .int n
  | .float x => .float x
  | .str s => .str s
  | .arr vs => .list (ofItems vs)
  | .obj es => .dict (ofEntries es)

def ofItems : List (Json F) → List (Data F)
  | [] => []
  | v :: vs => ofJson v :: ofItems vs

def ofEntries : List (String × Json F) → List (String × Data F)
  | [] => []
  | (k, v) :: es => (k, ofJson v) :: ofEntries es

end

mutual

/-- A value as it comes back: a tuple as a list, a datetime as its text. -/
def stored : Data F → Data F
  | .list ds | .tuple ds => .list (storedItems ds)
  | .dict es => .dict (storedEntries es)
  | .datetime iso => .str iso
  | d => d

def storedItems : List (Data F) → List (Data F)
  | [] => []
  | d :: ds => stored d :: storedItems ds

def storedEntries : List (String × Data F) → List (String × Data F)
  | [] => []
  | (k, d) :: es => (k, stored d) :: storedEntries es

end

mutual

/-- What can be stored: nothing of another class, and no integer that has too
many digits. -/
def Storable : Data F → Prop
  | .int n => n.natAbs < 10 ^ intMaxStrDigits
  | .list ds | .tuple ds => StorableItems ds
  | .dict es => StorableEntries es
  | .other _ => False
  | _ => True

def StorableItems : List (Data F) → Prop
  | [] => True
  | d :: ds => Storable d ∧ StorableItems ds

def StorableEntries : List (String × Data F) → Prop
  | [] => True
  | (_, d) :: es => Storable d ∧ StorableEntries es

end

end Data

/-! ## The serializer -/

variable {F : Type}

/-- An exception, by the class the serializer looks at. -/
inductive Thrown (F : Type)
  /-- `SerializedContinueAsNew`, `SerializedWorkflowCancellation`, or a
  `SerializedWorkflowFailure` that is not of this subclass. -/
  | marked (mark : RecordedError) (envelope : Data F)
  /-- Another class, with its `str`. -/
  | other (typeName text : String)

def markerText : RecordedError → String
  | .continueAsNew => "continue_as_new"
  | .cancellation => "cancellation"
  | .failure => "failure"

/-- `_exc_to_dict`. -/
def excToDict : Thrown F → Data F
  | .marked mark envelope => .dict [("marker", .str (markerText mark)), ("envelope", envelope)]
  | .other typeName text => .dict [("marker", .str "other"), ("type", .str typeName), ("message", .str text)]

/-- What a checkpoint is made of. -/
inductive Outcome (F : Type)
  | value (data : Data F)
  | raised (exc : Thrown F)

/-- What is read from a checkpoint. -/
inductive Restored (F : Type)
  | value (data : Data F)
  | marked (mark : RecordedError) (envelope : Data F)
  /-- A bare `Exception`, with its argument. -/
  | exception (argument : Data F)

/-- The object that is written. -/
def Outcome.tagged : Outcome F → Data F
  | .value d => .dict [("v", d)]
  | .raised e => .dict [("e", excToDict e)]

/-- `DBOSifySerializer.serialize`. -/
def serialize (fl : FloatText F) (o : Outcome F) : Except Exc Text := o.tagged.json.map (write fl .unicode)

/-- `data["envelope"]`. -/
def envelopeOf (es : List (String × Json F)) : Except Exc (Data F) :=
  match es.lookup "envelope" with
  | some v => .ok (.ofJson v)
  | none => .error (.keyError "envelope")

def markerOf (es : List (String × Json F)) : Option String :=
  match es.lookup "marker" with
  | some (.str s) => some s
  | _ => none

/-- The class's name, in an error's text. -/
def jsonTypeName : Json F → String
  | .null => "NoneType"
  | .bool _ => "bool"
  | .int _ => "int"
  | .float _ => "float"
  | .str _ => "str"
  | .arr _ => "list"
  | .obj _ => "dict"

/-- `_dict_to_exc`. -/
def dictToExc : Json F → Except Exc (Restored F)
  | .obj es =>
    if markerOf es = some "continue_as_new" then (envelopeOf es).map (.marked .continueAsNew)
    else if markerOf es = some "cancellation" then (envelopeOf es).map (.marked .cancellation)
    else if markerOf es = some "failure" then (envelopeOf es).map (.marked .failure)
    else .ok (.exception (((es.lookup "message").map .ofJson).getD (.str "unknown error")))
  | v => .error (.attributeError ("'" ++ jsonTypeName v ++ "' object has no attribute 'get'"))

/-- What `deserialize` makes of the object it read. -/
def untag : Json F → Except Exc (Restored F)
  | .obj es =>
    match es.lookup "e" with
    | some v => dictToExc v
    | none =>
      match es.lookup "v" with
      | some v => .ok (.value (.ofJson v))
      | none => .error (.keyError "v")
  -- `in` works on these two, the subscript does not.
  | .str _ => .error (.typeError "string indices must be integers, not 'str'")
  | .arr _ => .error (.typeError "list indices must be integers or slices, not str")
  | v => .error (.typeError ("argument of type '" ++ jsonTypeName v ++ "' is not iterable"))

inductive LoadError
  | json (error : JsonError)
  | exc (error : Exc)

/-- `DBOSifySerializer.deserialize`. -/
def deserialize (fl : FloatText F) : Option Text → Except LoadError (Restored F)
  | none => .ok (.value .null)
  | some t =>
    match loadsText fl t with
    | .error e => .error (.json e)
    | .ok v => (untag v).mapError .exc

/-! ## What is read -/

/-- What comes back of a checkpoint. -/
def Outcome.restored : Outcome F → Restored F
  | .value d => .value d.stored
  | .raised (.marked mark envelope) => .marked mark envelope.stored
  | .raised (.other _ text) => .exception (.str text)

/-- The part of a checkpoint that is the program's own. -/
def Outcome.payload : Outcome F → Data F
  | .value d => d
  | .raised (.marked _ envelope) => envelope
  | .raised (.other _ _) => .null

/-- A checkpoint that Python can have. -/
structure Checkpoint (F : Type) where
  outcome : Outcome F
  keyed : outcome.payload.Keyed

/-- The class of an exception, as `to_execution_status` looks at it. -/
def Outcome.recorded : Outcome F → Option RecordedError
  | .value _ => none
  | .raised (.marked mark _) => some mark
  | .raised (.other _ _) => some .failure

def Restored.recorded : Restored F → Option RecordedError
  | .value _ => none
  | .marked mark _ => some mark
  | .exception _ => some .failure

/-- What is read, to be stored once more. -/
def Restored.outcome? : Restored F → Option (Outcome F)
  | .value d => some (.value d)
  | .marked mark envelope => some (.raised (.marked mark envelope))
  | .exception _ => none

namespace Data

theorem jsonEntries_keys {es : List (String × Data F)} {vs : List (String × Json F)} (h : jsonEntries es = .ok vs) :
    vs.map Prod.fst = es.map Prod.fst := by
  induction es generalizing vs with
  | nil =>
    cases h
    rfl
  | cons e es ih =>
    obtain ⟨k, d⟩ := e
    simp only [jsonEntries, bind_eq_ok, pure_eq_ok] at h
    obtain ⟨v, -, vs', hvs, rfl⟩ := h
    rw [List.map_cons, List.map_cons, ih hvs]

mutual

/-- What is written of a value stands for it, as it comes back. -/
theorem json_eq_ok : ∀ (d : Data F) (v : Json F), d.json = .ok v → ofJson v = d.stored ∧ d.Storable ∧ (d.Keyed → v.Proper)
  | .null | .bool _ | .float _ | .str _ | .datetime _ => by
    intro v h
    simp only [json, Except.ok.injEq] at h
    subst h
    simp only [ofJson, stored, Storable, Json.Proper, implies_true, and_self]
  | .int n => by
    intro v h
    rw [json] at h
    split at h
    · next hn =>
      cases h
      refine ⟨rfl, ?_, fun _ => ?_⟩
      · rwa [Storable]
      · rwa [Json.Proper]
    · cases h
  | .list ds | .tuple ds => by
    intro v h
    rw [json, except_map_eq_ok] at h
    obtain ⟨vs, hvs, rfl⟩ := h
    obtain ⟨hd, hs, hp⟩ := jsonItems_eq_ok ds vs hvs
    exact ⟨congrArg Data.list hd, hs, hp⟩
  | .dict es => by
    intro v h
    rw [json, except_map_eq_ok] at h
    obtain ⟨vs, hvs, rfl⟩ := h
    obtain ⟨hd, hs, hp⟩ := jsonEntries_eq_ok es vs hvs
    exact ⟨congrArg Data.dict hd, hs, fun hk => ⟨(jsonEntries_keys hvs).symm ▸ hk.1, hp hk.2⟩⟩
  | .other _ => by
    intro v h
    simp only [json, reduceCtorEq] at h

theorem jsonItems_eq_ok : ∀ (ds : List (Data F)) (vs : List (Json F)), jsonItems ds = .ok vs →
    ofItems vs = storedItems ds ∧ StorableItems ds ∧ (KeyedItems ds → ProperItems vs)
  | [] => by
    intro vs h
    cases h
    exact ⟨rfl, trivial, fun _ => trivial⟩
  | d :: ds => by
    intro vs h
    simp only [jsonItems, bind_eq_ok, pure_eq_ok] at h
    obtain ⟨v, hv, vs', hvs, rfl⟩ := h
    obtain ⟨hd, hs, hp⟩ := json_eq_ok d v hv
    obtain ⟨hds, hss, hps⟩ := jsonItems_eq_ok ds vs' hvs
    exact ⟨by rw [ofItems, storedItems, hd, hds], ⟨hs, hss⟩, fun hk => ⟨hp hk.1, hps hk.2⟩⟩

theorem jsonEntries_eq_ok : ∀ (es : List (String × Data F)) (vs : List (String × Json F)), jsonEntries es = .ok vs →
    ofEntries vs = storedEntries es ∧ StorableEntries es ∧ (KeyedEntries es → ProperEntries vs)
  | [] => by
    intro vs h
    cases h
    exact ⟨rfl, trivial, fun _ => trivial⟩
  | (k, d) :: es => by
    intro vs h
    simp only [jsonEntries, bind_eq_ok, pure_eq_ok] at h
    obtain ⟨v, hv, vs', hvs, rfl⟩ := h
    obtain ⟨hd, hs, hp⟩ := json_eq_ok d v hv
    obtain ⟨hds, hss, hps⟩ := jsonEntries_eq_ok es vs' hvs
    exact ⟨by rw [ofEntries, storedEntries, hd, hds], ⟨hs, hss⟩, fun hk => ⟨hp hk.1, hps hk.2⟩⟩

end

mutual

theorem json_of_storable : ∀ d : Data F, d.Storable → ∃ v, d.json = .ok v
  | .null, _ | .bool _, _ | .float _, _ | .str _, _ | .datetime _, _ => ⟨_, rfl⟩
  | .int n, h => by
    rw [Storable] at h
    exact ⟨.int n, by rw [json, if_pos h]⟩
  | .list ds, h | .tuple ds, h => by
    obtain ⟨vs, hvs⟩ := jsonItems_of_storable ds h
    exact ⟨.arr vs, by rw [json, hvs]; rfl⟩
  | .dict es, h => by
    obtain ⟨vs, hvs⟩ := jsonEntries_of_storable es h
    exact ⟨.obj vs, by rw [json, hvs]; rfl⟩

theorem jsonItems_of_storable : ∀ ds : List (Data F), StorableItems ds → ∃ vs, jsonItems ds = .ok vs
  | [], _ => ⟨[], rfl⟩
  | d :: ds, h => by
    obtain ⟨v, hv⟩ := json_of_storable d h.1
    obtain ⟨vs, hvs⟩ := jsonItems_of_storable ds h.2
    exact ⟨v :: vs, by rw [jsonItems, hv, hvs]; rfl⟩

theorem jsonEntries_of_storable : ∀ es : List (String × Data F), StorableEntries es → ∃ vs, jsonEntries es = .ok vs
  | [], _ => ⟨[], rfl⟩
  | (k, d) :: es, h => by
    obtain ⟨v, hv⟩ := json_of_storable d h.1
    obtain ⟨vs, hvs⟩ := jsonEntries_of_storable es h.2
    exact ⟨(k, v) :: vs, by rw [jsonEntries, hv, hvs]; rfl⟩

end

mutual

/-- What was read is written as it was. -/
theorem json_ofJson : ∀ v : Json F, v.Proper → (ofJson v).json = .ok v ∧ (ofJson v).stored = ofJson v
  | .null, _ | .bool _, _ | .float _, _ | .str _, _ => ⟨rfl, rfl⟩
  | .int n, h => by
    rw [Json.Proper] at h
    exact ⟨by rw [ofJson, json, if_pos h], rfl⟩
  | .arr vs, h => by
    obtain ⟨hj, hs⟩ := jsonItems_ofItems vs h
    exact ⟨by rw [ofJson, json, hj]; rfl, by rw [ofJson, stored, hs]⟩
  | .obj es, h => by
    obtain ⟨hj, hs⟩ := jsonEntries_ofEntries es h.2
    exact ⟨by rw [ofJson, json, hj]; rfl, by rw [ofJson, stored, hs]⟩

theorem jsonItems_ofItems : ∀ vs : List (Json F), ProperItems vs →
    jsonItems (ofItems vs) = .ok vs ∧ storedItems (ofItems vs) = ofItems vs
  | [], _ => ⟨rfl, rfl⟩
  | v :: vs, h => by
    obtain ⟨hj, hs⟩ := json_ofJson v h.1
    obtain ⟨hjs, hss⟩ := jsonItems_ofItems vs h.2
    exact ⟨by rw [ofItems, jsonItems, hj, hjs]; rfl, by rw [ofItems, storedItems, hs, hss]⟩

theorem jsonEntries_ofEntries : ∀ es : List (String × Json F), ProperEntries es →
    jsonEntries (ofEntries es) = .ok es ∧ storedEntries (ofEntries es) = ofEntries es
  | [], _ => ⟨rfl, rfl⟩
  | (k, v) :: es, h => by
    obtain ⟨hj, hs⟩ := json_ofJson v h.1
    obtain ⟨hjs, hss⟩ := jsonEntries_ofEntries es h.2
    exact ⟨by rw [ofEntries, jsonEntries, hj, hjs]; rfl, by rw [ofEntries, storedEntries, hs, hss]⟩

end

end Data

/-- The law of the stored texts. -/
structure CheckpointLaw (fl : FloatText F) : Prop where
  /-- What cannot be stored is refused as it is written, -/
  written : ∀ c : Checkpoint F, (∃ t, serialize fl c.outcome = .ok t) ↔ c.outcome.payload.Storable
  /-- and everything else is read as what it was, -/
  read : ∀ (c : Checkpoint F) t, serialize fl c.outcome = .ok t → deserialize fl (some t) = .ok c.outcome.restored
  /-- a run's end with the status it had. -/
  status : ∀ (c : Checkpoint F) t r, serialize fl c.outcome = .ok t → deserialize fl (some t) = .ok r →
    ∀ s, toExecutionStatus s r.recorded = toExecutionStatus s c.outcome.recorded
  /-- What was read, from whatever text, is stored and read once more as it
  is. -/
  again : ∀ t r o, deserialize fl (some t) = .ok r → r.outcome? = some o →
    ∃ t', serialize fl o = .ok t' ∧ deserialize fl (some t') = .ok r

section

variable {fl : FloatText F} {o : Outcome F} {v w : Json F} {es : List (String × Json F)}

theorem tagged_keyed : o.tagged.Keyed ↔ o.payload.Keyed := by
  rcases o with d | (⟨mark, d⟩ | _) <;>
    simp [Outcome.tagged, excToDict, Outcome.payload, Data.Keyed, Data.KeyedEntries]

theorem tagged_storable : o.tagged.Storable ↔ o.payload.Storable := by
  rcases o with d | (⟨mark, d⟩ | _) <;>
    simp [Outcome.tagged, excToDict, Outcome.payload, Data.Storable, Data.StorableEntries]

theorem json_single (k : String) (d : Data F) :
    (Data.dict [(k, d)]).json = .ok v ↔ ∃ w, d.json = .ok w ∧ v = .obj [(k, w)] := by
  simp only [Data.json, Data.jsonEntries, except_map_eq_ok, bind_eq_ok, pure_eq_ok, Except.ok.injEq]
  constructor
  · rintro ⟨_, ⟨w, hw, _, rfl, rfl⟩, rfl⟩
    exact ⟨w, hw, rfl⟩
  · rintro ⟨w, hw, rfl⟩
    exact ⟨_, ⟨w, hw, _, rfl, rfl⟩, rfl⟩

theorem json_marked (m : String) (d : Data F) :
    (Data.dict [("marker", .str m), ("envelope", d)]).json = .ok v ↔
      ∃ w, d.json = .ok w ∧ v = .obj [("marker", .str m), ("envelope", w)] := by
  simp only [Data.json, Data.jsonEntries, except_map_eq_ok, bind_eq_ok, pure_eq_ok, Except.ok.injEq]
  constructor
  · rintro ⟨_, ⟨_, rfl, _, ⟨w, hw, _, rfl, rfl⟩, rfl⟩, rfl⟩
    exact ⟨w, hw, rfl⟩
  · rintro ⟨w, hw, rfl⟩
    exact ⟨_, ⟨_, rfl, _, ⟨w, hw, _, rfl, rfl⟩, rfl⟩, rfl⟩

theorem untag_raised (v : Json F) : untag (.obj [("e", v)]) = dictToExc v := rfl

theorem untag_value (v : Json F) : untag (.obj [("v", v)]) = .ok (.value (.ofJson v)) := rfl

theorem dictToExc_marked (mark : RecordedError) (w : Json F) :
    dictToExc (.obj [("marker", .str (markerText mark)), ("envelope", w)]) = .ok (.marked mark (.ofJson w)) := by
  cases mark <;> simp [dictToExc, markerText, markerOf, envelopeOf, List.lookup_cons, Except.map]

/-- What is written for a checkpoint is told apart again. -/
theorem untag_tagged (h : o.tagged.json = .ok v) : untag v = .ok o.restored := by
  cases o with
  | value d =>
    obtain ⟨w, hw, rfl⟩ := (json_single "v" d).1 h
    rw [untag_value, (Data.json_eq_ok d w hw).1]
    rfl
  | raised e =>
    obtain ⟨u, hu, rfl⟩ := (json_single "e" (excToDict e)).1 h
    rw [untag_raised]
    cases e with
    | marked mark d =>
      obtain ⟨w, hw, rfl⟩ := (json_marked _ d).1 hu
      rw [dictToExc_marked, (Data.json_eq_ok d w hw).1]
      rfl
    | other typeName text =>
      cases hu
      rfl

theorem recorded_restored (o : Outcome F) : o.restored.recorded = o.recorded := by
  rcases o with d | (⟨mark, d⟩ | _) <;> rfl

theorem serialize_eq_ok {t : Text} : serialize fl o = .ok t ↔ ∃ v, o.tagged.json = .ok v ∧ write fl .unicode v = t := by
  rw [serialize, except_map_eq_ok]

/-- A checkpoint is read from its text. -/
theorem deserialize_written (h : o.tagged.json = .ok v) (hp : v.Proper) :
    deserialize fl (some (write fl .unicode v)) = .ok o.restored := by
  rw [deserialize, loadsText_write fl .unicode hp]
  exact congrArg (Except.mapError LoadError.exc) (untag_tagged h)

theorem proper_of_lookup {k : String} (h : (Json.obj es).Proper) (hw : es.lookup k = some w) : w.Proper := by
  obtain ⟨l₁, l₂, rfl, -⟩ := List.lookup_eq_some_iff.1 hw
  exact properEntries_iff.1 h.2 _ (List.mem_append_right _ List.mem_cons_self)

/-- A proper value, under a tag. -/
theorem proper_single {k : String} (h : w.Proper) : (Json.obj [(k, w)]).Proper :=
  ⟨List.nodup_singleton _, h, trivial⟩

theorem proper_marked {m : String} (h : w.Proper) :
    (Json.obj [("e", .obj [("marker", .str m), ("envelope", w)])]).Proper :=
  proper_single ⟨by simp, trivial, h, trivial⟩

theorem envelopeOf_eq_ok {d : Data F} (h : envelopeOf es = .ok d) : ∃ w, es.lookup "envelope" = some w ∧ d = .ofJson w := by
  unfold envelopeOf at h
  split at h
  · next w hw =>
    cases h
    exact ⟨w, hw, rfl⟩
  · cases h

theorem dictToExc_eq_ok {mark : RecordedError} {d : Data F} (h : dictToExc v = .ok (.marked mark d)) :
    ∃ es, v = .obj es ∧ envelopeOf es = .ok d := by
  unfold dictToExc at h
  split at h
  · next es =>
    refine ⟨es, rfl, ?_⟩
    split at h
    · obtain ⟨d', hd, heq⟩ := except_map_eq_ok.1 h
      cases heq
      exact hd
    split at h
    · obtain ⟨d', hd, heq⟩ := except_map_eq_ok.1 h
      cases heq
      exact hd
    split at h
    · obtain ⟨d', hd, heq⟩ := except_map_eq_ok.1 h
      cases heq
      exact hd
    · cases h
  · cases h

/-- An exception is never read as a value. -/
theorem dictToExc_ne_value (v : Json F) (d : Data F) : dictToExc v ≠ .ok (.value d) := by
  intro h
  have hmap : ∀ {es : List (String × Json F)} {mark : RecordedError},
      (envelopeOf es).map (Restored.marked mark) ≠ .ok (Restored.value d) := by
    intro es mark h
    obtain ⟨d', -, heq⟩ := except_map_eq_ok.1 h
    cases heq
  unfold dictToExc at h
  split at h
  · split at h
    · exact hmap h
    split at h
    · exact hmap h
    split at h
    · exact hmap h
    · cases h
  · cases h

/-- What is read is a part of the text's value. -/
theorem untag_eq_ok {r : Restored F} (h : untag v = .ok r) (hp : v.Proper) :
    (∃ w, w.Proper ∧ r = .value (.ofJson w)) ∨ ∃ w, w.Proper ∧ dictToExc w = .ok r := by
  unfold untag at h
  split at h
  · next es =>
    split at h
    · next w hw => exact .inr ⟨w, proper_of_lookup hp hw, h⟩
    split at h
    · next w hw =>
      cases h
      exact .inl ⟨w, proper_of_lookup hp hw, rfl⟩
    · cases h
  all_goals cases h

/-- It can be written as it is. -/
theorem tagged_again {r : Restored F} (h : untag v = .ok r) (hp : v.Proper) (ho : r.outcome? = some o) :
    ∃ u, o.tagged.json = .ok u ∧ u.Proper ∧ o.restored = r := by
  rcases untag_eq_ok h hp with ⟨w, hw, rfl⟩ | ⟨w, hw, h⟩
  · cases ho
    obtain ⟨hj, hs⟩ := Data.json_ofJson w hw
    exact ⟨_, (json_single "v" _).2 ⟨w, hj, rfl⟩, proper_single hw, congrArg Restored.value hs⟩
  · cases r with
    | value d => exact absurd h (dictToExc_ne_value w d)
    | marked mark d =>
      cases ho
      obtain ⟨es, rfl, hes⟩ := dictToExc_eq_ok h
      obtain ⟨e, he, rfl⟩ := envelopeOf_eq_ok hes
      have hep := proper_of_lookup hw he
      obtain ⟨hj, hs⟩ := Data.json_ofJson e hep
      refine ⟨.obj [("e", .obj [("marker", .str (markerText mark)), ("envelope", e)])], ?_, proper_marked hep,
        congrArg (Restored.marked mark) hs⟩
      exact (json_single "e" _).2 ⟨_, (json_marked _ _).2 ⟨e, hj, rfl⟩, rfl⟩
    | exception d => cases ho

end

end Dbosify.Serializer
