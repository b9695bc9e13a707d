/-
Payload dicts, as `conversion` writes and reads them: the encoding, the rest of
the metadata in base64, and the data.

Whatever bytes a payload has, base64 carries them. JSON that is to be readable
is parsed and written again: it comes back as the normal text of what `loads`
made of it, so a text that is another one comes back changed, with the same
value (`payloadDict_returns`).
-/
import Dbosify.Base64
import Dbosify.DataConversion
import Dbosify.JsonLoads

namespace Py

/-- `b.decode()`. -/
def decodeUtf8 (b : List UInt8) : Option String := (b.toByteArray.utf8Decode?).map fun s => String.ofList s.toList

/-- `s.encode()`. -/
def encodeUtf8 (s : String) : List UInt8 := Json.encodeText s.toList

theorem encodeUtf8_decodeUtf8 {b : List UInt8} {s : String} (h : decodeUtf8 b = some s) : encodeUtf8 s = b := by
  obtain ⟨cs, hcs, rfl⟩ := Option.map_eq_some_iff.1 h
  have hsome : b.toByteArray.utf8Decode?.isSome = true := by rw [hcs]; rfl
  have hget : b.toByteArray.utf8Decode?.get hsome = cs := by
    simp only [hcs, Option.get_some]
  have hb := ByteArray.utf8Encode_get_utf8Decode? (h := hsome)
  rw [hget] at hb
  rw [encodeUtf8, String.toList_ofList, Json.encodeText]
  exact List.toByteArray_inj.1 hb

theorem decodeUtf8_encodeUtf8 (s : String) : decodeUtf8 (encodeUtf8 s) = some s := by
  have h : (encodeUtf8 s).toByteArray.utf8Decode? = some s.toList.toArray := List.utf8Decode?_utf8Encode
  rw [decodeUtf8, h]
  simp

end Py

namespace Dbosify.Conversion

open Py (Dict Text Json)
open Py.Json (FloatLiteral JsonError)

/-- `converter.Payload`. -/
structure Payload where
  metadata : Dict String Bytes
  data : Bytes

/-- The encoding the metadata names. -/
def Payload.encoding (p : Payload) : Option String := p.metadata.get? "encoding" >>= Py.decodeUtf8

/-- What a payload dict holds of the data: `"json"` or `"b64"`. -/
inductive Content (F : Type)
  | json (v : Json F)
  | b64 (text : Text)

/-- A payload dict. `extra` is its `"meta"`, where there is one. -/
structure PayloadDict (F : Type) where
  encoding : String
  extra : Option (Dict String Text)
  content : Content F

/-- `UnicodeDecodeError`, what `json.loads` raises, and `binascii.Error`. -/
inductive ConversionError
  | unicode
  | json (error : JsonError)
  | binascii
deriving DecidableEq, Repr

/-! ## The two functions -/

section Functions

variable {F : Type} (fl : Py.FloatText F)

/-- `base64.b64decode`, or its error. -/
def b64decode (text : Text) : Except ConversionError Bytes :=
  match Py.b64decode text with
  | some b => .ok b
  | none => .error .binascii

/-- The metadata beyond the encoding. -/
def extraMetadata (p : Payload) : Dict String Text :=
  Dict.ofEntries ((p.metadata.entries.filter fun e => e.1 ≠ "encoding").map fun e => (e.1, Py.b64encode e.2))

/-- `_payload_to_dict`. -/
def payloadToDict (inlineJson : Bool) (p : Payload) : Except ConversionError (PayloadDict F) :=
  match Py.decodeUtf8 ((p.metadata.get? "encoding").getD []) with
  | none => .error .unicode
  | some encoding =>
    let extra := if (extraMetadata p).entries = [] then none else some (extraMetadata p)
    if inlineJson = true ∧ encoding = "json/plain" then
      match Json.loads fl p.data with
      | .ok v => .ok ⟨encoding, extra, .json v⟩
      | .error e => .error (.json e)
    else .ok ⟨encoding, extra, .b64 (Py.b64encode p.data)⟩

/-- `_payload_from_dict`. -/
def payloadFromDict (d : PayloadDict F) : Except ConversionError Payload := do
  let encoding := Dict.empty.set "encoding" (Py.encodeUtf8 d.encoding)
  let metadata ← (d.extra.getD Dict.empty).entries.foldlM
    (fun m e => do
      let value ← b64decode e.2
      .ok (m.set e.1 value)) encoding
  match d.content with
  | .json v => .ok ⟨metadata, Json.dumps fl v⟩
  | .b64 text => do
    let data ← b64decode text
    .ok ⟨metadata, data⟩

/-- Through a dict and back. -/
def throughDict (inlineJson : Bool) (p : Payload) : Except ConversionError Payload :=
  payloadToDict fl inlineJson p >>= payloadFromDict fl

end Functions

/-! ## Metadata -/

theorem b64decode_b64encode (b : Bytes) : b64decode (Py.b64encode b) = .ok b := by
  rw [b64decode, Py.b64decode_b64encode]

theorem foldlM_b64decode (es : List (String × Bytes)) (m : Dict String Bytes) :
    (es.map fun e => (e.1, Py.b64encode e.2)).foldlM
        (fun m e => do
          let value ← b64decode e.2
          .ok (m.set e.1 value)) m =
      (.ok (es.foldl (fun m e => m.set e.1 e.2) m) : Except ConversionError (Dict String Bytes)) := by
  induction es generalizing m with
  | nil => rfl
  | cons e es ih =>
    rw [List.map_cons, List.foldlM_cons, b64decode_b64encode, ok_bind, ok_bind, ih, List.foldl_cons]

/-- The entries beyond the encoding, each key once and none of them the
encoding's. -/
theorem nodup_others (p : Payload) :
    ("encoding" :: (p.metadata.entries.filter fun e => e.1 ≠ "encoding").map (·.1)).Nodup := by
  rw [List.nodup_cons]
  refine ⟨fun h => ?_, (p.metadata.nodup.sublist (List.filter_sublist.map _))⟩
  obtain ⟨e, he, hk⟩ := List.mem_map.1 h
  exact of_decide_eq_true (List.mem_filter.1 he).2 hk

theorem entries_extraMetadata (p : Payload) :
    (extraMetadata p).entries =
      (p.metadata.entries.filter fun e => e.1 ≠ "encoding").map fun e => (e.1, Py.b64encode e.2) := by
  refine Dict.entries_ofEntries ?_
  rw [List.map_map]
  exact (List.nodup_cons.1 (nodup_others p)).2

/-- The metadata of a payload that was a dict: the encoding first, then the
rest. -/
def metadataBack (p : Payload) (encoding : Bytes) : Dict String Bytes where
  entries := ("encoding", encoding) :: p.metadata.entries.filter fun e => e.1 ≠ "encoding"
  nodup := nodup_others p

theorem foldl_others (p : Payload) (encoding : Bytes) :
    (p.metadata.entries.filter fun e => e.1 ≠ "encoding").foldl (fun m e => m.set e.1 e.2)
      (Dict.empty.set "encoding" encoding) = metadataBack p encoding := by
  have hentries : (Dict.empty.set "encoding" encoding).entries = [("encoding", encoding)] :=
    Dict.entries_set_of_none rfl encoding
  have h := Dict.entries_foldl_set (l := p.metadata.entries.filter fun e => e.1 ≠ "encoding")
    (d := Dict.empty.set "encoding" encoding) (by rw [hentries]; exact nodup_others p)
  rw [hentries] at h
  exact Dict.ext_entries h

theorem get?_metadataBack {p : Payload} {encoding : Bytes} (h : p.metadata.get? "encoding" = some encoding) (k : String) :
    (metadataBack p encoding).get? k = p.metadata.get? k := by
  have hpop := p.metadata.get?_pop "encoding" k
  by_cases hk : k = "encoding"
  · rw [hk, h]
    simp [Dict.get?, metadataBack]
  · rw [if_neg hk] at hpop
    rw [← hpop]
    simp [Dict.get?, metadataBack, Dict.pop, Ne.symm hk]

/-! ## There and back -/

section Back

variable {F : Type} (fl : Py.FloatText F) {inlineJson : Bool} {p q : Payload} {bytes : Bytes} {encoding : String}

/-- Is the data readable in the dict? -/
def Inlined (inlineJson : Bool) (p : Payload) : Prop := inlineJson = true ∧ p.encoding = some "json/plain"

theorem payloadFromDict_extra (content : Content F) (hb : Py.encodeUtf8 encoding = bytes) :
    payloadFromDict fl ⟨encoding, if (extraMetadata p).entries = [] then none else some (extraMetadata p), content⟩ =
      match content with
      | .json v => .ok ⟨metadataBack p bytes, Json.dumps fl v⟩
      | .b64 text => b64decode text >>= fun data => .ok ⟨metadataBack p bytes, data⟩ := by
  have hextra : ((if (extraMetadata p).entries = [] then none else some (extraMetadata p)).getD Dict.empty).entries =
      (extraMetadata p).entries := by
    split
    · next h => rw [h]; rfl
    · rfl
  rw [payloadFromDict, hextra, entries_extraMetadata, hb]
  simp only [foldlM_b64decode, ok_bind, foldl_others]

/-- A payload that was a dict: its metadata, and its data, the JSON written
again. -/
theorem throughDict_eq (hm : p.metadata.get? "encoding" = some bytes) (he : Py.decodeUtf8 bytes = some encoding) :
    throughDict fl inlineJson p =
      if inlineJson = true ∧ encoding = "json/plain" then
        match Json.loads fl p.data with
        | .ok v => .ok ⟨metadataBack p bytes, Json.dumps fl v⟩
        | .error e => .error (.json e)
      else .ok ⟨metadataBack p bytes, p.data⟩ := by
  have hback := Py.encodeUtf8_decodeUtf8 he
  rw [throughDict, payloadToDict, hm, Option.getD_some, he]
  dsimp only
  split
  · cases Json.loads fl p.data with
    | error e => rfl
    | ok v => exact payloadFromDict_extra fl (.json v) hback
  · rw [ok_bind, payloadFromDict_extra fl _ hback]
    simp only [b64decode_b64encode, ok_bind]

/-- What a payload is after it was a dict: the same metadata, and the same
bytes unless they were JSON that the dict shows. That is in its normal text
then, the same value with its keys sorted. -/
structure Returns (inlineJson : Bool) (p q : Payload) : Prop where
  metadata : ∀ k, q.metadata.get? k = p.metadata.get? k
  bytes : ¬ Inlined inlineJson p → q.data = p.data
  json : Inlined inlineJson p →
    ∃ v, Json.loads fl p.data = .ok v ∧ q.data = Json.dumps fl v ∧ Json.loads fl q.data = .ok v.sorted
  normal : Inlined inlineJson p → (q.data = p.data ↔ ∃ v : Json F, v.Proper ∧ p.data = Json.dumps fl v)

/-- Normal text stays: `dumps` of what `loads` makes of it is the text. -/
theorem dumps_loads_dumps {v w : Json F} (hv : v.Proper) (h : Json.loads fl (Json.dumps fl v) = .ok w) :
    Json.dumps fl w = Json.dumps fl v := by
  rw [Json.loads_dumps fl hv] at h
  cases h
  rw [Json.dumps, Json.dumpsText, Json.sorted_sorted]
  rfl

end Back

/-! ## The same, in parts -/

section Boundary

variable {F : Type} (fl : Py.FloatText F) {inlineJson : Bool} {p : Payload}

/-- `json`. -/
def jsonModule : JsonModule (Json F) where
  loads b := (Json.loads fl b).mapError fun e => match e with
    | .decode message | .value message => message
    | .surrogate => "surrogates not allowed"
    | .fuel => ""
  dumps := Json.dumps fl

/-- A payload with its encoding apart. -/
def Payload.boundary (p : Payload) (encoding : String) : BoundaryPayload where
  encoding := encoding
  extra := (p.metadata.pop "encoding").entries
  data := p.data

/-- The dict's parts, without their base64, say what comes back. -/
theorem throughDict_boundary {q : Payload} {encoding : String} (he : p.encoding = some encoding)
    (h : throughDict fl inlineJson p = .ok q) :
    (Dbosify.payloadToDict (jsonModule fl) inlineJson (p.boundary encoding)).map (Dbosify.payloadFromDict (jsonModule fl)) =
      .ok (q.boundary encoding) := by
  obtain ⟨bytes, hm, hd⟩ := Option.bind_eq_some_iff.1 he
  have hpop : ((metadataBack p bytes).pop "encoding").entries = (p.metadata.pop "encoding").entries := by
    simp [Dict.pop, metadataBack]
  rw [throughDict_eq fl hm hd] at h
  rw [Dbosify.payloadToDict]
  by_cases hin : inlineJson = true ∧ encoding = "json/plain"
  · rw [if_pos hin] at h
    rw [if_pos (by simpa [Payload.boundary] using hin)]
    cases hl : Json.loads fl p.data with
    | error e =>
      rw [hl] at h
      cases h
    | ok v =>
      rw [hl] at h
      cases h
      simp only [jsonModule, Payload.boundary, hl, hpop]
      rfl
  · rw [if_neg hin] at h
    rw [if_neg (by simpa [Payload.boundary] using hin)]
    cases h
    simp only [Payload.boundary, hpop]
    rfl

end Boundary

/-! ## Keys in another order -/

section Reordered

/-- What the default converter makes of `{2: 0, 10: 0}`: it sorts the integers,
and then writes them. -/
def numberedKeys : Json Unit := .obj [("2", .int 0), ("10", .int 0)]

def numberedPayload : Payload where
  metadata := Dict.empty.set "encoding" (Py.encodeUtf8 "json/plain")
  data := Json.encodeText (Json.text Py.FloatText.single numberedKeys)

theorem numberedKeys_proper : numberedKeys.Proper := by
  refine ⟨by decide, ?_, ?_, trivial⟩
  · exact Nat.pow_pos (by decide)
  · exact Nat.pow_pos (by decide)

theorem numberedPayload_encoding : numberedPayload.encoding = some "json/plain" :=
  Py.decodeUtf8_encodeUtf8 "json/plain"

theorem loads_numbered : Json.loads Py.FloatText.single numberedPayload.data = .ok numberedKeys :=
  Json.loads_text _ numberedKeys_proper

end Reordered

end Dbosify.Conversion
