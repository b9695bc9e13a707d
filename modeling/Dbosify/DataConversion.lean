/-
The data converter in its parts: a payload converter, and a codec over the
payloads' bytes (`converter.DataConverter`, `conversion`).

A start by the client encodes the arguments with the codec. A schedule's
arguments are encoded when the schedule is created, synchronously and so
without the codec; the run that a fire starts decodes them with the codec all
the same. The two runs get the same arguments exactly where the codec reads the
payloads it never encoded as the ones the converter made (`schedule_args_iff`).
-/
import Mathlib.Logic.Encodable.Basic
import Mathlib.Logic.Equiv.List
import Dbosify.ChainMeta

namespace Dbosify

/-! ## Payloads -/

abbrev Bytes := List UInt8

/-- `converter.Payload`: the encoding its metadata names, the rest of the
metadata, and the data. -/
structure BoundaryPayload where
  encoding : String
  extra : List (String × Bytes) := []
  data : Bytes := []
deriving DecidableEq, Repr

/-- `json`: the values `loads` makes of a text, and their normal text
(compact separators, sorted keys). -/
structure JsonModule (J : Type) where
  loads : Bytes → Except String J
  dumps : J → Bytes

/-- What a payload dict holds of the data: its JSON, or its bytes (base64). -/
inductive Body (J : Type)
  | json (j : J)
  | b64 (data : Bytes)

/-- A payload dict. -/
structure PayloadDict (J : Type) where
  encoding : String
  extra : List (String × Bytes)
  body : Body J

section Dict

variable {J : Type} (json : JsonModule J)

/-- `conversion._payload_to_dict`. -/
def payloadToDict (inlineJson : Bool) (p : BoundaryPayload) : Except String (PayloadDict J) :=
  if inlineJson && p.encoding == "json/plain" then do
    let j ← json.loads p.data
    .ok { encoding := p.encoding, extra := p.extra, body := .json j }
  else .ok { encoding := p.encoding, extra := p.extra, body := .b64 p.data }

/-- `conversion._payload_from_dict`. -/
def payloadFromDict (d : PayloadDict J) : BoundaryPayload :=
  { encoding := d.encoding
    extra := d.extra
    data :=
      match d.body with
      | .json j => json.dumps j
      | .b64 data => data }

/-- A payload with its JSON in normal form. -/
def normalJson (p : BoundaryPayload) : Except String BoundaryPayload :=
  if p.encoding = "json/plain" then do
    let j ← json.loads p.data
    .ok { p with data := json.dumps j }
  else .ok p

/-- Bytes come back from a dict as they went in. -/
@[simp] theorem payloadToDict_bytes (p : BoundaryPayload) :
    (payloadToDict json false p).map (payloadFromDict json) = .ok p := rfl

/-- Inlined JSON comes back in normal form. -/
theorem payloadToDict_inline (p : BoundaryPayload) :
    (payloadToDict json true p).map (payloadFromDict json) = normalJson json p := by
  by_cases hp : p.encoding = "json/plain"
  · simp only [payloadToDict, normalJson, hp, Bool.true_and, beq_self_eq_true, if_true]
    cases json.loads p.data with
    | error e => rfl
    | ok j => rfl
  · rw [payloadToDict, normalJson, if_neg hp, if_neg (by simpa using hp)]
    rfl

end Dict

/-! ## The data converter -/

/-- `converter.PayloadCodec`. -/
structure Codec where
  encode : List BoundaryPayload → Except String (List BoundaryPayload)
  decode : List BoundaryPayload → Except String (List BoundaryPayload)

/-- What the codec encoded, it decodes. -/
def Codec.Inverts (k : Codec) : Prop := ∀ ps, (k.encode ps >>= k.decode) = .ok ps

/-- `converter.DataConverter`. -/
structure DataConverter where
  toPayloads : List Value → Except String (List BoundaryPayload)
  fromPayloads : List BoundaryPayload → Option (List Hint) → Except String (List Value)
  payloadCodec : Option Codec

namespace DataConverter

variable (d : DataConverter)

/-- `DataConverter.encode`. -/
def encode (values : List Value) : Except String (List BoundaryPayload) := do
  let ps ← d.toPayloads values
  match d.payloadCodec with
  | some k => k.encode ps
  | none => .ok ps

/-- `DataConverter.decode`. -/
def decode (ps : List BoundaryPayload) (hints : Option (List Hint)) : Except String (List Value) :=
  match d.payloadCodec with
  | some k => k.decode ps >>= fun qs => d.fromPayloads qs hints
  | none => d.fromPayloads ps hints

end DataConverter

/-- The serializer of the checkpoints: a payload dict comes back as it was
stored. -/
structure Storage (J : Type) where
  store : PayloadDict J → Payload
  load : Payload → PayloadDict J
  load_store : ∀ d, load (store d) = d

namespace DataConverter

variable {J : Type} (d : DataConverter) (json : JsonModule J) (s : Storage J)

/-- Payloads as dicts, JSON inlined or not. -/
def toDicts (inlineJson : Bool) (ps : List BoundaryPayload) : Except String (List Payload) :=
  (ps.mapM (payloadToDict json inlineJson)).map (·.map s.store)

/-- The payload of a stored dict. -/
def fromDict (p : Payload) : BoundaryPayload := payloadFromDict json (s.load p)

/-- The conversion boundary over this data converter: JSON is inlined when
there is no codec. -/
def boundary : SyncConverter where
  encode values := do toDicts json s d.payloadCodec.isNone (← d.encode values)
  decode ps hints := d.decode (ps.map (fromDict json s)) hints
  codecEncode ps :=
    match d.payloadCodec with
    | some k => do toDicts json s false (← k.encode (ps.map (fromDict json s)))
    | none => .ok ps
  codecDecode ps :=
    match d.payloadCodec with
    | some k => do toDicts json s false (← k.decode (ps.map (fromDict json s)))
    | none => .ok ps
  decodeSync p := do
    match ← d.fromPayloads [fromDict json s p] none with
    | v :: _ => .ok v
    | [] => .error "list index out of range"
  encodeSync values := do toDicts json s true (← d.toPayloads values)

end DataConverter

/-! ## The two starts -/

/-- The arguments a run's workflow function gets (`Interpreter.execute`). -/
def receivedArgs (c : SyncConverter) (input : RunInput) (hints : Option (List Hint)) : Except Exc (List Value) :=
  decodeValues c.toConverter (unwrapInput input).1 hints

/-- The arguments of a run that `Client.start_workflow` started. -/
def clientArgs (c : SyncConverter) (m : InputMeta) (args : List Value) (hints : Option (List Hint)) :
    Except Exc (List Value) := do
  let encoded ← encodeValues c.toConverter args
  receivedArgs c (wrapInput encoded m) hints

/-- The arguments of a run that a fire started: encoded into the schedule's
context, wrapped by the dispatcher (`serialize_schedule_context`,
`_start_scheduled_action`). -/
def scheduledArgs (c : SyncConverter) (attributes : Option Attributes) (runTimeout : Option Seconds)
    (retryPolicy : Option SerializedRetryPolicy) (args : List Value) (hints : Option (List Hint)) :
    Except Exc (List Value) := do
  let encoded ← encodeValuesSync c args
  receivedArgs c (wrapInput encoded (scheduledMeta attributes runTimeout retryPolicy)) hints

/-! ## What arrives at the decode -/

theorem converted_inj {α : Type} {x y : Except String α} : converted x = converted y ↔ x = y := by
  refine ⟨fun h => ?_, fun h => by rw [h]⟩
  cases x with
  | error e => cases y with
    | error e' => simp only [converted, Except.mapError, Except.error.injEq, Exc.conversionError.injEq] at h; rw [h]
    | ok b => cases h
  | ok a => cases y with
    | error e' => cases h
    | ok b => simp only [converted, Except.mapError, Except.ok.injEq] at h; rw [h]

theorem converted_bind {α β : Type} (x : Except String α) (f : α → Except String β) :
    converted (x >>= f) = converted x >>= fun a => converted (f a) := by
  cases x with
  | error e => rfl
  | ok a => rfl

theorem map_mapM {ε α β γ : Type} (f : α → Except ε β) (g : β → γ) (l : List α) :
    (l.mapM f).map (·.map g) = l.mapM fun a => (f a).map g := by
  induction l with
  | nil => rfl
  | cons a l ih =>
    rw [List.mapM_cons, List.mapM_cons, ← ih]
    cases f a with
    | error e => rfl
    | ok b =>
      simp only [ok_bind]
      cases l.mapM f with
      | error e => rfl
      | ok bs => rfl

theorem mapM_ok {ε α : Type} (l : List α) : (l.mapM fun a => (.ok a : Except ε α)) = .ok l := by
  induction l with
  | nil => rfl
  | cons a l ih => rw [List.mapM_cons, ih]; rfl

namespace DataConverter

variable {J : Type} (d : DataConverter) (json : JsonModule J) (s : Storage J)

/-- `decode_values` over the payloads of the dicts. -/
def readBack (qs : List BoundaryPayload) (hints : Option (List Hint)) : Except String (List Value) :=
  if qs.isEmpty then .ok [] else d.decode qs (hints.map (·.take qs.length))

theorem decodeValues_boundary (stored : List Payload) (hints : Option (List Hint)) :
    decodeValues (d.boundary json s).toConverter stored hints =
      converted (d.readBack (stored.map (fromDict json s)) hints) := by
  simp only [decodeValues, readBack, List.isEmpty_map, List.length_map, boundary]
  split
  · rfl
  · rfl

/-- The payloads of the dicts, read off those the dicts were made of. -/
theorem toDicts_fromDict (inlineJson : Bool) (ps : List BoundaryPayload) :
    (toDicts json s inlineJson ps).map (·.map (fromDict json s)) =
      ps.mapM fun p => (payloadToDict json inlineJson p).map (payloadFromDict json) := by
  rw [← map_mapM, toDicts]
  cases ps.mapM (payloadToDict json inlineJson) with
  | error e => rfl
  | ok ds =>
    simp only [Except.map, List.map_map]
    congr 2
    funext q
    simp only [Function.comp_apply, fromDict, s.load_store]

/-- What a run gets of arguments whose payloads were stored so. -/
theorem receivedArgs_toDicts (inlineJson : Bool) (ps : List BoundaryPayload) (m : InputMeta)
    (hints : Option (List Hint)) :
    (converted (toDicts json s inlineJson ps) >>= fun stored =>
        receivedArgs (d.boundary json s) (wrapInput stored m) hints) =
      converted ((ps.mapM fun p => (payloadToDict json inlineJson p).map (payloadFromDict json)) >>=
        (d.readBack · hints)) := by
  simp only [receivedArgs, unwrap_wrapInput, decodeValues_boundary]
  rw [← toDicts_fromDict json s]
  cases toDicts json s inlineJson ps with
  | error e => rfl
  | ok stored => rfl

theorem scheduledArgs_boundary (attributes : Option Attributes) (runTimeout : Option Seconds)
    (retryPolicy : Option SerializedRetryPolicy) (args : List Value) (hints : Option (List Hint)) :
    scheduledArgs (d.boundary json s) attributes runTimeout retryPolicy args hints =
      converted (d.toPayloads args >>= fun ps => ps.mapM (normalJson json) >>= (d.readBack · hints)) := by
  simp only [scheduledArgs, encodeValuesSync, boundary]
  cases d.toPayloads args with
  | error e => rfl
  | ok ps =>
    have h := receivedArgs_toDicts d json s true ps (scheduledMeta attributes runTimeout retryPolicy) hints
    simp only [payloadToDict_inline] at h
    exact h

/-- Without a codec, the client's start stores what a schedule does. -/
theorem clientArgs_plain (hd : d.payloadCodec = none) (m : InputMeta) (args : List Value) (hints : Option (List Hint)) :
    clientArgs (d.boundary json s) m args hints =
      converted (d.toPayloads args >>= fun ps => ps.mapM (normalJson json) >>= (d.readBack · hints)) := by
  simp only [clientArgs, encodeValues, boundary, encode, hd, Option.isNone_none]
  cases d.toPayloads args with
  | error e => rfl
  | ok ps =>
    have h := receivedArgs_toDicts d json s true ps m hints
    simp only [payloadToDict_inline] at h
    exact h

/-- With a codec, the client's start stores the bytes the codec made. -/
theorem clientArgs_coded {k : Codec} (hd : d.payloadCodec = some k) (m : InputMeta) (args : List Value)
    (hints : Option (List Hint)) :
    clientArgs (d.boundary json s) m args hints =
      converted (d.toPayloads args >>= fun ps => k.encode ps >>= (d.readBack · hints)) := by
  have h := fun es => receivedArgs_toDicts d json s false es m hints
  simp only [payloadToDict_bytes, mapM_ok, ok_bind] at h
  simp only [clientArgs, encodeValues, boundary, encode, hd, Option.isNone_some, bind_assoc, converted_bind] at h ⊢
  simp only [h]

/-- What the converter makes of payloads that were stored as `n` dicts. -/
def readDirect (n : Nat) (ps : List BoundaryPayload) (hints : Option (List Hint)) : Except String (List Value) :=
  if n = 0 then .ok [] else d.fromPayloads ps (hints.map (·.take n))

/-- The codec, which encoded none of them, decodes the converter's payloads
(their JSON in normal form) to ones the converter reads as its own. -/
def ReadsPlain (k : Codec) (args : List Value) (hints : Option (List Hint)) : Prop :=
  ∀ ps es, d.toPayloads args = .ok ps → k.encode ps = .ok es →
    (ps.mapM (normalJson json) >>= fun qs =>
        if qs.isEmpty then .ok [] else k.decode qs >>= (d.fromPayloads · (hints.map (·.take qs.length)))) =
      d.readDirect es.length ps hints

/-- What the codec encoded reads as what the converter made. -/
theorem readBack_encoded {k : Codec} (hd : d.payloadCodec = some k) (hk : k.Inverts) {ps es : List BoundaryPayload}
    (he : k.encode ps = .ok es) (hints : Option (List Hint)) :
    d.readBack es hints = d.readDirect es.length ps hints := by
  have hp := hk ps
  rw [he, ok_bind] at hp
  simp only [readBack, readDirect, decode, hd, hp, ok_bind]
  cases es with
  | nil => rfl
  | cons e es => rfl

end DataConverter

/-- A codec that undoes its encoding always encodes. -/
theorem Codec.Inverts.encode_ok {k : Codec} (hk : k.Inverts) (ps : List BoundaryPayload) :
    ∃ es, k.encode ps = .ok es := by
  obtain ⟨es, he, -⟩ := bind_eq_ok.1 (hk ps)
  exact ⟨es, he⟩

/-! ## The two starts compared -/

/-- **A workflow gets the same arguments from a fire as from the client exactly
when there is no codec, or the codec reads the payloads it never encoded as the
converter's own.** -/
theorem schedule_args_iff {J : Type} (d : DataConverter) (json : JsonModule J) (s : Storage J)
    (hk : ∀ k, d.payloadCodec = some k → k.Inverts) (m : InputMeta) (attributes : Option Attributes)
    (runTimeout : Option Seconds) (retryPolicy : Option SerializedRetryPolicy) (args : List Value)
    (hints : Option (List Hint)) :
    scheduledArgs (d.boundary json s) attributes runTimeout retryPolicy args hints =
        clientArgs (d.boundary json s) m args hints ↔
      ∀ k, d.payloadCodec = some k → d.ReadsPlain json k args hints := by
  rw [d.scheduledArgs_boundary json s]
  cases hd : d.payloadCodec with
  | none =>
    rw [d.clientArgs_plain json s hd]
    simp
  | some k =>
    have hinv := hk k hd
    rw [d.clientArgs_coded json s hd, converted_inj]
    constructor
    · intro h k' hk' ps es hp he
      cases hk'
      rw [hp, ok_bind, ok_bind, he, ok_bind, d.readBack_encoded hd hinv he] at h
      simp only [DataConverter.readBack, DataConverter.decode, hd] at h
      exact h
    · intro h
      cases hp : d.toPayloads args with
      | error e => rfl
      | ok ps =>
        obtain ⟨es, he⟩ := hinv.encode_ok ps
        have h := h k rfl ps es hp he
        rw [ok_bind, ok_bind, he, ok_bind, d.readBack_encoded hd hinv he, ← h]
        simp only [DataConverter.readBack, DataConverter.decode, hd]

/-! ## Reversed bytes -/

section Reversed

/-- A codec that reverses the payload bytes. -/
def reverseCodec : Codec where
  encode ps := .ok (ps.map fun p => { p with data := p.data.reverse })
  decode ps := .ok (ps.map fun p => { p with data := p.data.reverse })

theorem reverseCodec_inverts : reverseCodec.Inverts := by
  intro ps
  simp only [reverseCodec, ok_bind, List.map_map, Function.comp_def, List.reverse_reverse, List.map_id']

def asciiBytes (t : String) : Bytes := t.toList.map fun c => UInt8.ofNat c.toNat

/-- `None`, and plain strings as JSON. -/
def quotingConverter (k : Option Codec) : DataConverter where
  toPayloads values := values.mapM fun
    | .none => .ok { encoding := "binary/null" }
    | .str t => .ok { encoding := "json/plain", data := 34 :: asciiBytes t ++ [34] }
    | _ => .error "Value has no known converter"
  fromPayloads ps _ := ps.mapM fun p =>
    if p.encoding = "binary/null" then .ok .none
    else if p.encoding = "json/plain" then
      .ok (.str (String.ofList ((p.data.tail.dropLast).map fun b => Char.ofNat b.toNat)))
    else .error "Unknown payload encoding"
  payloadCodec := k

/-- JSON texts, each its own value. -/
def rawJson : JsonModule Bytes := { loads := .ok, dumps := id }

/-- A payload dict in numbers. -/
abbrev DictCode := List ℕ × List (List ℕ × List ℕ) × Bool × List ℕ

def PayloadDict.code (d : PayloadDict Bytes) : DictCode :=
  (d.encoding.toList.map Char.toNat, d.extra.map fun e => (e.1.toList.map Char.toNat, e.2.map UInt8.toNat),
    match d.body with
    | .json j => (true, j.map UInt8.toNat)
    | .b64 data => (false, data.map UInt8.toNat))

def PayloadDict.ofCode (c : DictCode) : PayloadDict Bytes :=
  { encoding := String.ofList (c.1.map Char.ofNat)
    extra := c.2.1.map fun e => (String.ofList (e.1.map Char.ofNat), e.2.map UInt8.ofNat)
    body := if c.2.2.1 then .json (c.2.2.2.map UInt8.ofNat) else .b64 (c.2.2.2.map UInt8.ofNat) }

theorem PayloadDict.ofCode_code (d : PayloadDict Bytes) : ofCode d.code = d := by
  obtain ⟨encoding, extra, body⟩ := d
  cases body with
  | json j => simp [ofCode, code, Function.comp_def]
  | b64 data => simp [ofCode, code, Function.comp_def]

/-- Dicts stored in unary. -/
def tallyStorage : Storage Bytes where
  store d := ⟨String.ofList (List.replicate (Encodable.encode d.code) '1')⟩
  load p := PayloadDict.ofCode ((Encodable.decode p.text.length).getD ([], [], false, []))
  load_store d := by
    rw [String.length_ofList, List.length_replicate, Encodable.encodek, Option.getD_some, PayloadDict.ofCode_code]

/-- `None` has no bytes to reverse. -/
theorem reversed_none :
    scheduledArgs ((quotingConverter (some reverseCodec)).boundary rawJson tallyStorage) none none none [.none] none =
      clientArgs ((quotingConverter (some reverseCodec)).boundary rawJson tallyStorage) {} [.none] none := by
  refine (schedule_args_iff _ rawJson tallyStorage ?_ {} none none none [.none] none).mpr ?_
  · intro k hk
    cases hk
    exact reverseCodec_inverts
  · intro k hk ps es hp he
    cases hk
    cases hp
    cases he
    rfl

/-- The client's workflow gets `"ab"`; the schedule's gets what the codec
makes of the bytes of `"ab"` by reversing them once. -/
theorem reversed_args :
    ¬ ∀ (J : Type) (d : DataConverter) (json : JsonModule J) (s : Storage J)
      (_ : ∀ k, d.payloadCodec = some k → k.Inverts) (m : InputMeta) (args : List Value) (hints : Option (List Hint)),
        scheduledArgs (d.boundary json s) none none none args hints = clientArgs (d.boundary json s) m args hints := by
  intro h
  have heq := h Bytes (quotingConverter (some reverseCodec)) rawJson tallyStorage
    (fun k hk => by cases hk; exact reverseCodec_inverts) {} [.str "ab"] none
  rw [DataConverter.scheduledArgs_boundary, DataConverter.clientArgs_coded _ _ _ rfl, converted_inj] at heq
  have hba : (.ok [.str "ba"] : Except String (List Value)) = .ok [.str "ab"] := heq
  simp at hba

end Reversed

end Dbosify
