/-
The failure envelope, with its stack trace: an exception as user code raises
it, the envelope `serialize_failure` makes of it, and the exception
`deserialize_failure` builds from that.

An envelope passes through both several times on its way from an activity to a
client. What it says survives as long as its details re-encode to themselves;
its stack traces do not (`failure_survives`): a rebuilt exception was never
raised, and `serialize_failure` takes a trace from nothing but a traceback.
-/
import Dbosify.Failure
import Dbosify.SyncConversion

namespace Dbosify

/-! ## Exceptions and envelopes -/

/-- The class of an exception, with its own fields. -/
inductive ExcFields
  | applicationError (type : Option String) (details : List Value) (nonRetryable : Bool)
      (nextRetryDelay : Option Timedelta) (category : ApplicationErrorCategory)
  | cancelledError (details : List Value)
  | terminatedError (details : List Value)
  | timeoutError (type : Option TimeoutType) (lastHeartbeatDetails : List Value)
  | activityError (activityType activityId identity : String) (retryState : Option RetryState)
  | childWorkflowError (workflowNamespace workflowId runId workflowType : String) (retryState : Option RetryState)
  | serverError (nonRetryable : Bool)
  /-- Anything else, by `exc.__class__.__name__`. -/
  | foreign (name : String)

/-- An exception: its message (`str(exc)`, of a foreign one), its traceback as
`traceback.format_tb` prints it, and what it is chained to. -/
structure TracedException where
  cls : ExcFields
  message : String
  traceback : Option String := none
  cause : Option TracedException := none
  context : Option TracedException := none
  suppressContext : Bool := false

/-- `payloads.FailureEnvelope`. An absent stack trace reads as the empty one. -/
structure TracedEnvelope where
  info : FailureInfo Payload
  message : String
  stackTrace : String := ""
  cause : Option TracedEnvelope := none

/-- The envelope without its stack traces. -/
def TracedEnvelope.plain : TracedEnvelope → FailureEnvelope
  | ⟨info, message, _, none⟩ => { info, message }
  | ⟨info, message, _, some cause⟩ => { info, message, cause := some cause.plain }

/-! ## Exception to envelope -/

/-- The fields of an envelope, by class. An application error made of a foreign
exception lacks the category, which reads as unspecified. -/
def encodeClass (c : SyncConverter) : ExcFields → Except Exc (FailureInfo Payload)
  | .applicationError t ds n d cat => do
    return .applicationError t (← encodeValuesSync c ds) n cat (d.map (·.totalSeconds))
  | .cancelledError ds => do return .cancelledError (← encodeValuesSync c ds)
  | .terminatedError ds => do return .terminatedError (← encodeValuesSync c ds)
  | .timeoutError t ds => do return .timeoutError t (← encodeValuesSync c ds)
  | .activityError t i w r => return .activityError t i w r
  | .childWorkflowError n w r t s => return .childWorkflowError n w r t s
  | .serverError n => return .serverError n
  | .foreign name => return .applicationError (some name) [] false .unspecified none

namespace TracedException

/-- `payloads.serialize_failure`: the cause is the explicit one, else the
context unless it is suppressed. -/
def serializeFailure (c : SyncConverter) : TracedException → Except Exc TracedEnvelope
  | ⟨cls, message, traceback, some e, _, _⟩ | ⟨cls, message, traceback, none, some e, false⟩ => do
    let info ← encodeClass c cls
    let cause ← serializeFailure c e
    return { info, message, stackTrace := traceback.getD "", cause := some cause }
  | ⟨cls, message, traceback, none, some _, true⟩ | ⟨cls, message, traceback, none, none, _⟩ => do
    let info ← encodeClass c cls
    return { info, message, stackTrace := traceback.getD "" }

/-- The exception, and the causes `serialize_failure` goes on to. -/
def chain : TracedException → List TracedException
  | ⟨cls, message, traceback, some e, x, b⟩ => ⟨cls, message, traceback, some e, x, b⟩ :: chain e
  | ⟨cls, message, traceback, none, some e, false⟩ => ⟨cls, message, traceback, none, some e, false⟩ :: chain e
  | x => [x]

/-- `"".join(traceback.format_tb(exc.__traceback__))`, or nothing. -/
def stackTrace (x : TracedException) : String := x.traceback.getD ""

end TracedException

/-! ## Envelope to exception -/

/-- The class of an envelope, with its fields; the delay is rounded to
microseconds. -/
def decodeClass (c : Converter) : FailureInfo Payload → Except Exc ExcFields
  | .applicationError t ds n cat d => do
    return .applicationError t (← ds.mapM (decodeValueSync c)) n (d.map .ofSeconds) cat
  | .cancelledError ds => do return .cancelledError (← ds.mapM (decodeValueSync c))
  | .terminatedError ds => do return .terminatedError (← ds.mapM (decodeValueSync c))
  | .timeoutError t ds => do return .timeoutError t (← ds.mapM (decodeValueSync c))
  | .activityError t i w r => return .activityError t i w r
  | .childWorkflowError n w r t s => return .childWorkflowError n w r t s
  | .serverError n => return .serverError n

namespace TracedEnvelope

/-- `payloads.deserialize_failure`: a new exception, without a traceback.
Setting a cause suppresses the context. -/
def deserializeFailure (c : Converter) : TracedEnvelope → Except Exc TracedException
  | ⟨info, message, _, none⟩ => do
    let cls ← decodeClass c info
    return { cls, message }
  | ⟨info, message, _, some e⟩ => do
    let cls ← decodeClass c info
    let cause ← deserializeFailure c e
    return { cls, message, cause := some cause, suppressContext := true }

end TracedEnvelope

/-! ## Without the traces -/

/-- The fields of a rebuilt exception, as `FailureError` has them. -/
def ExcFields.info : ExcFields → FailureInfo Value
  | .applicationError t ds n d cat => .applicationError t ds n cat (d.map (·.totalSeconds))
  | .cancelledError ds => .cancelledError ds
  | .terminatedError ds => .terminatedError ds
  | .timeoutError t ds => .timeoutError t ds
  | .activityError t i w r => .activityError t i w r
  | .childWorkflowError n w r t s => .childWorkflowError n w r t s
  | .serverError n => .serverError n
  | .foreign name => .applicationError (some name) [] false .unspecified none

/-- A rebuilt exception, as a `FailureError`. -/
def TracedException.failureError : TracedException → FailureError
  | ⟨cls, message, _, none, _, _⟩ => { info := cls.info, message }
  | ⟨cls, message, _, some e, _, _⟩ => { info := cls.info, message, cause := some e.failureError }

variable {c : SyncConverter} {x : TracedException} {e : TracedEnvelope}

theorem decodeClass_info {k : ExcFields} {info : FailureInfo Payload} (h : encodeClass c k = .ok info) (c' : Converter) :
    (decodeClass c' info).map ExcFields.info = decodeDetails c' info := by
  cases k with
  | applicationError t ds n d cat =>
    simp only [encodeClass, bind_eq_ok, pure_eq_ok] at h
    obtain ⟨ps, -, rfl⟩ := h
    simp only [decodeClass, decodeDetails]
    cases ps.mapM (decodeValueSync c') with
    | error e => rfl
    | ok vs => cases d <;> simp [Except.map, pure, Except.pure, ExcFields.info]
  | cancelledError | terminatedError | timeoutError =>
    simp only [encodeClass, bind_eq_ok, pure_eq_ok] at h
    obtain ⟨ps, -, rfl⟩ := h
    simp only [decodeClass, decodeDetails]
    cases ps.mapM (decodeValueSync c') <;> rfl
  | activityError | childWorkflowError | serverError =>
    simp only [encodeClass, pure_eq_ok] at h
    subst h
    rfl
  | foreign =>
    simp only [encodeClass, pure_eq_ok] at h
    subst h
    rfl

/-- Without its traces, an envelope deserializes as `deserializeFailure`
says. -/
theorem plain_deserializeFailure (c' : Converter) : ∀ {x : TracedException} {e : TracedEnvelope}, x.serializeFailure c = .ok e →
    (e.deserializeFailure c').map TracedException.failureError = deserializeFailure c' e.plain
  | ⟨k, message, traceback, some y, _, _⟩, _, h | ⟨k, message, traceback, none, some y, false⟩, _, h => by
    simp only [TracedException.serializeFailure, bind_eq_ok, pure_eq_ok] at h
    obtain ⟨info, hi, e', he', rfl⟩ := h
    rw [TracedEnvelope.plain, deserializeFailure, ← decodeClass_info hi, ← plain_deserializeFailure c' he',
      TracedEnvelope.deserializeFailure]
    cases decodeClass c' info with
    | error e => rfl
    | ok cls => cases e'.deserializeFailure c' <;> rfl
  | ⟨k, message, traceback, none, some y, true⟩, _, h | ⟨k, message, traceback, none, none, _⟩, _, h => by
    simp only [TracedException.serializeFailure, bind_eq_ok, pure_eq_ok] at h
    obtain ⟨info, hi, rfl⟩ := h
    rw [TracedEnvelope.plain, deserializeFailure, ← decodeClass_info hi, TracedEnvelope.deserializeFailure]
    cases decodeClass c' info <;> rfl

/-! ## One exception, re-encoded -/

/-- What the envelope holds of the details, for the classes that have them. -/
def ExcFields.encodedDetails (c : SyncConverter) : ExcFields → Option (Except Exc (List Payload))
  | .applicationError _ ds _ _ _ | .cancelledError ds | .terminatedError ds | .timeoutError _ ds =>
    some (encodeValuesSync c ds)
  | .foreign _ => some (.ok [])
  | .activityError .. | .childWorkflowError .. | .serverError _ => none

/-- The details in the envelope re-encode to themselves. -/
def ExcFields.DetailsStable (c : SyncConverter) (k : ExcFields) : Prop :=
  ∀ ps, k.encodedDetails c = some (.ok ps) → Stable c ps

theorem bind_pure_map {ε α β : Type} (x : Except ε α) (f : α → β) : (x >>= fun a => pure (f a)) = x.map f := by
  cases x <;> rfl

/-- A class with details: what decodes to it and what it encodes to are made
of the details alone. -/
theorem reencode_details (mk : List Payload → FailureInfo Payload) (mk' : List Value → ExcFields)
    (hinj : ∀ ps qs, mk ps = mk qs → ps = qs)
    (hd : ∀ ps, decodeClass c.toConverter (mk ps) = (ps.mapM (decodeValueSync c.toConverter)).map mk')
    (he : ∀ vs, encodeClass c (mk' vs) = (encodeValuesSync c vs).map mk) (ps : List Payload) :
    (decodeClass c.toConverter (mk ps) >>= encodeClass c) = .ok (mk ps) ↔ Stable c ps := by
  rw [hd, Stable]
  cases ps.mapM (decodeValueSync c.toConverter) with
  | error e => exact iff_of_false (fun h => by cases h) (fun h => by cases h)
  | ok vs =>
    rw [Except.map, ok_bind, ok_bind, he]
    cases encodeValuesSync c vs with
    | error e => exact iff_of_false (fun h => by cases h) (fun h => by cases h)
    | ok qs =>
      constructor
      · intro h
        rw [hinj qs ps (Except.ok.inj h)]
      · intro h
        rw [Except.ok.inj h]
        rfl

/-- Decoding the fields of an envelope and encoding them again gives them back
exactly when the details are stable. -/
theorem reencode_class {k : ExcFields} {info : FailureInfo Payload} (h : encodeClass c k = .ok info) :
    (decodeClass c.toConverter info >>= encodeClass c) = .ok info ↔ k.DetailsStable c := by
  -- The envelope's payloads are those the details encode to.
  have hstable {ps : List Payload} (hps : k.encodedDetails c = some (.ok ps)) : k.DetailsStable c ↔ Stable c ps := by
    rw [ExcFields.DetailsStable, hps]
    exact ⟨fun h => h ps rfl, fun h qs hqs => by cases hqs; exact h⟩
  have hnone (hk : k.encodedDetails c = none) : k.DetailsStable c := by
    intro ps hps
    rw [hk] at hps
    cases hps
  cases k with
  | applicationError t ds n d cat =>
    simp only [encodeClass, bind_eq_ok, pure_eq_ok] at h
    obtain ⟨ps, hps, rfl⟩ := h
    rw [hstable (congrArg some hps)]
    have hdelay : (d.map (·.totalSeconds)).map .ofSeconds = d := by cases d <;> simp
    exact reencode_details (fun ps => .applicationError t ps n cat (d.map (·.totalSeconds)))
      (fun vs => .applicationError t vs n d cat) (fun _ _ h => by cases h; rfl)
      (fun ps => by rw [decodeClass, hdelay]; exact bind_pure_map _ _) (fun vs => bind_pure_map _ _) ps
  | cancelledError ds =>
    simp only [encodeClass, bind_eq_ok, pure_eq_ok] at h
    obtain ⟨ps, hps, rfl⟩ := h
    rw [hstable (congrArg some hps)]
    exact reencode_details .cancelledError .cancelledError (fun _ _ h => by cases h; rfl)
      (fun ps => bind_pure_map _ _) (fun vs => bind_pure_map _ _) ps
  | terminatedError ds =>
    simp only [encodeClass, bind_eq_ok, pure_eq_ok] at h
    obtain ⟨ps, hps, rfl⟩ := h
    rw [hstable (congrArg some hps)]
    exact reencode_details .terminatedError .terminatedError (fun _ _ h => by cases h; rfl)
      (fun ps => bind_pure_map _ _) (fun vs => bind_pure_map _ _) ps
  | timeoutError t ds =>
    simp only [encodeClass, bind_eq_ok, pure_eq_ok] at h
    obtain ⟨ps, hps, rfl⟩ := h
    rw [hstable (congrArg some hps)]
    exact reencode_details (.timeoutError t) (.timeoutError t) (fun _ _ h => by cases h; rfl)
      (fun ps => bind_pure_map _ _) (fun vs => bind_pure_map _ _) ps
  | foreign name =>
    simp only [encodeClass, pure_eq_ok] at h
    subst h
    rw [hstable rfl]
    exact reencode_details (fun ps => .applicationError (some name) ps false .unspecified none)
      (fun vs => .applicationError (some name) vs false none .unspecified) (fun _ _ h => by cases h; rfl)
      (fun ps => bind_pure_map _ _) (fun vs => bind_pure_map _ _) []
  | activityError | childWorkflowError | serverError =>
    simp only [encodeClass, pure_eq_ok] at h
    subst h
    exact iff_of_true rfl (hnone rfl)

/-! ## The whole chain -/

/-- What survives of an exception: no stack trace, and details that re-encode
to themselves. -/
def TracedException.Survives (c : SyncConverter) (x : TracedException) : Prop :=
  ∀ y ∈ x.chain, y.stackTrace = "" ∧ y.cls.DetailsStable c

theorem reserialize_last {info : FailureInfo Payload} {message trace : String} :
    ((⟨info, message, trace, none⟩ : TracedEnvelope).deserializeFailure c.toConverter >>= TracedException.serializeFailure c) =
        .ok ⟨info, message, trace, none⟩ ↔
      trace = "" ∧ (decodeClass c.toConverter info >>= encodeClass c) = .ok info := by
  simp only [TracedEnvelope.deserializeFailure, bind_eq_ok, pure_eq_ok]
  constructor
  · rintro ⟨x, ⟨k, hk, rfl⟩, hx⟩
    simp only [TracedException.serializeFailure, bind_eq_ok, pure_eq_ok] at hx
    obtain ⟨info', hi, he⟩ := hx
    cases he
    exact ⟨rfl, k, hk, hi⟩
  · rintro ⟨rfl, k, hk, hi⟩
    refine ⟨_, ⟨k, hk, rfl⟩, ?_⟩
    simp only [TracedException.serializeFailure, bind_eq_ok, pure_eq_ok]
    exact ⟨info, hi, rfl⟩

theorem reserialize_cause {info : FailureInfo Payload} {message trace : String} {e : TracedEnvelope} :
    ((⟨info, message, trace, some e⟩ : TracedEnvelope).deserializeFailure c.toConverter >>= TracedException.serializeFailure c) =
        .ok ⟨info, message, trace, some e⟩ ↔
      trace = "" ∧ (decodeClass c.toConverter info >>= encodeClass c) = .ok info ∧
        (e.deserializeFailure c.toConverter >>= TracedException.serializeFailure c) = .ok e := by
  simp only [TracedEnvelope.deserializeFailure, bind_eq_ok, pure_eq_ok]
  constructor
  · rintro ⟨x, ⟨k, hk, y, hy, rfl⟩, hx⟩
    simp only [TracedException.serializeFailure, bind_eq_ok, pure_eq_ok] at hx
    obtain ⟨info', hi, e', he', he⟩ := hx
    cases he
    exact ⟨rfl, ⟨k, hk, hi⟩, y, hy, he'⟩
  · rintro ⟨rfl, ⟨k, hk, hi⟩, y, hy, he'⟩
    refine ⟨_, ⟨k, hk, y, hy, rfl⟩, ?_⟩
    simp only [TracedException.serializeFailure, bind_eq_ok, pure_eq_ok]
    exact ⟨info, hi, e, he', rfl⟩

theorem survives_cons {x y : TracedException} (h : x.chain = x :: y.chain) :
    x.Survives c ↔ x.stackTrace = "" ∧ x.cls.DetailsStable c ∧ y.Survives c := by
  rw [TracedException.Survives, TracedException.Survives, h, List.forall_mem_cons, and_assoc]

theorem survives_singleton {x : TracedException} (h : x.chain = [x]) : x.Survives c ↔ x.stackTrace = "" ∧ x.cls.DetailsStable c := by
  rw [TracedException.Survives, h, List.forall_mem_singleton]

/-- A converter of objects, by their text. -/
def echoConverter : SyncConverter where
  encode vs := .ok (vs.map fun | .obj s => ⟨s⟩ | _ => ⟨"null"⟩)
  decode ps _ := .ok (ps.map fun p => .obj p.text)
  codecEncode := .ok
  codecDecode := .ok
  decodeSync p := .ok (.obj p.text)
  encodeSync vs := .ok (vs.map fun | .obj s => ⟨s⟩ | _ => ⟨"null"⟩)

/-- The activity error the interpreter makes, with the application error it
was told. -/
def chargeFailed : TracedException where
  cls := .activityError "charge" "1" "" (some .maximumAttemptsReached)
  message := "Activity task failed"
  cause := some { cls := .applicationError (some "CardDeclined") [.obj "42"] true none .benign, message := "declined" }

def boomRaised : TracedException where
  cls := .applicationError none [] false none .unspecified
  message := "boom"
  traceback := some "  File 'work.py', line 3, in run"

end Dbosify
