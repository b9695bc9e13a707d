/-
The failure envelope: the serialized form of the exception tree, and the
exceptions rebuilt from it.

An envelope and the exception it stands for have one shape (`Failure`), over
payloads and over values. `cls` is the constructor of `FailureInfo`; a key
an envelope of that class does not have reads as its default, as `.get` does.
-/
import Dbosify.Values

namespace Dbosify

inductive TimeoutType | startToClose | scheduleToStart | scheduleToClose | heartbeat
deriving DecidableEq, Repr

inductive RetryState
  | inProgress | nonRetryableFailure | timeout | maximumAttemptsReached | retryPolicyNotSet
  | internalServerError | cancelRequested
deriving DecidableEq, Repr

inductive ApplicationErrorCategory | unspecified | benign
deriving DecidableEq, Repr

/-- The fields of each exception class, with details of type `δ`. -/
inductive FailureInfo (δ : Type)
  | applicationError (type : Option String) (details : List δ) (nonRetryable : Bool)
      (category : ApplicationErrorCategory) (nextRetryDelay : Option Seconds)
  | cancelledError (details : List δ)
  | terminatedError (details : List δ)
  | timeoutError (type : Option TimeoutType) (lastHeartbeatDetails : List δ)
  | activityError (activityType activityId identity : String) (retryState : Option RetryState)
  | childWorkflowError (workflowNamespace workflowId runId workflowType : String)
      (retryState : Option RetryState)
  | serverError (nonRetryable : Bool)
deriving DecidableEq, Repr

structure Failure (δ : Type) where
  info : FailureInfo δ
  message : String
  cause : Option (Failure δ) := none

/-- `payloads.FailureEnvelope`. -/
abbrev FailureEnvelope := Failure Payload

/-- An exception of the `FailureError` family. -/
abbrev FailureError := Failure Value

namespace Failure

variable {δ : Type}

/-- `failure.get("non_retryable")`. -/
def nonRetryable (f : Failure δ) : Bool :=
  match f.info with
  | .applicationError _ _ b _ _ | .serverError b => b
  | _ => false

/-- `failure.get("type")`: the user-defined type, never the class. -/
def type (f : Failure δ) : Option String :=
  match f.info with
  | .applicationError t _ _ _ _ => t
  | _ => none

/-- `failure.get("next_retry_delay")`. -/
def nextRetryDelay (f : Failure δ) : Option Seconds :=
  match f.info with
  | .applicationError _ _ _ _ d => d
  | _ => none

/-- `failure.get("cls") == "CancelledError"`. -/
def isCancelledError (f : Failure δ) : Bool :=
  match f.info with
  | .cancelledError _ => true
  | _ => false

/-- `failure.get("cls") == "TimeoutError" and failure.get("timeout_type") == t`. -/
def isTimeout (f : Failure δ) (t : TimeoutType) : Bool :=
  match f.info with
  | .timeoutError t' _ => t' = some t
  | _ => false

/-- `isinstance(exc, exceptions.TimeoutError)`. -/
def isTimeoutError (f : Failure δ) : Bool :=
  match f.info with
  | .timeoutError _ _ => true
  | _ => false

end Failure

/-! ## Envelope to exception -/

/-- Details decoded, each without a hint (`_decode_details`). -/
def decodeDetails (c : Converter) : FailureInfo Payload → Except Exc (FailureInfo Value)
  | .applicationError t ds n cat d => do return .applicationError t (← ds.mapM (decodeValueSync c)) n cat d
  | .cancelledError ds => do return .cancelledError (← ds.mapM (decodeValueSync c))
  | .terminatedError ds => do return .terminatedError (← ds.mapM (decodeValueSync c))
  | .timeoutError t ds => do return .timeoutError t (← ds.mapM (decodeValueSync c))
  | .activityError t i w r => return .activityError t i w r
  | .childWorkflowError n w r t s => return .childWorkflowError n w r t s
  | .serverError n => return .serverError n

/-- `payloads.deserialize_failure`, cause chain included. -/
def deserializeFailure (c : Converter) : FailureEnvelope → Except Exc FailureError
  | ⟨info, message, none⟩ => do
    let info ← decodeDetails c info
    return { info, message }
  | ⟨info, message, some cause⟩ => do
    let info ← decodeDetails c info
    let cause ← deserializeFailure c cause
    return { info, message, cause := some cause }

/-- `serialize_failure(exceptions.TimeoutError(message, type=t, last_heartbeat_details=[]))`. -/
def timeoutFailure (message : String) (t : TimeoutType) : FailureEnvelope :=
  { info := .timeoutError (some t) [], message }

/-- `serialize_failure(exceptions.CancelledError("Activity cancelled"))`. -/
def activityCancelledFailure : FailureEnvelope :=
  { info := .cancelledError [], message := "Activity cancelled" }

/-- `serialize_failure(exceptions.ApplicationError(message, type=t, non_retryable=True))`. -/
def nonRetryableFailure (message type : String) : FailureEnvelope :=
  { info := .applicationError (some type) [] true .unspecified none, message }

/-! ## The class survives -/

theorem decodeDetails_isCancelledError {c : Converter} {i : FailureInfo Payload} {j : FailureInfo Value}
    (h : decodeDetails c i = .ok j) (m m' : String) (p : Option FailureEnvelope) (q : Option FailureError) :
    (Failure.mk j m q).isCancelledError = (Failure.mk i m' p).isCancelledError := by
  cases i <;> simp only [decodeDetails, bind_eq_ok, pure_eq_ok] at h
  case activityError | childWorkflowError | serverError => subst h; rfl
  all_goals obtain ⟨_, _, rfl⟩ := h; rfl

/-- Deserializing keeps the class. -/
theorem deserializeFailure_isCancelledError {c : Converter} {f : FailureEnvelope} {e : FailureError}
    (h : deserializeFailure c f = .ok e) : e.isCancelledError = f.isCancelledError := by
  obtain ⟨info, message, _ | cause⟩ := f
  · simp only [deserializeFailure, bind_eq_ok, pure_eq_ok] at h
    obtain ⟨j, hj, rfl⟩ := h
    exact decodeDetails_isCancelledError hj _ _ _ _
  · simp only [deserializeFailure, bind_eq_ok, pure_eq_ok] at h
    obtain ⟨j, hj, _, _, rfl⟩ := h
    exact decodeDetails_isCancelledError hj _ _ _ _

/-- A failure whose details all decode deserializes. -/
def DetailsDecode (c : Converter) : FailureEnvelope → Prop
  | ⟨info, _, none⟩ => (decodeDetails c info).isOk = true
  | ⟨info, _, some cause⟩ => (decodeDetails c info).isOk = true ∧ DetailsDecode c cause

theorem deserializeFailure_isOk {c : Converter} : ∀ {f : FailureEnvelope},
    (∃ e, deserializeFailure c f = .ok e) ↔ DetailsDecode c f
  | ⟨info, message, none⟩ => by
    simp only [deserializeFailure, DetailsDecode]
    cases decodeDetails c info <;> simp [Except.isOk, Except.toBool, pure, Except.pure]
  | ⟨info, message, some cause⟩ => by
    have ih := @deserializeFailure_isOk c cause
    simp only [deserializeFailure, DetailsDecode]
    cases decodeDetails c info with
    | error e => simp [Except.isOk, Except.toBool]
    | ok j =>
      simp only [ok_bind, bind_eq_ok, pure_eq_ok]
      constructor
      · rintro ⟨_, e, he, _⟩; exact ⟨rfl, ih.1 ⟨e, he⟩⟩
      · rintro ⟨_, hc⟩; obtain ⟨e, he⟩ := ih.2 hc; exact ⟨_, e, he, rfl⟩

end Dbosify
