/-
Retry policies, and the two clock-independent decisions both activity paths
share: whether and when to retry (`retryDecision`), and how long an attempt
may run (`effectiveDeadline`).
-/
import Dbosify.Failure

namespace Dbosify

/-- `common.RetryPolicy`. -/
structure RetryPolicy where
  initialInterval : Timedelta := ⟨1000000⟩
  backoffCoefficient : ℚ := 2
  maximumInterval : Option Timedelta := none
  maximumAttempts : Int := 0
  nonRetryableErrorTypes : Option (List String) := none
deriving DecidableEq, Repr

/-- `RetryPolicy._validate`: the message of the first check that fails. -/
def RetryPolicy.validate (p : RetryPolicy) : Option String :=
  if p.maximumAttempts = 1 then none
  else if p.initialInterval.totalSeconds < 0 then some "Initial interval cannot be negative"
  else if p.backoffCoefficient < 1 then some "Backoff coefficient cannot be less than 1"
  else
    let interval :=
      match p.maximumInterval with
      | some m =>
        if m.micros = 0 then none
        else if m.totalSeconds < 0 then some "Maximum interval cannot be negative"
        else if m.micros < p.initialInterval.micros then
          some "Maximum interval cannot be less than initial interval"
        else none
      | none => none
    if interval.isSome then interval
    else if p.maximumAttempts < 0 then some "Maximum attempts cannot be negative"
    else none

/-- The dict `serialize_retry_policy` makes. -/
structure SerializedRetryPolicy where
  initialInterval : Seconds
  backoffCoefficient : ℚ
  maximumInterval : Option Seconds
  maximumAttempts : Int
  nonRetryableErrorTypes : Option (List String)
deriving DecidableEq, Repr

/-- `payloads.serialize_retry_policy`. -/
def serializeRetryPolicy (p : RetryPolicy) : SerializedRetryPolicy where
  initialInterval := p.initialInterval.totalSeconds
  backoffCoefficient := p.backoffCoefficient
  maximumInterval := p.maximumInterval.map (·.totalSeconds)
  maximumAttempts := p.maximumAttempts
  nonRetryableErrorTypes := p.nonRetryableErrorTypes

/-- `payloads.deserialize_retry_policy`. -/
def deserializeRetryPolicy (e : SerializedRetryPolicy) : RetryPolicy where
  initialInterval := .ofSeconds e.initialInterval
  backoffCoefficient := e.backoffCoefficient
  maximumInterval := e.maximumInterval.map .ofSeconds
  maximumAttempts := e.maximumAttempts
  nonRetryableErrorTypes := e.nonRetryableErrorTypes

@[simp] theorem deserialize_serializeRetryPolicy (p : RetryPolicy) :
    deserializeRetryPolicy (serializeRetryPolicy p) = p := by
  obtain ⟨i, b, m, a, t⟩ := p
  cases m <;> simp [serializeRetryPolicy, deserializeRetryPolicy]

/-- The cap on a backoff: `maximum_interval` when it is set and not zero,
else a hundred initial intervals. -/
def RetryPolicy.cap (p : RetryPolicy) : Seconds :=
  match p.maximumInterval with
  | some m => if m.micros = 0 then p.initialInterval.totalSeconds * 100 else m.totalSeconds
  | none => p.initialInterval.totalSeconds * 100

/-- The backoff after attempt `attempt`: the override the failure carries, or
the capped exponential, computed before it is capped. -/
def backoff (p : RetryPolicy) (attempt : Nat) (failure : FailureEnvelope) : Except Exc Seconds :=
  match failure.nextRetryDelay with
  | some d => .ok d
  | none => do
    let factor ← pyPow p.backoffCoefficient (attempt - 1)
    .ok (min (p.initialInterval.totalSeconds * factor) p.cap)

/-- Why `failure` stops the retries before any delay is computed. -/
def stopState (p : RetryPolicy) (attempt : Nat) (failure : FailureEnvelope) : Option RetryState :=
  if failure.nonRetryable then some .nonRetryableFailure
  else if failure.type.any fun t => (p.nonRetryableErrorTypes.getD []).contains t then
    some .nonRetryableFailure
  else if failure.isTimeout .scheduleToClose then some .timeout
  else if p.maximumAttempts ≠ 0 ∧ p.maximumAttempts ≤ (attempt : Int) then
    some .maximumAttemptsReached
  else none

/-- `activities.retry_decision`: the backoff before the next attempt, or none
to give up, and the retry state to report when giving up. -/
def retryDecision (p : RetryPolicy) (attempt : Nat) (failure : FailureEnvelope)
    (elapsed scheduleToClose : Option Seconds) : Except Exc (Option Seconds × RetryState) :=
  match stopState p attempt failure with
  | some st => .ok (none, st)
  | none => do
    let delay ← backoff p attempt failure
    match scheduleToClose, elapsed with
    | some budget, some elapsed =>
      if budget ≤ elapsed + delay then .ok (none, .timeout) else .ok (some delay, .inProgress)
    | _, _ => .ok (some delay, .inProgress)

/-- Which bound an attempt's deadline is. -/
inductive DeadlineType | startToClose | scheduleToClose
deriving DecidableEq, Repr

/-- The timeout a deadline of this type reports. -/
def DeadlineType.timeoutType : DeadlineType → TimeoutType
  | .startToClose => .startToClose
  | .scheduleToClose => .scheduleToClose

/-- `activities.effective_deadline`: the smaller bound, start-to-close on a tie. -/
def effectiveDeadline (startToClose remainingScheduleToClose : Option Seconds) :
    Option Seconds × DeadlineType :=
  match startToClose, remainingScheduleToClose with
  | none, none => (none, .startToClose)
  | some s, none => (some (max 0 s), .startToClose)
  | none, some r => (some (max 0 r), .scheduleToClose)
  | some s, some r =>
    if max 0 s ≤ max 0 r then (some (max 0 s), .startToClose) else (some (max 0 r), .scheduleToClose)

/-! ## What a decision can be -/

/-- Without a schedule-to-close bound the elapsed time decides nothing. -/
theorem retryDecision_no_budget (p : RetryPolicy) (n : Nat) (f : FailureEnvelope) (e : Option Seconds) :
    retryDecision p n f e none = retryDecision p n f none none := by
  simp only [retryDecision]

/-- The decision without a schedule-to-close bound. -/
theorem retryDecision_unbounded (p : RetryPolicy) (n : Nat) (f : FailureEnvelope) (e : Option Seconds) :
    retryDecision p n f e none =
      match stopState p n f with
      | some st => .ok (none, st)
      | none => (backoff p n f).map fun d => (some d, .inProgress) := by
  simp only [retryDecision]
  cases stopState p n f with
  | some st => rfl
  | none => cases backoff p n f <;> rfl

/-- An attempt has a deadline when one of its bounds is set. -/
theorem effectiveDeadline_isSome (a b : Option Seconds) : (effectiveDeadline a b).1.isSome = (a.isSome || b.isSome) := by
  cases a <;> cases b <;> simp only [effectiveDeadline]
  case some.some => split <;> rfl
  all_goals rfl

/-- A cancelled failure carries nothing that stops the retries but the count. -/
theorem stopState_cancelled {p : RetryPolicy} {n : Nat} {f : FailureEnvelope} (h : f.isCancelledError = true) :
    stopState p n f =
      if p.maximumAttempts ≠ 0 ∧ p.maximumAttempts ≤ (n : Int) then some .maximumAttemptsReached else none := by
  obtain ⟨info, m, c⟩ := f
  cases info <;> simp [Failure.isCancelledError] at h
  simp [stopState, Failure.nonRetryable, Failure.type, Failure.isTimeout]

end Dbosify
