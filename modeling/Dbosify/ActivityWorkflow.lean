/-
The activity workflow: an activity on a queue of its own, its whole retry loop
on the worker that runs it (`_run_queued_activity`).

The loop is written as the states between its awaits: an attempt, a park for
external completion, a backoff. Each `next…` function runs from one await to
the next.
-/
import Dbosify.Backoff

namespace Dbosify

/-- The payload of an activity workflow, and the instants its first two steps
record. -/
structure QueuedActivity where
  activityName : String
  activityId : String
  startToClose : Option Seconds
  scheduleToClose : Option Seconds
  scheduleToStart : Option Seconds := none
  retryPolicy : Option SerializedRetryPolicy
  attempt : Nat := 1
  createdAt : Option Seconds := none
  startedAt : Seconds

/-- An attempt step's envelope, its result still encoded. -/
inductive StepEnvelope
  | ok (result : Payload) (endedAt : Seconds)
  | failed (failure : FailureEnvelope) (endedAt : Seconds)
  | asyncPending (startedAt endedAt : Seconds)

/-- The envelope the workflow returns. -/
inductive QueuedEnvelope
  | ok (result : Payload) (endedAt : Seconds)
  | failed (failure : FailureEnvelope) (endedAt : Seconds) (retryState : Option RetryState)

/-- What a parked workflow receives. -/
inductive ParkMessage
  | heartbeat
  | completion (c : Completion) (sentAt : Option Seconds)

/-- Between two awaits of the loop. -/
inductive QueuedState
  | attempting (attempt : Nat) (deadline : Option Seconds) (deadlineType : DeadlineType)
  /-- `endedAt` is the parked attempt's. -/
  | parked (attempt : Nat) (endedAt timeout : Seconds) (deadlineType : DeadlineType)
  | backingOff (attempt : Nat) (elapsed delay : Seconds)
  | returned (envelope : QueuedEnvelope)
  | raised (exc : Exc)

/-- `inbox.RECV_TIMEOUT_SECONDS`. -/
def recvTimeoutSeconds : Seconds := 3600

/-- The failure a deadline of this type reports. -/
def DeadlineType.failure : DeadlineType → FailureEnvelope
  | .startToClose => timeoutFailure "activity Start-To-Close timeout" .startToClose
  | .scheduleToClose => timeoutFailure "activity Schedule-To-Close timeout" .scheduleToClose

namespace QueuedActivity

variable (q : QueuedActivity)

def policy : RetryPolicy := (q.retryPolicy.map deserializeRetryPolicy).getD {}

/-- Whether the activity sat in the queue past `schedule_to_start`. -/
def startedLate : Bool :=
  match q.scheduleToStart, q.createdAt with
  | some bound, some created => decide (bound < q.startedAt - created)
  | _, _ => false

/-- An attempt begins, bounded by what is left of the budget. -/
def begin (attempt : Nat) (elapsedBefore : Seconds) : QueuedState :=
  let d := effectiveDeadline q.startToClose (q.scheduleToClose.map (· - elapsedBefore))
  .attempting attempt d.1 d.2

/-- Before the loop. -/
def initial : QueuedState :=
  if q.startedLate then
    .returned (.failed (timeoutFailure "activity Schedule-To-Start timeout" .scheduleToStart) q.startedAt (some .timeout))
  else q.begin q.attempt 0

/-- An attempt has failed: a cancellation is the end, another failure is
retried by the policy. -/
def failAttempt (attempt : Nat) (failure : FailureEnvelope) (endedAt : Seconds) : QueuedState :=
  if failure.isCancelledError then .returned (.failed failure endedAt none)
  else
    let elapsed := endedAt - q.startedAt
    match retryDecision q.policy attempt failure (some elapsed) q.scheduleToClose with
    | .error e => .raised e
    | .ok (none, state) => .returned (.failed failure endedAt (some state))
    | .ok (some delay, _) => .backingOff attempt elapsed delay

/-- `recv`'s timeout in a park: the deadline, less the time the attempt took. -/
def parkTimeout (deadline : Option Seconds) (startedAt endedAt : Seconds) : Seconds :=
  match deadline with
  | some d => max 0 (d - max 0 (endedAt - startedAt))
  | none => recvTimeoutSeconds

/-- The attempt step returns. -/
def nextAttempted (attempt : Nat) (deadline : Option Seconds) (deadlineType : DeadlineType) : StepEnvelope → QueuedState
  | .ok result endedAt => .returned (.ok result endedAt)
  | .failed failure endedAt => q.failAttempt attempt failure endedAt
  | .asyncPending startedAt endedAt => .parked attempt endedAt (parkTimeout deadline startedAt endedAt) deadlineType

/-- `recv` returns in `_await_async_completion`. A heartbeat is no completion:
the same `recv` begins anew. A timeout is stamped with the parked attempt's
end. -/
def nextReceived (attempt : Nat) (endedAt timeout : Seconds) (deadlineType : DeadlineType) :
    Option ParkMessage → QueuedState
  | none => q.failAttempt attempt deadlineType.failure endedAt
  | some .heartbeat => .parked attempt endedAt timeout deadlineType
  | some (.completion .cancelled sentAt) => q.failAttempt attempt activityCancelledFailure (sentAt.getD endedAt)
  | some (.completion (.ok result) sentAt) => .returned (.ok result (sentAt.getD endedAt))
  | some (.completion (.failed failure) sentAt) => q.failAttempt attempt failure (sentAt.getD endedAt)

/-- The backoff is over. -/
def nextSlept (attempt : Nat) (elapsed delay : Seconds) : QueuedState := q.begin (attempt + 1) (elapsed + delay)

end QueuedActivity

/-- `_await_activity_result`: an activity workflow that raised ends in a
failure like any other. -/
def awaitActivityResult (now : Seconds) : QueuedState → Option QueuedEnvelope
  | .returned envelope => some envelope
  | .raised e => some (.failed e.serialize now none)
  | .attempting .. | .parked .. | .backingOff .. => none

/-- `_decode_activity_result`: what the waiter's task ends with. -/
def decodeActivityResult (x : Execution) (env : Env) (e : ActivityExec) (result : Payload) (endedAt : Seconds) : TaskResult :=
  match decodeValue env.converter result (e.resultType <|> x.activityRetType e.activityName) with
  | .ok v => .attempt (.ok v endedAt)
  | .error (.conversionError m) => .raised m
  | .error _ => .raised ""

/-- The same, for the envelope of an activity workflow. -/
def QueuedEnvelope.decode (x : Execution) (env : Env) (e : ActivityExec) : QueuedEnvelope → TaskResult
  | .ok result endedAt => decodeActivityResult x env e result endedAt
  | .failed failure endedAt retryState => .attempt (.failed failure endedAt retryState)

/-- The payload `_launch_queued_activity` makes of an exec. -/
def ActivityExec.queued (e : ActivityExec) (createdAt : Option Seconds) (startedAt : Seconds) : QueuedActivity where
  activityName := e.activityName
  activityId := e.activityId
  startToClose := e.startToClose
  scheduleToClose := e.scheduleToClose
  scheduleToStart := e.scheduleToStart
  retryPolicy := some (serializeRetryPolicy e.retryPolicy)
  attempt := e.attempt
  createdAt
  startedAt

/-- The policy an activity workflow reads is the one the exec has. -/
@[simp] theorem ActivityExec.queued_policy (e : ActivityExec) (c : Option Seconds) (t : Seconds) :
    (e.queued c t).policy = e.retryPolicy := by
  simp [ActivityExec.queued, QueuedActivity.policy]

end Dbosify
