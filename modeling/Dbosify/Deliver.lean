/-
Event delivery: what the driver does with a task that is done
(`_deliver` and everything it calls).

Each function here is one method of the source. `deliver` walks the waiters
as they stood when the round began; what each event does to the waiters
still to come is the subject of `Rounds`.
-/
import Dbosify.Runtime

namespace Dbosify

open Py (Dict)

/-- An attempt's envelope, its result already decoded. -/
inductive AttemptEnvelope
  | ok (result : Value) (endedAt : Seconds)
  | failed (failure : FailureEnvelope) (endedAt : Seconds) (retryState : Option RetryState)
  | asyncPending (startedAt endedAt : Seconds)

/-- A child's envelope, its result already decoded. -/
inductive ChildEnvelope
  | ok (result : Value) (endedAt : Seconds)
  | failed (failure : FailureEnvelope) (endedAt : Seconds)

/-- What a finished task holds (`task.result()`). -/
inductive TaskResult
  | slept
  | message (m : Option Message)
  | attempt (e : AttemptEnvelope)
  | child (e : ChildEnvelope)
  | raised (message : String)

/-- The tasks a round reports done, with their results. -/
abbrev Done := Nat → Option TaskResult

/-- The done set with these tasks. -/
def Done.of (l : List (Nat × TaskResult)) : Done := fun t => (l.find? (·.1 = t)).map (·.2)

/-- The results an operation's task can end with. -/
def Op.yields : Op → TaskResult → Bool
  | .sleep _, .slept | .recv _, .message _ => true
  | .attempt .., .attempt _ | .attempt .., .raised _ => true
  | .activityResult _, .attempt (.asyncPending _ _) => false
  | .activityResult _, .attempt _ | .activityResult _, .raised _ => true
  | .childResult _, .child _ | .childResult _, .raised _ => true
  | _, _ => false

theorem Op.yields_recv {t : Seconds} {r : TaskResult} (h : (Op.recv t).yields r = true) : ∃ m, r = .message m := by
  cases r <;> simp [Op.yields] at h ⊢

theorem Op.yields_attempt {k n : Nat} {d : Option Seconds} {t : DeadlineType} {r : TaskResult}
    (h : (Op.attempt k n d t).yields r = true) : (∃ e, r = .attempt e) ∨ ∃ m, r = .raised m := by
  cases r <;> simp [Op.yields] at h ⊢

theorem Op.yields_activityResult {i : String} {r : TaskResult} (h : (Op.activityResult i).yields r = true) :
    (∃ e, r = .attempt e ∧ ∀ a b, e ≠ .asyncPending a b) ∨ ∃ m, r = .raised m := by
  cases r with
  | attempt e => cases e <;> simp [Op.yields] at h ⊢
  | raised m => simp
  | slept | message | child => simp [Op.yields] at h

theorem Op.yields_childResult {i : String} {r : TaskResult} (h : (Op.childResult i).yields r = true) :
    (∃ e, r = .child e) ∨ ∃ m, r = .raised m := by
  cases r <;> simp [Op.yields] at h ⊢

/-- The failure an exception of the program's own serializes to. -/
def Exc.serialize (e : Exc) : FailureEnvelope :=
  let app (type message : String) : FailureEnvelope :=
    { info := .applicationError (some type) [] false .unspecified none, message }
  match e with
  | .valueError m => app "ValueError" m
  | .keyError m => app "KeyError" m
  | .typeError m => app "TypeError" m
  | .attributeError m => app "AttributeError" m
  | .runtimeError m => app "RuntimeError" m
  | .assertionError => app "AssertionError" ""
  | .invalidStateError => app "InvalidStateError" ""
  | .overflowError => app "OverflowError" ""
  | .readOnlyContextError m => app "ReadOnlyContextError" m
  | .nondeterminismError m => app "NondeterminismError" m
  | .visibilityQueryError m => app "VisibilityQueryError" m
  | .conversionError m => app "ConversionError" m
  | .taskError m => app "Exception" m

namespace Interp

/-- An await that suspends only when there is something to convert. -/
def awaitIf (s : Interp) (b : Bool) : Interp := if b then s.await else s

/-! ## Activities -/

/-- `_launch_attempt`: the step is called here, so it is numbered here. -/
def launchAttempt (x : Execution) (s : Interp) (seq : Nat) (e : ActivityExec) : M Interp := do
  attemptStepFor x s e.activityName
  let s := s.setActivity seq .launched
  let remaining := e.scheduleToClose.map fun b => b - (s.timeSeconds - e.scheduledAt)
  let d := effectiveDeadline e.startToClose remaining
  .ok (s.launchWaiter .activity seq (.attempt seq e.attempt d.1 d.2))

/-- `self._retry_decision`: elapsed comes from virtual time. -/
def retryDecision (s : Interp) (e : ActivityExec) (failure : FailureEnvelope) :
    Except Exc (Option Seconds × RetryState) :=
  let elapsed := if e.scheduleToClose.isSome then some (s.timeSeconds - e.scheduledAt) else none
  Dbosify.retryDecision e.retryPolicy e.attempt failure elapsed e.scheduleToClose

/-- `_activity_failure_cause`. -/
def activityFailureCause (c : Converter) (failure : FailureEnvelope) (retryState : Option RetryState) :
    Except Exc FailureError := do
  let cause ← deserializeFailure c failure
  if retryState = some .timeout ∧ ¬ cause.isTimeoutError then
    return { info := .timeoutError (some .scheduleToClose) []
             message := "activity Schedule-To-Close timeout", cause := some cause }
  else return cause

/-- The `ActivityError` an activity that gives up fails with. -/
def activityError (e : ActivityExec) (message : String) (retryState : Option RetryState) (cause : FailureError) :
    FailureError :=
  { info := .activityError e.activityName e.activityId "" retryState, message, cause := some cause }

/-- `future.set_result` and `future.set_exception`. -/
def resolveActivity (s : Interp) (seq : Nat) (e : ActivityExec) (o : ActivityOutcome) : M Interp :=
  if e.futureCancelled then raise s .invalidStateError else .ok (s.wake (.activity seq o))

/-- The backoff wait before the next attempt. -/
def launchBackoff (s : Interp) (seq : Nat) (delay : Seconds) : Interp :=
  let s := s.setActivity seq (.backOff delay)
  s.launchWaiter .activity seq (.sleep delay)

/-- The exec is dropped and its future fails. -/
def failActivity (env : Env) (s : Interp) (seq : Nat) (e : ActivityExec) (failure : FailureEnvelope)
    (retryState : Option RetryState) : M Interp := do
  let s := s.popActivity seq
  let cause ← lift s (activityFailureCause env.converter failure retryState)
  s.resolveActivity seq e (.failed (activityError e "Activity task failed" retryState cause))

/-- Retry after a backoff, or give up. -/
def retryOrFail (env : Env) (s : Interp) (seq : Nat) (e : ActivityExec) (failure : FailureEnvelope) : M Interp := do
  let (retryDelay, retryState) ← lift s (s.retryDecision e failure)
  match retryDelay with
  | some delay => .ok (s.launchBackoff seq delay)
  | none => s.failActivity env seq e failure (some retryState)

/-- The deadline of a park, if it has one. -/
def armDeadline (s : Interp) (seq : Nat) (parked : Option Seconds × DeadlineType) : Interp :=
  match parked.1 with
  | some d =>
    let parkSeconds := max (1 / 20) d
    (s.setActivity seq (.parkFor parked.2.timeoutType parkSeconds)).launchWaiter .actS2c seq (.sleep parkSeconds)
  | none => s

/-- The heartbeat window of a park, if it has one. -/
def armHeartbeat (s : Interp) (seq : Nat) (heartbeatTimeout : Option Seconds) : Interp :=
  match heartbeatTimeout with
  | some hb => (s.setActivity seq (.heartbeat false)).launchWaiter .actHb seq (.sleep hb)
  | none => s

/-- The park of an attempt that completes asynchronously. -/
def parkActivity (s : Interp) (seq : Nat) (e : ActivityExec) (startedAt endedAt : Seconds) : Interp :=
  let s := s.setActivity seq .park
  let s2cRemaining := e.startToClose.map (· - max (endedAt - startedAt) 0)
  let stcRemaining := e.scheduleToClose.map fun b => b - (s.timeSeconds - e.scheduledAt)
  (s.armDeadline seq (effectiveDeadline s2cRemaining stcRemaining)).armHeartbeat seq e.heartbeatTimeout

/-- `exec_state.cancel_requested and isinstance(deserialize_failure(failure), CancelledError)`: the attempt
observed the request and unwound. -/
def confirmsCancel (env : Env) (s : Interp) (e : ActivityExec) (failure : FailureEnvelope) : M Bool :=
  if e.cancelRequested then (lift s (deserializeFailure env.converter failure)).map (·.isCancelledError)
  else .ok false

/-- `_deliver_activity_event`. -/
def deliverActivityEvent (x : Execution) (env : Env) (s : Interp) (seq : Nat) (r : TaskResult) : M Interp :=
  match s.pendingActivities.get? seq with
  | none => .ok (s.popActivity seq)
  | some e =>
    if e.futureCancelled then .ok (s.popActivity seq)
    else if e.inBackoff then
      let s := s.advanceTime (some (s.timeSeconds + e.pendingWaitSeconds))
      (s.setActivity seq .nextAttempt).launchAttempt x seq e.nextAttempt
    else
      match r with
      | .attempt (.asyncPending startedAt endedAt) =>
        .ok ((s.advanceTime (some endedAt)).parkActivity seq e startedAt endedAt)
      | .attempt (.ok result endedAt) =>
        ((s.advanceTime (some endedAt)).popActivity seq).resolveActivity seq e (.completed result)
      | .attempt (.failed failure endedAt _) => do
        let s := s.advanceTime (some endedAt)
        if ← s.confirmsCancel env e failure then .ok ((s.popActivity seq).wake (.activity seq .cancelled))
        else s.retryOrFail env seq e failure
      | .raised m => raise s (.taskError m)
      | _ => raise s (.typeError "not an envelope")

/-- `_deliver_queued_activity_event`: the activity workflow has retried
already, so whatever arrives is the end. -/
def deliverQueuedActivityEvent (env : Env) (s : Interp) (seq : Nat) (r : TaskResult) : M Interp :=
  match s.pendingActivities.get? seq with
  | none => .ok (s.popActivity seq)
  | some e =>
    if e.futureCancelled then .ok (s.popActivity seq)
    else
      match r with
      | .attempt (.ok result endedAt) =>
        ((s.advanceTime (some endedAt)).popActivity seq).resolveActivity seq e (.completed result)
      | .attempt (.failed failure endedAt retryState) => do
        let s := (s.advanceTime (some endedAt)).popActivity seq
        if ← s.confirmsCancel env e failure then .ok (s.wake (.activity seq .cancelled))
        else s.failActivity env seq e failure retryState
      | .attempt (.asyncPending _ endedAt) =>
        raise ((s.advanceTime (some endedAt)).popActivity seq) (.keyError "ok")
      | .raised m => raise s (.taskError m)
      | _ => raise s (.typeError "not an envelope")

/-- `_retire_parked_timers`. -/
def retireParkedTimers (s : Interp) (seq : Nat) : Interp :=
  { s with waiters := s.waiters.filter fun w => ¬ ((w.kind = .actS2c ∨ w.kind = .actHb) ∧ w.seq = seq) }

/-- `_fail_async_attempt`. -/
def failAsyncAttempt (env : Env) (s : Interp) (seq : Nat) (e : ActivityExec) (failure : FailureEnvelope) : M Interp :=
  (s.setActivity seq .unpark).retryOrFail env seq e.unpark failure

/-- The message of a parked activity's timeout. -/
def parkedTimeoutMessage : TimeoutType → String
  | .scheduleToClose => "activity Schedule-To-Close timeout"
  | .startToClose => "activity Start-To-Close timeout"
  | .heartbeat | .scheduleToStart => "activity Heartbeat timeout"

/-- `_async_parked_timeout`. -/
def asyncParkedTimeout (env : Env) (s : Interp) (seq : Nat) (t : TimeoutType) : M Interp :=
  match s.pendingActivities.get? seq with
  | none => .ok s
  | some e =>
    if ¬ e.asyncPending then .ok s
    else (s.retireParkedTimers seq).failAsyncAttempt env seq e (timeoutFailure (parkedTimeoutMessage t) t)

/-- The `act_s2c` branch of `_deliver`: the park is charged to virtual time. -/
def deliverParkTimeout (env : Env) (s : Interp) (seq : Nat) : M Interp :=
  match s.pendingActivities.get? seq with
  | none => s.asyncParkedTimeout env seq .startToClose
  | some e =>
    let s := s.advanceTime (some (s.timeSeconds + e.pendingWaitSeconds))
    (s.setActivity seq .charged).asyncParkedTimeout env seq e.asyncParkTimeoutType

/-- `_async_heartbeat_check`. -/
def asyncHeartbeatCheck (env : Env) (s : Interp) (seq : Nat) : M Interp :=
  match s.pendingActivities.get? seq with
  | none => .ok s
  | some e =>
    if ¬ e.asyncPending then .ok s
    else if ¬ e.asyncHbSeen then s.asyncParkedTimeout env seq .heartbeat
    else
      let s := s.setActivity seq (.heartbeat false)
      match e.heartbeatTimeout with
      | some hb => .ok (s.launchWaiter .actHb seq (.sleep hb))
      | none => raise s .assertionError

/-- `_async_pending_by_id`. -/
def asyncPendingById (s : Interp) (activityId : String) : Option (Nat × ActivityExec) :=
  s.pendingActivities.entries.find? fun e => e.2.activityId = activityId ∧ e.2.asyncPending

/-- `_apply_activity_result`. -/
def applyActivityResult (x : Execution) (env : Env) (s : Interp) (activityId : String) (completion : Completion) :
    M Interp :=
  match s.asyncPendingById activityId with
  | none => .ok s
  | some (seq, e) =>
    let s := s.retireParkedTimers seq
    match completion with
    | .cancelled => .ok ((s.popActivity seq).wake (.activity seq .cancelled))
    | .ok result => do
      let s := (s.popActivity seq).await
      let value ← lift s (decodeValue env.converter result (x.activityRetType e.activityName))
      s.resolveActivity seq e (.completed value)
    | .failed failure => s.failAsyncAttempt env seq e failure

/-- `_apply_activity_heartbeat`. -/
def applyActivityHeartbeat (env : Env) (s : Interp) (activityId : String) (details : List Payload) : M Interp :=
  match s.asyncPendingById activityId with
  | none => .ok s
  | some (seq, _) => do
    let s := (s.setActivity seq (.heartbeat true)).awaitIf (!details.isEmpty)
    let _ ← lift s (decodeValues env.converter details none)
    .ok s

/-! ## Timers and children -/

/-- `_deliver_timer`. -/
def deliverTimer (s : Interp) (seq : Nat) : Interp :=
  match s.pendingTimers.get? seq with
  | none => s
  | some t => ({ s with pendingTimers := s.pendingTimers.pop seq }.advanceTime (some t)).wake (.timer seq)

/-- `_deliver_child_event`. -/
def deliverChildEvent (env : Env) (s : Interp) (seq : Nat) (r : TaskResult) : M Interp :=
  match s.pendingChildren.get? seq with
  | none => .ok s
  | some c =>
    let s := { s with pendingChildren := s.pendingChildren.pop seq }
    if c.resultCancelled then .ok s
    else
      match r with
      | .child (.ok result endedAt) => .ok ((s.advanceTime (some endedAt)).wake (.childResult seq (.completed result)))
      | .child (.failed failure endedAt) => do
        let s := s.advanceTime (some endedAt)
        let cause ← lift s (deserializeFailure env.converter failure)
        .ok (s.wake (.childResult seq (.failed
          { info := .childWorkflowError "" c.childId c.childId c.typeName none
            message := "Child workflow execution failed", cause := some cause })))
      | .raised m => raise s (.taskError m)
      | _ => raise s (.typeError "not an envelope")

/-! ## Messages -/

/-- `_decode_message_args`: a dynamic handler takes the name and the raw
payloads. -/
def decodeMessageArgs (env : Env) (s : Interp) (defn : Option HandlerDefn) (name : String) (args : List Payload) :
    M (List Value × Interp) := do
  let s := s.awaitIf (!args.isEmpty)
  let dynamic := defn.any (·.name.isNone)
  if dynamic then
    let raw ← lift s (decodeValues env.converter args (some (List.replicate args.length Hint.rawValue)))
    return ([.str name, .list raw], s)
  else
    let values ← lift s (decodeValues env.converter args (defn.bind (·.argTypes)))
    return (values, s)

/-- `conversion.decode_headers`, awaited by the driver. -/
def decodeMessageHeaders (env : Env) (s : Interp) (headers : Headers) : M (Headers × Interp) := do
  let s := s.awaitIf (!headers.isEmpty)
  let h ← lift s (decodeHeaders env.converter headers)
  return (h, s)

/-- `_spawn_handler`. -/
def spawnHandler (s : Interp) (h : Handler) : Interp :=
  { s with
    inflightHandlers := s.inflightHandlers.set s.nextTask h
    nextTask := s.nextTask + 1
    ready := s.ready ++ [.handler s.nextTask] }

/-- `_apply_signal`: buffered for want of a handler, dropped when its
arguments do not decode. -/
def applySignal (x : Execution) (env : Env) (s : Interp) (e : SignalEnvelope) : M Interp :=
  match s.resolveSignal x e.name with
  | none =>
    .ok { s with bufferedSignals := s.bufferedSignals.set e.name ((s.bufferedSignals.get? e.name).getD [] ++ [e]) }
  | some defn =>
    match s.decodeMessageArgs env (some defn) e.name e.args with
    | .error r => .ok r.state
    | .ok (args, s) => do
      let (headers, s) ← s.decodeMessageHeaders env e.headers
      .ok (s.spawnHandler { kind := .signal, name := e.name, args, headers })

/-- `_apply_update`, its arguments decoded. -/
def applyUpdate (x : Execution) (env : Env) (s : Interp) (e : UpdateEnvelope) (args : List Value) : M Interp :=
  if s.seenUpdateIds.contains e.updateId then .ok s
  else
    let s := { s with seenUpdateIds := s.seenUpdateIds ++ [e.updateId] }
    let reject (s : Interp) (failure : FailureEnvelope) : Interp :=
      (s.reply (.updateAcceptance e.updateId) ⟨.rejected, .inr failure⟩).reply (.updateResult e.updateId)
        ⟨.rejected, .inr failure⟩
    match s.resolveUpdate x e.name with
    | none => .ok (reject s (nonRetryableFailure ("update handler '" ++ e.name ++ "' not found") "NotFoundError"))
    | some defn => do
      let (headers, s) ← s.decodeMessageHeaders env e.headers
      let s := if defn.hasValidator then s.step (.validateUpdate e.updateId) else s
      let verdict := if defn.hasValidator then env.validator e.name args else none
      match verdict with
      | some failure => .ok (reject s failure)
      | none =>
        .ok ((s.reply (.updateAcceptance e.updateId) ⟨.accepted, .inl .none⟩).spawnHandler
          { kind := .update, name := e.name, id := some e.updateId, args, headers })

/-- `_apply_query`, its arguments decoded: whatever the handler raises is the
answer. -/
def applyQuery (x : Execution) (env : Env) (s : Interp) (e : QueryEnvelope) (args : List Value) : Interp :=
  let failed (s : Interp) (failure : FailureEnvelope) : Interp :=
    s.reply (.queryResult e.requestId) ⟨.failed, .inr failure⟩
  match s.resolveQuery x e.name with
  | none => failed s (nonRetryableFailure ("query handler '" ++ e.name ++ "' not found") "NotFoundError")
  | some defn =>
    match s.decodeMessageHeaders env e.headers with
    | .error r => failed r.state r.exc.serialize
    | .ok (_, s) =>
      if defn.accepts args.length then
        match env.query e.name args with
        | .ok v => s.reply (.queryResult e.requestId) ⟨.completed, .inl v⟩
        | .error f => failed s f
      else failed s (Exc.typeError "wrong number of arguments").serialize

/-- `_apply_cancel`: only the first one counts. -/
def applyCancel (s : Interp) (reason : String) : Interp :=
  if s.cancelRequested then s
  else
    let s := { s with cancelRequested := true, cancelReason := if reason.isEmpty then none else some reason }
    if s.primaryDone then s else s.wake .cancelPrimary

/-- `_deliver_inbox`. -/
def deliverInbox (x : Execution) (env : Env) (s : Interp) (m : Option Message) : M Interp :=
  match m with
  | none => .ok s
  | some m =>
    let s := s.advanceTime m.sentAt
    match m with
    | .signal e => s.applySignal x env e
    | .update e => do
      let (args, s) ← s.decodeMessageArgs env (s.resolveUpdate x e.name) e.name e.args
      s.applyUpdate x env e args
    | .query e => do
      let (args, s) ← s.decodeMessageArgs env (s.resolveQuery x e.name) e.name e.args
      .ok (s.applyQuery x env e args)
    | .activityResult activityId completion _ => s.applyActivityResult x env activityId completion
    | .activityHeartbeat activityId details _ => s.applyActivityHeartbeat env activityId details
    | .cancel reason _ => .ok (s.applyCancel reason)
    | .rehydrateStop _ => .ok { s with rehydrateStop := true }
    | .unknown _ _ | .malformed => .ok s

/-! ## A round -/

/-- One event: what `_deliver` does with a waiter whose task is done, once it
is off the list. -/
def deliverEvent (x : Execution) (env : Env) (s : Interp) (w : Waiter) (r : TaskResult) : M Interp :=
  match w.kind with
  | .inbox =>
    match r with
    | .message m => s.deliverInbox x env m
    | .raised m => raise s (.taskError m)
    | _ => raise s (.typeError "not a message")
  | .timer => .ok (s.deliverTimer w.seq)
  | .activity => s.deliverActivityEvent x env w.seq r
  | .qActivity => s.deliverQueuedActivityEvent env w.seq r
  | .actS2c => s.deliverParkTimeout env w.seq
  | .actHb => s.asyncHeartbeatCheck env w.seq
  | .child => s.deliverChildEvent env w.seq r

/-- One turn of `_deliver`'s loop. -/
def deliverWaiter (x : Execution) (env : Env) (done : Done) (s : Interp) (w : Waiter) : M Interp :=
  match done w.task with
  | none => .ok s
  | some r => do
    let s ← s.removeWaiter w
    s.deliverEvent x env w r

/-- `_deliver`. -/
def deliver (x : Execution) (env : Env) (done : Done) (s : Interp) : M Interp :=
  s.waiters.foldlM (deliverWaiter x env done) s

end Interp

end Dbosify
