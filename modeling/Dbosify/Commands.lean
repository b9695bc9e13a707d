/-
From the virtual loop to DBOS: the sweep of what was cancelled, the commands
a drain queued, and the replies.
-/
import Dbosify.Deliver

namespace Dbosify

open Py (Dict)

namespace Interp

/-! ## Shared pieces -/

/-- `_resolve_own_queue`, read once. -/
def resolveOwnQueue (x : Execution) (env : Env) (s : Interp) : Interp :=
  if s.ownQueueResolved then s
  else { s.step (.status x.workflowId) with ownQueueName := env.ownQueue, ownQueueResolved := true }

/-- `_resolve_current_run`: each probe round is a step of its own. -/
def resolveCurrentRun (env : Env) (s : Interp) (workflowId : String) : Interp :=
  (List.range (env.probeRounds workflowId)).foldl (fun s i => s.step (.statusList workflowId i)) s

/-- `cancel_envelope()`, sent to where a chain runs now. -/
def sendCancel (env : Env) (s : Interp) (workflowId : String) : Interp :=
  (s.resolveCurrentRun env workflowId).step (.send (env.currentRun workflowId) (.cancel "" (some env.now)))

/-- `_signal_queued_activity_cancel`. -/
def signalQueuedActivityCancel (env : Env) (s : Interp) (e : ActivityExec) (dbosId : String) : Interp :=
  (s.step (.setEvent (.activityCancel e.activityId) .flag)).step
    (.send dbosId (.activityResult e.activityId .cancelled (some env.now)))

/-- `_check_replay_horizon`. Outside a replay it reads nothing; the look is
traced all the same, where it would have been. -/
def checkReplayHorizon (x : Execution) (s : Interp) : M Interp :=
  let s := s.emit .look
  if x.replayMode.isSome ∧ x.replayHorizon ≤ s.functionId x then
    raise s (.nondeterminismError
      ("workflow type '" ++ x.defn.name ++ "' produced new commands beyond its recorded history"))
  else .ok s

/-! ## The sweep -/

/-- A queued activity asked to confirm its cancellation stays open. -/
def sweepWait (env : Env) (s : Interp) (seq : Nat) : Interp :=
  match s.pendingActivities.get? seq with
  | none => s
  | some e =>
    match e.queuedDbosId with
    | some d => s.signalQueuedActivityCancel env e d
    | none => s

/-- A cancelled activity is dropped, with its waiters; unless it is
abandoned, it is told. -/
def sweepActivity (env : Env) (s : Interp) (seq : Nat) : Interp :=
  match s.pendingActivities.get? seq with
  | none => s
  | some e =>
    let s := s.popActivity seq
    let s :=
      match e.cancellationType, e.queuedDbosId with
      | .abandon, _ | _, none => s
      | _, some d => s.signalQueuedActivityCancel env e d
    let s := if e.asyncPending then s.step (.setEvent (.asyncActivityGone e.activityId) .flag) else s
    { s with waiters := s.waiters.filter fun w => !w.ofActivity seq }

/-- A child whose result nobody awaits any more. -/
def sweepChild (env : Env) (s : Interp) (seq : Nat) : Interp :=
  match s.pendingChildren.get? seq with
  | none => s
  | some c =>
    let s := { s with
      pendingChildren := s.pendingChildren.pop seq
      waiters := s.waiters.filter fun w => ¬ (w.kind = .child ∧ w.seq = seq) }
    if c.cancellationType ≠ .abandon ∧ c.started then s.sendCancel env c.childId else s

/-- `_sweep_cancellations`. -/
def sweepCancellations (env : Env) (s : Interp) : Interp :=
  let waits := s.queuedWaitCancelSeqs
  let s := waits.foldl (sweepWait env) { s with queuedWaitCancelSeqs := [] }
  let seqs := s.cancelledActivitySeqs
  let s := seqs.foldl (sweepActivity env) { s with cancelledActivitySeqs := [] }
  let children := s.cancelledChildSeqs
  children.foldl (sweepChild env) { s with cancelledChildSeqs := [] }

/-! ## Buffered signals -/

/-- `_flush_pending_handler_signals`: whether any were delivered. -/
def flushPendingHandlerSignals (x : Execution) (env : Env) (s : Interp) : M (Bool × Interp) :=
  if s.pendingHandlerFlush.isEmpty then .ok (false, s)
  else do
    let pending := s.pendingHandlerFlush
    let s ← pending.foldlM (applySignal x env) { s with pendingHandlerFlush := [] }
    .ok (true, s)

/-! ## Commands -/

/-- The `timer` command: an expired timer fires without a durable sleep. -/
def processTimer (x : Execution) (s : Interp) (seq : Nat) : M (Bool × Interp) :=
  match s.pendingTimers.get? seq with
  | none => .ok (false, s)
  | some t =>
    let realDelay := t - s.timeSeconds
    if realDelay ≤ 0 then
      .ok (true, { s with pendingTimers := s.pendingTimers.pop seq }.wake (.timer seq))
    else do
      let s ← s.checkReplayHorizon x
      .ok (false, s.launchWaiter .timer seq (.sleep realDelay))

/-- `conversion.encode_values` and `encode_headers`, awaited by the driver:
without headers there is nothing to suspend on. -/
def encodeCall (env : Env) (s : Interp) (args : List Value) (headers : Headers) :
    M ((List Payload × Headers) × Interp) := do
  let s := s.await
  let ps ← lift s (encodeValues env.converter args)
  let s := s.awaitIf (!headers.isEmpty)
  let hs ← lift s (encodeHeaders env.converter headers)
  .ok ((ps, hs), s)

/-- `_launch_queued_activity`. -/
def launchQueuedActivity (x : Execution) (env : Env) (s : Interp) (seq : Nat) (e : ActivityExec) (queue : String) :
    M Interp :=
  let dbosId := activityDbosId x.workflowId seq
  let s := s.await
  let refused (s : Interp) (cause : FailureError) : M Interp :=
    let s := s.popActivity seq
    if e.futureCancelled then .ok s
    else
      s.resolveActivity seq e (.failed
        (activityError e ("Failed to schedule activity on task queue '" ++ queue ++ "'") none cause))
  let app (type message : String) : FailureError :=
    { info := .applicationError (some type) [] false .unspecified none, message }
  if ¬ env.queueExists queue then
    refused s (app "RuntimeError" ("Task queue '" ++ queue ++ "' is not registered"))
  else
    let s := s.step (.enqueue dbosId)
    match env.enqueueFails dbosId with
    | some message => refused s (app "Exception" message)
    | none =>
      let s := s.setActivity seq (.dispatched dbosId)
      let s := s.launchWaiter .qActivity seq (.activityResult dbosId)
      .ok (if e.cancelRequested then s.signalQueuedActivityCancel env e dbosId else s)

/-- The `activity` command. -/
def processActivity (x : Execution) (env : Env) (s : Interp) (seq : Nat) : M Interp :=
  match s.pendingActivities.get? seq with
  | none => .ok s
  | some e => do
    let ((ps, hs), s) ← s.encodeCall env e.args e.headers
    let s := s.setActivity seq (.encoded ps hs)
    let e := e.encoded ps hs
    let s := if e.taskQueue.isSome then s.resolveOwnQueue x env else s
    let s ← s.checkReplayHorizon x
    match e.taskQueue with
    | none => s.launchAttempt x seq e
    | some queue =>
      if some queue = s.ownQueueName then s.launchAttempt x seq e else s.launchQueuedActivity x env seq e queue

/-- The enqueue of a child, as far as the `try` of `_start_child` goes. An
error is the failure the start future gets. -/
def enqueueChild (x : Execution) (env : Env) (s : Interp) (c : ChildExec) : Except (FailureEnvelope × Interp) Interp :=
  let app (type message : String) : FailureEnvelope :=
    { info := .applicationError (some type) [] false .unspecified none, message }
  if ¬ env.workflowRegistered c.typeName then
    .error (app "KeyError" ("Workflow type '" ++ c.typeName ++ "' is not registered"), s)
  else
    let s := s.step (.childExists c.childId)
    if env.childIdTaken c.childId then
      .error (app "WorkflowAlreadyStartedError" "Workflow execution already started", s)
    else
      let s := s.resolveOwnQueue x env
      let s := if (c.taskQueue.or s.ownQueueName).isSome then s.await else s
      let s := { s with childrenRegistry := s.childrenRegistry ++ [(c.childId, c.parentClosePolicy)] }
      let s := s.step (.setEvent .children (.children s.childrenRegistry))
      match s.encodeCall env c.args c.headers with
      | .error r => .error (r.exc.serialize, r.state)
      | .ok (_, s) =>
        let s := s.step (.enqueue c.childId)
        match env.enqueueFails c.childId with
        | some message => .error (app "Exception" message, s)
        | none => .ok s

/-- `_start_child`. -/
def startChild (x : Execution) (env : Env) (s : Interp) (seq : Nat) (c : ChildExec) : Interp :=
  match s.enqueueChild x env c with
  | .error (failure, s) =>
    let s := { s with pendingChildren := s.pendingChildren.pop seq }
    if c.startCancelled then s else s.wake (.childStart seq (some failure))
  | .ok s =>
    let s := { s with pendingChildren := s.pendingChildren.modify seq fun c => { c with started := true } }
    let s := if c.startCancelled then s else s.wake (.childStart seq none)
    s.launchWaiter .child seq (.childResult c.childId)

/-- The envelope a send carries: a signal's arguments and headers are encoded
on the way. -/
def encodeOutgoing (env : Env) (s : Interp) : Outgoing → M (Message × Interp)
  | .cancel reason sentAt => .ok (.cancel reason sentAt, s)
  | .signal name args headers sentAt => do
    let ((args, headers), s) ← s.encodeCall env args headers
    .ok (.signal { name, args, headers, sentAt }, s)

/-- The `send` command. -/
def processSend (x : Execution) (env : Env) (s : Interp) (seq : Nat) : M Interp := do
  let s ← s.checkReplayHorizon x
  match s.pendingSends.get? seq with
  | none => raise s (.keyError (toString seq))
  | some p =>
    let s := { s with pendingSends := s.pendingSends.pop seq }
    let (message, s) ← s.encodeOutgoing env p.envelope
    let s := if p.resolveChain then s.resolveCurrentRun env p.target else s
    let target := if p.resolveChain then env.currentRun p.target else p.target
    let s := s.step (.send target message)
    if p.futureCancelled then .ok s
    else
      .ok (s.wake (.send seq ((env.sendFails target).map fun m =>
        { info := .applicationError (some "Exception") [] false .unspecified none, message := m })))

/-- The `attributes` command: the write of the memo as it is now. -/
def processAttributes (x : Execution) (env : Env) (s : Interp) : M Interp := do
  let s := s.await
  let _ ← lift s (encodeValues env.converter s.memo.values)
  let s ← s.checkReplayHorizon x
  .ok (s.step .updateAttributes)

/-- The `patch` command. -/
def processPatch (x : Execution) (s : Interp) (seq : Nat) : M Interp :=
  match s.pendingPatches.get? seq with
  | none => raise s (.keyError (toString seq))
  | some id => do
    let s ← { s with pendingPatches := s.pendingPatches.pop seq }.checkReplayHorizon x
    .ok (s.step (.patch id))

/-- One turn of `_process_commands`'s loop: whether it made progress. -/
def processCommand (x : Execution) (env : Env) (s : Interp) : Command → M (Bool × Interp)
  | .timer seq => s.processTimer x seq
  | .activity seq => (s.processActivity x env seq).map (false, ·)
  | .child seq => do
    let s ← s.checkReplayHorizon x
    match s.pendingChildren.get? seq with
    | none => raise s (.keyError (toString seq))
    | some c => .ok (true, s.startChild x env seq c)
  | .send seq => (s.processSend x env seq).map (true, ·)
  | .attributes => (s.processAttributes x env).map (false, ·)
  | .patch seq => (s.processPatch x seq).map (false, ·)

/-- `_process_commands`, over the commands still to come. -/
def processCommands (x : Execution) (env : Env) : List Command → Bool → Interp → M (Bool × Interp)
  | [], progressed, s => .ok (progressed, s)
  | c :: cs, progressed, s => do
    let (p, s) ← s.processCommand x env c
    processCommands x env cs (progressed || p) s

/-! ## Replies and the inbox waiter -/

/-- `_flush_outbox`, one reply: a result is encoded on the way. -/
def flushReply (env : Env) (s : Interp) (entry : EventKey × Reply) : M Interp :=
  match entry.2.body with
  | .inl v => do
    let s := s.await
    let p ← lift s (encodeValue env.converter v)
    .ok (s.step (.setEvent entry.1 (.reply entry.2.status (.inl p))))
  | .inr f => .ok (s.step (.setEvent entry.1 (.reply entry.2.status (.inr f))))

/-- `_flush_outbox`. -/
def flushOutbox (env : Env) (s : Interp) : M Interp :=
  s.outbox.foldlM (flushReply env) { s with outbox := [] }

/-- `RECV_TIMEOUT_SECONDS`, or the rehydrate poll. -/
def recvTimeout (x : Execution) : Seconds := if x.replayMode = some .rehydrate then 1 else 3600

/-- `_ensure_inbox_waiter`. -/
def ensureInboxWaiter (x : Execution) (s : Interp) : Interp :=
  if s.waiters.any (·.kind = .inbox) then s else s.launchWaiter .inbox 0 (.recv (recvTimeout x))

end Interp

end Dbosify
