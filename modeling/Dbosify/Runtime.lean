/-
What workflow code asks of the interpreter while the virtual loop drains:
the `runtime_*` methods, the handles' cancels, and the ends of the
coroutines.

A drain runs user code until every coroutine is parked. That code is an
arbitrary `Code`: it asks one thing after another, and what it asks next may
depend on everything the interpreter holds.
-/
import Dbosify.Interp

namespace Dbosify

open Py (Dict)

/-- The arguments of `runtime_start_activity`. -/
structure StartActivity where
  activityName : String
  args : List Value := []
  scheduleToCloseTimeout : Option Timedelta := none
  startToCloseTimeout : Option Timedelta := none
  retryPolicy : Option RetryPolicy := none
  activityId : Option String := none
  cancellationType : ActivityCancellationType := .tryCancel
  heartbeatTimeout : Option Timedelta := none
  resultType : Option Hint := none
  taskQueue : Option String := none
  scheduleToStartTimeout : Option Timedelta := none
  headers : Headers := []

/-- The arguments of `runtime_start_child_workflow`. -/
structure StartChild where
  typeName : String
  args : List Value := []
  childId : Option String := none
  taskQueue : Option String := none
  parentClosePolicy : ParentClosePolicy := .terminate
  cancellationType : ChildCancellationType := .tryCancel
  headers : Headers := []

/-- `t.total_seconds() if t else None`: a zero timedelta is falsy. -/
def secondsOf (t : Option Timedelta) : Option Seconds :=
  match t with
  | some d => if d.micros = 0 then none else some d.totalSeconds
  | none => none

inductive HandlerCategory | signal | query | update
deriving DecidableEq, Repr

namespace Interp

/-- `_assert_not_read_only`. -/
def assertNotReadOnly (s : Interp) (what : String) : M Unit :=
  if s.readOnly then raise s (.readOnlyContextError ("Cannot " ++ what ++ " in a read-only context")) else .ok ()

/-! ## Timers -/

/-- `_create_timer`. -/
def createTimer (s : Interp) (delay : Seconds) : M Interp := do
  s.assertNotReadOnly "start a timer"
  if delay < 0 then raise s (.valueError "Timer delay cannot be negative")
  else
    let seq := s.timerSeq + 1
    .ok { s with
      timerSeq := seq
      pendingTimers := s.pendingTimers.set seq (s.timeSeconds + delay)
      commands := s.commands ++ [.timer seq] }

/-- `_cancel_timer`: its waiter, if it has one, is retired with it. -/
def cancelTimer (s : Interp) (seq : Nat) : Interp :=
  if (s.pendingTimers.get? seq).isNone then s
  else
    { s with
      pendingTimers := s.pendingTimers.pop seq
      waiters := s.waiters.filter fun w => ¬ (w.kind = .timer ∧ w.seq = seq) }

/-! ## Activities -/

/-- `activity_id or f"{seq}"`. -/
def resolvedActivityId (a : StartActivity) (seq : Nat) : String :=
  match a.activityId with
  | some i => if i.isEmpty then toString seq else i
  | none => toString seq

/-- `attempt_step_for`. -/
def attemptStepFor (x : Execution) (s : Interp) (activityName : String) : M Unit :=
  if x.registered activityName then .ok ()
  else raise s (.keyError ("Activity type '" ++ activityName ++ "' is not registered with this worker"))

/-- The exec `runtime_start_activity` makes. -/
def newExec (s : Interp) (a : StartActivity) (seq : Nat) : ActivityExec where
  activityName := a.activityName
  args := a.args
  retryPolicy := a.retryPolicy.getD {}
  startToClose := secondsOf a.startToCloseTimeout
  scheduleToClose := secondsOf a.scheduleToCloseTimeout
  activityId := resolvedActivityId a seq
  scheduledAt := s.timeSeconds
  cancellationType := a.cancellationType
  heartbeatTimeout := secondsOf a.heartbeatTimeout
  resultType := a.resultType
  taskQueue := a.taskQueue
  scheduleToStart := secondsOf a.scheduleToStartTimeout
  headers := a.headers

/-- `runtime_start_activity`. -/
def startActivity (x : Execution) (s : Interp) (a : StartActivity) : M Interp := do
  s.assertNotReadOnly "start an activity"
  if a.taskQueue.isNone then attemptStepFor x s a.activityName
  let seq := s.activitySeq + 1
  let s := { s with activitySeq := seq }
  if s.pendingActivities.values.any (·.activityId = resolvedActivityId a seq) then
    raise s (.valueError ("Activity id '" ++ resolvedActivityId a seq ++ "' is already in use"))
  else
    match (a.retryPolicy.getD {}).validate with
    | some message => raise s (.valueError message)
    | none =>
      .ok { s with
        pendingActivities := s.pendingActivities.set seq (s.newExec a seq)
        commands := s.commands ++ [.activity seq] }

/-- The future of a pending exec is cancelled; its done callback queues the
seq for the sweep. A future is cancelled once. -/
def cancelActivityFuture (s : Interp) (seq : Nat) : Interp :=
  match s.pendingActivities.get? seq with
  | none => s
  | some e =>
    if e.futureCancelled then s
    else
      { s with
        pendingActivities := s.pendingActivities.modify seq .cancelFuture
        cancelledActivitySeqs := s.cancelledActivitySeqs ++ [seq] }

/-- `_request_activity_cancel`: an explicit `handle.cancel()`. -/
def requestActivityCancel (s : Interp) (seq : Nat) : Interp :=
  match s.pendingActivities.get? seq with
  | none => s
  | some e =>
    if e.cancellationType = .waitCancellationCompleted ∧ ¬ e.asyncPending then
      let s := s.setActivity seq .askCancel
      if e.queuedDbosId.isSome then { s with queuedWaitCancelSeqs := s.queuedWaitCancelSeqs ++ [seq] } else s
    else s.cancelActivityFuture seq

/-! ## Children and sends -/

/-- `runtime_start_child_workflow`, up to the await of its start. -/
def startChildWorkflow (x : Execution) (s : Interp) (c : StartChild) : M Interp := do
  s.assertNotReadOnly "start a child workflow"
  let seq := s.childSeq + 1
  let s := { s with childSeq := seq }
  match c.childId.bind validateWorkflowId with
  | some message => raise s (.valueError message)
  | none =>
    let child : ChildExec :=
      { typeName := c.typeName
        childId := c.childId.getD (x.workflowId ++ "_" ++ toString seq)
        args := c.args
        taskQueue := c.taskQueue
        parentClosePolicy := c.parentClosePolicy
        cancellationType := c.cancellationType
        headers := c.headers }
    .ok { s with
      pendingChildren := s.pendingChildren.set seq child
      commands := s.commands ++ [.child seq] }

/-- The coroutine awaiting the start is cancelled. -/
def cancelChildStart (s : Interp) (seq : Nat) : Interp :=
  { s with pendingChildren := s.pendingChildren.modify seq fun c => { c with startCancelled := true } }

/-- The result future is cancelled. Only a started child has handed it out;
the done callback queues the seq for the sweep. -/
def cancelChildResult (s : Interp) (seq : Nat) : Interp :=
  match s.pendingChildren.get? seq with
  | none => s
  | some c =>
    if ¬ c.started ∨ c.resultCancelled then s
    else
      { s with
        pendingChildren := s.pendingChildren.modify seq fun c => { c with resultCancelled := true }
        cancelledChildSeqs := s.cancelledChildSeqs ++ [seq] }

/-- `runtime_send_to_workflow`, up to its await. -/
def sendToWorkflow (s : Interp) (target : String) (envelope : Outgoing) (resolveChain : Bool) : M Interp := do
  s.assertNotReadOnly "send to a workflow"
  let seq := s.sendSeq + 1
  .ok { s with
    sendSeq := seq
    pendingSends := s.pendingSends.set seq { target, envelope, resolveChain }
    commands := s.commands ++ [.send seq] }

def cancelSend (s : Interp) (seq : Nat) : Interp :=
  { s with pendingSends := s.pendingSends.modify seq fun p => { p with futureCancelled := true } }

/-! ## Attributes and patches -/

/-- `runtime_upsert_memo`: `None` deletes. -/
def upsertMemo (s : Interp) (updates : List (String × Option Value)) : M Interp := do
  s.assertNotReadOnly "upsert memo"
  let memo := updates.foldl (fun m u =>
    match u.2 with
    | none => m.pop u.1
    | some v => m.set u.1 v) s.memo
  .ok { s with memo, commands := s.commands ++ [.attributes] }

/-- `runtime_is_replaying`. -/
def isReplaying (x : Execution) (s : Interp) : Bool := s.functionId x < x.replayHorizon

/-- `_patch`: the value it returns is the one it memoizes. -/
def patch (x : Execution) (s : Interp) (id : String) : M Interp := do
  s.assertNotReadOnly "use patched/deprecate_patch"
  if (s.patchesMemoized.get? id).isSome then .ok s
  else
    let use := !s.isReplaying x || x.patchesRecorded.contains id
    let s := { s with patchesMemoized := s.patchesMemoized.set id use }
    if use then
      let seq := s.patchSeq + 1
      .ok { s with
        patchSeq := seq
        pendingPatches := s.pendingPatches.set seq id
        commands := s.commands ++ [.patch seq] }
    else .ok s

/-! ## Handlers -/

/-- `runtime_set_handler`: a signal handler also takes the signals buffered
for want of it. -/
def setHandler (s : Interp) (category : HandlerCategory) (name : Option String)
    (handler : Option HandlerDefn) : M Interp := do
  s.assertNotReadOnly "set a handler"
  match category with
  | .query => .ok { s with queryOverrides := s.queryOverrides.set name handler }
  | .update => .ok { s with updateOverrides := s.updateOverrides.set name handler }
  | .signal =>
    let s := { s with signalOverrides := s.signalOverrides.set name handler }
    if handler.isNone then .ok s
    else
      match name with
      | none =>
        .ok { s with
          pendingHandlerFlush := s.pendingHandlerFlush ++ s.bufferedSignals.values.flatten
          bufferedSignals := .empty }
      | some n =>
        .ok { s with
          pendingHandlerFlush := s.pendingHandlerFlush ++ (s.bufferedSignals.get? n).getD []
          bufferedSignals := s.bufferedSignals.pop n }

/-- `_record_workflow_error`. -/
def recordWorkflowError (x : Execution) (s : Interp) (e : WorkflowExc) : Interp :=
  match e with
  | .nondeterminism _ => s.setOutcome (if x.replayMode.isSome then .failure e else .taskFailure e)
  | _ =>
    if s.cancelRequested ∧ e.isCancelled then s.setOutcome (.cancelled e)
    else if e.isFailure then s.setOutcome (.failure (.failureError e.serialize))
    else s.setOutcome (.taskFailure e)

/-- `exceptions.CancelledError("Workflow cancelled")`. -/
def workflowCancelled : WorkflowExc :=
  .failureError { info := .cancelledError [], message := "Workflow cancelled" }

/-- `_run_primary`, once the run function has ended. -/
def primaryEnds (x : Execution) (s : Interp) (e : Ending) : Interp :=
  let s := { s with primaryDone := true }
  match e with
  | .returned v => s.setOutcome (.ok v)
  | .continueAsNew can => s.setOutcome (.continueAsNew can)
  | .raised .asyncCancelled =>
    s.setOutcome (if s.cancelRequested then .cancelled workflowCancelled else .failure workflowCancelled)
  | .raised e => s.recordWorkflowError x e

/-- The reply an update handler that ends so publishes, if it does. -/
def replyOf : Ending → Option Reply
  | .returned v => some ⟨.completed, .inl v⟩
  | .continueAsNew _ => none
  | .raised e => if e.isFailure then some ⟨.failed, .inr e.serialize⟩ else none

/-- `_run_signal_handler` and `_run_update_handler`, once the handler has
ended, with the done callback. -/
def handlerEnds (x : Execution) (s : Interp) (task : Nat) (e : Ending) : Interp :=
  match s.inflightHandlers.get? task with
  | none => s
  | some h =>
    let s := { s with inflightHandlers := s.inflightHandlers.pop task }
    match h.kind, h.id, e with
    | _, _, .continueAsNew can => s.setOutcome (.continueAsNew can)
    | .update, some u, e =>
      match replyOf e, e with
      | some r, _ => s.reply (.updateResult u) r
      | none, .raised e => s.recordWorkflowError x e
      | none, _ => s
    | _, _, .raised e => s.recordWorkflowError x e
    | _, _, .returned _ => s

/-- `_resolve`: a runtime override beats the definition; exact, else
dynamic; an unset falls through to the dynamic one. -/
def resolve (overrides : Dict (Option String) (Option HandlerDefn)) (defns : Dict (Option String) HandlerDefn)
    (name : String) : Option HandlerDefn :=
  let dynamic :=
    match overrides.get? none with
    | some (some d) => some d
    | _ => defns.get? none
  match overrides.get? (some name) with
  | some (some d) => some d
  | some none => dynamic
  | none => (defns.get? (some name)).or dynamic

def resolveSignal (x : Execution) (s : Interp) (name : String) : Option HandlerDefn :=
  resolve s.signalOverrides x.defn.signals name

def resolveQuery (x : Execution) (s : Interp) (name : String) : Option HandlerDefn :=
  resolve s.queryOverrides x.defn.queries name

def resolveUpdate (x : Execution) (s : Interp) (name : String) : Option HandlerDefn :=
  resolve s.updateOverrides x.defn.updates name

/-- The first step of a handler's task (`_RootWorkflowInbound`): the name is
resolved again, and a function that cannot take these arguments raises
before any of its code runs. -/
def startHandler (x : Execution) (s : Interp) (task : Nat) : Interp :=
  match s.inflightHandlers.get? task with
  | none => s
  | some h =>
    let start (defn : HandlerDefn) : Interp :=
      if defn.accepts h.args.length then s
      else s.handlerEnds x task (.raised (.other "TypeError" "wrong number of arguments"))
    match h.kind with
    | .signal => ((s.resolveSignal x h.name).map start).getD (s.handlerEnds x task (.returned .none))
    | .update =>
      ((s.resolveUpdate x h.name).map start).getD (s.handlerEnds x task (.raised (.other "AssertionError" "")))

end Interp

/-! ## Drains -/

/-- One thing user code asks of the interpreter. -/
inductive UserOp
  | startActivity (a : StartActivity)
  | requestActivityCancel (seq : Nat)
  | cancelActivityAwait (seq : Nat)
  | createTimer (delay : Seconds)
  | cancelTimer (seq : Nat)
  | startChildWorkflow (c : StartChild)
  | cancelChildStart (seq : Nat)
  | cancelChildResult (seq : Nat)
  | sendToWorkflow (target : String) (envelope : Outgoing) (resolveChain : Bool)
  | cancelSend (seq : Nat)
  | upsertMemo (updates : List (String × Option Value))
  | patched (id : String)
  | setHandler (category : HandlerCategory) (name : Option String) (handler : Option HandlerDefn)
  | startHandler (task : Nat)
  | handlerEnds (task : Nat) (e : Ending)
  | primaryEnds (e : Ending)
  /-- A wait condition's predicate raises, and the drain is aborted. -/
  | abort (e : WorkflowExc)

/-- What one request does. An exception goes to the user code that asked. -/
def UserOp.run (x : Execution) (s : Interp) : UserOp → M Interp
  | startActivity a => s.startActivity x a
  | requestActivityCancel seq => .ok (s.requestActivityCancel seq)
  | cancelActivityAwait seq => .ok (s.cancelActivityFuture seq)
  | createTimer delay => s.createTimer delay
  | cancelTimer seq => .ok (s.cancelTimer seq)
  | startChildWorkflow c => s.startChildWorkflow x c
  | cancelChildStart seq => .ok (s.cancelChildStart seq)
  | cancelChildResult seq => .ok (s.cancelChildResult seq)
  | sendToWorkflow target envelope chain => s.sendToWorkflow target envelope chain
  | cancelSend seq => .ok (s.cancelSend seq)
  | upsertMemo updates => s.upsertMemo updates
  | patched id => s.patch x id
  | setHandler category name handler => s.setHandler category name handler
  | startHandler task => .ok (s.startHandler x task)
  | handlerEnds task e => .ok (s.handlerEnds x task e)
  | primaryEnds e => .ok (s.primaryEnds x e)
  | abort e => .ok (s.recordWorkflowError x e)

/-- User code between two parks: it parks, or it asks something and goes on
from what it finds. -/
inductive Code
  | park
  | ask (o : UserOp) (k : Interp → Code)

/-- The state a fallible piece leaves, whether it raised or not. -/
def M.state (m : M Interp) : Interp :=
  match m with
  | .ok s => s
  | .error r => r.state

/-- `_drain`. -/
def Code.drain (x : Execution) (s : Interp) : Code → Interp
  | park => s
  | ask o k =>
    let s' := (o.run x s).state
    (k s').drain x s'

/-- What holds of a state and survives each request of user code survives a
drain. -/
theorem Code.drain_induct {x : Execution} {P : Interp → Prop}
    (hs : ∀ {s} (o : UserOp), P s → P (o.run x s).state) (c : Code) : ∀ {s}, P s → P (c.drain x s) := by
  induction c with
  | park => intro s h; exact h
  | ask o k ih => intro s h; exact ih _ (hs o h)

end Dbosify
