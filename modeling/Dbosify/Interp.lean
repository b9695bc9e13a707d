/-
The interpreter's state: `Interpreter.__init__`, with the dataclasses it
keeps and the history of the calls it makes to DBOS.

The virtual loop itself is user code and is not here. What the interpreter
hands to it (`ready`) and what it asks of the interpreter (`Runtime`) are.
`trace` is what the driver coroutine did since it last suspended for
certain, and `past` the stretches before that: it is from these that DBOS
numbers the operations (`functionId`).
-/
import Dbosify.Dict
import Dbosify.EventLoop
import Dbosify.Ids
import Dbosify.Inbox
import Dbosify.Retry

namespace Dbosify

open Py (Dict)

/-! ## Activities and children -/

/-- `ActivityCancellationType`. -/
inductive ActivityCancellationType | tryCancel | waitCancellationCompleted | abandon
deriving DecidableEq, Repr

/-- `ChildWorkflowCancellationType`. -/
inductive ChildCancellationType | abandon | tryCancel | waitCancellationCompleted | waitCancellationRequested
deriving DecidableEq, Repr

/-- `ParentClosePolicy`. -/
inductive ParentClosePolicy | unspecified | terminate | abandon | requestCancel
deriving DecidableEq, Repr

/-- `_ActivityExec`. The future is on the virtual loop; what the interpreter
asks of it is whether it was cancelled. -/
structure ActivityExec where
  activityName : String
  args : List Value
  encodedArgs : List Payload := []
  retryPolicy : RetryPolicy
  startToClose : Option Seconds
  scheduleToClose : Option Seconds
  activityId : String
  scheduledAt : Seconds
  futureCancelled : Bool := false
  cancellationType : ActivityCancellationType := .tryCancel
  attempt : Nat := 1
  inBackoff : Bool := false
  pendingWaitSeconds : Seconds := 0
  cancelRequested : Bool := false
  asyncPending : Bool := false
  asyncParkTimeoutType : TimeoutType := .startToClose
  heartbeatTimeout : Option Seconds := none
  asyncHbSeen : Bool := false
  resultType : Option Hint := none
  taskQueue : Option String := none
  queuedDbosId : Option String := none
  scheduleToStart : Option Seconds := none
  headers : Headers := []

/-! The changes an exec goes through. -/

namespace ActivityExec

/-- `future.cancel()`. -/
def cancelFuture (e : ActivityExec) : ActivityExec := { e with futureCancelled := true }

/-- A cancellation the attempt is to confirm. -/
def askCancel (e : ActivityExec) : ActivityExec := { e with cancelRequested := true }

def encoded (args : List Payload) (headers : Headers) (e : ActivityExec) : ActivityExec :=
  { e with encodedArgs := args, headers }

def dispatched (dbosId : String) (e : ActivityExec) : ActivityExec := { e with queuedDbosId := some dbosId }

/-- An attempt is launched. -/
def launched (e : ActivityExec) : ActivityExec := { e with inBackoff := false }

def backOff (delay : Seconds) (e : ActivityExec) : ActivityExec := { e with inBackoff := true, pendingWaitSeconds := delay }

/-- The backoff is over: its wait is charged, the next attempt is due. -/
def nextAttempt (e : ActivityExec) : ActivityExec := { e with pendingWaitSeconds := 0, attempt := e.attempt + 1 }

def park (e : ActivityExec) : ActivityExec := { e with asyncPending := true }

/-- The park's deadline is armed. -/
def parkFor (t : TimeoutType) (seconds : Seconds) (e : ActivityExec) : ActivityExec :=
  { e with asyncParkTimeoutType := t, pendingWaitSeconds := seconds }

def unpark (e : ActivityExec) : ActivityExec := { e with asyncPending := false }

/-- The park's wait is charged. -/
def charged (e : ActivityExec) : ActivityExec := { e with pendingWaitSeconds := 0 }

def heartbeat (seen : Bool) (e : ActivityExec) : ActivityExec := { e with asyncHbSeen := seen }

end ActivityExec

/-- `_ChildExec`. -/
structure ChildExec where
  typeName : String
  childId : String
  args : List Value
  taskQueue : Option String := none
  parentClosePolicy : ParentClosePolicy := .terminate
  cancellationType : ChildCancellationType := .tryCancel
  startCancelled : Bool := false
  resultCancelled : Bool := false
  started : Bool := false
  headers : Headers := []

/-- What user code sends to another workflow: a signal not yet encoded, or a
cancel request. -/
inductive Outgoing
  | signal (name : String) (args : List Value) (headers : Headers) (sentAt : Option Seconds)
  | cancel (reason : String) (sentAt : Option Seconds)

/-- An entry of `_pending_sends`. -/
structure PendingSend where
  target : String
  envelope : Outgoing
  futureCancelled : Bool := false
  resolveChain : Bool

/-! ## Handlers -/

/-- A signal, query or update definition. `accepts` says which numbers of
arguments its function can be called with. -/
structure HandlerDefn where
  name : Option String
  argTypes : Option (List Hint) := none
  accepts : Nat → Bool := fun _ => true
  hasValidator : Bool := false

inductive HandlerKind | signal | update
deriving DecidableEq, Repr

/-- A live handler task: its entry of `_inflight_handlers`, and what its
coroutine was made with. -/
structure Handler where
  kind : HandlerKind
  name : String
  id : Option String := none
  args : List Value
  headers : Headers

/-! ## Exceptions and outcomes of user code -/

/-- What user code can raise, as far as the interpreter tells exceptions
apart. A `FailureError` is given by the envelope it serializes to. -/
inductive WorkflowExc
  | failureError (f : FailureEnvelope)
  | asyncTimeout
  | asyncCancelled
  /-- Listed in `failure_exception_types`. -/
  | declared (name message : String)
  | nondeterminism (message : String)
  | other (name message : String)

namespace WorkflowExc

/-- `exceptions.is_cancelled_exception`. -/
def isCancelled : WorkflowExc → Bool
  | asyncCancelled => true
  | failureError f =>
    f.isCancelledError ||
      match f.info with
      | .activityError _ _ _ _ | .childWorkflowError _ _ _ _ _ => f.cause.any (·.isCancelledError)
      | _ => false
  | _ => false

/-- `Interpreter._is_failure_exception`. -/
def isFailure : WorkflowExc → Bool
  | failureError _ | asyncTimeout | declared _ _ => true
  | asyncCancelled | nondeterminism _ | other _ _ => false

/-- `serialize_failure`: an exception of another class becomes an
`ApplicationError` typed by its class name. -/
def serialize : WorkflowExc → FailureEnvelope
  | failureError f => f
  | asyncTimeout => { info := .applicationError (some "TimeoutError") [] false .unspecified none, message := "" }
  | asyncCancelled => { info := .applicationError (some "CancelledError") [] false .unspecified none, message := "" }
  | declared name m | other name m => { info := .applicationError (some name) [] false .unspecified none, message := m }
  | nondeterminism m =>
    { info := .applicationError (some "NondeterminismError") [] false .unspecified none, message := m }

end WorkflowExc

/-- `ContinueAsNewError`, with what `continue_as_new` put on it. -/
structure ContinueAsNew where
  args : List Value := []
  workflow : Option String := none
  taskQueue : Option String := none
  headers : Headers := []

/-- `_outcome`. -/
inductive Outcome
  | ok (result : Value)
  | continueAsNew (can : ContinueAsNew)
  | cancelled (e : WorkflowExc)
  | failure (e : WorkflowExc)
  | taskFailure (e : WorkflowExc)

def Outcome.isTaskFailure : Outcome → Bool
  | taskFailure _ => true
  | _ => false

/-- How a coroutine of user code ends. -/
inductive Ending
  | returned (v : Value)
  | continueAsNew (can : ContinueAsNew)
  | raised (e : WorkflowExc)

/-! ## Replies -/

inductive ReplyStatus | accepted | rejected | completed | failed
deriving DecidableEq, Repr

/-- The payload `_reply` queues: its second key is `result` or `failure`. -/
structure Reply where
  status : ReplyStatus
  body : Value ⊕ FailureEnvelope

/-- What an event is set to. -/
inductive EventValue
  | reply (status : ReplyStatus) (body : Payload ⊕ FailureEnvelope)
  | flag
  | children (registry : List (String × ParentClosePolicy))

/-! ## Operations -/

/-- An operation DBOS numbers. -/
inductive Op
  | init
  | asyncioWait
  | attempt (seq attempt : Nat) (deadline : Option Seconds) (deadlineType : DeadlineType)
  | sleep (seconds : Seconds)
  | recv (timeout : Seconds)
  | send (target : String) (envelope : Message)
  | setEvent (key : EventKey) (value : EventValue)
  | status (workflowId : String)
  | statusList (workflowId : String) (round : Nat)
  | childExists (childId : String)
  | enqueue (workflowId : String)
  | childResult (childId : String)
  | activityResult (dbosId : String)
  | updateAttributes
  | patch (id : String)
  | validateUpdate (updateId : String)
  | getEvent (workflowId : String)
  | cancelWorkflow (workflowId : String)

/-- Numbered when the task first runs: `sleep_async` and `recv_async`. Every
other operation is a step wrapper, numbered at the call. -/
def Op.lazy : Op → Bool
  | sleep _ | recv _ => true
  | _ => false

/-! ## Waiters -/

inductive WaiterKind | inbox | timer | activity | qActivity | actS2c | actHb | child
deriving DecidableEq, Repr

/-- `_Waiter`. A task is known by a number of its own; `op` is the operation
it runs. -/
structure Waiter where
  kind : WaiterKind
  seq : Nat
  task : Nat
  op : Op

/-- The waiters of an activity: its attempt or backoff, its queued result,
and the two timers of its park. -/
def WaiterKind.isActivity : WaiterKind → Bool
  | activity | qActivity | actS2c | actHb => true
  | inbox | timer | child => false

/-- Whether the waiter belongs to the activity `seq`. -/
def Waiter.ofActivity (w : Waiter) (seq : Nat) : Bool := w.kind.isActivity && w.seq = seq

/-- How an activity's or a child's future resolves. -/
inductive ActivityOutcome
  | completed (result : Value)
  | failed (error : FailureError)
  | cancelled

/-- What the virtual loop has been handed since it last ran. -/
inductive Ready
  | timer (seq : Nat)
  | activity (seq : Nat) (outcome : ActivityOutcome)
  | childStart (seq : Nat) (error : Option FailureEnvelope)
  | childResult (seq : Nat) (outcome : ActivityOutcome)
  | send (seq : Nat) (error : Option FailureEnvelope)
  | handler (task : Nat)
  | cancelPrimary

/-- An entry of `_commands`. -/
inductive Command
  | timer (seq : Nat)
  | activity (seq : Nat)
  | child (seq : Nat)
  | send (seq : Nat)
  | attributes
  | patch (seq : Nat)
deriving DecidableEq, Repr

/-! ## The interpreter -/

inductive ReplayMode | verify | rehydrate
deriving DecidableEq, Repr

/-- `WorkflowDefinition`, as far as the interpreter reads it. -/
structure WorkflowDefn where
  name : String
  signals : Dict (Option String) HandlerDefn := .empty
  queries : Dict (Option String) HandlerDefn := .empty
  updates : Dict (Option String) HandlerDefn := .empty

/-- What is fixed while one execution lasts: which run of which chain it is,
the definition, what was recorded before it began, what the process has
registered, and which of the driver's awaits suspend it (by stretch and
position). -/
structure Execution where
  base : String
  runIndex : Nat := 0
  defn : WorkflowDefn
  replayMode : Option ReplayMode := none
  replayHorizon : Nat := 0
  patchesRecorded : List String := []
  /-- `attempt_step_for` knows the name. -/
  registered : String → Bool := fun _ => true
  activityRetType : String → Option Hint := fun _ => none
  suspends : Nat → Nat → Bool := fun _ _ => false

/-- `_workflow_id`: this run's own DBOS id. -/
def Execution.workflowId (x : Execution) : String := runDbosId x.base x.runIndex

structure Interp where
  timeSeconds : Seconds := 0
  ready : List Ready := []
  primaryDone : Bool := false
  nextTask : Nat := 0
  timerSeq : Nat := 0
  activitySeq : Nat := 0
  childSeq : Nat := 0
  sendSeq : Nat := 0
  patchSeq : Nat := 0
  /-- By seq, `handle.when()`. -/
  pendingTimers : Dict Nat Seconds := .empty
  pendingActivities : Dict Nat ActivityExec := .empty
  commands : List Command := []
  outbox : List (EventKey × Reply) := []
  waiters : List Waiter := []
  bufferedSignals : Dict String (List SignalEnvelope) := .empty
  signalOverrides : Dict (Option String) (Option HandlerDefn) := .empty
  queryOverrides : Dict (Option String) (Option HandlerDefn) := .empty
  updateOverrides : Dict (Option String) (Option HandlerDefn) := .empty
  pendingHandlerFlush : List SignalEnvelope := []
  seenUpdateIds : List String := []
  inflightHandlers : Dict Nat Handler := .empty
  readOnly : Bool := false
  cancelRequested : Bool := false
  cancelReason : Option String := none
  cancelledActivitySeqs : List Nat := []
  queuedWaitCancelSeqs : List Nat := []
  pendingChildren : Dict Nat ChildExec := .empty
  childrenRegistry : List (String × ParentClosePolicy) := []
  cancelledChildSeqs : List Nat := []
  pendingSends : Dict Nat PendingSend := .empty
  ownQueueName : Option String := none
  ownQueueResolved : Bool := false
  patchesMemoized : Dict String Bool := .empty
  pendingPatches : Dict Nat String := .empty
  rehydrateStop : Bool := false
  memo : Dict String Value := .empty
  outcome : Option Outcome := none
  past : List (List (Coop.Act Op)) := []
  trace : List (Coop.Act Op) := []

/-- What the world answers while the driver makes one pass. -/
structure Env where
  converter : Converter
  now : Seconds := 0
  /-- The queue our own run was enqueued on. -/
  ownQueue : Option String := none
  queueExists : String → Bool := fun _ => true
  workflowRegistered : String → Bool := fun _ => true
  childIdTaken : String → Bool := fun _ => false
  /-- The message of the exception an enqueue under an id raises. -/
  enqueueFails : String → Option String := fun _ => none
  sendFails : String → Option String := fun _ => none
  /-- How many probe rounds `resolve_latest_run` takes, and what it finds. -/
  probeRounds : String → Nat := fun _ => 1
  currentRun : String → String := id
  /-- The failure an update validator raises, if it does. -/
  validator : String → List Value → Option FailureEnvelope := fun _ _ => none
  query : String → List Value → Except FailureEnvelope Value := fun _ _ => .ok .none
  /-- Whether a run still has a live status, and the children it recorded. -/
  running : String → Bool := fun _ => true
  recordedChildren : String → List (String × ParentClosePolicy) := fun _ => []
  /-- How deep the recorded children go. -/
  generations : Nat := 1

/-! ## Raising -/

/-- An exception, and the state it found the interpreter in. -/
structure Raised where
  exc : Exc
  state : Interp

/-- A piece of the driver that may raise. -/
abbrev M := Except Raised

def raise {α : Type} (s : Interp) (e : Exc) : M α := .error ⟨e, s⟩

/-- What a call outside the state gives, in state `s`. -/
def lift {α : Type} (s : Interp) (x : Except Exc α) : M α := x.mapError fun e => ⟨e, s⟩

theorem lift_eq_ok {α : Type} {s : Interp} {x : Except Exc α} {a : α} : lift s x = .ok a ↔ x = .ok a := by
  cases x <;> simp [lift, Except.mapError]

theorem lift_eq_error {α : Type} {s : Interp} {x : Except Exc α} {r : Raised} :
    lift s x = .error r ↔ ∃ e, x = .error e ∧ r = ⟨e, s⟩ := by
  cases x <;> simp [lift, Except.mapError, eq_comm]

@[simp] theorem lift_ok {α : Type} (s : Interp) (a : α) : lift s (.ok a) = (.ok a : M α) := rfl

@[simp] theorem lift_error {α : Type} (s : Interp) (e : Exc) :
    lift s (.error e : Except Exc α) = (.error ⟨e, s⟩ : M α) := rfl

@[simp] theorem raise_ne_ok {α : Type} {s : Interp} {e : Exc} {a : α} : raise s e ≠ (.ok a : M α) := by
  simp [raise]

/-! ## Tracing -/

namespace Interp

def emit (s : Interp) (a : Coop.Act Op) : Interp := { s with trace := s.trace ++ [a] }

/-- An await of something that is no operation. -/
def await (s : Interp) : Interp := s.emit .await

/-- An operation awaited on the spot. -/
def step (s : Interp) (o : Op) : Interp := s.emit (.step o)

/-- The driver suspends for certain. -/
def suspend (s : Interp) : Interp := { s with past := s.past ++ [s.trace], trace := [] }

/-- `ctx.function_id`: how many operations are numbered. -/
def functionId (x : Execution) (s : Interp) : Nat :=
  (s.past.map fun t => (Coop.calls t ++ Coop.spawns t).length).sum +
    (Coop.Loop.run (x.suspends s.past.length) {} s.trace).claimed.length

/-- Everything the driver has done. -/
def acts (s : Interp) : List (Coop.Act Op) := s.past.flatten ++ s.trace

@[simp] theorem acts_emit (s : Interp) (a : Coop.Act Op) : (s.emit a).acts = s.acts ++ [a] := by
  simp [acts, emit]

@[simp] theorem acts_suspend (s : Interp) : s.suspend.acts = s.acts := by
  simp [acts, suspend]

/-! ## Small updates -/

/-- `asyncio.ensure_future` on the coroutine running `op`, tracked. -/
def launchWaiter (s : Interp) (kind : WaiterKind) (seq : Nat) (op : Op) : Interp :=
  { s with
    waiters := s.waiters ++ [{ kind, seq, task := s.nextTask, op }]
    nextTask := s.nextTask + 1
    trace := s.trace ++ [if op.lazy then .spawn op else .launch op] }

/-- `self._waiters.remove(waiter)`. -/
def removeWaiter (s : Interp) (w : Waiter) : M Interp :=
  if s.waiters.any (·.task = w.task) then
    .ok { s with waiters := s.waiters.eraseP (·.task = w.task) }
  else raise s (.valueError "list.remove(x): x not in list")

def wake (s : Interp) (r : Ready) : Interp := { s with ready := s.ready ++ [r] }

def setActivity (s : Interp) (seq : Nat) (f : ActivityExec → ActivityExec) : Interp :=
  { s with pendingActivities := s.pendingActivities.modify seq f }

def popActivity (s : Interp) (seq : Nat) : Interp :=
  { s with pendingActivities := s.pendingActivities.pop seq }

/-- `_advance_time`. -/
def advanceTime (s : Interp) (toSeconds : Option Seconds) : Interp :=
  match toSeconds with
  | some t => if s.timeSeconds < t then { s with timeSeconds := t } else s
  | none => s

/-- `_set_outcome`: the first one wins. -/
def setOutcome (s : Interp) (o : Outcome) : Interp :=
  if s.outcome.isSome then s else { s with outcome := some o }

def reply (s : Interp) (key : EventKey) (r : Reply) : Interp := { s with outbox := s.outbox ++ [(key, r)] }

end Interp

end Dbosify
