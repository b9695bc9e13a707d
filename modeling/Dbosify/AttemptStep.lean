/-
The attempt step of `activities.py`: one attempt of an activity, as a DBOS
step under three wrappers (the user call, the watchdog for heartbeats and
cancellation, the deadline).

The step is to return an envelope however the attempt ends. Each wrapper
catches classes of its own, so an exception is kept with its class, and what
a converter raises may be of any class.
-/
import Dbosify.ActivityWorkflow

namespace Dbosify

/-! ## Exceptions, by class -/

/-- The classes the handlers of the step tell apart. -/
inductive ExcClass
  | exception
  /-- `TimeoutError`, an `Exception` as well. -/
  | timeoutError
  /-- `asyncio.CancelledError`. -/
  | cancelledError
  /-- What `raise_complete_async()` raises, a `BaseException`. -/
  | completeAsyncError
  | baseException
deriving DecidableEq, Repr

/-- What `except Exception` catches. -/
def ExcClass.isException : ExcClass → Bool
  | .exception | .timeoutError => true
  | _ => false

/-- An exception object: its class and the name of it, the fields of a
`FailureError` the serializer knows, its text (`str` is user code for any
other), and `__cause__`, or `__context__` where that stands for it. -/
inductive Thrown
  | mk (cls : ExcClass) (name : String) (info : Option (FailureInfo Value)) (message : Except Thrown String)
      (cause : Option Thrown)

namespace Thrown

def cls : Thrown → ExcClass | mk c _ _ _ _ => c
def name : Thrown → String | mk _ n _ _ _ => n
def info : Thrown → Option (FailureInfo Value) | mk _ _ i _ _ => i
def message : Thrown → Except Thrown String | mk _ _ _ m _ => m
def cause : Thrown → Option Thrown | mk _ _ _ _ c => c

/-- An exception with a text and no cause. -/
def plain (cls : ExcClass) (name message : String) : Thrown := mk cls name none (.ok message) none

/-- A `FailureError` the program makes itself and never raises. -/
def failureError (info : FailureInfo Value) (message : String) : Thrown :=
  mk .exception "" (some info) (.ok message) none

end Thrown

/-- `asyncio.CancelledError`, as a cancelled task raises it. -/
def taskCancelled : Thrown := .plain .cancelledError "CancelledError" ""

def recursionError : Thrown := .plain .exception "RecursionError" "maximum recursion depth exceeded"

def indexError : Thrown := .plain .exception "IndexError" "list index out of range"

/-! ## Conversion -/

/-- The data converter as the step calls it; `encodeSync` is its payload
converter alone. -/
structure StepConverter where
  encode : List Value → Except Thrown (List Payload)
  decode : List Payload → Option (List Hint) → Except Thrown (List Value)
  codecDecode : List Payload → Except Thrown (List Payload)
  encodeSync : List Value → Except Thrown (List Payload)
  /-- Nothing converts to nothing: the payloads are as many as the values. -/
  encodeSync_nil : encodeSync [] = .ok []

namespace StepConverter

variable (c : StepConverter)

def encodeValue (value : Value) : Except Thrown Payload := do
  match ← c.encode [value] with
  | p :: _ => .ok p
  | [] => .error indexError

def decodeValues (values : List Payload) (hints : Option (List Hint)) : Except Thrown (List Value) :=
  if values.isEmpty then .ok [] else c.decode values (hints.map (·.take values.length))

def decodeHeaders (wire : Headers) : Except Thrown Headers :=
  if wire.isEmpty then .ok [] else do
    let ps ← c.codecDecode (wire.map (·.2))
    .ok ((wire.map (·.1)).zip ps)

/-- The class-specific fields of an envelope, details encoded. -/
def encodeInfo : FailureInfo Value → Except Thrown (FailureInfo Payload)
  | .applicationError t ds n cat d => do return .applicationError t (← c.encodeSync ds) n cat d
  | .cancelledError ds => do return .cancelledError (← c.encodeSync ds)
  | .terminatedError ds => do return .terminatedError (← c.encodeSync ds)
  | .timeoutError t ds => do return .timeoutError t (← c.encodeSync ds)
  | .activityError t i w r => return .activityError t i w r
  | .childWorkflowError n w r t s => return .childWorkflowError n w r t s
  | .serverError n => return .serverError n

/-- An envelope but for its cause. An exception of no class the serializer
knows becomes an `ApplicationError` of its class's name. -/
def serializeOwn (e : Thrown) : Except Thrown FailureEnvelope := do
  let info ← match e.info with
    | some info => c.encodeInfo info
    | none => .ok (.applicationError (some e.name) [] false .unspecified none)
  let message ← e.message
  .ok { info, message }

/-- `payloads.serialize_failure`, where the stack has room for `depth` causes
below the exception; a chain of causes that is longer, or closed to a cycle,
exhausts it. -/
def serializeFailure : Nat → Thrown → Except Thrown FailureEnvelope
  | 0, e => do
    let own ← c.serializeOwn e
    match e.cause with
    | none => .ok own
    | some _ => .error recursionError
  | depth + 1, e => do
    let own ← c.serializeOwn e
    match e.cause with
    | none => .ok own
    | some cause => do
      let cause ← serializeFailure depth cause
      .ok { own with cause := some cause }

theorem serializeFailure_of_cause_none {e : Thrown} (h : e.cause = none) (depth : Nat) :
    c.serializeFailure depth e = c.serializeOwn e := by
  cases depth <;> simp only [serializeFailure, h] <;> cases c.serializeOwn e <;> rfl

end StepConverter

/-! ## The step -/

/-- The registered activity, the step's arguments, and what `meta` says. -/
structure Attempt where
  dynamic : Bool := false
  isAsync : Bool := true
  argTypes : Option (List Hint) := none
  args : List Payload := []
  deadline : Option Seconds := none
  deadlineType : DeadlineType := .startToClose
  heartbeatTimeout : Option Seconds := none
  queued : Bool := false
  headers : Headers := []

/-- How the user function ends, behind its interceptors. -/
inductive UserEnd
  | returned (value : Value)
  | raised (exc : Thrown)

/-- The user function. -/
abbrev UserFn := List Value → Headers → UserEnd

/-- One turn of the watchdog that finds the call still running. -/
structure Poll where
  /-- The cancel event of the run is set. -/
  cancelRequested : Bool := false
  /-- `ctx.cancelled` is set. -/
  ctxCancelled : Bool := false
  /-- The last heartbeat is past the timeout. -/
  stale : Bool := false
  lastHeartbeat : List Value := []
  /-- What the function makes of a cancellation now; none where it meets the
  call in the conversions around the function. -/
  unwound : Option UserFn := none

/-- What an attempt goes through: the watchdog's turns, the end the function
comes to when nothing stops it, and whether the deadline passes first. -/
structure Course where
  polls : List Poll := []
  fn : UserFn
  expired : Bool := false
  startedAt : Seconds := 0
  endedAt : Seconds := 0

namespace Attempt

variable (a : Attempt) (c : StepConverter) (depth : Nat) (endedAt : Seconds)

/-- The function's arguments; a dynamic one takes the raw payloads as one. -/
def decodeArgs : Except Thrown (List Value) :=
  if a.dynamic then do
    let raw ← c.decodeValues a.args (some (a.args.map fun _ => .rawValue))
    .ok [.list raw]
  else c.decodeValues a.args a.argTypes

/-- `call_user_activity`. The result is encoded after its `try`. -/
def callUserActivity (fn : UserFn) : Except Thrown StepEnvelope := do
  let args ← a.decodeArgs c
  let headers ← c.decodeHeaders a.headers
  match fn args headers with
  | .raised err =>
    if err.cls.isException then do
      let failure ← c.serializeFailure depth err
      .ok (.failed failure endedAt)
    else .error err
  | .returned value => do
    let result ← c.encodeValue value
    .ok (.ok result endedAt)

/-- The call's task, once cancelled. -/
def unwind : Option UserFn → Except Thrown StepEnvelope
  | some fn => a.callUserActivity c depth endedAt fn
  | none => .error taskCancelled

/-- `serialize_failure(exceptions.CancelledError("Activity cancelled"))`, as
the end of the attempt. -/
def cancelledAttempt : Except Thrown StepEnvelope := do
  let failure ← c.serializeFailure depth (.failureError (.cancelledError []) "Activity cancelled")
  .ok (.failed failure endedAt)

/-- The heartbeat timeout, with the last heartbeat's details. -/
def staleAttempt (lastHeartbeat : List Value) : Except Thrown StepEnvelope := do
  let failure ← c.serializeFailure depth
    (.failureError (.timeoutError (some .heartbeat) lastHeartbeat) "activity Heartbeat timeout")
  .ok (.failed failure endedAt)

/-- `_watch`: once the call is done, its end; before that, each turn looks
for a reason to stop it. -/
def watch (fn : UserFn) : List Poll → Except Thrown StepEnvelope
  | [] => a.callUserActivity c depth endedAt fn
  | p :: polls =>
    if a.queued && p.cancelRequested then
      -- What the call leaves is awaited, and dropped.
      match a.unwind c depth endedAt p.unwound with
      | .ok _ => cancelledAttempt c depth endedAt
      | .error e => if e.cls = .cancelledError then cancelledAttempt c depth endedAt else .error e
    else if !a.queued && a.isAsync && p.ctxCancelled then
      match a.unwind c depth endedAt p.unwound with
      | .ok envelope => .ok envelope
      | .error e => if e.cls = .cancelledError then cancelledAttempt c depth endedAt else .error e
    else if a.heartbeatTimeout.isSome && p.stale then staleAttempt c depth endedAt p.lastHeartbeat
    else watch fn polls

/-- Whether the call runs under the watchdog. -/
def watched : Bool := a.heartbeatTimeout.isSome || a.queued

/-- `run_attempt`. -/
def runAttempt (fn : UserFn) (polls : List Poll) : Except Thrown StepEnvelope :=
  if a.watched then a.watch c depth endedAt fn polls else a.callUserActivity c depth endedAt fn

/-- `run_to_deadline`: past the deadline, whatever the attempt comes to is
dropped. -/
def runToDeadline (k : Course) : Except Thrown StepEnvelope :=
  if a.deadline.isSome && k.expired then .error (.plain .timeoutError "TimeoutError" "")
  else a.runAttempt c depth k.endedAt k.fn k.polls

/-- `attempt`, the body of the step. -/
def attempt (k : Course) : Except Thrown StepEnvelope :=
  match a.runToDeadline c depth k with
  | .ok envelope => .ok envelope
  | .error e =>
    match e.cls with
    | .completeAsyncError => .ok (.asyncPending k.startedAt k.endedAt)
    | .timeoutError => do
      let message := match a.deadlineType with
        | .scheduleToClose => "activity Schedule-To-Close timeout"
        | .startToClose => "activity Start-To-Close timeout"
      let failure ← c.serializeFailure depth
        (.failureError (.timeoutError (some a.deadlineType.timeoutType) []) message)
      .ok (.failed failure k.endedAt)
    | _ => .error e

end Attempt

/-! ## What the handlers make of an exception -/

/-- What the outermost handlers turn into an envelope. -/
def Thrown.Caught (e : Thrown) : Prop := e.cls = .timeoutError ∨ e.cls = .completeAsyncError

/-- The same, of a call the watchdog has cancelled. -/
def Thrown.CaughtUnwinding (e : Thrown) : Prop := e.cls = .cancelledError ∨ e.Caught

namespace StepConverter

variable (c : StepConverter) (depth : Nat)

/-- The failures the program makes itself have no details to encode. -/
theorem serializeFailure_bare {info : FailureInfo Value} {i : FailureInfo Payload} (message : String)
    (h : c.encodeInfo info = .ok i) :
    c.serializeFailure depth (.failureError info message) = .ok { info := i, message } := by
  rw [serializeFailure_of_cause_none c rfl]
  show (do let j ← c.encodeInfo info; .ok ({ info := j, message } : FailureEnvelope)) = _
  rw [h, ok_bind]

theorem encodeInfo_cancelled : c.encodeInfo (.cancelledError []) = .ok (.cancelledError []) := by
  simp only [encodeInfo, c.encodeSync_nil, ok_bind]
  rfl

theorem encodeInfo_timeout (t : Option TimeoutType) : c.encodeInfo (.timeoutError t []) = .ok (.timeoutError t []) := by
  simp only [encodeInfo, c.encodeSync_nil, ok_bind]
  rfl

end StepConverter

namespace Attempt

variable {a : Attempt} {c : StepConverter} {depth : Nat} {endedAt : Seconds}

theorem cancelledAttempt_eq : cancelledAttempt c depth endedAt = .ok (.failed activityCancelledFailure endedAt) := by
  simp only [cancelledAttempt, c.serializeFailure_bare depth _ c.encodeInfo_cancelled, ok_bind]
  rfl

/-- The heartbeat watchdog can only fail in its details. -/
theorem staleAttempt_raises {P : Thrown → Prop} {l : List Value} :
    Raises P (staleAttempt c depth endedAt l) ↔ Raises P (c.encodeSync l) := by
  have hown : c.serializeOwn (.failureError (.timeoutError (some .heartbeat) l) "activity Heartbeat timeout") =
      (c.encodeSync l >>= fun ds => Except.ok
        ({ info := .timeoutError (some .heartbeat) ds, message := "activity Heartbeat timeout" } : FailureEnvelope)) := by
    show ((c.encodeSync l >>= fun ds => pure (.timeoutError (some .heartbeat) ds)) >>= fun i =>
      Except.ok ({ info := i, message := "activity Heartbeat timeout" } : FailureEnvelope)) = _
    cases c.encodeSync l <;> rfl
  have hnone := c.serializeFailure_of_cause_none
    (e := .failureError (.timeoutError (some .heartbeat) l) "activity Heartbeat timeout") rfl depth
  rw [staleAttempt, hnone, hown]
  simp [Raises.bind_iff]

/-! ## When the call raises nothing but what is caught -/

/-- What the end of the function has the call raise is `P`. -/
def EndMeets (c : StepConverter) (depth : Nat) (P : Thrown → Prop) : UserEnd → Prop
  | .returned value => Raises P (c.encodeValue value)
  | .raised err => if err.cls.isException then Raises P (c.serializeFailure depth err) else P err

/-- What stands in the way of the call, conversions and function, is `P`. -/
structure CallMeets (a : Attempt) (c : StepConverter) (depth : Nat) (P : Thrown → Prop) (fn : UserFn) : Prop where
  args : Raises P (a.decodeArgs c)
  headers : ∀ args, a.decodeArgs c = .ok args → Raises P (c.decodeHeaders a.headers)
  ends : ∀ args headers, a.decodeArgs c = .ok args → c.decodeHeaders a.headers = .ok headers →
    EndMeets c depth P (fn args headers)

theorem callUserActivity_raises {P : Thrown → Prop} {fn : UserFn} :
    Raises P (a.callUserActivity c depth endedAt fn) ↔ a.CallMeets c depth P fn := by
  have hend : ∀ args headers, Raises P (match fn args headers with
      | .raised err =>
        if err.cls.isException then
          c.serializeFailure depth err >>= fun failure => Except.ok (StepEnvelope.failed failure endedAt)
        else .error err
      | .returned value => c.encodeValue value >>= fun result => .ok (.ok result endedAt)) ↔
      EndMeets c depth P (fn args headers) := by
    intro args headers
    cases fn args headers with
    | returned value => simp [EndMeets, Raises.bind_iff]
    | raised err =>
      simp only [EndMeets]
      split
      · simp [Raises.bind_iff]
      · simp
  rw [callUserActivity, Raises.bind_iff]
  simp only [Raises.bind_iff, hend]
  constructor
  · rintro ⟨hargs, h⟩
    exact ⟨hargs, fun args ha => (h args ha).1, fun args headers ha hh => (h args ha).2 headers hh⟩
  · rintro ⟨hargs, hheaders, hends⟩
    exact ⟨hargs, fun args ha => ⟨hheaders args ha, fun headers hh => hends args headers ha hh⟩⟩

/-- The call, cancelled: its own `CancelledError` is expected. -/
theorem unwind_raises {u : Option UserFn} :
    Raises Thrown.CaughtUnwinding (a.unwind c depth endedAt u) ↔
      ∀ fn, u = some fn → a.CallMeets c depth Thrown.CaughtUnwinding fn := by
  cases u with
  | none => simp [unwind, Thrown.CaughtUnwinding, taskCancelled, Thrown.plain, Thrown.cls]
  | some fn => simp [unwind, callUserActivity_raises]

/-! ## The watchdog -/

end Attempt

/-- Whether the turn cancels the call. -/
def Poll.cancels (a : Attempt) (p : Poll) : Bool :=
  if a.queued then p.cancelRequested else a.isAsync && p.ctxCancelled

/-- Whether the turn ends the attempt. -/
def Poll.acts (a : Attempt) (p : Poll) : Bool := p.cancels a || a.heartbeatTimeout.isSome && p.stale

namespace Attempt

variable {a : Attempt} {c : StepConverter} {depth : Nat} {endedAt : Seconds}

/-- A turn that ends the attempt: what it needs in order to return. -/
def PollMeets (a : Attempt) (c : StepConverter) (depth : Nat) (p : Poll) : Prop :=
  if p.cancels a then ∀ fn, p.unwound = some fn → a.CallMeets c depth Thrown.CaughtUnwinding fn
  else Raises Thrown.Caught (c.encodeSync p.lastHeartbeat)

/-- A handler of the watchdog that reports a cancelled call as such. -/
theorem raises_of_unwinding {x : Except Thrown StepEnvelope} {f : StepEnvelope → Except Thrown StepEnvelope}
    (hf : ∀ envelope, ∃ r, f envelope = .ok r) :
    Raises Thrown.Caught (match x with
      | .ok envelope => f envelope
      | .error e => if e.cls = .cancelledError then cancelledAttempt c depth endedAt else .error e) ↔
      Raises Thrown.CaughtUnwinding x := by
  cases x with
  | ok envelope =>
    obtain ⟨r, hr⟩ := hf envelope
    simp [hr]
  | error e =>
    by_cases hc : e.cls = .cancelledError
    · simp [hc, cancelledAttempt_eq, Thrown.CaughtUnwinding]
    · simp [hc, Thrown.CaughtUnwinding]

/-- One turn: it ends the attempt, or goes on to the next. -/
theorem watch_cons {fn : UserFn} {p : Poll} {polls : List Poll} :
    Raises Thrown.Caught (a.watch c depth endedAt fn (p :: polls)) ↔
      if p.acts a then a.PollMeets c depth p else Raises Thrown.Caught (a.watch c depth endedAt fn polls) := by
  rw [watch]
  by_cases hq : (a.queued && p.cancelRequested) = true
  · have hc : p.cancels a = true := by
      simp only [Bool.and_eq_true] at hq
      simp [Poll.cancels, hq]
    simp only [hq, Poll.acts, hc, PollMeets, if_true, Bool.true_or]
    rw [raises_of_unwinding fun _ => ⟨_, cancelledAttempt_eq⟩, unwind_raises]
  · by_cases hl : (!a.queued && a.isAsync && p.ctxCancelled) = true
    · have hc : p.cancels a = true := by
        simp only [Bool.and_eq_true, Bool.not_eq_true'] at hl
        simp [Poll.cancels, hl]
      simp only [hq, hl, Poll.acts, hc, PollMeets, if_true, Bool.true_or]
      rw [if_neg (by simp), raises_of_unwinding fun envelope => ⟨envelope, rfl⟩, unwind_raises]
    · have hc : p.cancels a = false := by
        cases h : a.queued <;> simp [h] at hq hl <;> simp [Poll.cancels, h, hq]
        exact hl
      simp only [hq, hl, Poll.acts, hc, PollMeets, Bool.false_or]
      by_cases hs : (a.heartbeatTimeout.isSome && p.stale) = true
      · simp only [hs, if_true]
        simp [staleAttempt_raises]
      · simp [hs]

/-- The whole watch: the first turn that acts decides, else the call does. -/
theorem watch_raises {fn : UserFn} {polls : List Poll} :
    Raises Thrown.Caught (a.watch c depth endedAt fn polls) ↔
      match polls.find? (Poll.acts a) with
      | some p => a.PollMeets c depth p
      | none => a.CallMeets c depth Thrown.Caught fn := by
  induction polls with
  | nil => simp [watch, callUserActivity_raises]
  | cons p polls ih =>
    rw [watch_cons, List.find?_cons]
    cases p.acts a with
    | true => simp
    | false => simpa using ih

/-! ## The step returns -/

/-- The outermost handlers make an envelope of exactly what they catch. -/
theorem attempt_isOk {k : Course} :
    (∃ envelope, a.attempt c depth k = .ok envelope) ↔ Raises Thrown.Caught (a.runToDeadline c depth k) := by
  rw [attempt]
  cases a.runToDeadline c depth k with
  | ok envelope => simp
  | error e =>
    simp only [Raises.error_iff, Thrown.Caught]
    cases h : e.cls <;> simp [c.serializeFailure_bare depth _ (c.encodeInfo_timeout _)]

/-- The turn of the watchdog that ends the attempt, where one does. -/
def ending (a : Attempt) (k : Course) : Option Poll := if a.watched then k.polls.find? (Poll.acts a) else none

/-- When the step returns: its deadline passed, or whatever ended the attempt
(the call by itself, the call cancelled, the last heartbeat's details) raised
nothing the handlers above it do not catch. -/
def Returns (a : Attempt) (c : StepConverter) (depth : Nat) (k : Course) : Prop :=
  (a.deadline.isSome && k.expired) = true ∨
    match a.ending k with
    | some p => a.PollMeets c depth p
    | none => a.CallMeets c depth Thrown.Caught k.fn

/-- What `json.dumps` says of an object it does not know. -/
def notSerializable : Thrown := .plain .exception "TypeError" "Object of type set is not JSON serializable"

/-- A converter of strings, and of nothing else. -/
def stringConverter : StepConverter where
  encode vs := vs.mapM fun
    | .str s => .ok ⟨s⟩
    | _ => .error notSerializable
  decode ps _ := .ok (ps.map (.str ·.text))
  codecDecode ps := .ok ps
  encodeSync vs := vs.mapM fun
    | .str s => .ok ⟨s⟩
    | _ => .error notSerializable
  encodeSync_nil := rfl

end Attempt

end Dbosify
