/-
`Client._start_workflow_impl`: validation and encoding, the id policies
against the current run of the chain, and the enqueue.

A call is its operations on runs that may exist already, with what it returns
or raises. Both a termination and the encoding of the arguments come before
the enqueue, in this order.
-/
import Dbosify.ChainHop
import Dbosify.Status

namespace Dbosify

inductive WorkflowIDReusePolicy
  | allowDuplicate | allowDuplicateFailedOnly | rejectDuplicate | terminateIfRunning
deriving DecidableEq, Repr

inductive WorkflowIDConflictPolicy | unspecified | fail | useExisting | terminateExisting
deriving DecidableEq, Repr

/-! ## Attributes -/

/-- The value of a typed search attribute. -/
inductive SearchValue
  | datetime (iso : String) (aware : Bool)
  | keywordList (items : List String)
  | scalar (json : String)
deriving DecidableEq, Repr

/-- A typed search attribute: its name, its metadata type, and its value. -/
structure SearchAttributePair where
  name : String
  metadataType : String
  isDatetime : Bool
  value : SearchValue
deriving DecidableEq, Repr

/-- `_sa_value_to_json`. -/
def SearchAttributePair.toJson (p : SearchAttributePair) : Except Exc SearchValue :=
  match p.isDatetime, p.value with
  | true, .datetime _ false =>
    .error (.valueError ("Search attribute '" ++ p.name ++ "': datetime values must be timezone-aware"))
  | true, .keywordList _ => .error (.typeError ("Search attribute '" ++ p.name ++ "' expects a datetime, got list"))
  | true, .scalar _ => .error (.typeError ("Search attribute '" ++ p.name ++ "' expects a datetime, got scalar"))
  | _, v => .ok v

/-- The DBOS attributes dict, by its two namespaces. -/
structure Attributes where
  memo : List (String × Payload)
  searchAttributes : List (String × String × SearchValue)
deriving DecidableEq

/-- `attributes.encode_memo`. -/
def encodeMemo (c : Converter) (memo : List (String × Value)) : Except Exc (List (String × Payload)) :=
  memo.mapM fun kv => (encodeValue c kv.2).map (kv.1, ·)

/-- `attributes.encode_search_attributes`. -/
def encodeSearchAttributes (pairs : List SearchAttributePair) : Except Exc (List (String × String × SearchValue)) :=
  pairs.mapM fun p => p.toJson.map (p.name, p.metadataType, ·)

/-- `attributes.encode_attributes`: nothing when both namespaces are empty. -/
def encodeAttributes (c : Converter) (memo : List (String × Value)) (searchAttributes : List SearchAttributePair) :
    Except Exc (Option Attributes) := do
  let memo ← encodeMemo c memo
  let searchAttributes ← encodeSearchAttributes searchAttributes
  .ok (if memo.isEmpty && searchAttributes.isEmpty then none else some { memo, searchAttributes })

/-! ## The call -/

/-- A message that goes with the start: an envelope for the inbox, and its
idempotency key. -/
abbrev StartMessage := Message × Option String

/-- `StartWorkflowInput`, as far as the root of the chain reads it. -/
structure StartWorkflowInput where
  workflow : String
  args : List Value := []
  id : String
  taskQueue : String
  runTimeout : Option Timedelta := none
  idReusePolicy : WorkflowIDReusePolicy := .allowDuplicate
  idConflictPolicy : WorkflowIDConflictPolicy := .unspecified
  retryPolicy : Option RetryPolicy := none
  cronSchedule : String := ""
  memo : List (String × Value) := []
  searchAttributes : List SearchAttributePair := []
  startDelay : Option Timedelta := none
  headers : Headers := []
  startSignal : Option String := none
  startSignalArgs : List Value := []
  withStartUpdate : Option StartMessage := none

/-- `payloads.RunMeta`, as a start fills it. -/
structure StartMeta where
  run : RunMeta := {}
  runTimeout : Option Seconds := none
  attributes : Option Attributes := none
  headers : Headers := []

/-- What DBOS is to enqueue, with the messages of the same transaction. -/
structure Enqueue where
  workflowName : String
  queueName : String
  workflowId : String
  workflowTimeout : Option Seconds
  delaySeconds : Option Seconds
  attributes : Option Attributes
  args : List Payload
  startMeta : StartMeta
  messages : List StartMessage

/-- An operation on the system database. -/
inductive ClientOp
  | cancelWorkflow (dbosId : String)
  | send (dbosId : String) (message : StartMessage)
  | enqueue (e : Enqueue)

/-- The run an operation cancels, or sends a message to. -/
def ClientOp.touches : ClientOp → Option String
  | .cancelWorkflow d | .send d _ => some d
  | .enqueue _ => none

inductive StartExc
  | raised (e : Exc)
  | alreadyStarted (workflowId workflowType runId : String)
deriving DecidableEq

/-- The identity of the handle returned. -/
structure StartedHandle where
  id : String
  resultRunId : String
  firstExecutionRunId : String
deriving DecidableEq

/-- What the call finds around it: the process's converter, the delay to a
cron expression's next occurrence (or what is wrong with the expression), the
current run of the chain, and what DBOS raises at the enqueue, if anything. -/
structure StartEnv where
  converter : Converter
  nextFireDelay : String → Except Exc Seconds
  current : Option (Nat × DbosStatus)
  enqueueRaises : Option String := none

/-- What a call has done, and its end. -/
structure StartRun where
  ops : List ClientOp
  result : Except StartExc StartedHandle

/-- `raise ValueError(message)`, if there is one. -/
def refuse : Option String → Except Exc Unit
  | some message => .error (.valueError message)
  | none => .ok ()

namespace StartWorkflowInput

variable (w : StartEnv) (i : StartWorkflowInput)

/-- The delay run 0 is enqueued with; that of a cron chain is its own. -/
def backedOff : Except Exc (Option Timedelta) :=
  if i.cronSchedule.isEmpty then .ok i.startDelay
  else do
    let delay ← w.nextFireDelay i.cronSchedule
    if i.startDelay.isSome then .error (.valueError "start_delay cannot be used together with cron_schedule")
    else .ok (some (.ofSeconds delay))

/-- The start signal's message; its headers are the call's own. -/
def signalMessage : Except Exc (Option StartMessage) :=
  match i.startSignal with
  | none => .ok none
  | some name => do
    let args ← encodeValues w.converter i.startSignalArgs
    let headers ← encodeHeaders w.converter i.headers
    .ok (some (.signal { name, args, headers }, none))

/-- The checks and encodings before the chain is looked up: the metadata, the
delay, the messages. -/
def prepare : Except Exc (StartMeta × Option Timedelta × List StartMessage) := do
  refuse (if i.taskQueue.isEmpty then some "task_queue must be a non-empty string" else none)
  refuse (validateWorkflowId i.id)
  refuse (if i.startDelay.any (·.micros < 0) then some "start_delay must be non-negative" else none)
  refuse (i.retryPolicy.bind RetryPolicy.validate)
  let startDelay ← i.backedOff w
  let attributes ← encodeAttributes w.converter i.memo i.searchAttributes
  let headers ← encodeHeaders w.converter i.headers
  let signal ← i.signalMessage w
  let cron := if i.cronSchedule.isEmpty then none else some i.cronSchedule
  let run : RunMeta := { cron, retryPolicy := i.retryPolicy.map serializeRetryPolicy }
  .ok ({ run, runTimeout := i.runTimeout.map (·.totalSeconds), attributes, headers }, startDelay,
    signal.toList ++ i.withStartUpdate.toList)

/-- The handle of a run this call starts. -/
def handleOf (dbosId : String) : StartedHandle :=
  { id := i.id, resultRunId := dbosId, firstExecutionRunId := dbosId }

/-- Run `runIndex` is enqueued, its arguments encoded first. -/
def startRun (ops : List ClientOp) (runIndex : Nat) (startMeta : StartMeta) (startDelay : Option Timedelta)
    (messages : List StartMessage) : StartRun :=
  let dbosId := runDbosId i.id runIndex
  match encodeValues w.converter i.args with
  | .error e => ⟨ops, .error (.raised e)⟩
  | .ok args =>
    match w.enqueueRaises with
    | some message => ⟨ops, .error (.raised (.taskError message))⟩
    | none =>
      let e : Enqueue := {
        workflowName := "wf:" ++ i.workflow
        queueName := i.taskQueue
        workflowId := dbosId
        workflowTimeout := i.runTimeout.map (·.totalSeconds)
        delaySeconds := startDelay.map (·.totalSeconds)
        attributes := startMeta.attributes
        args, startMeta, messages }
      ⟨ops ++ [.enqueue e], .ok (i.handleOf dbosId)⟩

def alreadyStarted (ops : List ClientOp) (runId : String) : StartRun :=
  ⟨ops, .error (.alreadyStarted i.id i.workflow runId)⟩

/-- The reuse policies, against a run that was closed when it was read, or
has been cancelled since. -/
def reuse (ops : List ClientOp) (index : Nat) (status : DbosStatus) (startMeta : StartMeta)
    (startDelay : Option Timedelta) (messages : List StartMessage) : StartRun :=
  if i.idReusePolicy = .rejectDuplicate then i.alreadyStarted ops (runDbosId i.id index)
  else if i.idReusePolicy = .allowDuplicateFailedOnly ∧ toExecutionStatus status none = .completed then
    i.alreadyStarted ops (runDbosId i.id index)
  else i.startRun w ops (index + 1) startMeta startDelay messages

/-- `_start_workflow_impl`. -/
def startWorkflow : StartRun :=
  match i.prepare w with
  | .error e => ⟨[], .error (.raised e)⟩
  | .ok (startMeta, startDelay, messages) =>
    match w.current with
    | none => i.startRun w [] 0 startMeta startDelay messages
    | some (index, status) =>
      let target := runDbosId i.id index
      if status.isOpen then
        if i.idConflictPolicy = .useExisting then
          ⟨messages.map (.send target),
            .ok { id := i.id, resultRunId := target, firstExecutionRunId := runDbosId i.id 0 }⟩
        else if i.idConflictPolicy = .terminateExisting ∨ i.idReusePolicy = .terminateIfRunning then
          i.reuse w [.cancelWorkflow target] index status startMeta startDelay messages
        else i.alreadyStarted [] target
      else i.reuse w [] index status startMeta startDelay messages

/-! ## What passes the checks -/

/-- An input that every check and encoding before the lookup accepts. -/
structure Accepted (w : StartEnv) (i : StartWorkflowInput) : Prop where
  taskQueue : i.taskQueue.isEmpty = false
  id : validateWorkflowId i.id = none
  startDelay : i.startDelay.any (·.micros < 0) = false
  retryPolicy : i.retryPolicy.bind RetryPolicy.validate = none
  cron : i.cronSchedule.isEmpty = false → (∃ d, w.nextFireDelay i.cronSchedule = .ok d) ∧ i.startDelay = none
  memo : ∀ kv ∈ i.memo, ∃ p, encodeValue w.converter kv.2 = .ok p
  searchAttributes : ∀ p ∈ i.searchAttributes, ∃ v, p.toJson = .ok v
  headers : ∃ h, encodeHeaders w.converter i.headers = .ok h
  startSignal : i.startSignal.isSome = true → ∃ ps, encodeValues w.converter i.startSignalArgs = .ok ps

end StartWorkflowInput

/-- A `mapM` succeeds when it does on each element. -/
theorem mapM_isOk {ε α β : Type} {f : α → Except ε β} {l : List α} :
    (∃ r, l.mapM f = .ok r) ↔ ∀ a ∈ l, ∃ b, f a = .ok b := by
  induction l with
  | nil => simp [pure, Except.pure]
  | cons a l ih =>
    simp only [List.mapM_cons, bind_eq_ok, pure_eq_ok, List.forall_mem_cons, ← ih]
    constructor
    · rintro ⟨_, b, hb, bs, hbs, _⟩
      exact ⟨⟨b, hb⟩, bs, hbs⟩
    · rintro ⟨⟨b, hb⟩, bs, hbs⟩
      exact ⟨_, b, hb, bs, hbs, rfl⟩

theorem map_isOk {ε α β : Type} {x : Except ε α} {f : α → β} : (∃ b, x.map f = .ok b) ↔ ∃ a, x = .ok a := by
  cases x <;> simp [Except.map]

theorem encodeAttributes_isOk {c : Converter} {memo : List (String × Value)} {sa : List SearchAttributePair} :
    (∃ a, encodeAttributes c memo sa = .ok a) ↔
      (∀ kv ∈ memo, ∃ p, encodeValue c kv.2 = .ok p) ∧ ∀ p ∈ sa, ∃ v, p.toJson = .ok v := by
  have hm : (∃ m, encodeMemo c memo = .ok m) ↔ ∀ kv ∈ memo, ∃ p, encodeValue c kv.2 = .ok p := by
    simp only [encodeMemo, mapM_isOk, map_isOk]
  have hs : (∃ m, encodeSearchAttributes sa = .ok m) ↔ ∀ p ∈ sa, ∃ v, p.toJson = .ok v := by
    simp only [encodeSearchAttributes, mapM_isOk, map_isOk]
  rw [← hm, ← hs]
  simp only [encodeAttributes, bind_eq_ok]
  constructor
  · rintro ⟨_, m, hm, v, hv, _⟩
    exact ⟨⟨m, hm⟩, v, hv⟩
  · rintro ⟨⟨m, hm⟩, v, hv⟩
    exact ⟨_, m, hm, v, hv, rfl⟩

namespace StartWorkflowInput

variable {w : StartEnv} {i : StartWorkflowInput}

theorem backedOff_isOk : (∃ d, i.backedOff w = .ok d) ↔
    (i.cronSchedule.isEmpty = false → (∃ d, w.nextFireDelay i.cronSchedule = .ok d) ∧ i.startDelay = none) := by
  rw [backedOff]
  cases i.cronSchedule.isEmpty with
  | true => simp
  | false =>
    cases w.nextFireDelay i.cronSchedule with
    | error e => simp
    | ok d => cases i.startDelay <;> simp

theorem signalMessage_isOk (hh : ∃ h, encodeHeaders w.converter i.headers = .ok h) :
    (∃ m, i.signalMessage w = .ok m) ↔
      (i.startSignal.isSome = true → ∃ ps, encodeValues w.converter i.startSignalArgs = .ok ps) := by
  obtain ⟨h, hh⟩ := hh
  rw [signalMessage]
  cases i.startSignal with
  | none => simp
  | some name => cases encodeValues w.converter i.startSignalArgs <;> simp [hh]

theorem prepare_isOk : (∃ r, i.prepare w = .ok r) ↔ i.Accepted w := by
  have hq (b : Bool) (m : String) : refuse (if b then some m else none) = .ok () ↔ b = false := by
    cases b <;> simp [refuse]
  have hr (o : Option String) : refuse o = .ok () ↔ o = none := by cases o <;> simp [refuse]
  constructor
  · rintro ⟨r, h⟩
    simp only [prepare, bind_eq_ok, exists_const, hq, hr] at h
    obtain ⟨hqueue, hid, hdelay, hretry, d, hd, a, ha, hs, hhs, m, hm, _⟩ := h
    obtain ⟨hmemo, hsa⟩ := encodeAttributes_isOk.1 ⟨a, ha⟩
    exact ⟨hqueue, hid, hdelay, hretry, backedOff_isOk.1 ⟨d, hd⟩, hmemo, hsa, ⟨hs, hhs⟩,
      (signalMessage_isOk ⟨hs, hhs⟩).1 ⟨m, hm⟩⟩
  · rintro ⟨hqueue, hid, hdelay, hretry, hcron, hmemo, hsa, hheaders, hsignal⟩
    obtain ⟨d, hd⟩ := backedOff_isOk.2 hcron
    obtain ⟨a, ha⟩ := encodeAttributes_isOk.2 ⟨hmemo, hsa⟩
    obtain ⟨m, hm⟩ := (signalMessage_isOk hheaders).2 hsignal
    obtain ⟨hs, hhs⟩ := hheaders
    simp only [prepare, bind_eq_ok, exists_const, hq, hr]
    exact ⟨_, hqueue, hid, hdelay, hretry, d, hd, a, ha, hs, hhs, m, hm, rfl⟩

/-! ## Whether a failed start leaves the chain alone -/

/-- A start that takes the current run down, and then does not come to be. -/
structure Breaks (w : StartEnv) (i : StartWorkflowInput) : Prop where
  accepted : i.Accepted w
  running : w.current.any (·.2.isOpen) = true
  attaches : i.idConflictPolicy ≠ .useExisting
  terminates : i.idConflictPolicy = .terminateExisting ∨ i.idReusePolicy = .terminateIfRunning
  fails : i.idReusePolicy = .rejectDuplicate ∨ (∃ e, encodeValues w.converter i.args = .error e) ∨
    w.enqueueRaises.isSome = true

/-- Once the runs before are dealt with, a start raises for the reasons its
inputs give, and adds no operation that touches another run. -/
theorem startRun_spec (ops : List ClientOp) (n : Nat) (m : StartMeta) (d : Option Timedelta) (l : List StartMessage) :
    ((∃ e, (i.startRun w ops n m d l).result = .error e) ↔
      (∃ e, encodeValues w.converter i.args = .error e) ∨ w.enqueueRaises.isSome = true) ∧
    ∀ e, (i.startRun w ops n m d l).result = .error e → (i.startRun w ops n m d l).ops = ops := by
  rw [startRun]
  cases encodeValues w.converter i.args with
  | error e => simp
  | ok args => cases w.enqueueRaises <;> simp

/-- The same of the reuse policies: after a cancel only the strict one still
raises. -/
theorem reuse_spec (ops : List ClientOp) (n : Nat) (st : DbosStatus) (m : StartMeta) (d : Option Timedelta)
    (l : List StartMessage) (hopen : st.isOpen = true) :
    ((∃ e, (i.reuse w ops n st m d l).result = .error e) ↔
      i.idReusePolicy = .rejectDuplicate ∨ (∃ e, encodeValues w.converter i.args = .error e) ∨
        w.enqueueRaises.isSome = true) ∧
    ∀ e, (i.reuse w ops n st m d l).result = .error e → (i.reuse w ops n st m d l).ops = ops := by
  have hst : toExecutionStatus st none ≠ .completed := by rw [toExecutionStatus_of_isOpen hopen]; simp
  rw [reuse]
  by_cases hr : i.idReusePolicy = .rejectDuplicate
  · simp [hr, alreadyStarted]
  · simp only [hr, hst, and_false, if_false, false_or]
    exact startRun_spec ops (n + 1) m d l

/-- A failed start whose current run is closed has done nothing. -/
theorem reuse_ops (n : Nat) (st : DbosStatus) (m : StartMeta) (d : Option Timedelta) (l : List StartMessage)
    {e : StartExc} (h : (i.reuse w [] n st m d l).result = .error e) : (i.reuse w [] n st m d l).ops = [] := by
  rw [reuse] at h ⊢
  split at h
  · next hr => rw [if_pos hr]; rfl
  · next hr =>
    rw [if_neg hr]
    split at h
    · next hf => rw [if_pos hf]; rfl
    · next hf => rw [if_neg hf]; exact (startRun_spec [] (n + 1) m d l).2 e h

/-- The call has neither cancelled a run nor sent one a message. -/
def Untouched (r : StartRun) : Prop := ∀ op ∈ r.ops, op.touches = none

/-- **A start that raises has touched no run, unless it is one that takes the
current run down and then does not come to be.** -/
theorem startWorkflow_atomic_iff (w : StartEnv) (i : StartWorkflowInput) :
    (∀ e, (i.startWorkflow w).result = .error e → Untouched (i.startWorkflow w)) ↔ ¬ i.Breaks w := by
  have hnil (r : Except StartExc StartedHandle) : Untouched ⟨[], r⟩ := by simp [Untouched]
  rw [startWorkflow]
  cases hp : i.prepare w with
  | error e =>
    have hb : ¬ i.Breaks w := fun h => by
      obtain ⟨r, hr⟩ := prepare_isOk.2 h.accepted
      rw [hp] at hr
      cases hr
    simp only [hb, not_false_eq_true, iff_true]
    exact fun _ _ => hnil _
  | ok r =>
    obtain ⟨m, d, l⟩ := r
    have haccepted : i.Accepted w := prepare_isOk.1 ⟨_, hp⟩
    cases hc : w.current with
    | none =>
      have hb : ¬ i.Breaks w := fun h => by simpa [hc] using h.running
      simp only [hb, not_false_eq_true, iff_true]
      intro e he
      simp only [Untouched, (startRun_spec [] 0 m d l).2 e he, List.not_mem_nil, false_implies, implies_true]
    | some current =>
      obtain ⟨n, st⟩ := current
      simp only
      by_cases hopen : st.isOpen = true
      · rw [if_pos hopen]
        by_cases hu : i.idConflictPolicy = .useExisting
        · have hb : ¬ i.Breaks w := fun h => h.attaches hu
          simp [hu, hb]
        · rw [if_neg hu]
          by_cases ht : i.idConflictPolicy = .terminateExisting ∨ i.idReusePolicy = .terminateIfRunning
          · rw [if_pos ht]
            obtain ⟨hraises, hops⟩ := reuse_spec (i := i) (w := w) [.cancelWorkflow (runDbosId i.id n)] n st m d l hopen
            constructor
            · intro h hb
              obtain ⟨e, he⟩ := hraises.2 hb.fails
              have := h e he
              rw [Untouched, hops e he] at this
              simp [ClientOp.touches] at this
            · intro hb e he
              exact (hb ⟨haccepted, by simp [hc, hopen], hu, ht, hraises.1 ⟨e, he⟩⟩).elim
          · have hb : ¬ i.Breaks w := fun h => ht h.terminates
            simp only [if_neg ht, hb, not_false_eq_true, iff_true]
            exact fun _ _ => hnil _
      · have hb : ¬ i.Breaks w := fun h => by simpa [hc, hopen] using h.running
        simp only [if_neg hopen, hb, not_false_eq_true, iff_true]
        intro e he
        simp only [Untouched, reuse_ops n st m d l he, List.not_mem_nil, false_implies, implies_true]

/-- A converter of nothing at all. -/
def strictConverter : Converter :=
  { Converter.lenient with encode := fun _ => .error "Object of type set is not JSON serializable" }

/-- A start over a running run that is to be replaced, with an argument the
converter does not take: the run is cancelled, and nothing started. -/
theorem terminateExisting_raises : ∃ (w : StartEnv) (i : StartWorkflowInput) (e : StartExc),
    (i.startWorkflow w).result = .error e ∧ ¬ Untouched (i.startWorkflow w) := by
  refine ⟨{ converter := strictConverter, nextFireDelay := fun _ => .ok 0, current := some (0, .pending) },
    { workflow := "Greet", id := "W", taskQueue := "q", idConflictPolicy := .terminateExisting, args := [.obj "{1}"] },
    _, rfl, fun h => ?_⟩
  have hcancel := h (.cancelWorkflow "W") (.head _)
  simp [ClientOp.touches] at hcancel

end StartWorkflowInput

end Dbosify
