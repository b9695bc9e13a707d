/-
The metadata of a run, along its chain (`payloads.RunMeta`).

A run's input is the bare list of its arguments, or, when anything differs
from the defaults, an envelope with the metadata beside them. Two modules
rebuild the metadata for the next run: the dispatcher for a workflow retry and
for a cron hop, the interpreter for a continue-as-new. Along any mix of hops
the metadata a run unwraps is the fold of the hops over that of the start
(`chain_meta`).
-/
import Dbosify.StartWorkflow
import Dbosify.SyncConversion

namespace Dbosify

/-! ## The envelope -/

/-- `RunMeta.root`. -/
structure Root where
  workflowId : String
  runId : String
deriving DecidableEq, Repr

/-- `RunMeta`, whole: what a start fills, and what only a hop or a parent
does. -/
structure InputMeta extends StartMeta where
  /-- The `"value"` of `last_completion`. -/
  lastCompletion : Option Payload := none
  lastFailure : Option FailureEnvelope := none
  root : Option Root := none

namespace InputMeta

variable (m : InputMeta)

/-- `RunMeta.is_empty`. -/
def isEmpty : Bool :=
  m.run.cron.isNone && m.run.attempt == 1 && m.run.retryPolicy.isNone && m.runTimeout.isNone &&
    m.lastCompletion.isNone && m.lastFailure.isNone && m.attributes.isNone && m.headers.isEmpty && m.root.isNone

/-- `RunMeta.carried_forward`. -/
def carriedForward : InputMeta := { m with run := m.run.carriedForward }

end InputMeta

/-- The `"meta"` of an input envelope. A key it lacks reads as `None`, and the
attempt then as 1; no headers and `None` are one. -/
structure RawMeta where
  cron : Option String := none
  attempt : Option Nat := none
  retryPolicy : Option SerializedRetryPolicy := none
  runTimeout : Option Seconds := none
  lastCompletion : Option Payload := none
  lastFailure : Option FailureEnvelope := none
  attributes : Option Attributes := none
  headers : Headers := []
  root : Option Root := none

/-- A run's payload: a bare list, or the input envelope. -/
inductive RunInput
  | bare (args : List Payload)
  | envelope (args : List Payload) (raw : RawMeta)

/-- `wrap_input`. -/
def wrapInput (args : List Payload) (m : InputMeta) : RunInput :=
  if m.isEmpty then .bare args
  else
    .envelope args {
      cron := m.run.cron
      attempt := some m.run.attempt
      retryPolicy := m.run.retryPolicy
      runTimeout := m.runTimeout
      lastCompletion := m.lastCompletion
      lastFailure := m.lastFailure
      attributes := m.attributes
      headers := m.headers
      root := m.root }

/-- `unwrap_input`. -/
def unwrapInput : RunInput → List Payload × InputMeta
  | .bare args => (args, {})
  | .envelope args raw =>
    (args, {
      run := { cron := raw.cron, attempt := raw.attempt.getD 1, retryPolicy := raw.retryPolicy }
      runTimeout := raw.runTimeout
      lastCompletion := raw.lastCompletion
      lastFailure := raw.lastFailure
      attributes := raw.attributes
      headers := raw.headers
      root := raw.root })

theorem InputMeta.eq_default_of_isEmpty {m : InputMeta} (h : m.isEmpty = true) : m = {} := by
  obtain ⟨⟨⟨cron, attempt, retryPolicy⟩, runTimeout, attributes, headers⟩, lastCompletion, lastFailure, root⟩ := m
  simp only [isEmpty, Bool.and_eq_true, Option.isNone_iff_eq_none, beq_iff_eq, List.isEmpty_iff] at h
  obtain ⟨⟨⟨⟨⟨⟨⟨⟨rfl, rfl⟩, rfl⟩, rfl⟩, rfl⟩, rfl⟩, rfl⟩, rfl⟩, rfl⟩ := h
  rfl

/-- What a run unwraps is what was wrapped for it. -/
@[simp] theorem unwrap_wrapInput (args : List Payload) (m : InputMeta) : unwrapInput (wrapInput args m) = (args, m) := by
  by_cases he : m.isEmpty = true
  · rw [wrapInput, if_pos he, unwrapInput, InputMeta.eq_default_of_isEmpty he]
  · rw [wrapInput, if_neg he, unwrapInput]
    rfl

/-! ## The start -/

/-- The metadata `start_workflow` wraps (`client._start_workflow_impl`). -/
def clientMeta (m : StartMeta) : InputMeta := { m with }

/-- The metadata `_start_child` wraps: the child's root is this run's, or this
run itself. -/
def childMeta (x : Execution) (parent : InputMeta) (attributes : Option Attributes) (headers : Headers)
    (runTimeout : Option Seconds) (retryPolicy : Option SerializedRetryPolicy) : InputMeta :=
  { run := { retryPolicy }, runTimeout, attributes, headers
    root := some (parent.root.getD { workflowId := x.base, runId := x.workflowId }) }

/-- The metadata `_start_scheduled_action` wraps. -/
def scheduledMeta (attributes : Option Attributes) (runTimeout : Option Seconds)
    (retryPolicy : Option SerializedRetryPolicy) : InputMeta :=
  { run := { retryPolicy }, runTimeout, attributes }

/-- The metadata a chain starts with. -/
inductive Started : InputMeta → Prop
  | client {w : StartEnv} {i : StartWorkflowInput} {m : StartMeta} {delay : Option Timedelta}
      {messages : List StartMessage} (h : i.prepare w = .ok (m, delay, messages)) : Started (clientMeta m)
  | child (x : Execution) (parent : InputMeta) (attributes : Option Attributes) (headers : Headers)
      (runTimeout : Option Seconds) (retryPolicy : Option SerializedRetryPolicy) :
      Started (childMeta x parent attributes headers runTimeout retryPolicy)
  | scheduled (attributes : Option Attributes) (runTimeout : Option Seconds)
      (retryPolicy : Option SerializedRetryPolicy) : Started (scheduledMeta attributes runTimeout retryPolicy)

/-- A chain starts at attempt 1, with no run before it. -/
theorem Started.fresh {m : InputMeta} (h : Started m) :
    m.run.attempt = 1 ∧ m.lastCompletion = none ∧ m.lastFailure = none := by
  cases h with
  | client h =>
    simp only [StartWorkflowInput.prepare, bind_eq_ok] at h
    obtain ⟨_, _, _, _, _, _, _, _, _, _, _, _, _, _, _, _, hm⟩ := h
    cases hm
    exact ⟨rfl, rfl, rfl⟩
  | child => exact ⟨rfl, rfl, rfl⟩
  | scheduled => exact ⟨rfl, rfl, rfl⟩

/-! ## The hops -/

/-- What the dispatcher enqueues, and the delay it does it with. -/
abbrev NextInput := RunInput × Seconds

/-- The cron hop of a run that completed (`dispatch`). `cancelled` is a cancel
observed, or one among the drained messages. -/
def afterSuccess (c : SyncConverter) (fire : String → Seconds) (cancelled : Bool) (args : List Payload) (m : InputMeta)
    (result : Value) : Except Exc (Option NextInput) :=
  match m.run.cron with
  | none => .ok none
  | some cron =>
    if cancelled then .ok none
    else do
      let value ← encodeValueSync c result
      .ok (some (wrapInput args { m.carriedForward with lastCompletion := some value, lastFailure := none }, fire cron))

/-- The delay of a workflow retry, if the run's policy still has one. -/
def retryDelay (m : RunMeta) (failure : FailureEnvelope) : Except Exc (Option Seconds) :=
  match m.retryPolicy with
  | some p => workflowRetryDelay p m.attempt failure
  | none => .ok none

/-- `_continue_chain_after_failure`: a retry while attempts are left, else the
next occurrence. -/
def continueChainAfterFailure (fire : String → Seconds) (cancelled : Bool) (args : List Payload) (m : InputMeta)
    (failure : FailureEnvelope) : Except Exc (Option NextInput) :=
  if !m.run.hopsPossible || cancelled then .ok none
  else do
    let delay ← retryDelay m.run failure
    match delay, m.run.cron with
    | some d, _ =>
      let carried := m.carriedForward
      .ok (some (wrapInput args { carried with
        run := { carried.run with attempt := m.run.attempt + 1 }, lastFailure := some failure }, d))
    | none, some cron => .ok (some (wrapInput args { m.carriedForward with lastFailure := some failure }, fire cron))
    | none, none => .ok none

/-- `ContinueAsNewError`, with what it overrides for the next run. -/
structure CanOptions extends ContinueAsNew where
  runTimeout : Option Timedelta := none
  retryPolicy : Option RetryPolicy := none
  memo : Option (List (String × Value)) := none
  searchAttributes : Option (List SearchAttributePair) := none

/-- The attributes carried: the run's memo and search attributes at their
current values, unless overridden. -/
def continuedAttributes (c : Converter) (memo : List (String × Value)) (searchAttributes : List SearchAttributePair)
    (can : CanOptions) : Except Exc (Option Attributes) :=
  if can.memo.isNone && can.searchAttributes.isNone then encodeAttributes c memo searchAttributes
  else encodeAttributes c (can.memo.getD memo) (can.searchAttributes.getD searchAttributes)

/-- The metadata `_begin_continue_as_new` carries. -/
def continuedMeta (c : Converter) (m : InputMeta) (memo : List (String × Value)) (searchAttributes : List SearchAttributePair)
    (can : CanOptions) : Except Exc InputMeta := do
  let carried := m.carriedForward
  let headers ← encodeHeaders c can.headers
  let attributes ← continuedAttributes c memo searchAttributes can
  .ok { carried with
    headers, attributes
    runTimeout :=
      match can.runTimeout with
      | some t => some t.totalSeconds
      | none => carried.runTimeout
    run := { carried.run with
      retryPolicy :=
        match can.retryPolicy with
        | some p => some (serializeRetryPolicy p)
        | none => carried.run.retryPolicy } }

/-- `_begin_continue_as_new`: the payload it enqueues. -/
def beginContinueAsNew (c : Converter) (m : InputMeta) (memo : List (String × Value))
    (searchAttributes : List SearchAttributePair) (can : CanOptions) : Except Exc RunInput := do
  let carried ← continuedMeta c m memo searchAttributes can
  let args ← encodeValues c can.args
  .ok (wrapInput args carried)

theorem afterFailure_eq (fire : String → Seconds) (m : RunMeta) (failure : FailureEnvelope) :
    afterFailure fire m failure = (retryDelay m failure).map fun
      | some d => some ({ m.carriedForward with attempt := m.attempt + 1 }, d)
      | none => nextOccurrence fire m := by
  simp only [afterFailure, retryDelay]
  cases m.retryPolicy with
  | none => rfl
  | some p =>
    dsimp only
    cases workflowRetryDelay p m.attempt failure with
    | error e => rfl
    | ok delay => cases delay <;> rfl

/-- The delay of the hop after a failure, and the part of the metadata it is
decided by, are those of `afterFailure`. -/
theorem continueChainAfterFailure_decides (fire : String → Seconds) (args : List Payload) (m : InputMeta)
    (failure : FailureEnvelope) (hp : m.run.hopsPossible = true) :
    (continueChainAfterFailure fire false args m failure).map (·.map fun n => ((unwrapInput n.1).2.run, n.2)) =
      afterFailure fire m.run failure := by
  rw [afterFailure_eq]
  simp only [continueChainAfterFailure, hp, Bool.not_true, Bool.or_false, Bool.false_eq_true, if_false]
  cases retryDelay m.run failure with
  | error e => rfl
  | ok delay =>
    cases delay with
    | some d => simp [Except.map, InputMeta.carriedForward]
    | none => cases hc : m.run.cron <;> simp [Except.map, nextOccurrence, hc, InputMeta.carriedForward]

/-! ## The fold -/

/-- A hop, by its kind, with what it brings for the next run. -/
inductive MetaHop
  | retry (failure : FailureEnvelope)
  | cronAfterSuccess (completion : Payload)
  | cronAfterFailure (failure : FailureEnvelope)
  | continueAsNew (headers : Headers) (attributes : Option Attributes) (runTimeout : Option Seconds)
      (retryPolicy : Option SerializedRetryPolicy)

namespace MetaHop

def isRetry : MetaHop → Bool
  | retry _ => true
  | _ => false

/-- The completion a hop leaves, if it is one after a success. -/
def completion : MetaHop → Option Payload
  | cronAfterSuccess p => some p
  | _ => none

/-- What a hop says of the last failure: nothing, that there is none, or this
one. -/
def failure : MetaHop → Option (Option FailureEnvelope)
  | retry f | cronAfterFailure f => some (some f)
  | cronAfterSuccess _ => some none
  | continueAsNew .. => none

def runTimeout : MetaHop → Option Seconds
  | continueAsNew _ _ t _ => t
  | _ => none

def retryPolicy : MetaHop → Option SerializedRetryPolicy
  | continueAsNew _ _ _ p => p
  | _ => none

end MetaHop

/-- What a hop makes of a run's metadata. -/
def InputMeta.after (m : InputMeta) (hop : MetaHop) : InputMeta :=
  let next := m.carriedForward
  match hop with
  | .retry f => { next with run := { next.run with attempt := m.run.attempt + 1 }, lastFailure := some f }
  | .cronAfterSuccess p => { next with lastCompletion := some p, lastFailure := none }
  | .cronAfterFailure f => { next with lastFailure := some f }
  | .continueAsNew headers attributes runTimeout retryPolicy =>
    { next with
      headers, attributes
      runTimeout := runTimeout.or next.runTimeout
      run := { next.run with retryPolicy := retryPolicy.or next.run.retryPolicy } }

/-- One hop of the code: the run with input `i` has ended, and the next run is
enqueued with input `j`. -/
inductive HopsTo (c : SyncConverter) (fire : String → Seconds) (i : RunInput) : MetaHop → RunInput → Prop
  | cronAfterSuccess {cancelled : Bool} {result : Value} {p : Payload} {j : RunInput} {delay : Seconds}
      (he : encodeValueSync c result = .ok p)
      (h : afterSuccess c fire cancelled (unwrapInput i).1 (unwrapInput i).2 result = .ok (some (j, delay))) :
      HopsTo c fire i (.cronAfterSuccess p) j
  | retry {cancelled : Bool} {failure : FailureEnvelope} {j : RunInput} {d delay : Seconds}
      (hd : retryDelay (unwrapInput i).2.run failure = .ok (some d))
      (h : continueChainAfterFailure fire cancelled (unwrapInput i).1 (unwrapInput i).2 failure = .ok (some (j, delay))) :
      HopsTo c fire i (.retry failure) j
  | cronAfterFailure {cancelled : Bool} {failure : FailureEnvelope} {j : RunInput} {delay : Seconds}
      (hd : retryDelay (unwrapInput i).2.run failure = .ok none)
      (h : continueChainAfterFailure fire cancelled (unwrapInput i).1 (unwrapInput i).2 failure = .ok (some (j, delay))) :
      HopsTo c fire i (.cronAfterFailure failure) j
  | continueAsNew {can : CanOptions} {memo : List (String × Value)} {searchAttributes : List SearchAttributePair}
      {carried : InputMeta} {j : RunInput}
      (hc : continuedMeta c.toConverter (unwrapInput i).2 memo searchAttributes can = .ok carried)
      (h : beginContinueAsNew c.toConverter (unwrapInput i).2 memo searchAttributes can = .ok j) :
      HopsTo c fire i (.continueAsNew carried.headers carried.attributes (can.runTimeout.map (·.totalSeconds))
        (can.retryPolicy.map serializeRetryPolicy)) j

/-- The runs of a chain: its first run's input, the hops since, and the
current run's input. -/
inductive Hops (c : SyncConverter) (fire : String → Seconds) (i : RunInput) : List MetaHop → RunInput → Prop
  | start : Hops c fire i [] i
  | hop {hops : List MetaHop} {j k : RunInput} {hop : MetaHop} (hh : Hops c fire i hops j) (hs : HopsTo c fire j hop k) :
      Hops c fire i (hops ++ [hop]) k

/-! ## One hop -/

variable {c : SyncConverter} {fire : String → Seconds} {cancelled : Bool} {args : List Payload} {m : InputMeta}
  {i j : RunInput} {hop : MetaHop} {hops : List MetaHop}

theorem afterSuccess_input {result : Value} {p : Payload} {d : Seconds} (he : encodeValueSync c result = .ok p)
    (h : afterSuccess c fire cancelled args m result = .ok (some (j, d))) :
    j = wrapInput args (m.after (.cronAfterSuccess p)) := by
  simp only [afterSuccess] at h
  split at h
  · cases h
  · split at h
    · cases h
    · rw [he] at h
      cases h
      rfl

theorem continueChain_retry {failure : FailureEnvelope} {d delay : Seconds} (hd : retryDelay m.run failure = .ok (some d))
    (h : continueChainAfterFailure fire cancelled args m failure = .ok (some (j, delay))) :
    j = wrapInput args (m.after (.retry failure)) := by
  simp only [continueChainAfterFailure] at h
  split at h
  · cases h
  · rw [hd] at h
    cases h
    rfl

theorem continueChain_cron {failure : FailureEnvelope} {delay : Seconds} (hd : retryDelay m.run failure = .ok none)
    (h : continueChainAfterFailure fire cancelled args m failure = .ok (some (j, delay))) :
    j = wrapInput args (m.after (.cronAfterFailure failure)) := by
  simp only [continueChainAfterFailure] at h
  split at h
  · cases h
  · rw [hd, ok_bind] at h
    split at h
    · next he => cases he
    · cases h
      rfl
    · cases h

theorem continuedMeta_after {c : Converter} {memo : List (String × Value)} {sa : List SearchAttributePair} {can : CanOptions}
    {carried : InputMeta} (h : continuedMeta c m memo sa can = .ok carried) :
    carried = m.after (.continueAsNew carried.headers carried.attributes (can.runTimeout.map (·.totalSeconds))
      (can.retryPolicy.map serializeRetryPolicy)) := by
  simp only [continuedMeta, bind_eq_ok] at h
  obtain ⟨headers, _, attributes, _, h⟩ := h
  cases h
  simp only [InputMeta.after]
  cases can.runTimeout <;> cases can.retryPolicy <;> rfl

/-- The next run unwraps what the hop makes of this run's metadata. -/
theorem HopsTo.unwraps (h : HopsTo c fire i hop j) : (unwrapInput j).2 = (unwrapInput i).2.after hop := by
  cases h with
  | cronAfterSuccess he h => rw [afterSuccess_input he h, unwrap_wrapInput]
  | retry hd h => rw [continueChain_retry hd h, unwrap_wrapInput]
  | cronAfterFailure hd h => rw [continueChain_cron hd h, unwrap_wrapInput]
  | continueAsNew hc h =>
    simp only [beginContinueAsNew, hc, ok_bind, bind_eq_ok] at h
    obtain ⟨args, _, h⟩ := h
    cases h
    rw [unwrap_wrapInput]
    exact continuedMeta_after hc

/-! ## The number of attempts -/

/-- The attempt is within what the run's own policy allows. -/
def InputMeta.WithinAttempts (m : InputMeta) : Prop :=
  ∀ p, m.run.retryPolicy = some p → 0 < p.maximumAttempts → (m.run.attempt : Int) ≤ p.maximumAttempts

theorem InputMeta.WithinAttempts.of_first (h : m.run.attempt = 1) : m.WithinAttempts := by
  intro p _ hp
  omega

/-- A retry with a delay has attempts left. -/
theorem retryDelay_left {m : RunMeta} {p : SerializedRetryPolicy} {failure : FailureEnvelope} {d : Seconds}
    (hp : m.retryPolicy = some p) (h : retryDelay m failure = .ok (some d)) (h₀ : p.maximumAttempts ≠ 0) :
    (m.attempt : Int) < p.maximumAttempts := by
  simp only [retryDelay, hp, workflowRetryDelay] at h
  by_cases hle : p.maximumAttempts ≤ (m.attempt : Int)
  · simp only [h₀, hle, ne_eq, not_false_eq_true, and_self, if_true] at h
    split at h
    · cases h
    · split at h
      · cases h
      · split at h <;> cases h
  · omega

theorem HopsTo.withinAttempts (h : HopsTo c fire i hop j) : (unwrapInput j).2.WithinAttempts := by
  rw [h.unwraps]
  cases h with
  | retry hd _ =>
    intro p hp hpos
    have hp' : (unwrapInput i).2.run.retryPolicy = some p := hp
    have hlt := retryDelay_left hp' hd (by omega)
    simp only [InputMeta.after]
    omega
  | cronAfterSuccess | cronAfterFailure | continueAsNew => exact .of_first rfl

/-! ## The fold, field by field -/

theorem foldl_attempt (m : InputMeta) (h : m.run.attempt = 1) (hops : List MetaHop) :
    (hops.foldl InputMeta.after m).run.attempt = 1 + (hops.reverse.takeWhile MetaHop.isRetry).length := by
  induction hops using List.reverseRecOn with
  | nil => exact h
  | append_singleton hops hop ih =>
    rw [List.foldl_append, List.reverse_append]
    simp only [List.foldl_cons, List.foldl_nil, List.reverse_cons, List.reverse_nil, List.nil_append, List.cons_append,
      List.takeWhile_cons]
    cases hop with
    | retry f =>
      simp only [InputMeta.after, MetaHop.isRetry, if_true, List.length_cons]
      omega
    | cronAfterSuccess | cronAfterFailure | continueAsNew => rfl

/-- A field that each hop overrides or keeps has its latest override. -/
theorem foldl_latest {α : Type} (field : InputMeta → α) (override : MetaHop → Option α)
    (hf : ∀ m hop, field (m.after hop) = (override hop).getD (field m)) (m : InputMeta) (hops : List MetaHop) :
    field (hops.foldl InputMeta.after m) = (hops.reverse.findSome? override).getD (field m) := by
  induction hops using List.reverseRecOn with
  | nil => rfl
  | append_singleton hops hop ih =>
    rw [List.foldl_append, List.reverse_append]
    simp only [List.foldl_cons, List.foldl_nil, List.reverse_cons, List.reverse_nil, List.nil_append, List.cons_append,
      List.findSome?_cons, hf, ih]
    cases override hop <;> rfl

theorem foldl_override {α : Type} (field : InputMeta → Option α) (override : MetaHop → Option α)
    (hf : ∀ m hop, field (m.after hop) = (override hop).or (field m)) (m : InputMeta) (hops : List MetaHop) :
    field (hops.foldl InputMeta.after m) = (hops.reverse.findSome? override).or (field m) := by
  have hf' (m : InputMeta) (hop : MetaHop) : field (m.after hop) = ((override hop).map some).getD (field m) := by
    rw [hf]
    cases override hop <;> rfl
  have hmap : hops.reverse.findSome? (fun hop => (override hop).map some) = (hops.reverse.findSome? override).map some :=
    List.map_findSome?.symm
  rw [foldl_latest _ _ hf', hmap]
  cases hops.reverse.findSome? override <;> rfl

/-- What no hop overrides is kept. -/
theorem foldl_kept {α : Type} (field : InputMeta → α) (hf : ∀ m hop, field (m.after hop) = field m) (m : InputMeta)
    (hops : List MetaHop) : field (hops.foldl InputMeta.after m) = field m := by
  induction hops generalizing m with
  | nil => rfl
  | cons hop hops ih => rw [List.foldl_cons, ih, hf]

/-- The runs of a chain unwrap the fold of its hops. -/
theorem Hops.unwraps (h : Hops c fire i hops j) : (unwrapInput j).2 = hops.foldl InputMeta.after (unwrapInput i).2 := by
  induction h with
  | start => rfl
  | hop _ hs ih => rw [List.foldl_append, hs.unwraps, ih]; rfl

theorem Hops.withinAttempts (h : Hops c fire i hops j) (hi : (unwrapInput i).2.WithinAttempts) :
    (unwrapInput j).2.WithinAttempts := by
  cases h with
  | start => exact hi
  | hop _ hs => exact hs.withinAttempts

/-- **The metadata of a run is the fold of the hops that led to it.** After any
hops from any start: the attempt counts the retries just before, within what the
policy allows; the last completion is that of the latest cron hop after a
success; the last failure is the latest that no success has cleared; and what
configures the chain is carried, but for what a continue-as-new overrides. -/
theorem chain_meta {m₀ : InputMeta} (hm : Started m₀) (h : Hops c fire (wrapInput args m₀) hops j) :
    (unwrapInput j).2 = hops.foldl InputMeta.after m₀ ∧
    (unwrapInput j).2.run.attempt = 1 + (hops.reverse.takeWhile MetaHop.isRetry).length ∧
    (unwrapInput j).2.WithinAttempts ∧
    (unwrapInput j).2.lastCompletion = hops.reverse.findSome? MetaHop.completion ∧
    (unwrapInput j).2.lastFailure = (hops.reverse.findSome? MetaHop.failure).getD none ∧
    (unwrapInput j).2.root = m₀.root ∧
    (unwrapInput j).2.run.cron = m₀.run.cron ∧
    (unwrapInput j).2.run.retryPolicy = (hops.reverse.findSome? MetaHop.retryPolicy).or m₀.run.retryPolicy ∧
    (unwrapInput j).2.runTimeout = (hops.reverse.findSome? MetaHop.runTimeout).or m₀.runTimeout := by
  obtain ⟨hattempt, hcompletion, hfailure⟩ := hm.fresh
  have hfold : (unwrapInput j).2 = hops.foldl InputMeta.after m₀ := by rw [h.unwraps, unwrap_wrapInput]
  have hwithin : (unwrapInput j).2.WithinAttempts :=
    h.withinAttempts (by rw [unwrap_wrapInput]; exact .of_first hattempt)
  refine ⟨hfold, ?_, hwithin, ?_, ?_, ?_, ?_, ?_, ?_⟩ <;> rw [hfold]
  · exact foldl_attempt m₀ hattempt hops
  · have hover := foldl_override InputMeta.lastCompletion MetaHop.completion
      (fun _ hop => by cases hop <;> rfl) m₀ hops
    rw [hover, hcompletion, Option.or_none]
  · have hlatest := foldl_latest InputMeta.lastFailure MetaHop.failure
      (fun _ hop => by cases hop <;> rfl) m₀ hops
    rw [hlatest, hfailure]
  · exact foldl_kept InputMeta.root (fun _ hop => by cases hop <;> rfl) m₀ hops
  · exact foldl_kept (fun m => m.run.cron) (fun _ hop => by cases hop <;> rfl) m₀ hops
  · exact foldl_override (fun m => m.run.retryPolicy) _ (fun _ hop => by cases hop <;> rfl) m₀ hops
  · exact foldl_override (fun m => m.runTimeout) _ (fun _ hop => by cases hop <;> rfl) m₀ hops

/-! ## A chain -/

/-- A converter that keeps nothing of a value, and no codec. -/
def blankConverter : SyncConverter where
  encode vs := .ok (vs.map fun _ => ⟨"{}"⟩)
  decode ps _ := .ok (ps.map fun _ => .none)
  codecEncode := .ok
  codecDecode := .ok
  decodeSync _ := .ok .none
  encodeSync vs := .ok (vs.map fun _ => ⟨"{}"⟩)

/-- An hourly chain that continues as new under a retry policy. -/
def hourlyStart : StartWorkflowInput := { workflow := "Report", id := "w", taskQueue := "q", cronSchedule := "@hourly" }

def hourlyEnv : StartEnv := { converter := blankConverter.toConverter, nextFireDelay := fun _ => .ok 3600, current := none }

def twoAttempts : RetryPolicy := { maximumAttempts := 2 }

def boomFailure : FailureEnvelope :=
  { info := .applicationError none [] false .unspecified (some 5), message := "boom" }

/-- A cron hop, a continue-as-new and a retry: the third successor is at
attempt 2, with the completion of the first run and the failure of the third. -/
theorem hourly_meta :
    ∃ j, Hops blankConverter (fun _ => 3600) (wrapInput [] (clientMeta { run := { cron := some "@hourly" } }))
        [.cronAfterSuccess ⟨"{}"⟩, .continueAsNew [] none none (some (serializeRetryPolicy twoAttempts)),
          .retry boomFailure] j ∧
      (unwrapInput j).2.run.attempt = 2 ∧ (unwrapInput j).2.lastCompletion = some ⟨"{}"⟩ ∧
      (unwrapInput j).2.lastFailure = some boomFailure ∧ (unwrapInput j).2.run.cron = some "@hourly" := by
  have hstart : Started (clientMeta { run := { cron := some "@hourly" } }) :=
    @Started.client hourlyEnv hourlyStart _ (some (.ofSeconds 3600)) [] rfl
  have h₁ : Hops blankConverter (fun _ => 3600) (wrapInput [] (clientMeta { run := { cron := some "@hourly" } }))
      [.cronAfterSuccess ⟨"{}"⟩] _ :=
    .hop .start (@HopsTo.cronAfterSuccess _ _ _ false .none _ _ _ rfl rfl)
  have h₂ := h₁.hop (@HopsTo.continueAsNew _ _ _ { retryPolicy := some twoAttempts } [] [] _ _ rfl rfl)
  have h₃ := h₂.hop (@HopsTo.retry _ _ _ false boomFailure _ _ _ rfl rfl)
  have hmeta := chain_meta hstart h₃
  exact ⟨_, h₃, hmeta.2.1, hmeta.2.2.2.1, hmeta.2.2.2.2.1, hmeta.2.2.2.2.2.2.1⟩

end Dbosify
