/-
The `finally` block of `execute`: what a run does once its outcome is in, up
to the handing over of its inbox.

A replay does none of it but the teardown of its waiters; neither does a task
failure.
-/
import Dbosify.FunctionIds

namespace Dbosify

open Py (Dict)

/-- Whether the close applies its side effects: not to a replay, and to a
terminal outcome only. -/
def Execution.closes (x : Execution) (o : Option Outcome) : Bool :=
  x.replayMode.isNone && o.any fun o => !o.isTaskFailure

namespace Interp

/-! ## Activities and children -/

/-- Queued activities are told to stop; a local attempt is marked, in the
process only. -/
def cancelInFlight (env : Env) (s : Interp) : Interp :=
  s.pendingActivities.values.foldl (fun s e =>
    match e.queuedDbosId with
    | some d => s.signalQueuedActivityCancel env e d
    | none => s) s

/-- `_terminate_child_tree`, with the ids visited; as deep as the recorded
children go. -/
def terminateChildTree (env : Env) : Nat → String → List String × Interp → List String × Interp
  | 0, _, r => r
  | n + 1, childId, (visited, s) =>
    if visited.contains childId then (visited, s)
    else
      let current := env.currentRun childId
      let s := (s.resolveCurrentRun env childId).step (.status current)
      if ¬ env.running current then (visited ++ [childId], s)
      else
        let s := (s.step (.cancelWorkflow current)).step (.getEvent current)
        (env.recordedChildren current).foldl (fun r grandchild =>
          match grandchild.2 with
          | .abandon => r
          | .requestCancel => (r.1, r.2.step (.send grandchild.1 (.cancel "" (some env.now))))
          | .terminate | .unspecified => terminateChildTree env n grandchild.1 r) (visited ++ [childId], s)

/-- `_sweep_children_on_close`. -/
def sweepChildrenOnClose (env : Env) (s : Interp) : Interp :=
  s.pendingChildren.values.foldl (fun s c =>
    if ¬ c.started then s
    else
      match c.parentClosePolicy with
      | .abandon => s
      | .requestCancel => s.sendCancel env c.childId
      | .terminate | .unspecified => (terminateChildTree env env.generations c.childId ([], s)).2) s

/-! ## Continue-as-new -/

/-- The next run of the chain. -/
def nextRunId (x : Execution) : String := runDbosId x.base (x.runIndex + 1)

/-- `_begin_continue_as_new`: the next run exists when it returns. -/
def beginContinueAsNew (x : Execution) (env : Env) (s : Interp) (can : ContinueAsNew) : M (String × Interp) := do
  let typeName := can.workflow.getD x.defn.name
  if ¬ env.workflowRegistered typeName then
    raise s (.keyError ("Workflow type '" ++ typeName ++ "' is not registered"))
  else
    let s := s.resolveOwnQueue x env
    let s := s.awaitIf (can.taskQueue.or s.ownQueueName).isSome
    let s := s.awaitIf (!can.headers.isEmpty)
    let _ ← lift s (encodeHeaders env.converter can.headers)
    let s := s.await
    let _ ← lift s (encodeValues env.converter s.memo.values)
    let s := s.await
    let _ ← lift s (encodeValues env.converter can.args)
    let s := s.step (.enqueue (nextRunId x))
    match env.enqueueFails (nextRunId x) with
    | some message => raise s (.taskError message)
    | none => .ok (nextRunId x, s)

/-- The waiters' tasks are cancelled and gathered, and forgotten. -/
def tearDown (s : Interp) : Interp := { s.awaitIf (!s.waiters.isEmpty) with waiters := [] }

/-! ## Replies for the abandoned -/

/-- What the caller of an abandoned update is told. -/
def abandonedUpdateFailure : FailureEnvelope :=
  nonRetryableFailure "Workflow run finished before the update handler completed" "AcceptedUpdateCompletedWorkflow"

/-- `_fail_abandoned_updates`. -/
def failAbandonedUpdates (s : Interp) : Interp :=
  s.inflightHandlers.values.foldl (fun s h =>
    match h.kind, h.id with
    | .update, some u => s.step (.setEvent (.updateResult u) (.reply .failed (.inr abandonedUpdateFailure)))
    | _, _ => s) s

/-- The parks nobody will end any more. -/
def announceGone (s : Interp) : Interp :=
  s.pendingActivities.values.foldl (fun s e =>
    if e.asyncPending then s.step (.setEvent (.asyncActivityGone e.activityId) .flag) else s) s

/-! ## The block -/

/-- The `finally` block of a run that does not continue as new. -/
def closeRun (x : Execution) (env : Env) (s : Interp) : Interp :=
  let closes := x.closes s.outcome
  let s := if closes then (s.cancelInFlight env).sweepChildrenOnClose env else s
  let s := s.tearDown
  if closes then s.failAbandonedUpdates.announceGone else s

/-! ## What the sweeps leave alone -/

variable {env : Env} {s : Interp}

theorem traces_foldl {α : Type} {f : Interp → α → Interp} (hf : ∀ s a, Traces s (f s a)) (l : List α) (s : Interp) :
    Traces s (l.foldl f s) := by
  induction l generalizing s with
  | nil => exact .refl s
  | cons a l ih => exact (hf s a).trans (ih _)

theorem traces_cancelInFlight (env : Env) (s : Interp) : Traces s (s.cancelInFlight env) := by
  refine traces_foldl (fun s e => ?_) _ s
  split
  · exact traces_signalQueuedActivityCancel env s _ _
  · exact .refl s

theorem traces_terminateChildTree (env : Env) (n : Nat) : ∀ (id : String) (r : List String × Interp),
    Traces r.2 (terminateChildTree env n id r).2 := by
  induction n with
  | zero => exact fun _ r => .refl r.2
  | succ n ih =>
    intro id r
    obtain ⟨visited, s⟩ := r
    have hchildren : ∀ (l : List (String × ParentClosePolicy)) (r : List String × Interp), Traces r.2
        (l.foldl (fun r grandchild =>
          match grandchild.2 with
          | .abandon => r
          | .requestCancel => (r.1, r.2.step (.send grandchild.1 (.cancel "" (some env.now))))
          | .terminate | .unspecified => terminateChildTree env n grandchild.1 r) r).2 := by
      intro l
      induction l with
      | nil => exact fun r => .refl r.2
      | cons g l ihl =>
        intro r
        refine Traces.trans ?_ (ihl _)
        obtain ⟨child, policy⟩ := g
        cases policy with
        | abandon => exact .refl r.2
        | requestCancel => exact traces_step r.2 _
        | terminate | unspecified => exact ih child r
    have hprobe : Traces s ((s.resolveCurrentRun env id).step (.status (env.currentRun id))) :=
      (traces_resolveCurrentRun env s id).trans (traces_step _ _)
    simp only [terminateChildTree]
    split
    · exact .refl s
    · split
      · exact hprobe
      · exact (hprobe.trans ((traces_step _ _).trans (traces_step _ _))).trans (hchildren _ _)

theorem traces_sweepChildrenOnClose (env : Env) (s : Interp) : Traces s (s.sweepChildrenOnClose env) := by
  refine traces_foldl (fun s c => ?_) _ s
  split
  · exact .refl s
  · split
    · exact .refl s
    · exact traces_sendCancel env s _
    · exact traces_terminateChildTree env _ _ ([], s)
    · exact traces_terminateChildTree env _ _ ([], s)

theorem traces_tearDown (s : Interp) : Traces { s with waiters := [] } s.tearDown := by
  unfold tearDown awaitIf
  split
  · exact ⟨[.await], rfl⟩
  · exact .refl _

theorem traces_failAbandonedUpdates (s : Interp) : Traces s s.failAbandonedUpdates := by
  refine traces_foldl (fun s h => ?_) _ s
  split
  · exact traces_step s _
  · exact .refl s

theorem traces_announceGone (s : Interp) : Traces s s.announceGone := by
  refine traces_foldl (fun s e => ?_) _ s
  split
  · exact traces_step s _
  · exact .refl s

end Interp

end Dbosify
