/-
What the driver does besides.

Much of the driver has no part in any protocol: it awaits, it numbers an
operation, it moves the clock, it works on timers, children, sends and
patches. A `Frame` is a relation between interpreters that all of this
keeps, whatever the relation speaks of; each piece is shown to keep every
frame once (`along_command` and the lemmas before it).
-/
import Dbosify.Close

namespace Dbosify

open Py (Dict)

/-- An act no frame speaks of: not the launch of an attempt, no reply and no
flag. -/
def actPlain : Coop.Act Op → Bool
  | .launch (.attempt ..) => false
  | .step (.setEvent _ (.reply ..)) | .step (.setEvent _ .flag) => false
  | _ => true

/-- The markers set for an activity: its cancellation, and the end of its
park. -/
def ActivityExec.markers (e : ActivityExec) : List EventKey :=
  [.activityCancel e.activityId, .asyncActivityGone e.activityId]

/-- What tells an activity from the others, and where it runs. -/
def ActivityExec.tag (e : ActivityExec) : String × Option String × Option String :=
  (e.activityId, e.taskQueue, e.queuedDbosId)

/-- The activity a wake resolves, and how. -/
def Ready.activity? : Ready → Option (Nat × ActivityOutcome)
  | .activity k o => some (k, o)
  | _ => none

namespace Interp

/-- The activities resolved since the last drain. -/
def resolved (s : Interp) : List (Nat × ActivityOutcome) := s.ready.filterMap Ready.activity?

theorem resolved_wake {r : Ready} (hr : r.activity? = none) (s : Interp) : (s.wake r).resolved = s.resolved := by
  change (s.ready ++ [r]).filterMap Ready.activity? = s.resolved
  rw [List.filterMap_append, List.filterMap_cons_none hr, List.filterMap_nil, List.append_nil]
  rfl

/-- What the frames speak of. -/
structure Core where
  seenUpdateIds : List String
  inflightHandlers : Dict Nat Handler
  outbox : List (EventKey × Reply)
  signalOverrides : Dict (Option String) (Option HandlerDefn)
  bufferedSignals : Dict String (List SignalEnvelope)
  pendingHandlerFlush : List SignalEnvelope
  pendingActivities : Dict Nat ActivityExec
  resolved : List (Nat × ActivityOutcome)
  activitySeq : Nat
  commands : List Command
  ownQueue : Bool × Option String
  acts : List (Coop.Act Op)

def core (s : Interp) : Core where
  seenUpdateIds := s.seenUpdateIds
  inflightHandlers := s.inflightHandlers
  outbox := s.outbox
  signalOverrides := s.signalOverrides
  bufferedSignals := s.bufferedSignals
  pendingHandlerFlush := s.pendingHandlerFlush
  pendingActivities := s.pendingActivities
  resolved := s.resolved
  activitySeq := s.activitySeq
  commands := s.commands
  ownQueue := (s.ownQueueResolved, s.ownQueueName)
  acts := s.acts

/-- The own queue, looked up or not. -/
def ownQueue (env : Env) (s : Interp) : Option String := if s.ownQueueResolved then s.ownQueueName else env.ownQueue

theorem resolveOwnQueue_name (x : Execution) (env : Env) (s : Interp) :
    (s.resolveOwnQueue x env).ownQueueName = s.ownQueue env := by
  unfold resolveOwnQueue ownQueue
  split <;> rfl

/-! ## Frames -/

/-- A relation that holds across whatever leaves the core alone, and across
plain acts. -/
class Frame (R : Interp → Interp → Prop) : Prop where
  refl (s : Interp) : R s s
  trans {s t s' : Interp} : R s t → R t s' → R s s'
  act {a : Coop.Act Op} (ha : actPlain a = true) (s : Interp) : R s (s.emit a)
  other {s s' : Interp} (h : s'.core = s.core) (hn : s.nextTask ≤ s'.nextTask) : R s s'

/-- It also holds when the own queue is looked up. -/
class QueueFrame (env : Env) (R : Interp → Interp → Prop) : Prop where
  ownQueue (x : Execution) (s : Interp) : R s (s.resolveOwnQueue x env)

/-- What a frame lets happen to activities. -/
structure Scope where
  /-- The activities that may change, start an attempt and resolve. -/
  acts : Nat → Prop
  /-- The activities that may go to a queue. -/
  queued : Nat → Prop
  /-- Whether markers may be set. -/
  marks : Prop

/-- Anything may happen to any of them. -/
def Scope.all : Scope := ⟨fun _ => True, fun _ => True, True⟩

/-- A frame of the activities too. Any of them may be dropped. -/
class ActivityFrame (c : outParam Scope) (R : Interp → Interp → Prop) : Prop extends Frame R where
  modify {k : Nat} {f : ActivityExec → ActivityExec} (hk : c.acts k) (hf : ∀ e, (f e).tag = e.tag) (s : Interp) :
    R s (s.setActivity k f)
  pop (s : Interp) (k : Nat) : R s (s.popActivity k)
  resolve {k : Nat} (hk : c.acts k) (s : Interp) (o : ActivityOutcome) : R s (s.wake (.activity k o))
  attempt {k : Nat} (hk : c.acts k) (s : Interp) (n : Nat) (d : Option Seconds) (t : DeadlineType) :
    R s (s.emit (.launch (.attempt k n d t)))
  dispatch {k : Nat} (hk : c.acts k) (hq : c.queued k) (s : Interp) (d : String) : R s (s.setActivity k (.dispatched d))
  mark {s : Interp} {k : Nat} {e : ActivityExec} {key : EventKey} (hm : c.marks)
    (he : s.pendingActivities.get? k = some e) (hkey : key ∈ e.markers) : R s (s.step (.setEvent key .flag))

namespace Frame

variable {R : Interp → Interp → Prop} [Frame R]

theorem await (s : Interp) : R s s.await := act rfl s

theorem awaitIf (s : Interp) (b : Bool) : R s (s.awaitIf b) := by
  cases b
  · exact refl s
  · exact await s

theorem step {o : Op} (ho : actPlain (.step o) = true) (s : Interp) : R s (s.step o) := act ho s

theorem suspend (s : Interp) : R s s.suspend := by
  refine other ?_ le_rfl
  simp only [core, acts_suspend]
  rfl

/-- Any waiter but an attempt's. -/
theorem launchWaiter {o : Op} (ho : actPlain (.launch o) = true) (s : Interp) (kind : WaiterKind) (k : Nat) :
    R s (s.launchWaiter kind k o) := by
  have ha : actPlain (if o.lazy then .spawn o else .launch o) = true := by
    split
    · rfl
    · exact ho
  exact trans (act ha s) (other rfl (Nat.le_succ _))

theorem wake {r : Ready} (hr : r.activity? = none) (s : Interp) : R s (s.wake r) := by
  refine other ?_ le_rfl
  rw [core, resolved_wake hr]
  rfl

theorem foldl {α : Type} {f : Interp → α → Interp} (hf : ∀ s a, R s (f s a)) (l : List α) :
    ∀ s, R s (l.foldl f s) := by
  induction l with
  | nil => exact refl
  | cons a l ih => exact fun s => trans (hf s a) (ih _)

/-- The same, with something carried along. -/
theorem foldl_snd {α β : Type} {f : β × Interp → α → β × Interp} (hf : ∀ r a, R r.2 (f r a).2) (l : List α) :
    ∀ r, R r.2 (l.foldl f r).2 := by
  induction l with
  | nil => exact fun r => refl r.2
  | cons a l ih => exact fun r => trans (hf r a) (ih _)

end Frame

/-! ## Along a piece that may raise -/

/-- A piece keeps the relation, whether it raises or not. -/
def Along {α : Type} (R : Interp → Interp → Prop) (s : Interp) (state : α → Interp) (m : M α) : Prop :=
  match m with
  | .ok a => R s (state a)
  | .error r => R s r.state

namespace Along

variable {R : Interp → Interp → Prop} {α β : Type} {f : α → Interp} {g : β → Interp} {m : M α} {s : Interp}

theorem ok {a : α} (h : R s (f a)) : Along R s f (.ok a) := h

theorem map {k : α → β} (h : Along R s f m) (hk : ∀ a, g (k a) = f a) : Along R s g (m.map k) := by
  cases m with
  | ok a => exact ok ((hk a).symm ▸ h)
  | error r => exact h

theorem of_ok {a : α} (h : Along R s f m) (hm : m = .ok a) : R s (f a) := by
  subst hm
  exact h

theorem of_error {r : Raised} (h : Along R s f m) (hm : m = .error r) : R s r.state := by
  subst hm
  exact h

theorem imp {R' : Interp → Interp → Prop} (h : Along R s f m) (hr : ∀ s', R s s' → R' s s') : Along R' s f m := by
  cases m with
  | ok a => exact hr _ h
  | error r => exact hr _ h

variable [Frame R]

theorem raises (e : Exc) : Along R s f (raise s e) := Frame.refl s

/-- After a piece that keeps it. -/
theorem after {t : Interp} (h : R s t) (hm : Along R t f m) : Along R s f m := by
  cases m with
  | ok a => exact Frame.trans h hm
  | error r => exact Frame.trans h hm

theorem bind {k : α → M β} (h : Along R s f m) (hk : ∀ a, Along R (f a) g (k a)) : Along R s g (m >>= k) := by
  cases m with
  | ok a => exact after h (hk a)
  | error r => exact h

/-- The same, where what follows relies on how it went. -/
theorem bind_eq {k : α → M β} (h : Along R s f m) (hk : ∀ a, m = .ok a → Along R (f a) g (k a)) :
    Along R s g (m >>= k) := by
  cases m with
  | ok a => exact after h (hk a rfl)
  | error r => exact h

/-- A call outside the state. -/
theorem lift {y : Except Exc α} {k : α → M β} (hk : ∀ a, Along R s g (k a)) : Along R s g (Dbosify.lift s y >>= k) := by
  cases y with
  | ok a => exact hk a
  | error e => exact raises e

end Along

/-! ## Shared pieces -/

section Plain

variable {x : Execution} {env : Env} {s : Interp} {R : Interp → Interp → Prop} [Frame R]

theorem frame_advanceTime (s : Interp) (t : Option Seconds) : R s (s.advanceTime t) := by
  unfold advanceTime
  split
  · split <;> exact Frame.other rfl le_rfl
  · exact Frame.refl s

theorem frame_resolveCurrentRun (env : Env) (s : Interp) (i : String) : R s (s.resolveCurrentRun env i) :=
  Frame.foldl (fun s _ => Frame.step rfl s) _ s

theorem frame_sendCancel (env : Env) (s : Interp) (i : String) : R s (s.sendCancel env i) :=
  Frame.trans (frame_resolveCurrentRun env s i) (Frame.step rfl _)

theorem along_checkReplayHorizon : Along R s id (s.checkReplayHorizon x) := by
  unfold checkReplayHorizon
  dsimp only
  split
  · exact .after (Frame.act rfl s) (.raises _)
  · exact .ok (Frame.act rfl s)

theorem along_encodeCall {args : List Value} {hs : Headers} : Along R s (·.2) (s.encodeCall env args hs) := by
  unfold encodeCall
  refine .after (Frame.await s) (.lift fun ps => ?_)
  exact .after (Frame.awaitIf _ _) (.lift fun hs => .ok (Frame.refl _))

theorem along_decodeMessageArgs {d : Option HandlerDefn} {n : String} {args : List Payload} :
    Along R s (·.2) (s.decodeMessageArgs env d n args) := by
  unfold decodeMessageArgs
  dsimp only
  refine .after (Frame.awaitIf s (!args.isEmpty)) ?_
  split
  · exact .lift fun vs => .ok (Frame.refl _)
  · exact .lift fun vs => .ok (Frame.refl _)

theorem along_decodeMessageHeaders {hs : Headers} : Along R s (·.2) (s.decodeMessageHeaders env hs) := by
  unfold decodeMessageHeaders
  exact .after (Frame.awaitIf s _) (.lift fun h => .ok (Frame.refl _))

theorem along_confirmsCancel {e : ActivityExec} {f : FailureEnvelope} :
    Along R s (fun _ => s) (s.confirmsCancel env e f) := by
  unfold confirmsCancel
  split
  · cases deserializeFailure env.converter f with
    | ok c => exact .ok (Frame.refl s)
    | error c => exact .raises _
  · exact .ok (Frame.refl s)

/-! ## Timers and children -/

theorem frame_deliverTimer (s : Interp) (k : Nat) : R s (s.deliverTimer k) := by
  unfold deliverTimer
  split
  · exact Frame.refl s
  · refine Frame.trans (t := { s with pendingTimers := s.pendingTimers.pop k }) (Frame.other rfl le_rfl) ?_
    exact Frame.trans (frame_advanceTime _ _) (Frame.wake rfl _)

theorem along_childEvent {k : Nat} {r : TaskResult} : Along R s id (s.deliverChildEvent env k r) := by
  unfold deliverChildEvent
  split
  · exact .ok (Frame.refl s)
  · refine .after (t := { s with pendingChildren := s.pendingChildren.pop k }) (Frame.other rfl le_rfl) ?_
    dsimp only
    split
    · exact .ok (Frame.refl _)
    · split
      · exact .ok (Frame.trans (frame_advanceTime _ _) (Frame.wake rfl _))
      · next f t => exact .after (frame_advanceTime _ (some t)) (.lift fun c => .ok (Frame.wake rfl _))
      · exact .raises _
      · exact .raises _

theorem frame_sweepChild (env : Env) (s : Interp) (k : Nat) : R s (s.sweepChild env k) := by
  unfold sweepChild
  split
  · exact Frame.refl s
  · dsimp only
    split
    · refine Frame.trans ?_ (frame_sendCancel env _ _)
      exact Frame.other rfl le_rfl
    · exact Frame.other rfl le_rfl

theorem along_removeWaiter (w : Waiter) : Along R s id (s.removeWaiter w) := by
  unfold removeWaiter
  split
  · exact .ok (Frame.other rfl le_rfl)
  · exact .raises _

theorem frame_retireParkedTimers (s : Interp) (k : Nat) : R s (s.retireParkedTimers k) := Frame.other rfl le_rfl

theorem frame_ensureInboxWaiter (x : Execution) (s : Interp) : R s (s.ensureInboxWaiter x) := by
  unfold ensureInboxWaiter
  split
  · exact Frame.refl s
  · exact Frame.launchWaiter rfl _ _ _

/-! ## Commands -/

theorem along_timer {k : Nat} : Along R s (·.2) (s.processTimer x k) := by
  unfold processTimer
  split
  · exact .ok (Frame.refl s)
  · dsimp only
    split
    · refine .ok (Frame.trans (t := { s with pendingTimers := s.pendingTimers.pop k }) ?_ (Frame.wake rfl _))
      exact Frame.other rfl le_rfl
    · exact along_checkReplayHorizon.bind fun s₁ => .ok (Frame.launchWaiter rfl _ _ _)

theorem along_encodeOutgoing (o : Outgoing) : Along R s (·.2) (s.encodeOutgoing env o) := by
  cases o with
  | cancel reason t => exact .ok (Frame.refl s)
  | signal name args hs t => exact along_encodeCall.bind fun a => .ok (Frame.refl _)

theorem along_send {k : Nat} : Along R s id (s.processSend x env k) := by
  unfold processSend
  refine along_checkReplayHorizon.bind fun s₁ => ?_
  dsimp only [id]
  cases s₁.pendingSends.get? k with
  | none => exact .raises _
  | some p =>
    refine .after (t := { s₁ with pendingSends := s₁.pendingSends.pop k }) (Frame.other rfl le_rfl) ?_
    refine (along_encodeOutgoing p.envelope).bind fun a => ?_
    have hsent : R a.2 ((if p.resolveChain then a.2.resolveCurrentRun env p.target else a.2).step
        (.send (if p.resolveChain then env.currentRun p.target else p.target) a.1)) := by
      refine Frame.trans ?_ (Frame.step rfl _)
      split
      · exact frame_resolveCurrentRun env _ _
      · exact Frame.refl _
    split
    · exact .ok hsent
    · exact .ok (Frame.trans hsent (Frame.wake rfl _))

theorem along_attributes : Along R s id (s.processAttributes x env) := by
  unfold processAttributes
  refine .after (Frame.await s) (.lift fun vs => ?_)
  exact along_checkReplayHorizon.bind fun s₁ => .ok (Frame.step rfl _)

theorem along_patch {k : Nat} : Along R s id (s.processPatch x k) := by
  unfold processPatch
  cases s.pendingPatches.get? k with
  | none => exact .raises _
  | some i =>
    refine .after (t := { s with pendingPatches := s.pendingPatches.pop k }) (Frame.other rfl le_rfl) ?_
    exact along_checkReplayHorizon.bind fun s₁ => .ok (Frame.step rfl _)

/-! ## The close -/

theorem frame_terminateChildTree (env : Env) (n : Nat) : ∀ (id : String) (r : List String × Interp),
    R r.2 (terminateChildTree env n id r).2 := by
  induction n with
  | zero => exact fun _ r => Frame.refl r.2
  | succ n ih =>
    intro id r
    obtain ⟨visited, s⟩ := r
    have hprobe : R s ((s.resolveCurrentRun env id).step (.status (env.currentRun id))) :=
      Frame.trans (frame_resolveCurrentRun env s id) (Frame.step rfl _)
    simp only [terminateChildTree]
    split
    · exact Frame.refl s
    · split
      · exact hprobe
      · have hcancel := Frame.step (R := R) (o := .cancelWorkflow (env.currentRun id)) rfl
          ((s.resolveCurrentRun env id).step (.status (env.currentRun id)))
        refine Frame.trans (Frame.trans hprobe (Frame.trans hcancel (Frame.step (o := .getEvent (env.currentRun id)) rfl _))) ?_
        refine Frame.foldl_snd (fun r g => ?_) _ (_, _)
        obtain ⟨child, policy⟩ := g
        cases policy with
        | abandon => exact Frame.refl r.2
        | requestCancel => exact Frame.step rfl r.2
        | terminate | unspecified => exact ih child r

theorem frame_sweepChildrenOnClose (env : Env) (s : Interp) : R s (s.sweepChildrenOnClose env) := by
  refine Frame.foldl (fun s c => ?_) _ s
  split
  · exact Frame.refl s
  · split
    · exact Frame.refl s
    · exact frame_sendCancel env s _
    · exact frame_terminateChildTree env _ _ ([], s)
    · exact frame_terminateChildTree env _ _ ([], s)

/-- A walk over the pending activities that only marks. -/
theorem frame_foldl_pending {g : Interp → ActivityExec → Interp}
    (hg : ∀ {t k e}, t.pendingActivities.get? k = some e → R t (g t e))
    (hp : ∀ t e, (g t e).pendingActivities = t.pendingActivities) (s : Interp) :
    R s (s.pendingActivities.values.foldl g s) := by
  have key : ∀ (l : List ActivityExec) (t : Interp), l ⊆ t.pendingActivities.values → R t (l.foldl g t) := by
    intro l
    induction l with
    | nil => exact fun t _ => Frame.refl t
    | cons e l ih =>
      intro t hl
      obtain ⟨k, hk⟩ := Dict.mem_values_get?.1 (hl List.mem_cons_self)
      refine Frame.trans (hg hk) (ih _ fun e' he' => ?_)
      rw [hp]
      exact hl (List.mem_cons_of_mem _ he')
  exact key _ s (List.Subset.refl _)

theorem frame_tearDown (s : Interp) : R s s.tearDown := Frame.trans (Frame.awaitIf s _) (Frame.other rfl le_rfl)

end Plain

/-! ## What looks up the own queue -/

section Queue

variable {x : Execution} {env : Env} {s : Interp} {R : Interp → Interp → Prop} [Frame R] [QueueFrame env R]

omit [Frame R] in
theorem frame_resolveOwnQueue (x : Execution) (env : Env) [QueueFrame env R] (s : Interp) :
    R s (s.resolveOwnQueue x env) := QueueFrame.ownQueue x s

theorem frame_recordChild (x : Execution) (env : Env) [QueueFrame env R] (s : Interp) (c : ChildExec) : R s (s.recordChild x env c) := by
  have hwait : ∀ s₁ : Interp, R s₁ (if (c.taskQueue.or s₁.ownQueueName).isSome then s₁.await else s₁) := by
    intro s₁
    split
    · exact Frame.await s₁
    · exact Frame.refl s₁
  unfold recordChild
  refine Frame.trans ?_ (Frame.step rfl _)
  refine Frame.trans (Frame.trans (Frame.step (o := .childExists c.childId) rfl s) (frame_resolveOwnQueue x env _)) ?_
  exact Frame.trans (hwait _) (Frame.other rfl le_rfl)

theorem frame_enqueueChild (x : Execution) (env : Env) [QueueFrame env R] (s : Interp) (c : ChildExec) :
    R s (enqueued (s.enqueueChild x env c)) := by
  cases hr : env.workflowRegistered c.typeName with
  | false =>
    unfold enqueueChild
    rw [if_pos (by simp [hr])]
    exact Frame.refl s
  | true =>
    cases ht : env.childIdTaken c.childId with
    | true =>
      unfold enqueueChild
      rw [if_neg (by simp [hr]), if_pos ht]
      exact Frame.step rfl s
    | false =>
      rw [enqueueChild_recorded hr ht]
      have hcall : Along R _ _ ((s.recordChild x env c).encodeCall env c.args c.headers) := along_encodeCall
      refine Frame.trans (frame_recordChild x env s c) ?_
      split
      · next r he => exact hcall.of_error he
      · next r s₁ he =>
        have henqueued : R (s.recordChild x env c) (s₁.step (.enqueue c.childId)) :=
          Frame.trans (hcall.of_ok he) (Frame.step rfl _)
        split <;> exact henqueued

theorem frame_startChild (x : Execution) (env : Env) [QueueFrame env R] (s : Interp) (k : Nat) (c : ChildExec) :
    R s (s.startChild x env k c) := by
  have h : R s _ := frame_enqueueChild x env s c
  unfold startChild
  cases he : s.enqueueChild x env c with
  | error r =>
    rw [he] at h
    refine Frame.trans h (Frame.trans (t := { r.2 with pendingChildren := r.2.pendingChildren.pop k }) ?_ ?_)
    · exact Frame.other rfl le_rfl
    · dsimp only
      split
      · exact Frame.refl _
      · exact Frame.wake rfl _
  | ok s₁ =>
    rw [he] at h
    have hstarted : R s₁ { s₁ with
        pendingChildren := s₁.pendingChildren.modify k fun c => { c with started := true } } := Frame.other rfl le_rfl
    refine Frame.trans h (Frame.trans (Frame.trans hstarted ?_) (Frame.launchWaiter rfl _ _ _))
    split
    · exact Frame.refl _
    · exact Frame.wake rfl _

/-- **Every command but an activity's keeps every frame.** -/
theorem along_command {c : Command} (hc : ∀ k, c ≠ .activity k) : Along R s (·.2) (s.processCommand x env c) := by
  cases c with
  | timer k => exact along_timer
  | activity k => exact absurd rfl (hc k)
  | child k =>
    refine along_checkReplayHorizon.bind fun s₁ => ?_
    dsimp only [id]
    cases s₁.pendingChildren.get? k with
    | none => exact .raises _
    | some c => exact .ok (frame_startChild x env s₁ k c)
  | send k => exact along_send.map fun _ => rfl
  | attributes => exact along_attributes.map fun _ => rfl
  | patch k => exact along_patch.map fun _ => rfl

theorem along_beginContinueAsNew {can : ContinueAsNew} : Along R s (·.2) (s.beginContinueAsNew x env can) := by
  unfold beginContinueAsNew
  dsimp only
  split
  · exact .raises _
  · refine .after (frame_resolveOwnQueue x env s) (.after (Frame.awaitIf _ _) (.after (Frame.awaitIf _ _) (.lift fun _ => ?_)))
    refine .after (Frame.await _) (.lift fun _ => .after (Frame.await _) (.lift fun _ => ?_))
    refine .after (Frame.step (o := .enqueue (nextRunId x)) rfl _) ?_
    split
    · exact .raises _
    · exact .ok (Frame.refl _)

end Queue

/-! ## Activities -/

section Activities

variable {x : Execution} {env : Env} {s : Interp} {c : Scope} {R : Interp → Interp → Prop} [ActivityFrame c R] {k : Nat}

theorem along_launchAttempt {e : ActivityExec} (hk : c.acts k) : Along R s id (s.launchAttempt x k e) := by
  unfold launchAttempt attemptStepFor
  split
  · refine .ok (Frame.trans (ActivityFrame.modify (f := .launched) hk (fun _ => rfl) s) ?_)
    exact Frame.trans (ActivityFrame.attempt hk _ _ _ _) (Frame.other rfl (Nat.le_succ _))
  · exact .raises _

theorem along_resolveActivity {e : ActivityExec} {o : ActivityOutcome} (hk : c.acts k) :
    Along R s id (s.resolveActivity k e o) := by
  unfold resolveActivity
  split
  · exact .raises _
  · exact .ok (ActivityFrame.resolve hk s o)

theorem along_failActivity {e : ActivityExec} {f : FailureEnvelope} {t : Option RetryState} (hk : c.acts k) :
    Along R s id (s.failActivity env k e f t) := by
  unfold failActivity
  exact .after (ActivityFrame.pop s k) (.lift fun c => along_resolveActivity hk)

theorem frame_launchBackoff (hk : c.acts k) (s : Interp) (d : Seconds) : R s (s.launchBackoff k d) :=
  Frame.trans (ActivityFrame.modify (f := .backOff d) hk (fun _ => rfl) s) (Frame.launchWaiter rfl _ _ _)

theorem along_retryOrFail {e : ActivityExec} {f : FailureEnvelope} (hk : c.acts k) :
    Along R s id (s.retryOrFail env k e f) := by
  unfold retryOrFail
  refine .lift fun d => ?_
  obtain ⟨_ | delay, t⟩ := d
  · exact along_failActivity hk
  · exact .ok (frame_launchBackoff hk s delay)

theorem frame_armDeadline (hk : c.acts k) (s : Interp) (d : Option Seconds × DeadlineType) :
    R s (s.armDeadline k d) := by
  unfold armDeadline
  split
  · next t _ =>
    exact Frame.trans (ActivityFrame.modify (f := .parkFor d.2.timeoutType (max (1 / 20) t)) hk (fun _ => rfl) s)
      (Frame.launchWaiter rfl _ _ _)
  · exact Frame.refl s

theorem frame_armHeartbeat (hk : c.acts k) (s : Interp) (d : Option Seconds) : R s (s.armHeartbeat k d) := by
  unfold armHeartbeat
  split
  · exact Frame.trans (ActivityFrame.modify (f := .heartbeat false) hk (fun _ => rfl) s) (Frame.launchWaiter rfl _ _ _)
  · exact Frame.refl s

theorem frame_parkActivity (hk : c.acts k) (s : Interp) (e : ActivityExec) (a b : Seconds) :
    R s (s.parkActivity k e a b) := by
  have hpark : R s (s.setActivity k .park) := ActivityFrame.modify (f := .park) hk (fun _ => rfl) s
  exact Frame.trans hpark (Frame.trans (frame_armDeadline hk _ _) (frame_armHeartbeat hk _ _))

theorem along_activityEvent {r : TaskResult} (hk : c.acts k) : Along R s id (s.deliverActivityEvent x env k r) := by
  unfold deliverActivityEvent
  split
  · exact .ok (ActivityFrame.pop s k)
  · next e _ =>
    split
    · exact .ok (ActivityFrame.pop s k)
    · split
      · refine .after (frame_advanceTime s (some (s.timeSeconds + e.pendingWaitSeconds))) ?_
        exact .after (ActivityFrame.modify (f := .nextAttempt) hk (fun _ => rfl) _) (along_launchAttempt hk)
      · split
        · next a b => exact .ok (Frame.trans (frame_advanceTime s (some b)) (frame_parkActivity hk _ _ _ _))
        · next v b =>
          exact .after (frame_advanceTime s (some b)) (.after (ActivityFrame.pop _ k) (along_resolveActivity hk))
        · next f b _ =>
          refine .after (frame_advanceTime s (some b)) (along_confirmsCancel.bind fun c => ?_)
          cases c
          · exact along_retryOrFail hk
          · exact .ok (Frame.trans (ActivityFrame.pop _ k) (ActivityFrame.resolve hk _ _))
        · exact .raises _
        · exact .raises _

theorem along_queuedActivityEvent {r : TaskResult} (hk : c.acts k) :
    Along R s id (s.deliverQueuedActivityEvent env k r) := by
  unfold deliverQueuedActivityEvent
  split
  · exact .ok (ActivityFrame.pop s k)
  · split
    · exact .ok (ActivityFrame.pop s k)
    · have hpop : ∀ t, R s ((s.advanceTime t).popActivity k) := fun t =>
        Frame.trans (frame_advanceTime s t) (ActivityFrame.pop _ k)
      split
      · exact .after (hpop _) (along_resolveActivity hk)
      · refine .after (hpop _) (along_confirmsCancel.bind fun c => ?_)
        cases c
        · exact along_failActivity hk
        · exact .ok (ActivityFrame.resolve hk _ _)
      · exact .after (hpop _) (.raises _)
      · exact .raises _
      · exact .raises _

theorem along_failAsyncAttempt {e : ActivityExec} {f : FailureEnvelope} (hk : c.acts k) :
    Along R s id (s.failAsyncAttempt env k e f) :=
  .after (ActivityFrame.modify (f := .unpark) hk (fun _ => rfl) s) (along_retryOrFail hk)

theorem along_parkedTimeout {t : TimeoutType} (hk : c.acts k) : Along R s id (s.asyncParkedTimeout env k t) := by
  unfold asyncParkedTimeout
  split
  · exact .ok (Frame.refl s)
  · split
    · exact .ok (Frame.refl s)
    · exact .after (frame_retireParkedTimers s k) (along_failAsyncAttempt hk)

theorem along_parkTimeout (hk : c.acts k) : Along R s id (s.deliverParkTimeout env k) := by
  unfold deliverParkTimeout
  split
  · exact along_parkedTimeout hk
  · next e _ =>
    refine .after (frame_advanceTime s (some (s.timeSeconds + e.pendingWaitSeconds))) ?_
    exact .after (ActivityFrame.modify (f := .charged) hk (fun _ => rfl) _) (along_parkedTimeout hk)

theorem along_heartbeatCheck (hk : c.acts k) : Along R s id (s.asyncHeartbeatCheck env k) := by
  unfold asyncHeartbeatCheck
  split
  · exact .ok (Frame.refl s)
  · split
    · exact .ok (Frame.refl s)
    · split
      · exact along_parkedTimeout hk
      · refine .after (ActivityFrame.modify (f := .heartbeat false) hk (fun _ => rfl) s) ?_
        dsimp only
        split
        · exact .ok (Frame.launchWaiter rfl _ _ _)
        · exact .raises _

/-- An outside completion, of a park that may change. -/
theorem along_activityResult {i : String} {d : Completion} (hk : ∀ k e, s.asyncPendingById i = some (k, e) → c.acts k) :
    Along R s id (s.applyActivityResult x env i d) := by
  unfold applyActivityResult
  split
  · exact .ok (Frame.refl s)
  · next k e he =>
    have hk := hk k e he
    refine .after (frame_retireParkedTimers s k) ?_
    dsimp only
    split
    · exact .ok (Frame.trans (ActivityFrame.pop _ k) (ActivityFrame.resolve hk _ _))
    · refine .after (ActivityFrame.pop _ k) (.after (Frame.await _) ?_)
      exact .lift fun v => along_resolveActivity hk
    · exact along_failAsyncAttempt hk

theorem along_activityHeartbeat {i : String} {ds : List Payload}
    (hk : ∀ k e, s.asyncPendingById i = some (k, e) → c.acts k) :
    Along R s id (s.applyActivityHeartbeat env i ds) := by
  unfold applyActivityHeartbeat
  split
  · exact .ok (Frame.refl s)
  · next k e he =>
    refine .after (ActivityFrame.modify (f := .heartbeat true) (hk k e he) (fun _ => rfl) s) ?_
    exact .after (Frame.awaitIf _ (!ds.isEmpty)) (.lift fun _ => .ok (Frame.refl _))

/-! ### The sweep and the close -/

theorem frame_signalQueuedActivityCancel {e : ActivityExec} (hm : c.marks) (he : s.pendingActivities.get? k = some e)
    (env : Env) (d : String) : R s (s.signalQueuedActivityCancel env e d) :=
  Frame.trans (ActivityFrame.mark hm he (List.mem_cons_self)) (Frame.step rfl _)

theorem frame_sweepWait (hm : c.marks) (env : Env) (s : Interp) (k : Nat) : R s (s.sweepWait env k) := by
  unfold sweepWait
  split
  · exact Frame.refl s
  · next e he =>
    split
    · exact frame_signalQueuedActivityCancel hm he env _
    · exact Frame.refl s

/-- The markers of an activity that is dropped could as well be set before. -/
theorem frame_sweepActivity (hm : c.marks) (env : Env) (s : Interp) (k : Nat) : R s (s.sweepActivity env k) := by
  unfold sweepActivity
  split
  · exact Frame.refl s
  · next e he =>
    have hgone : ∀ {u : Interp}, (∃ t, R s t ∧ t.pendingActivities.get? k = some e ∧ u = t.popActivity k) →
        R s (if e.asyncPending then u.step (.setEvent (.asyncActivityGone e.activityId) .flag) else u) := by
      rintro u ⟨t, ht, het, rfl⟩
      split
      · change R s ((t.step (.setEvent (.asyncActivityGone e.activityId) .flag)).popActivity k)
        have hkey : .asyncActivityGone e.activityId ∈ e.markers := List.mem_cons_of_mem _ List.mem_cons_self
        exact Frame.trans ht (Frame.trans (ActivityFrame.mark hm het hkey) (ActivityFrame.pop _ k))
      · exact Frame.trans ht (ActivityFrame.pop t k)
    refine Frame.trans (hgone ?_) (Frame.other rfl le_rfl)
    split
    · exact ⟨s, Frame.refl s, he, rfl⟩
    · exact ⟨s, Frame.refl s, he, rfl⟩
    · exact ⟨_, frame_signalQueuedActivityCancel hm he env _, he, rfl⟩

theorem frame_sweepCancellations (hm : c.marks) (env : Env) (s : Interp) : R s (s.sweepCancellations env) := by
  have hwaits : R s (s.queuedWaitCancelSeqs.foldl (sweepWait env) { s with queuedWaitCancelSeqs := [] }) := by
    refine Frame.trans ?_ (Frame.foldl (fun s k => frame_sweepWait hm env s k) _ _)
    exact Frame.other rfl le_rfl
  have hacts : ∀ s : Interp, R s (s.cancelledActivitySeqs.foldl (sweepActivity env) { s with cancelledActivitySeqs := [] }) := by
    intro s
    refine Frame.trans ?_ (Frame.foldl (fun s k => frame_sweepActivity hm env s k) _ _)
    exact Frame.other rfl le_rfl
  have hchildren : ∀ s : Interp, R s (s.cancelledChildSeqs.foldl (sweepChild env) { s with cancelledChildSeqs := [] }) := by
    intro s
    refine Frame.trans ?_ (Frame.foldl (fun s k => frame_sweepChild env s k) _ _)
    exact Frame.other rfl le_rfl
  exact Frame.trans (Frame.trans hwaits (hacts _)) (hchildren _)

theorem frame_cancelInFlight (hm : c.marks) (env : Env) (s : Interp) : R s (s.cancelInFlight env) := by
  refine frame_foldl_pending (fun {t k e} he => ?_) (fun t e => ?_) s
  · split
    · exact frame_signalQueuedActivityCancel hm he env _
    · exact Frame.refl t
  · split <;> rfl

theorem frame_announceGone (hm : c.marks) (s : Interp) : R s s.announceGone := by
  refine frame_foldl_pending (fun {t k e} he => ?_) (fun t e => ?_) s
  · split
    · exact ActivityFrame.mark hm he (List.mem_cons_of_mem _ List.mem_cons_self)
    · exact Frame.refl t
  · split <;> rfl

/-! ### The command -/

theorem along_launchQueuedActivity {e : ActivityExec} {q : String} (hk : c.acts k) (hq : c.queued k) (hm : c.marks)
    (he : ∃ e', s.pendingActivities.get? k = some e' ∧ e'.activityId = e.activityId) :
    Along R s id (s.launchQueuedActivity x env k e q) := by
  have hrefused : ∀ {s : Interp} {f : FailureError} {m : String}, Along R s id
      (if e.futureCancelled then .ok (s.popActivity k) else
        (s.popActivity k).resolveActivity k e (.failed (activityError e m none f))) := by
    intro s f m
    split
    · exact .ok (ActivityFrame.pop s k)
    · exact .after (ActivityFrame.pop s k) (along_resolveActivity hk)
  unfold launchQueuedActivity
  refine .after (Frame.await s) ?_
  dsimp only
  split
  · exact hrefused
  · refine .after (Frame.step (o := .enqueue (activityDbosId x.workflowId k)) rfl _) ?_
    split
    · exact hrefused
    · refine .after (ActivityFrame.dispatch hk hq _ (activityDbosId x.workflowId k)) ?_
      refine .after (Frame.launchWaiter (o := .activityResult (activityDbosId x.workflowId k)) rfl _ .qActivity k) ?_
      refine .ok ?_
      split
      · obtain ⟨e', he', hid⟩ := he
        have hmark : e.markers = (e'.dispatched (activityDbosId x.workflowId k)).markers := by
          simp only [ActivityExec.markers, ActivityExec.dispatched, hid]
        refine Frame.trans (ActivityFrame.mark hm (k := k) (e := e'.dispatched (activityDbosId x.workflowId k)) ?_
          (hmark ▸ List.mem_cons_self)) (Frame.step rfl _)
        change (s.pendingActivities.modify k _).get? k = _
        rw [Dict.get?_modify_self, he']
        rfl
      · exact Frame.refl _

/-- The command of an activity: it goes to a queue only if that is not the own
queue. -/
theorem along_processActivity [QueueFrame env R] (hk : c.acts k) (hm : c.marks)
    (hq : ∀ e q, s.pendingActivities.get? k = some e → e.taskQueue = some q → some q ≠ s.ownQueue env → c.queued k) :
    Along R s id (s.processActivity x env k) := by
  unfold processActivity
  split
  · exact .ok (Frame.refl s)
  · next e he =>
    refine along_encodeCall.bind_eq fun a ha => ?_
    obtain ⟨⟨ps, hs⟩, s₁⟩ := a
    obtain ⟨l, rfl⟩ := traces_encodeCall ha
    generalize hs₁ : ({ s with trace := s.trace ++ l } : Interp) = s₁
    have he₁ : s₁.pendingActivities.get? k = some e := by rw [← hs₁]; exact he
    have hown₁ : s₁.ownQueue env = s.ownQueue env := by rw [← hs₁]; rfl
    have hencoded : R s₁ (s₁.setActivity k (.encoded ps hs)) :=
      ActivityFrame.modify (f := .encoded ps hs) hk (fun _ => rfl) s₁
    have he₂ : (s₁.setActivity k (.encoded ps hs)).pendingActivities.get? k = some (e.encoded ps hs) := by
      change (s₁.pendingActivities.modify k _).get? k = _
      rw [Dict.get?_modify_self, he₁]
      rfl
    have hown₂ : (s₁.setActivity k (.encoded ps hs)).ownQueue env = s.ownQueue env := hown₁
    refine .after hencoded ?_
    dsimp only
    generalize s₁.setActivity k (.encoded ps hs) = s₂ at he₂ hown₂ ⊢
    cases htask : (e.encoded ps hs).taskQueue with
    | none => exact along_checkReplayHorizon.bind fun s₃ => along_launchAttempt hk
    | some queue =>
      refine .after (frame_resolveOwnQueue x env s₂) (along_checkReplayHorizon.bind_eq fun s₃ h₃ => ?_)
      obtain rfl := checkReplayHorizon_ok h₃
      dsimp only
      split
      · exact along_launchAttempt hk
      · next hne =>
        have hown : (s₂.resolveOwnQueue x env).ownQueueName = s.ownQueue env := (resolveOwnQueue_name x env s₂).trans hown₂
        have hp : (s₂.resolveOwnQueue x env).pendingActivities = s₂.pendingActivities :=
          congrArg Slots.acts (traces_resolveOwnQueue x env s₂)
        refine along_launchQueuedActivity hk (hq e queue he htask fun h => hne (h.trans hown.symm)) hm ⟨_, ?_, rfl⟩
        change (s₂.resolveOwnQueue x env).pendingActivities.get? k = _
        rw [hp, he₂]

/-- **The commands of a pass** keep a frame if the activities among them may
change; `σ` is where the pass has come from. -/
theorem along_processCommands [QueueFrame env R] {σ : Interp} (hm : c.marks) : ∀ (cs : List Command),
    (∀ k, .activity k ∈ cs → c.acts k) → (∀ {t k e q}, R σ t → .activity k ∈ cs → t.pendingActivities.get? k = some e →
      e.taskQueue = some q → some q ≠ t.ownQueue env → c.queued k) →
    ∀ (b : Bool) {s : Interp}, R σ s → Along R s (·.2) (processCommands x env cs b s) := by
  intro cs
  induction cs with
  | nil => exact fun _ _ b s _ => .ok (Frame.refl s)
  | cons d cs ih =>
    intro hacts hq b s hs
    have hd : Along R s (·.2) (s.processCommand x env d) := by
      by_cases hk : ∃ k, d = .activity k
      · obtain ⟨k, rfl⟩ := hk
        refine (along_processActivity (hacts k List.mem_cons_self) hm fun e q he => ?_).map fun _ => rfl
        exact hq hs List.mem_cons_self he
      · exact along_command fun k h => hk ⟨k, h⟩
    refine hd.bind_eq fun a ha => ?_
    exact ih (fun k h => hacts k (List.mem_cons_of_mem _ h)) (fun ht h => hq ht (List.mem_cons_of_mem _ h)) _
      (Frame.trans hs (hd.of_ok ha))

end Activities

end Interp

end Dbosify
