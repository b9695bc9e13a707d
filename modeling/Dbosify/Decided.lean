/-
What is decided for good.

Only user code sets the outcome, and `_set_outcome` keeps the one it finds.
Only `patched` memoizes an answer, and it keeps the one it finds. Only the
command `patched` queues writes a marker. So the driver's part of a pass and
a round leave all of it alone (`decided_round`), and an id is answered true
exactly when its marker is written or about to be (`Marked`).
-/
import Dbosify.Patched
import Dbosify.TimerOrder

namespace Dbosify

open Py (Dict)

/-- Whether an act is about a patch marker. -/
def isMark (a : Coop.Act Op) : Bool := !(a.called.all unmarked && a.spawned.all unmarked)

namespace Interp

/-- The outcome, the answers of `patched`, the markers still to be written,
and those written. -/
structure Decided where
  outcome : Option Outcome
  patchesMemoized : Dict String Bool
  pendingPatches : Dict Nat String
  patchSeq : Nat
  marks : List (Coop.Act Op)

/-- The markers written. -/
def marks (s : Interp) : List (Coop.Act Op) := s.acts.filter isMark

def decided (s : Interp) : Decided where
  outcome := s.outcome
  patchesMemoized := s.patchesMemoized
  pendingPatches := s.pendingPatches
  patchSeq := s.patchSeq
  marks := s.marks

variable {x : Execution} {env : Env} {s s' : Interp}

/-! ## Acts -/

theorem marks_emit (s : Interp) (a : Coop.Act Op) : (s.emit a).marks = s.marks ++ [a].filter isMark := by
  rw [marks, acts_emit, List.filter_append]
  rfl

theorem decided_emit (s : Interp) {a : Coop.Act Op} (ha : isMark a = false) : (s.emit a).decided = s.decided := by
  unfold decided
  rw [marks_emit, List.filter_cons_of_neg (by simp [ha]), List.filter_nil, List.append_nil]
  rfl

@[simp] theorem decided_await (s : Interp) : s.await.decided = s.decided := decided_emit s rfl

@[simp] theorem decided_awaitIf (s : Interp) (b : Bool) : (s.awaitIf b).decided = s.decided := by
  cases b
  · rfl
  · exact decided_await s

theorem decided_step (s : Interp) {o : Op} (ho : Dbosify.unmarked o = true) : (s.step o).decided = s.decided :=
  decided_emit s (by simp [isMark, Coop.Act.called, Coop.Act.spawned, ho])

@[simp] theorem decided_suspend (s : Interp) : s.suspend.decided = s.decided := by
  unfold decided marks
  rw [acts_suspend]
  rfl

theorem decided_launchWaiter (s : Interp) (kind : WaiterKind) (k : Nat) {o : Op} (ho : Dbosify.unmarked o = true) :
    (s.launchWaiter kind k o).decided = s.decided := by
  refine decided_emit s (a := if o.lazy then .spawn o else .launch o) ?_
  split <;> simp [isMark, Coop.Act.called, Coop.Act.spawned, ho]

theorem decided_foldl {α : Type} {f : Interp → α → Interp} (hf : ∀ s a, (f s a).decided = s.decided) (l : List α) :
    ∀ s : Interp, (l.foldl f s).decided = s.decided := by
  induction l with
  | nil => intro s; rfl
  | cons a l ih => intro s; exact (ih _).trans (hf s a)

@[simp] theorem decided_resolveCurrentRun (env : Env) (s : Interp) (i : String) :
    (s.resolveCurrentRun env i).decided = s.decided :=
  decided_foldl (fun s _ => decided_step s rfl) _ s

@[simp] theorem decided_sendCancel (env : Env) (s : Interp) (i : String) : (s.sendCancel env i).decided = s.decided :=
  (decided_step _ rfl).trans (decided_resolveCurrentRun env s i)

@[simp] theorem decided_signalQueuedActivityCancel (env : Env) (s : Interp) (e : ActivityExec) (d : String) :
    (s.signalQueuedActivityCancel env e d).decided = s.decided :=
  (decided_step _ rfl).trans (decided_step s rfl)

theorem decided_checkReplayHorizon (h : s.checkReplayHorizon x = .ok s') : s'.decided = s.decided := by
  rw [checkReplayHorizon_ok h]
  exact decided_emit s rfl

theorem decided_encodeCall {args : List Value} {hs : Headers} {r : List Payload × Headers}
    (h : s.encodeCall env args hs = .ok (r, s')) : s'.decided = s.decided := by
  simp only [encodeCall, bind_eq_ok, Except.ok.injEq, Prod.mk.injEq] at h
  obtain ⟨ps, -, hs', -, -, rfl⟩ := h
  simp

theorem decided_encodeOutgoing {o : Outgoing} {m : Message} (h : s.encodeOutgoing env o = .ok (m, s')) :
    s'.decided = s.decided := by
  cases o with
  | cancel reason t => cases h; rfl
  | signal name args hs t =>
    simp only [encodeOutgoing, bind_eq_ok, Except.ok.injEq, Prod.mk.injEq] at h
    obtain ⟨⟨r, s₁⟩, h₁, -, rfl⟩ := h
    exact decided_encodeCall h₁

theorem decided_decodeMessageArgs {d : Option HandlerDefn} {n : String} {args : List Payload} {vs : List Value}
    (h : s.decodeMessageArgs env d n args = .ok (vs, s')) : s'.decided = s.decided := by
  unfold decodeMessageArgs at h
  simp only at h
  split at h <;> simp only [bind_eq_ok, pure_eq_ok, Prod.mk.injEq] at h
  · obtain ⟨_, -, -, rfl⟩ := h; exact decided_awaitIf s _
  · obtain ⟨_, -, -, rfl⟩ := h; exact decided_awaitIf s _

theorem decided_decodeMessageHeaders {hs : Headers} {r : Headers} (h : s.decodeMessageHeaders env hs = .ok (r, s')) :
    s'.decided = s.decided := by
  simp only [decodeMessageHeaders, bind_eq_ok, pure_eq_ok, Prod.mk.injEq] at h
  obtain ⟨_, -, -, rfl⟩ := h
  exact decided_awaitIf s _

theorem decided_advanceTime (s : Interp) (t : Option Seconds) : (s.advanceTime t).decided = s.decided := by
  unfold advanceTime
  split
  · split <;> rfl
  · rfl

theorem decided_removeWaiter {w : Waiter} (h : s.removeWaiter w = .ok s') : s'.decided = s.decided := by
  unfold removeWaiter at h
  split at h
  · cases h; rfl
  · exact absurd h raise_ne_ok

/-! ## Activities -/

theorem decided_launchAttempt {k : Nat} {e : ActivityExec} (h : s.launchAttempt x k e = .ok s') : s'.decided = s.decided := by
  simp only [launchAttempt, bind_eq_ok] at h
  obtain ⟨_, -, h⟩ := h
  cases h
  exact decided_launchWaiter _ _ _ rfl

theorem decided_resolveActivity {k : Nat} {e : ActivityExec} {o : ActivityOutcome} (h : s.resolveActivity k e o = .ok s') :
    s'.decided = s.decided := by
  unfold resolveActivity at h
  split at h
  · exact absurd h raise_ne_ok
  · cases h; rfl

theorem decided_failActivity {k : Nat} {e : ActivityExec} {f : FailureEnvelope} {st : Option RetryState}
    (h : s.failActivity env k e f st = .ok s') : s'.decided = s.decided := by
  simp only [failActivity, bind_eq_ok] at h
  obtain ⟨_, -, h⟩ := h
  exact (decided_resolveActivity h).trans rfl

theorem decided_retryOrFail {k : Nat} {e : ActivityExec} {f : FailureEnvelope} (h : s.retryOrFail env k e f = .ok s') :
    s'.decided = s.decided := by
  simp only [retryOrFail, bind_eq_ok] at h
  obtain ⟨⟨delay, st⟩, -, h⟩ := h
  cases delay with
  | some d => cases h; exact decided_launchWaiter _ _ _ rfl
  | none => exact decided_failActivity h

theorem decided_parkActivity (s : Interp) (k : Nat) (e : ActivityExec) (a b : Seconds) :
    (s.parkActivity k e a b).decided = s.decided := by
  have hdeadline : ∀ (s : Interp) (p : Option Seconds × DeadlineType), (s.armDeadline k p).decided = s.decided := by
    intro s p
    unfold armDeadline
    split
    · exact decided_launchWaiter _ _ _ rfl
    · rfl
  have hheartbeat : ∀ (s : Interp) (hb : Option Seconds), (s.armHeartbeat k hb).decided = s.decided := by
    intro s hb
    unfold armHeartbeat
    split
    · exact decided_launchWaiter _ _ _ rfl
    · rfl
  exact (hheartbeat _ _).trans (hdeadline _ _)

theorem decided_activityEvent {k : Nat} {r : TaskResult} (h : s.deliverActivityEvent x env k r = .ok s') :
    s'.decided = s.decided := by
  unfold deliverActivityEvent at h
  split at h
  · cases h; rfl
  · split at h
    · cases h; rfl
    · split at h
      · exact (decided_launchAttempt h).trans (decided_advanceTime s _)
      · split at h
        · cases h
          exact (decided_parkActivity _ _ _ _ _).trans (decided_advanceTime s _)
        · exact (decided_resolveActivity h).trans (decided_advanceTime s _)
        · simp only [bind_eq_ok] at h
          obtain ⟨c, -, h⟩ := h
          split at h
          · cases h
            exact decided_advanceTime s _
          · exact (decided_retryOrFail h).trans (decided_advanceTime s _)
        · exact absurd h raise_ne_ok
        · exact absurd h raise_ne_ok

theorem decided_queuedActivityEvent {k : Nat} {r : TaskResult} (h : s.deliverQueuedActivityEvent env k r = .ok s') :
    s'.decided = s.decided := by
  unfold deliverQueuedActivityEvent at h
  split at h
  · cases h; rfl
  · split at h
    · cases h; rfl
    · split at h
      · exact (decided_resolveActivity h).trans (decided_advanceTime s _)
      · simp only [bind_eq_ok] at h
        obtain ⟨c, -, h⟩ := h
        split at h
        · cases h
          exact decided_advanceTime s _
        · exact (decided_failActivity h).trans (decided_advanceTime s _)
      · exact absurd h raise_ne_ok
      · exact absurd h raise_ne_ok
      · exact absurd h raise_ne_ok

theorem decided_parkedTimeout {k : Nat} {t : TimeoutType} (h : s.asyncParkedTimeout env k t = .ok s') :
    s'.decided = s.decided := by
  unfold asyncParkedTimeout at h
  split at h
  · cases h; rfl
  · split at h
    · cases h; rfl
    · exact (decided_retryOrFail h).trans rfl

theorem decided_parkTimeout {k : Nat} (h : s.deliverParkTimeout env k = .ok s') : s'.decided = s.decided := by
  unfold deliverParkTimeout at h
  split at h
  · exact decided_parkedTimeout h
  · exact (decided_parkedTimeout h).trans (decided_advanceTime s _)

theorem decided_heartbeatCheck {k : Nat} (h : s.asyncHeartbeatCheck env k = .ok s') : s'.decided = s.decided := by
  unfold asyncHeartbeatCheck at h
  split at h
  · cases h; rfl
  · split at h
    · cases h; rfl
    · split at h
      · exact decided_parkedTimeout h
      · dsimp only at h
        split at h
        · cases h; exact decided_launchWaiter _ _ _ rfl
        · exact absurd h raise_ne_ok

theorem decided_activityResult {i : String} {c : Completion} (h : s.applyActivityResult x env i c = .ok s') :
    s'.decided = s.decided := by
  unfold applyActivityResult at h
  split at h
  · cases h; rfl
  · dsimp only at h
    split at h
    · cases h; rfl
    · simp only [bind_eq_ok] at h
      obtain ⟨_, -, h⟩ := h
      exact (decided_resolveActivity h).trans (decided_await _)
    · exact (decided_retryOrFail h).trans rfl

theorem decided_activityHeartbeat {i : String} {ds : List Payload} (h : s.applyActivityHeartbeat env i ds = .ok s') :
    s'.decided = s.decided := by
  unfold applyActivityHeartbeat at h
  split at h
  · cases h; rfl
  · simp only [bind_eq_ok, Except.ok.injEq] at h
    obtain ⟨_, -, rfl⟩ := h
    exact decided_awaitIf _ _

/-! ## Timers, children and messages -/

theorem decided_deliverTimer (s : Interp) (k : Nat) : (s.deliverTimer k).decided = s.decided := by
  unfold deliverTimer
  split
  · rfl
  · exact decided_advanceTime _ _

theorem decided_childEvent {k : Nat} {r : TaskResult} (h : s.deliverChildEvent env k r = .ok s') :
    s'.decided = s.decided := by
  unfold deliverChildEvent at h
  split at h
  · cases h; rfl
  · simp only at h
    split at h
    · cases h; rfl
    · split at h
      · cases h; exact decided_advanceTime _ _
      · simp only [bind_eq_ok, Except.ok.injEq] at h
        obtain ⟨_, -, rfl⟩ := h
        exact decided_advanceTime _ _
      · exact absurd h raise_ne_ok
      · exact absurd h raise_ne_ok

theorem decided_applySignal {e : SignalEnvelope} (h : s.applySignal x env e = .ok s') : s'.decided = s.decided := by
  unfold applySignal at h
  split at h
  · cases h; rfl
  · split at h
    · next r hr =>
      cases h
      rw [decodeMessageArgs_error hr, decided_awaitIf]
    · next args s₁ hr =>
      simp only [bind_eq_ok, Except.ok.injEq] at h
      obtain ⟨⟨hd, s₂⟩, h₂, rfl⟩ := h
      exact (decided_decodeMessageHeaders h₂).trans (decided_decodeMessageArgs hr)

theorem decided_applyUpdate {e : UpdateEnvelope} {args : List Value} (h : s.applyUpdate x env e args = .ok s') :
    s'.decided = s.decided := by
  unfold applyUpdate at h
  split at h
  · cases h; rfl
  · simp only at h
    split at h
    · cases h; rfl
    · simp only [bind_eq_ok] at h
      obtain ⟨⟨hd, s₁⟩, h₁, h⟩ := h
      have hheaders : s₁.decided = s.decided := (decided_decodeMessageHeaders h₁).trans rfl
      have hvalidated : ∀ b : Bool, (if b = true then s₁.step (.validateUpdate e.updateId) else s₁).decided = s.decided := by
        intro b
        split
        · exact (decided_step s₁ rfl).trans hheaders
        · exact hheaders
      split at h
      · cases h; exact hvalidated _
      · cases h; exact hvalidated _

theorem decided_applyQuery (e : QueryEnvelope) (args : List Value) : (s.applyQuery x env e args).decided = s.decided := by
  unfold applyQuery
  simp only
  split
  · rfl
  · split
    · next r hr =>
      have := congrArg decided (decodeMessageHeaders_error hr)
      exact Eq.trans this (decided_awaitIf s _)
    · next hd s₁ hr =>
      have := decided_decodeMessageHeaders hr
      split
      · split <;> exact this
      · exact this

theorem decided_deliverInbox {m : Option Message} (h : s.deliverInbox x env m = .ok s') : s'.decided = s.decided := by
  unfold deliverInbox at h
  split at h
  · cases h; rfl
  · next m =>
    have hs := decided_advanceTime s m.sentAt
    generalize s.advanceTime m.sentAt = s₁ at h hs
    rw [← hs]
    cases m with
    | signal e => exact decided_applySignal h
    | update e =>
      simp only [bind_eq_ok] at h
      obtain ⟨⟨args, s₂⟩, h₂, h⟩ := h
      exact (decided_applyUpdate h).trans (decided_decodeMessageArgs h₂)
    | query e =>
      simp only [bind_eq_ok, Except.ok.injEq] at h
      obtain ⟨⟨args, s₂⟩, h₂, rfl⟩ := h
      exact (decided_applyQuery e args).trans (decided_decodeMessageArgs h₂)
    | activityResult i c t => exact decided_activityResult h
    | activityHeartbeat i ds t => exact decided_activityHeartbeat h
    | cancel reason t =>
      cases h
      unfold applyCancel
      split
      · rfl
      · dsimp only
        split <;> rfl
    | rehydrateStop t => cases h; rfl
    | unknown | malformed => cases h; rfl

/-- **No event decides anything.** -/
theorem decided_event {w : Waiter} {r : TaskResult} (h : s.deliverEvent x env w r = .ok s') : s'.decided = s.decided := by
  unfold deliverEvent at h
  split at h
  · split at h
    · exact decided_deliverInbox h
    · exact absurd h raise_ne_ok
    · exact absurd h raise_ne_ok
  · cases h; exact decided_deliverTimer s _
  · exact decided_activityEvent h
  · exact decided_queuedActivityEvent h
  · exact decided_parkTimeout h
  · exact decided_heartbeatCheck h
  · exact decided_childEvent h

/-- Nor does a round. -/
theorem decided_round {done : Done} (h : s.round x env done = .ok s') : s'.decided = s.decided := by
  refine foldlM_induct (P := fun _ s' => s'.decided = s.decided) h (decided_step s rfl) fun hP hf => ?_
  unfold deliverWaiter at hf
  split at hf
  · cases hf; exact hP
  · simp only [bind_eq_ok] at hf
    obtain ⟨s₂, h₂, h₃⟩ := hf
    exact ((decided_event h₃).trans (decided_removeWaiter h₂)).trans hP

/-! ## The sweep -/

theorem decided_sweepWait (env : Env) (s : Interp) (k : Nat) : (s.sweepWait env k).decided = s.decided := by
  unfold sweepWait
  split
  · rfl
  · split
    · exact decided_signalQueuedActivityCancel env s _ _
    · rfl

theorem decided_sweepActivity (env : Env) (s : Interp) (k : Nat) : (s.sweepActivity env k).decided = s.decided := by
  unfold sweepActivity
  split
  · rfl
  · next e he =>
    have hgone : ∀ s₁ : Interp, (if e.asyncPending then s₁.step (.setEvent (.asyncActivityGone e.activityId) .flag)
        else s₁).decided = s₁.decided := by
      intro s₁
      split
      · exact decided_step s₁ rfl
      · rfl
    refine (hgone _).trans ?_
    split
    · rfl
    · rfl
    · exact decided_signalQueuedActivityCancel env _ _ _

theorem decided_sweepChild (env : Env) (s : Interp) (k : Nat) : (s.sweepChild env k).decided = s.decided := by
  unfold sweepChild
  split
  · rfl
  · simp only
    split
    · exact decided_sendCancel env _ _
    · rfl

theorem decided_sweepCancellations (env : Env) (s : Interp) : (s.sweepCancellations env).decided = s.decided :=
  (decided_foldl (decided_sweepChild env) _ _).trans
    ((decided_foldl (decided_sweepActivity env) _ _).trans (decided_foldl (decided_sweepWait env) _ _))

theorem decided_flush {b : Bool} (h : s.flushPendingHandlerSignals x env = .ok (b, s')) : s'.decided = s.decided := by
  unfold flushPendingHandlerSignals at h
  split at h
  · cases h; rfl
  · simp only [bind_eq_ok, Except.ok.injEq, Prod.mk.injEq] at h
    obtain ⟨s₁, h₁, -, rfl⟩ := h
    exact foldlM_induct (P := fun _ s' => s'.decided = s.decided) h₁ rfl fun hP hf => (decided_applySignal hf).trans hP

/-! ## Commands -/

theorem decided_resolveOwnQueue (x : Execution) (env : Env) (s : Interp) :
    (s.resolveOwnQueue x env).decided = s.decided := by
  unfold resolveOwnQueue
  split
  · rfl
  · exact decided_step s rfl

theorem decided_processTimer {k : Nat} {b : Bool} (h : s.processTimer x k = .ok (b, s')) : s'.decided = s.decided := by
  unfold processTimer at h
  split at h
  · cases h; rfl
  · dsimp only at h
    split at h
    · cases h; rfl
    · simp only [bind_eq_ok, Except.ok.injEq, Prod.mk.injEq] at h
      obtain ⟨s₁, h₁, -, rfl⟩ := h
      exact (decided_launchWaiter s₁ _ _ rfl).trans (decided_checkReplayHorizon h₁)

theorem decided_launchQueuedActivity {k : Nat} {e : ActivityExec} {q : String}
    (h : s.launchQueuedActivity x env k e q = .ok s') : s'.decided = s.decided := by
  unfold launchQueuedActivity at h
  dsimp only at h
  have hstep := fun o (ho : Dbosify.unmarked o = true) => (decided_step s.await ho).trans (decided_await s)
  split at h
  · split at h
    · cases h; exact decided_await s
    · exact (decided_resolveActivity h).trans (decided_await s)
  · split at h
    · split at h
      · cases h; exact hstep _ rfl
      · exact (decided_resolveActivity h).trans (hstep _ rfl)
    · have hl := fun o (ho : Dbosify.unmarked o = true) (s₁ : Interp) => decided_launchWaiter s₁ .qActivity k ho
      simp only [Except.ok.injEq] at h
      subst h
      split
      · exact (decided_signalQueuedActivityCancel env _ _ _).trans ((hl _ rfl _).trans (hstep _ rfl))
      · exact (hl _ rfl _).trans (hstep _ rfl)

theorem decided_processActivity {k : Nat} (h : s.processActivity x env k = .ok s') : s'.decided = s.decided := by
  unfold processActivity at h
  split at h
  · cases h; rfl
  · simp only [bind_eq_ok] at h
    obtain ⟨⟨⟨ps, hs⟩, s₁⟩, h₁, s₂, h₂, h⟩ := h
    have hlooked : s₂.decided = s.decided := by
      rw [decided_checkReplayHorizon h₂, ← decided_encodeCall h₁]
      split
      · exact decided_resolveOwnQueue x env _
      · rfl
    split at h
    · exact (decided_launchAttempt h).trans hlooked
    · split at h
      · exact (decided_launchAttempt h).trans hlooked
      · exact (decided_launchQueuedActivity h).trans hlooked

theorem decided_encodeCall_error {args : List Value} {hs : Headers} {r : Raised}
    (h : s.encodeCall env args hs = .error r) : r.state.decided = s.decided := by
  unfold encodeCall at h
  simp only at h
  cases h₁ : lift s.await (encodeValues env.converter args) with
  | error r' =>
    rw [h₁] at h
    cases h
    obtain ⟨e, -, rfl⟩ := lift_eq_error.1 h₁
    exact decided_await s
  | ok ps =>
    rw [h₁, ok_bind] at h
    cases h₂ : lift (s.await.awaitIf (!hs.isEmpty)) (encodeHeaders env.converter hs) with
    | error r' =>
      rw [h₂] at h
      cases h
      obtain ⟨e, -, rfl⟩ := lift_eq_error.1 h₂
      simp
    | ok hs' => rw [h₂] at h; cases h

theorem decided_recordChild (x : Execution) (env : Env) (s : Interp) (c : ChildExec) :
    (s.recordChild x env c).decided = s.decided := by
  have hwait : ∀ s₁ : Interp, (if (c.taskQueue.or s₁.ownQueueName).isSome then s₁.await else s₁).decided = s₁.decided := by
    intro s₁
    split
    · exact decided_await s₁
    · rfl
  unfold recordChild
  refine (decided_step _ rfl).trans ((hwait _).trans ?_)
  exact (decided_resolveOwnQueue x env _).trans (decided_step s rfl)

theorem decided_enqueueChild (x : Execution) (env : Env) (s : Interp) (c : ChildExec) :
    (enqueued (s.enqueueChild x env c)).decided = s.decided := by
  cases hr : env.workflowRegistered c.typeName with
  | false =>
    unfold enqueueChild
    rw [if_pos (by simp [hr])]
    rfl
  | true =>
    cases ht : env.childIdTaken c.childId with
    | true =>
      unfold enqueueChild
      rw [if_neg (by simp [hr]), if_pos ht]
      exact decided_step s rfl
    | false =>
      rw [enqueueChild_recorded hr ht, ← decided_recordChild x env s c]
      split
      · next r he => exact decided_encodeCall_error he
      · next r s₁ he =>
        split <;> exact (decided_step s₁ rfl).trans (decided_encodeCall he)

theorem decided_startChild (x : Execution) (env : Env) (s : Interp) (k : Nat) (c : ChildExec) :
    (s.startChild x env k c).decided = s.decided := by
  have h := decided_enqueueChild x env s c
  unfold startChild
  cases he : s.enqueueChild x env c with
  | error r =>
    obtain ⟨failure, s₁⟩ := r
    rw [he] at h
    rw [← h]
    dsimp only
    split <;> rfl
  | ok s₁ =>
    rw [he] at h
    refine (decided_launchWaiter _ _ _ rfl).trans (Eq.trans ?_ h)
    split <;> rfl

theorem decided_processSend {k : Nat} (h : s.processSend x env k = .ok s') : s'.decided = s.decided := by
  simp only [processSend, bind_eq_ok] at h
  obtain ⟨s₁, h₁, h⟩ := h
  have hchecked := decided_checkReplayHorizon h₁
  split at h
  · exact absurd h raise_ne_ok
  · next p hp =>
    simp only [bind_eq_ok] at h
    obtain ⟨⟨m, s₂⟩, h₂, h⟩ := h
    have hencoded : s₂.decided = s.decided := (decided_encodeOutgoing h₂).trans hchecked
    have hsent : ∀ o : Op, Dbosify.unmarked o = true →
        ((if p.resolveChain = true then s₂.resolveCurrentRun env p.target else s₂).step o).decided = s.decided := by
      intro o ho
      refine (decided_step _ ho).trans ?_
      split
      · exact (decided_resolveCurrentRun env s₂ _).trans hencoded
      · exact hencoded
    dsimp only at h
    split at h <;> cases h <;> exact hsent _ rfl

theorem decided_processAttributes (h : s.processAttributes x env = .ok s') : s'.decided = s.decided := by
  simp only [processAttributes, bind_eq_ok, Except.ok.injEq] at h
  obtain ⟨_, -, s₁, h₁, rfl⟩ := h
  exact (decided_step s₁ rfl).trans ((decided_checkReplayHorizon h₁).trans (decided_await s))

/-- **Only the command of a marker decides anything.** -/
theorem decided_command {c : Command} {b : Bool} (hc : ∀ k, c ≠ .patch k) (h : s.processCommand x env c = .ok (b, s')) :
    s'.decided = s.decided := by
  have hmap : ∀ {m : M Interp} {p : Bool}, m.map (p, ·) = .ok (b, s') → m = .ok s' := by
    intro m p hm
    cases m with
    | error r => cases hm
    | ok s₁ => cases hm; rfl
  cases c with
  | timer k => exact decided_processTimer h
  | activity k => exact decided_processActivity (hmap h)
  | child k =>
    simp only [processCommand, bind_eq_ok] at h
    obtain ⟨s₁, h₁, h⟩ := h
    split at h
    · exact absurd h raise_ne_ok
    · cases h
      exact (decided_startChild x env s₁ k _).trans (decided_checkReplayHorizon h₁)
  | send k => exact decided_processSend (hmap h)
  | attributes => exact decided_processAttributes (hmap h)
  | patch k => exact absurd rfl (hc k)

/-- What that command does: it writes the marker, which is no longer owed. -/
theorem decided_patch {k : Nat} {b : Bool} (h : s.processCommand x env (.patch k) = .ok (b, s')) :
    ∃ id, s.pendingPatches.get? k = some id ∧
      s'.decided = { s.decided with pendingPatches := s.pendingPatches.pop k, marks := s.marks ++ [.step (.patch id)] } := by
  simp only [processCommand, except_map_eq_ok, Prod.mk.injEq] at h
  obtain ⟨s₂, h, -, rfl⟩ := h
  unfold processPatch at h
  split at h
  · exact absurd h raise_ne_ok
  · next id hid =>
    simp only [bind_eq_ok, Except.ok.injEq] at h
    obtain ⟨s₁, h₁, rfl⟩ := h
    refine ⟨id, hid, ?_⟩
    have hchecked := decided_checkReplayHorizon h₁
    have hmarks : (s₁.step (.patch id)).marks = s₁.marks ++ [.step (.patch id)] := marks_emit s₁ (.step (.patch id))
    have hdec : (s₁.step (.patch id)).decided = { s₁.decided with marks := s₁.marks ++ [.step (.patch id)] } := by
      unfold decided
      rw [hmarks]
      rfl
    rw [hdec, hchecked, show s₁.marks = s.marks from congrArg Decided.marks hchecked]
    rfl

/-! ## The end of a pass, and the close -/

theorem decided_flushOutbox (h : s.flushOutbox env = .ok s') : s'.decided = s.decided := by
  refine foldlM_induct (P := fun _ s' => s'.decided = s.decided) h rfl fun hP hf => ?_
  rw [← hP]
  unfold flushReply at hf
  split at hf
  · simp only [bind_eq_ok, Except.ok.injEq] at hf
    obtain ⟨_, -, rfl⟩ := hf
    exact (decided_step _ rfl).trans (decided_await _)
  · cases hf
    exact decided_step _ rfl

theorem decided_settle {d : Bool} {t : Turn} (h : s.settle x env d = .ok (t, s')) : s'.decided = s.decided := by
  unfold settle at h
  split at h
  · cases h; rfl
  · simp only [bind_eq_ok] at h
    obtain ⟨s₁, h₁, h⟩ := h
    have hflushed := decided_flushOutbox h₁
    split at h <;> cases h
    · exact hflushed
    · refine (decided_suspend _).trans (Eq.trans ?_ hflushed)
      unfold ensureInboxWaiter
      split
      · rfl
      · exact decided_launchWaiter s₁ _ _ rfl

theorem decided_foldl_snd {α β : Type} {f : β × Interp → α → β × Interp} (hf : ∀ r a, (f r a).2.decided = r.2.decided)
    (l : List α) : ∀ r : β × Interp, (l.foldl f r).2.decided = r.2.decided := by
  induction l with
  | nil => intro r; rfl
  | cons a l ih => intro r; exact (ih _).trans (hf r a)

theorem decided_terminateChildTree (env : Env) (n : Nat) : ∀ (id : String) (r : List String × Interp),
    (terminateChildTree env n id r).2.decided = r.2.decided := by
  induction n with
  | zero => exact fun _ r => rfl
  | succ n ih =>
    intro id r
    obtain ⟨visited, s⟩ := r
    have hprobe : ((s.resolveCurrentRun env id).step (.status (env.currentRun id))).decided = s.decided :=
      (decided_step _ rfl).trans (decided_resolveCurrentRun env s id)
    simp only [terminateChildTree]
    split
    · rfl
    · split
      · exact hprobe
      · refine (decided_foldl_snd (fun r g => ?_) _ _).trans
          (((decided_step _ rfl).trans (decided_step _ rfl)).trans hprobe)
        obtain ⟨child, policy⟩ := g
        cases policy with
        | abandon => rfl
        | requestCancel => exact decided_step r.2 rfl
        | terminate | unspecified => exact ih child r

/-- **Nor does the close.** -/
theorem decided_closeRun (x : Execution) (env : Env) (s : Interp) : (s.closeRun x env).decided = s.decided := by
  have hcancel : ∀ s : Interp, (s.cancelInFlight env).decided = s.decided := by
    refine fun s => decided_foldl (fun s e => ?_) _ s
    split
    · exact decided_signalQueuedActivityCancel env s _ _
    · rfl
  have hsweep : ∀ s : Interp, (s.sweepChildrenOnClose env).decided = s.decided := by
    refine fun s => decided_foldl (fun s c => ?_) _ s
    split
    · rfl
    · split
      · rfl
      · exact decided_sendCancel env s _
      · exact decided_terminateChildTree env _ _ ([], s)
      · exact decided_terminateChildTree env _ _ ([], s)
  have hdown : ∀ s : Interp, s.tearDown.decided = s.decided := fun s => decided_awaitIf s _
  have hfail : ∀ s : Interp, s.failAbandonedUpdates.decided = s.decided := by
    refine fun s => decided_foldl (fun s h => ?_) _ s
    split
    · exact decided_step s rfl
    · rfl
  have hgone : ∀ s : Interp, s.announceGone.decided = s.decided := by
    refine fun s => decided_foldl (fun s e => ?_) _ s
    split
    · exact decided_step s rfl
    · rfl
  unfold closeRun
  dsimp only
  split
  · rw [hgone, hfail, hdown, hsweep, hcancel]
  · exact hdown s

/-! ## User code -/

/-- A request that neither ends a coroutine nor asks for a patch. -/
def plainOp : UserOp → Bool
  | .patched _ | .startHandler _ | .handlerEnds _ _ | .primaryEnds _ | .abort _ => false
  | _ => true

/-- Most requests decide nothing. -/
theorem decided_userOp (s : Interp) {o : UserOp} (ho : plainOp o = true) : (M.state (o.run x s)).decided = s.decided := by
  cases o <;> simp only [UserOp.run]
  case startActivity a =>
    unfold startActivity assertNotReadOnly attemptStepFor
    split
    · rfl
    · simp only [ok_bind]
      split
      · split
        · simp only [ok_bind]
          split
          · rfl
          · split <;> rfl
        · rfl
      · split
        · rfl
        · split <;> rfl
  case requestActivityCancel k =>
    unfold requestActivityCancel cancelActivityFuture
    split
    · rfl
    · split
      · simp only
        split <;> rfl
      · split
        · rfl
        · split <;> rfl
  case cancelActivityAwait k =>
    unfold cancelActivityFuture
    split
    · rfl
    · split <;> rfl
  case createTimer d =>
    unfold createTimer assertNotReadOnly
    split
    · rfl
    · simp only [ok_bind]
      split <;> rfl
  case cancelTimer k => unfold cancelTimer; split <;> rfl
  case startChildWorkflow c =>
    unfold startChildWorkflow assertNotReadOnly
    split
    · rfl
    · simp only [ok_bind]
      split <;> rfl
  case cancelChildStart k => rfl
  case cancelChildResult k =>
    unfold cancelChildResult
    split
    · rfl
    · split <;> rfl
  case sendToWorkflow t e c => unfold sendToWorkflow assertNotReadOnly; split <;> rfl
  case cancelSend k => rfl
  case upsertMemo u => unfold upsertMemo assertNotReadOnly; split <;> rfl
  case setHandler c n d =>
    unfold setHandler assertNotReadOnly
    split
    · rfl
    · simp only [ok_bind]
      split
      · rfl
      · rfl
      · split
        · rfl
        · split <;> rfl
  all_goals cases ho

theorem Ends.decided (h : Ends s s') : s'.decided = { s.decided with outcome := s'.outcome } := by
  obtain ⟨_, _, _, _, rfl⟩ := h
  rfl

/-- `_patch`, of an id it has not answered yet. -/
def answer (s : Interp) (id : String) (use : Bool) : Interp :=
  let s := { s with patchesMemoized := s.patchesMemoized.set id use }
  if use then
    { s with
      patchSeq := s.patchSeq + 1
      pendingPatches := s.pendingPatches.set (s.patchSeq + 1) id
      commands := s.commands ++ [.patch (s.patchSeq + 1)] }
  else s

theorem patch_fresh {id : String} (hr : s.readOnly = false) (hm : s.patchesMemoized.get? id = none) :
    s.patch x id = .ok (s.answer id (!s.isReplaying x || x.patchesRecorded.contains id)) := by
  unfold patch assertNotReadOnly answer
  rw [if_neg (by simp [hr]), ok_bind, if_neg (by simp [hm])]
  dsimp only
  split <;> rfl

theorem patch_state (x : Execution) (s : Interp) (id : String) : M.state (s.patch x id) = s ∨
    s.patchesMemoized.get? id = none ∧
      M.state (s.patch x id) = s.answer id (!s.isReplaying x || x.patchesRecorded.contains id) := by
  cases hr : s.readOnly with
  | true => exact .inl (by simp [patch, assertNotReadOnly, hr, raise, M.state])
  | false =>
    cases hm : s.patchesMemoized.get? id with
    | some b => exact .inl (by simp [patch, assertNotReadOnly, hr, hm, M.state])
    | none => exact .inr ⟨rfl, by rw [patch_fresh hr hm]; rfl⟩

/-- The answer. -/
theorem memoized_answer (s : Interp) (id : String) (use : Bool) : (s.answer id use).patchesMemoized.get? id = some use := by
  unfold answer
  dsimp only
  split <;> exact Dict.get?_set_self _ _ _

theorem stays_setOutcome {o : Outcome} (h : s.outcome = some o) (o' : Outcome) : (s.setOutcome o').outcome = some o := by
  simp [setOutcome, h]

theorem stays_recordWorkflowError {o : Outcome} (h : s.outcome = some o) (e : WorkflowExc) :
    (s.recordWorkflowError x e).outcome = some o := by
  unfold recordWorkflowError
  split
  · exact stays_setOutcome h _
  · split
    · exact stays_setOutcome h _
    · split <;> exact stays_setOutcome h _

theorem stays_primaryEnds {o : Outcome} (h : s.outcome = some o) (e : Ending) :
    (s.primaryEnds x e).outcome = some o := by
  have hdone : ({ s with primaryDone := true } : Interp).outcome = some o := h
  unfold primaryEnds
  dsimp only
  split
  · exact stays_setOutcome hdone _
  · exact stays_setOutcome hdone _
  · exact stays_setOutcome hdone _
  · exact stays_recordWorkflowError hdone _

theorem stays_handlerEnds {o : Outcome} (h : s.outcome = some o) (t : Nat) (e : Ending) :
    (s.handlerEnds x t e).outcome = some o := by
  unfold handlerEnds
  split
  · exact h
  · have hpop : ({ s with inflightHandlers := s.inflightHandlers.pop t } : Interp).outcome = some o := h
    dsimp only
    split
    · exact stays_setOutcome hpop _
    · split
      · exact h
      · exact stays_recordWorkflowError hpop _
      · exact h
    · exact stays_recordWorkflowError hpop _
    · exact h

theorem stays_startHandler {o : Outcome} (h : s.outcome = some o) (t : Nat) :
    (s.startHandler x t).outcome = some o := by
  have hstart : ∀ (d : Option HandlerDefn) (f : HandlerDefn → Interp) (g : Interp),
      (∀ d, (f d).outcome = some o) → g.outcome = some o → ((d.map f).getD g).outcome = some o := by
    intro d f g hf hg
    cases d
    · exact hg
    · exact hf _
  unfold startHandler
  split
  · exact h
  · simp only
    split <;> refine hstart _ _ _ (fun d => ?_) (stays_handlerEnds h t _)
    all_goals split
    · exact h
    · exact stays_handlerEnds h t _
    · exact h
    · exact stays_handlerEnds h t _

/-! ## For good -/

/-- An outcome stays, and an answer of `patched`. -/
structure Sticks (s s' : Interp) : Prop where
  outcome : ∀ o, s.outcome = some o → s'.outcome = some o
  memoized : ∀ id b, s.patchesMemoized.get? id = some b → s'.patchesMemoized.get? id = some b

theorem Sticks.of_decided (h : s'.decided = s.decided) : Sticks s s' := by
  have ho : s'.outcome = s.outcome := congrArg Decided.outcome h
  have hm : s'.patchesMemoized = s.patchesMemoized := congrArg Decided.patchesMemoized h
  exact ⟨fun o => by rw [ho]; exact id, fun id b => by rw [hm]; exact fun h => h⟩

theorem Sticks.refl (s : Interp) : Sticks s s := .of_decided rfl

theorem Sticks.trans {s₁ : Interp} (h : Sticks s s₁) (h' : Sticks s₁ s') : Sticks s s' :=
  ⟨fun o ho => h'.outcome o (h.outcome o ho), fun id b hb => h'.memoized id b (h.memoized id b hb)⟩

theorem Sticks.of_ends (h : Ends s s') (ho : ∀ o, s.outcome = some o → s'.outcome = some o) : Sticks s s' := by
  have hm : s'.patchesMemoized = s.patchesMemoized := congrArg Decided.patchesMemoized h.decided
  exact ⟨ho, fun id b => by rw [hm]; exact fun h => h⟩

theorem sticks_answer {id : String} (h : s.patchesMemoized.get? id = none) (use : Bool) : Sticks s (s.answer id use) := by
  have hmemo : ∀ i b, s.patchesMemoized.get? i = some b → (s.patchesMemoized.set id use).get? i = some b := by
    intro i b hb
    rw [Dict.get?_set_other]
    · exact hb
    · rintro rfl
      rw [h] at hb
      cases hb
  unfold answer
  dsimp only
  split <;> exact ⟨fun o ho => ho, hmemo⟩

theorem sticks_userOp (s : Interp) (o : UserOp) : Sticks s (M.state (o.run x s)) := by
  cases o with
  | patched id =>
    rcases patch_state x s id with h | ⟨hn, h⟩
    · exact (congrArg (Sticks s) h).mpr (.refl s)
    · exact (congrArg (Sticks s) h).mpr (sticks_answer hn _)
  | startHandler t => exact .of_ends (ends_startHandler x s t) fun o h => stays_startHandler h t
  | handlerEnds t e => exact .of_ends (ends_handlerEnds x s t e) fun o h => stays_handlerEnds h t e
  | primaryEnds e => exact .of_ends (ends_primaryEnds x s e) fun o h => stays_primaryEnds h e
  | abort e => exact .of_ends (ends_recordWorkflowError x s e) fun o h => stays_recordWorkflowError h e
  | _ => exact .of_decided (decided_userOp s (by rfl))

theorem sticks_drain (s : Interp) (c : Code) : Sticks s (c.drain x s) :=
  Code.drain_induct (P := Sticks s) (fun o h => h.trans (sticks_userOp _ o)) c (.refl s)

theorem sticks_command {c : Command} {b : Bool} (h : s.processCommand x env c = .ok (b, s')) : Sticks s s' := by
  cases c with
  | patch k =>
    obtain ⟨id, -, hd⟩ := decided_patch h
    have ho : s'.outcome = s.outcome := congrArg Decided.outcome hd
    have hm : s'.patchesMemoized = s.patchesMemoized := congrArg Decided.patchesMemoized hd
    exact ⟨fun o => by rw [ho]; exact fun h => h, fun i b => by rw [hm]; exact fun h => h⟩
  | _ => exact .of_decided (decided_command (by simp) h)

theorem sticks_commands (cs : List Command) : ∀ {s s' : Interp} {p q : Bool},
    processCommands x env cs p s = .ok (q, s') → Sticks s s' := by
  induction cs with
  | nil => intro s s' p q h; cases h; exact .refl s
  | cons c cs ih =>
    intro s s' p q h
    simp only [processCommands, bind_eq_ok] at h
    obtain ⟨⟨b, s₁⟩, h₁, h⟩ := h
    exact (sticks_command h₁).trans (ih h)

/-- **What a drain decides stays decided through its pass.** -/
theorem sticks_afterDrain {d : Bool} {t : Turn} (h : s.afterDrain x env d = .ok (t, s')) : Sticks s s' := by
  simp only [afterDrain, bind_eq_ok] at h
  obtain ⟨⟨b, s₁⟩, h₁, ⟨p, s₂⟩, h₂, h⟩ := h
  have hswept : Sticks s { s₁ with commands := [] } :=
    .of_decided ((decided_flush h₁).trans (decided_sweepCancellations env s))
  refine (hswept.trans (sticks_commands _ h₂)).trans ?_
  dsimp only at h
  split at h
  · cases h; exact .refl _
  · exact .of_decided (decided_settle h)

/-! ## Markers -/

/-- Every marker still to be written has its command among `cs`, and an id is
answered true exactly when its marker is written or still to be. -/
structure Marked (cs : List Command) (s : Interp) : Prop where
  fresh : ∀ k id, s.pendingPatches.get? k = some id → k ≤ s.patchSeq
  queued : ∀ k id, s.pendingPatches.get? k = some id → .patch k ∈ cs
  marked : ∀ id, s.patchesMemoized.get? id = some true ↔
    (∃ k, s.pendingPatches.get? k = some id) ∨ .step (.patch id) ∈ s.marks
  steps : ∀ a ∈ s.marks, ∃ id, a = .step (.patch id)

theorem marked_start (t : Seconds) (m : Dict String Value) : Marked [] (.start t m) where
  fresh := fun k id h => by cases h
  queued := fun k id h => by cases h
  marked := fun id => by
    have hmarks : (Interp.start t m).marks = [] := rfl
    rw [hmarks]
    simp [Interp.start, Dict.get?_empty]
  steps := fun a h => by cases h

namespace Marked

variable {cs : List Command}

theorem of_decided (h : Marked cs s) (hd : s'.decided = s.decided) : Marked cs s' := by
  have hm : s'.patchesMemoized = s.patchesMemoized := congrArg Decided.patchesMemoized hd
  have hp : s'.pendingPatches = s.pendingPatches := congrArg Decided.pendingPatches hd
  have hn : s'.patchSeq = s.patchSeq := congrArg Decided.patchSeq hd
  have hw : s'.marks = s.marks := congrArg Decided.marks hd
  exact ⟨by rw [hp, hn]; exact h.fresh, by rw [hp]; exact h.queued, by rw [hm, hp, hw]; exact h.marked,
    by rw [hw]; exact h.steps⟩

theorem mono {ds : List Command} (h : Marked cs s) (hsub : ∀ c ∈ cs, c ∈ ds) : Marked ds s :=
  ⟨h.fresh, fun k id hk => hsub _ (h.queued k id hk), h.marked, h.steps⟩

theorem answer (h : Marked s.commands s) {id : String} (hn : s.patchesMemoized.get? id = none) (use : Bool) :
    Marked (s.answer id use).commands (s.answer id use) := by
  have hnot : ¬ ((∃ k, s.pendingPatches.get? k = some id) ∨ .step (.patch id) ∈ s.marks) := by
    rw [← h.marked id, hn]
    simp
  cases use with
  | false =>
    refine ⟨h.fresh, h.queued, fun i => ?_, h.steps⟩
    change (s.patchesMemoized.set id false).get? i = some true ↔ _
    rw [Dict.get?_set]
    split
    · next hi =>
      subst hi
      exact iff_of_false (by simp) hnot
    · exact h.marked i
  | true =>
    have hget : ∀ k i, (s.pendingPatches.set (s.patchSeq + 1) id).get? k = some i ↔
        (k = s.patchSeq + 1 ∧ i = id) ∨ s.pendingPatches.get? k = some i := by
      intro k i
      rw [Dict.get?_set]
      split
      · next hk =>
        subst hk
        have hfree : s.pendingPatches.get? (s.patchSeq + 1) ≠ some i := fun hi => by
          have := h.fresh _ _ hi
          omega
        simp [hfree, eq_comm]
      · next hk => simp [hk]
    refine ⟨?_, ?_, fun i => ?_, h.steps⟩
    · intro k i hk
      change k ≤ s.patchSeq + 1
      rcases (hget k i).1 hk with ⟨rfl, -⟩ | hk
      · exact le_rfl
      · have := h.fresh _ _ hk
        omega
    · intro k i hk
      change .patch k ∈ s.commands ++ [.patch (s.patchSeq + 1)]
      rcases (hget k i).1 hk with ⟨rfl, -⟩ | hk
      · simp
      · exact List.mem_append_left _ (h.queued k i hk)
    · change (s.patchesMemoized.set id true).get? i = some true ↔
        (∃ k, (s.pendingPatches.set (s.patchSeq + 1) id).get? k = some i) ∨ .step (.patch i) ∈ s.marks
      simp only [hget]
      rw [Dict.get?_set]
      split
      · next hi =>
        subst hi
        exact iff_of_true rfl (.inl ⟨s.patchSeq + 1, .inl ⟨rfl, rfl⟩⟩)
      · next hi => simpa [hi] using h.marked i

theorem userOp (h : Marked s.commands s) (o : UserOp) :
    Marked (M.state (o.run x s)).commands (M.state (o.run x s)) := by
  have hgrow : ∀ c ∈ s.commands, c ∈ (M.state (o.run x s)).commands := by
    intro c hc
    cases Request.userOp (x := x) s o with
    | other _ _ _ hcs | start _ _ _ _ hcs => rw [hcs]; exact List.mem_append_left _ hc
    | refused _ _ hcs | change _ _ _ hcs => rw [hcs]; exact hc
  have hends : ∀ {s' : Interp}, Ends s s' → Marked s.commands s' := by
    intro s' he
    obtain ⟨_, _, _, _, rfl⟩ := he
    exact ⟨h.fresh, h.queued, h.marked, h.steps⟩
  cases o with
  | patched id =>
    rcases patch_state x s id with hs | ⟨hn, hs⟩
    · exact (congrArg (fun s => Marked s.commands s) hs).mpr h
    · exact (congrArg (fun s => Marked s.commands s) hs).mpr (h.answer hn _)
  | startHandler t => exact (hends (ends_startHandler x s t)).mono hgrow
  | handlerEnds t e => exact (hends (ends_handlerEnds x s t e)).mono hgrow
  | primaryEnds e => exact (hends (ends_primaryEnds x s e)).mono hgrow
  | abort e => exact (hends (ends_recordWorkflowError x s e)).mono hgrow
  | _ => exact (h.of_decided (decided_userOp s (by rfl))).mono hgrow

theorem drain (h : Marked [] s) (c : Code) :
    Marked (s.drainOutsideTask x c).commands (s.drainOutsideTask x c) := by
  have hstart : Marked [] { s.suspend with ready := [] } := h.of_decided (decided_suspend s)
  exact Code.drain_induct (P := fun s => Marked s.commands s) (fun o h => h.userOp o) c (hstart.mono (by simp))

theorem command {c : Command} {b : Bool} (h : Marked (c :: cs) s) (hs : s.processCommand x env c = .ok (b, s')) :
    Marked cs s' := by
  have hother : (∀ k, c ≠ .patch k) → Marked cs s' := by
    intro hc
    have h' := h.of_decided (decided_command hc hs)
    exact ⟨h'.fresh, fun k id hk => (List.mem_cons.1 (h'.queued k id hk)).resolve_left fun he => hc k he.symm,
      h'.marked, h'.steps⟩
  cases c with
  | patch k =>
    obtain ⟨id, hid, hd⟩ := decided_patch hs
    have hm : s'.patchesMemoized = s.patchesMemoized := congrArg Decided.patchesMemoized hd
    have hp : s'.pendingPatches = s.pendingPatches.pop k := congrArg Decided.pendingPatches hd
    have hn : s'.patchSeq = s.patchSeq := congrArg Decided.patchSeq hd
    have hw : s'.marks = s.marks ++ [.step (.patch id)] := congrArg Decided.marks hd
    refine ⟨?_, ?_, fun i => ?_, ?_⟩
    · intro j i hj
      rw [hp] at hj
      rw [hn]
      exact h.fresh j i (Dict.get?_pop_some.1 hj).2
    · intro j i hj
      rw [hp] at hj
      obtain ⟨hne, hj⟩ := Dict.get?_pop_some.1 hj
      exact (List.mem_cons.1 (h.queued j i hj)).resolve_left fun he => hne (Command.patch.inj he)
    · rw [hm, hp, hw, h.marked i]
      simp only [Dict.get?_pop_some, List.mem_append, List.mem_singleton, Coop.Act.step.injEq, Op.patch.injEq]
      constructor
      · rintro (⟨j, hj⟩ | hi)
        · by_cases hjk : j = k
          · subst hjk
            rw [hid, Option.some.injEq] at hj
            exact .inr (.inr hj.symm)
          · exact .inl ⟨j, hjk, hj⟩
        · exact .inr (.inl hi)
      · rintro (⟨j, -, hj⟩ | hi | rfl)
        · exact .inl ⟨j, hj⟩
        · exact .inr hi
        · exact .inl ⟨k, hid⟩
    · rw [hw]
      intro a ha
      rcases List.mem_append.1 ha with ha | ha
      · exact h.steps a ha
      · exact ⟨id, List.mem_singleton.1 ha⟩
  | _ => exact hother (by simp)

theorem processed : ∀ {cs : List Command} {s s' : Interp} {p q : Bool}, Marked cs s →
    processCommands x env cs p s = .ok (q, s') → Marked [] s' := by
  intro cs
  induction cs with
  | nil => intro s s' p q h hs; cases hs; exact h
  | cons c cs ih =>
    intro s s' p q h hs
    simp only [processCommands, bind_eq_ok] at hs
    obtain ⟨⟨b, s₁⟩, h₁, hs⟩ := hs
    exact ih (h.command h₁) hs

theorem afterDrain {d : Bool} {t : Turn} (h : Marked s.commands s) (hs : s.afterDrain x env d = .ok (t, s')) :
    Marked [] s' := by
  simp only [Interp.afterDrain, bind_eq_ok] at hs
  obtain ⟨⟨b, s₁⟩, h₁, ⟨p, s₂⟩, h₂, hs⟩ := hs
  have hswept : Marked s.commands { s₁ with commands := [] } :=
    h.of_decided ((decided_flush h₁).trans (decided_sweepCancellations env s))
  have hqueued : s₁.commands = s.commands := (commands_flushSignals h₁).trans (commands_sweepCancellations env s)
  dsimp only at h₂ hs
  rw [hqueued] at h₂
  have hdone := hswept.processed h₂
  split at hs
  · cases hs; exact hdone
  · exact hdone.of_decided (decided_settle hs)

end Marked

end Interp

open Interp

/-- **In every run that has not raised, an id is answered true exactly when its
marker is written.** -/
theorem Reachable.marked {x : Execution} {c : Config} (h : Reachable x c) (hc : ∀ e, c.phase ≠ .closing (some e)) :
    Interp.Marked [] c.interp :=
  h.invariant (P := fun _ s => Interp.Marked [] s) marked_start (fun _ _ code h hs => (h.drain code).afterDrain hs)
    (fun _ _ h _ hs => h.of_decided (decided_round hs)) hc

/-- An id's answer, read off the markers. -/
theorem Reachable.answered {x : Execution} {c : Config} (h : Reachable x c) (hc : ∀ e, c.phase ≠ .closing (some e))
    (id : String) : c.interp.patchesMemoized.get? id = some true ↔ .step (.patch id) ∈ c.interp.marks := by
  have hm := h.marked hc
  rw [hm.marked id, or_iff_right]
  rintro ⟨k, hk⟩
  cases hm.queued k id hk

/-! ## Runs -/

variable {x : Execution}

/-- An exception that escaped the loop ends it. -/
theorem Config.next_raised {c : Config} {e : Exc} (h : c.phase = .closing (some e)) (i : Input) : c.next x i = c := by
  obtain ⟨p, s⟩ := c
  subst h
  cases i <;> rfl

theorem Config.run_raised (l : List Input) {c : Config} {e : Exc} (h : c.phase = .closing (some e)) :
    l.foldl (Config.next x) c = c := by
  induction l with
  | nil => rfl
  | cons i l ih => rw [List.foldl_cons, Config.next_raised h, ih]

theorem Config.sticks_next {c : Config} (i : Input) (h : ∀ e, (c.next x i).phase ≠ .closing (some e)) :
    Sticks c.interp (c.next x i).interp := by
  obtain ⟨p, s⟩ := c
  cases i with
  | pass env d code =>
    cases p with
    | waiting | closing | failed => exact .refl s
    | draining =>
      simp only [next] at h ⊢
      have hsuspend : Sticks s { s.suspend with ready := [] } := .of_decided (decided_suspend s)
      have hdrain : Sticks s (s.drainOutsideTask x code) := hsuspend.trans (sticks_drain _ code)
      cases hp : s.pass x env d code with
      | ok r => exact hdrain.trans (sticks_afterDrain hp)
      | error r => rw [hp] at h; exact absurd rfl (h _)
  | round env done =>
    cases p with
    | draining | closing | failed => exact .refl s
    | waiting =>
      simp only [next] at h ⊢
      split
      · next hf =>
        rw [if_pos hf] at h
        cases hr : s.round x env (.of done) with
        | ok s' => exact .of_decided (decided_round hr)
        | error r => rw [hr] at h; exact absurd rfl (h _)
      · exact .refl s

/-- **What is decided stays decided for the rest of a run that does not raise.** -/
theorem Config.sticks_run (l : List Input) : ∀ {c : Config}, (∀ e, (l.foldl (Config.next x) c).phase ≠ .closing (some e)) →
    (∀ e, c.phase ≠ .closing (some e)) ∧ Sticks c.interp (l.foldl (Config.next x) c).interp := by
  induction l with
  | nil => intro c h; exact ⟨h, .refl _⟩
  | cons i l ih =>
    intro c h
    obtain ⟨hn, hs⟩ := ih (c := c.next x i) h
    refine ⟨fun e he => hn e ?_, (Config.sticks_next i hn).trans hs⟩
    rw [Config.next_raised he, he]

end Dbosify
