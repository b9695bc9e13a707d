/-
How far the virtual clock moves.

`Drift b s s'`: between the two states the clock has gone forward, not past
`b` unless it was, and no timer has come, gone or fired. Every event but a timer's
drifts to the stamp it carries or the wait it ends; no command moves the
clock at all.
-/
import Dbosify.Delivery

namespace Dbosify

open Py (Dict)

/-! ## What an event does to the clock and the timers -/

def Ready.timer? : Ready → Option Nat
  | timer k => some k
  | _ => none

/-- The timers that have fired since the last drain, in the order they are
queued. -/
def Interp.rung (s : Interp) : List Nat := s.ready.filterMap Ready.timer?

theorem Interp.rung_append (s : Interp) (l : List Ready) :
    ({ s with ready := s.ready ++ l } : Interp).rung = s.rung ++ l.filterMap Ready.timer? := List.filterMap_append

/-- The clock moves forward, not past `b` unless it was; the timers stay, no
waiter of one is launched. -/
structure Drift (b : Seconds) (s s' : Interp) : Prop where
  forward : s.timeSeconds ≤ s'.timeSeconds
  bound : s'.timeSeconds ≤ max s.timeSeconds b
  next : s.nextTask ≤ s'.nextTask
  timerSeq : s'.timerSeq = s.timerSeq
  timers : s'.pendingTimers = s.pendingTimers
  waiters : ∀ w ∈ s'.waiters, w.kind = .timer → w ∈ s.waiters
  rung : s'.rung = s.rung

/-- The clock, the timers and the waiters. -/
structure Timing where
  timeSeconds : Seconds
  nextTask : Nat
  timerSeq : Nat
  pendingTimers : Dict Nat Seconds
  waiters : List Waiter
  rung : List Nat

def Interp.timing (s : Interp) : Timing := ⟨s.timeSeconds, s.nextTask, s.timerSeq, s.pendingTimers, s.waiters, s.rung⟩

theorem Traces.timing {s s' : Interp} (h : Traces s s') : s'.timing = s.timing := by
  obtain ⟨t, rfl⟩ := h
  rfl

namespace Drift

variable {b : Seconds} {s s₁ s' : Interp}

theorem still (h : s'.timing = s.timing) : Drift b s s' := by
  simp only [Interp.timing, Timing.mk.injEq] at h
  obtain ⟨ht, hn, hseq, htimers, hw, hrung⟩ := h
  exact ⟨ht.ge, ht.le.trans (le_max_left _ _), hn.ge, hseq, htimers, fun w h _ => hw ▸ h, hrung⟩

theorem refl (s : Interp) : Drift b s s := still rfl

theorem trans (h : Drift b s s₁) (h' : Drift b s₁ s') : Drift b s s' where
  forward := h.forward.trans h'.forward
  bound := h'.bound.trans (max_le h.bound (le_max_right _ _))
  next := h.next.trans h'.next
  timerSeq := h'.timerSeq.trans h.timerSeq
  timers := h'.timers.trans h.timers
  waiters w hw hk := h.waiters w (h'.waiters w hw hk) hk
  rung := h'.rung.trans h.rung

theorem after (hd : Drift b s₁ s') (h : s₁.timing = s.timing) : Drift b s s' := (still h).trans hd

/-- Some waiters are retired. -/
theorem retires (h : s₁.timing = s.timing) {ws : List Waiter} (hw : ws ⊆ s.waiters) :
    Drift b s { s₁ with waiters := ws } := by
  simp only [Interp.timing, Timing.mk.injEq] at h
  obtain ⟨ht, hn, hseq, htimers, -, hrung⟩ := h
  exact ⟨ht.ge, ht.le.trans (le_max_left _ _), hn.ge, hseq, htimers, fun w h _ => hw h, hrung⟩

/-- Something else than a timer is queued. -/
theorem wake {r : Ready} (h : r.timer? = none) : Drift b s (s.wake r) := by
  refine .still ?_
  have hrung : (s.wake r).rung = s.rung := by
    refine (s.rung_append [r]).trans ?_
    rw [List.filterMap_cons, h, List.filterMap_nil, List.append_nil]
  simp only [Interp.timing, hrung]
  rfl

theorem launch {kind : WaiterKind} {k : Nat} {o : Op} (hk : kind ≠ .timer) : Drift b s (s.launchWaiter kind k o) := by
  refine ⟨le_rfl, le_max_left _ _, Nat.le_succ _, rfl, rfl, fun w hw ht => ?_, rfl⟩
  rcases List.mem_append.1 hw with hw | hw
  · exact hw
  · rw [List.mem_singleton.1 hw] at ht
    exact absurd ht hk

theorem advance {t : Option Seconds} (h : ∀ v, t = some v → v ≤ b) : Drift b s (s.advanceTime t) := by
  unfold Interp.advanceTime
  split
  · next v =>
    split
    · next hlt => exact ⟨hlt.le, (h v rfl).trans (le_max_right _ _), le_rfl, rfl, rfl, fun _ hw _ => hw, rfl⟩
    · exact .refl s
  · exact .refl s

end Drift

namespace Interp

variable {x : Execution} {env : Env} {s s' : Interp} {b : Seconds}

theorem drift_removeWaiter {w : Waiter} (h : s.removeWaiter w = .ok s') : Drift b s s' := by
  unfold removeWaiter at h
  split at h
  · cases h
    exact .retires rfl List.eraseP_subset
  · exact absurd h raise_ne_ok

/-! ### Activities -/

theorem drift_launchAttempt {k : Nat} {e : ActivityExec} (h : s.launchAttempt x k e = .ok s') : Drift b s s' := by
  simp only [launchAttempt, bind_eq_ok] at h
  obtain ⟨_, -, h⟩ := h
  cases h
  exact (Drift.launch (by simp)).after rfl

theorem drift_resolveActivity {k : Nat} {e : ActivityExec} {o : ActivityOutcome} (h : s.resolveActivity k e o = .ok s') :
    Drift b s s' := by
  unfold resolveActivity at h
  split at h
  · exact absurd h raise_ne_ok
  · cases h
    exact .wake rfl

theorem drift_popActivity (s : Interp) (k : Nat) : Drift b s (s.popActivity k) := .still rfl

theorem drift_failActivity {k : Nat} {e : ActivityExec} {f : FailureEnvelope} {st : Option RetryState}
    (h : s.failActivity env k e f st = .ok s') : Drift b s s' := by
  simp only [failActivity, bind_eq_ok] at h
  obtain ⟨_, -, h⟩ := h
  exact (drift_popActivity s k).trans (drift_resolveActivity h)

theorem drift_retryOrFail {k : Nat} {e : ActivityExec} {f : FailureEnvelope} (h : s.retryOrFail env k e f = .ok s') :
    Drift b s s' := by
  simp only [retryOrFail, bind_eq_ok] at h
  obtain ⟨⟨delay, st⟩, -, h⟩ := h
  cases delay with
  | some d =>
    cases h
    exact (Drift.launch (by simp)).after rfl
  | none => exact drift_failActivity h

theorem drift_parkActivity (s : Interp) (k : Nat) (e : ActivityExec) (t u : Seconds) :
    Drift b s (s.parkActivity k e t u) := by
  have hdeadline : ∀ (s : Interp) p, Drift b s (s.armDeadline k p) := by
    intro s p
    unfold armDeadline
    split
    · exact (Drift.launch (by simp)).after rfl
    · exact .refl s
  have hheartbeat : ∀ (s : Interp) p, Drift b s (s.armHeartbeat k p) := by
    intro s p
    unfold armHeartbeat
    split
    · exact (Drift.launch (by simp)).after rfl
    · exact .refl s
  exact ((hdeadline _ _).trans (hheartbeat _ _)).after rfl

theorem drift_retireParkedTimers (s : Interp) (k : Nat) : Drift b s (s.retireParkedTimers k) :=
  .retires rfl List.filter_sublist.subset

theorem drift_parkedTimeout {k : Nat} {t : TimeoutType} (h : s.asyncParkedTimeout env k t = .ok s') : Drift b s s' := by
  unfold asyncParkedTimeout at h
  split at h
  · cases h
    exact .refl s
  · split at h
    · cases h
      exact .refl s
    · exact (drift_retireParkedTimers s k).trans
        ((drift_retryOrFail h).after rfl)

theorem drift_heartbeatCheck {k : Nat} (h : s.asyncHeartbeatCheck env k = .ok s') : Drift b s s' := by
  unfold asyncHeartbeatCheck at h
  split at h
  · cases h
    exact .refl s
  · split at h
    · cases h
      exact .refl s
    · split at h
      · exact drift_parkedTimeout h
      · dsimp only at h
        split at h
        · cases h
          exact (Drift.launch (by simp)).after rfl
        · exact absurd h raise_ne_ok

/-! ### Results -/

end Interp

/-- The stamp of a result. -/
def TaskResult.stamp : TaskResult → Option Seconds
  | .message m => m.bind (·.sentAt)
  | .attempt (.ok _ t) | .attempt (.failed _ t _) | .attempt (.asyncPending _ t) => some t
  | .child (.ok _ t) | .child (.failed _ t) => some t
  | .slept | .raised _ => none

namespace Interp

variable {x : Execution} {env : Env} {s s' : Interp} {b : Seconds}

/-- The end of an attempt, or of a backoff. -/
theorem drift_activityEvent {k : Nat} {r : TaskResult} (hr : ∀ v, r.stamp = some v → v ≤ b)
    (hwait : ∀ e, s.pendingActivities.get? k = some e → e.inBackoff = true → s.timeSeconds + e.pendingWaitSeconds ≤ b)
    (h : s.deliverActivityEvent x env k r = .ok s') : Drift b s s' := by
  unfold deliverActivityEvent at h
  split at h
  · cases h
    exact drift_popActivity s k
  · next e he =>
    split at h
    · cases h
      exact drift_popActivity s k
    · split at h
      · next hb =>
        refine (Drift.advance (t := some _) fun v hv => ?_).trans
          ((drift_launchAttempt h).after rfl)
        cases hv
        exact hwait e he hb
      · split at h
        · cases h
          exact (Drift.advance hr).trans (drift_parkActivity _ _ _ _ _)
        · exact ((Drift.advance hr).trans (drift_popActivity _ k)).trans (drift_resolveActivity h)
        · simp only [bind_eq_ok] at h
          obtain ⟨c, -, h⟩ := h
          split at h
          · cases h
            exact (Drift.advance hr).trans ((Drift.wake rfl).after rfl)
          · exact (Drift.advance hr).trans (drift_retryOrFail h)
        · exact absurd h raise_ne_ok
        · exact absurd h raise_ne_ok

theorem drift_queuedActivityEvent {k : Nat} {r : TaskResult} (hr : ∀ v, r.stamp = some v → v ≤ b)
    (h : s.deliverQueuedActivityEvent env k r = .ok s') : Drift b s s' := by
  unfold deliverQueuedActivityEvent at h
  split at h
  · cases h
    exact drift_popActivity s k
  · split at h
    · cases h
      exact drift_popActivity s k
    · split at h
      · exact ((Drift.advance hr).trans (drift_popActivity _ k)).trans (drift_resolveActivity h)
      · simp only [bind_eq_ok] at h
        obtain ⟨c, -, h⟩ := h
        split at h
        · cases h
          exact (Drift.advance hr).trans ((Drift.wake rfl).after rfl)
        · exact ((Drift.advance hr).trans (drift_popActivity _ k)).trans (drift_failActivity h)
      · exact absurd h raise_ne_ok
      · exact absurd h raise_ne_ok
      · exact absurd h raise_ne_ok

/-- The end of a park. -/
theorem drift_parkTimeout {k : Nat}
    (hwait : ∀ e, s.pendingActivities.get? k = some e → s.timeSeconds + e.pendingWaitSeconds ≤ b)
    (h : s.deliverParkTimeout env k = .ok s') : Drift b s s' := by
  unfold deliverParkTimeout at h
  split at h
  · exact drift_parkedTimeout h
  · next e he =>
    refine (Drift.advance (t := some _) fun v hv => ?_).trans
      ((drift_parkedTimeout h).after rfl)
    cases hv
    exact hwait e he

theorem drift_childEvent {k : Nat} {r : TaskResult} (hr : ∀ v, r.stamp = some v → v ≤ b)
    (h : s.deliverChildEvent env k r = .ok s') : Drift b s s' := by
  unfold deliverChildEvent at h
  split at h
  · cases h
    exact .refl s
  · dsimp only at h
    have hpop : Drift b s { s with pendingChildren := s.pendingChildren.pop k } := .still rfl
    split at h
    · cases h
      exact hpop
    · split at h
      · cases h
        exact (hpop.trans (.advance hr)).trans ((Drift.wake rfl).after rfl)
      · simp only [bind_eq_ok, Except.ok.injEq] at h
        obtain ⟨c, -, rfl⟩ := h
        exact (hpop.trans (.advance hr)).trans ((Drift.wake rfl).after rfl)
      · exact absurd h raise_ne_ok
      · exact absurd h raise_ne_ok

/-! ### Messages -/

theorem drift_traces (h : Traces s s') : Drift b s s' := .still h.timing

theorem drift_spawnHandler (s : Interp) (h : Handler) : Drift b s (s.spawnHandler h) :=
  ⟨le_rfl, le_max_left _ _, Nat.le_succ _, rfl, rfl, fun _ hw _ => hw,
    (s.rung_append [.handler s.nextTask]).trans (List.append_nil _)⟩

theorem drift_applySignal {e : SignalEnvelope} (h : s.applySignal x env e = .ok s') : Drift b s s' := by
  unfold applySignal at h
  split at h
  · cases h
    exact .still rfl
  · split at h
    · next r hr =>
      cases h
      exact drift_traces (decodeMessageArgs_error hr ▸ traces_awaitIf s _)
    · next vs s₁ hargs =>
      simp only [bind_eq_ok, Except.ok.injEq] at h
      obtain ⟨⟨hs, s₂⟩, hh, rfl⟩ := h
      exact (drift_traces ((traces_decodeMessageArgs hargs).trans (traces_decodeMessageHeaders hh))).trans
        (drift_spawnHandler _ _)

theorem drift_applyUpdate {e : UpdateEnvelope} {vs : List Value} (h : s.applyUpdate x env e vs = .ok s') :
    Drift b s s' := by
  unfold applyUpdate at h
  split at h
  · cases h
    exact .refl s
  · dsimp only at h
    have hseen : Drift b s { s with seenUpdateIds := s.seenUpdateIds ++ [e.updateId] } := .still rfl
    split at h
    · cases h
      exact .still rfl
    · next d hd =>
      simp only [bind_eq_ok] at h
      obtain ⟨⟨hs, s₂⟩, hh, h⟩ := h
      have hval : Drift b s (if d.hasValidator = true then s₂.step (.validateUpdate e.updateId) else s₂) := by
        refine (hseen.trans (drift_traces (traces_decodeMessageHeaders hh))).trans ?_
        split
        · exact drift_traces (traces_step _ _)
        · exact .refl _
      split at h
      · cases h
        exact hval.trans (.still rfl)
      · cases h
        exact hval.trans ((drift_spawnHandler _ _).after rfl)

theorem drift_applyQuery (s : Interp) (e : QueryEnvelope) (vs : List Value) : Drift b s (s.applyQuery x env e vs) := by
  unfold applyQuery
  dsimp only
  split
  · exact .still rfl
  · split
    · next r hr =>
      have h₁ : Traces s r.state := decodeMessageHeaders_error hr ▸ traces_awaitIf s _
      exact (drift_traces h₁).trans (.still rfl)
    · next hs s₁ hr =>
      have h₁ : Drift b s s₁ := drift_traces (traces_decodeMessageHeaders hr)
      split
      · split <;> exact h₁.trans (.still rfl)
      · exact h₁.trans (.still rfl)

theorem drift_activityResult {i : String} {c : Completion} (h : s.applyActivityResult x env i c = .ok s') :
    Drift b s s' := by
  unfold applyActivityResult at h
  split at h
  · cases h
    exact .refl s
  · next k e hp =>
    have hretire := drift_retireParkedTimers (b := b) s k
    dsimp only at h
    split at h
    · cases h
      exact hretire.trans ((Drift.wake rfl).after rfl)
    · simp only [bind_eq_ok] at h
      obtain ⟨v, -, h⟩ := h
      exact hretire.trans ((drift_resolveActivity h).after rfl)
    · exact hretire.trans
        ((drift_retryOrFail h).after rfl)

theorem drift_activityHeartbeat {i : String} {ds : List Payload} (h : s.applyActivityHeartbeat env i ds = .ok s') :
    Drift b s s' := by
  unfold applyActivityHeartbeat at h
  split at h
  · cases h
    exact .refl s
  · simp only [bind_eq_ok, Except.ok.injEq] at h
    obtain ⟨_, -, rfl⟩ := h
    exact (drift_traces (traces_awaitIf _ _)).after rfl

theorem drift_inbox {m : Option Message} (hr : ∀ v, m.bind (·.sentAt) = some v → v ≤ b)
    (h : s.deliverInbox x env m = .ok s') : Drift b s s' := by
  cases m with
  | none =>
    cases h
    exact .refl s
  | some m =>
    have hadv : Drift b s (s.advanceTime m.sentAt) := .advance hr
    unfold deliverInbox at h
    dsimp only at h
    cases m with
    | signal e => exact hadv.trans (drift_applySignal h)
    | update e =>
      simp only [bind_eq_ok] at h
      obtain ⟨⟨vs, s₁⟩, h₁, h⟩ := h
      exact (hadv.trans (drift_traces (traces_decodeMessageArgs h₁))).trans (drift_applyUpdate h)
    | query e =>
      simp only [bind_eq_ok, Except.ok.injEq] at h
      obtain ⟨⟨vs, s₁⟩, h₁, rfl⟩ := h
      exact (hadv.trans (drift_traces (traces_decodeMessageArgs h₁))).trans (drift_applyQuery _ _ _)
    | activityResult i c t => exact hadv.trans (drift_activityResult h)
    | activityHeartbeat i ds t => exact hadv.trans (drift_activityHeartbeat h)
    | cancel reason t =>
      cases h
      refine hadv.trans ?_
      unfold applyCancel
      split
      · exact .refl _
      · dsimp only
        split
        · exact .still rfl
        · exact (Drift.wake rfl).after rfl
    | rehydrateStop t =>
      cases h
      exact hadv.trans (.still rfl)
    | unknown | malformed =>
      cases h
      exact hadv

/-! ### Commands and sweeps -/

theorem drift_resolveOwnQueue (x : Execution) (env : Env) (s : Interp) : Drift b s (s.resolveOwnQueue x env) := by
  unfold resolveOwnQueue
  split
  · exact .refl s
  · exact .still rfl

theorem drift_launchQueuedActivity {k : Nat} {e : ActivityExec} {q : String}
    (h : s.launchQueuedActivity x env k e q = .ok s') : Drift b s s' := by
  unfold launchQueuedActivity at h
  dsimp only at h
  split at h
  · split at h
    · cases h
      exact .still rfl
    · exact (drift_resolveActivity h).after rfl
  · split at h
    · split at h
      · cases h
        exact .still rfl
      · exact (drift_resolveActivity h).after rfl
    · simp only [Except.ok.injEq] at h
      subst h
      have hlaunch : Drift b s (((s.await.step (.enqueue (activityDbosId x.workflowId k))).setActivity k
          (.dispatched (activityDbosId x.workflowId k))).launchWaiter .qActivity k
          (.activityResult (activityDbosId x.workflowId k))) :=
        (Drift.launch (by simp)).after rfl
      split
      · exact hlaunch.trans (drift_traces (traces_signalQueuedActivityCancel env _ _ _))
      · exact hlaunch

theorem drift_processActivity {k : Nat} (h : s.processActivity x env k = .ok s') : Drift b s s' := by
  unfold processActivity at h
  split at h
  · cases h
    exact .refl s
  · simp only [bind_eq_ok] at h
    obtain ⟨⟨⟨ps, hs⟩, s₁⟩, h₁, s₂, h₂, h⟩ := h
    have hencoded : Drift b s (s₁.setActivity k (.encoded ps hs)) :=
      (drift_traces (traces_encodeCall h₁)).trans (.still rfl)
    have hlook : Drift b s s₂ := by
      refine Drift.trans ?_ (drift_traces (traces_checkReplayHorizon h₂))
      split
      · exact hencoded.trans (drift_resolveOwnQueue x env _)
      · exact hencoded
    split at h
    · exact hlook.trans (drift_launchAttempt h)
    · split at h
      · exact hlook.trans (drift_launchAttempt h)
      · exact hlook.trans (drift_launchQueuedActivity h)

theorem drift_enqueueChild (x : Execution) (env : Env) (s : Interp) (c : ChildExec) :
    Drift b s (enqueued (s.enqueueChild x env c)) := by
  rcases traces_enqueueChild x env s c with h | h
  · exact drift_traces h
  · refine Drift.trans ?_ (drift_traces h)
    have hqueue : Drift b s ((s.step (.childExists c.childId)).resolveOwnQueue x env) :=
      (drift_resolveOwnQueue x env _).after rfl
    unfold recordChild
    dsimp only
    split <;> exact hqueue.trans (.still rfl)

theorem drift_startChild (x : Execution) (env : Env) (s : Interp) (k : Nat) (c : ChildExec) :
    Drift b s (s.startChild x env k c) := by
  have hd := drift_enqueueChild (b := b) x env s c
  unfold startChild
  split
  · next f s₁ hr =>
    rw [hr] at hd
    dsimp only
    split
    · exact Drift.trans hd (.still rfl)
    · exact Drift.trans hd ((Drift.wake rfl).after rfl)
  · next s₁ hr =>
    rw [hr] at hd
    refine Drift.trans ?_ (.launch (by simp))
    split
    · exact Drift.trans hd (.still rfl)
    · exact Drift.trans hd ((Drift.wake rfl).after rfl)

theorem drift_processSend {k : Nat} (h : s.processSend x env k = .ok s') : Drift b s s' := by
  simp only [processSend, bind_eq_ok] at h
  obtain ⟨s₁, h₁, h⟩ := h
  split at h
  · exact absurd h raise_ne_ok
  · next p hp =>
    simp only [bind_eq_ok] at h
    obtain ⟨⟨m, s₂⟩, h₂, h⟩ := h
    have hpop : Drift b s₁ { s₁ with pendingSends := s₁.pendingSends.pop k } := .still rfl
    have h₂' : Drift b s s₂ :=
      ((drift_traces (traces_checkReplayHorizon h₁)).trans hpop).trans (drift_traces (traces_encodeOutgoing h₂))
    have h₃ : Drift b s (if p.resolveChain = true then s₂.resolveCurrentRun env p.target else s₂) := by
      split
      · exact h₂'.trans (drift_traces (traces_resolveCurrentRun env s₂ _))
      · exact h₂'
    dsimp only at h
    split at h
    · cases h
      exact h₃.trans (.still rfl)
    · cases h
      exact h₃.trans ((Drift.wake rfl).after rfl)

theorem drift_processAttributes (h : s.processAttributes x env = .ok s') : Drift b s s' := by
  simp only [processAttributes, bind_eq_ok, Except.ok.injEq] at h
  obtain ⟨_, -, s₁, h₁, rfl⟩ := h
  exact (drift_traces ((traces_checkReplayHorizon h₁).trans (traces_step _ _))).after rfl

theorem drift_processPatch {k : Nat} (h : s.processPatch x k = .ok s') : Drift b s s' := by
  unfold processPatch at h
  split at h
  · exact absurd h raise_ne_ok
  · simp only [bind_eq_ok, Except.ok.injEq] at h
    obtain ⟨s₁, h₁, rfl⟩ := h
    have hpop : Drift b s { s with pendingPatches := s.pendingPatches.pop k } := .still rfl
    exact (hpop.trans (drift_traces (traces_checkReplayHorizon h₁))).trans (.still rfl)

theorem map_eq_ok {m : M Interp} {p q : Bool} (h : m.map (p, ·) = .ok (q, s')) : m = .ok s' := by
  cases m with
  | error r => cases h
  | ok s₁ =>
    cases h
    rfl

/-- No command but a timer's touches the timers, and none the clock. -/
theorem drift_command {c : Command} {q : Bool} (hc : ∀ k, c ≠ .timer k) (h : s.processCommand x env c = .ok (q, s')) :
    Drift b s s' := by
  cases c with
  | timer k => exact absurd rfl (hc k)
  | activity k => exact drift_processActivity (map_eq_ok h)
  | child k =>
    simp only [processCommand, bind_eq_ok] at h
    obtain ⟨s₁, h₁, h⟩ := h
    split at h
    · exact absurd h raise_ne_ok
    · cases h
      exact (drift_traces (traces_checkReplayHorizon h₁)).trans (drift_startChild x env s₁ k _)
  | send k => exact drift_processSend (map_eq_ok h)
  | attributes => exact drift_processAttributes (map_eq_ok h)
  | patch k => exact drift_processPatch (map_eq_ok h)

theorem drift_foldl {α : Type} {f : Interp → α → Interp} (hf : ∀ s a, Drift b s (f s a)) (l : List α) (s : Interp) :
    Drift b s (l.foldl f s) := by
  induction l generalizing s with
  | nil => exact .refl s
  | cons a l ih => exact (hf s a).trans (ih _)

theorem drift_sweepActivity (env : Env) (s : Interp) (k : Nat) : Drift b s (s.sweepActivity env k) := by
  cases he : s.pendingActivities.get? k with
  | none => rw [sweepActivity_none he]; exact .refl s
  | some e =>
    obtain ⟨t, ht⟩ := sweepActivity_eq env s k he
    rw [ht]
    exact ⟨le_rfl, le_max_left _ _, le_rfl, rfl, rfl, fun w hw _ => List.filter_sublist.subset hw, rfl⟩

theorem drift_sweepChild (env : Env) (s : Interp) (k : Nat) : Drift b s (s.sweepChild env k) := by
  unfold sweepChild
  split
  · exact .refl s
  · dsimp only
    have hpop : Drift b s { s with
        pendingChildren := s.pendingChildren.pop k
        waiters := s.waiters.filter fun w => ¬ (w.kind = .child ∧ w.seq = k) } :=
      ⟨le_rfl, le_max_left _ _, le_rfl, rfl, rfl, fun w hw _ => List.filter_sublist.subset hw, rfl⟩
    split
    · exact hpop.trans (drift_traces (traces_sendCancel env _ _))
    · exact hpop

theorem drift_sweepCancellations (env : Env) (s : Interp) : Drift b s (s.sweepCancellations env) := by
  unfold sweepCancellations
  dsimp only
  have hwaits : Drift b s (s.queuedWaitCancelSeqs.foldl (sweepWait env) { s with queuedWaitCancelSeqs := [] }) :=
    (drift_foldl (fun s k => drift_traces (traces_sweepWait env s k)) _ _).after rfl
  generalize s.queuedWaitCancelSeqs.foldl (sweepWait env) { s with queuedWaitCancelSeqs := [] } = s₁ at hwaits
  have hacts : Drift b s (s₁.cancelledActivitySeqs.foldl (sweepActivity env) { s₁ with cancelledActivitySeqs := [] }) :=
    hwaits.trans ((drift_foldl (drift_sweepActivity env) _ _).after rfl)
  generalize s₁.cancelledActivitySeqs.foldl (sweepActivity env) { s₁ with cancelledActivitySeqs := [] } = s₂ at hacts
  exact hacts.trans ((drift_foldl (drift_sweepChild env) _ _).after rfl)

theorem drift_flushSignals {q : Bool} (h : s.flushPendingHandlerSignals x env = .ok (q, s')) : Drift b s s' := by
  unfold flushPendingHandlerSignals at h
  split at h
  · cases h
    exact .refl s
  · simp only [bind_eq_ok, Except.ok.injEq, Prod.mk.injEq] at h
    obtain ⟨s₁, h₁, -, rfl⟩ := h
    have hflush : Drift b s { s with pendingHandlerFlush := [] } := .still rfl
    exact foldlM_induct (P := fun _ s' => Drift b s s') h₁ hflush fun hP hf => hP.trans (drift_applySignal hf)

theorem drift_settle {d : Bool} {t : Turn} (h : s.settle x env d = .ok (t, s')) : Drift b s s' := by
  unfold settle at h
  split at h
  · cases h
    exact .refl s
  · simp only [bind_eq_ok] at h
    obtain ⟨s₁, h₁, h⟩ := h
    have hflush : Drift b s s₁ :=
      (drift_traces (traces_flushOutbox h₁)).after rfl
    split at h
    · cases h
      exact hflush
    · cases h
      have hinbox : Drift b s₁ (s₁.ensureInboxWaiter x) := by
        unfold ensureInboxWaiter
        split
        · exact .refl s₁
        · exact .launch (by simp)
      exact (hflush.trans hinbox).trans (.still rfl)

/-! ### Rounds -/

/-- Every event but a timer's drifts. -/
theorem drift_event {w : Waiter} {r : TaskResult} (hk : w.kind ≠ .timer) (hr : ∀ v, r.stamp = some v → v ≤ b)
    (hwait : ∀ e, s.pendingActivities.get? w.seq = some e → w.kind = .actS2c ∨ w.kind = .activity ∧ e.inBackoff = true →
      s.timeSeconds + e.pendingWaitSeconds ≤ b)
    (h : s.deliverEvent x env w r = .ok s') : Drift b s s' := by
  unfold deliverEvent at h
  split at h
  · split at h
    · exact drift_inbox hr h
    · exact absurd h raise_ne_ok
    · exact absurd h raise_ne_ok
  · next hk' => exact absurd hk' hk
  · next hk' => exact drift_activityEvent hr (fun e he hb => hwait e he (.inr ⟨hk', hb⟩)) h
  · exact drift_queuedActivityEvent hr h
  · next hk' => exact drift_parkTimeout (fun e he => hwait e he (.inl hk')) h
  · exact drift_heartbeatCheck h
  · exact drift_childEvent hr h

end Interp

end Dbosify
