/-
What the machinery of activities, timers, sends and patches leaves alone.

`rest` is the part of the interpreter that belongs to the children, the
handlers and the outcome. No event of an activity or a timer changes it, and
no command but a child's does.
-/
import Dbosify.Rounds

namespace Dbosify

open Py (Dict)

namespace Interp

/-- The children, the handlers, the replies and the outcome. -/
structure Rest where
  primaryDone : Bool
  childSeq : Nat
  commands : List Command
  outbox : List (EventKey × Reply)
  signalOverrides : Dict (Option String) (Option HandlerDefn)
  updateOverrides : Dict (Option String) (Option HandlerDefn)
  seenUpdateIds : List String
  inflightHandlers : Dict Nat Handler
  cancelRequested : Bool
  pendingChildren : Dict Nat ChildExec
  childrenRegistry : List (String × ParentClosePolicy)
  cancelledChildSeqs : List Nat
  outcome : Option Outcome

def rest (s : Interp) : Rest where
  primaryDone := s.primaryDone
  childSeq := s.childSeq
  commands := s.commands
  outbox := s.outbox
  signalOverrides := s.signalOverrides
  updateOverrides := s.updateOverrides
  seenUpdateIds := s.seenUpdateIds
  inflightHandlers := s.inflightHandlers
  cancelRequested := s.cancelRequested
  pendingChildren := s.pendingChildren
  childrenRegistry := s.childrenRegistry
  cancelledChildSeqs := s.cancelledChildSeqs
  outcome := s.outcome

end Interp

theorem Traces.rest {s s' : Interp} (h : Traces s s') : s'.rest = s.rest := by
  obtain ⟨t, rfl⟩ := h
  rfl

namespace Interp

variable {x : Execution} {env : Env} {s s' : Interp}

@[simp] theorem rest_launchWaiter (s : Interp) (kind : WaiterKind) (k : Nat) (o : Op) :
    (s.launchWaiter kind k o).rest = s.rest := rfl

@[simp] theorem rest_setActivity (s : Interp) (k : Nat) (f : ActivityExec → ActivityExec) :
    (s.setActivity k f).rest = s.rest := rfl

@[simp] theorem rest_emit (s : Interp) (a : Coop.Act Op) : (s.emit a).rest = s.rest := rfl

theorem rest_advanceTime (s : Interp) (t : Option Seconds) : (s.advanceTime t).rest = s.rest := by
  unfold advanceTime
  split
  · split <;> rfl
  · rfl

theorem rest_removeWaiter {w : Waiter} (h : s.removeWaiter w = .ok s') : s'.rest = s.rest := by
  unfold removeWaiter at h
  split at h
  · cases h; rfl
  · exact absurd h raise_ne_ok

/-! ## Activities -/

theorem rest_launchAttempt {k : Nat} {e : ActivityExec} (h : s.launchAttempt x k e = .ok s') : s'.rest = s.rest := by
  simp only [launchAttempt, bind_eq_ok] at h
  obtain ⟨_, -, h⟩ := h
  cases h
  rfl

theorem rest_resolveActivity {k : Nat} {e : ActivityExec} {o : ActivityOutcome} (h : s.resolveActivity k e o = .ok s') :
    s'.rest = s.rest := by
  unfold resolveActivity at h
  split at h
  · exact absurd h raise_ne_ok
  · cases h; rfl

theorem rest_failActivity {k : Nat} {e : ActivityExec} {f : FailureEnvelope} {st : Option RetryState}
    (h : s.failActivity env k e f st = .ok s') : s'.rest = s.rest := by
  simp only [failActivity, bind_eq_ok] at h
  obtain ⟨_, -, h⟩ := h
  exact (rest_resolveActivity h).trans rfl

theorem rest_retryOrFail {k : Nat} {e : ActivityExec} {f : FailureEnvelope} (h : s.retryOrFail env k e f = .ok s') :
    s'.rest = s.rest := by
  simp only [retryOrFail, bind_eq_ok] at h
  obtain ⟨⟨delay, st⟩, -, h⟩ := h
  cases delay with
  | some d => cases h; rfl
  | none => exact rest_failActivity h

theorem rest_parkActivity (s : Interp) (k : Nat) (e : ActivityExec) (a b : Seconds) :
    (s.parkActivity k e a b).rest = s.rest := by
  unfold parkActivity armHeartbeat armDeadline
  dsimp only
  split <;> split <;> rfl

theorem rest_activityEvent {k : Nat} {r : TaskResult} (h : s.deliverActivityEvent x env k r = .ok s') :
    s'.rest = s.rest := by
  unfold deliverActivityEvent at h
  split at h
  · cases h; rfl
  · split at h
    · cases h; rfl
    · split at h
      · exact (rest_launchAttempt h).trans (rest_advanceTime s _)
      · split at h
        · cases h
          exact (rest_parkActivity _ _ _ _ _).trans (rest_advanceTime s _)
        · exact (rest_resolveActivity h).trans (rest_advanceTime s _)
        · simp only [bind_eq_ok] at h
          obtain ⟨c, -, h⟩ := h
          split at h
          · cases h
            exact rest_advanceTime s _
          · exact (rest_retryOrFail h).trans (rest_advanceTime s _)
        · exact absurd h raise_ne_ok
        · exact absurd h raise_ne_ok

theorem rest_queuedActivityEvent {k : Nat} {r : TaskResult} (h : s.deliverQueuedActivityEvent env k r = .ok s') :
    s'.rest = s.rest := by
  unfold deliverQueuedActivityEvent at h
  split at h
  · cases h; rfl
  · split at h
    · cases h; rfl
    · split at h
      · exact (rest_resolveActivity h).trans (rest_advanceTime s _)
      · simp only [bind_eq_ok] at h
        obtain ⟨c, -, h⟩ := h
        split at h
        · cases h
          exact rest_advanceTime s _
        · exact (rest_failActivity h).trans (rest_advanceTime s _)
      · exact absurd h raise_ne_ok
      · exact absurd h raise_ne_ok
      · exact absurd h raise_ne_ok

theorem rest_parkedTimeout {k : Nat} {t : TimeoutType} (h : s.asyncParkedTimeout env k t = .ok s') :
    s'.rest = s.rest := by
  unfold asyncParkedTimeout at h
  split at h
  · cases h; rfl
  · split at h
    · cases h; rfl
    · exact (rest_retryOrFail h).trans rfl

theorem rest_parkTimeout {k : Nat} (h : s.deliverParkTimeout env k = .ok s') : s'.rest = s.rest := by
  unfold deliverParkTimeout at h
  split at h
  · exact rest_parkedTimeout h
  · exact (rest_parkedTimeout h).trans (rest_advanceTime s _)

theorem rest_heartbeatCheck {k : Nat} (h : s.asyncHeartbeatCheck env k = .ok s') : s'.rest = s.rest := by
  unfold asyncHeartbeatCheck at h
  split at h
  · cases h; rfl
  · split at h
    · cases h; rfl
    · split at h
      · exact rest_parkedTimeout h
      · dsimp only at h
        split at h
        · cases h; rfl
        · exact absurd h raise_ne_ok

theorem rest_activityResult {i : String} {c : Completion} (h : s.applyActivityResult x env i c = .ok s') :
    s'.rest = s.rest := by
  unfold applyActivityResult at h
  split at h
  · cases h; rfl
  · dsimp only at h
    split at h
    · cases h; rfl
    · simp only [bind_eq_ok] at h
      obtain ⟨_, -, h⟩ := h
      exact (rest_resolveActivity h).trans rfl
    · exact (rest_retryOrFail h).trans rfl

theorem rest_activityHeartbeat {i : String} {ds : List Payload} (h : s.applyActivityHeartbeat env i ds = .ok s') :
    s'.rest = s.rest := by
  unfold applyActivityHeartbeat at h
  split at h
  · cases h; rfl
  · simp only [bind_eq_ok, Except.ok.injEq] at h
    obtain ⟨_, -, rfl⟩ := h
    exact (traces_awaitIf _ _).rest

theorem rest_deliverTimer (s : Interp) (k : Nat) : (s.deliverTimer k).rest = s.rest := by
  unfold deliverTimer
  split
  · rfl
  · exact rest_advanceTime _ _

/-- **The event of a timer or an activity leaves the rest alone.** -/
theorem rest_event {w : Waiter} {r : TaskResult} (hi : w.kind ≠ .inbox) (hc : w.kind ≠ .child)
    (h : s.deliverEvent x env w r = .ok s') : s'.rest = s.rest := by
  unfold deliverEvent at h
  split at h
  · next hk => exact absurd hk hi
  · cases h
    exact rest_deliverTimer s _
  · exact rest_activityEvent h
  · exact rest_queuedActivityEvent h
  · exact rest_parkTimeout h
  · exact rest_heartbeatCheck h
  · next hk => exact absurd hk hc

/-! ## Commands -/

theorem rest_resolveOwnQueue (x : Execution) (env : Env) (s : Interp) : (s.resolveOwnQueue x env).rest = s.rest := by
  unfold resolveOwnQueue
  split <;> rfl

theorem rest_processTimer {k : Nat} {b : Bool} (h : s.processTimer x k = .ok (b, s')) : s'.rest = s.rest := by
  unfold processTimer at h
  split at h
  · cases h; rfl
  · dsimp only at h
    split at h
    · cases h; rfl
    · simp only [bind_eq_ok, Except.ok.injEq, Prod.mk.injEq] at h
      obtain ⟨s₁, h₁, -, rfl⟩ := h
      exact (traces_checkReplayHorizon h₁).rest

theorem rest_launchQueuedActivity {k : Nat} {e : ActivityExec} {q : String}
    (h : s.launchQueuedActivity x env k e q = .ok s') : s'.rest = s.rest := by
  unfold launchQueuedActivity at h
  dsimp only at h
  split at h
  · split at h
    · cases h; rfl
    · exact (rest_resolveActivity h).trans rfl
  · split at h
    · split at h
      · cases h; rfl
      · exact (rest_resolveActivity h).trans rfl
    · simp only [Except.ok.injEq] at h
      subst h
      split
      · rw [(traces_signalQueuedActivityCancel env _ _ _).rest, rest_launchWaiter, rest_setActivity, step, rest_emit,
          await, rest_emit]
      · rfl

theorem rest_processActivity {k : Nat} (h : s.processActivity x env k = .ok s') : s'.rest = s.rest := by
  unfold processActivity at h
  split at h
  · cases h; rfl
  · simp only [bind_eq_ok] at h
    obtain ⟨⟨⟨ps, hs⟩, s₁⟩, h₁, s₂, h₂, h⟩ := h
    have hrest : s₂.rest = s.rest := by
      rw [(traces_checkReplayHorizon h₂).rest, ← (traces_encodeCall h₁).rest]
      split
      · exact rest_resolveOwnQueue x env _
      · rfl
    split at h
    · exact (rest_launchAttempt h).trans hrest
    · split at h
      · exact (rest_launchAttempt h).trans hrest
      · exact (rest_launchQueuedActivity h).trans hrest

theorem rest_processSend {k : Nat} (h : s.processSend x env k = .ok s') : s'.rest = s.rest := by
  simp only [processSend, bind_eq_ok] at h
  obtain ⟨s₁, h₁, h⟩ := h
  have hrest := (traces_checkReplayHorizon h₁).rest
  split at h
  · exact absurd h raise_ne_ok
  · next p hp =>
    simp only [bind_eq_ok] at h
    obtain ⟨⟨m, s₂⟩, h₂, h⟩ := h
    have h₂' : s₂.rest = s.rest := (traces_encodeOutgoing h₂).rest.trans hrest
    have h₃ : (if p.resolveChain = true then s₂.resolveCurrentRun env p.target else s₂).rest = s.rest := by
      split
      · exact (traces_resolveCurrentRun env s₂ _).rest.trans h₂'
      · exact h₂'
    dsimp only at h
    split at h <;> cases h <;> exact h₃

theorem rest_processAttributes (h : s.processAttributes x env = .ok s') : s'.rest = s.rest := by
  simp only [processAttributes, bind_eq_ok, Except.ok.injEq] at h
  obtain ⟨_, -, s₁, h₁, rfl⟩ := h
  exact (traces_checkReplayHorizon h₁).rest

theorem rest_processPatch {k : Nat} (h : s.processPatch x k = .ok s') : s'.rest = s.rest := by
  unfold processPatch at h
  split at h
  · exact absurd h raise_ne_ok
  · simp only [bind_eq_ok, Except.ok.injEq] at h
    obtain ⟨s₁, h₁, rfl⟩ := h
    exact (traces_checkReplayHorizon h₁).rest

/-- **No command but a child's touches the rest.** -/
theorem rest_command {c : Command} {b : Bool} (hc : ∀ k, c ≠ .child k) (h : s.processCommand x env c = .ok (b, s')) :
    s'.rest = s.rest := by
  have hmap : ∀ {m : M Interp} {p : Bool}, m.map (p, ·) = .ok (b, s') → m = .ok s' := by
    intro m p hm
    cases m with
    | error r => cases hm
    | ok s₁ => cases hm; rfl
  cases c with
  | timer k => exact rest_processTimer h
  | activity k => exact rest_processActivity (hmap h)
  | child k => exact absurd rfl (hc k)
  | send k => exact rest_processSend (hmap h)
  | attributes => exact rest_processAttributes (hmap h)
  | patch k => exact rest_processPatch (hmap h)

/-! ## The sweep -/

theorem rest_sweepActivity (env : Env) (s : Interp) (k : Nat) : (s.sweepActivity env k).rest = s.rest := by
  cases he : s.pendingActivities.get? k with
  | none => rw [sweepActivity_none he]
  | some e =>
    obtain ⟨t, ht⟩ := sweepActivity_eq env s k he
    rw [ht]
    rfl

/-- The sweep before it comes to the children. -/
theorem rest_sweepActivities (env : Env) (waits seqs : List Nat) (s : Interp) :
    (seqs.foldl (sweepActivity env)
      { waits.foldl (sweepWait env) { s with queuedWaitCancelSeqs := [] } with cancelledActivitySeqs := [] }).rest =
      s.rest := by
  have hact : ∀ (l : List Nat) (s : Interp), (l.foldl (sweepActivity env) s).rest = s.rest := by
    intro l
    induction l with
    | nil => intro s; rfl
    | cons k l ih => intro s; exact (ih _).trans (rest_sweepActivity env s k)
  have hwait : ∀ (l : List Nat) (s : Interp), (l.foldl (sweepWait env) s).rest = s.rest := by
    intro l
    induction l with
    | nil => intro s; rfl
    | cons k l ih => intro s; exact (ih _).trans (traces_sweepWait env s k).rest
  exact (hact _ _).trans (hwait _ _)

end Interp

end Dbosify
