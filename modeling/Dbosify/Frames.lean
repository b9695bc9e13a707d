/-
The helpers that only add to the history.

`Traces s s'`: `s'` is `s` with more acts traced. Encoding, decoding, checks
and the operations awaited on the spot do nothing else, so every other field
is carried over them by one rewriting.
-/
import Dbosify.Run

namespace Dbosify

/-- Nothing but the trace changed, and it only grew. -/
def Traces (s s' : Interp) : Prop := ∃ t, s' = { s with trace := s.trace ++ t }

namespace Traces

theorem refl (s : Interp) : Traces s s := ⟨[], by rw [List.append_nil]⟩

theorem trans {s₁ s₂ s₃ : Interp} (h : Traces s₁ s₂) (h' : Traces s₂ s₃) : Traces s₁ s₃ := by
  obtain ⟨t, rfl⟩ := h
  obtain ⟨u, rfl⟩ := h'
  exact ⟨t ++ u, by simp⟩

end Traces

namespace Interp

variable {x : Execution} {env : Env} {s s' : Interp}

theorem traces_emit (s : Interp) (a : Coop.Act Op) : Traces s (s.emit a) := ⟨[a], rfl⟩

theorem traces_await (s : Interp) : Traces s s.await := traces_emit s _

theorem traces_step (s : Interp) (o : Op) : Traces s (s.step o) := traces_emit s _

theorem traces_awaitIf (s : Interp) (b : Bool) : Traces s (s.awaitIf b) := by
  cases b
  · exact .refl s
  · exact traces_await s

theorem traces_resolveCurrentRun (env : Env) (s : Interp) (i : String) : Traces s (s.resolveCurrentRun env i) := by
  unfold resolveCurrentRun
  induction List.range (env.probeRounds i) generalizing s with
  | nil => exact .refl s
  | cons n l ih => exact (traces_step s _).trans (ih _)

theorem traces_sendCancel (env : Env) (s : Interp) (i : String) : Traces s (s.sendCancel env i) :=
  (traces_resolveCurrentRun env s i).trans (traces_step _ _)

theorem traces_signalQueuedActivityCancel (env : Env) (s : Interp) (e : ActivityExec) (d : String) :
    Traces s (s.signalQueuedActivityCancel env e d) :=
  (traces_step s _).trans (traces_step _ _)

theorem checkReplayHorizon_ok (h : s.checkReplayHorizon x = .ok s') : s' = s.emit .look := by
  unfold checkReplayHorizon at h
  simp only at h
  split at h
  · exact absurd h raise_ne_ok
  · cases h; rfl

theorem traces_checkReplayHorizon (h : s.checkReplayHorizon x = .ok s') : Traces s s' := by
  rw [checkReplayHorizon_ok h]
  exact traces_emit s _

theorem traces_encodeCall {args : List Value} {hs : Headers} {r : List Payload × Headers}
    (h : s.encodeCall env args hs = .ok (r, s')) : Traces s s' := by
  simp only [encodeCall, bind_eq_ok, Except.ok.injEq, Prod.mk.injEq] at h
  obtain ⟨ps, -, hs', -, -, rfl⟩ := h
  exact (traces_await s).trans (traces_awaitIf _ _)

theorem traces_encodeCall_error {args : List Value} {hs : Headers} {r : Raised}
    (h : s.encodeCall env args hs = .error r) : Traces s r.state := by
  unfold encodeCall at h
  simp only [] at h
  cases h₁ : lift s.await (encodeValues env.converter args) with
  | error r' =>
    rw [h₁] at h
    cases h
    obtain ⟨e, -, rfl⟩ := lift_eq_error.1 h₁
    exact traces_await s
  | ok ps =>
    rw [h₁, ok_bind] at h
    cases h₂ : lift (s.await.awaitIf (!hs.isEmpty)) (encodeHeaders env.converter hs) with
    | error r' =>
      rw [h₂] at h
      cases h
      obtain ⟨e, -, rfl⟩ := lift_eq_error.1 h₂
      exact (traces_await s).trans (traces_awaitIf _ _)
    | ok hs' => rw [h₂] at h; cases h

theorem traces_encodeOutgoing {o : Outgoing} {m : Message} (h : s.encodeOutgoing env o = .ok (m, s')) :
    Traces s s' := by
  cases o with
  | cancel reason t => cases h; exact .refl s
  | signal name args hs t =>
    simp only [encodeOutgoing, bind_eq_ok, Except.ok.injEq, Prod.mk.injEq] at h
    obtain ⟨⟨r, s₁⟩, h₁, -, rfl⟩ := h
    exact traces_encodeCall h₁

/-- A start up to its entry. -/
def recordChild (x : Execution) (env : Env) (s : Interp) (c : ChildExec) : Interp :=
  let s := (s.step (.childExists c.childId)).resolveOwnQueue x env
  let s := if (c.taskQueue.or s.ownQueueName).isSome then s.await else s
  let s := { s with childrenRegistry := s.childrenRegistry ++ [(c.childId, c.parentClosePolicy)] }
  s.step (.setEvent .children (.children s.childrenRegistry))

theorem enqueueChild_recorded {e : ChildExec} (hr : env.workflowRegistered e.typeName = true)
    (ht : env.childIdTaken e.childId = false) :
    s.enqueueChild x env e =
      match (s.recordChild x env e).encodeCall env e.args e.headers with
      | .error r => .error (r.exc.serialize, r.state)
      | .ok (_, s) =>
        match env.enqueueFails e.childId with
        | some message =>
          .error ({ info := .applicationError (some "Exception") [] false .unspecified none, message },
            s.step (.enqueue e.childId))
        | none => .ok (s.step (.enqueue e.childId)) := by
  unfold enqueueChild
  rw [if_neg (by simp [hr]), if_neg (by simp [ht])]
  rfl

/-- The state the enqueue of a child leaves, whether or not it went through. -/
def enqueued : Except (FailureEnvelope × Interp) Interp → Interp
  | .ok s => s
  | .error r => r.2

/-- A start goes no further than its look for the id, or past its entry. -/
theorem traces_enqueueChild (x : Execution) (env : Env) (s : Interp) (c : ChildExec) :
    Traces s (enqueued (s.enqueueChild x env c)) ∨
      Traces (s.recordChild x env c) (enqueued (s.enqueueChild x env c)) := by
  cases hr : env.workflowRegistered c.typeName with
  | false =>
    unfold enqueueChild
    rw [if_pos (by simp [hr])]
    exact .inl (.refl s)
  | true =>
    cases ht : env.childIdTaken c.childId with
    | true =>
      unfold enqueueChild
      rw [if_neg (by simp [hr]), if_pos ht]
      exact .inl (traces_step s _)
    | false =>
      rw [enqueueChild_recorded hr ht]
      refine .inr ?_
      split
      · next r he => exact traces_encodeCall_error he
      · next r s₁ he =>
        split
        · exact (traces_encodeCall he).trans (traces_step _ _)
        · exact (traces_encodeCall he).trans (traces_step _ _)

theorem traces_decodeMessageArgs {d : Option HandlerDefn} {n : String} {args : List Payload} {vs : List Value}
    (h : s.decodeMessageArgs env d n args = .ok (vs, s')) : Traces s s' := by
  unfold decodeMessageArgs at h
  simp only at h
  split at h <;> simp only [bind_eq_ok, pure_eq_ok, Prod.mk.injEq] at h
  · obtain ⟨_, -, -, rfl⟩ := h; exact traces_awaitIf s _
  · obtain ⟨_, -, -, rfl⟩ := h; exact traces_awaitIf s _

theorem decodeMessageArgs_error {d : Option HandlerDefn} {n : String} {args : List Payload} {r : Raised}
    (h : s.decodeMessageArgs env d n args = .error r) : r.state = s.awaitIf (!args.isEmpty) := by
  unfold decodeMessageArgs at h
  simp only at h
  split at h
  · cases hl : lift (s.awaitIf !args.isEmpty)
      (decodeValues env.converter args (some (List.replicate args.length Hint.rawValue))) with
    | ok v => rw [hl] at h; cases h
    | error r' =>
      rw [hl] at h; cases h
      obtain ⟨e, -, rfl⟩ := lift_eq_error.1 hl; rfl
  · cases hl : lift (s.awaitIf !args.isEmpty) (decodeValues env.converter args (d.bind (·.argTypes))) with
    | ok v => rw [hl] at h; cases h
    | error r' =>
      rw [hl] at h; cases h
      obtain ⟨e, -, rfl⟩ := lift_eq_error.1 hl; rfl

theorem traces_decodeMessageHeaders {hs : Headers} {r : Headers} (h : s.decodeMessageHeaders env hs = .ok (r, s')) :
    Traces s s' := by
  simp only [decodeMessageHeaders, bind_eq_ok, pure_eq_ok, Prod.mk.injEq] at h
  obtain ⟨_, -, -, rfl⟩ := h
  exact traces_awaitIf s _

theorem decodeMessageHeaders_error {hs : Headers} {r : Raised} (h : s.decodeMessageHeaders env hs = .error r) :
    r.state = s.awaitIf (!hs.isEmpty) := by
  unfold decodeMessageHeaders at h
  simp only at h
  cases hl : lift (s.awaitIf !hs.isEmpty) (decodeHeaders env.converter hs) with
  | ok v => rw [hl] at h; cases h
  | error r' =>
    rw [hl] at h; cases h
    obtain ⟨e, -, rfl⟩ := lift_eq_error.1 hl; rfl

theorem traces_flushReply {e : EventKey × Reply} (h : s.flushReply env e = .ok s') : Traces s s' := by
  unfold flushReply at h
  split at h
  · simp only [bind_eq_ok, Except.ok.injEq] at h
    obtain ⟨_, -, rfl⟩ := h
    exact (traces_await s).trans (traces_step _ _)
  · cases h; exact traces_step s _

/-- `_flush_outbox` empties the outbox and traces. -/
theorem traces_flushOutbox (h : s.flushOutbox env = .ok s') : Traces { s with outbox := [] } s' :=
  foldlM_induct (P := fun _ s' => Traces { s with outbox := [] } s') h (.refl _) fun hP hf => hP.trans (traces_flushReply hf)

/-! ## Drains

User code asks; it performs no operation, and the clock stands still. -/

/-- What a drain leaves as it was. -/
structure Kept where
  timeSeconds : Seconds
  nextTask : Nat
  seenUpdateIds : List String
  readOnly : Bool
  cancelRequested : Bool
  childrenRegistry : List (String × ParentClosePolicy)
  ownQueue : Bool × Option String
  rehydrateStop : Bool
  past : List (List (Coop.Act Op))
  trace : List (Coop.Act Op)

def kept (s : Interp) : Kept where
  timeSeconds := s.timeSeconds
  nextTask := s.nextTask
  seenUpdateIds := s.seenUpdateIds
  readOnly := s.readOnly
  cancelRequested := s.cancelRequested
  childrenRegistry := s.childrenRegistry
  ownQueue := (s.ownQueueResolved, s.ownQueueName)
  rehydrateStop := s.rehydrateStop
  past := s.past
  trace := s.trace

/-! ### The ends of coroutines -/

/-- What the end of a coroutine may change. -/
def Ends (s s' : Interp) : Prop :=
  ∃ primaryDone inflightHandlers outbox outcome,
    s' = { s with primaryDone, inflightHandlers, outbox, outcome }

namespace Ends

theorem refl (s : Interp) : Ends s s := ⟨_, _, _, _, rfl⟩

theorem trans {s₁ s₂ : Interp} (h : Ends s s₁) (h' : Ends s₁ s₂) : Ends s s₂ := by
  obtain ⟨_, _, _, _, rfl⟩ := h
  obtain ⟨_, _, _, _, rfl⟩ := h'
  exact ⟨_, _, _, _, rfl⟩

theorem kept (h : Ends s s') : s'.kept = s.kept := by
  obtain ⟨_, _, _, _, rfl⟩ := h
  rfl

end Ends

theorem ends_setOutcome (s : Interp) (o : Outcome) : Ends s (s.setOutcome o) := by
  unfold setOutcome
  split
  · exact .refl s
  · exact ⟨_, _, _, _, rfl⟩

theorem ends_recordWorkflowError (x : Execution) (s : Interp) (e : WorkflowExc) : Ends s (s.recordWorkflowError x e) := by
  unfold recordWorkflowError
  split
  · exact ends_setOutcome _ _
  · split
    · exact ends_setOutcome _ _
    · split <;> exact ends_setOutcome _ _

theorem ends_primaryEnds (x : Execution) (s : Interp) (e : Ending) : Ends s (s.primaryEnds x e) := by
  have hdone : Ends s { s with primaryDone := true } := ⟨_, _, _, _, rfl⟩
  unfold primaryEnds
  simp only
  split
  · exact hdone.trans (ends_setOutcome _ _)
  · exact hdone.trans (ends_setOutcome _ _)
  · exact hdone.trans (ends_setOutcome _ _)
  · exact hdone.trans (ends_recordWorkflowError x _ _)

theorem ends_handlerEnds (x : Execution) (s : Interp) (t : Nat) (e : Ending) : Ends s (s.handlerEnds x t e) := by
  unfold handlerEnds
  split
  · exact .refl s
  · have hpop : Ends s { s with inflightHandlers := s.inflightHandlers.pop t } := ⟨_, _, _, _, rfl⟩
    simp only
    split
    · exact hpop.trans (ends_setOutcome _ _)
    · split
      · exact ⟨_, _, _, _, rfl⟩
      · exact hpop.trans (ends_recordWorkflowError x _ _)
      · exact hpop
    · exact hpop.trans (ends_recordWorkflowError x _ _)
    · exact hpop

theorem ends_startHandler (x : Execution) (s : Interp) (t : Nat) : Ends s (s.startHandler x t) := by
  have hstart : ∀ (d : Option HandlerDefn) (f : HandlerDefn → Interp) (g : Interp),
      (∀ d, Ends s (f d)) → Ends s g → Ends s ((d.map f).getD g) := by
    intro d f g hf hg
    cases d
    · exact hg
    · exact hf _
  unfold startHandler
  split
  · exact .refl s
  · simp only
    split <;> refine hstart _ _ _ (fun d => ?_) (ends_handlerEnds x s t _)
    all_goals split
    · exact .refl s
    · exact ends_handlerEnds x s t _
    · exact .refl s
    · exact ends_handlerEnds x s t _

/-! ### One request -/

theorem kept_startActivity (s : Interp) (a : StartActivity) : (M.state (s.startActivity x a)).kept = s.kept := by
  unfold startActivity assertNotReadOnly attemptStepFor
  split
  · rfl
  · simp only [ok_bind]
    split
    · split
      · simp only [ok_bind]
        split
        · rfl
        · split <;> rfl
      · rfl
    · split
      · rfl
      · split <;> rfl

theorem kept_cancelActivityFuture (s : Interp) (k : Nat) : (s.cancelActivityFuture k).kept = s.kept := by
  unfold cancelActivityFuture
  split
  · rfl
  · split <;> rfl

theorem kept_requestActivityCancel (s : Interp) (k : Nat) : (s.requestActivityCancel k).kept = s.kept := by
  unfold requestActivityCancel
  split
  · rfl
  · split
    · simp only
      split <;> rfl
    · exact kept_cancelActivityFuture s k

theorem kept_userOp (s : Interp) (o : UserOp) : (M.state (o.run x s)).kept = s.kept := by
  cases o <;> simp only [UserOp.run]
  case startActivity a => exact kept_startActivity s a
  case requestActivityCancel k => exact kept_requestActivityCancel s k
  case cancelActivityAwait k => exact kept_cancelActivityFuture s k
  case cancelTimer k => unfold cancelTimer; split <;> rfl
  case createTimer d =>
    unfold createTimer assertNotReadOnly
    split
    · rfl
    · simp only [ok_bind]
      split <;> rfl
  case startChildWorkflow c =>
    unfold startChildWorkflow assertNotReadOnly
    split
    · rfl
    · simp only [ok_bind]
      split <;> rfl
  case cancelChildStart k => rfl
  case cancelChildResult k =>
    unfold cancelChildResult
    split
    · rfl
    · split <;> rfl
  case sendToWorkflow t e c => unfold sendToWorkflow assertNotReadOnly; split <;> rfl
  case cancelSend k => rfl
  case upsertMemo u => unfold upsertMemo assertNotReadOnly; split <;> rfl
  case patched i =>
    unfold patch assertNotReadOnly
    split
    · rfl
    · simp only [ok_bind]
      split
      · rfl
      · split <;> rfl
  case setHandler c n d =>
    unfold setHandler assertNotReadOnly
    split
    · rfl
    · simp only [ok_bind]
      split
      · rfl
      · rfl
      · split
        · rfl
        · split <;> rfl
  case startHandler t => exact (ends_startHandler x s t).kept
  case handlerEnds t e => exact (ends_handlerEnds x s t e).kept
  case primaryEnds e => exact (ends_primaryEnds x s e).kept
  case abort e => exact (ends_recordWorkflowError x s e).kept

/-- **What a drain leaves as it was.** -/
theorem kept_drain (s : Interp) (c : Code) : (c.drain x s).kept = s.kept :=
  Code.drain_induct (P := fun s' => s'.kept = s.kept) (fun o h => (kept_userOp _ o).trans h) c rfl

end Interp

/-- The clock has come to the time it was advanced to. -/
theorem le_advanceTime (s : Interp) (t : Seconds) : t ≤ (s.advanceTime (some t)).timeSeconds := by
  simp only [Interp.advanceTime]
  split
  · exact le_rfl
  · next h => exact not_lt.1 h

end Dbosify
