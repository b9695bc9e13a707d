/-
Frames of activities: messages, rounds and passes.

A relation that does not speak of handlers and messages (`MessageFrame`) is
kept by what an inbox message does but for the activity it is addressed to. So
a whole event keeps it if it may change the activities the event addresses
(`along_event`), and what follows a drain if it may change those whose command
is queued (`along_afterDrain`).
-/
import Dbosify.Along

namespace Dbosify

open Py (Dict)

/-- The activity a message is addressed to. -/
def Message.activityId? : Message → Option String
  | .activityResult i _ _ | .activityHeartbeat i _ _ => some i
  | _ => none

namespace Interp

/-- What frames of activities speak of. -/
structure ActivityCore where
  pendingActivities : Dict Nat ActivityExec
  resolved : List (Nat × ActivityOutcome)
  activitySeq : Nat
  commands : List Command
  ownQueue : Bool × Option String
  acts : List (Coop.Act Op)

def activityCore (s : Interp) : ActivityCore :=
  ⟨s.pendingActivities, s.resolved, s.activitySeq, s.commands, (s.ownQueueResolved, s.ownQueueName), s.acts⟩

/-- It holds across whatever leaves activities alone, and across replies. -/
class MessageFrame (R : Interp → Interp → Prop) : Prop where
  message {s s' : Interp} (h : s'.activityCore = s.activityCore) : R s s'
  publish (s : Interp) (key : EventKey) (st : ReplyStatus) (body : Payload ⊕ FailureEnvelope) :
    R s (s.step (.setEvent key (.reply st body)))

/-! ## Messages -/

section Messages

variable {x : Execution} {env : Env} {s : Interp} {R : Interp → Interp → Prop} [MessageFrame R]

theorem frame_reply (s : Interp) (key : EventKey) (r : Reply) : R s (s.reply key r) := MessageFrame.message rfl

theorem frame_spawnHandler (s : Interp) (h : Handler) : R s (s.spawnHandler h) := by
  refine MessageFrame.message ?_
  have hs : (s.spawnHandler h).resolved = s.resolved := resolved_wake (r := .handler s.nextTask) rfl s
  rw [activityCore, hs]
  rfl

variable [Frame R]

theorem along_applySignal (e : SignalEnvelope) : Along R s id (s.applySignal x env e) := by
  unfold applySignal
  split
  · exact .ok (MessageFrame.message rfl)
  · next defn _ =>
    have hargs : Along R _ _ (s.decodeMessageArgs env (some defn) e.name e.args) := along_decodeMessageArgs
    split
    · next r hr => exact .ok (hargs.of_error hr)
    · next a s₁ hr =>
      exact .after (hargs.of_ok hr) (along_decodeMessageHeaders.bind fun b => .ok (frame_spawnHandler _ _))

theorem along_flushSignals : Along R s (·.2) (s.flushPendingHandlerSignals x env) := by
  have hfold : ∀ (l : List SignalEnvelope) (s : Interp), Along R s id (l.foldlM (applySignal x env) s) := by
    intro l
    induction l with
    | nil => exact fun s => .ok (Frame.refl s)
    | cons e l ih => exact fun s => (along_applySignal e).bind ih
  unfold flushPendingHandlerSignals
  split
  · exact .ok (Frame.refl s)
  · refine .after (t := { s with pendingHandlerFlush := [] }) (MessageFrame.message rfl) ?_
    exact (hfold _ _).bind fun s₁ => .ok (Frame.refl _)

theorem along_applyUpdate (e : UpdateEnvelope) (args : List Value) : Along R s id (s.applyUpdate x env e args) := by
  unfold applyUpdate
  split
  · exact .ok (Frame.refl s)
  · refine .after (t := { s with seenUpdateIds := s.seenUpdateIds ++ [e.updateId] }) (MessageFrame.message rfl) ?_
    dsimp only
    split
    · exact .ok (MessageFrame.message rfl)
    · next defn _ =>
      refine along_decodeMessageHeaders.bind fun a => ?_
      refine .after (t := if defn.hasValidator then a.2.step (.validateUpdate e.updateId) else a.2) ?_ ?_
      · split
        · exact Frame.step rfl _
        · exact Frame.refl _
      · generalize (if defn.hasValidator then a.2.step (.validateUpdate e.updateId) else a.2) = t
        split
        · exact .ok (MessageFrame.message rfl)
        · exact .ok (Frame.trans (frame_reply _ _ _) (frame_spawnHandler _ _))

theorem frame_applyQuery (e : QueryEnvelope) (args : List Value) (s : Interp) : R s (s.applyQuery x env e args) := by
  unfold applyQuery
  dsimp only
  split
  · exact frame_reply _ _ _
  · have hheaders : Along R _ _ (s.decodeMessageHeaders env e.headers) := along_decodeMessageHeaders
    split
    · next r hr => exact Frame.trans (hheaders.of_error hr) (frame_reply _ _ _)
    · next a s₁ hr =>
      refine Frame.trans (hheaders.of_ok hr) ?_
      split
      · split <;> exact frame_reply _ _ _
      · exact frame_reply _ _ _

theorem frame_applyCancel (s : Interp) (reason : String) : R s (s.applyCancel reason) := by
  unfold applyCancel
  split
  · exact Frame.refl s
  · dsimp only
    split
    · exact MessageFrame.message rfl
    · refine Frame.trans ?_ (Frame.wake rfl _)
      exact MessageFrame.message rfl

theorem along_flushReply (e : EventKey × Reply) : Along R s id (s.flushReply env e) := by
  unfold flushReply
  split
  · exact .after (Frame.await s) (.lift fun p => .ok (MessageFrame.publish _ _ _ _))
  · exact .ok (MessageFrame.publish s _ _ _)

theorem along_flushOutbox : Along R s id (s.flushOutbox env) := by
  have hfold : ∀ (l : List (EventKey × Reply)) (s : Interp), Along R s id (l.foldlM (flushReply env) s) := by
    intro l
    induction l with
    | nil => exact fun s => .ok (Frame.refl s)
    | cons e l ih => exact fun s => (along_flushReply e).bind ih
  exact .after (t := { s with outbox := [] }) (MessageFrame.message rfl) (hfold _ _)

theorem along_settle {d : Bool} : Along R s (·.2) (s.settle x env d) := by
  have hflush : Along R s (fun a : Turn × Interp => a.2) (do
      let s ← s.flushOutbox env
      if s.leaves x d then .ok (.close, s) else .ok (.wait, (s.ensureInboxWaiter x).suspend)) := by
    refine along_flushOutbox.bind fun s₁ => ?_
    split
    · exact .ok (Frame.refl _)
    · exact .ok (Frame.trans (frame_ensureInboxWaiter x _) (Frame.suspend _))
  unfold settle
  split
  · exact .ok (Frame.refl s)
  · exact hflush

theorem frame_failAbandonedUpdates (s : Interp) : R s s.failAbandonedUpdates := by
  refine Frame.foldl (fun s h => ?_) _ s
  split
  · exact MessageFrame.publish s _ _ _
  · exact Frame.refl s

end Messages

/-! ## Events -/

/-- The activities an event may change: the one its waiter waits for, or the
parked one a message names. -/
def Addresses (s : Interp) (w : Waiter) (r : TaskResult) (k : Nat) : Prop :=
  w.ofActivity k = true ∨ ∃ m i e, w.kind = .inbox ∧ r = .message (some m) ∧ m.activityId? = some i ∧
    s.asyncPendingById i = some (k, e)

theorem asyncPendingById_congr {s s' : Interp} (h : s'.pendingActivities = s.pendingActivities) (i : String) :
    s'.asyncPendingById i = s.asyncPendingById i := by
  rw [asyncPendingById, h]
  rfl

theorem addresses_congr {s s' : Interp} (h : s'.pendingActivities = s.pendingActivities) {w : Waiter} {r : TaskResult}
    {k : Nat} : s'.Addresses w r k ↔ s.Addresses w r k := by
  simp only [Addresses, asyncPendingById_congr h]

theorem pendingActivities_advanceTime (s : Interp) (t : Option Seconds) :
    (s.advanceTime t).pendingActivities = s.pendingActivities := congrArg Slots.acts (slots_advanceTime s t)

section Events

variable {x : Execution} {env : Env} {s σ : Interp} {c : Scope} {R : Interp → Interp → Prop} [ActivityFrame c R]
  [MessageFrame R]

theorem along_inbox {m : Message} (hk : ∀ i k e, m.activityId? = some i → s.asyncPendingById i = some (k, e) → c.acts k) :
    Along R s id (s.deliverInbox x env (some m)) := by
  refine .after (frame_advanceTime s m.sentAt) ?_
  have hp := asyncPendingById_congr (pendingActivities_advanceTime s m.sentAt)
  cases m with
  | signal e => exact along_applySignal e
  | update e => exact along_decodeMessageArgs.bind fun a => along_applyUpdate e a.1
  | query e => exact along_decodeMessageArgs.bind fun a => .ok (frame_applyQuery e a.1 _)
  | activityResult i d t => exact along_activityResult fun k e he => hk i k e rfl ((hp i).symm.trans he)
  | activityHeartbeat i ds t => exact along_activityHeartbeat fun k e he => hk i k e rfl ((hp i).symm.trans he)
  | cancel reason t => exact .ok (frame_applyCancel _ reason)
  | rehydrateStop t => exact .ok (MessageFrame.message rfl)
  | unknown k t => exact .ok (Frame.refl _)
  | malformed => exact .ok (Frame.refl _)

/-- **An event changes the activities it addresses** at most. -/
theorem along_event {w : Waiter} {r : TaskResult} (hk : ∀ k, s.Addresses w r k → c.acts k) :
    Along R s id (s.deliverEvent x env w r) := by
  have hown : w.kind.isActivity = true → c.acts w.seq := fun h => hk _ (.inl (by simp [Waiter.ofActivity, h]))
  unfold deliverEvent
  split
  · next hw =>
    split
    · next m =>
      cases m with
      | none => exact .ok (Frame.refl s)
      | some m => exact along_inbox fun i k e hi he => hk k (.inr ⟨m, i, e, hw, rfl, hi, he⟩)
    · exact .raises _
    · exact .raises _
  · exact .ok (frame_deliverTimer s w.seq)
  · next hw => exact along_activityEvent (hown (by rw [hw]; rfl))
  · next hw => exact along_queuedActivityEvent (hown (by rw [hw]; rfl))
  · next hw => exact along_parkTimeout (hown (by rw [hw]; rfl))
  · next hw => exact along_heartbeatCheck (hown (by rw [hw]; rfl))
  · exact along_childEvent

theorem along_deliverWaiter {done : Done} {w : Waiter} (hk : ∀ r k, done w.task = some r → s.Addresses w r k → c.acts k) :
    Along R s id (s.deliverWaiter x env done w) := by
  unfold deliverWaiter
  split
  · exact .ok (Frame.refl s)
  · next r hr =>
    refine (along_removeWaiter w).bind_eq fun s₁ h₁ => along_event fun k h => hk r k hr ?_
    have hp : s₁.pendingActivities = s.pendingActivities := by
      unfold removeWaiter at h₁
      split at h₁
      · cases h₁; rfl
      · exact absurd h₁ raise_ne_ok
    exact (addresses_congr hp).1 h

/-- A whole round, of a frame that lets any activity change. -/
theorem along_round {done : Done} (hk : ∀ k, c.acts k) : Along R s id (s.round x env done) := by
  have hfold : ∀ (ws : List Waiter) (s : Interp), Along R s id (ws.foldlM (deliverWaiter x env done) s) := by
    intro ws
    induction ws with
    | nil => exact fun s => .ok (Frame.refl s)
    | cons w ws ih => exact fun s => (along_deliverWaiter fun _ k _ _ => hk k).bind ih
  exact .after (Frame.step rfl s) (hfold _ _)

/-! ## Passes -/

/-- The queue of commands stays as it is. -/
def Queue (s s' : Interp) : Prop := s'.commands = s.commands

instance : ActivityFrame .all Queue where
  refl _ := rfl
  trans h h' := Eq.trans h' h
  act _ _ := rfl
  other h _ := congrArg Core.commands h
  modify _ _ _ := rfl
  pop _ _ := rfl
  resolve _ _ _ := rfl
  attempt _ _ _ _ _ := rfl
  dispatch _ _ _ _ := rfl
  mark _ _ _ := rfl

instance : MessageFrame Queue where
  message h := congrArg ActivityCore.commands h
  publish _ _ _ _ := rfl

/-- **What follows a drain changes the activities whose command is queued** at
most, and those it sweeps. -/
theorem along_afterDrain [QueueFrame env R] {d : Bool} (hm : c.marks) (hclear : ∀ t, R t { t with commands := [] })
    (hacts : ∀ k, .activity k ∈ σ.commands → c.acts k)
    (hq : ∀ {t k e q}, R σ t → .activity k ∈ σ.commands → t.pendingActivities.get? k = some e → e.taskQueue = some q →
      some q ≠ t.ownQueue env → c.queued k) : Along R σ (·.2) (σ.afterDrain x env d) := by
  have hsweep : R σ (σ.sweepCancellations env) := frame_sweepCancellations hm env σ
  have hsweep' : Queue σ (σ.sweepCancellations env) := frame_sweepCancellations trivial env σ
  unfold afterDrain
  refine .after hsweep (along_flushSignals.bind_eq fun a ha => ?_)
  have hflush : R (σ.sweepCancellations env) a.2 := along_flushSignals.of_ok ha
  have hcommands : a.2.commands = σ.commands := Eq.trans (along_flushSignals.of_ok (R := Queue) ha) hsweep'
  have hstart : R σ { a.2 with commands := [] } := Frame.trans hsweep (Frame.trans hflush (hclear _))
  have hrun : Along R { a.2 with commands := [] } (·.2) (processCommands x env a.2.commands false { a.2 with commands := [] }) := by
    rw [hcommands]
    exact along_processCommands hm _ hacts hq _ hstart
  refine .after (hclear a.2) (hrun.bind fun b => ?_)
  dsimp only
  split
  · exact .ok (Frame.refl _)
  · exact along_settle

/-- The close, of a frame that lets markers be set. -/
theorem frame_closeRun (hm : c.marks) (x : Execution) (env : Env) (s : Interp) : R s (s.closeRun x env) := by
  unfold closeRun
  dsimp only
  split
  · have hcancel : R s (s.cancelInFlight env) := frame_cancelInFlight hm env s
    have hsweep : R s ((s.cancelInFlight env).sweepChildrenOnClose env) := Frame.trans hcancel (frame_sweepChildrenOnClose env _)
    have hdown : R s ((s.cancelInFlight env).sweepChildrenOnClose env).tearDown := Frame.trans hsweep (frame_tearDown _)
    exact Frame.trans (Frame.trans hdown (frame_failAbandonedUpdates _)) (frame_announceGone hm _)
  · exact frame_tearDown s

end Events

/-! ## Drains -/

/-- What a request of user code does to the activities: nothing, a number lost
to one that is refused, a new one under an id that is free, or a change to a
pending one. -/
inductive Request (s s' : Interp) : Prop
  | other {cs : List Command} (hcs : activitySeqs cs = []) (hp : s'.pendingActivities = s.pendingActivities)
      (hn : s'.activitySeq = s.activitySeq) (hc : s'.commands = s.commands ++ cs)
  | refused (hp : s'.pendingActivities = s.pendingActivities) (hn : s'.activitySeq = s.activitySeq + 1)
      (hc : s'.commands = s.commands)
  | start {e : ActivityExec} (hid : ∀ e' ∈ s.pendingActivities.values, e'.activityId ≠ e.activityId)
      (hnew : e.queuedDbosId = none) (hp : s'.pendingActivities = s.pendingActivities.set (s.activitySeq + 1) e)
      (hn : s'.activitySeq = s.activitySeq + 1) (hc : s'.commands = s.commands ++ [.activity (s.activitySeq + 1)])
  | change {k : Nat} {f : ActivityExec → ActivityExec} (hf : f = .askCancel ∨ f = .cancelFuture)
      (hp : s'.pendingActivities = s.pendingActivities.modify k f) (hn : s'.activitySeq = s.activitySeq)
      (hc : s'.commands = s.commands)

namespace Request

variable {x : Execution} {s s' : Interp}

theorem still (hp : s'.pendingActivities = s.pendingActivities) (hn : s'.activitySeq = s.activitySeq)
    (hc : s'.commands = s.commands) : Request s s' :=
  @other s s' [] rfl hp hn (hc.trans (List.append_nil _).symm)

theorem refl (s : Interp) : Request s s := .still rfl rfl rfl

/-- A change that touches no slot. -/
theorem of_slots (h : s'.slots = s.slots) : Request s s' :=
  .still (congrArg Slots.acts h) (congrArg Slots.activitySeq h) (congrArg Slots.commands h)

theorem startActivity (s : Interp) (a : StartActivity) : Request s (M.state (s.startActivity x a)) := by
  have hrefused : Request s { s with activitySeq := s.activitySeq + 1 } := .refused rfl rfl rfl
  have hstart : ¬ s.pendingActivities.values.any (·.activityId = resolvedActivityId a (s.activitySeq + 1)) = true →
      Request s { s with
        activitySeq := s.activitySeq + 1
        pendingActivities := s.pendingActivities.set (s.activitySeq + 1)
          ({ s with activitySeq := s.activitySeq + 1 }.newExec a (s.activitySeq + 1))
        commands := s.commands ++ [.activity (s.activitySeq + 1)] } := by
    intro hfree
    refine .start (fun e' he' hid => hfree ?_) rfl rfl rfl rfl
    exact List.any_eq_true.2 ⟨e', he', decide_eq_true hid⟩
  unfold Interp.startActivity assertNotReadOnly attemptStepFor
  split
  · exact .refl s
  · simp only [ok_bind]
    split
    · split
      · split
        · exact hrefused
        · next hfree =>
          split
          · exact hrefused
          · exact hstart hfree
      · exact .refl s
    · split
      · exact hrefused
      · next hfree =>
        split
        · exact hrefused
        · exact hstart hfree

theorem cancelActivityFuture (s : Interp) (k : Nat) : Request s (s.cancelActivityFuture k) := by
  unfold Interp.cancelActivityFuture
  split
  · exact .refl s
  · split
    · exact .refl s
    · exact .change (.inr rfl) rfl rfl rfl

theorem requestActivityCancel (s : Interp) (k : Nat) : Request s (s.requestActivityCancel k) := by
  unfold Interp.requestActivityCancel
  split
  · exact .refl s
  · split
    · dsimp only
      split <;> exact .change (.inl rfl) rfl rfl rfl
    · exact cancelActivityFuture s k

/-- A state change that queues `c`, no activity. -/
theorem queue {c : Command} (hc : activitySeqs [c] = []) (hp : s'.pendingActivities = s.pendingActivities)
    (hn : s'.activitySeq = s.activitySeq) (hs : s'.commands = s.commands ++ [c]) : Request s s' := .other hc hp hn hs

/-- **Each request of user code is one of the four.** -/
theorem userOp (s : Interp) (o : UserOp) : Request s (M.state (o.run x s)) := by
  cases o <;> simp only [UserOp.run]
  case startActivity a => exact startActivity s a
  case requestActivityCancel k => exact requestActivityCancel s k
  case cancelActivityAwait k => exact cancelActivityFuture s k
  case cancelTimer k =>
    unfold Interp.cancelTimer
    split
    · exact .refl s
    · exact .still rfl rfl rfl
  case createTimer d =>
    unfold Interp.createTimer assertNotReadOnly
    split
    · exact .refl s
    · simp only [ok_bind]
      split
      · exact .refl s
      · exact .queue rfl rfl rfl rfl
  case startChildWorkflow c =>
    unfold Interp.startChildWorkflow assertNotReadOnly
    split
    · exact .refl s
    · simp only [ok_bind]
      split
      · exact .of_slots rfl
      · exact .queue rfl rfl rfl rfl
  case cancelChildStart k => exact .of_slots rfl
  case cancelChildResult k =>
    unfold Interp.cancelChildResult
    split
    · exact .refl s
    · split
      · exact .refl s
      · exact .of_slots rfl
  case sendToWorkflow t e c =>
    unfold Interp.sendToWorkflow assertNotReadOnly
    split
    · exact .refl s
    · exact .queue rfl rfl rfl rfl
  case cancelSend k => exact .of_slots rfl
  case upsertMemo u =>
    unfold Interp.upsertMemo assertNotReadOnly
    split
    · exact .refl s
    · exact .queue rfl rfl rfl rfl
  case patched i =>
    unfold Interp.patch assertNotReadOnly
    split
    · exact .refl s
    · simp only [ok_bind]
      split
      · exact .refl s
      · split
        · exact .queue rfl rfl rfl rfl
        · exact .of_slots rfl
  case setHandler c n d =>
    unfold Interp.setHandler assertNotReadOnly
    split
    · exact .refl s
    · simp only [ok_bind]
      split
      · exact .of_slots rfl
      · exact .of_slots rfl
      · split
        · exact .of_slots rfl
        · split <;> exact .of_slots rfl
  case startHandler t => exact .of_slots (ends_startHandler x s t).slots
  case handlerEnds t e => exact .of_slots (ends_handlerEnds x s t e).slots
  case primaryEnds e => exact .of_slots (ends_primaryEnds x s e).slots
  case abort e => exact .of_slots (ends_recordWorkflowError x s e).slots

end Request

/-- A drain performs no operation. -/
theorem acts_drain {x : Execution} (s : Interp) (code : Code) : (s.drainOutsideTask x code).acts = s.acts := by
  have h := kept_drain (x := x) { s.suspend with ready := [] } code
  have hp : (s.drainOutsideTask x code).past = s.past ++ [s.trace] := congrArg Kept.past h
  have ht : (s.drainOutsideTask x code).trace = [] := congrArg Kept.trace h
  rw [acts, hp, ht]
  exact acts_suspend s

end Interp

end Dbosify
