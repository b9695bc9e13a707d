/-
What the driver does that has no part in the update protocol, nor in the order
of signals.

`Updates` is what the protocol shows of an interpreter: the updates seen, the
handlers in flight, the replies queued and the replies published. `Signals` is
what decides about the next signal, and those that wait. Everything the driver
does leaves both alone, whether it raises or not (`Quiet`), but for a few
things: applying an update or a signal, setting a handler, the end of a
handler, and the flushes.
-/
import Dbosify.Along

namespace Dbosify

open Py (Dict)

/-! ## Replies -/

/-- The reply an act publishes. Cancel and gone events are flags, and the
children a list. -/
def Op.published : Op → Option (EventKey × ReplyStatus)
  | .setEvent key (.reply st _) => some (key, st)
  | _ => none

def actPublished : Coop.Act Op → Option (EventKey × ReplyStatus)
  | .step o => o.published
  | _ => none

namespace Interp

/-- The replies published so far, in order. -/
def published (s : Interp) : List (EventKey × ReplyStatus) := s.acts.filterMap actPublished

/-- The replies in the outbox, in order. -/
def queued (s : Interp) : List (EventKey × ReplyStatus) := s.outbox.map fun e => (e.1, e.2.status)

/-- What the update protocol shows of an interpreter. -/
structure Updates where
  seen : List String
  live : List (Nat × Handler)
  queued : List (EventKey × ReplyStatus)
  published : List (EventKey × ReplyStatus)

def updates (s : Interp) : Updates := ⟨s.seenUpdateIds, s.inflightHandlers.entries, s.queued, s.published⟩

/-- What the handling of signals shows of it. -/
structure Signals where
  overrides : Dict (Option String) (Option HandlerDefn)
  buffered : Dict String (List SignalEnvelope)
  flushing : List SignalEnvelope

def signals (s : Interp) : Signals := ⟨s.signalOverrides, s.bufferedSignals, s.pendingHandlerFlush⟩

variable {x : Execution} {env : Env} {s s₁ s' : Interp}

theorem published_emit (s : Interp) (a : Coop.Act Op) :
    (s.emit a).published = s.published ++ (actPublished a).toList := by
  rw [published, acts_emit, List.filterMap_append]
  rfl

/-! ## Pieces that leave both alone -/

/-- Nothing the protocol shows has changed; tasks may have been numbered. -/
def Silent (s s' : Interp) : Prop := s'.updates = s.updates ∧ s.nextTask ≤ s'.nextTask

theorem Silent.trans {t : Interp} (h : Silent s t) (h' : Silent t s') : Silent s s' := ⟨h'.1.trans h.1, h.2.trans h'.2⟩

/-- Nor has anything about signals. -/
def Quiet (s s' : Interp) : Prop := (s'.updates, s'.signals) = (s.updates, s.signals) ∧ s.nextTask ≤ s'.nextTask

namespace Quiet

theorem refl (s : Interp) : Quiet s s := ⟨rfl, le_rfl⟩

theorem trans {t : Interp} (h : Quiet s t) (h' : Quiet t s') : Quiet s s' := ⟨h'.1.trans h.1, h.2.trans h'.2⟩

theorem silent (h : Quiet s s') : Silent s s' := ⟨congrArg Prod.fst h.1, h.2⟩

theorem signals (h : Quiet s s') : s'.signals = s.signals := congrArg Prod.snd h.1

theorem emit {a : Coop.Act Op} (ha : actPublished a = none) (s : Interp) : Quiet s (s.emit a) := by
  refine ⟨?_, le_rfl⟩
  have hp : (s.emit a).published = s.published := by rw [published_emit, ha, Option.toList_none, List.append_nil]
  rw [updates, hp]
  rfl

theorem step {o : Op} (ho : o.published = none) (s : Interp) : Quiet s (s.step o) := Quiet.emit (a := .step o) ho s

end Quiet

/-- Both are read off the core. -/
def Core.views (c : Core) : Updates × Signals :=
  (⟨c.seenUpdateIds, c.inflightHandlers.entries, c.outbox.map fun e => (e.1, e.2.status), c.acts.filterMap actPublished⟩,
    ⟨c.signalOverrides, c.bufferedSignals, c.pendingHandlerFlush⟩)

theorem actPublished_plain {a : Coop.Act Op} (ha : actPlain a = true) : actPublished a = none := by
  cases a with
  | step o =>
    cases o with
    | setEvent key v => cases v <;> first | rfl | cases ha
    | _ => rfl
  | _ => rfl

/-- **Nothing the driver does besides has a part in the protocol**, and
nothing it does to activities. -/
instance : ActivityFrame .all Quiet where
  refl := Quiet.refl
  trans := Quiet.trans
  act ha s := .emit (actPublished_plain ha) s
  other h hn := ⟨congrArg Core.views h, hn⟩
  modify _ _ _ := ⟨rfl, le_rfl⟩
  pop _ _ := ⟨rfl, le_rfl⟩
  resolve _ _ _ := ⟨rfl, le_rfl⟩
  attempt _ s _ _ _ := .emit rfl s
  dispatch _ _ _ _ := ⟨rfl, le_rfl⟩
  mark _ _ _ := .step rfl _

instance (env : Env) : QueueFrame env Quiet where
  ownQueue x s := by
    unfold resolveOwnQueue
    split
    · exact .refl s
    · exact (Quiet.step rfl s).trans ⟨rfl, le_rfl⟩

/-- **No command has a part in the protocol.** -/
theorem quietly_processCommands (x : Execution) (env : Env) (cs : List Command) (b : Bool) (s : Interp) :
    Along Quiet s (·.2) (processCommands x env cs b s) :=
  along_processCommands trivial cs (fun _ _ => trivial) (fun _ _ _ _ _ => trivial) b (Quiet.refl s)

/-! ## User code -/

theorem quiet_setOutcome (s : Interp) (o : Outcome) : Quiet s (s.setOutcome o) := by
  unfold setOutcome
  split
  · exact .refl s
  · exact ⟨rfl, le_rfl⟩

theorem quiet_recordWorkflowError (x : Execution) (s : Interp) (e : WorkflowExc) :
    Quiet s (s.recordWorkflowError x e) := by
  unfold recordWorkflowError
  split
  · exact quiet_setOutcome _ _
  · split
    · exact quiet_setOutcome _ _
    · split <;> exact quiet_setOutcome _ _

theorem quiet_primaryEnds (x : Execution) (s : Interp) (e : Ending) : Quiet s (s.primaryEnds x e) := by
  refine Quiet.trans (t := { s with primaryDone := true }) ⟨rfl, le_rfl⟩ ?_
  unfold primaryEnds
  dsimp only
  split
  · exact quiet_setOutcome _ _
  · exact quiet_setOutcome _ _
  · exact quiet_setOutcome _ _
  · exact quiet_recordWorkflowError x _ _

theorem quiet_startActivity (s : Interp) (a : StartActivity) : Quiet s (M.state (s.startActivity x a)) := by
  unfold startActivity assertNotReadOnly attemptStepFor
  split
  · exact .refl s
  · simp only [ok_bind]
    split
    · split
      · simp only [ok_bind]
        split
        · exact ⟨rfl, le_rfl⟩
        · split <;> exact ⟨rfl, le_rfl⟩
      · exact .refl s
    · split
      · exact ⟨rfl, le_rfl⟩
      · split <;> exact ⟨rfl, le_rfl⟩

theorem quiet_cancelActivityFuture (s : Interp) (k : Nat) : Quiet s (s.cancelActivityFuture k) := by
  unfold cancelActivityFuture
  split
  · exact .refl s
  · split
    · exact .refl s
    · exact ⟨rfl, le_rfl⟩

theorem quiet_requestActivityCancel (s : Interp) (k : Nat) : Quiet s (s.requestActivityCancel k) := by
  unfold requestActivityCancel
  split
  · exact .refl s
  · split
    · dsimp only
      split <;> exact ⟨rfl, le_rfl⟩
    · exact quiet_cancelActivityFuture s k

/-- A handler set or unset. -/
theorem silent_setHandler (s : Interp) (c : HandlerCategory) (n : Option String) (d : Option HandlerDefn) :
    Silent s (M.state (s.setHandler c n d)) := by
  unfold setHandler assertNotReadOnly
  split
  · exact ⟨rfl, le_rfl⟩
  · simp only [ok_bind]
    split
    · exact ⟨rfl, le_rfl⟩
    · exact ⟨rfl, le_rfl⟩
    · split
      · exact ⟨rfl, le_rfl⟩
      · split <;> exact ⟨rfl, le_rfl⟩

/-- What user code asks has no part in either, but for setting a handler, and
the start and the end of one. -/
theorem quiet_userOp (s : Interp) {o : UserOp} (hh : ∀ c n d, o ≠ .setHandler c n d) (hs : ∀ t, o ≠ .startHandler t)
    (he : ∀ t e, o ≠ .handlerEnds t e) : Quiet s (M.state (o.run x s)) := by
  cases o <;> simp only [UserOp.run]
  case startActivity a => exact quiet_startActivity s a
  case requestActivityCancel k => exact quiet_requestActivityCancel s k
  case cancelActivityAwait k => exact quiet_cancelActivityFuture s k
  case cancelTimer k =>
    unfold cancelTimer
    split
    · exact .refl s
    · exact ⟨rfl, le_rfl⟩
  case createTimer d =>
    unfold createTimer assertNotReadOnly
    split
    · exact .refl s
    · simp only [ok_bind]
      split
      · exact .refl s
      · exact ⟨rfl, le_rfl⟩
  case startChildWorkflow c =>
    unfold startChildWorkflow assertNotReadOnly
    split
    · exact .refl s
    · simp only [ok_bind]
      split <;> exact ⟨rfl, le_rfl⟩
  case cancelChildStart k => exact ⟨rfl, le_rfl⟩
  case cancelChildResult k =>
    unfold cancelChildResult
    split
    · exact .refl s
    · split
      · exact .refl s
      · exact ⟨rfl, le_rfl⟩
  case sendToWorkflow t e c => unfold sendToWorkflow assertNotReadOnly; split <;> exact ⟨rfl, le_rfl⟩
  case cancelSend k => exact ⟨rfl, le_rfl⟩
  case upsertMemo u => unfold upsertMemo assertNotReadOnly; split <;> exact ⟨rfl, le_rfl⟩
  case patched i =>
    unfold patch assertNotReadOnly
    split
    · exact .refl s
    · simp only [ok_bind]
      split
      · exact .refl s
      · split <;> exact ⟨rfl, le_rfl⟩
  case setHandler c n d => exact absurd rfl (hh c n d)
  case startHandler t => exact absurd rfl (hs t)
  case handlerEnds t e => exact absurd rfl (he t e)
  case primaryEnds e => exact quiet_primaryEnds x s e
  case abort e => exact quiet_recordWorkflowError x s e

end Interp

end Dbosify
