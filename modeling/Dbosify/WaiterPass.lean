/-
The waiter invariant through a pass: the drain, the sweep, the buffered
signals, the commands, the replies and the inbox waiter.
-/
import Dbosify.Slots

namespace Dbosify

open Py (Dict)

/-- The waiter invariant of a state, its own commands still to come. -/
def Interp.Waits (x : Execution) (s : Interp) : Prop := WaiterInv x s.slots (activitySeqs s.slots.commands)

theorem Traces.slots {s s' : Interp} (h : Traces s s') : s'.slots = s.slots := by
  obtain ⟨t, rfl⟩ := h; rfl

theorem activitySeqs_append (cs ds : List Command) : activitySeqs (cs ++ ds) = activitySeqs cs ++ activitySeqs ds := by
  simp [activitySeqs]

/-! ## The drain -/

namespace WaiterInv

variable {x : Execution} {σ : Slots} {cs : List Nat}

/-- A new activity: its seq is the next one, its command comes last. -/
theorem schedule (h : WaiterInv x σ cs) {e : ActivityExec} (hp : e.asyncPending = false)
    (hf : e.futureCancelled = false) :
    WaiterInv x
      { σ with acts := σ.acts.set (σ.activitySeq + 1) e, activitySeq := σ.activitySeq + 1 }
      (cs ++ [σ.activitySeq + 1]) where
  tasks := h.tasks
  bound := h.bound
  warranted := by
    intro w hw
    refine (h.warranted w hw).frame fun ha => Dict.get?_set_other _ _ fun he => ?_
    -- A warranted waiter's exec is pending, and no pending seq is that high.
    have : ∃ e, σ.acts.get? w.seq = some e := by
      rcases hwk : w.isMain with _ | _
      · have hpk : w.isPark = true := by
          have := Waiter.ofActivity_iff (w := w) (k := w.seq)
          simp only [Waiter.ofActivity, ha, decide_true, Bool.and_self, hwk, true_iff] at this
          simpa using this
        exact ⟨_, ((h.warranted w hw).park hpk).choose_spec.1⟩
      · exact ⟨_, ((h.warranted w hw).main hwk).choose_spec.1⟩
    obtain ⟨e', he'⟩ := this
    have := h.seqs he'
    omega
  single := h.single
  inbox := h.inbox
  seqs := by
    intro k e' he
    simp only [Dict.get?_set] at he ⊢
    split at he
    · omega
    · exact (h.seqs he).trans (Nat.le_succ _)
  cancelled := by
    intro k e' he hc
    simp only [Dict.get?_set] at he
    split at he
    · cases he; rw [hf] at hc; cases hc
    · exact h.cancelled he hc
  parked := by
    intro k e' he ha
    simp only [Dict.get?_set] at he
    split at he
    · cases he; rw [hp] at ha; cases ha
    · exact h.parked he ha
  distinct := by
    rw [List.nodup_append]
    refine ⟨h.distinct, by simp, ?_⟩
    intro a ha b hb hab
    rw [List.mem_singleton] at hb
    have := (h.queued ha).1
    omega
  queued := by
    intro k hk
    rw [List.mem_append, List.mem_singleton] at hk
    rcases hk with hk | rfl
    · obtain ⟨hb, hl, he⟩ := h.queued hk
      refine ⟨hb.trans (Nat.le_succ _), hl, ?_⟩
      intro e' he'
      simp only [Dict.get?_set] at he'
      split at he'
      · omega
      · exact he _ he'
    · refine ⟨le_rfl, ?_, ?_⟩
      · intro w hw
        by_contra hcon
        rw [Bool.not_eq_false, Waiter.ofActivity_iff] at hcon
        obtain ⟨hkind | hkind, hseq⟩ := hcon
        · obtain ⟨e', he', -⟩ := (h.warranted w hw).main hkind
          have := h.seqs he'; omega
        · obtain ⟨e', he', -⟩ := (h.warranted w hw).park hkind
          have := h.seqs he'; omega
      · intro e' he'
        simp only [Dict.get?_set_self, Option.some.injEq] at he'
        rw [← he']; exact hp

/-- A seq is claimed for an activity that is then refused. -/
theorem skipSeq (h : WaiterInv x σ cs) : WaiterInv x { σ with activitySeq := σ.activitySeq + 1 } cs :=
  { h with
    seqs := fun he => (h.seqs he).trans (Nat.le_succ _)
    queued := fun hk => ⟨((h.queued hk).1).trans (Nat.le_succ _), (h.queued hk).2⟩ }

/-- A future is cancelled, and queued for the sweep. -/
theorem cancelFuture (h : WaiterInv x σ cs) (k : Nat) :
    WaiterInv x
      { σ with acts := σ.acts.modify k .cancelFuture, cancelled := σ.cancelled ++ [k] }
      cs where
  tasks := h.tasks
  bound := h.bound
  warranted := fun w hw => (h.warranted w hw).modify_same fun _ => ⟨rfl, rfl, rfl, rfl, rfl⟩
  single := h.single
  inbox := h.inbox
  seqs := by
    intro j e he
    simp only [Dict.get?_modify] at he
    split at he
    · obtain ⟨e', he', -⟩ := Option.map_eq_some_iff.1 he; exact h.seqs he'
    · exact h.seqs he
  cancelled := by
    intro j e he hf
    simp only [Dict.get?_modify] at he
    rw [List.mem_append, List.mem_singleton]
    split at he
    · next hj => exact .inr hj
    · exact .inl (h.cancelled he hf)
  parked := by
    intro j e he ha
    simp only [Dict.get?_modify] at he
    split at he
    · obtain ⟨e', he', rfl⟩ := Option.map_eq_some_iff.1 he; exact h.parked (e := e') he' ha
    · exact h.parked he ha
  distinct := h.distinct
  queued := by
    intro j hj
    obtain ⟨hb, hl, hp⟩ := h.queued hj
    refine ⟨hb, hl, ?_⟩
    intro e he
    simp only [Dict.get?_modify] at he
    split at he
    · obtain ⟨e', he', rfl⟩ := Option.map_eq_some_iff.1 he; exact hp e' he'
    · exact hp _ he

/-- A task is created that is no waiter. -/
theorem nextTask (h : WaiterInv x σ cs) : WaiterInv x { σ with nextTask := σ.nextTask + 1 } cs :=
  { h with bound := fun w hw => (h.bound w hw).trans (Nat.lt_succ_self _) }

/-- A change of an exec that no warrant reads. -/
theorem modify_same (h : WaiterInv x σ cs) {k : Nat} {f : ActivityExec → ActivityExec}
    (hf : ∀ e, (f e).asyncPending = e.asyncPending ∧ (f e).inBackoff = e.inBackoff ∧
      (f e).pendingWaitSeconds = e.pendingWaitSeconds ∧ (f e).activityName = e.activityName ∧
      (f e).heartbeatTimeout = e.heartbeatTimeout)
    (hc : ∀ e, (f e).futureCancelled = e.futureCancelled) : WaiterInv x (σ.modify k f) cs :=
  h.modify (fun w hw _ => (h.warranted w hw).modify_same hf) (fun e he => hc e ▸ he)
    (fun e he ha => by rw [(hf e).2.2.2.1]; exact h.parked he ((hf e).1 ▸ ha)) fun _ e he => (hf e).1 ▸ he

end WaiterInv

namespace Interp

variable {x : Execution} {env : Env} {s s' : Interp}

/-- A change that touches no slot. -/
theorem Waits.of_eq (h : s.Waits x) (hs : s'.slots = s.slots) : s'.Waits x := by
  unfold Waits; rw [hs]; exact h

theorem waits_startActivity (h : s.Waits x) (a : StartActivity) : (M.state (s.startActivity x a)).Waits x := by
  have hskip : ({ s with activitySeq := s.activitySeq + 1 } : Interp).Waits x := WaiterInv.skipSeq h
  have hqueue : ({ s with
      activitySeq := s.activitySeq + 1
      pendingActivities := s.pendingActivities.set (s.activitySeq + 1)
        ({ s with activitySeq := s.activitySeq + 1 }.newExec a (s.activitySeq + 1))
      commands := s.commands ++ [.activity (s.activitySeq + 1)] } : Interp).Waits x := by
    have := (WaiterInv.schedule h (e := { s with activitySeq := s.activitySeq + 1 }.newExec a (s.activitySeq + 1))
      rfl rfl).requeue (s.commands ++ [.activity (s.activitySeq + 1)])
    unfold Waits
    simp only [slots, activitySeqs_append]
    exact this
  unfold startActivity assertNotReadOnly attemptStepFor
  split
  · exact h
  · simp only [ok_bind]
    split
    · split
      · simp only [ok_bind]
        split
        · exact hskip
        · split
          · exact hskip
          · exact hqueue
      · exact h
    · split
      · exact hskip
      · split
        · exact hskip
        · exact hqueue

theorem waits_cancelActivityFuture (h : s.Waits x) (k : Nat) : (s.cancelActivityFuture k).Waits x := by
  unfold cancelActivityFuture
  split
  · exact h
  · split
    · exact h
    · exact WaiterInv.cancelFuture h k

theorem waits_requestActivityCancel (h : s.Waits x) (k : Nat) : (s.requestActivityCancel k).Waits x := by
  unfold requestActivityCancel
  split
  · exact h
  · split
    · have hm : (s.setActivity k .askCancel).Waits x :=
        WaiterInv.modify_same (f := .askCancel) h
          (fun _ => ⟨rfl, rfl, rfl, rfl, rfl⟩) fun _ => rfl
      simp only
      split
      · exact hm
      · exact hm
    · exact waits_cancelActivityFuture h k

theorem waits_cancelTimer (h : s.Waits x) (k : Nat) : (s.cancelTimer k).Waits x := by
  unfold cancelTimer
  split
  · exact h
  · exact WaiterInv.retain h _

theorem Ends.slots (h : Ends s s') : s'.slots = s.slots := by
  obtain ⟨_, _, _, _, rfl⟩ := h
  rfl

/-- A state change that leaves the slots and queues `c`, no activity. -/
theorem Waits.queue (h : s.Waits x) {c : Command} (hc : activitySeqs [c] = [])
    (hs : s'.slots = { s.slots with commands := s.commands ++ [c] }) : s'.Waits x := by
  unfold Waits
  rw [hs, activitySeqs_append, hc, List.append_nil]
  exact WaiterInv.requeue h _

/-- One request of user code. -/
theorem waits_userOp (h : s.Waits x) (o : UserOp) : (M.state (o.run x s)).Waits x := by
  cases o <;> simp only [UserOp.run]
  case startActivity a => exact waits_startActivity h a
  case requestActivityCancel k => exact waits_requestActivityCancel h k
  case cancelActivityAwait k => exact waits_cancelActivityFuture h k
  case cancelTimer k => exact waits_cancelTimer h k
  case createTimer d =>
    unfold createTimer assertNotReadOnly
    split
    · exact h
    · simp only [ok_bind]
      split
      · exact h
      · exact h.queue rfl rfl
  case startChildWorkflow c =>
    unfold startChildWorkflow assertNotReadOnly
    split
    · exact h
    · simp only [ok_bind]
      split
      · exact h
      · exact h.queue rfl rfl
  case cancelChildStart k => exact h
  case cancelChildResult k =>
    unfold cancelChildResult
    split
    · exact h
    · split <;> exact h
  case sendToWorkflow t e c =>
    unfold sendToWorkflow assertNotReadOnly
    split
    · exact h
    · exact h.queue rfl rfl
  case cancelSend k => exact h
  case upsertMemo u =>
    unfold upsertMemo assertNotReadOnly
    split
    · exact h
    · exact h.queue rfl rfl
  case patched i =>
    unfold patch assertNotReadOnly
    split
    · exact h
    · simp only [ok_bind]
      split
      · exact h
      · split
        · exact h.queue rfl rfl
        · exact h
  case setHandler c n d =>
    unfold setHandler assertNotReadOnly
    split
    · exact h
    · simp only [ok_bind]
      split
      · exact h
      · exact h
      · split
        · exact h
        · split <;> exact h
  case startHandler t =>
    exact h.of_eq (ends_startHandler x s t).slots
  case handlerEnds t e =>
    exact h.of_eq (ends_handlerEnds x s t e).slots
  case primaryEnds e =>
    exact h.of_eq (ends_primaryEnds x s e).slots
  case abort e =>
    exact h.of_eq (ends_recordWorkflowError x s e).slots

theorem waits_drain (h : s.Waits x) (c : Code) : (s.drainOutsideTask x c).Waits x :=
  Code.drain_induct (fun o hs => waits_userOp hs o) c (P := fun s => s.Waits x) h

/-! ## The sweep -/

theorem traces_sweepWait (env : Env) (s : Interp) (k : Nat) : Traces s (s.sweepWait env k) := by
  unfold sweepWait
  split
  · exact .refl s
  · split
    · exact traces_signalQueuedActivityCancel env s _ _
    · exact .refl s

/-- The sweep of one activity drops it with its waiters, and traces. -/
theorem sweepActivity_eq (env : Env) (s : Interp) (k : Nat) {e : ActivityExec} (he : s.pendingActivities.get? k = some e) :
    ∃ t, s.sweepActivity env k =
      { s with
        pendingActivities := s.pendingActivities.pop k
        waiters := s.waiters.filter fun w => !w.ofActivity k
        trace := s.trace ++ t } := by
  have key : ∀ s' : Interp, Traces (s.popActivity k) s' → ∃ t,
      ({ s' with waiters := s'.waiters.filter fun w => !w.ofActivity k } : Interp) =
      { s with
        pendingActivities := s.pendingActivities.pop k
        waiters := s.waiters.filter fun w => !w.ofActivity k
        trace := s.trace ++ t } := by
    rintro s' ⟨t, rfl⟩; exact ⟨t, rfl⟩
  have hgone : ∀ s₁ : Interp, Traces (s.popActivity k) s₁ → Traces (s.popActivity k)
      (if e.asyncPending then s₁.step (.setEvent (.asyncActivityGone e.activityId) .flag) else s₁) := by
    intro s₁ h₁
    split
    · exact h₁.trans (traces_step _ _)
    · exact h₁
  simp only [sweepActivity, he]
  refine key _ (hgone _ ?_)
  split
  · exact .refl _
  · exact .refl _
  · exact traces_signalQueuedActivityCancel env _ _ _

theorem sweepActivity_none {env : Env} {s : Interp} {k : Nat} (he : s.pendingActivities.get? k = none) :
    s.sweepActivity env k = s := by
  simp only [sweepActivity, he]

/-- After the sweep of the seqs queued for it, no future is cancelled. -/
theorem waiterInv_sweepActivities (env : Env) {cs : List Nat} (l : List Nat) : ∀ {s : Interp},
    WaiterInv x { s.slots with cancelled := l } cs → s.cancelledActivitySeqs = [] →
    WaiterInv x (l.foldl (sweepActivity env) s).slots cs ∧
      (l.foldl (sweepActivity env) s).slots.commands = s.slots.commands ∧
      (l.foldl (sweepActivity env) s).slots.cancelled = [] := by
  induction l with
  | nil => intro s h hc; exact ⟨by rw [← hc] at h; exact h, rfl, hc⟩
  | cons k l ih =>
    intro s h hc
    rw [List.foldl_cons]
    cases he : s.pendingActivities.get? k with
    | none =>
      rw [sweepActivity_none he]
      refine ih { h with cancelled := ?_ } hc
      intro j e hj hf
      rcases List.mem_cons.1 (h.cancelled hj hf) with rfl | hmem
      · rw [show s.slots.acts = s.pendingActivities from rfl] at hj; rw [he] at hj; cases hj
      · exact hmem
    | some e =>
      obtain ⟨t, ht⟩ := sweepActivity_eq env s k he
      rw [ht]
      have hlone : ({ s.slots with cancelled := k :: l }.retain fun w => !w.ofActivity k).Lone k := by
        intro w hw
        simpa using (List.mem_filter.1 hw).2
      have hpop := (h.retain fun w => !w.ofActivity k).pop hlone
      refine ih { hpop with cancelled := ?_ } hc
      intro j e hj hf
      obtain ⟨hne, hj'⟩ := Dict.get?_pop_some.1 hj
      rcases List.mem_cons.1 (h.cancelled hj' hf) with rfl | hmem
      · exact absurd rfl hne
      · exact hmem

/-- The waiter invariant between a sweep and the next drain: no future of a
pending activity is cancelled. -/
structure Swept (x : Execution) (s : Interp) : Prop where
  waits : s.Waits x
  clean : s.slots.cancelled = []

theorem Swept.of_eq (h : s.Swept x) (hs : s'.slots = s.slots) : s'.Swept x :=
  ⟨h.waits.of_eq hs, by rw [hs]; exact h.clean⟩

theorem Swept.traces (h : s.Swept x) (ht : Traces s s') : s'.Swept x := h.of_eq ht.slots

/-- No pending activity's future is cancelled. -/
theorem Swept.live (h : s.Swept x) {k : Nat} {e : ActivityExec} (he : s.pendingActivities.get? k = some e) :
    e.futureCancelled = false := by
  by_contra hf
  have := h.waits.cancelled he (by simpa using hf)
  rw [h.clean] at this
  cases this

theorem swept_sweepChild (h : s.Swept x) (k : Nat) : (s.sweepChild env k).Swept x := by
  unfold sweepChild
  split
  · exact h
  · have hf : ({ s with
        pendingChildren := s.pendingChildren.pop k
        waiters := s.waiters.filter fun w => ¬ (w.kind = .child ∧ w.seq = k) } : Interp).Swept x :=
      ⟨WaiterInv.retain h.waits _, h.clean⟩
    simp only
    split
    · exact hf.traces (traces_sendCancel env _ _)
    · exact hf

/-- The sweep leaves the invariant, and no cancelled future. -/
theorem swept_sweepCancellations (env : Env) (h : s.Waits x) : (s.sweepCancellations env).Swept x := by
  unfold sweepCancellations
  simp only
  have hw : ∀ (l : List Nat) (s' : Interp), Traces s' (l.foldl (sweepWait env) s') := by
    intro l
    induction l with
    | nil => intro s'; exact .refl s'
    | cons k l ih => intro s'; exact (traces_sweepWait env s' k).trans (ih _)
  have ht := hw s.queuedWaitCancelSeqs { s with queuedWaitCancelSeqs := [] }
  generalize s.queuedWaitCancelSeqs.foldl (sweepWait env) { s with queuedWaitCancelSeqs := [] } = s₁ at ht ⊢
  have h₁ : s₁.Waits x := h.of_eq ht.slots
  obtain ⟨h₂, hc₂, hn₂⟩ := waiterInv_sweepActivities env (s := { s₁ with cancelledActivitySeqs := [] })
    s₁.cancelledActivitySeqs h₁ rfl
  generalize s₁.cancelledActivitySeqs.foldl (sweepActivity env) { s₁ with cancelledActivitySeqs := [] } = s₂
    at h₂ hc₂ hn₂ ⊢
  have h₂' : s₂.Waits x := by
    unfold Waits; rw [hc₂]; exact h₂
  have hch : ∀ (l : List Nat) (s' : Interp), s'.Swept x → (l.foldl (sweepChild env) s').Swept x := by
    intro l
    induction l with
    | nil => intro s' h; exact h
    | cons k l ih => intro s' h; exact ih _ (swept_sweepChild h k)
  exact hch _ { s₂ with cancelledChildSeqs := [] } ⟨h₂', hn₂⟩

/-! ## Signals -/

theorem swept_spawnHandler (h : s.Swept x) (hd : Handler) : (s.spawnHandler hd).Swept x :=
  ⟨WaiterInv.nextTask h.waits, h.clean⟩

theorem swept_applySignal (h : s.Swept x) {e : SignalEnvelope} (hs : s.applySignal x env e = .ok s') : s'.Swept x := by
  unfold applySignal at hs
  split at hs
  · cases hs; exact h.of_eq rfl
  · split at hs
    · next r hr =>
      cases hs
      rw [decodeMessageArgs_error hr]
      exact h.traces (traces_awaitIf s _)
    · next args s₁ hr =>
      simp only [bind_eq_ok, Except.ok.injEq] at hs
      obtain ⟨⟨hd, s₂⟩, h₂, rfl⟩ := hs
      exact swept_spawnHandler ((h.traces (traces_decodeMessageArgs hr)).traces (traces_decodeMessageHeaders h₂)) _

theorem swept_flush (h : s.Swept x) {b : Bool} (hs : s.flushPendingHandlerSignals x env = .ok (b, s')) :
    s'.Swept x := by
  unfold flushPendingHandlerSignals at hs
  split at hs
  · cases hs; exact h
  · simp only [bind_eq_ok, Except.ok.injEq, Prod.mk.injEq] at hs
    obtain ⟨s₁, h₁, -, rfl⟩ := hs
    have h₀ : ({ s with pendingHandlerFlush := [] } : Interp).Swept x := h.of_eq rfl
    exact foldlM_induct (P := fun _ s => s.Swept x) h₁ h₀ fun hP hf => swept_applySignal hP hf

/-! ## Commands -/

/-- The invariant while commands `cs` are still to come, and none is queued. -/
structure Processing (x : Execution) (s : Interp) (cs : List Command) : Prop where
  inv : WaiterInv x s.slots (activitySeqs cs)
  clean : s.slots.cancelled = [] ∧ s.slots.commands = []

theorem Processing.of_eq {cs : List Command} (h : s.Processing x cs) (hs : s'.slots = s.slots) : s'.Processing x cs :=
  ⟨by rw [hs]; exact h.inv, by rw [hs]; exact h.clean⟩

theorem Processing.traces {cs : List Command} (h : s.Processing x cs) (ht : Traces s s') : s'.Processing x cs :=
  h.of_eq ht.slots

theorem traces_resolveOwnQueue (x : Execution) (env : Env) (s : Interp) :
    (s.resolveOwnQueue x env).slots = s.slots := by
  unfold resolveOwnQueue
  split <;> rfl

theorem processing_timer {cs : List Command} (h : s.Processing x cs) {k : Nat} {b : Bool}
    (hs : s.processTimer x k = .ok (b, s')) : s'.Processing x cs := by
  unfold processTimer at hs
  split at hs
  · cases hs; exact h
  · simp only at hs
    split at hs
    · cases hs; exact h.of_eq rfl
    · simp only [bind_eq_ok, Except.ok.injEq, Prod.mk.injEq] at hs
      obtain ⟨s₁, h₁, -, rfl⟩ := hs
      have h₂ := h.traces (traces_checkReplayHorizon h₁)
      exact ⟨h₂.inv.launch ⟨_, rfl⟩ (fun hm => by simp [Waiter.isMain] at hm) (fun ha => by simp [WaiterKind.isActivity] at ha),
        h₂.clean⟩

/-- A launched attempt: its exec has left the backoff, and no other waiter. -/
theorem slots_launchAttempt {k : Nat} {e : ActivityExec} (hs : s.launchAttempt x k e = .ok s') :
    x.registered e.activityName = true ∧ ∃ n d t,
      s'.slots = (s.slots.modify k .launched).launch .activity k (.attempt k n d t) := by
  unfold launchAttempt attemptStepFor at hs
  split at hs
  · next hr =>
    rw [ok_bind] at hs
    cases hs
    exact ⟨hr, _, _, _, rfl⟩
  · cases hs

/-- An attempt of an activity that has no waiter and is not parked. -/
theorem processing_attempt {σ : Slots} {cs : List Nat} (h : WaiterInv x σ cs) {k n : Nat} {e : ActivityExec}
    {d : Option Seconds} {t : DeadlineType} (hl : σ.Lone k) (he : σ.acts.get? k = some e) (hp : e.asyncPending = false)
    (hr : x.registered e.activityName = true) (hk : k ∉ cs) :
    WaiterInv x ((σ.modify k .launched).launch .activity k (.attempt k n d t)) cs := by
  have hm := h.modify_lone (f := .launched) hl (fun _ hf => hf)
    (fun e' he' ha => h.parked (e := e') he' ha) fun hc => absurd hc hk
  refine hm.launch ?_ (fun _ => hl) fun _ => hk
  refine ⟨e.launched, by simp [Slots.modify, Dict.get?_modify_self, he], hp, hr, ?_⟩
  exact ⟨n, d, t, rfl⟩

theorem processing_launchQueued {cs : List Command} {k : Nat} {e : ActivityExec} {q : String}
    (h : WaiterInv x s.slots (activitySeqs cs)) (hcl : s.slots.cancelled = [] ∧ s.slots.commands = []) (hl : s.slots.Lone k)
    (he : s.pendingActivities.get? k = some e) (hp : e.asyncPending = false) (hk : k ∉ activitySeqs cs)
    (hs : s.launchQueuedActivity x env k e q = .ok s') : s'.Processing x cs := by
  have hrefused : ∀ (s₁ s₂ : Interp) (o : ActivityOutcome), s₁.slots = s.slots →
      ((if e.futureCancelled then .ok (s₁.popActivity k) else (s₁.popActivity k).resolveActivity k e o) : M Interp) =
        .ok s₂ → s₂.Processing x cs := by
    intro s₁ s₂ o hs₁ hok
    have hpop : (s₁.popActivity k).Processing x cs :=
      ⟨by rw [slots_popActivity, hs₁]; exact h.pop hl, by rw [slots_popActivity, hs₁]; exact hcl⟩
    split at hok
    · cases hok; exact hpop
    · unfold resolveActivity at hok
      split at hok
      · exact absurd hok raise_ne_ok
      · cases hok; exact hpop.of_eq rfl
  unfold launchQueuedActivity at hs
  simp only at hs
  split at hs
  · exact hrefused s.await s' _ rfl hs
  · split at hs
    · exact hrefused (s.await.step _) s' _ rfl hs
    · have hlaunch : ((((s.await.step (.enqueue (activityDbosId x.workflowId k))).setActivity k
          (.dispatched (activityDbosId x.workflowId k))).launchWaiter .qActivity k
          (.activityResult (activityDbosId x.workflowId k)))).Processing x cs := by
        have hm := h.modify_same (k := k) (f := .dispatched (activityDbosId x.workflowId k))
          (fun _ => ⟨rfl, rfl, rfl, rfl, rfl⟩) fun _ => rfl
        refine ⟨hm.launch ?_ (fun _ => hl) fun _ => hk, hcl⟩
        refine ⟨e.dispatched (activityDbosId x.workflowId k), ?_, hp, _, rfl⟩
        simp only [Slots.modify, Dict.get?_modify_self, show s.slots.acts.get? k = some e from he, Option.map_some]
      cases hs
      split
      · exact hlaunch.traces (traces_signalQueuedActivityCancel env _ e _)
      · exact hlaunch

theorem processing_activity {cs : List Command} {k : Nat} (h : s.Processing x (.activity k :: cs))
    (hs : s.processActivity x env k = .ok s') : s'.Processing x cs := by
  have hcs : activitySeqs (.activity k :: cs) = k :: activitySeqs cs := rfl
  have hinv := h.inv
  rw [hcs] at hinv
  unfold processActivity at hs
  split at hs
  · cases hs; exact ⟨hinv.tail, h.clean⟩
  · next e he =>
    simp only [bind_eq_ok] at hs
    obtain ⟨⟨⟨ps, hds⟩, s₁⟩, h₁, hs⟩ := hs
    have hk : k ∉ activitySeqs cs := (List.nodup_cons.1 hinv.distinct).1
    obtain ⟨-, hl, hpend⟩ := hinv.queued List.mem_cons_self
    obtain ⟨s₂, h₂, hs⟩ := hs
    -- Encoding the arguments and reading the own queue touch nothing the waiters answer to.
    have hslots : s₂.slots = s.slots.modify k (.encoded ps hds) := by
      rw [(traces_checkReplayHorizon h₂).slots]
      have : (s₁.setActivity k (.encoded ps hds)).slots =
          s.slots.modify k (.encoded ps hds) := by
        rw [slots_setActivity, (traces_encodeCall h₁).slots]
      split
      · rw [traces_resolveOwnQueue, this]
      · exact this
    have hinv₂ : WaiterInv x s₂.slots (activitySeqs cs) := by
      rw [hslots]
      exact hinv.tail.modify_same (f := .encoded ps hds)
        (fun _ => ⟨rfl, rfl, rfl, rfl, rfl⟩) fun _ => rfl
    have hcl₂ : s₂.slots.cancelled = [] ∧ s₂.slots.commands = [] := by rw [hslots]; exact h.clean
    have hl₂ : s₂.slots.Lone k := by rw [hslots]; exact hl
    have he₂ : s₂.pendingActivities.get? k = some (e.encoded ps hds) := by
      change s₂.slots.acts.get? k = _
      rw [hslots]
      simp only [Slots.modify, Dict.get?_modify_self]
      rw [show s.slots.acts.get? k = some e from he]; rfl
    have hp := hpend e he
    have hattempt : s₂.launchAttempt x k (e.encoded ps hds) = .ok s' → s'.Processing x cs := by
      intro hok
      obtain ⟨hr, n, d, t, heq⟩ := slots_launchAttempt hok
      exact ⟨by rw [heq]; exact processing_attempt hinv₂ hl₂ he₂ hp hr hk, by rw [heq]; exact hcl₂⟩
    split at hs
    · exact hattempt hs
    · split at hs
      · exact hattempt hs
      · exact processing_launchQueued hinv₂ hcl₂ hl₂ he₂ hp hk hs

theorem slots_enqueueChild {c : ChildExec} :
    (∀ s', s.enqueueChild x env c = .ok s' → s'.slots = s.slots) ∧
    (∀ f s', s.enqueueChild x env c = .error (f, s') → s'.slots = s.slots) := by
  unfold enqueueChild
  simp only
  split
  · exact ⟨fun s' h => (by cases h), fun f s' h => by cases h; rfl⟩
  · split
    · exact ⟨fun s' h => (by cases h), fun f s' h => by cases h; rfl⟩
    · have hq : ∀ s₁ : Interp, s₁.slots = s.slots →
          ((s₁.resolveOwnQueue x env).slots = s.slots) := fun s₁ h₁ => by rw [traces_resolveOwnQueue, h₁]
      have hq' := hq (s.step (.childExists c.childId)) rfl
      generalize (s.step (.childExists c.childId)).resolveOwnQueue x env = s₁ at hq' ⊢
      have hw : (if (c.taskQueue.or s₁.ownQueueName).isSome = true then s₁.await else s₁).slots = s.slots := by
        split
        · exact hq'
        · exact hq'
      generalize (if (c.taskQueue.or s₁.ownQueueName).isSome = true then s₁.await else s₁) = s₂ at hw ⊢
      split
      · next r hr =>
        exact ⟨fun s' h => (by cases h), fun f s' h => by cases h; rw [(traces_encodeCall_error hr).slots]; exact hw⟩
      · next r s₃ hr =>
        have h₃ : s₃.slots = s.slots := by rw [(traces_encodeCall hr).slots]; exact hw
        split
        · exact ⟨fun s' h => (by cases h), fun f s' h => by cases h; exact h₃⟩
        · exact ⟨fun s' h => (by cases h; exact h₃), fun f s' h => by cases h⟩

theorem processing_startChild {cs : List Command} (h : s.Processing x cs) (k : Nat) (c : ChildExec) :
    (s.startChild x env k c).Processing x cs := by
  unfold startChild
  split
  · next f s₁ h₁ =>
    have : s₁.Processing x cs := h.of_eq (slots_enqueueChild.2 f s₁ h₁)
    simp only
    split
    · exact this.of_eq rfl
    · exact this.of_eq rfl
  · next s₁ h₁ =>
    have h₂ : s₁.Processing x cs := h.of_eq (slots_enqueueChild.1 s₁ h₁)
    have hlaunch : ∀ s₂ : Interp, s₂.slots = s₁.slots →
        (s₂.launchWaiter .child k (.childResult c.childId)).Processing x cs := by
      intro s₂ hs₂
      refine ⟨?_, by rw [slots_launchWaiter, hs₂]; exact h₂.clean⟩
      rw [slots_launchWaiter, hs₂]
      exact h₂.inv.launch ⟨_, rfl⟩ (fun hm => by simp [Waiter.isMain] at hm) fun ha => by simp [WaiterKind.isActivity] at ha
    simp only
    split
    · exact hlaunch _ rfl
    · exact hlaunch _ rfl

/-- One command. -/
theorem processing_command {cs : List Command} {c : Command} (h : s.Processing x (c :: cs)) {b : Bool}
    (hs : s.processCommand x env c = .ok (b, s')) : s'.Processing x cs := by
  cases c with
  | timer k => exact processing_timer (show s.Processing x cs from ⟨h.inv, h.clean⟩) hs
  | activity k =>
    simp only [processCommand, Except.map] at hs
    split at hs
    · cases hs
    · next s₁ h₁ => cases hs; exact processing_activity h h₁
  | child k =>
    have h : s.Processing x cs := ⟨h.inv, h.clean⟩
    simp only [processCommand, bind_eq_ok] at hs
    obtain ⟨s₁, h₁, hs⟩ := hs
    have h₂ := h.traces (traces_checkReplayHorizon h₁)
    split at hs
    · exact absurd hs raise_ne_ok
    · cases hs; exact processing_startChild h₂ k _
  | send k =>
    have h : s.Processing x cs := ⟨h.inv, h.clean⟩
    simp only [processCommand, Except.map] at hs
    split at hs
    · cases hs
    · next s₁ h₁ =>
      cases hs
      simp only [processSend, bind_eq_ok] at h₁
      obtain ⟨s₂, h₂, h₁⟩ := h₁
      split at h₁
      · exact absurd h₁ raise_ne_ok
      · simp only [bind_eq_ok] at h₁
        obtain ⟨⟨m, s₃⟩, h₃, h₁⟩ := h₁
        have hs₃ : s₃.Processing x cs := by
          have := (traces_encodeOutgoing h₃).slots
          exact (h.traces (traces_checkReplayHorizon h₂)).of_eq this
        have hs₄ : ∀ b : Bool, ∀ t, (if b = true then s₃.resolveCurrentRun env t else s₃).Processing x cs := by
          intro b t; split
          · exact hs₃.traces (traces_resolveCurrentRun env s₃ _)
          · exact hs₃
        split at h₁
        · cases h₁; exact (hs₄ _ _).of_eq rfl
        · cases h₁; exact (hs₄ _ _).of_eq rfl
  | attributes =>
    have h : s.Processing x cs := ⟨h.inv, h.clean⟩
    simp only [processCommand, Except.map] at hs
    split at hs
    · cases hs
    · next s₁ h₁ =>
      cases hs
      simp only [processAttributes, bind_eq_ok, Except.ok.injEq] at h₁
      obtain ⟨_, -, s₂, h₂, rfl⟩ := h₁
      exact ((h.traces (traces_await s)).traces (traces_checkReplayHorizon h₂)).of_eq rfl
  | patch k =>
    have h : s.Processing x cs := ⟨h.inv, h.clean⟩
    simp only [processCommand, Except.map] at hs
    split at hs
    · cases hs
    · next s₁ h₁ =>
      cases hs
      simp only [processPatch] at h₁
      split at h₁
      · exact absurd h₁ raise_ne_ok
      · simp only [bind_eq_ok, Except.ok.injEq] at h₁
        obtain ⟨s₂, h₂, rfl⟩ := h₁
        have : ({ s with pendingPatches := s.pendingPatches.pop k } : Interp).Processing x cs := h.of_eq rfl
        exact (this.traces (traces_checkReplayHorizon h₂)).of_eq rfl

/-- All of them. -/
theorem processing_commands (cs : List Command) : ∀ {s s' : Interp} {p b : Bool}, s.Processing x cs →
    processCommands x env cs p s = .ok (b, s') → s'.Processing x [] := by
  induction cs with
  | nil => intro s s' p b h hs; cases hs; exact h
  | cons c cs ih =>
    intro s s' p b h hs
    simp only [processCommands, bind_eq_ok] at hs
    obtain ⟨⟨b₁, s₁⟩, h₁, hs⟩ := hs
    exact ih (processing_command h h₁) hs

/-! ## A pass -/

theorem processing_idle (h : s.Processing x []) : s.Swept x :=
  ⟨by unfold Waits; rw [h.clean.2]; exact h.inv, h.clean.1⟩

theorem processing_begin (h : s.Swept x) : ({ s with commands := [] } : Interp).Processing x s.commands :=
  ⟨WaiterInv.requeue h.waits [], h.clean, rfl⟩

theorem processing_settle (h : s.Processing x []) {d : Bool} {t : Turn} (hs : s.settle x env d = .ok (t, s')) :
    s'.Processing x [] := by
  unfold settle at hs
  split at hs
  · cases hs; exact h
  · simp only [bind_eq_ok] at hs
    obtain ⟨s₁, h₁, hs⟩ := hs
    have h₂ : s₁.Processing x [] := by
      have : ({ s with outbox := [] } : Interp).Processing x [] := h.of_eq rfl
      exact this.traces (traces_flushOutbox h₁)
    split at hs
    · cases hs; exact h₂
    · cases hs
      refine Processing.of_eq (s := s₁.ensureInboxWaiter x) ?_ rfl
      unfold ensureInboxWaiter
      split
      · exact h₂
      · next hno =>
        refine ⟨h₂.inv.launch ⟨_, rfl⟩ (fun hm => by simp [Waiter.isMain] at hm)
          (fun ha => by simp [WaiterKind.isActivity] at ha) fun _ w hw hk => hno ?_, h₂.clean⟩
        exact List.any_eq_true.2 ⟨w, hw, by simpa using hk⟩

/-- **The waiter invariant through a pass.** -/
theorem processing_pass (h : s.Waits x) {d : Bool} {c : Code} {t : Turn} (hs : s.pass x env d c = .ok (t, s')) :
    s'.Processing x [] := by
  simp only [pass, afterDrain, bind_eq_ok] at hs
  obtain ⟨⟨f, s₁⟩, h₁, ⟨p, s₂⟩, h₂, hs⟩ := hs
  have hsw := swept_flush (swept_sweepCancellations env (waits_drain h c)) h₁
  have hpr := processing_commands s₁.commands (processing_begin hsw) h₂
  split at hs
  · cases hs; exact hpr
  · exact processing_settle hpr hs

end Interp

end Dbosify
