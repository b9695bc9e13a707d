/-
Function ids: whether the order in which DBOS numbers the operations of a
pass or a round depends on which awaits suspend the driver.

Each turn of `_process_commands` and of `_deliver` has a profile that is read
off the state before it (`commandProfile`, `eventProfile`). The ids are
determined exactly when no turn starts a sleep in a task ahead of a turn that
awaits and then calls, or of two turns that do so between them
(`functionIds_iff`).
-/
import Dbosify.Delivery

namespace Dbosify

open Coop (Profile)

namespace Interp

variable {x : Execution} {env : Env} {s s₁ s₂ s' : Interp} {p q : Profile}

/-! ## What a piece adds -/

/-- What the driver has done, stretch by stretch. -/
def history (s : Interp) : List (List (Coop.Act Op)) := s.past ++ [s.trace]

/-- `s'` is `s` and acts of this profile later, in the same stretch. -/
def Adds (s s' : Interp) (p : Profile) : Prop := ∃ t, s'.history = s.past ++ [s.trace ++ t] ∧ Coop.profile t = p

/-- A piece adds acts of this profile, or raises on the way. -/
def Does {α : Type} (s : Interp) (p : Profile) (state : α → Interp) (m : M α) : Prop :=
  match m with
  | .ok a => Adds s (state a) p
  | .error r => ∃ q, Adds s r.state q ∧ q.Le p

theorem Adds.of_history (h : s'.history = s.history) : Adds s s' .quiet := ⟨[], by rw [h, history, List.append_nil], rfl⟩

theorem Adds.trans (h : Adds s s₁ p) (h' : Adds s₁ s₂ q) : Adds s s₂ (p.seq q) := by
  obtain ⟨t, ht, rfl⟩ := h
  obtain ⟨u, hu, rfl⟩ := h'
  obtain ⟨hp, ht⟩ := List.append_singleton_inj.1 ht
  exact ⟨t ++ u, by rw [hu, hp, ht, List.append_assoc], Coop.profile_append t u⟩

theorem Adds.emit (s : Interp) (a : Coop.Act Op) : Adds s (s.emit a) a.profile :=
  ⟨[a], rfl, Coop.profile_singleton a⟩

theorem Adds.await (s : Interp) : Adds s s.await { yields := true } := .emit s _

theorem Adds.step (s : Interp) (o : Op) : Adds s (s.step o) { claims := true, yields := true } := .emit s _

theorem Adds.awaitIf (s : Interp) (b : Bool) : Adds s (s.awaitIf b) { yields := b } := by
  cases b
  · exact .of_history rfl
  · exact .await s

theorem Adds.launchWaiter (s : Interp) (kind : WaiterKind) (seq : Nat) (op : Op) :
    Adds s (s.launchWaiter kind seq op) { spawns := op.lazy, claims := !op.lazy } := by
  refine ⟨[if op.lazy then .spawn op else .launch op], rfl, ?_⟩
  rw [Coop.profile_singleton]
  cases op.lazy <;> rfl

/-- The state read for an act may be changed first in what is not the history. -/
theorem Adds.since {u : Interp} (h : Adds u s' p) (ht : u.history = s.history) : Adds s s' p := by
  obtain ⟨hp, ht⟩ := List.append_singleton_inj.1 ht
  unfold Adds at h ⊢
  rwa [hp, ht] at h

theorem Adds.until {u : Interp} (h : Adds s u p) (ht : s'.history = u.history) : Adds s s' p := by
  unfold Adds at h ⊢
  rwa [ht]

/-- A waiter launched once fields other than the history have changed. -/
theorem Adds.thenLaunch (h : Adds s s₁ p) (ht : s₂.history = s₁.history) (kind : WaiterKind) (seq : Nat) (op : Op)
    (hp : p.seq { spawns := op.lazy, claims := !op.lazy } = q) : Adds s (s₂.launchWaiter kind seq op) q := by
  exact hp ▸ h.trans ((Adds.launchWaiter s₂ kind seq op).since ht)

theorem Adds.cast (h : Adds s s' p) (hp : p = q) : Adds s s' q := hp ▸ h

namespace Does

variable {α β : Type} {f : α → Interp} {g : β → Interp} {m : M α}

theorem ok {a : α} (h : Adds s (f a) p) : Does s p f (.ok a) := h

theorem error {r : Raised} (h : Adds s r.state q) (hq : q.Le p) : Does s p f (.error r) := ⟨q, h, hq⟩

theorem raised (h : Adds s s' q) (hq : q.Le p) (e : Exc) : Does s p f (raise s' e) := ⟨q, h, hq⟩

/-- What raises at once. -/
theorem raises (e : Exc) : Does s p f (raise s e) :=
  ⟨.quiet, .of_history rfl, by constructor <;> simp [Profile.quiet]⟩

theorem since {u : Interp} (h : Does u p f m) (ht : u.history = s.history) : Does s p f m := by
  cases m with
  | ok a => exact Adds.since h ht
  | error r => obtain ⟨q, ha, hq⟩ := h; exact ⟨q, ha.since ht, hq⟩

/-- A piece that comes after `p`. -/
theorem after (h : Adds s s₁ p) (hm : Does s₁ q f m) : Does s (p.seq q) f m := by
  cases m with
  | ok a => exact h.trans hm
  | error r => obtain ⟨q', ha, hq⟩ := hm; exact ⟨_, h.trans ha, (Profile.Le.refl p).seq hq⟩

theorem bind {k : α → M β} (h : Does s p f m) (hk : ∀ a, m = .ok a → Does (f a) q g (k a)) :
    Does s (p.seq q) g (m >>= k) := by
  cases m with
  | ok a => exact after h (hk a rfl)
  | error r => obtain ⟨q', ha, hq⟩ := h; exact ⟨q', ha, hq.trans (p.le_seq q)⟩

theorem map {k : α → β} (h : Does s p f m) (hk : ∀ a, (g (k a)).history = (f a).history) : Does s p g (m.map k) := by
  cases m with
  | ok a => exact Adds.until h (hk a)
  | error r => exact h

/-- What is raised earlier does less. -/
theorem cast (h : Does s p f m) (hp : p = q) : Does s q f m := hp ▸ h

/-- A call outside the state. -/
theorem lift {x : Except Exc α} {k : α → M β} (hk : ∀ a, x = .ok a → Does s p g (k a)) :
    Does s p g (Dbosify.lift s x >>= k) := by
  cases x with
  | ok a => exact hk a rfl
  | error e => exact raises e

end Does

/-! ## Shared pieces -/

theorem does_checkReplayHorizon : Does s .quiet id (s.checkReplayHorizon x) := by
  unfold checkReplayHorizon
  simp only []
  split
  · exact .raised (.emit s _) (.refl _) _
  · exact .ok (.emit s _)

/-- Two operations awaited on the spot. -/
theorem adds_signalQueuedActivityCancel (env : Env) (s : Interp) (e : ActivityExec) (d : String) :
    Adds s (s.signalQueuedActivityCancel env e d) { claims := true, yields := true, behind := true } :=
  ((Adds.step s _).trans (.step _ _)).cast (by decide)

theorem does_encodeCall {args : List Value} {hs : Headers} : Does s { yields := true } (·.2) (s.encodeCall env args hs) := by
  unfold encodeCall
  simp only []
  refine (Does.after (.await s) (q := { yields := !hs.isEmpty }) (Does.lift fun ps _ => ?_)).cast (by
    cases hs.isEmpty <;> decide)
  refine (Does.after (.awaitIf _ _) (q := .quiet) (Does.lift fun hs _ => ?_)).cast (by simp)
  exact .ok (.of_history rfl)

/-- The probes of `_resolve_current_run`, and the operation after them. -/
theorem adds_resolved (env : Env) (s : Interp) (i : String) (o : Op) :
    Adds s ((s.resolveCurrentRun env i).step o)
      { claims := true, yields := true, behind := env.probeRounds i != 0 } := by
  have probes : ∀ (l : List Nat) (s : Interp),
      Adds s (l.foldl (fun s n => s.step (.statusList i n)) s)
        { claims := !l.isEmpty, yields := !l.isEmpty, behind := decide (1 < l.length) } := by
    intro l
    induction l with
    | nil => intro s; exact .of_history rfl
    | cons n l ih =>
      intro s
      refine ((Adds.step s _).trans (ih _)).cast ?_
      cases l <;> simp [Profile.seq]
  refine ((probes _ s).trans (.step _ o)).cast ?_
  cases h : env.probeRounds i <;> simp [Profile.seq, List.range_succ]

/-! ## Commands -/

/-- Whether the queue `q` of an activity leads to a call: its own queue is
still to be looked up, or is `q`, or `q` is registered. -/
def callsFor (env : Env) (s : Interp) (q : Option String) : Bool :=
  match q with
  | none => true
  | some q => !s.ownQueueResolved || some q = s.ownQueueName || env.queueExists q

/-- Whether the `timer` command starts its durable sleep. -/
def unexpired (s : Interp) (seq : Nat) : Bool := (s.pendingTimers.get? seq).any fun t => 0 < t - s.timeSeconds

/-- A signal is encoded on its way; a cancel request is not. -/
def encodes : Outgoing → Bool
  | .signal _ _ _ _ => true
  | .cancel _ _ => false

/-- The profile of a command, by the state before it. -/
def commandProfile (env : Env) (s : Interp) : Command → Profile
  | .timer seq => { spawns := s.unexpired seq }
  | .activity seq =>
    match s.pendingActivities.get? seq with
    | none => .quiet
    | some e => { yields := true, claims := s.callsFor env e.taskQueue, behind := s.callsFor env e.taskQueue }
  | .child seq =>
    match s.pendingChildren.get? seq with
    | none => .quiet
    | some c =>
      if env.workflowRegistered c.typeName then
        { yields := true, claims := true, behind := !env.childIdTaken c.childId }
      else .quiet
  | .send seq =>
    match s.pendingSends.get? seq with
    | none => .quiet
    | some p =>
      { yields := true, claims := true,
        behind := encodes p.envelope || (p.resolveChain && env.probeRounds p.target != 0) }
  | .attributes => { yields := true, claims := true, behind := true }
  | .patch seq => if (s.pendingPatches.get? seq).isSome then { yields := true, claims := true } else .quiet

theorem does_timer {k : Nat} : Does s { spawns := s.unexpired k } (·.2) (s.processTimer x k) := by
  unfold processTimer unexpired
  split
  · next h => exact .ok (by rw [h]; exact .of_history rfl)
  · next t h =>
    simp only [h, Option.any_some]
    split
    · next hd => exact .ok ((Adds.of_history rfl).cast (by simp [not_lt.2 hd, Profile.quiet]))
    · next hd =>
      refine (does_checkReplayHorizon.bind (q := { spawns := true }) fun s₁ _ => ?_).cast (by
        simp [not_le.1 hd])
      exact .ok (.launchWaiter _ _ _ _)

theorem does_launchAttempt {k : Nat} {e : ActivityExec} : Does s { claims := true } id (s.launchAttempt x k e) := by
  unfold launchAttempt attemptStepFor
  split
  · exact .ok ((Adds.launchWaiter _ _ _ _).since rfl)
  · exact .raises _

theorem does_resolveActivity {k : Nat} {e : ActivityExec} {o : ActivityOutcome} :
    Does s .quiet id (s.resolveActivity k e o) := by
  unfold resolveActivity
  split
  · exact .raises _
  · exact .ok (.of_history rfl)

theorem does_launchQueued {k : Nat} {e : ActivityExec} {q : String} :
    Does s { yields := true, claims := env.queueExists q, behind := env.queueExists q } id
      (s.launchQueuedActivity x env k e q) := by
  have refused : ∀ {s : Interp} {m : String} {c : FailureError}, Does s .quiet id
      (if e.futureCancelled then .ok (s.popActivity k) else
        (s.popActivity k).resolveActivity k e (.failed (activityError e m none c))) := by
    intro s m c
    split
    · exact .ok (.of_history rfl)
    · exact does_resolveActivity.since rfl
  unfold launchQueuedActivity
  simp only []
  split
  · next hq =>
    exact (Does.after (.await s) refused).cast (by simp [Bool.not_eq_true _ ▸ hq])
  · next hq =>
    rw [Decidable.not_not] at hq
    rw [hq]
    have hcalled : Adds s (s.await.step (.enqueue (activityDbosId x.workflowId k)))
        { yields := true, claims := true, behind := true } := ((Adds.await s).trans (.step _ _)).cast (by decide)
    split
    · exact Does.after hcalled refused
    · have hl := hcalled.trans (((Adds.launchWaiter _ .qActivity k
        (.activityResult (activityDbosId x.workflowId k))).since
          (s := s.await.step (.enqueue (activityDbosId x.workflowId k)))
          (u := (s.await.step (.enqueue (activityDbosId x.workflowId k))).setActivity k
            (.dispatched (activityDbosId x.workflowId k)))) rfl)
      split
      · exact .ok ((hl.trans (adds_signalQueuedActivityCancel env _ e _)).cast rfl)
      · exact .ok (hl.cast rfl)

/-- The look-up of the own queue. -/
theorem adds_resolveOwnQueue : Adds s (s.resolveOwnQueue x env)
    { claims := !s.ownQueueResolved, yields := !s.ownQueueResolved } := by
  unfold resolveOwnQueue
  split
  · next h => exact (Adds.of_history rfl).cast (by simp [h, Profile.quiet])
  · next h => exact ((Adds.step s _).until rfl).cast (by simp [h])

theorem resolveOwnQueue_resolved : (s.resolveOwnQueue x env).ownQueueResolved = true := by
  unfold resolveOwnQueue
  split
  · next h => exact h
  · rfl

theorem resolveOwnQueue_of_resolved (h : s.ownQueueResolved = true) : s.resolveOwnQueue x env = s := by
  rw [resolveOwnQueue, if_pos h]

/-- What follows the look-up: the check, and the launch here or on the
queue. -/
theorem does_launch (env : Env) {e : ActivityExec} (k : Nat) (hq : e.taskQueue.isSome = true → s.ownQueueResolved = true) :
    ∃ y, Does s { yields := y, claims := s.callsFor env e.taskQueue, behind := y && s.callsFor env e.taskQueue } id (do
      let s ← s.checkReplayHorizon x
      match e.taskQueue with
      | none => s.launchAttempt x k e
      | some queue => if some queue = s.ownQueueName then s.launchAttempt x k e else s.launchQueuedActivity x env k e queue) := by
  cases ht : e.taskQueue with
  | none => exact ⟨false, (does_checkReplayHorizon.bind fun s₁ _ => does_launchAttempt).cast (by simp [callsFor])⟩
  | some q =>
    have hq := hq (by rw [ht]; rfl)
    refine ⟨some q ≠ s.ownQueueName, (does_checkReplayHorizon.bind fun s₁ h₁ => ?_).cast (Profile.quiet_seq _)⟩
    rw [checkReplayHorizon_ok h₁]
    change Does _ _ id (if some q = s.ownQueueName then _ else _)
    split
    · next h => exact does_launchAttempt.cast (by simp [callsFor, h, hq])
    · next h => exact does_launchQueued.cast (by simp [callsFor, h, hq])

/-- The look-up if it is due, and what follows. An await ahead of it makes
its calls late for a task of an earlier turn. -/
theorem does_lookUpAndLaunch (env : Env) (k : Nat) (e : ActivityExec) : ∃ p,
    Profile.seq { yields := true } p =
      { yields := true, claims := s.callsFor env e.taskQueue, behind := s.callsFor env e.taskQueue } ∧
    Does s p id (do
      let s ← (if e.taskQueue.isSome then s.resolveOwnQueue x env else s).checkReplayHorizon x
      match e.taskQueue with
      | none => s.launchAttempt x k e
      | some queue => if some queue = s.ownQueueName then s.launchAttempt x k e else s.launchQueuedActivity x env k e queue) := by
  by_cases hr : e.taskQueue.isSome = true → s.ownQueueResolved = true
  · have : (if e.taskQueue.isSome then s.resolveOwnQueue x env else s) = s := by
      split
      · next h => exact resolveOwnQueue_of_resolved (hr h)
      · rfl
    rw [this]
    obtain ⟨y, hy⟩ := does_launch env k hr
    exact ⟨_, by cases y <;> simp [Profile.seq], hy⟩
  · rw [Classical.not_imp, Bool.not_eq_true] at hr
    rw [if_pos hr.1]
    obtain ⟨y, hy⟩ := does_launch env (s := s.resolveOwnQueue x env) (e := e) k fun _ => resolveOwnQueue_resolved
    refine ⟨_, ?_, .after adds_resolveOwnQueue hy⟩
    obtain ⟨q, hq⟩ := Option.isSome_iff_exists.1 hr.1
    cases y <;> simp [Profile.seq, callsFor, hq, hr.2]

theorem does_activity {k : Nat} : Does s (s.commandProfile env (.activity k)) id (s.processActivity x env k) := by
  unfold processActivity
  simp only [commandProfile]
  cases he : s.pendingActivities.get? k with
  | none => exact .ok (.of_history rfl)
  | some e =>
    have henc : Does s { yields := true } (·.2) (s.encodeCall env e.args e.headers) := does_encodeCall
    dsimp only
    cases hc : s.encodeCall env e.args e.headers with
    | error r =>
      rw [hc] at henc
      obtain ⟨q, ha, hq⟩ := henc
      exact ⟨q, ha, hq.trans (by constructor <;> simp)⟩
    | ok a =>
      obtain ⟨⟨ps, hs⟩, s₁⟩ := a
      rw [hc] at henc
      obtain ⟨t, rfl⟩ := traces_encodeCall hc
      obtain ⟨p, hp, hd⟩ := does_lookUpAndLaunch env (x := x)
        (s := Interp.setActivity { s with trace := s.trace ++ t } k (.encoded ps hs)) k (e.encoded ps hs)
      exact (Does.after henc (hd.since rfl)).cast hp

/-- Once a call is behind an await, only a task changes the profile. -/
theorem busy_seq (hs : q.spawns = false) (ho : q.opens = false) (hl : q.late = false) :
    Profile.seq { yields := true, claims := true, behind := true } q = { yields := true, claims := true, behind := true } := by
  simp [Profile.seq, hs, ho, hl]

theorem busy_seq_le (h : q.Le { yields := true }) :
    Profile.seq { yields := true, claims := true, behind := true } q = { yields := true, claims := true, behind := true } :=
  busy_seq (Bool.not_eq_true _ ▸ fun hq => Bool.noConfusion (h.spawns hq))
    (Bool.not_eq_true _ ▸ fun hq => Bool.noConfusion (h.opens hq)) (Bool.not_eq_true _ ▸ fun hq => Bool.noConfusion (h.late hq))

/-- How far `_start_child` gets, whether its `try` fails or not. -/
theorem adds_enqueueChild (c : ChildExec) (h : env.workflowRegistered c.typeName = true) :
    match s.enqueueChild x env c with
    | .ok s' => env.childIdTaken c.childId = false ∧ Adds s s' { yields := true, claims := true, behind := true }
    | .error (_, s') => Adds s s' { yields := true, claims := true, behind := !env.childIdTaken c.childId } := by
  unfold enqueueChild
  simp only [h, not_true, if_false]
  by_cases ht : env.childIdTaken c.childId = true
  · simp only [ht, if_true]
    exact (Adds.step s _).cast (by simp)
  · rw [Bool.not_eq_true] at ht
    simp only [ht, Bool.false_eq_true, if_false]
    -- From the second operation on every call is behind an await.
    have hw : ∀ s₂ : Interp, ∃ b, Adds s₂ (if (c.taskQueue.or s₂.ownQueueName).isSome then s₂.await else s₂) { yields := b } := by
      intro s₂
      split
      · exact ⟨true, .await _⟩
      · exact ⟨false, .of_history rfl⟩
    obtain ⟨b, hb⟩ := hw ((s.step (.childExists c.childId)).resolveOwnQueue x env)
    generalize hs₅ : Interp.step _ (.setEvent .children _) = s₅
    have h₅ : Adds s s₅ { yields := true, claims := true, behind := true } := by
      rw [← hs₅]
      refine ((((Adds.step s (.childExists c.childId)).trans adds_resolveOwnQueue).trans hb).trans
        ((Adds.step _ _).since rfl)).cast ?_
      cases b <;> simp [Profile.seq]
    have henc : Does s₅ { yields := true } (·.2) (s₅.encodeCall env c.args c.headers) := does_encodeCall
    cases hc : s₅.encodeCall env c.args c.headers with
    | error r =>
      rw [hc] at henc
      obtain ⟨q, ha, hq⟩ := henc
      exact (h₅.trans ha).cast (busy_seq_le hq)
    | ok a =>
      rw [hc] at henc
      have hend : Adds s (a.2.step (.enqueue c.childId)) { yields := true, claims := true, behind := true } :=
        ((h₅.trans henc).trans (.step _ _)).cast (by decide)
      cases env.enqueueFails c.childId with
      | some m => exact hend
      | none => exact ⟨trivial, hend⟩

theorem adds_startChild {k : Nat} {c : ChildExec} (hr : env.workflowRegistered c.typeName = true) :
    Adds s (s.startChild x env k c) { yields := true, claims := true, behind := !env.childIdTaken c.childId } := by
  have h := adds_enqueueChild (x := x) (s := s) c hr
  unfold startChild
  cases hc : s.enqueueChild x env c with
  | error p =>
    obtain ⟨f, s₁⟩ := p
    rw [hc] at h
    refine Adds.until h ?_
    dsimp only
    split <;> rfl
  | ok s₁ =>
    rw [hc] at h
    rw [h.1]
    refine Adds.thenLaunch h.2 ?_ .child k (.childResult c.childId) rfl
    split <;> rfl

theorem startChild_unregistered {k : Nat} {c : ChildExec} (hr : ¬ env.workflowRegistered c.typeName = true) :
    Adds s (s.startChild x env k c) .quiet := by
  have he : ∃ f, s.enqueueChild x env c = .error (f, s) := by
    unfold enqueueChild
    rw [if_pos hr]
    exact ⟨_, rfl⟩
  obtain ⟨f, he⟩ := he
  rw [startChild, he]
  refine .of_history ?_
  dsimp only
  split <;> rfl

theorem does_child {k : Nat} : Does s (s.commandProfile env (.child k)) (·.2) (s.processCommand x env (.child k)) := by
  simp only [processCommand, commandProfile]
  refine (does_checkReplayHorizon.bind fun s₁ h₁ => ?_).cast (Profile.quiet_seq _)
  rw [checkReplayHorizon_ok h₁]
  change Does _ _ _ (match s.pendingChildren.get? k with | none => _ | some c => _)
  cases s.pendingChildren.get? k with
  | none => exact .raises _
  | some c =>
    refine .ok ?_
    dsimp only
    split
    · next hr => exact adds_startChild hr
    · next hr => exact startChild_unregistered hr

theorem does_encodeOutgoing (o : Outgoing) : Does s { yields := encodes o } (·.2) (s.encodeOutgoing env o) := by
  cases o with
  | cancel reason t => exact .ok (.of_history rfl)
  | signal name args hs t =>
    refine (does_encodeCall.bind fun a _ => ?_).cast (Profile.seq_quiet _)
    exact .ok (.of_history rfl)

theorem does_send {k : Nat} : Does s (s.commandProfile env (.send k)) id (s.processSend x env k) := by
  unfold processSend
  simp only [commandProfile]
  refine (does_checkReplayHorizon.bind fun s₁ h₁ => ?_).cast (Profile.quiet_seq _)
  rw [checkReplayHorizon_ok h₁]
  change Does _ _ _ (match s.pendingSends.get? k with | none => _ | some c => _)
  cases s.pendingSends.get? k with
  | none => exact .raises _
  | some p =>
    dsimp only
    let probes := p.resolveChain && env.probeRounds p.target != 0
    refine ((does_encodeOutgoing p.envelope).since rfl |>.bind (q := { claims := true, yields := true, behind := probes })
      fun a _ => ?_).cast (by simp [Profile.seq, probes, Bool.or_comm])
    -- The probes of the chain, and the send itself.
    have hsend : Adds a.2 ((if p.resolveChain then a.2.resolveCurrentRun env p.target else a.2).step
        (.send (if p.resolveChain then env.currentRun p.target else p.target) a.1))
        { claims := true, yields := true, behind := p.resolveChain && env.probeRounds p.target != 0 } := by
      cases p.resolveChain
      · exact (Adds.step a.2 _).cast (by simp)
      · exact (adds_resolved env a.2 p.target _).cast (by simp)
    split
    · exact .ok hsend
    · exact .ok (Adds.until hsend rfl)

theorem does_attributes : Does s (s.commandProfile env .attributes) id (s.processAttributes x env) := by
  unfold processAttributes
  simp only [commandProfile]
  refine (Does.after (.await s) (q := { claims := true, yields := true }) (Does.lift fun vs _ => ?_)).cast rfl
  exact (does_checkReplayHorizon.bind fun s₁ _ => .ok (.step _ _)).cast (Profile.quiet_seq _)

theorem does_patch {k : Nat} : Does s (s.commandProfile env (.patch k)) id (s.processPatch x k) := by
  unfold processPatch
  simp only [commandProfile]
  cases s.pendingPatches.get? k with
  | none => exact .raises _
  | some i => exact ((does_checkReplayHorizon.since rfl).bind fun s₁ _ => .ok (.step _ _)).cast (Profile.quiet_seq _)

/-- **One turn of `_process_commands` does what its profile says.** -/
theorem does_command (c : Command) : Does s (s.commandProfile env c) (·.2) (s.processCommand x env c) := by
  cases c with
  | timer k => exact does_timer
  | activity k => exact does_activity.map fun _ => rfl
  | child k => exact does_child
  | send k => exact does_send.map fun _ => rfl
  | attributes => exact does_attributes.map fun _ => rfl
  | patch k => exact does_patch.map fun _ => rfl

/-- The profiles of the turns `_process_commands` takes, each by the state it
begins in. -/
def commandTurns (x : Execution) (env : Env) : List Command → Interp → List Profile
  | [], _ => []
  | c :: cs, s =>
    s.commandProfile env c ::
      match s.processCommand x env c with
      | .ok (_, s) => commandTurns x env cs s
      | .error _ => []

theorem does_commands (x : Execution) (env : Env) (cs : List Command) : ∀ (b : Bool) (s : Interp),
    Does s (.all (commandTurns x env cs s)) (·.2) (processCommands x env cs b s) := by
  induction cs with
  | nil => intro b s; exact .ok (.of_history rfl)
  | cons c cs ih =>
    intro b s
    have hc : Does s (s.commandProfile env c) (·.2) (s.processCommand x env c) := does_command c
    rw [processCommands, commandTurns]
    cases h : s.processCommand x env c with
    | error r => rw [h] at hc; exact hc.imp fun q hq => ⟨hq.1, by simpa [Profile.all] using hq.2⟩
    | ok a => rw [h] at hc; exact .after hc (ih (b || a.1) a.2)

/-! ## The end of a pass -/

/-- The profile of one reply: a result is encoded ahead of its event. -/
def replyProfile (r : Reply) : Profile :=
  match r.body with
  | .inl _ => { yields := true, claims := true, behind := true }
  | .inr _ => { yields := true, claims := true }

theorem does_flushReply (e : EventKey × Reply) : Does s (replyProfile e.2) id (s.flushReply env e) := by
  unfold flushReply replyProfile
  cases e.2.body with
  | inl v => exact Does.after (.await s) (q := { claims := true, yields := true }) (Does.lift fun p _ => .ok (.step _ _))
  | inr f => exact .ok (.step s _)

theorem does_flushOutbox : Does s (.all (s.outbox.map fun e => replyProfile e.2)) id (s.flushOutbox env) := by
  unfold flushOutbox
  have key : ∀ (l : List (EventKey × Reply)) (s : Interp),
      Does s (.all (l.map fun e => replyProfile e.2)) id (l.foldlM (flushReply env) s) := by
    intro l
    induction l with
    | nil => intro s; exact .ok (.of_history rfl)
    | cons e l ih =>
      intro s
      rw [List.foldlM_cons]
      exact (does_flushReply e).bind fun s₁ _ => ih s₁
  exact (key s.outbox { s with outbox := [] }).since rfl

/-- The profiles of the end of a pass: the replies, then the inbox's `recv`
where it is due. -/
def settleTurns (x : Execution) (deadlinePassed : Bool) (s : Interp) : List Profile :=
  match s.outcome with
  | some (.taskFailure _) => []
  | _ =>
    (s.outbox.map fun e => replyProfile e.2) ++
      if s.leaves x deadlinePassed then [] else [{ spawns := !s.waiters.any (·.kind = .inbox) }]

/-- The state before the wait: what a pass did is not yet past. -/
def unsuspended (t : Turn × Interp) : Interp :=
  match t.1 with
  | .wait => { t.2 with past := t.2.past.dropLast, trace := t.2.past.getLast?.getD [] }
  | _ => t.2

theorem adds_ensureInboxWaiter :
    Adds s (s.ensureInboxWaiter x) { spawns := !s.waiters.any (·.kind = .inbox) } := by
  unfold ensureInboxWaiter
  split
  · next h => exact (Adds.of_history rfl).cast (by simp [h, Profile.quiet])
  · next h => exact (Adds.launchWaiter _ _ _ _).cast (by simp [h, Op.lazy])

theorem all_append (ps qs : List Profile) : Profile.all (ps ++ qs) = (Profile.all ps).seq (Profile.all qs) := by
  induction ps with
  | nil => simp [Profile.all]
  | cons p ps ih =>
    simp only [Profile.all, List.cons_append, List.foldr_cons] at ih ⊢
    rw [ih, Profile.seq_assoc]

theorem does_settle {d : Bool} : Does s (.all (settleTurns x d s)) unsuspended (s.settle x env d) := by
  have hflush : Does s (.all ((s.outbox.map fun e => replyProfile e.2) ++
        if s.leaves x d then [] else [{ spawns := !s.waiters.any (·.kind = .inbox) }])) unsuspended (do
      let s ← s.flushOutbox env
      if s.leaves x d then .ok (.close, s) else .ok (.wait, (s.ensureInboxWaiter x).suspend)) := by
    rw [all_append]
    refine does_flushOutbox.bind fun s₁ h₁ => ?_
    obtain ⟨t, rfl⟩ := traces_flushOutbox h₁
    change Does _ _ _ (if s.leaves x d then _ else _)
    split
    · exact .ok (.of_history rfl)
    · refine .ok ?_
      have := adds_ensureInboxWaiter (x := x) (s := { s with outbox := [], trace := s.trace ++ t })
      refine (Adds.until this ?_).cast (Profile.seq_quiet _).symm
      simp [unsuspended, suspend]
  unfold settle settleTurns
  cases s.outcome with
  | none => exact hflush
  | some o =>
    cases o with
    | taskFailure e => exact .ok (.of_history rfl)
    | ok | continueAsNew | cancelled | failure => exact hflush

/-- The profiles of a whole pass, behind its head. -/
def passTurns (x : Execution) (env : Env) (deadlinePassed flushed : Bool) (s : Interp) : List Profile :=
  let turns := commandTurns x env s.commands { s with commands := [] }
  match processCommands x env s.commands false { s with commands := [] } with
  | .ok (progressed, s) => turns ++ if progressed || flushed then [] else settleTurns x deadlinePassed s
  | .error _ => turns

/-- What a pass does behind its head. -/
def endPass (x : Execution) (env : Env) (deadlinePassed flushed : Bool) (s : Interp) : M (Turn × Interp) := do
  let (progressed, s) ← processCommands x env s.commands false { s with commands := [] }
  if progressed || flushed then .ok (.again, s) else s.settle x env deadlinePassed

theorem does_endPass {d b : Bool} : Does s (.all (passTurns x env d b s)) unsuspended (s.endPass x env d b) := by
  have h := does_commands x env s.commands false { s with commands := [] }
  unfold endPass passTurns
  dsimp only
  cases hp : processCommands x env s.commands false { s with commands := [] } with
  | error r => rw [hp] at h; exact h
  | ok a =>
    rw [hp] at h
    dsimp only
    rw [all_append]
    refine Does.after (Adds.since h rfl) ?_
    rw [ok_bind]
    dsimp only
    split
    · exact .ok (.of_history rfl)
    · exact does_settle

/-! ## Events -/

/-- Whether the policy grants a failed attempt another one, after a backoff. -/
def retries (s : Interp) (e : ActivityExec) (failure : FailureEnvelope) : Bool :=
  match s.retryDecision e failure with
  | .ok (some _, _) => true
  | _ => false

/-- The profile of what a failed attempt leads to: the backoff sleeps in a
task. -/
def failureProfile (s : Interp) (e : ActivityExec) (failure : FailureEnvelope) : Profile :=
  { spawns := s.retries e failure }

/-- The profile of an event of a local attempt. -/
def attemptProfile (s : Interp) (seq : Nat) (r : TaskResult) : Profile :=
  match s.pendingActivities.get? seq with
  | none => .quiet
  | some e =>
    if e.futureCancelled then .quiet
    else if e.inBackoff then { claims := true }
    else
      match r with
      | .attempt (.asyncPending _ _) =>
        { spawns := e.startToClose.isSome || e.scheduleToClose.isSome || e.heartbeatTimeout.isSome }
      | .attempt (.failed failure endedAt _) =>
        if e.cancelRequested && failure.isCancelledError then .quiet
        else (s.advanceTime (some endedAt)).failureProfile e failure
      | _ => .quiet

/-- The profile of a park's end by its own timer. -/
def parkedProfile (s : Interp) (e : ActivityExec) (t : TimeoutType) : Profile :=
  if e.asyncPending then s.failureProfile e (timeoutFailure (parkedTimeoutMessage t) t) else .quiet

/-- The profile of an inbox message. -/
def messageProfile (x : Execution) (s : Interp) : Message → Profile
  | .signal e =>
    if (s.resolveSignal x e.name).isSome then { yields := !e.args.isEmpty || !e.headers.isEmpty } else .quiet
  | .update e =>
    match s.seenUpdateIds.contains e.updateId, s.resolveUpdate x e.name with
    | false, some defn =>
      { yields := !e.args.isEmpty || !e.headers.isEmpty || defn.hasValidator, claims := defn.hasValidator,
        behind := (!e.args.isEmpty || !e.headers.isEmpty) && defn.hasValidator }
    | _, _ => { yields := !e.args.isEmpty }
  | .query e => { yields := !e.args.isEmpty || ((s.resolveQuery x e.name).isSome && !e.headers.isEmpty) }
  | .activityResult activityId completion _ =>
    match s.asyncPendingById activityId with
    | none => .quiet
    | some (_, e) =>
      match completion with
      | .cancelled => .quiet
      | .ok _ => { yields := true }
      | .failed failure => s.failureProfile e failure
  | .activityHeartbeat activityId details _ =>
    if (s.asyncPendingById activityId).isSome then { yields := !details.isEmpty } else .quiet
  | .cancel _ _ | .rehydrateStop _ | .unknown _ _ | .malformed => .quiet

/-- The profile of an event, by the state before it. -/
def eventProfile (x : Execution) (s : Interp) (w : Waiter) (r : TaskResult) : Profile :=
  match w.kind, r with
  | .activity, r => s.attemptProfile w.seq r
  | .actS2c, _ =>
    match s.pendingActivities.get? w.seq with
    | none => .quiet
    | some e => (s.advanceTime (some (s.timeSeconds + e.pendingWaitSeconds))).parkedProfile e e.asyncParkTimeoutType
  | .actHb, _ =>
    match s.pendingActivities.get? w.seq with
    | none => .quiet
    | some e => if e.asyncPending && e.asyncHbSeen then { spawns := true } else s.parkedProfile e .heartbeat
  | .inbox, .message (some m) => (s.advanceTime m.sentAt).messageProfile x m
  | _, _ => .quiet

theorem does_failActivity {k : Nat} {e : ActivityExec} {f : FailureEnvelope} {t : Option RetryState} :
    Does s .quiet id (s.failActivity env k e f t) := by
  unfold failActivity
  exact Does.since (u := s.popActivity k) (Does.lift fun c _ => does_resolveActivity) rfl

theorem does_retryOrFail {k : Nat} {e : ActivityExec} {f : FailureEnvelope} :
    Does s (s.failureProfile e f) id (s.retryOrFail env k e f) := by
  unfold retryOrFail failureProfile retries
  refine Does.lift fun d hd => ?_
  obtain ⟨_ | delay, t⟩ := d
  · simp only [hd]
    exact does_failActivity
  · simp only [hd]
    exact .ok ((Adds.launchWaiter _ _ _ _).since rfl)

theorem history_advanceTime (s : Interp) (t : Option Seconds) : (s.advanceTime t).history = s.history := by
  unfold advanceTime
  split
  · split <;> rfl
  · rfl

theorem adds_armDeadline (k : Nat) (d : Option Seconds × DeadlineType) :
    Adds s (s.armDeadline k d) { spawns := d.1.isSome } := by
  unfold armDeadline
  cases d.1 with
  | none => exact .of_history rfl
  | some t => exact (Adds.launchWaiter _ _ _ _).since rfl

theorem adds_armHeartbeat (k : Nat) (d : Option Seconds) : Adds s (s.armHeartbeat k d) { spawns := d.isSome } := by
  unfold armHeartbeat
  cases d with
  | none => exact .of_history rfl
  | some t => exact (Adds.launchWaiter _ _ _ _).since rfl

theorem adds_park {k : Nat} {e : ActivityExec} {a b : Seconds} : Adds s (s.parkActivity k e a b)
    { spawns := e.startToClose.isSome || e.scheduleToClose.isSome || e.heartbeatTimeout.isSome } :=
  (((adds_armDeadline k _).since rfl).trans (adds_armHeartbeat k _)).cast
    (by simp [Profile.seq, effectiveDeadline_isSome])

theorem quiet_le (p : Profile) : Profile.quiet.Le p := by constructor <;> simp [Profile.quiet]

/-- What follows the question whether the attempt confirms a cancellation. -/
theorem does_confirmsCancel {α : Type} {e : ActivityExec} {f : FailureEnvelope} {k : Bool → M α} {g : α → Interp}
    (hk : Does s p g (k (e.cancelRequested && f.isCancelledError))) : Does s p g (s.confirmsCancel env e f >>= k) := by
  unfold confirmsCancel
  cases hc : e.cancelRequested with
  | false => rw [hc] at hk; exact hk
  | true =>
    cases hd : deserializeFailure env.converter f with
    | error m => exact .error (.of_history rfl) (quiet_le p)
    | ok d =>
      rw [hc, ← deserializeFailure_isCancelledError hd] at hk
      exact hk

theorem does_attempt {k : Nat} {r : TaskResult} :
    Does s (s.attemptProfile k r) id (s.deliverActivityEvent x env k r) := by
  unfold deliverActivityEvent attemptProfile
  cases s.pendingActivities.get? k with
  | none => exact .ok (.of_history rfl)
  | some e =>
    dsimp only
    split
    · exact .ok (.of_history rfl)
    split
    · exact does_launchAttempt.since (history_advanceTime s _)
    cases r with
    | attempt env' =>
      cases env' with
      | asyncPending a b => exact .ok (adds_park.since (history_advanceTime s _))
      | ok v b => exact does_resolveActivity.since (history_advanceTime s _)
      | failed f b t =>
        refine Does.since (u := s.advanceTime (some b)) (does_confirmsCancel ?_) (history_advanceTime s _)
        dsimp only
        split
        · exact .ok (.of_history rfl)
        · exact does_retryOrFail
    | raised m => exact .raises _
    | slept | message m | child c => exact .raises _

theorem does_queued {k : Nat} {r : TaskResult} : Does s .quiet id (s.deliverQueuedActivityEvent env k r) := by
  unfold deliverQueuedActivityEvent
  cases s.pendingActivities.get? k with
  | none => exact .ok (.of_history rfl)
  | some e =>
    dsimp only
    split
    · exact .ok (.of_history rfl)
    cases r with
    | attempt env' =>
      cases env' with
      | asyncPending a b => exact Does.since (.raises _) (history_advanceTime s _)
      | ok v b => exact does_resolveActivity.since (history_advanceTime s _)
      | failed f b t =>
        refine Does.since (u := (s.advanceTime (some b)).popActivity k) (does_confirmsCancel ?_) (history_advanceTime s _)
        split
        · exact .ok (.of_history rfl)
        · exact does_failActivity
    | raised m => exact .raises _
    | slept | message m | child c => exact .raises _

theorem does_parked {k : Nat} {e : ActivityExec} {t : TimeoutType} (he : s.pendingActivities.get? k = some e) :
    Does s (s.parkedProfile e t) id (s.asyncParkedTimeout env k t) := by
  unfold asyncParkedTimeout parkedProfile
  rw [he]
  cases hp : e.asyncPending with
  | false => simp only [hp, Bool.false_eq_true, not_false_eq_true, if_true, if_false]; exact .ok (.of_history rfl)
  | true =>
    simp only [hp, not_true, if_false, if_true]
    exact Does.since (u := (s.retireParkedTimers k).setActivity k .unpark) does_retryOrFail rfl

theorem does_parkTimeout {w : Waiter} {r : TaskResult} (hk : w.kind = .actS2c) :
    Does s (s.eventProfile x w r) id (s.deliverParkTimeout env w.seq) := by
  unfold deliverParkTimeout
  simp only [eventProfile, hk]
  cases he : s.pendingActivities.get? w.seq with
  | none =>
    dsimp only
    rw [asyncParkedTimeout, he]
    exact .ok (.of_history rfl)
  | some e =>
    refine Does.since (does_parked (e := e.charged) ?_) (history_advanceTime s _)
    have hacts : (s.advanceTime (some (s.timeSeconds + e.pendingWaitSeconds))).pendingActivities = s.pendingActivities :=
      congrArg Slots.acts (slots_advanceTime s _)
    simp only [setActivity, hacts, Py.Dict.get?_modify_self, he, Option.map_some]

theorem does_heartbeatCheck {w : Waiter} {r : TaskResult} (hk : w.kind = .actHb) :
    Does s (s.eventProfile x w r) id (s.asyncHeartbeatCheck env w.seq) := by
  unfold asyncHeartbeatCheck
  simp only [eventProfile, hk]
  cases he : s.pendingActivities.get? w.seq with
  | none => exact .ok (.of_history rfl)
  | some e =>
    dsimp only
    cases hp : e.asyncPending with
    | false => exact .ok ((Adds.of_history rfl).cast (by simp [parkedProfile, hp]))
    | true =>
      cases hs : e.asyncHbSeen with
      | false => exact does_parked he
      | true =>
        cases e.heartbeatTimeout with
        | none => exact Does.since (.raises _) rfl
        | some d => exact .ok ((Adds.launchWaiter _ _ _ _).since rfl)

theorem adds_deliverTimer (k : Nat) : Adds s (s.deliverTimer k) .quiet := by
  unfold deliverTimer
  split
  · exact .of_history rfl
  · exact .of_history (history_advanceTime _ _)

theorem does_childEvent {k : Nat} {r : TaskResult} : Does s .quiet id (s.deliverChildEvent env k r) := by
  unfold deliverChildEvent
  cases s.pendingChildren.get? k with
  | none => exact .ok (.of_history rfl)
  | some c =>
    dsimp only
    split
    · exact .ok (.of_history rfl)
    cases r with
    | child e =>
      cases e with
      | ok v b => exact .ok (.of_history (history_advanceTime _ _))
      | failed f b =>
        exact Does.since (u := Interp.advanceTime { s with pendingChildren := s.pendingChildren.pop k } (some b))
          (Does.lift fun c _ => .ok (.of_history rfl)) (history_advanceTime _ _)
    | raised m => exact Does.since (.raises _) rfl
    | slept | message m | attempt c => exact Does.since (.raises _) rfl

/-! ## Messages -/

theorem does_decodeMessageArgs (env : Env) (s : Interp) (d : Option HandlerDefn) (n : String) (args : List Payload) :
    Does s { yields := !args.isEmpty } (·.2) (s.decodeMessageArgs env d n args) := by
  unfold decodeMessageArgs
  simp only []
  refine (Does.after (.awaitIf s _) (q := .quiet) ?_).cast (Profile.seq_quiet _)
  split
  · exact Does.lift fun vs _ => .ok (.of_history rfl)
  · exact Does.lift fun vs _ => .ok (.of_history rfl)

theorem does_decodeMessageHeaders (env : Env) (s : Interp) (hs : Headers) :
    Does s { yields := !hs.isEmpty } (·.2) (s.decodeMessageHeaders env hs) := by
  unfold decodeMessageHeaders
  simp only []
  refine (Does.after (.awaitIf s _) (q := .quiet) (Does.lift fun vs _ => ?_)).cast (Profile.seq_quiet _)
  exact .ok (.of_history rfl)

/-- Without payloads there is nothing to reject. -/
theorem decodeMessageArgs_nil (env : Env) (s : Interp) (d : Option HandlerDefn) (n : String) :
    ∃ vs, s.decodeMessageArgs env d n [] = .ok (vs, s) := by
  unfold decodeMessageArgs
  cases h : d.any (·.name.isNone) <;> exact ⟨_, rfl⟩

theorem does_signal (e : SignalEnvelope) :
    Does s (s.messageProfile x (.signal e)) id (s.applySignal x env e) := by
  unfold applySignal
  simp only [messageProfile]
  cases s.resolveSignal x e.name with
  | none => exact .ok (.of_history rfl)
  | some d =>
    dsimp only [Option.isSome_some, if_true]
    have hargs := does_decodeMessageArgs env s (some d) e.name e.args
    cases hd : s.decodeMessageArgs env (some d) e.name e.args with
    | error r =>
      refine .ok ?_
      -- A signal whose arguments do not decode has some.
      have hne : e.args.isEmpty = false := by
        cases ha : e.args with
        | nil =>
          obtain ⟨vs, hv⟩ := decodeMessageArgs_nil env s (some d) e.name
          rw [ha, hv] at hd
          cases hd
        | cons _ _ => rfl
      simp only [id, decodeMessageArgs_error hd, hne]
      exact Adds.awaitIf s true
    | ok a =>
      rw [hd] at hargs
      refine (Does.after hargs ((does_decodeMessageHeaders env _ e.headers).bind (q := .quiet) fun b _ => ?_)).cast ?_
      · exact .ok (.of_history rfl)
      · simp [Profile.seq, Profile.quiet]

theorem does_update (e : UpdateEnvelope) (args : List Value) {t : List (Coop.Act Op)} :
    Does { s with trace := s.trace ++ t }
      (match s.seenUpdateIds.contains e.updateId, s.resolveUpdate x e.name with
        | false, some defn =>
          { yields := !e.headers.isEmpty || defn.hasValidator, claims := defn.hasValidator,
            behind := !e.headers.isEmpty && defn.hasValidator }
        | _, _ => .quiet) id
      (Interp.applyUpdate x env { s with trace := s.trace ++ t } e args) := by
  unfold applyUpdate
  change Does _ _ _ (if s.seenUpdateIds.contains e.updateId then _ else _)
  cases s.seenUpdateIds.contains e.updateId with
  | true => exact .ok (.of_history rfl)
  | false =>
    simp only [Bool.false_eq_true, if_false]
    rw [show Interp.resolveUpdate x { s with trace := s.trace ++ t, seenUpdateIds := _ } e.name =
      s.resolveUpdate x e.name from rfl]
    cases s.resolveUpdate x e.name with
    | none => exact .ok (.of_history rfl)
    | some d =>
      dsimp only
      refine (Does.since (does_decodeMessageHeaders env _ e.headers) rfl |>.bind
        (q := { yields := d.hasValidator, claims := d.hasValidator }) fun a _ => ?_).cast ?_
      · have hv : Adds a.2 (if d.hasValidator then a.2.step (.validateUpdate e.updateId) else a.2)
            { yields := d.hasValidator, claims := d.hasValidator } := by
          cases d.hasValidator
          · exact .of_history rfl
          · exact .step _ _
        split
        · exact .ok (Adds.until hv rfl)
        · exact .ok (Adds.until hv rfl)
      · cases d.hasValidator <;> simp [Profile.seq]

theorem adds_query (e : QueryEnvelope) (args : List Value) {t : List (Coop.Act Op)} :
    Adds { s with trace := s.trace ++ t } (Interp.applyQuery x env { s with trace := s.trace ++ t } e args)
      { yields := (s.resolveQuery x e.name).isSome && !e.headers.isEmpty } := by
  unfold applyQuery
  rw [show Interp.resolveQuery x { s with trace := s.trace ++ t } e.name = s.resolveQuery x e.name from rfl]
  cases s.resolveQuery x e.name with
  | none => exact .of_history rfl
  | some d =>
    have hh := does_decodeMessageHeaders env { s with trace := s.trace ++ t } e.headers
    dsimp only
    cases hd : Interp.decodeMessageHeaders env { s with trace := s.trace ++ t } e.headers with
    | error r =>
      refine Adds.until (u := r.state) ?_ rfl
      rw [decodeMessageHeaders_error hd]
      exact Adds.awaitIf _ _
    | ok a =>
      rw [hd] at hh
      dsimp only
      split
      · split
        · exact Adds.until hh rfl
        · exact Adds.until hh rfl
      · exact Adds.until hh rfl

theorem does_activityResult (i : String) (c : Completion) (t : Option Seconds) :
    Does s (s.messageProfile x (.activityResult i c t)) id (s.applyActivityResult x env i c) := by
  unfold applyActivityResult
  simp only [messageProfile]
  cases s.asyncPendingById i with
  | none => exact .ok (.of_history rfl)
  | some p =>
    obtain ⟨k, e⟩ := p
    cases c with
    | cancelled => exact .ok (.of_history rfl)
    | ok v =>
      refine (Does.since (Does.after (.await _) (q := .quiet) (Does.lift fun v _ => ?_)) rfl).cast (Profile.seq_quiet _)
      exact does_resolveActivity
    | failed f =>
      exact Does.since (u := (s.retireParkedTimers k).setActivity k .unpark) does_retryOrFail rfl

theorem does_activityHeartbeat (i : String) (ds : List Payload) (t : Option Seconds) :
    Does s (s.messageProfile x (.activityHeartbeat i ds t)) id (s.applyActivityHeartbeat env i ds) := by
  unfold applyActivityHeartbeat
  simp only [messageProfile]
  cases s.asyncPendingById i with
  | none => exact .ok (.of_history rfl)
  | some p =>
    refine (Does.since (Does.after (.awaitIf _ _) (q := .quiet) (Does.lift fun v _ => ?_)) rfl).cast (Profile.seq_quiet _)
    exact .ok (.of_history rfl)

theorem does_message (m : Message) : Does s ((s.advanceTime m.sentAt).messageProfile x m) id
    (s.deliverInbox x env (some m)) := by
  unfold deliverInbox
  dsimp only
  refine Does.since (u := s.advanceTime m.sentAt) ?_ (history_advanceTime s _)
  generalize s.advanceTime m.sentAt = s
  cases m with
  | signal e => exact does_signal e
  | update e =>
    have hargs := does_decodeMessageArgs env s (s.resolveUpdate x e.name) e.name e.args
    dsimp only
    cases hd : s.decodeMessageArgs env (s.resolveUpdate x e.name) e.name e.args with
    | error r =>
      rw [hd] at hargs
      obtain ⟨q, ha, hq⟩ := hargs
      refine ⟨q, ha, hq.trans ?_⟩
      simp only [messageProfile]
      split <;> constructor <;> simp +contextual
    | ok a =>
      rw [hd] at hargs
      obtain ⟨vs, s₁⟩ := a
      obtain ⟨t, rfl⟩ := traces_decodeMessageArgs hd
      refine (Does.after hargs (does_update e vs)).cast ?_
      simp only [messageProfile]
      split
      · next d _ _ => cases e.args.isEmpty <;> cases e.headers.isEmpty <;> cases d.hasValidator <;> rfl
      · exact Profile.seq_quiet _
  | query e =>
    have hargs := does_decodeMessageArgs env s (s.resolveQuery x e.name) e.name e.args
    dsimp only
    cases hd : s.decodeMessageArgs env (s.resolveQuery x e.name) e.name e.args with
    | error r =>
      rw [hd] at hargs
      obtain ⟨q, ha, hq⟩ := hargs
      refine ⟨q, ha, hq.trans ?_⟩
      constructor <;> simp +contextual [messageProfile]
    | ok a =>
      rw [hd] at hargs
      obtain ⟨vs, s₁⟩ := a
      obtain ⟨t, rfl⟩ := traces_decodeMessageArgs hd
      exact .ok ((Adds.trans hargs (adds_query e vs)).cast (by simp [messageProfile, Profile.seq]))
  | cancel reason t =>
    refine .ok (.of_history ?_)
    unfold applyCancel
    split
    · rfl
    · dsimp only; split <;> rfl
  | activityResult i c t => exact does_activityResult i c t
  | activityHeartbeat i ds t => exact does_activityHeartbeat i ds t
  | rehydrateStop t | unknown k t | malformed => exact .ok (.of_history rfl)

/-- **One event does what its profile says.** -/
theorem does_event (w : Waiter) (r : TaskResult) : Does s (s.eventProfile x w r) id (s.deliverEvent x env w r) := by
  unfold deliverEvent
  cases hk : w.kind with
  | inbox =>
    cases r with
    | message m =>
      cases m with
      | none => exact .ok ((Adds.of_history rfl).cast (by simp only [eventProfile, hk]))
      | some m => exact (does_message m).cast (by simp only [eventProfile, hk])
    | raised m | slept | attempt e | child e => exact .raises _
  | timer => exact .ok ((adds_deliverTimer w.seq).cast (by simp only [eventProfile, hk]))
  | activity => exact does_attempt.cast (by simp only [eventProfile, hk])
  | qActivity => exact does_queued.cast (by simp only [eventProfile, hk])
  | actS2c => exact does_parkTimeout hk
  | actHb => exact does_heartbeatCheck hk
  | child => exact does_childEvent.cast (by simp only [eventProfile, hk])

/-- The profiles of the events of a round, each by the state it finds. -/
def eventTurns (x : Execution) (env : Env) (done : Done) : List Waiter → Interp → List Profile
  | [], _ => []
  | w :: ws, s =>
    match done w.task with
    | none => eventTurns x env done ws s
    | some r =>
      match s.removeWaiter w with
      | .error _ => []
      | .ok s =>
        s.eventProfile x w r ::
          match s.deliverEvent x env w r with
          | .ok s => eventTurns x env done ws s
          | .error _ => []

theorem does_events {done : Done} (ws : List Waiter) : ∀ (s : Interp),
    Does s (.all (eventTurns x env done ws s)) id (ws.foldlM (deliverWaiter x env done) s) := by
  induction ws with
  | nil => intro s; exact .ok (.of_history rfl)
  | cons w ws ih =>
    intro s
    rw [List.foldlM_cons, eventTurns, deliverWaiter]
    cases done w.task with
    | none => exact ih s
    | some r =>
      dsimp only
      cases hr : s.removeWaiter w with
      | error e =>
        unfold removeWaiter at hr
        split at hr
        · cases hr
        · cases hr; exact .raises _
      | ok s₁ =>
        have ht : s₁.history = s.history := by
          unfold removeWaiter at hr
          split at hr
          · cases hr; rfl
          · exact absurd hr raise_ne_ok
        have he : Does s (s₁.eventProfile x w r) id (s₁.deliverEvent x env w r) := (does_event w r).since ht
        refine Does.bind he fun s₂ h₂ => ?_
        rw [ok_bind] at h₂
        rw [h₂]
        exact ih s₂

/-! ## The turns do not suspend behind a task of their own -/

/-- A profile of one turn. -/
def Plain (p : Profile) : Prop := p.opens = false ∧ p.late = false

theorem plain_failure (s : Interp) (e : ActivityExec) (f : FailureEnvelope) : Plain (s.failureProfile e f) := ⟨rfl, rfl⟩

theorem plain_command (env : Env) (s : Interp) (c : Command) : Plain (s.commandProfile env c) := by
  unfold commandProfile
  repeat' first
    | exact ⟨rfl, rfl⟩
    | split

theorem plain_event (x : Execution) (s : Interp) (w : Waiter) (r : TaskResult) : Plain (s.eventProfile x w r) := by
  unfold eventProfile attemptProfile parkedProfile messageProfile
  repeat' first
    | exact ⟨rfl, rfl⟩
    | exact plain_failure _ _ _
    | split

theorem plain_commandTurns (cs : List Command) : ∀ (s : Interp), ∀ p ∈ commandTurns x env cs s, Plain p := by
  induction cs with
  | nil => intro s p hp; cases hp
  | cons c cs ih =>
    intro s p hp
    rw [commandTurns, List.mem_cons] at hp
    rcases hp with rfl | hp
    · exact plain_command env s c
    · split at hp
      · exact ih _ p hp
      · cases hp

theorem plain_settleTurns {d : Bool} : ∀ p ∈ settleTurns x d s, Plain p := by
  intro p hp
  unfold settleTurns at hp
  split at hp
  · cases hp
  · rcases List.mem_append.1 hp with hp | hp
    · obtain ⟨e, -, rfl⟩ := List.mem_map.1 hp
      unfold replyProfile
      split <;> exact ⟨rfl, rfl⟩
    · split at hp
      · cases hp
      · rw [List.mem_singleton] at hp; subst hp; exact ⟨rfl, rfl⟩

theorem plain_passTurns {d b : Bool} : ∀ p ∈ passTurns x env d b s, Plain p := by
  intro p hp
  unfold passTurns at hp
  dsimp only at hp
  split at hp
  · rcases List.mem_append.1 hp with hp | hp
    · exact plain_commandTurns _ _ p hp
    · split at hp
      · cases hp
      · exact plain_settleTurns p hp
  · exact plain_commandTurns _ _ p hp

theorem plain_eventTurns {done : Done} (ws : List Waiter) : ∀ (s : Interp), ∀ p ∈ eventTurns x env done ws s, Plain p := by
  induction ws with
  | nil => intro s p hp; cases hp
  | cons w ws ih =>
    intro s p hp
    rw [eventTurns] at hp
    split at hp
    · exact ih s p hp
    · split at hp
      · cases hp
      · rcases List.mem_cons.1 hp with rfl | hp
        · exact plain_event x _ w _
        · split at hp
          · exact ih _ p hp
          · cases hp

/-! ## Determined ids -/

/-- The operations since the driver last suspended for certain are numbered
in one order, whichever awaits suspend. -/
def Determined (s : Interp) : Prop := ∀ σ τ : Nat → Bool, Coop.order σ s.trace = Coop.order τ s.trace

/-- A piece that takes turns with these profiles: it numbers its operations
in one order exactly when they do not cross; if it raises, still so when they
do not. -/
def Numbers {α : Type} (ps : List Profile) (state : α → Interp) (m : M α) : Prop :=
  match m with
  | .ok a => (state a).Determined ↔ ¬ Coop.Crossed ps
  | .error r => ¬ Coop.Crossed ps → r.state.Determined

/-- No task waits to be numbered. -/
def Settled (s : Interp) : Prop := (Coop.profile s.trace).spawns = false

/-- Behind acts that spawn no task, a piece is late when its own acts are. -/
theorem Does.numbers {α : Type} {f : α → Interp} {m : M α} {ps : List Profile} (h : Does s (.all ps) f m)
    (hp : ∀ p ∈ ps, Plain p) (hs : s.Settled) : Numbers ps f m := by
  obtain ⟨ho, hl⟩ := Coop.profile_of_no_spawn hs
  have key : ∀ {s' : Interp} {q : Profile}, Adds s s' q → (s'.Determined ↔ ¬ q.late = true) := by
    rintro s' q ⟨t, ht, rfl⟩
    have hs : (Coop.profile s.trace).spawns = false := hs
    rw [Determined, Coop.order_eq_iff, ← Coop.profile_late, (List.append_singleton_inj.1 ht).2, Coop.profile_append]
    simp [Profile.seq, hs, ho, hl]
  cases m with
  | ok a =>
    show (f a).Determined ↔ _
    rw [key h, Profile.all_late hp]
  | error r =>
    obtain ⟨q, ha, hq⟩ := h
    intro hc
    rw [key ha]
    exact fun h' => hc ((Profile.all_late hp).1 (hq.late h'))

theorem Settled.adds (h : s.Settled) (ha : Adds s s' p) (hp : p.spawns = false) : s'.Settled := by
  obtain ⟨t, ht, rfl⟩ := ha
  have h : (Coop.profile s.trace).spawns = false := h
  rw [Settled, (List.append_singleton_inj.1 ht).2, Coop.profile_append]
  simp [Profile.seq, h, hp]

/-- Acts later, none of which spawns a task. -/
def Awaits (s s' : Interp) : Prop := ∃ p, Adds s s' p ∧ p.spawns = false

theorem Awaits.of_history (h : s'.history = s.history) : Awaits s s' := ⟨_, .of_history h, rfl⟩

theorem Awaits.trans (h : Awaits s s₁) (h' : Awaits s₁ s₂) : Awaits s s₂ := by
  obtain ⟨p, hp, h₁⟩ := h
  obtain ⟨q, hq, h₂⟩ := h'
  exact ⟨_, hp.trans hq, by simp [Profile.seq, h₁, h₂]⟩

theorem Awaits.settled (h : Awaits s s') (hs : s.Settled) : s'.Settled := by
  obtain ⟨p, hp, h⟩ := h
  exact hs.adds hp h

theorem awaits_step (s : Interp) (o : Op) : Awaits s (s.step o) := ⟨_, .step s o, rfl⟩

theorem awaits_signal (s : Interp) (e : ActivityExec) (d : String) : Awaits s (s.signalQueuedActivityCancel env e d) :=
  (awaits_step s _).trans (awaits_step _ _)

theorem awaits_sendCancel (s : Interp) (i : String) : Awaits s (s.sendCancel env i) := ⟨_, adds_resolved env s i _, rfl⟩

theorem Awaits.foldl {α : Type} {f : Interp → α → Interp} (hf : ∀ s a, Awaits s (f s a)) (l : List α) :
    ∀ s, Awaits s (l.foldl f s) := by
  induction l with
  | nil => intro s; exact .of_history rfl
  | cons a l ih => intro s; exact (hf s a).trans (ih _)

theorem awaits_sweepWait (s : Interp) (k : Nat) : Awaits s (s.sweepWait env k) := by
  unfold Interp.sweepWait
  split
  · exact .of_history rfl
  · split
    · exact awaits_signal _ _ _
    · exact .of_history rfl

theorem awaits_sweepActivity (s : Interp) (k : Nat) : Awaits s (s.sweepActivity env k) := by
  unfold Interp.sweepActivity
  split
  · exact .of_history rfl
  · next e he =>
    have hc : ∀ {s' : Interp}, Awaits s s' →
        Awaits s (if e.asyncPending then s'.step (.setEvent (.asyncActivityGone e.activityId) .flag) else s') := by
      intro s' h'
      split
      · exact h'.trans (awaits_step _ _)
      · exact h'
    refine Awaits.trans (hc ?_) (.of_history rfl)
    split
    · exact .of_history rfl
    · exact .of_history rfl
    · exact Awaits.trans (.of_history rfl) (awaits_signal _ _ _)

theorem awaits_sweepChild (s : Interp) (k : Nat) : Awaits s (s.sweepChild env k) := by
  unfold Interp.sweepChild
  split
  · exact .of_history rfl
  · dsimp only
    split
    · refine Awaits.trans (.of_history ?_) (awaits_sendCancel _ _)
      rfl
    · exact .of_history rfl

/-- The sweep awaits what it calls. -/
theorem awaits_sweep (env : Env) (s : Interp) : Awaits s (s.sweepCancellations env) := by
  unfold sweepCancellations
  refine Awaits.trans ?_ (.foldl (fun s k => awaits_sweepChild s k) _ _)
  refine Awaits.trans ?_ (.of_history rfl)
  refine Awaits.trans ?_ (.foldl (fun s k => awaits_sweepActivity s k) _ _)
  refine Awaits.trans ?_ (.of_history rfl)
  exact Awaits.trans (.of_history rfl) (.foldl (fun s k => awaits_sweepWait s k) _ _)

/-- What a piece does that spawns no task, whether it raises or not. -/
def DoesAwait {α : Type} (s : Interp) (state : α → Interp) (m : M α) : Prop :=
  match m with
  | .ok a => Awaits s (state a)
  | .error r => Awaits s r.state

theorem Does.awaits {α : Type} {f : α → Interp} {m : M α} (h : Does s p f m) (hp : p.spawns = false) :
    DoesAwait s f m := by
  cases m with
  | ok a => exact ⟨p, h, hp⟩
  | error r =>
    obtain ⟨q, ha, hq⟩ := h
    exact ⟨q, ha, by rw [← Bool.not_eq_true] at hp ⊢; exact fun h' => hp (hq.spawns h')⟩

theorem awaits_foldlM {α : Type} {f : Interp → α → M Interp} (hf : ∀ s a, DoesAwait s id (f s a)) (l : List α) :
    ∀ s, DoesAwait s id (l.foldlM f s) := by
  induction l with
  | nil => intro s; exact .of_history rfl
  | cons a l ih =>
    intro s
    rw [List.foldlM_cons]
    have h := hf s a
    cases hm : f s a with
    | error r => rw [hm] at h; exact h
    | ok s₁ =>
      rw [hm] at h
      have h₁ := ih s₁
      rw [ok_bind]
      cases hl : l.foldlM f s₁ with
      | error r => rw [hl] at h₁; exact h.trans h₁
      | ok s₂ => rw [hl] at h₁; exact h.trans h₁

/-- The flush awaits what it decodes. -/
theorem awaits_flush (x : Execution) (env : Env) (s : Interp) : DoesAwait s (·.2) (s.flushPendingHandlerSignals x env) := by
  unfold flushPendingHandlerSignals
  split
  · exact .of_history rfl
  · dsimp only
    have h := awaits_foldlM (f := applySignal x env) (fun s e => (does_signal e).awaits (by
      simp only [messageProfile]
      split <;> rfl)) s.pendingHandlerFlush { s with pendingHandlerFlush := [] }
    cases hm : s.pendingHandlerFlush.foldlM (applySignal x env) { s with pendingHandlerFlush := [] } with
    | error r => rw [hm] at h; exact Awaits.trans (.of_history rfl) h
    | ok s₁ => rw [hm] at h; exact Awaits.trans (.of_history rfl) h

/-- The head of a pass: what is done before `_process_commands`. -/
def beginPass (x : Execution) (env : Env) (code : Code) (s : Interp) : M (Bool × Interp) :=
  ((s.drainOutsideTask x code).sweepCancellations env).flushPendingHandlerSignals x env

theorem awaits_beginPass (x : Execution) (env : Env) (s : Interp) (code : Code) :
    DoesAwait (s.drainOutsideTask x code) (·.2) (s.beginPass x env code) := by
  have h := awaits_sweep env (s.drainOutsideTask x code)
  have h₁ := awaits_flush x env ((s.drainOutsideTask x code).sweepCancellations env)
  unfold beginPass
  cases hm : ((s.drainOutsideTask x code).sweepCancellations env).flushPendingHandlerSignals x env with
  | error r => rw [hm] at h₁; exact h.trans h₁
  | ok r => rw [hm] at h₁; exact h.trans h₁

theorem history_drainOutsideTask (s : Interp) (code : Code) :
    (s.drainOutsideTask x code).past = s.history ∧ (s.drainOutsideTask x code).trace = [] :=
  ⟨congrArg Kept.past (kept_drain (x := x) { s.suspend with ready := [] } code),
    congrArg Kept.trace (kept_drain (x := x) { s.suspend with ready := [] } code)⟩

theorem settled_beginPass {code : Code} {b : Bool} (h : s.beginPass x env code = .ok (b, s')) : s'.Settled := by
  have ha := awaits_beginPass x env s code
  rw [h] at ha
  refine ha.settled ?_
  rw [Settled, (history_drainOutsideTask s code).2]
  rfl

/-- A pass is its head and what follows. -/
theorem pass_eq (env : Env) (d : Bool) (code : Code) (s : Interp) :
    s.pass x env d code = s.beginPass x env code >>= fun r => r.2.endPass x env d r.1 := rfl

/-- The driver waits with nothing done since it last suspended. -/
theorem trace_wait {d : Bool} (hs : s.settle x env d = .ok (.wait, s')) : s'.trace = [] := by
  unfold settle at hs
  split at hs
  · cases hs
  · simp only [bind_eq_ok] at hs
    obtain ⟨s₁, -, hs⟩ := hs
    split at hs <;> cases hs
    rfl

end Interp

open Interp

theorem Reachable.trace_waiting {x : Execution} {c : Config} (h : Reachable x c) (hc : c.phase = .waiting) :
    c.interp.trace = [] := by
  refine h.invariant (P := fun p s => p = .waiting → s.trace = []) (by simp) ?_ (by simp) (by simp [hc]) hc
  intro s s' t env d code _ hs ht
  unfold Interp.pass afterDrain at hs
  simp only [bind_eq_ok] at hs
  obtain ⟨⟨b, s₁⟩, -, ⟨p, s₂⟩, -, hs⟩ := hs
  dsimp only at hs
  split at hs
  · cases hs; cases ht
  · cases t <;> first | exact trace_wait hs | cases ht

variable {x : Execution} {env : Env}

/-! Which awaits suspend decides nothing else, and neither does what was
recorded: outside a replay the driver performs the same acts. -/

/-- The same execution, with other awaits suspending, after another history. -/
def Execution.again (x : Execution) (suspends : Nat → Nat → Bool) (replayHorizon : Nat) (patchesRecorded : List String) :
    Execution := { x with suspends, replayHorizon, patchesRecorded }

variable {σ : Nat → Nat → Bool} {H : Nat} {P : List String}

theorem checkReplayHorizon_again (hm : x.replayMode = none) (s : Interp) :
    s.checkReplayHorizon (x.again σ H P) = s.checkReplayHorizon x := by
  simp [checkReplayHorizon, Execution.again, hm]

theorem processCommands_again (hm : x.replayMode = none) (cs : List Command) : ∀ (b : Bool) (s : Interp),
    processCommands (x.again σ H P) env cs b s = processCommands x env cs b s := by
  have hc : ∀ (s : Interp) (c : Command), s.processCommand (x.again σ H P) env c = s.processCommand x env c := by
    intro s c
    cases c <;> simp only [processCommand, processTimer, processActivity, processSend, processAttributes, processPatch,
      checkReplayHorizon_again hm] <;> rfl
  induction cs with
  | nil => intro b s; rfl
  | cons c cs ih => intro b s; simp only [processCommands, hc, ih]

/-- The part of a pass behind its drain. -/
theorem afterDrain_again (hm : x.replayMode = none) (d : Bool) (s : Interp) :
    s.afterDrain (x.again σ H P) env d = s.afterDrain x env d := by
  unfold afterDrain
  simp only [processCommands_again hm]
  rfl

theorem round_again (done : Done) (s : Interp) : s.round (x.again σ H P) env done = s.round x env done := rfl

/-- A timer, then a local activity. -/
def timerThenActivity : Code := .asks [.createTimer 5, .startActivity { activityName := "act" }]

end Dbosify
