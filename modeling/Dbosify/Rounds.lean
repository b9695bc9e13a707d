/-
A round: what each event does to the waiters, and what a whole done set does.

`deliver` walks the waiters as they stood when the round began, and takes
each done one off the list as it is now. An event before it may have
retired it; `Clash` says which can. In a round without a clash every done
waiter is taken off once and what escapes, if anything, was raised outside
the interpreter (`Delivered`).
-/
import Dbosify.WaiterPass

namespace Dbosify

open Py (Dict)

/-! ## How an event changes the slots -/

/-- The waiters of `σ` are kept, but for those `R` allows to retire; what is
new has a new task; no activity is added or renamed. -/
structure Evolves (σ σ' : Slots) (R : Waiter → Prop) : Prop where
  kept : ∀ w ∈ σ.waiters, w ∈ σ'.waiters ∨ R w
  fresh : ∀ w ∈ σ'.waiters, w ∈ σ.waiters ∨ σ.nextTask ≤ w.task
  next : σ.nextTask ≤ σ'.nextTask
  ids : ∀ {k e'}, σ'.acts.get? k = some e' → ∃ e, σ.acts.get? k = some e ∧ e'.activityId = e.activityId

namespace Evolves

variable {σ σ₁ σ₂ : Slots} {R : Waiter → Prop}

theorem refl (σ : Slots) (R : Waiter → Prop) : Evolves σ σ R :=
  ⟨fun _ h => .inl h, fun _ h => .inl h, le_rfl, fun h => ⟨_, h, rfl⟩⟩

theorem trans (h : Evolves σ σ₁ R) (h' : Evolves σ₁ σ₂ R) : Evolves σ σ₂ R where
  kept := fun w hw => (h.kept w hw).elim (h'.kept w) .inr
  fresh := fun w hw => (h'.fresh w hw).elim (h.fresh w) fun hn => .inr (h.next.trans hn)
  next := h.next.trans h'.next
  ids := fun he => by
    obtain ⟨e₁, h₁, hid₁⟩ := h'.ids he
    obtain ⟨e, h₀, hid₀⟩ := h.ids h₁
    exact ⟨e, h₀, hid₁.trans hid₀⟩

theorem launch (σ : Slots) (kind : WaiterKind) (seq : Nat) (op : Op) : Evolves σ (σ.launch kind seq op) R where
  kept := fun w hw => .inl (List.mem_append_left _ hw)
  fresh := fun w hw => by
    simp only [Slots.launch, List.mem_append, List.mem_singleton] at hw
    rcases hw with hw | rfl
    · exact .inl hw
    · exact .inr le_rfl
  next := Nat.le_succ _
  ids := fun h => ⟨_, h, rfl⟩

theorem modify (σ : Slots) (k : Nat) {f : ActivityExec → ActivityExec}
    (hf : ∀ e, (f e).activityId = e.activityId) : Evolves σ (σ.modify k f) R where
  kept := fun _ h => .inl h
  fresh := fun _ h => .inl h
  next := le_rfl
  ids := fun {j e'} he => by
    simp only [Slots.modify, Dict.get?_modify] at he
    split at he
    · obtain ⟨e, he₀, rfl⟩ := Option.map_eq_some_iff.1 he
      exact ⟨e, he₀, hf e⟩
    · exact ⟨_, he, rfl⟩

theorem pop (σ : Slots) (k : Nat) : Evolves σ (σ.pop k) R where
  kept := fun _ h => .inl h
  fresh := fun _ h => .inl h
  next := le_rfl
  ids := fun he => ⟨_, (Dict.get?_pop_some.1 he).2, rfl⟩

theorem retain (σ : Slots) {p : Waiter → Bool} (hp : ∀ w, p w = false → R w) : Evolves σ (σ.retain p) R where
  kept := fun w hw => by
    by_cases h : p w = true
    · exact .inl (List.mem_filter.2 ⟨hw, h⟩)
    · exact .inr (hp w (by simpa using h))
  fresh := fun w hw => .inl (List.mem_filter.1 hw).1
  next := le_rfl
  ids := fun h => ⟨_, h, rfl⟩

theorem nextTask (σ : Slots) : Evolves σ { σ with nextTask := σ.nextTask + 1 } R where
  kept := fun _ h => .inl h
  fresh := fun _ h => .inl h
  next := Nat.le_succ _
  ids := fun h => ⟨_, h, rfl⟩

end Evolves

namespace Interp

variable {x : Execution} {env : Env} {s s' : Interp} {R : Waiter → Prop}

/-- What an event leaves: the invariant, and the waiters it found but for
those `R` allows it to retire. -/
structure Leaves (x : Execution) (s s' : Interp) (R : Waiter → Prop) : Prop where
  processing : s'.Processing x []
  evolves : Evolves s.slots s'.slots R

theorem Leaves.refl (h : s.Processing x []) : Leaves x s s R := ⟨h, .refl _ _⟩

theorem Leaves.then {s₁ s₂ : Interp} (h : Leaves x s s₁ R) (h' : Leaves x s₁ s₂ R) : Leaves x s s₂ R :=
  ⟨h'.processing, h.evolves.trans h'.evolves⟩

theorem Leaves.of_eq {u s₂ : Interp} (h : Leaves x s u R) (hs : s₂.slots = u.slots) : Leaves x s s₂ R :=
  ⟨h.processing.of_eq hs, by rw [hs]; exact h.evolves⟩

theorem Leaves.start {s₁ : Interp} (h : s.Processing x []) (hs : s₁.slots = s.slots) : Leaves x s s₁ R :=
  (Leaves.refl h).of_eq hs

theorem Processing.live (h : s.Processing x []) {k : Nat} {e : ActivityExec} (he : s.pendingActivities.get? k = some e) :
    e.futureCancelled = false :=
  (processing_idle h).live he

/-! ## Activities -/

/-- An activity without a waiter is dropped. -/
theorem leaves_pop (h : s.Processing x []) {k : Nat} (hl : s.slots.Lone k) : Leaves x s (s.popActivity k) R :=
  ⟨⟨h.inv.pop hl, h.clean⟩, .pop _ k⟩

/-- A launched attempt. -/
theorem leaves_attempt (h : s.Processing x []) {k : Nat} {e e' : ActivityExec} (hl : s.slots.Lone k)
    (he : s.slots.acts.get? k = some e) (hp : e.asyncPending = false) (hn : e'.activityName = e.activityName)
    (hs : s.launchAttempt x k e' = .ok s') : Leaves x s s' R := by
  obtain ⟨hr, n, d, t, heq⟩ := slots_launchAttempt hs
  refine ⟨⟨?_, ?_⟩, ?_⟩
  · rw [heq]; exact processing_attempt h.inv hl he hp (hn ▸ hr) List.not_mem_nil
  · rw [heq]; exact h.clean
  · rw [heq]
    exact (Evolves.modify (f := .launched) _ k fun _ => rfl).trans (.launch _ _ _ _)

/-- The exec after a change, read back. -/
theorem get?_modified {σ : Slots} {k : Nat} {e : ActivityExec} (f : ActivityExec → ActivityExec)
    (he : σ.acts.get? k = some e) : (σ.modify k f).acts.get? k = some (f e) := by
  simp only [Slots.modify, Dict.get?_modify_self, he, Option.map_some]

/-- A backoff. -/
theorem leaves_backoff (h : s.Processing x []) {k : Nat} {e : ActivityExec} (d : Seconds) (hl : s.slots.Lone k)
    (he : s.slots.acts.get? k = some e) (hp : e.asyncPending = false)
    (hr : x.registered e.activityName = true) : Leaves x s (s.launchBackoff k d) R := by
  have hm := h.inv.modify_lone (f := .backOff d) hl (fun _ hf => hf) (fun e' he' ha => h.inv.parked (e := e') he' ha)
    fun hc => absurd hc List.not_mem_nil
  refine ⟨⟨hm.launch ?_ (fun _ => hl) fun _ => List.not_mem_nil, h.clean⟩, ?_⟩
  · exact ⟨e.backOff d, get?_modified _ he, hp, hr, rfl⟩
  · exact (Evolves.modify (f := .backOff d) _ k fun _ => rfl).trans (.launch _ _ _ _)

theorem slots_resolveActivity {k : Nat} {e : ActivityExec} {o : ActivityOutcome}
    (hs : s.resolveActivity k e o = .ok s') : s'.slots = s.slots := by
  unfold resolveActivity at hs
  split at hs
  · exact absurd hs raise_ne_ok
  · cases hs; rfl

/-- Giving up. -/
theorem leaves_failActivity (h : s.Processing x []) {k : Nat} {e : ActivityExec} {f : FailureEnvelope}
    {st : Option RetryState} (hl : s.slots.Lone k) (hs : s.failActivity env k e f st = .ok s') : Leaves x s s' R := by
  simp only [failActivity, bind_eq_ok] at hs
  obtain ⟨cause, -, hs⟩ := hs
  exact (leaves_pop h hl).of_eq (slots_resolveActivity hs)

/-- Retry, or give up. -/
theorem leaves_retryOrFail (h : s.Processing x []) {k : Nat} {e e' : ActivityExec} {f : FailureEnvelope}
    (hl : s.slots.Lone k) (he : s.slots.acts.get? k = some e) (hp : e.asyncPending = false)
    (hr : x.registered e.activityName = true) (hs : s.retryOrFail env k e' f = .ok s') : Leaves x s s' R := by
  simp only [retryOrFail, bind_eq_ok] at hs
  obtain ⟨⟨delay, st⟩, -, hs⟩ := hs
  cases delay with
  | some d => cases hs; exact leaves_backoff h d hl he hp hr
  | none => exact leaves_failActivity h hl hs

/-- The heartbeat window of a park. -/
theorem leaves_heartbeat (h : s.Processing x []) {k : Nat} {e : ActivityExec} {hb : Seconds}
    (he : s.slots.acts.get? k = some e) (hp : e.asyncPending = true) (hh : e.heartbeatTimeout.isSome = true) :
    Leaves x s ((s.setActivity k (.heartbeat false)).launchWaiter .actHb k (.sleep hb)) R := by
  have hm := h.inv.modify_same (k := k) (f := .heartbeat false) (fun _ => ⟨rfl, rfl, rfl, rfl, rfl⟩) fun _ => rfl
  refine ⟨⟨hm.launch ?_ (fun hm => by simp [Waiter.isMain] at hm) fun _ => List.not_mem_nil, h.clean⟩, ?_⟩
  · exact ⟨e.heartbeat false, get?_modified _ he, hp, h.inv.parked (e := e) he hp, hh, hb, rfl⟩
  · exact (Evolves.modify (f := .heartbeat false) _ k fun _ => rfl).trans (.launch _ _ _ _)

/-- The deadline of a park. -/
theorem leaves_parkFor (h : s.Processing x []) {k : Nat} {e : ActivityExec} (t : TimeoutType) (d : Seconds)
    (hl : s.slots.Lone k) (he : s.slots.acts.get? k = some e) (hp : e.asyncPending = true) :
    Leaves x s ((s.setActivity k (.parkFor t d)).launchWaiter .actS2c k (.sleep d)) R := by
  have hm := h.inv.modify_lone (f := .parkFor t d) hl (fun _ hf => hf) (fun e' he' ha => h.inv.parked (e := e') he' ha)
    fun hc => absurd hc List.not_mem_nil
  refine ⟨⟨hm.launch ?_ (fun hm => by simp [Waiter.isMain] at hm) fun _ => List.not_mem_nil, h.clean⟩, ?_⟩
  · exact ⟨e.parkFor t d, get?_modified _ he, hp, h.inv.parked (e := e) he hp, rfl⟩
  · exact (Evolves.modify (f := .parkFor t d) _ k fun _ => rfl).trans (.launch _ _ _ _)

/-- The park of an attempt: the exec is marked, then its deadline is armed,
then its heartbeat window. -/
theorem leaves_park (h : s.Processing x []) {k : Nat} {e e' : ActivityExec} (a b : Seconds) (hl : s.slots.Lone k)
    (he : s.slots.acts.get? k = some e) (hh : e'.heartbeatTimeout = e.heartbeatTimeout)
    (hr : x.registered e.activityName = true) : Leaves x s (s.parkActivity k e' a b) R := by
  have h₁ : Leaves x s (s.setActivity k .park) R := by
    refine ⟨⟨?_, h.clean⟩, .modify _ k fun _ => rfl⟩
    refine h.inv.modify_lone (f := .park) hl (fun _ hf => hf) (fun e₁ he₁ _ => ?_) fun hc => absurd hc List.not_mem_nil
    rw [he] at he₁; cases he₁; exact hr
  have he₁ : (s.setActivity k .park).slots.acts.get? k = some e.park := get?_modified _ he
  have key : ∀ {s₁ : Interp} {e₁ : ActivityExec}, Leaves x s s₁ R → s₁.slots.acts.get? k = some e₁ →
      e₁.asyncPending = true → e₁.heartbeatTimeout = e.heartbeatTimeout →
      Leaves x s (s₁.armHeartbeat k e'.heartbeatTimeout) R := by
    intro s₁ e₁ hs₁ he₁ hp₁ hh₁
    unfold armHeartbeat
    split
    · next hb hhb => exact hs₁.then (leaves_heartbeat hs₁.processing he₁ hp₁ (by rw [hh₁, ← hh, hhb]; rfl))
    · exact hs₁
  unfold parkActivity armDeadline
  simp only
  split
  · exact key (h₁.then (leaves_parkFor h₁.processing _ _ hl he₁ rfl)) (get?_modified _ he₁)
      rfl rfl
  · exact key h₁ he₁ rfl rfl

/-- An attempt's event, its waiter off the list. -/
theorem leaves_activityEvent (h : s.Processing x []) {w : Waiter} {r : TaskResult} (hk : w.kind = .activity)
    (hw : Warranted x s.slots.acts w) (hl : s.slots.Lone w.seq) (hs : s.deliverActivityEvent x env w.seq r = .ok s') :
    Leaves x s s' R := by
  have hadv : ∀ t, Leaves x s (s.advanceTime t) R := fun t => .start h (slots_advanceTime s t)
  unfold Warranted at hw
  rw [hk] at hw
  obtain ⟨e, he, hp, hr, -⟩ := hw
  unfold deliverActivityEvent at hs
  rw [show s.pendingActivities.get? w.seq = some e from he] at hs
  simp only at hs
  split at hs
  · cases hs; exact leaves_pop h hl
  · split at hs
    · -- The backoff is over.
      have h₁ := hadv (some (s.timeSeconds + e.pendingWaitSeconds))
      have h₂ : Leaves x s ((s.advanceTime (some (s.timeSeconds + e.pendingWaitSeconds))).setActivity w.seq .nextAttempt) R := by
        refine h₁.then ⟨⟨?_, h₁.processing.clean⟩, .modify _ _ fun _ => rfl⟩
        have hinv := h₁.processing.inv
        refine hinv.modify_lone (f := .nextAttempt) ?_ (fun _ hf => hf) (fun e' he' ha => hinv.parked (e := e') he' ha)
          fun hc => absurd hc List.not_mem_nil
        rw [slots_advanceTime]; exact hl
      refine h₂.then (leaves_attempt (e := e.nextAttempt) h₂.processing ?_ ?_ hp rfl hs)
      · rw [slots_setActivity, slots_advanceTime]; exact hl
      · rw [slots_setActivity, slots_advanceTime]; exact get?_modified _ he
    · have hl' : ∀ t, (s.advanceTime t).slots.Lone w.seq := fun t => by rw [slots_advanceTime]; exact hl
      have he' : ∀ t, (s.advanceTime t).slots.acts.get? w.seq = some e := fun t => by rw [slots_advanceTime]; exact he
      split at hs
      · next a b => cases hs; exact (hadv (some b)).then (leaves_park (hadv _).processing _ _ (hl' _) (he' _) rfl hr)
      · next v b =>
        exact (hadv (some b)).then ((leaves_pop (hadv _).processing (hl' _)).of_eq (slots_resolveActivity hs))
      · next f b st =>
        simp only [bind_eq_ok] at hs
        obtain ⟨c, -, hs⟩ := hs
        split at hs
        · cases hs; exact (hadv (some b)).then ((leaves_pop (hadv _).processing (hl' _)).of_eq rfl)
        · exact (hadv (some b)).then (leaves_retryOrFail (hadv _).processing (hl' _) (he' _) hp hr hs)
      · exact absurd hs raise_ne_ok
      · exact absurd hs raise_ne_ok

/-- A queued activity's event, its waiter off the list. -/
theorem leaves_queuedEvent (h : s.Processing x []) {k : Nat} {r : TaskResult} (hl : s.slots.Lone k)
    (hs : s.deliverQueuedActivityEvent env k r = .ok s') : Leaves x s s' R := by
  have hpop : ∀ t, Leaves x s ((s.advanceTime t).popActivity k) R := fun t =>
    (Leaves.start h (slots_advanceTime s t)).then
      (leaves_pop ((Leaves.start (R := R) h (slots_advanceTime s t)).processing) (by rw [slots_advanceTime]; exact hl))
  unfold deliverQueuedActivityEvent at hs
  split at hs
  · cases hs; exact leaves_pop h hl
  · split at hs
    · cases hs; exact leaves_pop h hl
    · split at hs
      · next v b => exact (hpop (some b)).of_eq (slots_resolveActivity hs)
      · next f b st =>
        simp only [bind_eq_ok] at hs
        obtain ⟨c, -, hs⟩ := hs
        split at hs
        · cases hs; exact (hpop (some b)).of_eq rfl
        · refine (hpop (some b)).then (leaves_failActivity (hpop _).processing ?_ hs)
          rw [slots_popActivity, slots_advanceTime]; exact hl
      · exact absurd hs raise_ne_ok
      · exact absurd hs raise_ne_ok
      · exact absurd hs raise_ne_ok

/-! ## Parks -/

/-- Retiring the timers of a park. -/
theorem leaves_retire (h : s.Processing x []) (k : Nat) (hR : ∀ v, v.isPark = true → v.seq = k → R v) :
    Leaves x s (s.retireParkedTimers k) R := by
  refine ⟨⟨by rw [slots_retireParkedTimers]; exact h.inv.retain _, h.clean⟩, ?_⟩
  rw [slots_retireParkedTimers]
  refine .retain _ fun w hw => ?_
  simp only [decide_eq_false_iff_not, not_not] at hw
  exact hR w (by simpa [Waiter.isPark] using hw.1) hw.2

/-- A failed park: its timers are retired, and the policy decides. -/
theorem leaves_failAsync (h : s.Processing x []) {k : Nat} {e e' : ActivityExec} {f : FailureEnvelope}
    {g : ActivityExec → ActivityExec} (he : s.slots.acts.get? k = some e) (hp : e.asyncPending = true)
    (hg : ∀ e, (g e).asyncPending = e.asyncPending ∧ (g e).activityName = e.activityName ∧
      (g e).futureCancelled = e.futureCancelled ∧ (g e).activityId = e.activityId)
    (hR : ∀ v, v.isPark = true → v.seq = k → R v)
    (hs : ((s.retireParkedTimers k).setActivity k g).failAsyncAttempt env k e' f = .ok s') : Leaves x s s' R := by
  have h₁ : Leaves x s (s.retireParkedTimers k) R := leaves_retire h k hR
  have hl : (s.retireParkedTimers k).slots.Lone k := by
    rw [slots_retireParkedTimers]; exact h.inv.lone_of_retire he hp
  have hr := h.inv.parked he hp
  have h₂ : Leaves x s ((s.retireParkedTimers k).setActivity k g) R := by
    refine h₁.then ⟨⟨?_, h₁.processing.clean⟩, .modify _ _ fun e => (hg e).2.2.2⟩
    refine h₁.processing.inv.modify_lone hl (fun e hf => (hg e).2.2.1 ▸ hf) (fun e' he' ha => ?_)
      fun hc => absurd hc List.not_mem_nil
    rw [(hg e').2.1]
    exact h₁.processing.inv.parked he' ((hg e').1 ▸ ha)
  have h₃ : Leaves x s (((s.retireParkedTimers k).setActivity k g).setActivity k .unpark) R := by
    refine h₂.then ⟨⟨?_, h₂.processing.clean⟩, .modify _ _ fun _ => rfl⟩
    refine h₂.processing.inv.modify_lone (f := .unpark) hl (fun e hf => hf) (fun e' _ ha => ?_)
      fun hc => absurd hc List.not_mem_nil
    cases ha
  have he₃ : (((s.retireParkedTimers k).setActivity k g).setActivity k .unpark).slots.acts.get? k = some (g e).unpark :=
    get?_modified _ (get?_modified g he)
  exact h₃.then (leaves_retryOrFail h₃.processing hl he₃ rfl ((hg e).2.1 ▸ hr) hs)

theorem setActivity_id (s : Interp) (k : Nat) : s.setActivity k id = s := by
  have : s.pendingActivities.modify k id = s.pendingActivities := by
    obtain ⟨l, hl⟩ := s.pendingActivities
    simp only [Dict.modify, Dict.mk.injEq]
    rw [List.map_congr_left (g := id) (fun e _ => by split <;> rfl), List.map_id]
  unfold setActivity
  rw [this]

/-- A park's timeout. -/
theorem leaves_parkedTimeout (h : s.Processing x []) {k : Nat} {t : TimeoutType}
    (hR : ∀ v, v.isPark = true → v.seq = k → R v) (hs : s.asyncParkedTimeout env k t = .ok s') : Leaves x s s' R := by
  unfold asyncParkedTimeout at hs
  split at hs
  · cases hs; exact .refl h
  · next e he =>
    split at hs
    · cases hs; exact .refl h
    · next hp =>
      rw [← setActivity_id (s.retireParkedTimers k) k] at hs
      exact leaves_failAsync h he (by simpa using hp) (fun _ => ⟨rfl, rfl, rfl, rfl⟩) hR hs

/-- The end of a park's deadline. The clock moves first. -/
theorem leaves_parkEnd (h : s.Processing x []) {w : Waiter} (hk : w.kind = .actS2c)
    (hw : Warranted x s.slots.acts w) (hR : ∀ v, v.isPark = true → v.seq = w.seq → R v)
    (hs : s.deliverParkTimeout env w.seq = .ok s') : Leaves x s s' R := by
  obtain ⟨e, he, hp, hr⟩ := hw.park (by simp [Waiter.isPark, hk])
  unfold deliverParkTimeout at hs
  rw [show s.pendingActivities.get? w.seq = some e from he] at hs
  simp only [asyncParkedTimeout] at hs
  have h₁ : Leaves x s (s.advanceTime (some (s.timeSeconds + e.pendingWaitSeconds))) R :=
    .start h (slots_advanceTime s _)
  generalize hs₁ : s.advanceTime (some (s.timeSeconds + e.pendingWaitSeconds)) = s₁ at hs h₁
  have he₁ : s₁.slots.acts.get? w.seq = some e := by rw [← hs₁, slots_advanceTime]; exact he
  rw [show (s₁.setActivity w.seq .charged).pendingActivities.get? w.seq = some e.charged from
    get?_modified .charged he₁] at hs
  simp only at hs
  rw [if_neg (by simpa [ActivityExec.charged] using hp)] at hs
  exact h₁.then (leaves_failAsync (g := .charged) h₁.processing he₁ hp (fun _ => ⟨rfl, rfl, rfl, rfl⟩) hR hs)

/-- A heartbeat check. -/
theorem leaves_heartbeatCheck (h : s.Processing x []) {k : Nat} (hR : ∀ v, v.isPark = true → v.seq = k → R v)
    (hs : s.asyncHeartbeatCheck env k = .ok s') : Leaves x s s' R := by
  unfold asyncHeartbeatCheck at hs
  split at hs
  · cases hs; exact .refl h
  · next e he =>
    split at hs
    · cases hs; exact .refl h
    · next hp =>
      split at hs
      · exact leaves_parkedTimeout h hR hs
      · simp only at hs
        split at hs
        · next hb hhb =>
          cases hs; exact leaves_heartbeat h he (by simpa using hp) (by rw [hhb]; rfl)
        · exact absurd hs raise_ne_ok

/-! ## Messages -/

/-- The exec a completion is for is parked. -/
theorem asyncPendingById_some {i : String} {k : Nat} {e : ActivityExec} (h : s.asyncPendingById i = some (k, e)) :
    s.slots.acts.get? k = some e ∧ e.activityId = i ∧ e.asyncPending = true := by
  have hp := List.find?_some h
  have hm := List.mem_of_find?_eq_some h
  simp only [Bool.decide_and, Bool.and_eq_true, decide_eq_true_eq] at hp
  exact ⟨Dict.mem_entries_iff.1 hm, hp⟩

theorem leaves_activityResult (h : s.Processing x []) {i : String} {c : Completion}
    (hR : ∀ v, v.isPark = true → (∃ e, s.slots.acts.get? v.seq = some e ∧ e.activityId = i ∧ e.asyncPending = true) → R v)
    (hs : s.applyActivityResult x env i c = .ok s') : Leaves x s s' R := by
  unfold applyActivityResult at hs
  split at hs
  · cases hs; exact .refl h
  · next k e hfind =>
    obtain ⟨he, hid, hp⟩ := asyncPendingById_some hfind
    have hRk : ∀ v, v.isPark = true → v.seq = k → R v := fun v hv hk => hR v hv ⟨e, hk ▸ he, hid, hp⟩
    have h₁ : Leaves x s (s.retireParkedTimers k) R := leaves_retire h k hRk
    have hl : (s.retireParkedTimers k).slots.Lone k := by
      rw [slots_retireParkedTimers]; exact h.inv.lone_of_retire he hp
    simp only at hs
    split at hs
    · cases hs; exact (h₁.then (leaves_pop h₁.processing hl)).of_eq rfl
    · next p =>
      simp only [bind_eq_ok] at hs
      obtain ⟨v, -, hs⟩ := hs
      exact (h₁.then (leaves_pop h₁.processing hl)).of_eq ((slots_resolveActivity hs).trans (slots_await _))
    · rw [← setActivity_id (s.retireParkedTimers k) k] at hs
      exact leaves_failAsync h he hp (fun _ => ⟨rfl, rfl, rfl, rfl⟩) hRk hs

theorem leaves_activityHeartbeat (h : s.Processing x []) {i : String} {d : List Payload}
    (hs : s.applyActivityHeartbeat env i d = .ok s') : Leaves x s s' R := by
  unfold applyActivityHeartbeat at hs
  split at hs
  · cases hs; exact .refl h
  · next k e hfind =>
    simp only [bind_eq_ok, Except.ok.injEq] at hs
    obtain ⟨v, -, rfl⟩ := hs
    refine Leaves.of_eq (u := s.setActivity k (.heartbeat true)) ⟨⟨?_, h.clean⟩, .modify _ _ fun _ => rfl⟩
      (slots_awaitIf _ _)
    exact h.inv.modify_same (f := .heartbeat true) (fun _ => ⟨rfl, rfl, rfl, rfl, rfl⟩) fun _ => rfl

/-- A handler task is created. -/
theorem leaves_spawnHandler (h : s.Processing x []) (hd : Handler) : Leaves x s (s.spawnHandler hd) R :=
  ⟨⟨WaiterInv.nextTask h.inv, h.clean⟩, .nextTask _⟩

theorem leaves_traces (h : s.Processing x []) (ht : Traces s s') : Leaves x s s' R := .start h ht.slots

theorem leaves_signal (h : s.Processing x []) {e : SignalEnvelope} (hs : s.applySignal x env e = .ok s') :
    Leaves x s s' R := by
  unfold applySignal at hs
  split at hs
  · cases hs; exact .start h rfl
  · split at hs
    · next r hr =>
      cases hs
      rw [decodeMessageArgs_error hr]
      exact .start h (slots_awaitIf s _)
    · next args s₁ hr =>
      simp only [bind_eq_ok, Except.ok.injEq] at hs
      obtain ⟨⟨hd, s₂⟩, h₂, rfl⟩ := hs
      have h₃ : Leaves x s s₂ R := leaves_traces h ((traces_decodeMessageArgs hr).trans (traces_decodeMessageHeaders h₂))
      exact h₃.then (leaves_spawnHandler h₃.processing _)

theorem leaves_update (h : s.Processing x []) {e : UpdateEnvelope} {args : List Value}
    (hs : s.applyUpdate x env e args = .ok s') : Leaves x s s' R := by
  unfold applyUpdate at hs
  split at hs
  · cases hs; exact .refl h
  · simp only at hs
    split at hs
    · cases hs; exact .start h rfl
    · simp only [bind_eq_ok] at hs
      obtain ⟨⟨hd, s₁⟩, h₁, hs⟩ := hs
      have h₂ : Leaves x s s₁ R := .start h (by rw [(traces_decodeMessageHeaders h₁).slots]; rfl)
      have h₃ : ∀ b : Bool, Leaves x s (if b = true then s₁.step (.validateUpdate e.updateId) else s₁) R := by
        intro b; split
        · exact h₂.of_eq rfl
        · exact h₂
      split at hs
      · cases hs; exact (h₃ _).of_eq rfl
      · cases hs
        have h₄ := (h₃ ‹HandlerDefn›.hasValidator).of_eq
          (slots_reply _ (.updateAcceptance e.updateId) ⟨.accepted, .inl .none⟩)
        exact h₄.then (leaves_spawnHandler h₄.processing _)

theorem slots_applyQuery {e : QueryEnvelope} {args : List Value} : (s.applyQuery x env e args).slots = s.slots := by
  unfold applyQuery
  simp only
  split
  · rfl
  · split
    · next r hr => rw [decodeMessageHeaders_error hr, slots_reply, slots_awaitIf]
    · next hd s₁ hr =>
      have := (traces_decodeMessageHeaders hr).slots
      split
      · split <;> exact this
      · exact this

/-- Which waiters a message may retire. -/
def Message.Retires (s : Interp) (m : Message) (v : Waiter) : Prop :=
  ∃ i c t, m = .activityResult i c t ∧ v.isPark = true ∧
    ∃ e, s.slots.acts.get? v.seq = some e ∧ e.activityId = i ∧ e.asyncPending = true

/-- A message. -/
theorem leaves_inbox (h : s.Processing x []) {m : Option Message} (hR : ∀ m', m = some m' → ∀ v, Message.Retires s m' v → R v)
    (hs : s.deliverInbox x env m = .ok s') : Leaves x s s' R := by
  unfold deliverInbox at hs
  split at hs
  · cases hs; exact .refl h
  · next m =>
    have h₁ : Leaves x s (s.advanceTime m.sentAt) R := .start h (slots_advanceTime s _)
    simp only at hs
    split at hs
    · exact h₁.then (leaves_signal h₁.processing hs)
    · simp only [bind_eq_ok] at hs
      obtain ⟨⟨args, s₂⟩, h₂, hs⟩ := hs
      have h₃ := h₁.then (leaves_traces h₁.processing (traces_decodeMessageArgs h₂))
      exact h₃.then (leaves_update h₃.processing hs)
    · simp only [bind_eq_ok, Except.ok.injEq] at hs
      obtain ⟨⟨args, s₂⟩, h₂, rfl⟩ := hs
      have h₃ := h₁.then (leaves_traces h₁.processing (traces_decodeMessageArgs h₂))
      exact h₃.of_eq slots_applyQuery
    · refine h₁.then (leaves_activityResult h₁.processing (fun v hv he => ?_) hs)
      rw [slots_advanceTime] at he
      exact hR _ rfl v ⟨_, _, _, rfl, hv, he⟩
    · exact h₁.then (leaves_activityHeartbeat h₁.processing hs)
    · cases hs
      refine h₁.of_eq ?_
      unfold applyCancel
      split
      · rfl
      · simp only; split <;> rfl
    · cases hs; exact h₁.of_eq rfl
    · cases hs; exact h₁
    · cases hs; exact h₁

/-- A child's event. -/
theorem slots_childEvent {k : Nat} {r : TaskResult} (hs : s.deliverChildEvent env k r = .ok s') : s'.slots = s.slots := by
  unfold deliverChildEvent at hs
  split at hs
  · cases hs; rfl
  · simp only at hs
    split at hs
    · cases hs; rfl
    · split at hs
      · cases hs; rw [slots_wake, slots_advanceTime]; rfl
      · simp only [bind_eq_ok, Except.ok.injEq] at hs
        obtain ⟨_, -, rfl⟩ := hs
        rw [slots_wake, slots_advanceTime]; rfl
      · exact absurd hs raise_ne_ok
      · exact absurd hs raise_ne_ok

/-- Which waiters the event of `w`, with result `r`, may retire: the timers
of the park it ends. -/
def Retires (s : Interp) (w : Waiter) (r : TaskResult) (v : Waiter) : Prop :=
  v.isPark = true ∧
    ((w.isPark = true ∧ w.seq = v.seq) ∨
      (w.kind = .inbox ∧ ∃ i c t e, r = .message (some (.activityResult i c t)) ∧
        s.pendingActivities.get? v.seq = some e ∧ e.activityId = i ∧ e.asyncPending = true))

/-- **One event.** Its waiter off the list, an event leaves the invariant and
every other waiter it may not retire. -/
theorem leaves_event (h : s.Processing x []) {w : Waiter} {r : TaskResult} (hw : Warranted x s.slots.acts w)
    (hl : w.isMain = true → s.slots.Lone w.seq) (hs : s.deliverEvent x env w r = .ok s') :
    Leaves x s s' (Retires s w r) := by
  unfold deliverEvent at hs
  split at hs
  · next hk =>
    split at hs
    · next m =>
      refine leaves_inbox h (fun m' hm v hv => ?_) hs
      obtain ⟨i, c, t, rfl, hv, e, he⟩ := hv
      exact ⟨hv, .inr ⟨hk, i, c, t, e, by rw [hm], he⟩⟩
    · exact absurd hs raise_ne_ok
    · exact absurd hs raise_ne_ok
  · cases hs
    refine .start h ?_
    unfold deliverTimer
    split
    · rfl
    · rw [slots_wake, slots_advanceTime]; rfl
  · next hk => exact leaves_activityEvent h hk hw (hl (by simp [Waiter.isMain, hk])) hs
  · next hk => exact leaves_queuedEvent h (hl (by simp [Waiter.isMain, hk])) hs
  · next hk =>
    exact leaves_parkEnd h hk hw (fun v hv hvk => ⟨hv, .inl ⟨by simp [Waiter.isPark, hk], hvk.symm⟩⟩) hs
  · next hk =>
    exact leaves_heartbeatCheck h (fun v hv hvk => ⟨hv, .inl ⟨by simp [Waiter.isPark, hk], hvk.symm⟩⟩) hs
  · exact .start h (slots_childEvent hs)

end Interp

/-! ## What an event can raise -/

/-- Raised by what the interpreter calls, not by its own bookkeeping: a
converter, an awaited operation, the arithmetic of a retry policy. -/
def Exc.isExternal : Exc → Bool
  | conversionError _ | taskError _ | overflowError => true
  | _ => false

/-- Only external exceptions escape. -/
abbrev External {α : Type} (x : Except Exc α) : Prop := Raises (fun e => e.isExternal = true) x

/-- The same of a piece of the driver. -/
abbrev ExternalM {α : Type} (m : M α) : Prop := Raises (fun r => r.exc.isExternal = true) m

theorem external_converted {α : Type} (x : Except String α) : External (converted x) := by
  intro e he
  cases x <;> cases he
  rfl

theorem external_lift {α : Type} {x : Except Exc α} (s : Interp) (h : External x) : ExternalM (lift s x) := by
  intro r hr
  obtain ⟨e, he, rfl⟩ := lift_eq_error.1 hr
  exact h e he

theorem external_decodeValues (c : Converter) (vs : List Payload) (h : Option (List Hint)) :
    External (decodeValues c vs h) := by
  unfold decodeValues
  split
  · exact .ok _
  · exact external_converted _

theorem external_decodeValue (c : Converter) (v : Payload) (h : Option Hint) : External (decodeValue c v h) := by
  refine (external_decodeValues c [v] _).bind fun vs _ => ?_
  split
  · exact .ok _
  · exact .error rfl

theorem external_decodeHeaders (c : Converter) (h : Headers) : External (decodeHeaders c h) := by
  unfold decodeHeaders
  split
  · exact .ok _
  · exact (external_converted _).bind fun _ _ => .ok _

theorem external_decodeDetails (c : Converter) (i : FailureInfo Payload) : External (decodeDetails c i) := by
  have hds : ∀ ds, External (List.mapM (decodeValueSync c) ds) := Raises.mapM fun _ => external_converted _
  cases i with
  | applicationError | cancelledError | terminatedError | timeoutError => exact (hds _).bind fun _ _ => .ok _
  | activityError | childWorkflowError | serverError => exact .ok _

theorem external_deserializeFailure (c : Converter) : ∀ f, External (deserializeFailure c f)
  | ⟨info, _, none⟩ => by
    unfold deserializeFailure
    exact (external_decodeDetails c info).bind fun _ _ => .ok _
  | ⟨info, _, some cause⟩ => by
    unfold deserializeFailure
    exact (external_decodeDetails c info).bind fun _ _ => (external_deserializeFailure c cause).bind fun _ _ => .ok _

theorem external_retryDecision (p : RetryPolicy) (n : Nat) (f : FailureEnvelope) (e b : Option Seconds) :
    External (retryDecision p n f e b) := by
  have hpow : ∀ q m, External (pyPow q m) := by
    intro q m; unfold pyPow; split
    · exact .ok _
    · exact .error rfl
  have hback : External (backoff p n f) := by
    unfold backoff
    split
    · exact .ok _
    · exact (hpow _ _).bind fun _ _ => .ok _
  unfold retryDecision
  split
  · exact .ok _
  · refine hback.bind fun d _ => ?_
    split
    · split <;> exact .ok _
    · exact .ok _

namespace Interp

variable {x : Execution} {env : Env} {s s' : Interp}

theorem external_failureCause (c : Converter) (f : FailureEnvelope) (st : Option RetryState) :
    External (activityFailureCause c f st) := by
  refine (external_deserializeFailure c f).bind fun e _ => ?_
  split <;> exact .ok _

theorem external_resolveActivity {k : Nat} {e : ActivityExec} {o : ActivityOutcome} (he : e.futureCancelled = false) :
    ExternalM (s.resolveActivity k e o) := by
  unfold resolveActivity
  rw [if_neg (by simp [he])]
  exact .ok _

theorem external_failActivity {k : Nat} {e : ActivityExec} {f : FailureEnvelope} {st : Option RetryState}
    (he : e.futureCancelled = false) : ExternalM (s.failActivity env k e f st) :=
  (external_lift _ (external_failureCause _ f st)).bind fun _ _ => external_resolveActivity he

theorem external_retryOrFail {k : Nat} {e : ActivityExec} {f : FailureEnvelope} (he : e.futureCancelled = false) :
    ExternalM (s.retryOrFail env k e f) := by
  refine (external_lift _ (external_retryDecision _ _ f _ _)).bind fun d _ => ?_
  obtain ⟨delay, st⟩ := d
  cases delay with
  | some d => exact .ok _
  | none => exact external_failActivity he

theorem external_confirmsCancel {e : ActivityExec} {f : FailureEnvelope} : ExternalM (s.confirmsCancel env e f) := by
  unfold confirmsCancel
  split
  · exact (external_lift _ (external_deserializeFailure _ f)).map _
  · exact .ok _

theorem external_activityEvent (h : s.Processing x []) {w : Waiter} {r : TaskResult} (hk : w.kind = .activity)
    (hw : Warranted x s.slots.acts w) (hy : w.op.yields r = true) : ExternalM (s.deliverActivityEvent x env w.seq r) := by
  unfold Warranted at hw
  rw [hk] at hw
  obtain ⟨e, he, hp, hr, hop⟩ := hw
  have hlive : e.futureCancelled = false := h.live he
  unfold deliverActivityEvent
  rw [show s.pendingActivities.get? w.seq = some e from he]
  simp only [hlive, Bool.false_eq_true, if_false]
  split
  · unfold launchAttempt attemptStepFor
    rw [if_pos (by exact hr), ok_bind]
    exact .ok _
  · next hb =>
    simp only [hb, Bool.false_eq_true, if_false] at hop
    obtain ⟨n, d, t, hop⟩ := hop
    rw [hop] at hy
    obtain ⟨env', rfl⟩ | ⟨m, rfl⟩ := Op.yields_attempt hy
    · cases env' with
      | ok v b => exact external_resolveActivity hlive
      | failed f b st =>
        refine external_confirmsCancel.bind fun c _ => ?_
        split
        · exact .ok _
        · exact external_retryOrFail hlive
      | asyncPending a b => exact .ok _
    · exact .error rfl

theorem external_queuedEvent (h : s.Processing x []) {w : Waiter} {r : TaskResult} (hk : w.kind = .qActivity)
    (hw : Warranted x s.slots.acts w) (hy : w.op.yields r = true) :
    ExternalM (s.deliverQueuedActivityEvent env w.seq r) := by
  unfold Warranted at hw
  rw [hk] at hw
  obtain ⟨e, he, hp, d, hop⟩ := hw
  have hlive : e.futureCancelled = false := h.live he
  unfold deliverQueuedActivityEvent
  rw [show s.pendingActivities.get? w.seq = some e from he]
  simp only [hlive, Bool.false_eq_true, if_false]
  rw [hop] at hy
  obtain ⟨env', rfl, hne⟩ | ⟨m, rfl⟩ := Op.yields_activityResult hy
  · cases env' with
    | ok v b => exact external_resolveActivity hlive
    | failed f b st =>
      refine external_confirmsCancel.bind fun c _ => ?_
      split
      · exact .ok _
      · exact external_failActivity hlive
    | asyncPending a b => exact absurd rfl (hne a b)
  · exact .error rfl

theorem external_parkedTimeout (h : ∀ k e, s.pendingActivities.get? k = some e → e.futureCancelled = false) {k : Nat}
    {t : TimeoutType} : ExternalM (s.asyncParkedTimeout env k t) := by
  unfold asyncParkedTimeout
  split
  · exact .ok _
  · next e he =>
    split
    · exact .ok _
    · exact external_retryOrFail (h k e he)

theorem external_activityResult (h : s.Processing x []) {i : String} {c : Completion} :
    ExternalM (s.applyActivityResult x env i c) := by
  unfold applyActivityResult
  split
  · exact .ok _
  · next k e hfind =>
    have hlive : e.futureCancelled = false := h.live (asyncPendingById_some hfind).1
    simp only
    split
    · exact .ok _
    · exact (external_lift _ (external_decodeValue _ _ _)).bind fun _ _ => external_resolveActivity hlive
    · exact external_retryOrFail hlive

theorem external_decodeMessageArgs {d : Option HandlerDefn} {n : String} {args : List Payload} :
    ExternalM (s.decodeMessageArgs env d n args) := by
  unfold decodeMessageArgs
  simp only
  split <;> exact (external_lift _ (external_decodeValues _ _ _)).bind fun _ _ => .ok _

theorem external_decodeMessageHeaders {hs : Headers} : ExternalM (s.decodeMessageHeaders env hs) :=
  (external_lift _ (external_decodeHeaders _ _)).bind fun _ _ => .ok _

theorem external_inbox (h : s.Processing x []) {m : Option Message} : ExternalM (s.deliverInbox x env m) := by
  unfold deliverInbox
  split
  · exact .ok _
  · next m =>
    have h₁ : (s.advanceTime m.sentAt).Processing x [] := h.of_eq (slots_advanceTime s _)
    simp only
    split
    · unfold applySignal
      split
      · exact .ok _
      · split
        · exact .ok _
        · exact external_decodeMessageHeaders.bind fun _ _ => .ok _
    · refine external_decodeMessageArgs.bind fun a _ => ?_
      unfold applyUpdate
      split
      · exact .ok _
      · simp only
        split
        · exact .ok _
        · refine external_decodeMessageHeaders.bind fun _ _ => ?_
          split <;> exact .ok _
    · exact external_decodeMessageArgs.bind fun a _ => .ok _
    · exact external_activityResult h₁
    · unfold applyActivityHeartbeat
      split
      · exact .ok _
      · exact (external_lift _ (external_decodeValues _ _ _)).bind fun _ _ => .ok _
    · exact .ok _
    · exact .ok _
    · exact .ok _
    · exact .ok _

/-- **What an event raises was raised outside the interpreter.** -/
theorem external_event (h : s.Processing x []) {w : Waiter} {r : TaskResult} (hw : Warranted x s.slots.acts w)
    (hy : w.op.yields r = true) : ExternalM (s.deliverEvent x env w r) := by
  have hw' := hw
  unfold Warranted at hw'
  unfold deliverEvent
  cases hk : w.kind <;> simp only [hk] at hw' ⊢
  case inbox =>
    obtain ⟨t, hop⟩ := hw'
    rw [hop] at hy
    obtain ⟨m, rfl⟩ := Op.yields_recv hy
    exact external_inbox h
  case timer => exact .ok _
  case activity => exact external_activityEvent h hk hw hy
  case qActivity => exact external_queuedEvent h hk hw hy
  case actS2c =>
    obtain ⟨e, he, -⟩ := hw'
    unfold deliverParkTimeout
    rw [show s.pendingActivities.get? w.seq = some e from he]
    have h₁ : (s.advanceTime (some (s.timeSeconds + e.pendingWaitSeconds))).Processing x [] :=
      h.of_eq (slots_advanceTime s _)
    refine external_parkedTimeout fun k e' he' => ?_
    simp only [setActivity, Dict.get?_modify] at he'
    split at he'
    · obtain ⟨e₀, he₀, rfl⟩ := Option.map_eq_some_iff.1 he'
      exact h₁.live (e := e₀) he₀
    · exact h₁.live he'
  case actHb =>
    obtain ⟨e, he, -, -, hh, -⟩ := hw'
    unfold asyncHeartbeatCheck
    rw [show s.pendingActivities.get? w.seq = some e from he]
    simp only
    split
    · exact .ok _
    · split
      · exact external_parkedTimeout fun k e' he' => h.live he'
      · obtain ⟨hb, hhb⟩ := Option.isSome_iff_exists.1 hh
        rw [hhb]; exact .ok _
  case child =>
    obtain ⟨c, hop⟩ := hw'
    rw [hop] at hy
    unfold deliverChildEvent
    split
    · exact .ok _
    · simp only
      split
      · exact .ok _
      · obtain ⟨e, rfl⟩ | ⟨m, rfl⟩ := Op.yields_childResult hy
        · cases e with
          | ok v b => exact .ok _
          | failed f b => exact (external_lift _ (external_deserializeFailure _ f)).bind fun _ _ => .ok _
        · exact .error rfl

end Interp

end Dbosify
