/-
The virtual clock against the real one.

An event advances the clock to a stamp of its own, or to an absolute deadline,
except two: the end of a backoff and the end of a park add their wait to
whatever the clock shows. Where another event has moved the clock since the
wait was launched, that time counts twice. In every run in which no such wait
ends on a clock that has passed its launch, the virtual clock stays behind
real time (`clock_behind`).
-/
import Dbosify.Drift
import Mathlib.Logic.Relation

namespace Dbosify

open Py (Dict)

namespace Interp

variable {x : Execution} {env : Env} {s s' : Interp} {b : Seconds}

/-! ## Behind real time -/

/-- The clock is behind, and each timer that is waited for is due no later
than its sleep can end. `launched` says when each task is launched. -/
structure Behind (launched : Nat → Seconds) (real : Seconds) (s : Interp) : Prop where
  clock : s.timeSeconds ≤ real
  keys : ∀ k t, s.pendingTimers.get? k = some t → k ≤ s.timerSeq
  seqs : ∀ w ∈ s.waiters, w.kind = .timer → w.seq ≤ s.timerSeq
  sleeps : ∀ w ∈ s.waiters, w.kind = .timer → ∀ t, s.pendingTimers.get? w.seq = some t →
    ∃ d, w.op = .sleep d ∧ t ≤ launched w.task + d

/-- What is launched from now on is launched no earlier than `real`. -/
def Onwards (launched : Nat → Seconds) (real : Seconds) (s : Interp) : Prop := ∀ n, s.nextTask ≤ n → real ≤ launched n

variable {launched : Nat → Seconds} {real : Seconds}

theorem Onwards.mono (h : Onwards launched real s) (hn : s.nextTask ≤ s'.nextTask) : Onwards launched real s' :=
  fun n hs => h n (hn.trans hs)

namespace Behind

theorem later {real' : Seconds} (h : Behind launched real s) (hr : real ≤ real') : Behind launched real' s :=
  { h with clock := h.clock.trans hr }

theorem drift (h : Behind launched real s) (hd : Drift b s s') (hb : b ≤ real) : Behind launched real s' where
  clock := hd.bound.trans (max_le h.clock hb)
  keys k t hk := by
    rw [hd.timers] at hk
    rw [hd.timerSeq]
    exact h.keys k t hk
  seqs w hw hk := by
    rw [hd.timerSeq]
    exact h.seqs w (hd.waiters w hw hk) hk
  sleeps w hw hk t ht := by
    rw [hd.timers] at ht
    exact h.sleeps w (hd.waiters w hw hk) hk t ht

/-- A timer goes, and with it some waiters. -/
theorem pop (h : Behind launched real s) (k : Nat) (hc : s'.timeSeconds = s.timeSeconds)
    (hs : s'.timerSeq = s.timerSeq) (hp : s'.pendingTimers = s.pendingTimers.pop k) (hw : s'.waiters ⊆ s.waiters) :
    Behind launched real s' where
  clock := hc ▸ h.clock
  keys k' t ht := by
    rw [hp, Dict.get?_pop_some] at ht
    rw [hs]
    exact h.keys k' t ht.2
  seqs w hm hk := by
    rw [hs]
    exact h.seqs w (hw hm) hk
  sleeps w hm hk t ht := by
    rw [hp, Dict.get?_pop_some] at ht
    exact h.sleeps w (hw hm) hk t ht.2

theorem createTimer (h : Behind launched real s) (d : Seconds) : Behind launched real (M.state (s.createTimer d)) := by
  unfold Interp.createTimer assertNotReadOnly
  split
  · exact h
  · rw [ok_bind]
    split
    · exact h
    · refine ⟨h.clock, fun k t hk => ?_, fun w hw hk => (h.seqs w hw hk).trans (Nat.le_succ _), fun w hw hk t ht => ?_⟩
      · change (s.pendingTimers.set (s.timerSeq + 1) (s.timeSeconds + d)).get? k = some t at hk
        change k ≤ s.timerSeq + 1
        rw [Dict.get?_set] at hk
        split at hk
        · omega
        · exact (h.keys k t hk).trans (Nat.le_succ _)
      · change (s.pendingTimers.set (s.timerSeq + 1) (s.timeSeconds + d)).get? w.seq = some t at ht
        have hseq := h.seqs w hw hk
        rw [Dict.get?_set_other _ _ (by omega)] at ht
        exact h.sleeps w hw hk t ht

theorem cancelTimer (h : Behind launched real s) (k : Nat) : Behind launched real (s.cancelTimer k) := by
  unfold Interp.cancelTimer
  split
  · exact h
  · exact h.pop k rfl rfl rfl List.filter_sublist.subset

/-- A timer's sleep is launched, or it fires at once. -/
theorem processTimer (h : Behind launched real s) (ho : Onwards launched real s) {k : Nat} {q : Bool}
    (hs : s.processTimer x k = .ok (q, s')) :
    Behind launched real s' ∧ s.timeSeconds ≤ s'.timeSeconds ∧ s.nextTask ≤ s'.nextTask := by
  unfold Interp.processTimer at hs
  split at hs
  · cases hs
    exact ⟨h, le_rfl, le_rfl⟩
  · next t ht =>
    dsimp only at hs
    split at hs
    · cases hs
      exact ⟨h.pop k rfl rfl rfl (List.Subset.refl _), le_rfl, le_rfl⟩
    · simp only [bind_eq_ok, Except.ok.injEq, Prod.mk.injEq] at hs
      obtain ⟨s₁, h₁, -, rfl⟩ := hs
      obtain ⟨l, rfl⟩ := traces_checkReplayHorizon h₁
      refine ⟨⟨h.clock, h.keys, fun w hw hk => ?_, fun w hw hk t' ht' => ?_⟩, le_rfl, Nat.le_succ _⟩
      · rcases List.mem_append.1 hw with hw | hw
        · exact h.seqs w hw hk
        · rw [List.mem_singleton.1 hw]
          exact h.keys k t ht
      · rcases List.mem_append.1 hw with hw | hw
        · exact h.sleeps w hw hk t' ht'
        · obtain rfl := List.mem_singleton.1 hw
          obtain rfl : t = t' := Option.some.inj (ht.symm.trans ht')
          have hnow := ho s.nextTask le_rfl
          have hclock := h.clock
          exact ⟨_, rfl, by change t ≤ launched s.nextTask + (t - s.timeSeconds); linarith⟩

theorem command (h : Behind launched real s) (ho : Onwards launched real s) {c : Command} {q : Bool}
    (hs : s.processCommand x env c = .ok (q, s')) :
    Behind launched real s' ∧ s.timeSeconds ≤ s'.timeSeconds ∧ s.nextTask ≤ s'.nextTask := by
  by_cases hc : ∃ k, c = .timer k
  · obtain ⟨k, rfl⟩ := hc
    exact h.processTimer ho hs
  · have hd : Drift s.timeSeconds s s' := drift_command (fun k hk => hc ⟨k, hk⟩) hs
    exact ⟨h.drift hd h.clock, hd.forward, hd.next⟩

theorem commands : ∀ {cs : List Command} {p q : Bool} {s : Interp}, Behind launched real s → Onwards launched real s →
    processCommands x env cs p s = .ok (q, s') →
    Behind launched real s' ∧ s.timeSeconds ≤ s'.timeSeconds ∧ s.nextTask ≤ s'.nextTask := by
  intro cs
  induction cs with
  | nil =>
    intro p q s h _ hs
    cases hs
    exact ⟨h, le_rfl, le_rfl⟩
  | cons c cs ih =>
    intro p q s h ho hs
    simp only [processCommands, bind_eq_ok] at hs
    obtain ⟨⟨b, s₁⟩, h₁, hs⟩ := hs
    obtain ⟨hb, ht, hn⟩ := h.command ho h₁
    obtain ⟨hb', ht', hn'⟩ := ih hb (ho.mono hn) hs
    exact ⟨hb', ht.trans ht', hn.trans hn'⟩

end Behind

/-- User code creates and cancels timers; it neither moves the clock nor
launches anything. -/
theorem timing_userOp {o : UserOp} (hc : ∀ d, o ≠ .createTimer d) (hk : ∀ k, o ≠ .cancelTimer k) :
    (M.state (o.run x s)).timing = s.timing := by
  have hends : ∀ {s'}, Ends s s' → s'.timing = s.timing := by
    rintro _ ⟨_, _, _, _, rfl⟩
    rfl
  have hcancel : ∀ k, (s.cancelActivityFuture k).timing = s.timing := by
    intro k
    unfold cancelActivityFuture
    split
    · rfl
    · split <;> rfl
  cases o <;> simp only [UserOp.run]
  case startActivity a =>
    unfold startActivity assertNotReadOnly attemptStepFor
    split
    · rfl
    · simp only [ok_bind]
      split
      · split
        · simp only [ok_bind]
          split
          · rfl
          · split <;> rfl
        · rfl
      · split
        · rfl
        · split <;> rfl
  case requestActivityCancel k =>
    unfold requestActivityCancel
    split
    · rfl
    · split
      · dsimp only
        split <;> rfl
      · exact hcancel k
  case cancelActivityAwait k => exact hcancel k
  case createTimer d => exact absurd rfl (hc d)
  case cancelTimer k => exact absurd rfl (hk k)
  case startChildWorkflow c =>
    unfold startChildWorkflow assertNotReadOnly
    split
    · rfl
    · simp only [ok_bind]
      split <;> rfl
  case cancelChildStart k => rfl
  case cancelChildResult k =>
    unfold cancelChildResult
    split
    · rfl
    · split <;> rfl
  case sendToWorkflow t e c => unfold sendToWorkflow assertNotReadOnly; split <;> rfl
  case cancelSend k => rfl
  case upsertMemo u => unfold upsertMemo assertNotReadOnly; split <;> rfl
  case patched i =>
    unfold patch assertNotReadOnly
    split
    · rfl
    · simp only [ok_bind]
      split
      · rfl
      · split <;> rfl
  case setHandler c n d =>
    unfold setHandler assertNotReadOnly
    split
    · rfl
    · simp only [ok_bind]
      split
      · rfl
      · rfl
      · split
        · rfl
        · split <;> rfl
  case startHandler t => exact hends (ends_startHandler x s t)
  case handlerEnds t e => exact hends (ends_handlerEnds x s t e)
  case primaryEnds e => exact hends (ends_primaryEnds x s e)
  case abort e => exact hends (ends_recordWorkflowError x s e)

theorem Behind.userOp (h : Behind launched real s) (o : UserOp) : Behind launched real (M.state (o.run x s)) := by
  by_cases hc : ∃ d, o = .createTimer d
  · obtain ⟨d, rfl⟩ := hc
    exact h.createTimer d
  · by_cases hk : ∃ k, o = .cancelTimer k
    · obtain ⟨k, rfl⟩ := hk
      exact h.cancelTimer k
    · exact h.drift (.still (timing_userOp (fun d hd => hc ⟨d, hd⟩) fun k hk' => hk ⟨k, hk'⟩)) h.clock

/-- **A pass keeps the clock behind**, and does not turn it back. -/
theorem Behind.pass (h : Behind launched real s) (ho : Onwards launched real s) {d : Bool} {code : Code} {t : Turn}
    (hs : s.pass x env d code = .ok (t, s')) : Behind launched real s' ∧ s.timeSeconds ≤ s'.timeSeconds := by
  have hdrain : Behind launched real (s.drainOutsideTask x code) :=
    Code.drain_induct (P := Behind launched real) (fun o h => h.userOp o) code ⟨h.clock, h.keys, h.seqs, h.sleeps⟩
  have hnext : (s.drainOutsideTask x code).nextTask = s.nextTask := congrArg Kept.nextTask (kept_drain _ code)
  have htime : (s.drainOutsideTask x code).timeSeconds = s.timeSeconds := congrArg Kept.timeSeconds (kept_drain _ code)
  unfold Interp.pass afterDrain at hs
  simp only [bind_eq_ok] at hs
  obtain ⟨⟨b, s₁⟩, h₁, ⟨p, s₂⟩, h₂, hs⟩ := hs
  have hd : Drift (s.drainOutsideTask x code).timeSeconds (s.drainOutsideTask x code) { s₁ with commands := [] } :=
    ((drift_sweepCancellations env _).trans (drift_flushSignals h₁)).trans (.still rfl)
  have h₁' := hdrain.drift hd hdrain.clock
  obtain ⟨hb, ht, -⟩ := h₁'.commands (ho.mono (hnext.ge.trans hd.next)) h₂
  have hle : s.timeSeconds ≤ s₂.timeSeconds := htime.ge.trans (hd.forward.trans ht)
  split at hs
  · cases hs
    exact ⟨hb, hle⟩
  · have hsettle := drift_settle (b := s₂.timeSeconds) hs
    exact ⟨hb.drift hsettle hb.clock, hle.trans hsettle.forward⟩

/-! ## Rounds -/

end Interp

/-- The end of a backoff or of a park: its wait is added to the clock. -/
def Waiter.IsWait (w : Waiter) : Prop := w.kind = .actS2c ∨ w.kind = .activity ∧ ∃ d, w.op = .sleep d

namespace Interp

variable {x : Execution} {env : Env} {s s' : Interp} {launched : Nat → Seconds} {real : Seconds}

theorem Behind.event (h : Behind launched real s) {w : Waiter} {r : TaskResult} (hr : ∀ v, r.stamp = some v → v ≤ real)
    (htimer : w.kind = .timer → ∀ t, s.pendingTimers.get? w.seq = some t → t ≤ real)
    (hwait : ∀ e, s.pendingActivities.get? w.seq = some e → w.kind = .actS2c ∨ w.kind = .activity ∧ e.inBackoff = true →
      s.timeSeconds + e.pendingWaitSeconds ≤ real)
    (hs : s.deliverEvent x env w r = .ok s') : Behind launched real s' ∧ s.timeSeconds ≤ s'.timeSeconds := by
  by_cases hk : w.kind = .timer
  · simp only [deliverEvent, hk, Except.ok.injEq] at hs
    subst hs
    unfold deliverTimer
    split
    · exact ⟨h, le_rfl⟩
    · next t ht =>
      have hpop : Behind launched real { s with pendingTimers := s.pendingTimers.pop w.seq } :=
        h.pop w.seq rfl rfl rfl (List.Subset.refl _)
      have hadv : Drift real { s with pendingTimers := s.pendingTimers.pop w.seq }
          ({ s with pendingTimers := s.pendingTimers.pop w.seq }.advanceTime (some t)) :=
        .advance fun v hv => by cases hv; exact htimer hk t ht
      obtain ⟨hclock, hkeys, hseqs, hsleeps⟩ := hpop.drift hadv le_rfl
      exact ⟨⟨hclock, hkeys, hseqs, hsleeps⟩, hadv.forward⟩
  · have hd := drift_event hk hr hwait hs
    exact ⟨h.drift hd le_rfl, hd.forward⟩

/-- What is known of the tasks a round reports at `real`: a sleep took its
time, and a stamp was read before. -/
def Truthful (launched : Nat → Seconds) (real : Seconds) (s : Interp) (done : Done) : Prop :=
  ∀ w ∈ s.waiters, ∀ r, done w.task = some r →
    (∀ d, w.op = .sleep d → launched w.task + d ≤ real) ∧ ∀ t, r.stamp = some t → t ≤ real

/-- A wait ends on a clock that has not passed its launch. -/
def Undisturbed (launched : Nat → Seconds) (s : Interp) (w : Waiter) : Prop :=
  w.IsWait → s.timeSeconds ≤ launched w.task

variable {done : Done} {s₀ : Interp}

theorem removeWaiter_same {w : Waiter} (h : s.removeWaiter w = .ok s') : s'.timeSeconds = s.timeSeconds ∧
    s'.pendingActivities = s.pendingActivities ∧ s'.pendingTimers = s.pendingTimers := by
  unfold removeWaiter at h
  split at h
  · cases h
    exact ⟨rfl, rfl, rfl⟩
  · exact absurd h raise_ne_ok

/-- One turn of the loop. -/
theorem Behind.deliverWaiter (h₀ : s₀.Processing x []) (ht : Truthful launched real s₀ done) (h : Behind launched real s)
    (hp : s.Processing x []) (hsince : Since s₀ s) {w : Waiter} (hw : w ∈ s₀.waiters)
    (hu : (done w.task).isSome = true → Undisturbed launched s w) (hs : s.deliverWaiter x env done w = .ok s') :
    Behind launched real s' ∧ s.timeSeconds ≤ s'.timeSeconds := by
  unfold Interp.deliverWaiter at hs
  split at hs
  · cases hs
    exact ⟨h, le_rfl⟩
  · next r hr =>
    simp only [bind_eq_ok] at hs
    obtain ⟨s₁, h₁, hs⟩ := hs
    have hmem := hsince.removed h₀ hw h₁
    obtain ⟨hsleep, hstamp⟩ := ht w hw r hr
    have hd : Drift real s s₁ := drift_removeWaiter h₁
    have hu := hu (by rw [hr]; rfl)
    have hwarrant := hp.inv.warranted w hmem
    obtain ⟨hclock, hacts, htimers⟩ := removeWaiter_same h₁
    have hev := (h.drift hd le_rfl).event (w := w) hstamp (fun hk t hget => ?_) (fun e he hk => ?_) hs
    · exact ⟨hev.1, hclock ▸ hev.2⟩
    · rw [htimers] at hget
      obtain ⟨d, hop, hle⟩ := h.sleeps w hmem hk t hget
      exact hle.trans (hsleep d hop)
    · -- The wait is the one its task slept.
      rw [hacts] at he
      have hop : w.op = .sleep e.pendingWaitSeconds := by
        unfold Warranted at hwarrant
        rcases hk with hk | ⟨hk, hb⟩
        · rw [hk] at hwarrant
          obtain ⟨e', he', -, -, hop⟩ := hwarrant
          rwa [show e' = e from Option.some.inj (he'.symm.trans he)] at hop
        · rw [hk] at hwarrant
          obtain ⟨e', he', -, -, hop⟩ := hwarrant
          obtain rfl : e' = e := Option.some.inj (he'.symm.trans he)
          rwa [if_pos hb] at hop
      have hiw : w.IsWait := hk.imp id fun h => ⟨h.1, _, hop⟩
      have hslept := hsleep _ hop
      have hbefore := hu hiw
      rw [hclock]
      linarith

/-- The events of a round, up to any of them. -/
theorem Behind.deliverWaiters (h₀ : s₀.Processing x []) (ht : Truthful launched real s₀ done) :
    ∀ (ws : List Waiter) {s : Interp}, ws ⊆ s₀.waiters → Behind launched real s → s.Processing x [] → Since s₀ s →
    EachStep (Interp.deliverWaiter x env done) (fun s w => (done w.task).isSome = true → Undisturbed launched s w) ws s →
    ws.foldlM (Interp.deliverWaiter x env done) s = .ok s' → Behind launched real s' ∧ s.timeSeconds ≤ s'.timeSeconds ∧
      s'.Processing x [] ∧ Since s₀ s' := by
  intro ws
  induction ws with
  | nil =>
    intro s _ h hp hsince _ hs
    cases hs
    exact ⟨h, le_rfl, hp, hsince⟩
  | cons w ws ih =>
    intro s hsub h hp hsince hu hs
    rw [List.foldlM_cons, bind_eq_ok] at hs
    obtain ⟨s₁, h₁, hs⟩ := hs
    obtain ⟨hb, hle⟩ := h.deliverWaiter h₀ ht hp hsince (hsub List.mem_cons_self) hu.1 h₁
    obtain ⟨hp₁, hsince₁⟩ := deliverWaiter_processing h₀ hp hsince (hsub List.mem_cons_self) h₁
    obtain ⟨hb', hle', hrest⟩ := ih (fun v hv => hsub (List.mem_cons_of_mem _ hv)) hb hp₁ hsince₁ (hu.2 s₁ h₁) hs
    exact ⟨hb', hle.trans hle', hrest⟩

end Interp

/-! ## Runs in time -/

open Interp

/-- A configuration, and the real time. -/
structure Timed where
  real : Seconds
  config : Config

/-- What the virtual clock shows. -/
def Timed.clock (t : Timed) : Seconds := t.config.interp.timeSeconds

/-- The steps of a run in real time: time passes, a pass, a round that meets
`P`. Nothing is launched in the past, and what a round reports is true. -/
inductive TimedStep (x : Execution) (launched : Nat → Seconds) (P : Interp → Env → Done → Prop) : Timed → Timed → Prop
  | elapse {r r' : Seconds} (c : Config) (h : r ≤ r') : TimedStep x launched P ⟨r, c⟩ ⟨r', c⟩
  | pass {r : Seconds} {s s' : Interp} {t : Turn} (env : Env) (deadlinePassed : Bool) (code : Code)
      (ho : Onwards launched r s) (h : s.pass x env deadlinePassed code = .ok (t, s')) :
      TimedStep x launched P ⟨r, .draining, s⟩ ⟨r, t.phase, s'⟩
  | round {r : Seconds} {s s' : Interp} (env : Env) (done : Done) (hf : s.Fits done)
      (ht : Truthful launched r s done) (hp : P s env done) (h : s.round x env done = .ok s') :
      TimedStep x launched P ⟨r, .waiting, s⟩ ⟨r, .draining, s'⟩

/-- Steps, one after another. -/
abbrev TimedRun (x : Execution) (launched : Nat → Seconds) (P : Interp → Env → Done → Prop) : Timed → Timed → Prop :=
  Relation.ReflTransGen (TimedStep x launched P)

/-- The delivery of a waiter, in a round that meets `P`, from state `s` to
state `s'`. -/
def Delivers (x : Execution) (launched : Nat → Seconds) (P : Interp → Env → Done → Prop) (t : Timed) (w : Waiter)
    (s s' : Interp) : Prop :=
  ∃ s₀ env done before after, t.config = ⟨.waiting, s₀⟩ ∧ s₀.Fits done ∧ Truthful launched t.real s₀ done ∧
    P s₀ env done ∧ (done w.task).isSome = true ∧ s₀.waiters = before ++ w :: after ∧
    before.foldlM (deliverWaiter x env done) (s₀.step .asyncioWait) = .ok s ∧ s.deliverWaiter x env done w = .ok s'

/-- No backoff and no park of the round ends on a clock that has passed its
launch. -/
def Steady (x : Execution) (launched : Nat → Seconds) (s : Interp) (env : Env) (done : Done) : Prop :=
  EachStep (deliverWaiter x env done) (fun s w => (done w.task).isSome = true → Undisturbed launched s w)
    s.waiters (s.step .asyncioWait)

/-- What holds of a run in time. -/
structure Timed.Kept (x : Execution) (launched : Nat → Seconds) (t : Timed) : Prop where
  reachable : Reachable x t.config
  behind : Behind launched t.real t.config.interp
  inside : ∀ e, t.config.phase ≠ .closing (some e)

theorem EachStep.append {ε α β : Type} {f : β → α → Except ε β} {C : β → α → Prop} {l l' : List α} {b b' : β}
    (h : EachStep f C (l ++ l') b) (hl : l.foldlM f b = .ok b') : EachStep f C l b ∧ EachStep f C l' b' := by
  induction l generalizing b with
  | nil =>
    cases hl
    exact ⟨trivial, h⟩
  | cons a l ih =>
    rw [List.foldlM_cons, bind_eq_ok] at hl
    obtain ⟨b₁, ha, hl⟩ := hl
    obtain ⟨hi, hr⟩ := ih (h.2 b₁ ha) hl
    refine ⟨⟨h.1, fun b₂ h₂ => ?_⟩, hr⟩
    rw [ha] at h₂
    cases h₂
    exact hi

variable {x : Execution} {launched : Nat → Seconds}

theorem Timed.Kept.processing {t : Timed} {s : Interp} (h : t.Kept x launched) (hc : t.config = ⟨.waiting, s⟩) :
    (s.step .asyncioWait).Processing x [] := by
  have hw := h.reachable.waits (by simp [hc])
  rw [hc] at hw
  exact Processing.of_eq hw (slots_step _ _)

theorem TimedStep.kept {a b : Timed} (hs : TimedStep x launched (Steady x launched) a b) (h : a.Kept x launched) :
    b.Kept x launched ∧ a.clock ≤ b.clock := by
  cases hs with
  | elapse c hr => exact ⟨⟨h.reachable, h.behind.later hr, h.inside⟩, le_rfl⟩
  | @pass r s s' t env d code ho hp =>
    obtain ⟨hb, hle⟩ := h.behind.pass ho hp
    exact ⟨⟨h.reachable.step (.pass env d code hp), hb, fun e he => by cases t <;> cases he⟩, hle⟩
  | @round r s s' env done hf ht hp hr =>
    have h₀ := h.processing rfl
    have hd : Drift r s (s.step .asyncioWait) := .still rfl
    obtain ⟨hb, hle, -⟩ := (h.behind.drift hd le_rfl).deliverWaiters h₀ ht s.waiters (List.Subset.refl _) h₀ (.refl _) hp hr
    exact ⟨⟨h.reachable.step (.round env done hf hr), hb, fun e he => by cases he⟩, hle⟩

theorem TimedRun.kept {a b : Timed} (hr : TimedRun x launched (Steady x launched) a b) (h : a.Kept x launched) :
    b.Kept x launched ∧ a.clock ≤ b.clock := by
  induction hr with
  | refl => exact ⟨h, le_rfl⟩
  | tail _ hs ih =>
    obtain ⟨hk, hle⟩ := hs.kept ih.1
    exact ⟨hk, ih.2.trans hle⟩

theorem Timed.kept_start {r start : Seconds} (h : start ≤ r) (memo : Dict String Value) :
    Timed.Kept x launched ⟨r, .draining, .start start memo⟩ where
  reachable := .start start memo
  behind := ⟨h, (fun _ _ hk => by cases hk), (fun _ hw => by cases hw), (fun _ hw => by cases hw)⟩
  inside _ he := by cases he

/-- **Virtual time stays behind real time**, and never goes back, in every run
whose rounds are steady; and so it does after each delivery. -/
theorem clock_behind {start r : Seconds} {memo : Dict String Value} (h₀ : start ≤ r) {a b : Timed}
    (ha : TimedRun x launched (Steady x launched) ⟨r, .draining, .start start memo⟩ a)
    (hab : TimedRun x launched (Steady x launched) a b) :
    a.clock ≤ b.clock ∧ b.clock ≤ b.real ∧ ∀ w s s', Delivers x launched (Steady x launched) b w s s' →
      s.timeSeconds ≤ s'.timeSeconds ∧ s'.timeSeconds ≤ b.real := by
  obtain ⟨hka, -⟩ := ha.kept (Timed.kept_start h₀ memo)
  obtain ⟨hkb, hle⟩ := hab.kept hka
  refine ⟨hle, hkb.behind.clock, fun w s s' hd => ?_⟩
  obtain ⟨s₀, env, done, before, after, hc, hf, ht, hp, -, hw, hbefore, hs⟩ := hd
  have hproc := hkb.processing hc
  have hbehind : Behind launched b.real s₀ := by
    have := hkb.behind
    rwa [hc] at this
  have hd : Drift b.real s₀ (s₀.step .asyncioWait) := .still rfl
  rw [Steady, hw] at hp
  obtain ⟨hp₁, hp₂⟩ := hp.append hbefore
  have hsub : before ++ w :: after ⊆ (s₀.step .asyncioWait).waiters := by
    rw [← hw]
    exact List.Subset.refl _
  obtain ⟨hb, -, hpr, hsince⟩ := (hbehind.drift hd le_rfl).deliverWaiters hproc ht before
    (fun v hv => hsub (List.mem_append_left _ hv)) hproc (.refl _) hp₁ hbefore
  obtain ⟨hb', hle'⟩ := hb.deliverWaiter hproc ht hpr hsince (hsub (List.mem_append_right _ List.mem_cons_self)) hp₂.1 hs
  exact ⟨hle', hb'.clock⟩

/-! ## Where the condition fails -/

/-- A wait that ends on a clock that has passed its launch takes it past the
time the wait was due. -/
theorem Interp.disturbed_event {env : Env} {s s' : Interp} {w : Waiter} {r : TaskResult} {d : Seconds}
    (hw : Warranted x s.pendingActivities w)
    (hlive : ∀ e, s.pendingActivities.get? w.seq = some e → e.futureCancelled = false) (hiw : w.IsWait)
    (hop : w.op = .sleep d) (hs : s.deliverEvent x env w r = .ok s') : s.timeSeconds + d ≤ s'.timeSeconds := by
  have hadv := le_advanceTime s (s.timeSeconds + d)
  unfold Warranted at hw
  unfold deliverEvent at hs
  rcases hiw with hk | ⟨hk, -⟩
  · simp only [hk] at hw hs
    obtain ⟨e, he, -, -, hop'⟩ := hw
    rw [hop] at hop'
    cases hop'
    unfold deliverParkTimeout at hs
    simp only [he] at hs
    have hd : Drift s.timeSeconds _ s' := drift_parkedTimeout hs
    exact hadv.trans hd.forward
  · simp only [hk] at hw hs
    obtain ⟨e, he, -, -, hop'⟩ := hw
    cases hb : e.inBackoff with
    | false =>
      simp only [hb, Bool.false_eq_true, if_false, hop] at hop'
      obtain ⟨n, d', t, h⟩ := hop'
      cases h
    | true =>
      simp only [hb, if_true, hop] at hop'
      cases hop'
      unfold deliverActivityEvent at hs
      simp only [he, hlive e he, hb, Bool.false_eq_true, if_false, if_true] at hs
      have hd : Drift s.timeSeconds _ s' := drift_launchAttempt hs
      exact hadv.trans hd.forward

/-- **Where a round is not steady** a wait that ends when it is due takes the
virtual clock past real time. -/
theorem disturbed_overtakes {P : Interp → Env → Done → Prop} {t : Timed} (hr : Reachable x t.config) {w : Waiter}
    {s s' : Interp} (hd : Delivers x launched P t w s s') (hu : ¬ Undisturbed launched s w) {d : Seconds}
    (hop : w.op = .sleep d) (hdue : t.real = launched w.task + d) : t.real < s'.timeSeconds := by
  obtain ⟨s₀, env, done, before, after, hc, hf, -, -, hdone, hw, hbefore, hs⟩ := hd
  simp only [Undisturbed, not_forall, not_le] at hu
  obtain ⟨hiw, hpassed⟩ := hu
  have hwaits := hr.waits (by simp [hc])
  rw [hc] at hwaits
  have h₀ : (s₀.step .asyncioWait).Processing x [] := Processing.of_eq hwaits (slots_step _ _)
  have hsub : before ++ w :: after ⊆ (s₀.step .asyncioWait).waiters := by
    rw [← hw]
    exact List.Subset.refl _
  obtain ⟨hp, hsince⟩ := deliverWaiters_processing h₀ before (fun v hv => hsub (List.mem_append_left _ hv)) h₀ (.refl _)
    hbefore
  obtain ⟨r, hr⟩ := Option.isSome_iff_exists.1 hdone
  simp only [deliverWaiter, hr, bind_eq_ok] at hs
  obtain ⟨s₁, h₁, hs⟩ := hs
  have hwarrant := hp.inv.warranted w (hsince.removed h₀ (hsub (List.mem_append_right _ List.mem_cons_self)) h₁)
  obtain ⟨hclock, hacts, -⟩ := removeWaiter_same h₁
  have hend := disturbed_event (s := s₁) (x := x) (by rw [hacts]; exact hwarrant)
    (fun e he => hp.live (by rw [← hacts]; exact he)) hiw hop hs
  rw [hclock] at hend
  rw [hdue]
  linarith

/-! ## Samples -/

/-- A pass of a run that does not raise. -/
theorem TimedStep.next_pass {P : Interp → Env → Done → Prop} {r : Seconds} {c : Config} (env : Env) (d : Bool)
    (code : Code) (hp : c.phase = .draining) (ho : Onwards launched r c.interp)
    (hn : (c.next x (.pass env d code)).phase.escaped = none) :
    TimedStep x launched P ⟨r, c⟩ ⟨r, c.next x (.pass env d code)⟩ := by
  obtain ⟨p, s⟩ := c
  cases hp
  simp only [Config.next] at hn ⊢
  split at hn
  · next t s' hs => exact .pass env d code ho hs
  · cases hn

/-- The same of a round of listed results. -/
theorem TimedStep.next_round {P : Interp → Env → Done → Prop} {r : Seconds} {c : Config} (env : Env)
    (l : List (Nat × TaskResult)) (hp : c.phase = .waiting) (hf : c.interp.fits l = true)
    (ht : Truthful launched r c.interp (.of l)) (hs : P c.interp env (.of l))
    (hn : (c.next x (.round env l)).phase.escaped = none) :
    TimedStep x launched P ⟨r, c⟩ ⟨r, c.next x (.round env l)⟩ := by
  obtain ⟨p, s⟩ := c
  cases hp
  simp only [Config.next, hf, if_true] at hn ⊢
  split at hn
  · next s' h => exact .round env _ (fits_of hf) ht hs h
  · cases hn

theorem Config.next_round_draining {c : Config} {env : Env} {l : List (Nat × TaskResult)} (hp : c.phase = .waiting)
    (hf : c.interp.fits l = true) (hn : (c.next x (.round env l)).phase.escaped = none) :
    (c.next x (.round env l)).phase = .draining := by
  obtain ⟨p, s⟩ := c
  cases hp
  simp only [Config.next, hf, if_true] at hn ⊢
  split at hn
  · rfl
  · cases hn

/-- What is known of listed results, checked. -/
def Interp.truthful (launched : Nat → Seconds) (real : Seconds) (s : Interp) (l : List (Nat × TaskResult)) : Bool :=
  s.waiters.all fun w =>
    match Done.of l w.task with
    | none => true
    | some r =>
      (match w.op with
        | .sleep d => decide (launched w.task + d ≤ real)
        | _ => true) && (r.stamp.all fun t => decide (t ≤ real))

theorem Interp.truthful_of {real : Seconds} {s : Interp} {l : List (Nat × TaskResult)}
    (h : s.truthful launched real l = true) : Truthful launched real s (.of l) := by
  intro w hw r hr
  have hw := List.all_eq_true.1 h w hw
  rw [hr, Bool.and_eq_true] at hw
  refine ⟨fun d hop => ?_, fun t ht => ?_⟩
  · rw [hop] at hw
    exact of_decide_eq_true hw.1
  · rw [ht] at hw
    exact of_decide_eq_true hw.2

/-- A round that ends no wait is steady. -/
theorem steady_of_no_wait {s : Interp} {env : Env} {done : Done} (h : ∀ w ∈ s.waiters, ¬ w.IsWait) :
    Steady x launched s env done := by
  have hall : ∀ (l : List Waiter) (s₁ : Interp), l ⊆ s.waiters →
      EachStep (deliverWaiter x env done) (fun s w => (done w.task).isSome = true → Undisturbed launched s w) l s₁ := by
    intro l
    induction l with
    | nil => exact fun _ _ => trivial
    | cons w l ih =>
      exact fun s₁ hsub => ⟨fun _ hw => absurd hw (h w (hsub List.mem_cons_self)),
        fun s₂ _ => ih s₂ fun v hv => hsub (List.mem_cons_of_mem _ hv)⟩
  exact hall _ _ (List.Subset.refl _)

/-- A timer of five seconds. -/
def timerRun : List Input := [.drain [.createTimer 5], .round .calm [(0, .slept)]]

/-- It fires five seconds in, and the clock shows them. -/
theorem timerRun_behind : ∃ b : Timed, b.real = 5 ∧ b.clock = 5 ∧
    TimedRun .plain (fun _ => 0) (Steady .plain fun _ => 0) ⟨0, .draining, .start 0⟩ b ∧ b.clock ≤ b.real := by
  have h₁ : ((Execution.plain.run 0 (timerRun.take 1)).phase.isWaiting &&
      (Execution.plain.run 0 (timerRun.take 1)).interp.fits [(0, .slept)] &&
      (Execution.plain.run 0 (timerRun.take 1)).interp.truthful (fun _ => 0) 5 [(0, .slept)] &&
      decide ((Execution.plain.run 0 timerRun).phase.escaped = none) &&
      decide ((Execution.plain.run 0 timerRun).interp.timeSeconds = 5) &&
      (Execution.plain.run 0 (timerRun.take 1)).interp.waiters.all fun w => decide (w.kind = .timer ∨ w.kind = .inbox)) =
      true := by
    decide +kernel
  simp only [Bool.and_eq_true, decide_eq_true_eq, List.all_eq_true] at h₁
  obtain ⟨⟨⟨⟨⟨hw, hf⟩, ht⟩, hn⟩, hclock⟩, hkinds⟩ := h₁
  have hphase := Phase.isWaiting_iff.1 hw
  have hsteady : Steady .plain (fun _ => 0) (Execution.plain.run 0 (timerRun.take 1)).interp .calm
      (.of [(0, .slept)]) := by
    refine steady_of_no_wait fun w hm hwait => ?_
    rcases hkinds w hm with hk | hk <;> rcases hwait with h | ⟨h, -⟩ <;> rw [hk] at h <;> cases h
  have hpass : TimedStep .plain (fun _ => 0) (Steady .plain fun _ => 0) ⟨0, .draining, .start 0⟩
      ⟨0, Execution.plain.run 0 (timerRun.take 1)⟩ :=
    .next_pass .calm false _ rfl (fun _ _ => le_rfl)
      (show (Execution.plain.run 0 (timerRun.take 1)).phase.escaped = none by rw [hphase]; rfl)
  have hround : TimedStep .plain (fun _ => 0) (Steady .plain fun _ => 0) ⟨5, Execution.plain.run 0 (timerRun.take 1)⟩
      ⟨5, Execution.plain.run 0 timerRun⟩ :=
    .next_round .calm _ hphase hf (truthful_of ht) hsteady hn
  have hrun := ((Relation.ReflTransGen.single hpass).tail (.elapse _ (by norm_num))).tail hround
  exact ⟨⟨5, Execution.plain.run 0 timerRun⟩, rfl, hclock, hrun, (clock_behind le_rfl hrun .refl).2.1⟩

/-- The failure of an attempt that is to be retried ten seconds later. -/
def busyFor10 : TaskResult :=
  .attempt (.failed { info := .applicationError (some "Busy") [] false .unspecified (some 10), message := "" } 0 none)

/-- An activity in a backoff of ten seconds, while the attempt of another
goes on. -/
def backoffRun : List Input :=
  [.drain [.startActivity { activityName := "slow" }, .startActivity { activityName := "quick" }],
    .round .calm [(0, busyFor10)], .drain [], .round .calm [(1, .attempt (.ok .none 9)), (3, .slept)]]

/-- The attempt ended nine seconds in, the backoff ten: the clock shows
nineteen. -/
theorem backoffRun_ahead : ∃ (x : Execution) (launched : Nat → Seconds) (start r : Seconds) (b : Timed), start ≤ r ∧
    TimedRun x launched (fun _ _ _ => True) ⟨r, .draining, .start start⟩ b ∧ ¬ b.clock ≤ b.real := by
  have h : ((Execution.plain.run 0 (backoffRun.take 1)).phase.isWaiting &&
      (Execution.plain.run 0 (backoffRun.take 1)).interp.fits [(0, busyFor10)] &&
      (Execution.plain.run 0 (backoffRun.take 1)).interp.truthful (fun _ => 0) 0 [(0, busyFor10)] &&
      decide ((Execution.plain.run 0 (backoffRun.take 2)).phase.escaped = none) &&
      (Execution.plain.run 0 (backoffRun.take 3)).phase.isWaiting &&
      (Execution.plain.run 0 (backoffRun.take 3)).interp.fits [(1, .attempt (.ok .none 9)), (3, .slept)] &&
      (Execution.plain.run 0 (backoffRun.take 3)).interp.truthful (fun _ => 0) 10
        [(1, .attempt (.ok .none 9)), (3, .slept)] &&
      decide ((Execution.plain.run 0 backoffRun).phase.escaped = none) &&
      decide ((Execution.plain.run 0 backoffRun).interp.timeSeconds = 19)) = true := by
    decide +kernel
  simp only [Bool.and_eq_true, decide_eq_true_eq] at h
  obtain ⟨⟨⟨⟨⟨⟨⟨⟨hw₁, hf₁⟩, ht₁⟩, hn₂⟩, hw₃⟩, hf₃⟩, ht₃⟩, hn₄⟩, hclock⟩ := h
  have hw₁ := Phase.isWaiting_iff.1 hw₁
  have hw₃ := Phase.isWaiting_iff.1 hw₃
  have hstep₁ : TimedStep .plain (fun _ => 0) (fun _ _ _ => True) ⟨0, .draining, .start 0⟩
      ⟨0, Execution.plain.run 0 (backoffRun.take 1)⟩ :=
    .next_pass .calm false _ rfl (fun _ _ => le_rfl)
      (show (Execution.plain.run 0 (backoffRun.take 1)).phase.escaped = none by rw [hw₁]; rfl)
  have hstep₂ : TimedStep .plain (fun _ => 0) (fun _ _ _ => True) ⟨0, Execution.plain.run 0 (backoffRun.take 1)⟩
      ⟨0, Execution.plain.run 0 (backoffRun.take 2)⟩ :=
    .next_round .calm _ hw₁ hf₁ (truthful_of ht₁) trivial hn₂
  have hdraining : (Execution.plain.run 0 (backoffRun.take 2)).phase = .draining :=
    Config.next_round_draining (c := Execution.plain.run 0 (backoffRun.take 1)) hw₁ hf₁ hn₂
  have hstep₃ : TimedStep .plain (fun _ => 0) (fun _ _ _ => True) ⟨0, Execution.plain.run 0 (backoffRun.take 2)⟩
      ⟨0, Execution.plain.run 0 (backoffRun.take 3)⟩ :=
    .next_pass .calm false _ hdraining (fun _ _ => le_rfl)
      (show (Execution.plain.run 0 (backoffRun.take 3)).phase.escaped = none by rw [hw₃]; rfl)
  have hstep₄ : TimedStep .plain (fun _ => 0) (fun _ _ _ => True) ⟨10, Execution.plain.run 0 (backoffRun.take 3)⟩
      ⟨10, Execution.plain.run 0 backoffRun⟩ :=
    .next_round .calm _ hw₃ hf₃ (truthful_of ht₃) trivial hn₄
  have hrun := ((((Relation.ReflTransGen.single hstep₁).tail hstep₂).tail hstep₃).tail
    (.elapse _ (by norm_num))).tail hstep₄
  refine ⟨.plain, fun _ => 0, 0, 0, _, le_rfl, hrun, ?_⟩
  change ¬ (Execution.plain.run 0 backoffRun).interp.timeSeconds ≤ 10
  rw [hclock]
  norm_num

end Dbosify
