/-
The order in which timers fire.

A round goes through the waiters in the order they were launched, so of two
timers it finds done the one created first fires first, whatever their
deadlines. And a timer that is already due fires at once, whatever is still
waited for. In every run in which no round fires a timer before a pending one
that is due earlier, and no timer that fires at once overtakes a pending one,
the callbacks are queued in the order of their deadlines (`timers_in_order`).
-/
import Dbosify.ActivityFrames
import Dbosify.Clock

namespace Dbosify

open Py (Dict)

namespace Interp

/-- The deadlines of the timers that fire between `s` and `s'`, in the order
their callbacks are queued. -/
def fired (s s' : Interp) : List Seconds := (s'.rung.drop s.rung.length).filterMap s.pendingTimers.get?

/-- A timer just created that is due already is due no later than any pending
one. -/
def DueFirst (s : Interp) : Prop :=
  ∀ k t, .timer k ∈ s.commands → s.pendingTimers.get? k = some t → t ≤ s.timeSeconds →
    ∀ k' t', s.pendingTimers.get? k' = some t' → t ≤ t'

/-- Of a timer that is found done, every pending timer due earlier is found
done too, and its sleep was launched before. -/
def DoneFirst (s : Interp) (done : Done) : Prop :=
  ∀ before w after t, s.waiters = before ++ w :: after → w.kind = .timer → (done w.task).isSome = true →
    s.pendingTimers.get? w.seq = some t → ∀ k t', s.pendingTimers.get? k = some t' → t' < t →
      ∃ v ∈ before, v.kind = .timer ∧ v.seq = k ∧ (done v.task).isSome = true

/-! ## Fired and pending -/

/-- What has fired did so in order, and is due no later than now, nor than
what is pending. -/
structure InTime (log : List Seconds) (s : Interp) : Prop where
  sorted : log.Pairwise (· ≤ ·)
  past : ∀ t ∈ log, t ≤ s.timeSeconds
  ahead : ∀ k t', s.pendingTimers.get? k = some t' → ∀ t ∈ log, t ≤ t'

variable {x : Execution} {env : Env} {s s₀ s' : Interp} {log : List Seconds} {b : Seconds}

namespace InTime

/-- Time passes, and timers go. -/
theorem later (h : InTime log s) (ht : s.timeSeconds ≤ s'.timeSeconds)
    (hp : ∀ k t, s'.pendingTimers.get? k = some t → s.pendingTimers.get? k = some t) : InTime log s' :=
  ⟨h.sorted, fun t hm => (h.past t hm).trans ht, fun k t hk => h.ahead k t (hp k t hk)⟩

theorem drift (h : InTime log s) (hd : Drift b s s') : InTime log s' :=
  h.later hd.forward fun k t hk => by rwa [hd.timers] at hk

/-- A timer is created no earlier than now. -/
theorem createTimer (h : InTime log s) (d : Seconds) : InTime log (M.state (s.createTimer d)) := by
  unfold Interp.createTimer assertNotReadOnly
  split
  · exact h
  · rw [ok_bind]
    split
    · exact h
    · next hd =>
      refine ⟨h.sorted, h.past, fun k t' hk t ht => ?_⟩
      change (s.pendingTimers.set (s.timerSeq + 1) (s.timeSeconds + d)).get? k = some t' at hk
      rw [Dict.get?_set] at hk
      split at hk
      · have hpast := h.past t ht
        have hnow : s.timeSeconds + d = t' := Option.some.inj hk
        linarith
      · exact h.ahead k t' hk t ht

theorem cancelTimer (h : InTime log s) (k : Nat) : InTime log (s.cancelTimer k) := by
  unfold Interp.cancelTimer
  split
  · exact h
  · exact h.later le_rfl fun k' t ht => (Dict.get?_pop_some.1 ht).2

theorem userOp (h : InTime log s) (o : UserOp) : InTime log (M.state (o.run x s)) := by
  by_cases hc : ∃ d, o = .createTimer d
  · obtain ⟨d, rfl⟩ := hc
    exact h.createTimer d
  · by_cases hk : ∃ k, o = .cancelTimer k
    · obtain ⟨k, rfl⟩ := hk
      exact h.cancelTimer k
    · exact h.drift (b := 0) (.still (timing_userOp (fun d hd => hc ⟨d, hd⟩) fun k hk' => hk ⟨k, hk'⟩))

/-- A timer fires that is due no later than any pending one. -/
theorem fire (h : InTime log s) {k : Nat} {t : Seconds} (hk : s.pendingTimers.get? k = some t)
    (hleast : ∀ k' t', s.pendingTimers.get? k' = some t' → t ≤ t') (ht : s.timeSeconds ≤ s'.timeSeconds)
    (hdue : t ≤ s'.timeSeconds) (hp : s'.pendingTimers = s.pendingTimers.pop k) : InTime (log ++ [t]) s' := by
  have hpending : ∀ k' t', s'.pendingTimers.get? k' = some t' → s.pendingTimers.get? k' = some t' := by
    intro k' t' ht'
    rw [hp] at ht'
    exact (Dict.get?_pop_some.1 ht').2
  refine ⟨?_, fun t' hm => ?_, fun k' t' hk' u hu => ?_⟩
  · rw [List.pairwise_append]
    exact ⟨h.sorted, List.pairwise_singleton _ _, fun u hu v hv => List.mem_singleton.1 hv ▸ h.ahead k t hk u hu⟩
  · rcases List.mem_append.1 hm with hm | hm
    · exact (h.past t' hm).trans ht
    · exact List.mem_singleton.1 hm ▸ hdue
  · rcases List.mem_append.1 hu with hu | hu
    · exact h.ahead k' t' (hpending k' t' hk') u hu
    · exact List.mem_singleton.1 hu ▸ hleast k' t' (hpending k' t' hk')

end InTime

/-- What has fired since `s₀` did so in time. -/
structure Firing (s₀ : Interp) (log : List Seconds) (s : Interp) : Prop where
  inTime : InTime (log ++ s₀.fired s) s
  rung : ∃ l, s.rung = s₀.rung ++ l
  pending : ∀ k t, s.pendingTimers.get? k = some t → s₀.pendingTimers.get? k = some t

namespace Firing

theorem start (h : InTime log s) : Firing s log s := by
  refine ⟨?_, ⟨[], (List.append_nil _).symm⟩, fun _ _ h => h⟩
  rw [fired, List.drop_length, List.filterMap_nil, List.append_nil]
  exact h

theorem drift (h : Firing s₀ log s) (hd : Drift b s s') : Firing s₀ log s' := by
  refine ⟨?_, by rw [hd.rung]; exact h.rung, fun k t hk => h.pending k t (by rwa [hd.timers] at hk)⟩
  rw [fired, hd.rung]
  exact h.inTime.drift hd

/-- One more timer fires. -/
theorem fire (h : Firing s₀ log s) {k : Nat} {t : Seconds} (hk : s.pendingTimers.get? k = some t)
    (hleast : ∀ k' t', s.pendingTimers.get? k' = some t' → t ≤ t') (ht : s.timeSeconds ≤ s'.timeSeconds)
    (hdue : t ≤ s'.timeSeconds) (hp : s'.pendingTimers = s.pendingTimers.pop k) (hr : s'.rung = s.rung ++ [k]) :
    Firing s₀ log s' := by
  obtain ⟨l, hl⟩ := h.rung
  have hfired : s₀.fired s' = s₀.fired s ++ [t] := by
    rw [fired, hr, hl, List.append_assoc, List.drop_left, fired, hl, List.drop_left, List.filterMap_append,
      List.filterMap_cons, h.pending k t hk]
    rfl
  refine ⟨?_, ⟨l ++ [k], by rw [hr, hl, List.append_assoc]⟩, fun k' t' hk' => h.pending k' t' ?_⟩
  · rw [hfired, ← List.append_assoc]
    exact h.inTime.fire hk hleast ht hdue hp
  · rw [hp] at hk'
    exact (Dict.get?_pop_some.1 hk').2

end Firing

/-! ## Rounds -/

/-- A pending timer fires: it goes, and the clock comes to its deadline. -/
theorem deliverTimer_fires {k : Nat} {t : Seconds} (ht : s.pendingTimers.get? k = some t) :
    (s.deliverTimer k).pendingTimers = s.pendingTimers.pop k ∧ (s.deliverTimer k).rung = s.rung ++ [k] ∧
      s.timeSeconds ≤ (s.deliverTimer k).timeSeconds ∧ t ≤ (s.deliverTimer k).timeSeconds := by
  have hadv : Drift t { s with pendingTimers := s.pendingTimers.pop k }
      ({ s with pendingTimers := s.pendingTimers.pop k }.advanceTime (some t)) :=
    .advance fun v hv => by cases hv; exact le_rfl
  unfold Interp.deliverTimer
  rw [ht]
  exact ⟨hadv.timers, (rung_append _ [.timer k]).trans (by rw [hadv.rung]; rfl), hadv.forward, le_advanceTime _ t⟩

theorem deliverTimer_gone {k : Nat} (hnone : s.pendingTimers.get? k = none) : s.deliverTimer k = s := by
  simp only [Interp.deliverTimer, hnone]

/-- No timer comes, and the one delivered goes. -/
theorem deliverTimer_none (s : Interp) {k k' : Nat} (h : k' = k ∨ s.pendingTimers.get? k' = none) :
    (s.deliverTimer k).pendingTimers.get? k' = none := by
  cases hk : s.pendingTimers.get? k with
  | none =>
    rw [deliverTimer_gone hk]
    rcases h with rfl | h
    · exact hk
    · exact h
  | some t =>
    rw [(deliverTimer_fires hk).1, Dict.get?_pop]
    split
    · rfl
    · next hne => exact h.resolve_left hne

theorem Firing.deliverTimer (h : Firing s₀ log s) {k : Nat}
    (hleast : ∀ t, s.pendingTimers.get? k = some t → ∀ k' t', s.pendingTimers.get? k' = some t' → t ≤ t') :
    Firing s₀ log (s.deliverTimer k) := by
  cases hk : s.pendingTimers.get? k with
  | none =>
    rw [deliverTimer_gone hk]
    exact h
  | some t =>
    obtain ⟨hp, hr, hforward, hdue⟩ := deliverTimer_fires hk
    exact h.fire hk (hleast t hk) hforward hdue hp hr

/-- What a waiter delivers, in a round that fires no timer too soon. -/
theorem Firing.deliverWaiter {done : Done} {w : Waiter} (h : Firing s₀ log s)
    (hleast : w.kind = .timer → (done w.task).isSome = true → ∀ t, s.pendingTimers.get? w.seq = some t →
      ∀ k t', s.pendingTimers.get? k = some t' → t ≤ t')
    (hs : s.deliverWaiter x env done w = .ok s') :
    Firing s₀ log s' ∧ (∀ k, s.pendingTimers.get? k = none → s'.pendingTimers.get? k = none) ∧
      (w.kind = .timer → (done w.task).isSome = true → s'.pendingTimers.get? w.seq = none) := by
  unfold Interp.deliverWaiter at hs
  split at hs
  · next hd =>
    cases hs
    exact ⟨h, fun _ hk => hk, fun _ hdone => by rw [hd] at hdone; cases hdone⟩
  · next r hd =>
    simp only [bind_eq_ok] at hs
    obtain ⟨s₁, h₁, hs⟩ := hs
    have hremoved : Drift 0 s s₁ := drift_removeWaiter h₁
    have hf₁ := h.drift hremoved
    by_cases hk : w.kind = .timer
    · simp only [deliverEvent, hk, Except.ok.injEq] at hs
      subst hs
      refine ⟨hf₁.deliverTimer fun t ht k t' ht' => ?_, fun k hnone => ?_, fun _ _ => ?_⟩
      · rw [hremoved.timers] at ht ht'
        exact hleast hk (by rw [hd]; rfl) t ht k t' ht'
      · rw [← hremoved.timers] at hnone
        exact deliverTimer_none s₁ (.inr hnone)
      · exact deliverTimer_none s₁ (.inl rfl)
    · have hev : Drift (max (r.stamp.getD 0)
          (s₁.timeSeconds + ((s₁.pendingActivities.get? w.seq).map (·.pendingWaitSeconds)).getD 0)) s₁ s' := by
        refine drift_event hk (fun v hv => ?_) (fun e he _ => ?_) hs
        · rw [hv]
          exact le_max_left _ _
        · rw [he]
          exact le_max_right _ _
      exact ⟨hf₁.drift hev, fun k hnone => by rw [hev.timers, hremoved.timers, hnone], fun hk' => absurd hk' hk⟩

/-- The events of a round, up to any of them: the timers found done so far
have fired. -/
theorem Firing.deliverWaiters {done : Done} (hc : s₀.DoneFirst done) (ws : List Waiter) : ∀ (before : List Waiter) {s : Interp},
    s₀.waiters = before ++ ws → Firing s₀ log s →
    (∀ v ∈ before, v.kind = .timer → (done v.task).isSome = true → s.pendingTimers.get? v.seq = none) →
    ws.foldlM (Interp.deliverWaiter x env done) s = .ok s' → Firing s₀ log s' := by
  induction ws with
  | nil =>
    intro before s _ h _ hs
    cases hs
    exact h
  | cons w ws ih =>
    intro before s hw h hbefore hs
    rw [List.foldlM_cons, bind_eq_ok] at hs
    obtain ⟨s₁, h₁, hs⟩ := hs
    have hleast : w.kind = .timer → (done w.task).isSome = true → ∀ t, s.pendingTimers.get? w.seq = some t →
        ∀ k t', s.pendingTimers.get? k = some t' → t ≤ t' := by
      intro hk hd t ht k t' ht'
      -- A pending timer that is due earlier would have been found done before.
      by_contra hlt
      obtain ⟨v, hv, hvk, hvs, hvd⟩ := hc before w ws t hw hk hd (h.pending _ _ ht) k t' (h.pending _ _ ht') (not_le.1 hlt)
      have hgone := hbefore v hv hvk hvd
      rw [hvs, ht'] at hgone
      cases hgone
    obtain ⟨hf₁, hnone, hself⟩ := h.deliverWaiter hleast h₁
    refine ih (before ++ [w]) (by rw [hw, List.append_assoc]; rfl) hf₁ (fun v hv hk hd => ?_) hs
    rcases List.mem_append.1 hv with hv | hv
    · exact hnone v.seq (hbefore v hv hk hd)
    · obtain rfl := List.mem_singleton.1 hv
      exact hself hk hd

/-- **A round fires its timers in order.** -/
theorem InTime.round {done : Done} (h : InTime log s) (hc : s.DoneFirst done) (hs : s.round x env done = .ok s') :
    InTime (log ++ s.fired s') s' := by
  have hstep : Firing s log (s.step .asyncioWait) := (Firing.start h).drift (b := 0) (.still rfl)
  exact (Firing.deliverWaiters hc s.waiters [] rfl hstep (fun _ hv => by cases hv) hs).inTime

/-! ## Passes -/

theorem Firing.command (h : Firing s₀ log s) {c : Command} {q : Bool}
    (hleast : ∀ k, c = .timer k → ∀ t, s.pendingTimers.get? k = some t → t ≤ s.timeSeconds →
      ∀ k' t', s.pendingTimers.get? k' = some t' → t ≤ t')
    (hs : s.processCommand x env c = .ok (q, s')) : Firing s₀ log s' ∧ s'.timeSeconds = s.timeSeconds := by
  by_cases hc : ∃ k, c = .timer k
  · obtain ⟨k, rfl⟩ := hc
    simp only [processCommand, processTimer] at hs
    split at hs
    · cases hs
      exact ⟨h, rfl⟩
    · next t ht =>
      split at hs
      · next hdue =>
        cases hs
        have hle : t ≤ s.timeSeconds := sub_nonpos.1 hdue
        exact ⟨h.fire ht (hleast k rfl t ht hle) le_rfl hle rfl (rung_append _ [.timer k]), rfl⟩
      · simp only [bind_eq_ok, Except.ok.injEq, Prod.mk.injEq] at hs
        obtain ⟨s₁, h₁, -, rfl⟩ := hs
        obtain ⟨l, rfl⟩ := traces_checkReplayHorizon h₁
        exact ⟨⟨h.inTime.later le_rfl fun _ _ hk => hk, h.rung, h.pending⟩, rfl⟩
  · have hd : Drift s.timeSeconds s s' := drift_command (fun k hk => hc ⟨k, hk⟩) hs
    exact ⟨h.drift hd, le_antisymm (hd.bound.trans (max_le le_rfl le_rfl)) hd.forward⟩

theorem Firing.commands (hc : s₀.DueFirst) : ∀ (cs : List Command) {p q : Bool} {s : Interp}, (∀ c ∈ cs, c ∈ s₀.commands) →
    Firing s₀ log s → s.timeSeconds = s₀.timeSeconds → processCommands x env cs p s = .ok (q, s') → Firing s₀ log s' := by
  intro cs
  induction cs with
  | nil =>
    intro p q s _ h _ hs
    cases hs
    exact h
  | cons c cs ih =>
    intro p q s hsub h ht hs
    simp only [processCommands, bind_eq_ok] at hs
    obtain ⟨⟨b, s₁⟩, h₁, hs⟩ := hs
    obtain ⟨hf₁, ht₁⟩ := h.command (fun k hk t hget hdue k' t' hget' =>
      hc k t (hk ▸ hsub c (.head _)) (h.pending k t hget) (ht ▸ hdue) k' t' (h.pending k' t' hget')) h₁
    exact ih (fun c' hc' => hsub c' (.tail _ hc')) hf₁ (ht₁.trans ht) hs

/-! ### What is queued -/

theorem commands_sweepCancellations (env : Env) (s : Interp) : (s.sweepCancellations env).commands = s.commands :=
  frame_sweepCancellations (R := Queue) trivial env s

theorem commands_flushSignals {q : Bool} (h : s.flushPendingHandlerSignals x env = .ok (q, s')) :
    s'.commands = s.commands := along_flushSignals.of_ok (R := Queue) h

/-- **A pass fires its timers in order**: those that are due already. -/
theorem InTime.pass {d : Bool} {code : Code} {t : Turn} (h : InTime log s) (hc : (s.drainOutsideTask x code).DueFirst)
    (hs : s.pass x env d code = .ok (t, s')) : InTime (log ++ (s.drainOutsideTask x code).fired s') s' := by
  have hdrain : InTime log (s.drainOutsideTask x code) :=
    Code.drain_induct (P := InTime log) (fun o h => h.userOp o) code ⟨h.sorted, h.past, h.ahead⟩
  unfold Interp.pass afterDrain at hs
  generalize s.drainOutsideTask x code = σ at hc hdrain hs ⊢
  simp only [bind_eq_ok] at hs
  obtain ⟨⟨q, s₁⟩, h₁, ⟨p, s₂⟩, h₂, hs⟩ := hs
  have hd₁ : Drift σ.timeSeconds σ s₁ := (drift_sweepCancellations env σ).trans (drift_flushSignals h₁)
  have hd : Drift σ.timeSeconds σ { s₁ with commands := [] } := hd₁.trans (.still rfl)
  have htime : s₁.timeSeconds = σ.timeSeconds := le_antisymm (hd.bound.trans (max_le le_rfl le_rfl)) hd.forward
  have hqueued : s₁.commands = σ.commands := (commands_flushSignals h₁).trans (commands_sweepCancellations env σ)
  have h₂ := Firing.commands hc s₁.commands (fun c hm => hqueued ▸ hm) ((Firing.start hdrain).drift hd) htime h₂
  split at hs
  · cases hs
    exact h₂.inTime
  · exact (h₂.drift (drift_settle (b := s₂.timeSeconds) hs)).inTime

end Interp

/-! ## Runs -/

open Interp

/-- The runs of an execution, with the deadlines of the timers that have fired,
in the order their callbacks were queued. What is queued by a pass meets `P`
after the drain, what is queued by a round meets `Q`. A pass or a round that
raises ends the loop, and nothing it queued runs. -/
inductive Fires (x : Execution) (P : Interp → Prop) (Q : Interp → Done → Prop) : List Seconds → Config → Prop
  | start (startTime : Seconds) (memo : Dict String Value) : Fires x P Q [] ⟨.draining, .start startTime memo⟩
  | pass {log : List Seconds} {s s' : Interp} {t : Turn} (env : Env) (deadlinePassed : Bool) (code : Code)
      (hl : Fires x P Q log ⟨.draining, s⟩) (hp : P (s.drainOutsideTask x code))
      (h : s.pass x env deadlinePassed code = .ok (t, s')) :
      Fires x P Q (log ++ (s.drainOutsideTask x code).fired s') ⟨t.phase, s'⟩
  | round {log : List Seconds} {s s' : Interp} (env : Env) (done : Done) (hl : Fires x P Q log ⟨.waiting, s⟩)
      (hf : s.Fits done) (hq : Q s done) (h : s.round x env done = .ok s') :
      Fires x P Q (log ++ s.fired s') ⟨.draining, s'⟩

variable {x : Execution} {log : List Seconds} {c : Config}

theorem Fires.inTime (h : Fires x DueFirst DoneFirst log c) : InTime log c.interp := by
  induction h with
  | start t m => exact ⟨.nil, (fun t ht => by cases ht), fun k t hk => by cases hk⟩
  | pass env d code _ hp h ih => exact ih.pass hp h
  | round env done _ _ hq h ih => exact ih.round hq h

/-- **Timers fire in the order of their deadlines**, in every run whose rounds
fire no timer before a pending one due earlier, and in which no timer that
fires at once overtakes one; so one that is still pending is due no earlier
than any that has fired. -/
theorem timers_in_order (h : Fires x DueFirst DoneFirst log c) :
    log.Pairwise (· ≤ ·) ∧ ∀ k t', c.interp.pendingTimers.get? k = some t' → ∀ t ∈ log, t ≤ t' :=
  ⟨h.inTime.sorted, h.inTime.ahead⟩

/-! ### Two runs -/

theorem dueFirst_of_later {s : Interp} (h : ∀ e ∈ s.pendingTimers.entries, s.timeSeconds < e.2) : s.DueFirst := by
  intro k t _ hk hdue
  exact absurd hdue (not_le.2 (h _ (Dict.mem_entries_iff.2 hk)))

theorem doneFirst_of_least {s : Interp} {done : Done}
    (h : ∀ w ∈ s.waiters, (done w.task).isSome = true → ∀ e ∈ s.pendingTimers.entries, e.1 = w.seq →
      ∀ e' ∈ s.pendingTimers.entries, e.2 ≤ e'.2) : s.DoneFirst done := by
  intro before w after t hw _ hd hk k t' hk' hlt
  have hmem : w ∈ s.waiters := by
    rw [hw]
    exact List.mem_append_right _ (.head _)
  exact absurd hlt (not_lt.2 (h w hmem hd _ (Dict.mem_entries_iff.2 hk) rfl _ (Dict.mem_entries_iff.2 hk')))

/-- User code that starts two timers. -/
def twoTimers (d d' : Seconds) : Code := .asks [.createTimer d, .createTimer d']

/-- Of two timers the earlier one is found done first. -/
theorem earlierTimer_first : ∃ c : Config, Fires .plain DueFirst DoneFirst [5] c ∧
    c.interp.pendingTimers.get? 2 = some 10 ∧ ∀ k t', c.interp.pendingTimers.get? k = some t' → 5 ≤ t' := by
  have h : M.holds ((Interp.start 0).pass .plain .calm false (twoTimers 5 10)) (fun r =>
      r.1.isWait && decide (((Interp.start 0).drainOutsideTask .plain (twoTimers 5 10)).fired r.2 = []) &&
      r.2.fits [(0, .slept)] &&
      decide (∀ w ∈ r.2.waiters, (Done.of [(0, .slept)] w.task).isSome = true → ∀ e ∈ r.2.pendingTimers.entries,
        e.1 = w.seq → ∀ e' ∈ r.2.pendingTimers.entries, e.2 ≤ e'.2) &&
      M.holds (r.2.round .plain .calm (.of [(0, .slept)])) fun s₂ =>
        decide (r.2.fired s₂ = [5]) && decide (s₂.pendingTimers.get? 2 = some 10)) = true := by
    decide +kernel
  have hdue : ((Interp.start 0).drainOutsideTask .plain (twoTimers 5 10)).DueFirst := dueFirst_of_later (by decide +kernel)
  simp only [M.holds_iff, Bool.and_eq_true, decide_eq_true_eq, Turn.isWait_iff] at h
  obtain ⟨⟨t, s₁⟩, h₁, ⟨⟨⟨rfl, hnone⟩, hfits⟩, hdone⟩, s₂, h₂, hfired, hpending⟩ := h
  have hpass : Fires .plain DueFirst DoneFirst _ _ := .pass .calm false _ (.start 0 .empty) hdue h₁
  rw [hnone] at hpass
  have hround := Fires.round .calm _ hpass (fits_of hfits) (doneFirst_of_least hdone) h₂
  rw [hfired] at hround
  exact ⟨_, hround, hpending, fun k t' hk => (timers_in_order hround).2 k t' hk 5 (.head _)⟩

/-- A round that finds both done fires the one created first, and that is the
later one. -/
theorem laterTimer_first : ∃ log c, Reachable .plain c ∧ Fires .plain (fun _ => True) (fun _ _ => True) log c ∧
    ¬ log.Pairwise (· ≤ ·) := by
  have h : M.holds ((Interp.start 0).pass .plain .calm false (twoTimers 10 5)) (fun r =>
      r.1.isWait && decide (((Interp.start 0).drainOutsideTask .plain (twoTimers 10 5)).fired r.2 = []) &&
      r.2.fits [(0, .slept), (1, .slept)] &&
      M.holds (r.2.round .plain .calm (.of [(0, .slept), (1, .slept)])) fun s₂ => decide (r.2.fired s₂ = [10, 5])) = true := by
    decide +kernel
  simp only [M.holds_iff, Bool.and_eq_true, decide_eq_true_eq, Turn.isWait_iff] at h
  obtain ⟨⟨t, s₁⟩, h₁, ⟨⟨rfl, hnone⟩, hfits⟩, s₂, h₂, hfired⟩ := h
  have hpass : Fires .plain (fun _ => True) (fun _ _ => True) _ _ := .pass .calm false _ (.start 0 .empty) trivial h₁
  rw [hnone] at hpass
  have hround := Fires.round .calm _ hpass (fits_of hfits) trivial h₂
  rw [hfired] at hround
  exact ⟨_, _, .step (.step (.start 0 .empty) (.pass .calm false _ h₁)) (.round .calm _ (fits_of hfits) h₂), hround,
    by decide⟩

end Dbosify
