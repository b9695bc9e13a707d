/-
The schedule-to-close budget, against real time.

Each path rebuilds the elapsed time from stamps: the interpreter on its
virtual clock, the activity workflow from the ends of its attempts. A run of
a path carries the real time beside it, and what was granted at which
instant. A park that a heartbeat window ends is not charged by the
interpreter; the activity workflow neither charges a park its own deadline
ends nor shortens one a heartbeat interrupts. In every run without these no
grant leaves the budget (`scheduleToClose_bounds`).
-/
import Dbosify.ActivityPaths

namespace Dbosify

/-! ## Grants -/

/-- What a path is given time for. -/
inductive Grant
  | attempt (deadline : Option Seconds)
  | park (timeout : Seconds)
  | backoff (delay : Seconds)

/-- A grant made at `t` keeps to `limit`: an attempt starts before it and is
bounded by it, a park ends by it or is of the minimum length, a backoff ends
before it. -/
def Grant.Within (limit t : Seconds) : Grant → Prop
  | attempt d => t < limit ∧ ∃ d', d = some d' ∧ t + d' ≤ limit
  | park w => t + w ≤ limit ∨ w ≤ 1 / 20
  | backoff r => t + r < limit

/-- A failure that does not ask for a retry in the past. -/
def Failure.WaitsForward {δ : Type} (f : Failure δ) : Prop := ∀ d, f.nextRetryDelay = some d → 0 ≤ d

theorem timeoutFailure_waitsForward (message : String) (t : TimeoutType) : (timeoutFailure message t).WaitsForward :=
  fun _ h => by cases h

/-! ## What the shared decisions grant -/

section

variable {p : RetryPolicy} {n : Nat} {f : FailureEnvelope}

theorem backoff_nonneg (hv : p.validate = none) (hn : 1 ≤ n) (hs : stopState p n f = none) (hf : f.WaitsForward)
    {d : Seconds} (h : backoff p n f = .ok d) : 0 ≤ d := by
  cases hr : f.nextRetryDelay with
  | some d' =>
    simp only [backoff, hr] at h
    cases h
    exact hf d hr
  | none =>
    have hvalid := RetryPolicy.valid_of_validate hv fun ha => stopState_of_one ha hn hs
    rw [backoff_exponential hr] at h
    cases hp : pyPow p.backoffCoefficient (n - 1) with
    | error e => rw [hp] at h; cases h
    | ok q =>
      rw [hp] at h
      cases h
      exact cappedExponential_nonneg hvalid.initial hvalid.coefficient hvalid.cap_nonneg

/-- A retry inside the budget leaves it time to start. -/
theorem retryDecision_within (hv : p.validate = none) (hn : 1 ≤ n) (hf : f.WaitsForward) {elapsed budget d : Seconds}
    {st : RetryState} (h : retryDecision p n f (some elapsed) (some budget) = .ok (some d, st)) :
    0 ≤ d ∧ elapsed + d < budget := by
  obtain ⟨hs, hb⟩ := retryDecision_retries h
  refine ⟨backoff_nonneg hv hn hs hf hb, ?_⟩
  simp only [retryDecision, hs, hb, ok_bind] at h
  split at h
  · cases h
  · next hlt => exact not_le.1 hlt

/-- A deadline of the type schedule-to-close is never retried. -/
theorem retryDecision_scheduleToClose {e b : Option Seconds} {d : Seconds} {st : RetryState} :
    retryDecision p n DeadlineType.scheduleToClose.failure e b ≠ .ok (some d, st) := by
  intro h
  have hs := (retryDecision_retries h).1
  have : stopState p n DeadlineType.scheduleToClose.failure = some .timeout := rfl
  rw [this] at hs
  cases hs

end

/-- A deadline is no longer than what remains. -/
theorem effectiveDeadline_le (a : Option Seconds) (r : Seconds) :
    ∃ d, (effectiveDeadline a (some r)).1 = some d ∧ d ≤ max 0 r := by
  cases a with
  | none => exact ⟨_, rfl, le_rfl⟩
  | some s =>
    simp only [effectiveDeadline]
    split
    · next hle => exact ⟨_, rfl, hle⟩
    · exact ⟨_, rfl, le_rfl⟩

/-- An attempt that starts at `t`, with what remains counted from no earlier
instant. -/
theorem attempt_within {a : Option Seconds} {limit t v : Seconds} (ht : t < limit) (hv : t ≤ v) :
    (Grant.attempt (effectiveDeadline a (some (limit - v))).1).Within limit t := by
  obtain ⟨d, hd, hle⟩ := effectiveDeadline_le a (limit - v)
  refine ⟨ht, d, hd, ?_⟩
  rcases le_total 0 (limit - v) with h | h
  · rw [max_eq_right h] at hle; linarith
  · rw [max_eq_left h] at hle; linarith

/-! ## The activity workflow -/

/-- An activity workflow, the real time at which it began to wait, and what
was granted when. -/
structure QueuedClock where
  st : QueuedState
  now : Seconds
  granted : List (Seconds × Grant)

def QueuedState.grant : QueuedState → Option Grant
  | attempting _ d _ => some (.attempt d)
  | parked _ _ w _ => some (.park w)
  | backingOff _ _ r => some (.backoff r)
  | returned _ | raised _ => none

def QueuedClock.moved (c : QueuedClock) (st : QueuedState) (t : Seconds) : QueuedClock :=
  { st, now := t, granted := c.granted ++ (st.grant.toList.map fun g => (t, g)) }

inductive QueuedEvent
  | attempt (e : StepEnvelope)
  | received (m : Option ParkMessage)
  | slept

/-- One event of the activity workflow, at `t`. Recorded stamps are readings
of the real clock. -/
inductive QueuedStep (q : QueuedActivity) : QueuedClock → QueuedEvent → Seconds → QueuedClock → Prop
  | returns {c : QueuedClock} {n : Nat} {d : Option Seconds} {ty : DeadlineType} {t : Seconds} (r : Payload)
      (hc : c.st = .attempting n d ty) (ht : c.now ≤ t) :
      QueuedStep q c (.attempt (.ok r t)) t (c.moved (q.nextAttempted n d ty (.ok r t)) t)
  | fails {c : QueuedClock} {n : Nat} {d : Option Seconds} {ty : DeadlineType} {t : Seconds} (f : FailureEnvelope)
      (hc : c.st = .attempting n d ty) (ht : c.now ≤ t) :
      QueuedStep q c (.attempt (.failed f t)) t (c.moved (q.nextAttempted n d ty (.failed f t)) t)
  | parks {c : QueuedClock} {n : Nat} {d : Option Seconds} {ty : DeadlineType} {t : Seconds}
      (hc : c.st = .attempting n d ty) (ht : c.now ≤ t) :
      QueuedStep q c (.attempt (.asyncPending c.now t)) t (c.moved (q.nextAttempted n d ty (.asyncPending c.now t)) t)
  | heartbeat {c : QueuedClock} {n : Nat} {endedAt w : Seconds} {ty : DeadlineType} {t : Seconds}
      (hc : c.st = .parked n endedAt w ty) (ht : c.now ≤ t) :
      QueuedStep q c (.received (some .heartbeat)) t (c.moved (q.nextReceived n endedAt w ty (some .heartbeat)) t)
  | completion {c : QueuedClock} {n : Nat} {endedAt w : Seconds} {ty : DeadlineType} {t : Seconds} (how : Completion)
      (hc : c.st = .parked n endedAt w ty) (ht : c.now ≤ t) :
      QueuedStep q c (.received (some (.completion how (some t)))) t
        (c.moved (q.nextReceived n endedAt w ty (some (.completion how (some t)))) t)
  | timesOut {c : QueuedClock} {n : Nat} {endedAt w : Seconds} {ty : DeadlineType}
      (hc : c.st = .parked n endedAt w ty) :
      QueuedStep q c (.received none) (c.now + w) (c.moved (q.nextReceived n endedAt w ty none) (c.now + w))
  | slept {c : QueuedClock} {n : Nat} {elapsed delay : Seconds} (hc : c.st = .backingOff n elapsed delay) :
      QueuedStep q c .slept (c.now + max 0 delay) (c.moved (q.nextSlept n elapsed delay) (c.now + max 0 delay))

/-- A run of the activity workflow whose steps all meet `P`. -/
inductive QueuedRun (q : QueuedActivity) (P : QueuedClock → QueuedEvent → Seconds → Prop) : QueuedClock → Prop
  | start : QueuedRun q P (QueuedClock.moved ⟨q.initial, q.startedAt, []⟩ q.initial q.startedAt)
  | step {c c' : QueuedClock} {ev : QueuedEvent} {t : Seconds} (h : QueuedRun q P c) (hs : QueuedStep q c ev t c')
      (hp : P c ev t) : QueuedRun q P c'

/-- The step is charged: a heartbeat leaves the whole `recv` inside the
budget, a park its own start-to-close ends has taken no time, and no failure
asks for a retry in the past. -/
def QueuedClock.Charged (limit : Seconds) (c : QueuedClock) (ev : QueuedEvent) (t : Seconds) : Prop :=
  match ev with
  | .attempt (.failed f _) => f.WaitsForward
  | .received (some (.completion (.failed f) _)) => f.WaitsForward
  | .received (some .heartbeat) => ∀ n endedAt w ty, c.st = .parked n endedAt w ty → t + w ≤ limit ∨ w ≤ 1 / 20
  | .received none => ∀ n endedAt w, c.st = .parked n endedAt w .startToClose → t ≤ endedAt
  | _ => True

/-- What the workflow's state keeps of the budget. -/
def QueuedState.Kept (q : QueuedActivity) (limit now : Seconds) : QueuedState → Prop
  | attempting n d _ => 1 ≤ n ∧ now < limit ∧ ∃ d', d = some d' ∧ now + d' ≤ limit
  | parked n _ w _ => 1 ≤ n ∧ (now + w ≤ limit ∨ w ≤ 1 / 20)
  | backingOff n elapsed delay => 1 ≤ n ∧ 0 ≤ delay ∧ now ≤ q.startedAt + elapsed ∧ now + delay < limit
  | returned _ | raised _ => True

section

variable {q : QueuedActivity} {limit budget : Seconds} {c c' : QueuedClock}

theorem QueuedState.Kept.within {now : Seconds} {st : QueuedState} (h : st.Kept q limit now) {g : Grant}
    (hg : st.grant = some g) : g.Within limit now := by
  cases st <;> simp only [grant, Option.some.injEq] at hg <;> try cases hg
  · exact h.2
  · exact h.2
  · exact h.2.2.2

/-- An attempt begins. -/
theorem kept_begin (hb : q.scheduleToClose = some budget) (hl : limit = q.startedAt + budget) {n : Nat} (hn : 1 ≤ n)
    {t elapsed : Seconds} (ht : t < limit) (hte : t ≤ q.startedAt + elapsed) : (q.begin n elapsed).Kept q limit t := by
  have h := attempt_within (a := q.startToClose) ht hte
  rw [show limit - (q.startedAt + elapsed) = budget - elapsed by rw [hl]; ring] at h
  unfold QueuedActivity.begin
  rw [hb]
  exact ⟨hn, h⟩

/-- An attempt, or a park, fails at `t` with an end no earlier. -/
theorem kept_failAttempt (hv : q.policy.validate = none) (hb : q.scheduleToClose = some budget)
    (hl : limit = q.startedAt + budget) {n : Nat} (hn : 1 ≤ n) {f : FailureEnvelope} {t endedAt : Seconds}
    (hf : f.WaitsForward) (ht : t ≤ endedAt) : (q.failAttempt n f endedAt).Kept q limit t := by
  unfold QueuedActivity.failAttempt
  split
  · trivial
  · rw [hb]
    dsimp only
    split
    · trivial
    · trivial
    · next d st hd =>
      obtain ⟨hnonneg, hlt⟩ := retryDecision_within hv hn hf hd
      exact ⟨hn, hnonneg, by linarith, by linarith⟩

/-- A park ended by its schedule-to-close deadline is the end. -/
theorem kept_failAttempt_scheduleToClose {n : Nat} {t endedAt : Seconds} :
    (q.failAttempt n DeadlineType.scheduleToClose.failure endedAt).Kept q limit t := by
  unfold QueuedActivity.failAttempt
  split
  · trivial
  · dsimp only
    split
    · trivial
    · trivial
    · next d st hd => exact absurd hd retryDecision_scheduleToClose

/-- **A charged step of the activity workflow keeps to the budget.** -/
theorem QueuedStep.kept (hv : q.policy.validate = none) (hb : q.scheduleToClose = some budget)
    (hl : limit = q.startedAt + budget) {ev : QueuedEvent} {t : Seconds} (hs : QueuedStep q c ev t c')
    (hp : c.Charged limit ev t) (h : c.st.Kept q limit c.now) : c'.st.Kept q limit c'.now := by
  cases hs with
  | returns r hc ht => trivial
  | fails f hc ht =>
    rw [hc] at h
    exact kept_failAttempt hv hb hl h.1 hp le_rfl
  | parks hc ht =>
    rw [hc] at h
    obtain ⟨hn, -, d', rfl, hd⟩ := h
    refine ⟨hn, ?_⟩
    simp only [QueuedActivity.parkTimeout, QueuedClock.moved]
    rw [max_eq_right (sub_nonneg.2 ht)]
    rcases le_total 0 (d' - (t - c.now)) with hpos | hneg
    · exact .inl (by rw [max_eq_right hpos]; linarith)
    · exact .inr (by rw [max_eq_left hneg]; norm_num)
  | heartbeat hc ht =>
    have hw := hp _ _ _ _ hc
    rw [hc] at h
    exact ⟨h.1, hw⟩
  | completion how hc ht =>
    rw [hc] at h
    cases how with
    | ok r => trivial
    | failed f => exact kept_failAttempt hv hb hl h.1 hp le_rfl
    | cancelled => exact kept_failAttempt (f := activityCancelledFailure) hv hb hl h.1 nofun le_rfl
  | @timesOut n endedAt w ty hc =>
    cases ty with
    | startToClose =>
      have hend := hp _ _ _ hc
      rw [hc] at h
      exact kept_failAttempt (f := DeadlineType.startToClose.failure) hv hb hl h.1 nofun hend
    | scheduleToClose => exact kept_failAttempt_scheduleToClose (n := n)
  | @slept n elapsed delay hc =>
    rw [hc] at h
    obtain ⟨hn, hnonneg, hel, hlt⟩ := h
    rw [max_eq_right hnonneg]
    have hel' : c.now + delay ≤ q.startedAt + (elapsed + delay) := by linarith
    exact kept_begin hb hl (by omega) hlt hel'

/-- A grant of a kept state joins the grants within the budget. -/
theorem QueuedClock.granted_moved {st : QueuedState} {t : Seconds} (h : ∀ g ∈ c.granted, g.2.Within limit g.1)
    (hk : st.Kept q limit t) : ∀ g ∈ (c.moved st t).granted, g.2.Within limit g.1 := by
  intro g hg
  simp only [moved, List.mem_append, List.mem_map, Option.mem_toList] at hg
  rcases hg with hg | ⟨g', hg', rfl⟩
  · exact h g hg
  · exact hk.within hg'

theorem QueuedStep.moved {ev : QueuedEvent} {t : Seconds} (hs : QueuedStep q c ev t c') : c' = c.moved c'.st c'.now := by
  cases hs <;> rfl

/-- **The activity workflow keeps to its budget** in every charged run. -/
theorem QueuedRun.within (hv : q.policy.validate = none) (hn : 1 ≤ q.attempt) (hb : q.scheduleToClose = some budget)
    (hpos : 0 < budget) (hr : QueuedRun q (QueuedClock.Charged (q.startedAt + budget)) c) :
    c.st.Kept q (q.startedAt + budget) c.now ∧ ∀ g ∈ c.granted, g.2.Within (q.startedAt + budget) g.1 := by
  induction hr with
  | start =>
    have hk : q.initial.Kept q (q.startedAt + budget) q.startedAt := by
      unfold QueuedActivity.initial
      split
      · trivial
      · exact kept_begin hb rfl hn (by linarith) (by linarith)
    exact ⟨hk, QueuedClock.granted_moved (c := ⟨q.initial, q.startedAt, []⟩) (by simp) hk⟩
  | step _ hs hp ih =>
    have hk := hs.kept hv hb rfl hp ih.1
    rw [hs.moved]
    exact ⟨hk, QueuedClock.granted_moved ih.2 hk⟩

end

/-! ## The interpreter -/

/-- The grant a waiter is. -/
def Waiter.grant (w : Waiter) : Option Grant :=
  match w.kind, w.op with
  | .activity, .attempt _ _ d _ => some (.attempt d)
  | .activity, .sleep r => some (.backoff r)
  | .actS2c, .sleep r => some (.park r)
  | _, _ => none

/-- The waiters launched since tasks were numbered from `n`. -/
def launchedSince (n : Nat) (s : Interp) : List Waiter := s.waiters.filter (n ≤ ·.task)

/-- An interpreter with an activity of its own queue, the real time at which
that began to wait, when its park was armed, and what was granted when. -/
structure LocalClock where
  interp : Interp
  now : Seconds
  parkedAt : Seconds
  granted : List (Seconds × Grant)

def LocalClock.moved (c : LocalClock) (s : Interp) (t : Seconds) : LocalClock where
  interp := s
  now := t
  parkedAt := if (launchedSince c.interp.nextTask s).any (·.kind = .actS2c) then t else c.parkedAt
  granted := c.granted ++ ((launchedSince c.interp.nextTask s).filterMap Waiter.grant).map fun g => (t, g)

def AttemptEnvelope.endedAt : AttemptEnvelope → Seconds
  | ok _ t | failed _ t _ | asyncPending _ t => t

inductive LocalEvent
  | attempt (r : AttemptEnvelope)
  | slept
  | heartbeat (details : List Payload)
  | completion (how : Completion)
  /-- The park's own deadline. -/
  | deadline
  /-- The end of a heartbeat window. -/
  | window
  | elsewhere

/-- One event, at `t`. Recorded stamps are readings of the real clock, and a
sleep lasts as long as it was asked to. -/
inductive LocalStep (x : Execution) (env : Env) (seq : Nat) : LocalClock → LocalEvent → Seconds → LocalClock → Prop
  | attempt {c : LocalClock} {e : ActivityExec} {s : Interp} {t : Seconds} (r : AttemptEnvelope)
      (he : c.interp.Owns seq e) (hb : e.inBackoff = false) (hu : e.asyncPending = false) (ht : c.now ≤ t)
      (hr : r.endedAt = t)
      (hs : c.interp.deliverActivityEvent x env seq (.attempt r) = .ok s) :
      LocalStep x env seq c (.attempt r) t (c.moved s t)
  | slept {c : LocalClock} {e : ActivityExec} {s : Interp} (he : c.interp.Owns seq e) (hb : e.inBackoff = true)
      (hs : c.interp.deliverActivityEvent x env seq .slept = .ok s) :
      LocalStep x env seq c .slept (c.now + max 0 e.pendingWaitSeconds) (c.moved s (c.now + max 0 e.pendingWaitSeconds))
  | heartbeat {c : LocalClock} {e : ActivityExec} {s : Interp} {t : Seconds} (details : List Payload)
      (he : c.interp.Owns seq e) (hp : e.asyncPending = true) (ht : c.now ≤ t)
      (hs : c.interp.deliverInbox x env (some (.activityHeartbeat e.activityId details (some t))) = .ok s) :
      LocalStep x env seq c (.heartbeat details) t (c.moved s t)
  | completion {c : LocalClock} {e : ActivityExec} {s : Interp} {t : Seconds} (how : Completion)
      (he : c.interp.Owns seq e) (hp : e.asyncPending = true) (ht : c.now ≤ t)
      (hs : c.interp.deliverInbox x env (some (.activityResult e.activityId how (some t))) = .ok s) :
      LocalStep x env seq c (.completion how) t (c.moved s t)
  | deadline {c : LocalClock} {e : ActivityExec} {s : Interp} (he : c.interp.Owns seq e) (hp : e.asyncPending = true)
      (ht : c.now ≤ c.parkedAt + e.pendingWaitSeconds) (hs : c.interp.deliverParkTimeout env seq = .ok s) :
      LocalStep x env seq c .deadline (c.parkedAt + e.pendingWaitSeconds) (c.moved s (c.parkedAt + e.pendingWaitSeconds))
  | window {c : LocalClock} {e : ActivityExec} {s : Interp} {t : Seconds} (he : c.interp.Owns seq e)
      (hp : e.asyncPending = true) (ht : c.now ≤ t) (hs : c.interp.asyncHeartbeatCheck env seq = .ok s) :
      LocalStep x env seq c .window t (c.moved s t)
  /-- Whatever else the interpreter does: other events may move its clock, and
  launch other waiters. -/
  | elsewhere {c : LocalClock} {s : Interp} (hs : s.pendingActivities.get? seq = c.interp.pendingActivities.get? seq)
      (ht : c.interp.timeSeconds ≤ s.timeSeconds) (hw : ∀ w ∈ s.waiters, w.task < s.nextTask) :
      LocalStep x env seq c .elsewhere c.now { c with interp := s }

/-- A run from the first launch of an activity, whose steps all meet `P`. -/
inductive LocalRun (x : Execution) (env : Env) (seq : Nat) (e : ActivityExec)
    (P : LocalClock → LocalEvent → Seconds → Prop) : LocalClock → Prop
  | start {s s' : Interp} (he : s.Owns seq e) (hw : ∀ w ∈ s.waiters, w.task < s.nextTask)
      (ht : s.timeSeconds = e.scheduledAt) (hs : s.launchAttempt x seq e = .ok s') :
      LocalRun x env seq e P (LocalClock.moved ⟨s, e.scheduledAt, e.scheduledAt, []⟩ s' e.scheduledAt)
  | step {c c' : LocalClock} {ev : LocalEvent} {t : Seconds} (h : LocalRun x env seq e P c)
      (hs : LocalStep x env seq c ev t c') (hp : P c ev t) : LocalRun x env seq e P c'

/-- The step is charged: a window that ends a park finds the virtual clock at
that instant already, and no failure asks for a retry in the past. -/
def LocalClock.Charged (seq : Nat) (c : LocalClock) (ev : LocalEvent) (t : Seconds) : Prop :=
  match ev with
  | .attempt (.failed f _ _) => f.WaitsForward
  | .completion (.failed f) => f.WaitsForward
  | .window => ∀ e, c.interp.pendingActivities.get? seq = some e → e.asyncHbSeen = false → t ≤ c.interp.timeSeconds
  | _ => True

/-! ### What an event launches -/

/-- What `s'` has launched since `s` satisfies `P`; the rest was there. -/
structure Launches (P : Waiter → Prop) (s s' : Interp) : Prop where
  next : s.nextTask ≤ s'.nextTask
  waiters : ∀ w ∈ s'.waiters, w ∈ s.waiters ∨ s.nextTask ≤ w.task ∧ w.task < s'.nextTask ∧ P w

namespace Launches

variable {P : Waiter → Prop} {s s' s'' : Interp}

theorem of_subset (hn : s'.nextTask = s.nextTask) (hw : s'.waiters ⊆ s.waiters) : Launches P s s' :=
  ⟨hn.ge, fun _ h => .inl (hw h)⟩

theorem trans (h : Launches P s s') (h' : Launches P s' s'') : Launches P s s'' := by
  refine ⟨h.next.trans h'.next, ?_⟩
  intro w hw
  have hn := h.next
  have hn' := h'.next
  rcases h'.waiters w hw with hw | ⟨hlo, hhi, hp⟩
  · rcases h.waiters w hw with hw | ⟨hlo, hhi, hp⟩
    · exact .inl hw
    · exact .inr ⟨hlo, by omega, hp⟩
  · exact .inr ⟨by omega, hhi, hp⟩

theorem launch {kind : WaiterKind} {k : Nat} {op : Op} (h : P ⟨kind, k, s.nextTask, op⟩) :
    Launches P s (s.launchWaiter kind k op) := by
  refine ⟨Nat.le_succ _, ?_⟩
  intro w hw
  simp only [Interp.launchWaiter, List.mem_append, List.mem_singleton] at hw
  rcases hw with hw | rfl
  · exact .inl hw
  · exact .inr ⟨le_rfl, Nat.lt_succ_self _, h⟩

theorem bounded (h : Launches P s s') (hw : ∀ w ∈ s.waiters, w.task < s.nextTask) :
    ∀ w ∈ s'.waiters, w.task < s'.nextTask := by
  intro w hm
  have hn := h.next
  rcases h.waiters w hm with hm | ⟨-, hlt, -⟩
  · have := hw w hm
    omega
  · exact hlt

theorem since (h : Launches P s s') (hw : ∀ w ∈ s.waiters, w.task < s.nextTask) :
    ∀ w ∈ launchedSince s.nextTask s', P w := by
  intro w hm
  simp only [launchedSince, List.mem_filter, decide_eq_true_eq] at hm
  rcases h.waiters w hm.1 with hold | ⟨-, -, hp⟩
  · have := hw w hold
    omega
  · exact hp

end Launches

/-- A waiter launched at `t` whose grant keeps to the limit; a park's deadline
is armed no later than the virtual clock stands. -/
def Waiter.Fits (limit t v : Seconds) (w : Waiter) : Prop :=
  (∀ g, w.grant = some g → g.Within limit t) ∧ (w.kind = .actS2c → t ≤ v)

/-- What of an exec with a budget its attempts never change. -/
structure ActivityExec.Fixed (budget origin : Seconds) (e : ActivityExec) : Prop where
  close : e.scheduleToClose = some budget
  origin : e.scheduledAt = origin
  valid : e.retryPolicy.validate = none
  counted : 1 ≤ e.attempt
  live : e.futureCancelled = false
  asked : e.cancelRequested = false

/-- An exec with a budget, between two of its events: a backoff will end
inside the budget. -/
structure ActivityExec.Budgeted (budget origin now v : Seconds) (e : ActivityExec) : Prop where
  fixed : e.Fixed budget origin
  backoff : e.inBackoff = true → 0 ≤ e.pendingWaitSeconds ∧ now ≤ v ∧ now + e.pendingWaitSeconds < origin + budget
  parked : e.asyncPending = true → e.inBackoff = false

/-- Nothing is launched, and time does not go back. -/
structure Quiet (s s' : Interp) : Prop where
  next : s'.nextTask = s.nextTask
  waiters : s'.waiters ⊆ s.waiters
  time : s.timeSeconds ≤ s'.timeSeconds

namespace Quiet

variable {s s' s'' : Interp}

theorem trans (h : Quiet s s') (h' : Quiet s' s'') : Quiet s s'' :=
  ⟨h'.next.trans h.next, fun _ hw => h.waiters (h'.waiters hw), h.time.trans h'.time⟩

theorem set (s : Interp) (k : Nat) (f : ActivityExec → ActivityExec) : Quiet s (s.setActivity k f) :=
  ⟨rfl, fun _ h => h, le_rfl⟩

theorem pop (s : Interp) (k : Nat) : Quiet s (s.popActivity k) := ⟨rfl, fun _ h => h, le_rfl⟩

theorem retire (s : Interp) (k : Nat) : Quiet s (s.retireParkedTimers k) :=
  ⟨rfl, fun _ h => (List.mem_filter.1 h).1, le_rfl⟩

theorem wake (s : Interp) (r : Ready) : Quiet s (s.wake r) := ⟨rfl, fun _ h => h, le_rfl⟩

theorem await (s : Interp) : Quiet s s.await := ⟨rfl, fun _ h => h, le_rfl⟩

theorem awaitIf (s : Interp) (b : Bool) : Quiet s (s.awaitIf b) := by
  cases b <;> exact ⟨rfl, fun _ h => h, le_rfl⟩

theorem advance (s : Interp) (t : Seconds) : Quiet s (s.advanceTime (some t)) := by
  simp only [Interp.advanceTime]
  split
  · next h => exact ⟨rfl, fun _ h => h, h.le⟩
  · exact ⟨rfl, fun _ h => h, le_rfl⟩

end Quiet

/-- An exec changes, and a waiter that fits is launched for it. -/
theorem Launches.set_launch {limit t v : Seconds} {s : Interp} {f : ActivityExec → ActivityExec} {kind : WaiterKind}
    {k : Nat} {op : Op} (h : Waiter.Fits limit t v ⟨kind, k, s.nextTask, op⟩) :
    Launches (·.Fits limit t v) s ((s.setActivity k f).launchWaiter kind k op) :=
  have hset : Launches (·.Fits limit t v) s (s.setActivity k f) := .of_subset rfl fun _ h => h
  hset.trans (.launch h)

/-- What an event at `t` does for the activity `seq`: every waiter it
launches fits, and the exec it leaves is within its budget. -/
structure Took (budget origin : Seconds) (seq : Nat) (t : Seconds) (s s' : Interp) : Prop where
  launches : Launches (·.Fits (origin + budget) t s'.timeSeconds) s s'
  time : s.timeSeconds ≤ s'.timeSeconds
  exec : ∀ e, s'.pendingActivities.get? seq = some e → e.Budgeted budget origin t s'.timeSeconds

section

variable {x : Execution} {env : Env} {seq : Nat} {budget origin t : Seconds} {s s₁ s' : Interp} {e : ActivityExec}

theorem Took.after (hq : Quiet s s₁) (h : Took budget origin seq t s₁ s') : Took budget origin seq t s s' :=
  ⟨(Launches.of_subset hq.next hq.waiters).trans h.launches, hq.time.trans h.time, h.exec⟩

/-- The activity is gone. -/
theorem took_gone (hq : Quiet s s') (hg : s'.pendingActivities.get? seq = none) : Took budget origin seq t s s' :=
  ⟨.of_subset hq.next hq.waiters, hq.time, fun e he => by rw [hg] at he; cases he⟩

theorem took_resolve {o : ActivityOutcome} (h : (s.popActivity seq).resolveActivity seq e o = .ok s') :
    Took budget origin seq t s s' := by
  simp only [Interp.resolveActivity] at h
  split at h
  · exact absurd h raise_ne_ok
  · cases h
    exact took_gone ((Quiet.pop s seq).trans (.wake _ _)) (Py.Dict.get?_pop_self _ _)

/-- **A failure is retried within the budget**, or the activity is gone. -/
theorem took_retryOrFail {e₀ : ActivityExec} (he : s.pendingActivities.get? seq = some e₀) (h₀ : e₀.Fixed budget origin)
    (hu : e₀.asyncPending = false) (h : e.Fixed budget origin) (ht : t ≤ s.timeSeconds) {f : FailureEnvelope}
    (hf : f.WaitsForward) (hs : s.retryOrFail env seq e f = .ok s') : Took budget origin seq t s s' := by
  simp only [Interp.retryOrFail, bind_eq_ok] at hs
  obtain ⟨⟨delay, st⟩, hd, hs⟩ := hs
  cases delay with
  | none =>
    simp only [Interp.failActivity, bind_eq_ok] at hs
    obtain ⟨cause, -, hs⟩ := hs
    exact took_resolve hs
  | some d =>
    cases hs
    rw [lift_eq_ok, Interp.retryDecision, h.close, h.origin, Option.isSome_some, if_pos rfl] at hd
    obtain ⟨hnonneg, hlt⟩ := retryDecision_within h.valid h.counted hf hd
    have hlimit : t + d < origin + budget := by linarith
    refine ⟨.set_launch ⟨?_, fun hk => by cases hk⟩, le_rfl, ?_⟩
    · intro g hg
      cases hg
      exact hlimit
    · intro e' he'
      simp only [Interp.launchBackoff, Interp.launchWaiter, Interp.setActivity, Py.Dict.get?_modify_self, he,
        Option.map_some, Option.some.injEq] at he'
      subst he'
      exact ⟨⟨h₀.close, h₀.origin, h₀.valid, h₀.counted, h₀.live, h₀.asked⟩, fun _ => ⟨hnonneg, ht, hlimit⟩,
        fun hp => absurd (hu.symm.trans hp) (by decide)⟩

/-- **A park is armed within the budget.** -/
theorem took_park (he : s.pendingActivities.get? seq = some e) (h : e.Fixed budget origin) (hb : e.inBackoff = false)
    (ht : t ≤ s.timeSeconds) (a b : Seconds) : Took budget origin seq t s (s.parkActivity seq e a b) := by
  have hrem : e.scheduleToClose.map (fun b => b - ((s.setActivity seq .park).timeSeconds - e.scheduledAt)) =
      some (budget - (s.timeSeconds - origin)) := by
    rw [h.close, h.origin]
    rfl
  obtain ⟨d, hd, hle⟩ := effectiveDeadline_le (e.startToClose.map (· - max (b - a) 0)) (budget - (s.timeSeconds - origin))
  unfold Interp.parkActivity
  dsimp only
  rw [hrem]
  unfold Interp.armDeadline
  rw [hd]
  dsimp only
  have hfits : t + max (1 / 20) d ≤ origin + budget ∨ max (1 / 20) d ≤ 1 / 20 := by
    rcases le_total d (1 / 20) with hmin | hmin
    · exact .inr (by rw [max_eq_left hmin])
    · rw [max_eq_right hmin]
      rcases le_total 0 (budget - (s.timeSeconds - origin)) with h | h
      · rw [max_eq_right h] at hle; exact .inl (by linarith)
      · rw [max_eq_left h] at hle; linarith
  have hfit : Waiter.Fits (origin + budget) t s.timeSeconds ⟨.actS2c, seq, s.nextTask, .sleep (max (1 / 20) d)⟩ :=
    ⟨fun g hg => by cases hg; exact hfits, fun _ => ht⟩
  have hdeadline : ∀ f, Launches (·.Fits (origin + budget) t s.timeSeconds) s
      (((s.setActivity seq .park).setActivity seq f).launchWaiter .actS2c seq (.sleep (max (1 / 20) d))) :=
    fun f =>
      have hset : Launches (·.Fits (origin + budget) t s.timeSeconds) s (s.setActivity seq .park) :=
        .of_subset rfl fun _ h => h
      hset.trans (.set_launch hfit)
  unfold Interp.armHeartbeat
  cases e.heartbeatTimeout with
  | none =>
    refine ⟨hdeadline _, le_rfl, ?_⟩
    intro e' he'
    simp only [Interp.launchWaiter, Interp.setActivity, Py.Dict.get?_modify_self, he, Option.map_some,
      Option.some.injEq] at he'
    subst he'
    exact ⟨⟨h.close, h.origin, h.valid, h.counted, h.live, h.asked⟩, fun hbb => absurd (hb.symm.trans hbb) (by decide),
      fun _ => hb⟩
  | some hb' =>
    refine ⟨(hdeadline _).trans (.set_launch ⟨fun _ hg => (by cases hg), fun hk => by cases hk⟩), le_rfl, ?_⟩
    intro e' he'
    simp only [Interp.launchWaiter, Interp.setActivity, Py.Dict.get?_modify_self, he, Option.map_some,
      Option.some.injEq] at he'
    subst he'
    exact ⟨⟨h.close, h.origin, h.valid, h.counted, h.live, h.asked⟩, fun hbb => absurd (hb.symm.trans hbb) (by decide),
      fun _ => hb⟩

/-- **An attempt is launched within the budget.** -/
theorem took_launchAttempt {e₀ : ActivityExec} (he : s.pendingActivities.get? seq = some e₀)
    (h₀ : e₀.Fixed budget origin) (h : e.Fixed budget origin) (ht : t ≤ s.timeSeconds)
    (hlt : t < origin + budget) (hs : s.launchAttempt x seq e = .ok s') : Took budget origin seq t s s' := by
  simp only [Interp.launchAttempt, bind_eq_ok] at hs
  obtain ⟨_, -, hs⟩ := hs
  cases hs
  have hgrant := attempt_within (a := e.startToClose) hlt ht
  rw [show origin + budget - s.timeSeconds = budget - (s.timeSeconds - origin) by ring] at hgrant
  refine ⟨.set_launch ⟨?_, fun hk => by cases hk⟩, le_rfl, ?_⟩
  · intro g hg
    rw [h.close, h.origin] at hg
    cases hg
    exact hgrant
  · intro e' he'
    simp only [Interp.launchWaiter, Interp.setActivity, Py.Dict.get?_modify_self, he, Option.map_some,
      Option.some.injEq] at he'
    subst he'
    exact ⟨⟨h₀.close, h₀.origin, h₀.valid, h₀.counted, h₀.live, h₀.asked⟩, fun hb => (by cases hb), fun _ => rfl⟩

/-! ### One event -/

theorem took_attempt (he : s.pendingActivities.get? seq = some e) (h : e.Fixed budget origin) (hb : e.inBackoff = false)
    (hu : e.asyncPending = false) {r : AttemptEnvelope} (hr : r.endedAt = t)
    (hf : ∀ f b st, r = .failed f b st → f.WaitsForward)
    (hs : s.deliverActivityEvent x env seq (.attempt r) = .ok s') : Took budget origin seq t s s' := by
  subst hr
  have hadv : ∀ b, (s.advanceTime (some b)).pendingActivities.get? seq = some e := by
    intro b
    unfold Interp.advanceTime
    dsimp only
    split <;> exact he
  simp only [Interp.deliverActivityEvent, he, h.live, hb, Bool.false_eq_true, if_false] at hs
  cases r with
  | ok v b => exact (took_resolve hs).after (.advance s b)
  | failed f b st =>
    simp only [Interp.confirmsCancel, h.asked, Bool.false_eq_true, if_false, ok_bind] at hs
    exact (took_retryOrFail (hadv b) h hu h (le_advanceTime s b) (hf f b st rfl) hs).after (.advance s b)
  | asyncPending a b =>
    cases hs
    exact (took_park (hadv b) h hb (le_advanceTime s b) a b).after (.advance s b)

theorem took_slept {now : Seconds} (he : s.pendingActivities.get? seq = some e)
    (h : e.Budgeted budget origin now s.timeSeconds) (hb : e.inBackoff = true)
    (hs : s.deliverActivityEvent x env seq .slept = .ok s') :
    Took budget origin seq (now + max 0 e.pendingWaitSeconds) s s' := by
  obtain ⟨hnonneg, hnow, hlt⟩ := h.backoff hb
  simp only [Interp.deliverActivityEvent, he, h.fixed.live, hb, Bool.false_eq_true, if_false, if_true] at hs
  rw [max_eq_right hnonneg]
  have hadv := le_advanceTime s (s.timeSeconds + e.pendingWaitSeconds)
  have hfixed : e.nextAttempt.Fixed budget origin :=
    ⟨h.fixed.close, h.fixed.origin, h.fixed.valid, Nat.le_add_left 1 _, h.fixed.live, h.fixed.asked⟩
  refine Took.after ((Quiet.advance s (s.timeSeconds + e.pendingWaitSeconds)).trans (.set _ seq .nextAttempt))
    (took_launchAttempt ?_ hfixed hfixed ?_ hlt hs)
  · simp only [Interp.setActivity, Py.Dict.get?_modify_self, Interp.advanceTime]
    split <;> simp [he]
  · exact le_trans (by linarith) hadv

/-- A parked attempt fails: the park is over, the policy is asked. -/
theorem took_failAsync (he : s.pendingActivities.get? seq = some e) (h : e.Fixed budget origin) (ht : t ≤ s.timeSeconds)
    {f : FailureEnvelope} (hf : f.WaitsForward) (hs : s.failAsyncAttempt env seq e f = .ok s') :
    Took budget origin seq t s s' := by
  have hfixed : e.unpark.Fixed budget origin := ⟨h.close, h.origin, h.valid, h.counted, h.live, h.asked⟩
  refine (took_retryOrFail ?_ hfixed rfl hfixed ?_ hf hs).after (.set s seq .unpark)
  · simp only [Interp.setActivity, Py.Dict.get?_modify_self, he, Option.map_some]
  · exact ht

theorem took_parkedTimeout (he : s.pendingActivities.get? seq = some e) (h : e.Fixed budget origin)
    (hp : e.asyncPending = true) (ht : t ≤ s.timeSeconds) {ty : TimeoutType}
    (hs : s.asyncParkedTimeout env seq ty = .ok s') : Took budget origin seq t s s' := by
  simp only [Interp.asyncParkedTimeout, he, hp, not_true_eq_false, if_false] at hs
  exact (took_failAsync (s := s.retireParkedTimers seq) he h ht (timeoutFailure_waitsForward _ _) hs).after (.retire s seq)

theorem took_completion (he : s.Owns seq e) (h : e.Fixed budget origin) (hp : e.asyncPending = true)
    {how : Completion} (hf : ∀ f, how = .failed f → f.WaitsForward)
    (hs : s.deliverInbox x env (some (.activityResult e.activityId how (some t))) = .ok s') :
    Took budget origin seq t s s' := by
  have hadv : (s.advanceTime (some t)).Owns seq e := he.advanceTime _
  have hq := (Quiet.advance s t).trans (.retire _ seq)
  simp only [Interp.deliverInbox, Message.sentAt, Interp.applyActivityResult, hadv.byId hp] at hs
  cases how with
  | cancelled =>
    cases hs
    exact took_gone (hq.trans ((Quiet.pop _ seq).trans (.wake _ _))) (Py.Dict.get?_pop_self _ _)
  | ok r =>
    simp only [bind_eq_ok] at hs
    obtain ⟨v, -, hs⟩ := hs
    simp only [Interp.resolveActivity] at hs
    split at hs
    · exact absurd hs raise_ne_ok
    · cases hs
      exact took_gone (hq.trans ((Quiet.pop _ seq).trans ((Quiet.await _).trans (.wake _ _)))) (Py.Dict.get?_pop_self _ _)
  | failed f =>
    exact (took_failAsync (s := (s.advanceTime (some t)).retireParkedTimers seq) hadv.pending h (le_advanceTime s t)
      (hf f rfl) hs).after hq

theorem took_heartbeat (he : s.Owns seq e) (h : e.Fixed budget origin) (hb : e.inBackoff = false)
    (hp : e.asyncPending = true) {details : List Payload}
    (hs : s.deliverInbox x env (some (.activityHeartbeat e.activityId details (some t))) = .ok s') :
    Took budget origin seq t s s' := by
  have hadv : (s.advanceTime (some t)).Owns seq e := he.advanceTime _
  simp only [Interp.deliverInbox, Message.sentAt, Interp.applyActivityHeartbeat, hadv.byId hp, bind_eq_ok] at hs
  obtain ⟨_, -, hs⟩ := hs
  cases hs
  have hq := (Quiet.advance s t).trans ((Quiet.set _ seq (.heartbeat true)).trans (.awaitIf _ (!details.isEmpty)))
  have hexec := hadv.set (f := .heartbeat true) fun _ => rfl
  refine ⟨.of_subset hq.next hq.waiters, hq.time, ?_⟩
  intro e' he'
  have hsame : ((Interp.setActivity (s.advanceTime (some t)) seq (.heartbeat true)).awaitIf
      (!details.isEmpty)).pendingActivities.get? seq = some (e.heartbeat true) := by
    cases details.isEmpty <;> exact hexec.pending
  rw [hsame] at he'
  cases he'
  exact ⟨⟨h.close, h.origin, h.valid, h.counted, h.live, h.asked⟩, fun hbb => absurd (hb.symm.trans hbb) (by decide),
    fun _ => hb⟩

theorem took_deadline {parkedAt : Seconds} (he : s.pendingActivities.get? seq = some e) (h : e.Fixed budget origin)
    (hp : e.asyncPending = true) (hpark : parkedAt ≤ s.timeSeconds) (hs : s.deliverParkTimeout env seq = .ok s') :
    Took budget origin seq (parkedAt + e.pendingWaitSeconds) s s' := by
  simp only [Interp.deliverParkTimeout, he] at hs
  have hadv := le_advanceTime s (s.timeSeconds + e.pendingWaitSeconds)
  refine (took_parkedTimeout (e := e.charged) ?_ ⟨h.close, h.origin, h.valid, h.counted, h.live, h.asked⟩ hp ?_ hs).after
    ((Quiet.advance s (s.timeSeconds + e.pendingWaitSeconds)).trans (.set _ seq .charged))
  · simp only [Interp.setActivity, Py.Dict.get?_modify_self, Interp.advanceTime]
    split <;> simp [he]
  · exact le_trans (by linarith) hadv

theorem took_window (he : s.pendingActivities.get? seq = some e) (h : e.Fixed budget origin) (hb : e.inBackoff = false)
    (hp : e.asyncPending = true) (ht : e.asyncHbSeen = false → t ≤ s.timeSeconds)
    (hs : s.asyncHeartbeatCheck env seq = .ok s') : Took budget origin seq t s s' := by
  simp only [Interp.asyncHeartbeatCheck, he, hp, not_true_eq_false, if_false] at hs
  split at hs
  · next hseen => exact took_parkedTimeout he h hp (ht (by simpa using hseen)) hs
  · cases hhb : e.heartbeatTimeout with
    | none => rw [hhb] at hs; exact absurd hs raise_ne_ok
    | some w =>
      rw [hhb] at hs
      cases hs
      refine ⟨.set_launch ⟨fun _ hg => (by cases hg), fun hk => by cases hk⟩, le_rfl, ?_⟩
      intro e' he'
      simp only [Interp.launchWaiter, Interp.setActivity, Py.Dict.get?_modify_self, he, Option.map_some,
        Option.some.injEq] at he'
      subst he'
      exact ⟨⟨h.close, h.origin, h.valid, h.counted, h.live, h.asked⟩,
        fun hbb => absurd (hb.symm.trans hbb) (by decide), fun _ => hb⟩

end

/-! ### A run -/

/-- What a run of the interpreter keeps of the budget. -/
structure LocalClock.Kept (budget origin : Seconds) (seq : Nat) (c : LocalClock) : Prop where
  bound : ∀ w ∈ c.interp.waiters, w.task < c.interp.nextTask
  granted : ∀ g ∈ c.granted, g.2.Within (origin + budget) g.1
  parked : c.parkedAt ≤ c.interp.timeSeconds
  exec : ∀ e, c.interp.pendingActivities.get? seq = some e → e.Budgeted budget origin c.now c.interp.timeSeconds

section

variable {x : Execution} {env : Env} {seq : Nat} {budget origin t : Seconds} {c c' : LocalClock} {e : ActivityExec}

/-- An event that fits is recorded. -/
theorem LocalClock.Kept.moved (h : c.Kept budget origin seq) {s : Interp} (ht : Took budget origin seq t c.interp s) :
    (c.moved s t).Kept budget origin seq where
  bound := ht.launches.bounded h.bound
  granted := by
    intro g hg
    simp only [LocalClock.moved, List.mem_append, List.mem_map, List.mem_filterMap] at hg
    rcases hg with hg | ⟨g', ⟨w, hw, hg'⟩, rfl⟩
    · exact h.granted g hg
    · exact (ht.launches.since h.bound w hw).1 g' hg'
  parked := by
    simp only [LocalClock.moved]
    split
    · next hany =>
      obtain ⟨w, hw, hk⟩ := List.any_eq_true.1 hany
      exact (ht.launches.since h.bound w hw).2 (of_decide_eq_true hk)
    · exact h.parked.trans ht.time
  exec := ht.exec

/-- **A charged step of the interpreter keeps to the budget.** -/
theorem LocalStep.kept {ev : LocalEvent} (hs : LocalStep x env seq c ev t c') (hp : c.Charged seq ev t)
    (h : c.Kept budget origin seq) : c'.Kept budget origin seq := by
  cases hs with
  | attempt r he hb hu ht hr hs =>
    refine h.moved (took_attempt he.pending (h.exec _ he.pending).fixed hb hu hr ?_ hs)
    rintro f b st rfl
    exact hp
  | slept he hb hs => exact h.moved (took_slept he.pending (h.exec _ he.pending) hb hs)
  | heartbeat details he hpark ht hs =>
    have hex := h.exec _ he.pending
    exact h.moved (took_heartbeat he hex.fixed (hex.parked hpark) hpark hs)
  | completion how he hpark ht hs =>
    refine h.moved (took_completion he (h.exec _ he.pending).fixed hpark ?_ hs)
    rintro f rfl
    exact hp
  | deadline he hpark ht hs =>
    exact h.moved (took_deadline he.pending (h.exec _ he.pending).fixed hpark h.parked hs)
  | window he hpark ht hs =>
    have hex := h.exec _ he.pending
    exact h.moved (took_window he.pending hex.fixed (hex.parked hpark) hpark (hp _ he.pending) hs)
  | elsewhere hsame ht hw =>
    refine ⟨hw, h.granted, h.parked.trans ht, ?_⟩
    intro e he
    dsimp only at he
    rw [hsame] at he
    have hex := h.exec e he
    refine ⟨hex.fixed, fun hb => ?_, hex.parked⟩
    obtain ⟨hnonneg, hnow, hlt⟩ := hex.backoff hb
    exact ⟨hnonneg, hnow.trans ht, hlt⟩

/-- **The interpreter keeps to its budget** in every charged run. -/
theorem LocalRun.within (h : e.Fixed budget origin) (hpos : 0 < budget)
    (hr : LocalRun x env seq e (LocalClock.Charged seq) c) : c.Kept budget origin seq := by
  induction hr with
  | @start s s' he hw ht hs =>
    have hk : LocalClock.Kept budget origin seq ⟨{ s with pendingActivities := .empty }, e.scheduledAt, e.scheduledAt, []⟩ :=
      ⟨hw, by simp, ht.ge, fun e' he' => by cases he'⟩
    have htook := took_launchAttempt (t := e.scheduledAt) he.pending h h ht.ge (by rw [h.origin]; linarith) hs
    have hm := hk.moved (s := s') (t := e.scheduledAt) ⟨⟨htook.launches.next, htook.launches.waiters⟩, htook.time, htook.exec⟩
    exact hm
  | step _ hs hp ih => exact hs.kept hp ih

end

/-! ## Both paths -/

/-- An activity on a queue, eight seconds an attempt and ten in all. -/
def tenSeconds : QueuedActivity :=
  { activityName := "act", activityId := "1", startToClose := some 8, scheduleToClose := some 10, retryPolicy := none,
    startedAt := 0 }

theorem tenSeconds_initial : tenSeconds.initial = .attempting 1 (some 8) .startToClose := by
  have hd : effectiveDeadline (some 8) (some (10 - 0)) = (some 8, .startToClose) := by decide +kernel
  simp only [QueuedActivity.initial, tenSeconds, QueuedActivity.startedLate, QueuedActivity.begin, Option.map_some, hd,
    Bool.false_eq_true, if_false]

/-- The park times out: the retry is decided as if no time had passed. -/
theorem tenSeconds_timesOut :
    tenSeconds.nextReceived 1 0 8 .startToClose none = .backingOff 1 0 1 := by
  have hd : retryDecision tenSeconds.policy 1 DeadlineType.startToClose.failure (some (0 - tenSeconds.startedAt))
      tenSeconds.scheduleToClose = .ok (some 1, .inProgress) := by decide +kernel
  simp only [QueuedActivity.nextReceived, QueuedActivity.failAttempt, hd]
  rw [if_neg (by decide), show (0 : Seconds) - tenSeconds.startedAt = 0 by decide +kernel]

theorem tenSeconds_again : tenSeconds.nextSlept 1 0 1 = .attempting 2 (some 8) .startToClose := by
  have hd : effectiveDeadline (some 8) (some (10 - (0 + 1))) = (some 8, .startToClose) := by decide +kernel
  simp only [QueuedActivity.nextSlept, QueuedActivity.begin, tenSeconds, Option.map_some, hd]

end Dbosify
