/-
The two paths of an activity: attempts the interpreter retries itself
(`localPath`), and the loop of the activity workflow (`queuedPath`).

Both take the same sequence of attempts, and each verdict says what was
decided after one. They decide by the same policy, but the workflow ends on
a `CancelledError` the policy would retry, and what the interpreter raises
(a power without a float) the workflow returns as a failure. An asynchronous
result is decoded under two different hints (`paths_agree_iff`).
-/
import Dbosify.ActivityWorkflow

namespace Dbosify

/-- How an attempt ends, a park for external completion included. -/
inductive AttemptEnd
  | returns (result : Payload) (endedAt : Seconds)
  | fails (failure : FailureEnvelope) (endedAt : Seconds)
  /-- Parked, and completed from outside. -/
  | completes (startedAt endedAt sentAt : Seconds) (result : Payload)
  /-- Parked, and failed from outside. -/
  | failsOutside (startedAt endedAt sentAt : Seconds) (failure : FailureEnvelope)
  /-- Parked past its start-to-close timeout. -/
  | timesOut (startedAt endedAt : Seconds)

/-- The failure the policy is asked about. -/
def AttemptEnd.failure : AttemptEnd → Option FailureEnvelope
  | fails f _ | failsOutside _ _ _ f => some f
  | timesOut _ _ => some DeadlineType.startToClose.failure
  | returns _ _ | completes _ _ _ _ => none

/-- How the workflow's await resolves. -/
inductive Resolution
  | completed
  | failed
  | cancelled
  /-- The delivery raises. -/
  | raised
deriving DecidableEq

/-- The decision after an attempt. -/
inductive Verdict
  | retries (delay : Seconds)
  | stops (r : Resolution)
deriving DecidableEq

/-- The outcome a future was handed. -/
def ActivityOutcome.resolution : ActivityOutcome → Resolution
  | .completed _ => .completed
  | .failed _ => .failed
  | .cancelled => .cancelled

namespace Interp

/-- What a delivery decided about `seq`, read off the state it left. -/
def verdict (seq : Nat) : M Interp → Option Verdict
  | .error _ => some (.stops .raised)
  | .ok s =>
    match s.pendingActivities.get? seq with
    | some e => if e.inBackoff then some (.retries e.pendingWaitSeconds) else none
    | none =>
      match s.ready.getLast? with
      | some (.activity k o) => if k = seq then some (.stops o.resolution) else none
      | _ => none

/-! ## The local path -/

/-- The events of one attempt, as the interpreter gets them. -/
def localAttempt (x : Execution) (env : Env) (s : Interp) (seq : Nat) (e : ActivityExec) : AttemptEnd → M Interp
  | .returns result endedAt => s.deliverActivityEvent x env seq (decodeActivityResult x env e result endedAt)
  | .fails failure endedAt => s.deliverActivityEvent x env seq (.attempt (.failed failure endedAt none))
  | .completes startedAt endedAt sentAt result => do
    let s ← s.deliverActivityEvent x env seq (.attempt (.asyncPending startedAt endedAt))
    s.deliverInbox x env (some (.activityResult e.activityId (.ok result) (some sentAt)))
  | .failsOutside startedAt endedAt sentAt failure => do
    let s ← s.deliverActivityEvent x env seq (.attempt (.asyncPending startedAt endedAt))
    s.deliverInbox x env (some (.activityResult e.activityId (.failed failure) (some sentAt)))
  | .timesOut startedAt endedAt => do
    let s ← s.deliverActivityEvent x env seq (.attempt (.asyncPending startedAt endedAt))
    s.deliverParkTimeout env seq

/-- The verdicts over a sequence of attempts: after a backoff the next one. -/
def localPath (x : Execution) (env : Env) (seq : Nat) : Interp → List AttemptEnd → List (Option Verdict)
  | _, [] => []
  | s, a :: as =>
    match s.pendingActivities.get? seq with
    | none => []
    | some e =>
      let m := s.localAttempt x env seq e a
      verdict seq m ::
        match verdict seq m, m >>= fun s => s.deliverActivityEvent x env seq .slept with
        | some (.retries _), .ok s => localPath x env seq s as
        | some (.retries _), .error _ => [some (.stops .raised)]
        | _, _ => []

end Interp

/-! ## The queued path -/

namespace QueuedActivity

variable (q : QueuedActivity)

/-- The park receives. -/
def receive (m : Option ParkMessage) : QueuedState → QueuedState
  | .parked attempt endedAt timeout deadlineType => q.nextReceived attempt endedAt timeout deadlineType m
  | st => st

/-- The events of one attempt, as the activity workflow gets them. -/
def attemptEnds (attempt : Nat) (deadline : Option Seconds) (deadlineType : DeadlineType) : AttemptEnd → QueuedState
  | .returns result endedAt => q.nextAttempted attempt deadline deadlineType (.ok result endedAt)
  | .fails failure endedAt => q.nextAttempted attempt deadline deadlineType (.failed failure endedAt)
  | .completes startedAt endedAt sentAt result =>
    q.receive (some (.completion (.ok result) (some sentAt)))
      (q.nextAttempted attempt deadline deadlineType (.asyncPending startedAt endedAt))
  | .failsOutside startedAt endedAt sentAt failure =>
    q.receive (some (.completion (.failed failure) (some sentAt)))
      (q.nextAttempted attempt deadline deadlineType (.asyncPending startedAt endedAt))
  | .timesOut startedAt endedAt =>
    q.receive none (q.nextAttempted attempt deadline deadlineType (.asyncPending startedAt endedAt))

end QueuedActivity

/-- The end of the activity workflow reaches the interpreter. -/
def Interp.deliverQueuedEnd (x : Execution) (env : Env) (s : Interp) (seq : Nat) (e : ActivityExec) (st : QueuedState) :
    M Interp :=
  match awaitActivityResult env.now st with
  | some envelope => s.deliverQueuedActivityEvent env seq (envelope.decode x env e)
  | none => .ok s

/-- The verdicts of the activity workflow, the last one delivered to `s`. -/
def queuedPath (x : Execution) (env : Env) (s : Interp) (seq : Nat) (e : ActivityExec) (q : QueuedActivity) :
    QueuedState → List AttemptEnd → List (Option Verdict)
  | .attempting n d t, a :: as =>
    match q.attemptEnds n d t a with
    | .backingOff n elapsed delay =>
      some (.retries delay) :: queuedPath x env s seq e q (q.nextSlept n elapsed delay) as
    | st => [Interp.verdict seq (s.deliverQueuedEnd x env seq e st)]
  | _, _ => []

/-! ## The verdict on a failure -/

/-- Giving up on this failure. -/
def failVerdict (c : Converter) (failure : FailureEnvelope) : Verdict :=
  match deserializeFailure c failure with
  | .ok _ => .stops .failed
  | .error _ => .stops .raised

/-- What the interpreter decides about a failure. -/
def localVerdict (c : Converter) (p : RetryPolicy) (n : Nat) (failure : FailureEnvelope) : Verdict :=
  match retryDecision p n failure none none with
  | .error _ => .stops .raised
  | .ok (some d, _) => .retries d
  | .ok (none, _) => failVerdict c failure

/-- What the activity workflow decides about it. -/
def queuedVerdict (c : Converter) (p : RetryPolicy) (n : Nat) (failure : FailureEnvelope) : Verdict :=
  if failure.isCancelledError then failVerdict c failure
  else
    match retryDecision p n failure none none with
    | .error e => failVerdict c e.serialize
    | .ok (some d, _) => .retries d
    | .ok (none, _) => failVerdict c failure

/-- When the two agree about a failure: a cancellation finds no attempts left,
and another failure needs no power without a float. (A cancellation that does
both, and does not decode, raises on either path.) -/
def FailureAgrees (c : Converter) (p : RetryPolicy) (n : Nat) (failure : FailureEnvelope) : Prop :=
  if failure.isCancelledError then
    stopState p n failure ≠ none ∨ ¬ BackoffComputes p n failure ∧ ¬ DetailsDecode c failure
  else BackoffComputes p n failure

section

variable {c : Converter} {p : RetryPolicy} {n : Nat} {f : FailureEnvelope}

theorem failVerdict_ne_retries {d : Seconds} : failVerdict c f ≠ .retries d := by
  unfold failVerdict
  split <;> exact Verdict.noConfusion

theorem failVerdict_raised : failVerdict c f = .stops .raised ↔ ¬ DetailsDecode c f := by
  rw [← deserializeFailure_isOk]
  unfold failVerdict
  cases deserializeFailure c f <;> simp

/-- What the program's own exceptions serialize to has no details. -/
theorem failVerdict_serialize (e : Exc) : failVerdict c e.serialize = .stops .failed := by
  cases e <;> rfl

theorem retryDecision_stopped (h : stopState p n f ≠ none) : ∃ st, retryDecision p n f none none = .ok (none, st) := by
  obtain ⟨st, hst⟩ := Option.ne_none_iff_exists'.1 h
  exact ⟨st, by simp only [retryDecision, hst]⟩

/-- Nothing stops the retries: the decision is the backoff. -/
theorem retryDecision_goes (hv : p.validate = none) (hn : 1 ≤ n) (hs : stopState p n f = none)
    (hc : BackoffComputes p n f) : ∃ d, retryDecision p n f none none = .ok (some d, .inProgress) := by
  obtain ⟨r, hr⟩ := (decides_of_computes hv hn hc).1 none none
  simp only [retryDecision, hs, bind_eq_ok] at hr ⊢
  obtain ⟨d, hd, -⟩ := hr
  exact ⟨d, d, hd, rfl⟩

theorem retryDecision_overflows (hv : p.validate = none) (hn : 1 ≤ n) (hc : ¬ BackoffComputes p n f) :
    retryDecision p n f none none = .error .overflowError := by
  have hs : stopState p n f = none := by_contra fun hs => hc (.inl hs)
  exact retryDecision_raises (RetryPolicy.valid_of_validate hv fun ha => stopState_of_one ha hn hs).coefficient hc none none

/-- **One failure**: when the two paths decide the same. -/
theorem verdicts_eq_iff (hv : p.validate = none) (hn : 1 ≤ n) :
    localVerdict c p n f = queuedVerdict c p n f ↔ FailureAgrees c p n f := by
  unfold localVerdict queuedVerdict FailureAgrees
  by_cases hcan : f.isCancelledError = true
  · rw [if_pos hcan, if_pos hcan]
    by_cases hs : stopState p n f = none
    · by_cases hc : BackoffComputes p n f
      · obtain ⟨d, hd⟩ := retryDecision_goes hv hn hs hc
        rw [hd]
        simp [hs, hc, failVerdict_ne_retries.symm]
      · rw [retryDecision_overflows hv hn hc]
        simp only [hs, hc, ne_eq, not_true_eq_false, not_false_eq_true, true_and, false_or]
        rw [eq_comm, failVerdict_raised]
    · obtain ⟨st, hst⟩ := retryDecision_stopped hs
      rw [hst]
      simp [hs]
  · rw [if_neg hcan, if_neg hcan]
    by_cases hc : BackoffComputes p n f
    · obtain ⟨⟨d, st⟩, hr⟩ := (decides_of_computes hv hn hc).1 none none
      rw [hr]
      cases d <;> simp [hc]
    · rw [retryDecision_overflows hv hn hc]
      simp [hc, failVerdict_serialize]

end

/-! ## Verdicts along a sequence of attempts -/

/-- The verdicts of a path that decides by `v`. -/
def verdicts (v : Nat → AttemptEnd → Verdict) : Nat → List AttemptEnd → List (Option Verdict)
  | _, [] => []
  | n, a :: as =>
    some (v n a) ::
      match v n a with
      | .retries _ => verdicts v (n + 1) as
      | .stops _ => []

/-- What holds of each attempt reached: after each retry, the next. -/
def Along (v : Nat → AttemptEnd → Verdict) (P : Nat → AttemptEnd → Prop) : Nat → List AttemptEnd → Prop
  | _, [] => True
  | n, a :: as => P n a ∧ ∀ d, v n a = .retries d → Along v P (n + 1) as

/-- Two paths make the same verdicts exactly when they agree about each
attempt reached. -/
theorem verdicts_eq_along {v w : Nat → AttemptEnd → Verdict} : ∀ {n : Nat} {as : List AttemptEnd},
    verdicts v n as = verdicts w n as ↔ Along v (fun n a => v n a = w n a) n as
  | _, [] => by simp [verdicts, Along]
  | n, a :: as => by
    simp only [verdicts, Along, List.cons.injEq, Option.some.injEq]
    refine and_congr_right fun he => ?_
    rw [← he]
    cases v n a with
    | retries d => simp [verdicts_eq_along]
    | stops r => simp

theorem Along.congr {v : Nat → AttemptEnd → Verdict} {P Q : Nat → AttemptEnd → Prop} : ∀ {n : Nat} {as : List AttemptEnd},
    (∀ k, n ≤ k → ∀ a, P k a ↔ Q k a) → (Along v P n as ↔ Along v Q n as)
  | _, [], _ => by simp only [Along]
  | n, a :: as, h => by
    simp only [Along, h n le_rfl a]
    refine and_congr_right fun _ => forall_congr' fun d => imp_congr_right fun _ => ?_
    exact Along.congr fun k hk => h k (by omega)

/-! ## The local path decides by the local verdict -/

/-- The verdict on a result. -/
def resultVerdict (r : Except Exc Value) : Verdict :=
  match r with
  | .ok _ => .stops .completed
  | .error _ => .stops .raised

/-- The hint a returned result is decoded under, and a completed one on the
queued path. -/
def ActivityExec.resultHint (x : Execution) (e : ActivityExec) : Option Hint :=
  e.resultType <|> x.activityRetType e.activityName

/-- What the interpreter decides after an attempt. -/
def AttemptEnd.localVerdict (x : Execution) (env : Env) (e : ActivityExec) (n : Nat) : AttemptEnd → Verdict
  | .returns r _ => resultVerdict (decodeValue env.converter r (e.resultHint x))
  | .completes _ _ _ r => resultVerdict (decodeValue env.converter r (x.activityRetType e.activityName))
  | .fails f _ | .failsOutside _ _ _ f => Dbosify.localVerdict env.converter e.retryPolicy n f
  | .timesOut _ _ => Dbosify.localVerdict env.converter e.retryPolicy n DeadlineType.startToClose.failure

/-- What the activity workflow decides after one. -/
def AttemptEnd.queuedVerdict (x : Execution) (env : Env) (e : ActivityExec) (n : Nat) : AttemptEnd → Verdict
  | .returns r _ | .completes _ _ _ r => resultVerdict (decodeValue env.converter r (e.resultHint x))
  | .fails f _ | .failsOutside _ _ _ f => Dbosify.queuedVerdict env.converter e.retryPolicy n f
  | .timesOut _ _ => Dbosify.queuedVerdict env.converter e.retryPolicy n DeadlineType.startToClose.failure

/-- An attempt is running, nobody asked for a cancellation, and only
start-to-close bounds it. -/
structure ActivityExec.Plain (e : ActivityExec) : Prop where
  live : e.futureCancelled = false
  asked : e.cancelRequested = false
  running : e.inBackoff = false
  unparked : e.asyncPending = false
  unbounded : e.scheduleToClose = none
  bounded : e.startToClose.isSome = true

/-- What of an exec its attempts never change. -/
structure ActivityExec.Same (e e' : ActivityExec) : Prop where
  name : e'.activityName = e.activityName
  id : e'.activityId = e.activityId
  policy : e'.retryPolicy = e.retryPolicy
  start : e'.startToClose = e.startToClose
  close : e'.scheduleToClose = e.scheduleToClose
  result : e'.resultType = e.resultType
  live : e'.futureCancelled = e.futureCancelled
  asked : e'.cancelRequested = e.cancelRequested

namespace ActivityExec

theorem Same.refl (e : ActivityExec) : Same e e := ⟨rfl, rfl, rfl, rfl, rfl, rfl, rfl, rfl⟩

theorem Same.trans {e e' e'' : ActivityExec} (h : Same e e') (h' : Same e' e'') : Same e e'' where
  name := h'.name.trans h.name
  id := h'.id.trans h.id
  policy := h'.policy.trans h.policy
  start := h'.start.trans h.start
  close := h'.close.trans h.close
  result := h'.result.trans h.result
  live := h'.live.trans h.live
  asked := h'.asked.trans h.asked

end ActivityExec

namespace Interp

/-- `seq` is pending as `e`, and no other pending activity has its id. -/
structure Owns (s : Interp) (seq : Nat) (e : ActivityExec) : Prop where
  pending : s.pendingActivities.get? seq = some e
  only : ∀ k e', s.pendingActivities.get? k = some e' → e'.activityId = e.activityId → k = seq

variable {x : Execution} {env : Env} {s s' : Interp} {seq : Nat} {e : ActivityExec}

theorem Owns.of_eq (h : s.Owns seq e) (he : s'.pendingActivities = s.pendingActivities) : s'.Owns seq e := by
  constructor
  · rw [he]; exact h.pending
  · rw [he]; exact h.only

theorem Owns.advanceTime (h : s.Owns seq e) (t : Option Seconds) : (s.advanceTime t).Owns seq e := by
  refine h.of_eq ?_
  unfold Interp.advanceTime
  split
  · split <;> rfl
  · rfl

theorem Owns.launch (h : s.Owns seq e) (kind : WaiterKind) (k : Nat) (op : Op) : (s.launchWaiter kind k op).Owns seq e :=
  h.of_eq rfl

theorem Owns.retire (h : s.Owns seq e) (k : Nat) : (s.retireParkedTimers k).Owns seq e := h.of_eq rfl

theorem Owns.set (h : s.Owns seq e) {f : ActivityExec → ActivityExec} (hf : ∀ e, (f e).activityId = e.activityId) :
    (s.setActivity seq f).Owns seq (f e) := by
  constructor
  · simp only [setActivity, Py.Dict.get?_modify_self, h.pending, Option.map_some]
  · intro k e' hk hid
    rw [hf] at hid
    by_cases hks : k = seq
    · exact hks
    · simp only [setActivity, Py.Dict.get?_modify_other _ _ hks] at hk
      exact h.only k e' hk hid

/-- A parked activity is found by its id. -/
theorem Owns.byId (h : s.Owns seq e) (hp : e.asyncPending = true) : s.asyncPendingById e.activityId = some (seq, e) := by
  have hmem : (seq, e) ∈ s.pendingActivities.entries := Py.Dict.mem_entries_iff.2 h.pending
  unfold asyncPendingById
  cases hf : s.pendingActivities.entries.find? fun e' => e'.2.activityId = e.activityId ∧ e'.2.asyncPending with
  | none =>
    have := List.find?_eq_none.1 hf _ hmem
    simp [hp] at this
  | some r =>
    obtain ⟨k, e'⟩ := r
    have hr := List.find?_some hf
    simp only [decide_eq_true_eq] at hr
    have hk : s.pendingActivities.get? k = some e' := Py.Dict.mem_entries_iff.1 (List.mem_of_find?_eq_some hf)
    obtain rfl := h.only k e' hk hr.1
    rw [h.pending] at hk
    cases hk
    rfl

/-! ### A failure -/

variable (env) in
/-- The verdict on a failure, and the state a retry leaves. -/
theorem verdict_retryOrFail (h : s.Owns seq e) (hlive : e.futureCancelled = false) (hclose : e.scheduleToClose = none)
    (f : FailureEnvelope) :
    verdict seq (s.retryOrFail env seq e f) = some (localVerdict env.converter e.retryPolicy e.attempt f) ∧
      ∀ d, localVerdict env.converter e.retryPolicy e.attempt f = .retries d →
        s.retryOrFail env seq e f = .ok (s.launchBackoff seq d) := by
  have hdec : s.retryDecision e f = Dbosify.retryDecision e.retryPolicy e.attempt f none none := by
    simp only [retryDecision, hclose, retryDecision_no_budget]
  simp only [retryOrFail, hdec, localVerdict]
  cases Dbosify.retryDecision e.retryPolicy e.attempt f none none with
  | error exc => exact ⟨rfl, fun d hd => by cases hd⟩
  | ok r =>
    obtain ⟨d, st⟩ := r
    simp only [lift_ok, ok_bind]
    cases d with
    | some d =>
      refine ⟨?_, fun d' hd => by cases hd; rfl⟩
      have hb := (h.set (f := .backOff d) fun _ => rfl).launch .activity seq (.sleep d)
      simp only [verdict, launchBackoff, hb.pending]
      rfl
    | none =>
      refine ⟨?_, fun d hd => absurd hd failVerdict_ne_retries⟩
      simp only [failActivity, activityFailureCause, failVerdict]
      cases deserializeFailure env.converter f with
      | error exc => rfl
      | ok cause =>
        have hgone : (s.popActivity seq).pendingActivities.get? seq = none := Py.Dict.get?_pop_self _ _
        simp only [ok_bind]
        split
        all_goals
          simp only [pure, Except.pure, lift_ok, ok_bind, resolveActivity, hlive, Bool.false_eq_true, if_false, verdict,
            wake, hgone, List.getLast?_concat, if_true]
          rfl

/-- A park: the exec is parked, and what the attempts share is as it was. -/
theorem owns_park (h : s.Owns seq e) (a b : Seconds) :
    ∃ e', (s.parkActivity seq e a b).Owns seq e' ∧ e.Same e' ∧ e'.attempt = e.attempt ∧ e'.inBackoff = e.inBackoff ∧
      e'.asyncPending = true ∧
      (e.startToClose.isSome = true → e.scheduleToClose = none → e'.asyncParkTimeoutType = .startToClose) := by
  have hp : (s.setActivity seq .park).Owns seq e.park := h.set fun _ => rfl
  unfold parkActivity
  dsimp only
  generalize hd : effectiveDeadline (e.startToClose.map (· - max (b - a) 0)) _ = d
  obtain ⟨e₁, h₁, hs₁, ha₁, hb₁, hp₁, ht₁⟩ : ∃ e₁, ((s.setActivity seq .park).armDeadline seq d).Owns seq e₁ ∧ e.Same e₁ ∧
      e₁.attempt = e.attempt ∧ e₁.inBackoff = e.inBackoff ∧ e₁.asyncPending = true ∧
      (e.startToClose.isSome = true → e.scheduleToClose = none → e₁.asyncParkTimeoutType = .startToClose) := by
    unfold armDeadline
    cases hd₁ : d.1 with
    | none =>
      refine ⟨_, hp, ⟨rfl, rfl, rfl, rfl, rfl, rfl, rfl, rfl⟩, rfl, rfl, rfl, ?_⟩
      intro hs hc
      have hsome := effectiveDeadline_isSome (e.startToClose.map (· - max (b - a) 0))
        (e.scheduleToClose.map fun b => b - ((s.setActivity seq .park).timeSeconds - e.scheduledAt))
      rw [hd, hd₁] at hsome
      simp [hs] at hsome
    | some t =>
      refine ⟨_, (hp.set (f := .parkFor d.2.timeoutType (max (1 / 20) t)) fun _ => rfl).launch .actS2c seq _,
        ⟨rfl, rfl, rfl, rfl, rfl, rfl, rfl, rfl⟩, rfl, rfl, rfl, ?_⟩
      intro hs hc
      obtain ⟨v, hv⟩ := Option.isSome_iff_exists.1 hs
      rw [hv, hc] at hd
      simp only [Option.map_some, Option.map_none, effectiveDeadline] at hd
      rw [← hd]
      rfl
  unfold armHeartbeat
  cases e.heartbeatTimeout with
  | none => exact ⟨e₁, h₁, hs₁, ha₁, hb₁, hp₁, ht₁⟩
  | some hb =>
    exact ⟨_, (h₁.set (f := .heartbeat false) fun _ => rfl).launch .actHb seq _,
      hs₁.trans ⟨rfl, rfl, rfl, rfl, rfl, rfl, rfl, rfl⟩, ha₁, hb₁, hp₁, ht₁⟩

/-! ### An attempt -/

theorem deliver_failed (h : s.Owns seq e) (hp : e.Plain) (f : FailureEnvelope) (t : Seconds) :
    s.deliverActivityEvent x env seq (.attempt (.failed f t none)) = (s.advanceTime (some t)).retryOrFail env seq e f := by
  simp only [deliverActivityEvent, h.pending, hp.live, hp.running, confirmsCancel, hp.asked, Bool.false_eq_true, if_false,
    ok_bind]

theorem deliver_pending (h : s.Owns seq e) (hp : e.Plain) (a b : Seconds) :
    s.deliverActivityEvent x env seq (.attempt (.asyncPending a b)) =
      .ok ((s.advanceTime (some b)).parkActivity seq e a b) := by
  simp only [deliverActivityEvent, h.pending, hp.live, hp.running, Bool.false_eq_true, if_false]

theorem verdict_resolve_completed (hlive : e.futureCancelled = false) (hgone : s.pendingActivities.get? seq = none)
    (v : Value) : verdict seq (s.resolveActivity seq e (.completed v)) = some (.stops .completed) := by
  simp only [resolveActivity, hlive, Bool.false_eq_true, if_false, verdict, wake, hgone, List.getLast?_concat, if_true]
  rfl

theorem verdict_returned (h : s.Owns seq e) (hp : e.Plain) (r : Payload) (t : Seconds) :
    verdict seq (s.deliverActivityEvent x env seq (decodeActivityResult x env e r t)) =
      some (resultVerdict (decodeValue env.converter r (e.resultHint x))) := by
  unfold decodeActivityResult ActivityExec.resultHint
  cases decodeValue env.converter r (e.resultType <|> x.activityRetType e.activityName) with
  | ok v =>
    simp only [deliverActivityEvent, h.pending, hp.live, hp.running, Bool.false_eq_true, if_false, resultVerdict]
    exact verdict_resolve_completed hp.live (Py.Dict.get?_pop_self _ _) v
  | error exc =>
    cases exc
    all_goals
      simp only [deliverActivityEvent, h.pending, hp.live, hp.running, Bool.false_eq_true, if_false, resultVerdict, raise,
        verdict]

variable (x env) in
/-- A parked activity's completion arrives. -/
theorem deliver_result (h : s.Owns seq e) (hp : e.asyncPending = true) (c : Completion) (t : Seconds) :
    ∃ s₁ : Interp, s₁.Owns seq e ∧ s.deliverInbox x env (some (.activityResult e.activityId c (some t))) =
      match c with
      | .cancelled => .ok ((s₁.popActivity seq).wake (.activity seq .cancelled))
      | .ok result => do
        let value ← lift (s₁.popActivity seq).await (decodeValue env.converter result (x.activityRetType e.activityName))
        (s₁.popActivity seq).await.resolveActivity seq e (.completed value)
      | .failed failure => s₁.failAsyncAttempt env seq e failure := by
  have hadv : (s.advanceTime (some t)).Owns seq e := h.advanceTime _
  refine ⟨(s.advanceTime (some t)).retireParkedTimers seq, hadv.of_eq rfl, ?_⟩
  cases c <;> simp only [deliverInbox, Message.sentAt, applyActivityResult, hadv.byId hp]

variable (x env) in
/-- **A local attempt that fails**: the policy is asked about the failure, a
park's outcome like an attempt's own. -/
theorem localAttempt_failure (h : s.Owns seq e) (hp : e.Plain) {a : AttemptEnd} {f : FailureEnvelope}
    (hf : a.failure = some f) :
    ∃ (s₁ : Interp) (e₁ : ActivityExec), s₁.Owns seq e₁ ∧ e.Same e₁ ∧ e₁.attempt = e.attempt ∧ e₁.asyncPending = false ∧
      s.localAttempt x env seq e a = s₁.retryOrFail env seq e₁ f := by
  cases a with
  | returns | completes => cases hf
  | fails f' t =>
    cases hf
    exact ⟨_, e, h.advanceTime _, .refl e, rfl, hp.unparked, deliver_failed h hp f t⟩
  | failsOutside a b t f' =>
    cases hf
    obtain ⟨e₁, h₁, hs₁, ha₁, -, hp₁, -⟩ := owns_park (h.advanceTime (some b)) a b
    obtain ⟨s₂, h₂, heq⟩ := deliver_result x env h₁ hp₁ (.failed f) t
    refine ⟨s₂.setActivity seq .unpark, e₁.unpark, h₂.set fun _ => rfl,
      hs₁.trans ⟨rfl, rfl, rfl, rfl, rfl, rfl, rfl, rfl⟩, ha₁, rfl, ?_⟩
    simp only [localAttempt, deliver_pending h hp, ok_bind]
    rw [← hs₁.id, heq]
    rfl
  | timesOut a b =>
    cases hf
    obtain ⟨e₁, h₁, hs₁, ha₁, -, hp₁, ht₁⟩ := owns_park (h.advanceTime (some b)) a b
    have ht : e₁.asyncParkTimeoutType = .startToClose := ht₁ hp.bounded hp.unbounded
    simp only [localAttempt, deliver_pending h hp, ok_bind, deliverParkTimeout, h₁.pending, ht]
    have h₂ := (h₁.advanceTime (some ((((s.advanceTime (some b)).parkActivity seq e a b).timeSeconds) +
      e₁.pendingWaitSeconds))).set (f := .charged) fun _ => rfl
    simp only [asyncParkedTimeout, h₂.pending]
    rw [if_neg (by simp [ActivityExec.charged, hp₁])]
    exact ⟨_, e₁.charged.unpark, (h₂.retire seq).set (f := .unpark) fun _ => rfl, hs₁.trans ⟨rfl, rfl, rfl, rfl, rfl, rfl, rfl, rfl⟩, ha₁,
      rfl, rfl⟩

/-- **The verdict on a local attempt.** -/
theorem verdict_localAttempt (h : s.Owns seq e) (hp : e.Plain) (a : AttemptEnd) :
    verdict seq (s.localAttempt x env seq e a) = some (a.localVerdict x env e e.attempt) := by
  cases hf : a.failure with
  | some f =>
    obtain ⟨s₁, e₁, h₁, hs₁, ha₁, -, heq⟩ := localAttempt_failure x env h hp hf
    rw [heq, (verdict_retryOrFail env h₁ (hs₁.live.trans hp.live) (hs₁.close.trans hp.unbounded) f).1, hs₁.policy, ha₁]
    cases a <;> cases hf <;> rfl
  | none =>
    cases a with
    | fails | failsOutside | timesOut => cases hf
    | returns r t => exact verdict_returned h hp r t
    | completes a b t r =>
      obtain ⟨e₁, h₁, hs₁, -, -, hp₁, -⟩ := owns_park (h.advanceTime (some b)) a b
      obtain ⟨s₂, h₂, heq⟩ := deliver_result x env h₁ hp₁ (.ok r) t
      simp only [localAttempt, deliver_pending h hp, ok_bind]
      rw [← hs₁.id, heq]
      simp only [AttemptEnd.localVerdict, hs₁.name]
      cases decodeValue env.converter r (x.activityRetType e.activityName) with
      | error exc => rfl
      | ok v => exact verdict_resolve_completed (hs₁.live.trans hp.live) (Py.Dict.get?_pop_self _ _) v

variable (x env) in
/-- After a retry's backoff the next attempt runs. -/
theorem owns_retried (h : s.Owns seq e) (hp : e.Plain) (hr : x.registered e.activityName = true) {a : AttemptEnd}
    {d : Seconds} (hv : a.localVerdict x env e e.attempt = .retries d) :
    ∃ s' e', s.localAttempt x env seq e a >>= (fun s => s.deliverActivityEvent x env seq .slept) = .ok s' ∧
      s'.Owns seq e' ∧ e'.Plain ∧ e.Same e' ∧ e'.attempt = e.attempt + 1 := by
  have hf : ∃ f, a.failure = some f ∧ Dbosify.localVerdict env.converter e.retryPolicy e.attempt f = .retries d := by
    cases a with
    | returns | completes =>
      simp only [AttemptEnd.localVerdict, resultVerdict] at hv
      split at hv <;> cases hv
    | fails f | failsOutside _ _ _ f => exact ⟨f, rfl, hv⟩
    | timesOut => exact ⟨_, rfl, hv⟩
  obtain ⟨f, hf, hv⟩ := hf
  obtain ⟨s₁, e₁, h₁, hs₁, ha₁, hu₁, heq⟩ := localAttempt_failure x env h hp hf
  have hret := (verdict_retryOrFail env h₁ (hs₁.live.trans hp.live) (hs₁.close.trans hp.unbounded) f).2 d
    (by rw [hs₁.policy, ha₁]; exact hv)
  have hb := (h₁.set (f := .backOff d) fun _ => rfl).launch .activity seq (.sleep d)
  rw [heq, hret, ok_bind]
  have hreg : x.registered (e₁.backOff d).nextAttempt.activityName = true := by
    rw [show (e₁.backOff d).nextAttempt.activityName = e.activityName from hs₁.name]; exact hr
  simp only [deliverActivityEvent, launchBackoff, hb.pending]
  rw [show (e₁.backOff d).futureCancelled = false from hs₁.live.trans hp.live]
  simp only [Bool.false_eq_true, if_false, show (e₁.backOff d).inBackoff = true from rfl, if_true, launchAttempt,
    attemptStepFor, hreg, ok_bind]
  refine ⟨_, (e₁.backOff d).nextAttempt.launched, rfl,
    (((hb.advanceTime _).set (f := .nextAttempt) fun _ => rfl).set (f := .launched) fun _ => rfl).launch _ _ _,
    ⟨hs₁.live.trans hp.live, hs₁.asked.trans hp.asked, rfl, hu₁, hs₁.close.trans hp.unbounded, ?_⟩,
    hs₁.trans ⟨rfl, rfl, rfl, rfl, rfl, rfl, rfl, rfl⟩, congrArg (· + 1) ha₁⟩
  rw [show (e₁.backOff d).nextAttempt.launched.startToClose = e₁.startToClose from rfl, hs₁.start]
  exact hp.bounded

/-- Attempts of the same activity get the same verdicts. -/
theorem localVerdict_same {e' : ActivityExec} (h : e.Same e') (n : Nat) (a : AttemptEnd) :
    a.localVerdict x env e' n = a.localVerdict x env e n := by
  cases a <;> simp only [AttemptEnd.localVerdict, ActivityExec.resultHint, h.name, h.policy, h.result]

/-- **The local path decides by the local verdict.** -/
theorem localPath_eq (hr : x.registered e.activityName = true) (as : List AttemptEnd) :
    ∀ {s : Interp} {e' : ActivityExec}, s.Owns seq e' → e'.Plain → e.Same e' →
      localPath x env seq s as = verdicts (fun n a => a.localVerdict x env e n) e'.attempt as := by
  induction as with
  | nil => intro s e' _ _ _; rfl
  | cons a as ih =>
    intro s e' h hp hs
    simp only [localPath, h.pending, verdict_localAttempt h hp, verdicts, localVerdict_same hs]
    cases hv : a.localVerdict x env e e'.attempt with
    | stops r => rfl
    | retries d =>
      obtain ⟨s', e'', hnext, h'', hp'', hs'', hn⟩ := owns_retried x env h hp (by rw [hs.name]; exact hr)
        (by rw [localVerdict_same hs]; exact hv)
      simp only [hnext]
      rw [ih h'' hp'' (hs.trans hs''), hn]

end Interp

/-! ## The queued path decides by the queued verdict -/

section

variable {x : Execution} {env : Env} {s : Interp} {seq : Nat} {e : ActivityExec} {q : QueuedActivity}

/-- The end of the activity workflow, delivered: giving up on a failure. -/
theorem verdict_queuedFailed (h : s.Owns seq e) (hlive : e.futureCancelled = false) (hask : e.cancelRequested = false)
    (f : FailureEnvelope) (t : Seconds) (st : Option RetryState) :
    Interp.verdict seq (s.deliverQueuedActivityEvent env seq (.attempt (.failed f t st))) =
      some (failVerdict env.converter f) := by
  simp only [Interp.deliverQueuedActivityEvent, h.pending, hlive, Interp.confirmsCancel, hask, Bool.false_eq_true,
    if_false, ok_bind, Interp.failActivity, Interp.activityFailureCause, failVerdict]
  cases deserializeFailure env.converter f with
  | error exc => rfl
  | ok cause =>
    have hadv := (h.advanceTime (some t)).pending
    have hgone : (((s.advanceTime (some t)).popActivity seq).popActivity seq).pendingActivities.get? seq = none :=
      Py.Dict.get?_pop_self _ _
    simp only [ok_bind]
    split
    all_goals
      simp only [pure, Except.pure, lift_ok, ok_bind, Interp.resolveActivity, hlive, Bool.false_eq_true, if_false,
        Interp.verdict, Interp.wake, hgone, List.getLast?_concat, if_true]
      rfl

/-- And a result. -/
theorem verdict_queuedReturned (h : s.Owns seq e) (hlive : e.futureCancelled = false) (r : Payload) (t : Seconds) :
    Interp.verdict seq (s.deliverQueuedActivityEvent env seq (decodeActivityResult x env e r t)) =
      some (resultVerdict (decodeValue env.converter r (e.resultHint x))) := by
  unfold decodeActivityResult ActivityExec.resultHint
  cases decodeValue env.converter r (e.resultType <|> x.activityRetType e.activityName) with
  | ok v =>
    simp only [Interp.deliverQueuedActivityEvent, h.pending, hlive, Bool.false_eq_true, if_false, resultVerdict]
    exact Interp.verdict_resolve_completed hlive (Py.Dict.get?_pop_self _ _) v
  | error exc =>
    cases exc
    all_goals
      simp only [Interp.deliverQueuedActivityEvent, h.pending, hlive, Bool.false_eq_true, if_false, resultVerdict, raise,
        Interp.verdict]

variable (x env) in
/-- A failed attempt of the activity workflow: retried, or its end. -/
theorem failAttempt_verdict (hq : q.policy = e.retryPolicy) (hclose : q.scheduleToClose = none) (h : s.Owns seq e)
    (hlive : e.futureCancelled = false) (hask : e.cancelRequested = false) (n : Nat) (f : FailureEnvelope) (t : Seconds) :
    (∃ elapsed d, q.failAttempt n f t = .backingOff n elapsed d ∧
      queuedVerdict env.converter e.retryPolicy n f = .retries d) ∨
    (∀ k elapsed d, q.failAttempt n f t ≠ .backingOff k elapsed d) ∧
      (∀ d, queuedVerdict env.converter e.retryPolicy n f ≠ .retries d) ∧
      Interp.verdict seq (s.deliverQueuedEnd x env seq e (q.failAttempt n f t)) =
        some (queuedVerdict env.converter e.retryPolicy n f) := by
  unfold QueuedActivity.failAttempt queuedVerdict
  by_cases hcan : f.isCancelledError = true
  · rw [if_pos hcan, if_pos hcan]
    exact .inr ⟨nofun, fun d => failVerdict_ne_retries, verdict_queuedFailed h hlive hask f t none⟩
  · rw [if_neg hcan, if_neg hcan]
    simp only [hclose, hq, retryDecision_no_budget]
    cases retryDecision e.retryPolicy n f none none with
    | error exc =>
      exact .inr ⟨nofun, fun d => failVerdict_ne_retries, verdict_queuedFailed h hlive hask _ env.now none⟩
    | ok r =>
      obtain ⟨d, st⟩ := r
      cases d with
      | some d => exact .inl ⟨_, d, rfl, rfl⟩
      | none => exact .inr ⟨nofun, fun d => failVerdict_ne_retries, verdict_queuedFailed h hlive hask f t (some st)⟩

variable (x env) in
/-- What an attempt of the activity workflow comes to. -/
theorem attemptEnds_eq (n : Nat) (d : Option Seconds) (a : AttemptEnd) :
    (∃ f t, a.failure = some f ∧ q.attemptEnds n d .startToClose a = q.failAttempt n f t) ∨
    (∃ r t, q.attemptEnds n d .startToClose a = .returned (.ok r t) ∧
      a.queuedVerdict x env e n = resultVerdict (decodeValue env.converter r (e.resultHint x))) := by
  cases a with
  | returns r t | completes _ _ t r => exact .inr ⟨r, t, rfl, rfl⟩
  | fails f t | failsOutside _ _ t f => exact .inl ⟨f, t, rfl, rfl⟩
  | timesOut a b => exact .inl ⟨_, b, rfl, rfl⟩

theorem queuedVerdict_failure {a : AttemptEnd} {f : FailureEnvelope} (hf : a.failure = some f) (n : Nat) :
    a.queuedVerdict x env e n = queuedVerdict env.converter e.retryPolicy n f := by
  cases a <;> cases hf <;> rfl

/-- **The queued path decides by the queued verdict.** -/
theorem queuedPath_eq (hq : q.policy = e.retryPolicy) (hclose : q.scheduleToClose = none) (h : s.Owns seq e)
    (hlive : e.futureCancelled = false) (hask : e.cancelRequested = false) (as : List AttemptEnd) :
    ∀ n elapsed, queuedPath x env s seq e q (q.begin n elapsed) as =
      verdicts (fun n a => a.queuedVerdict x env e n) n as := by
  have hbegin : ∀ n elapsed, ∃ d, q.begin n elapsed = .attempting n d .startToClose := by
    intro n elapsed
    unfold QueuedActivity.begin
    rw [hclose]
    cases q.startToClose <;> exact ⟨_, rfl⟩
  induction as with
  | nil =>
    intro n elapsed
    obtain ⟨d, hd⟩ := hbegin n elapsed
    rw [hd]
    rfl
  | cons a as ih =>
    intro n elapsed
    obtain ⟨d, hd⟩ := hbegin n elapsed
    rw [hd]
    simp only [queuedPath, verdicts]
    rcases attemptEnds_eq x env (e := e) (q := q) n d a with ⟨f, t, hf, heq⟩ | ⟨r, t, heq, hv⟩
    · rw [heq, queuedVerdict_failure hf]
      rcases failAttempt_verdict x env hq hclose h hlive hask n f t with ⟨el, dl, hb, hv⟩ | ⟨hb, hnr, hv⟩
      · rw [hb, hv]
        exact congrArg _ (ih _ _)
      · split
        · next hb' => exact absurd hb' (hb _ _ _)
        · rw [hv]
          split
          · next hr => exact absurd hr (hnr _)
          · rfl
    · rw [heq, hv]
      simp only [Interp.deliverQueuedEnd, awaitActivityResult, QueuedEnvelope.decode, verdict_queuedReturned h hlive]
      unfold resultVerdict
      split <;> rfl

end

/-! ## When the two paths agree -/

/-- The two paths treat this end of attempt `n` alike. -/
def AttemptEnd.Agrees (x : Execution) (env : Env) (e : ActivityExec) (n : Nat) : AttemptEnd → Prop
  | .returns _ _ => True
  | .completes _ _ _ r =>
    (decodeValue env.converter r (x.activityRetType e.activityName)).isOk =
      (decodeValue env.converter r (e.resultHint x)).isOk
  | .fails f _ | .failsOutside _ _ _ f => FailureAgrees env.converter e.retryPolicy n f
  | .timesOut _ _ => FailureAgrees env.converter e.retryPolicy n DeadlineType.startToClose.failure

/-- The policy has the attempt retried. -/
def RetryPolicy.Retries (p : RetryPolicy) (n : Nat) (failure : FailureEnvelope) : Prop :=
  stopState p n failure = none ∧ BackoffComputes p n failure

/-- Every attempt reached, from attempt `n` on, is one the two paths treat
alike. -/
def PathsAgree (x : Execution) (env : Env) (e : ActivityExec) : Nat → List AttemptEnd → Prop
  | _, [] => True
  | n, a :: as => a.Agrees x env e n ∧
    ((∃ f, a.failure = some f ∧ e.retryPolicy.Retries n f) → PathsAgree x env e (n + 1) as)

section

variable {x : Execution} {env : Env} {e : ActivityExec}

theorem resultVerdict_eq_iff {a b : Except Exc Value} : resultVerdict a = resultVerdict b ↔ a.isOk = b.isOk := by
  cases a <;> cases b <;> simp [resultVerdict, Except.isOk, Except.toBool]

theorem agrees_iff (hv : e.retryPolicy.validate = none) {n : Nat} (hn : 1 ≤ n) (a : AttemptEnd) :
    a.localVerdict x env e n = a.queuedVerdict x env e n ↔ a.Agrees x env e n := by
  cases a with
  | returns r t => simp [AttemptEnd.localVerdict, AttemptEnd.queuedVerdict, AttemptEnd.Agrees]
  | completes a b t r => exact resultVerdict_eq_iff
  | fails f t | failsOutside a b t f => exact verdicts_eq_iff hv hn
  | timesOut a b => exact verdicts_eq_iff hv hn

variable (x env) in
/-- The interpreter retries what the policy has retried. -/
theorem localVerdict_retries_iff (hv : e.retryPolicy.validate = none) {n : Nat} (hn : 1 ≤ n) (a : AttemptEnd) :
    (∃ d, a.localVerdict x env e n = .retries d) ↔ ∃ f, a.failure = some f ∧ e.retryPolicy.Retries n f := by
  have hfail : ∀ f, (∃ d, localVerdict env.converter e.retryPolicy n f = .retries d) ↔ e.retryPolicy.Retries n f := by
    intro f
    unfold localVerdict RetryPolicy.Retries
    by_cases hs : stopState e.retryPolicy n f = none
    · by_cases hc : BackoffComputes e.retryPolicy n f
      · obtain ⟨d, hd⟩ := retryDecision_goes hv hn hs hc
        simp [hd, hs, hc]
      · simp [retryDecision_overflows hv hn hc, hc]
    · obtain ⟨st, hst⟩ := retryDecision_stopped hs
      simp [hst, hs, failVerdict_ne_retries]
  cases a with
  | returns | completes =>
    simp only [AttemptEnd.localVerdict, AttemptEnd.failure, resultVerdict]
    constructor
    · rintro ⟨d, hd⟩
      split at hd <;> cases hd
    · rintro ⟨f, hf, -⟩
      cases hf
  | fails f | failsOutside _ _ _ f => simpa [AttemptEnd.localVerdict, AttemptEnd.failure] using hfail f
  | timesOut => simpa [AttemptEnd.localVerdict, AttemptEnd.failure] using hfail DeadlineType.startToClose.failure

theorem along_iff (hv : e.retryPolicy.validate = none) : ∀ {n : Nat} {as : List AttemptEnd}, 1 ≤ n →
    (Along (fun n a => a.localVerdict x env e n) (fun n a => a.localVerdict x env e n = a.queuedVerdict x env e n) n as ↔
      PathsAgree x env e n as)
  | _, [], _ => by simp [Along, PathsAgree]
  | n, a :: as, hn => by
    simp only [Along, PathsAgree, agrees_iff hv hn]
    refine and_congr_right fun _ => ?_
    rw [← localVerdict_retries_iff x env hv hn, forall_exists_index]
    exact forall_congr' fun d => imp_congr_right fun _ => along_iff hv (by omega)

end

/-- An activity under the default policy. -/
def plainExec : ActivityExec :=
  { activityName := "act", args := [], retryPolicy := {}, startToClose := some 10, scheduleToClose := none,
    activityId := "1", scheduledAt := 0 }

/-- The same activity on another queue. -/
def queuedExec : ActivityExec := { plainExec with taskQueue := some "other" }

/-- An interpreter with one pending activity. -/
def Interp.awaiting (e : ActivityExec) : Interp := { pendingActivities := Py.Dict.empty.set 1 e }

theorem owns_awaiting (e : ActivityExec) : (Interp.awaiting e).Owns 1 e := by
  refine ⟨Py.Dict.get?_set_self _ _ _, ?_⟩
  intro k e' hk _
  by_contra hne
  rw [Interp.awaiting, Py.Dict.get?_set_other _ _ hne] at hk
  cases hk

/-- A `CancelledError` the activity raises itself. -/
def ownCancellation : FailureEnvelope := { info := .cancelledError [], message := "Cancelled" }

end Dbosify
