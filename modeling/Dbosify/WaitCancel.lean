/-
Activities asked to confirm their cancellation.

`handle.cancel()` on an activity of the type WAIT_CANCELLATION_COMPLETED only
notes the request, and leaves the exec open for its attempt to unwind. The
handlers of the events that follow look at the note in one case alone, when an
attempt fails with a cancellation: a backoff that ends launches the next
attempt all the same, and any other failure is retried as ever. From a request
made outside a backoff on, no attempt starts in a run that reports no failure
that is retried (`cancelled_starts_nothing`).
-/
import Dbosify.ActivityFrames

namespace Dbosify

open Py (Dict)

/-! ## What an attempt comes to -/

/-- How an attempt ends, by itself or, once it is parked, from outside. -/
inductive AttemptConclusion
  | returned (result : Value)
  | failed (failure : FailureEnvelope)
  | cancelled

/-- What is reported of an activity: the attempt it is at, and how that ends. -/
structure AttemptReport where
  attempt : Nat
  converter : Converter
  ending : AttemptConclusion

/-- The outcome handed to the awaiting code is what was reported. -/
def AttemptReport.Answers (e : ActivityExec) (a : AttemptReport) : ActivityOutcome → Prop
  | .completed v => a.ending = .returned v
  | .cancelled => a.ending = .cancelled ∨ ∃ f, a.ending = .failed f ∧ f.isCancelledError = true
  | .failed err => ∃ f st cause, a.ending = .failed f ∧ Interp.activityFailureCause a.converter f st = .ok cause ∧
      err = Interp.activityError e "Activity task failed" st cause

/-- The policy retries the failure at this time: nothing stops the retries,
and the budget outlasts the backoff. -/
def ActivityExec.retries (now : Seconds) (e : ActivityExec) (f : FailureEnvelope) : Bool :=
  (stopState e.retryPolicy e.attempt f).isNone &&
    match backoff e.retryPolicy e.attempt f with
    | .ok delay => e.scheduleToClose.all fun budget => now - e.scheduledAt + delay < budget
    | .error _ => false

/-- What no event changes of a pending activity but one that starts an
attempt. -/
def ActivityExec.standing (e : ActivityExec) : (String × String) × (Nat × Bool) × Bool × Bool :=
  ((e.activityName, e.activityId), (e.attempt, e.inBackoff), e.cancelRequested, e.futureCancelled)

/-- The exec of an activity that was asked to unwind its attempt when it was
`e₀`: it is at that attempt still. -/
structure ActivityExec.Unwinds (e₀ e : ActivityExec) : Prop where
  name : e.activityName = e₀.activityName
  id : e.activityId = e₀.activityId
  attempt : e.attempt = e₀.attempt
  running : e.inBackoff = false
  asked : e.cancelRequested = true ∨ e.futureCancelled = true

theorem ActivityExec.Unwinds.of_standing {e₀ e e' : ActivityExec} (h : e₀.Unwinds e) (hs : e'.standing = e.standing) :
    e₀.Unwinds e' := by
  simp only [standing, Prod.mk.injEq] at hs
  obtain ⟨⟨hn, hi⟩, ⟨ha, hb⟩, hr, hc⟩ := hs
  exact ⟨hn.trans h.name, hi.trans h.id, ha.trans h.attempt, hb.trans h.running, hr ▸ hc ▸ h.asked⟩

namespace Interp

/-- How a parked attempt ends by a completion from outside. -/
def endedOutside (x : Execution) (env : Env) (e : ActivityExec) : Completion → Option AttemptConclusion
  | .ok p => (decodeValue env.converter p (x.activityRetType e.activityName)).toOption.map .returned
  | .failed f => some (.failed f)
  | .cancelled => some .cancelled

/-- How the attempt of `e`, the exec of `k`, ends by an event. -/
def ended (x : Execution) (env : Env) (s : Interp) (k : Nat) (e : ActivityExec) (w : Waiter) (r : TaskResult) :
    Option AttemptConclusion :=
  match w.kind with
  | .activity | .qActivity =>
    match r with
    | .attempt (.ok v _) => if w.seq = k then some (.returned v) else none
    | .attempt (.failed f _ _) => if w.seq = k then some (.failed f) else none
    | _ => none
  | .actS2c =>
    if w.seq = k ∧ e.asyncPending then
      some (.failed (timeoutFailure (parkedTimeoutMessage e.asyncParkTimeoutType) e.asyncParkTimeoutType))
    else none
  | .actHb =>
    if w.seq = k ∧ e.asyncPending ∧ ¬ e.asyncHbSeen then
      some (.failed (timeoutFailure (parkedTimeoutMessage .heartbeat) .heartbeat))
    else none
  | .inbox =>
    match r with
    | .message (some (.activityResult i c _)) =>
      if (s.asyncPendingById i).map (·.1) = some k then endedOutside x env e c else none
    | _ => none
  | .timer | .child => none

/-- What an event reports of the activity `k`. -/
def report (x : Execution) (env : Env) (s : Interp) (k : Nat) (w : Waiter) (r : TaskResult) : Option AttemptReport :=
  (s.pendingActivities.get? k).bind fun e => (s.ended x env k e w r).map fun a => ⟨e.attempt, env.converter, a⟩

/-- The time to which an event that ends an attempt moves the clock. -/
def eventTime (s : Interp) (e : ActivityExec) (w : Waiter) (r : TaskResult) : Seconds :=
  match w.kind, r with
  | .activity, .attempt (.failed _ endedAt _) => max s.timeSeconds endedAt
  | .actS2c, _ => max s.timeSeconds (s.timeSeconds + e.pendingWaitSeconds)
  | .inbox, .message (some m) => m.sentAt.elim s.timeSeconds (max s.timeSeconds)
  | _, _ => s.timeSeconds

/-- The event reports a failure of `k` that is retried: none of an activity
on another worker, and no cancellation with which an attempt unwinds. -/
def reportsRetried (x : Execution) (k : Nat) (env : Env) (s : Interp) (w : Waiter) (r : TaskResult) : Bool :=
  match s.pendingActivities.get? k with
  | none => false
  | some e =>
    match s.ended x env k e w r with
    | some (.failed f) =>
      w.kind != .qActivity && !(w.kind == .activity && f.isCancelledError) && e.retries (s.eventTime e w r) f
    | _ => false

/-! ## What spares an activity -/

/-- The attempt of `k` an act launches. -/
def actAttempt (k : Nat) : Coop.Act Op → Option Nat
  | .launch (.attempt j n _ _) => if j = k then some n else none
  | _ => none

/-- The attempts of `k` launched so far. -/
def attemptsOf (k : Nat) (s : Interp) : List Nat := s.acts.filterMap (actAttempt k)

/-- The outcomes of `k` that wait for the drain. -/
def outcomesOf (k : Nat) (s : Interp) : List ActivityOutcome :=
  s.resolved.filterMap fun p => if p.1 = k then some p.2 else none

/-- No attempt of `k` starts, its exec stands as it stood or is dropped, and
what is handed over of it meets `A`. -/
structure Spared (k : Nat) (A : ActivityOutcome → Prop) (s s' : Interp) : Prop where
  attempts : s'.attemptsOf k = s.attemptsOf k
  exec : ∀ {e'}, s'.pendingActivities.get? k = some e' → ∃ e, s.pendingActivities.get? k = some e ∧ e'.standing = e.standing
  handed : ∃ l, s'.outcomesOf k = s.outcomesOf k ++ l ∧ ∀ o ∈ l, A o
  seq : s'.activitySeq = s.activitySeq
  commands : s'.commands ⊆ s.commands

variable {x : Execution} {env : Env} {s s' : Interp} {k : Nat} {A B : ActivityOutcome → Prop}

theorem attemptsOf_emit (s : Interp) (a : Coop.Act Op) :
    (s.emit a).attemptsOf k = s.attemptsOf k ++ (actAttempt k a).toList := by
  rw [attemptsOf, acts_emit, List.filterMap_append]
  rfl

theorem actAttempt_plain {a : Coop.Act Op} (ha : actPlain a = true) : actAttempt k a = none := by
  cases a with
  | launch o =>
    cases o with
    | attempt j n d t => cases ha
    | _ => rfl
  | _ => rfl

namespace Spared

/-- All of this is left alone. -/
theorem still (ha : s'.attemptsOf k = s.attemptsOf k) (hp : s'.pendingActivities = s.pendingActivities)
    (hr : s'.resolved = s.resolved) (hn : s'.activitySeq = s.activitySeq) (hc : s'.commands = s.commands) :
    Spared k A s s' where
  attempts := ha
  exec he := ⟨_, hp ▸ he, rfl⟩
  handed := ⟨[], by rw [outcomesOf, hr, List.append_nil]; rfl, fun _ h => by cases h⟩
  seq := hn
  commands := hc ▸ List.Subset.refl _

theorem mono (h : Spared k A s s') (hab : ∀ o, A o → B o) : Spared k B s s' where
  attempts := h.attempts
  exec := h.exec
  handed := h.handed.imp fun _ hl => ⟨hl.1, fun o ho => hab o (hl.2 o ho)⟩
  seq := h.seq
  commands := h.commands

theorem trans {t : Interp} (h : Spared k A s t) (h' : Spared k A t s') : Spared k A s s' where
  attempts := h'.attempts.trans h.attempts
  exec he := by
    obtain ⟨e₁, h₁, hs₁⟩ := h'.exec he
    obtain ⟨e₀, h₀, hs₀⟩ := h.exec h₁
    exact ⟨e₀, h₀, hs₁.trans hs₀⟩
  handed := by
    obtain ⟨l, hl, ha⟩ := h.handed
    obtain ⟨l', hl', ha'⟩ := h'.handed
    refine ⟨l ++ l', by rw [hl', hl, List.append_assoc], fun o ho => ?_⟩
    rcases List.mem_append.1 ho with ho | ho
    · exact ha o ho
    · exact ha' o ho
  seq := h'.seq.trans h.seq
  commands := List.Subset.trans h'.commands h.commands

theorem emit {a : Coop.Act Op} (ha : actAttempt k a = none) (s : Interp) : Spared k A s (s.emit a) :=
  .still (by rw [attemptsOf_emit, ha, Option.toList_none, List.append_nil]) rfl rfl rfl rfl

/-- An exec changes that is not the activity's, or not where it stands. -/
theorem modify {j : Nat} {f : ActivityExec → ActivityExec} (hf : j = k → ∀ e, (f e).standing = e.standing) (s : Interp) :
    Spared k A s (s.setActivity j f) where
  attempts := rfl
  exec {e'} he := by
    change (s.pendingActivities.modify j f).get? k = some e' at he
    rw [Dict.get?_modify] at he
    split at he
    · next hj =>
      obtain ⟨e, he₀, rfl⟩ := Option.map_eq_some_iff.1 he
      exact ⟨e, hj ▸ he₀, hf hj.symm e⟩
    · exact ⟨_, he, rfl⟩
  handed := ⟨[], (List.append_nil _).symm, fun _ h => by cases h⟩
  seq := rfl
  commands := List.Subset.refl _

/-- An outcome is handed over. -/
theorem wake {j : Nat} {o : ActivityOutcome} (ho : j = k → A o) (s : Interp) : Spared k A s (s.wake (.activity j o)) where
  attempts := rfl
  exec he := ⟨_, he, rfl⟩
  handed := by
    have hr : (s.wake (.activity j o)).outcomesOf k = s.outcomesOf k ++ (if j = k then [o] else []) := by
      change ((s.ready ++ [Ready.activity j o]).filterMap Ready.activity?).filterMap _ = _
      rw [List.filterMap_append, List.filterMap_append]
      refine congrArg (s.outcomesOf k ++ ·) ?_
      split
      · next hj => simp [Ready.activity?, hj]
      · next hj => simp [Ready.activity?, hj]
    refine ⟨_, hr, fun o' h => ?_⟩
    split at h
    · next hj => rw [List.mem_singleton.1 h]; exact ho hj
    · cases h
  seq := rfl
  commands := List.Subset.refl _

end Spared

instance : ActivityFrame ⟨(· ≠ k), fun _ => True, True⟩ (Spared k A) where
  refl s := .still rfl rfl rfl rfl rfl
  trans := .trans
  act ha s := .emit (actAttempt_plain ha) s
  other h _ := .still (congrArg (fun c : Core => c.acts.filterMap (actAttempt k)) h) (congrArg Core.pendingActivities h)
    (congrArg Core.resolved h) (congrArg Core.activitySeq h) (congrArg Core.commands h)
  modify hj _ s := .modify (fun h => absurd h hj) s
  pop s j :=
    { attempts := rfl
      exec := fun he => ⟨_, (Dict.get?_pop_some.1 he).2, rfl⟩
      handed := ⟨[], (List.append_nil _).symm, fun _ h => by cases h⟩
      seq := rfl
      commands := List.Subset.refl _ }
  resolve hj s _ := .wake (fun h => absurd h hj) s
  attempt {j} hj s n d t := .emit (a := .launch (.attempt j n d t)) (if_neg hj) s
  dispatch hj _ s d := .modify (fun h => absurd h hj) s
  mark _ _ _ := .emit rfl _

instance : QueueFrame env (Spared k A) where
  ownQueue x s := by
    unfold resolveOwnQueue
    split
    · exact Frame.refl s
    · exact Spared.trans (t := s.step (.status x.workflowId)) (.emit rfl s) (.still rfl rfl rfl rfl rfl)

instance : MessageFrame (Spared k A) where
  message h := .still (congrArg (fun c : ActivityCore => c.acts.filterMap (actAttempt k)) h)
    (congrArg ActivityCore.pendingActivities h) (congrArg ActivityCore.resolved h)
    (congrArg ActivityCore.activitySeq h) (congrArg ActivityCore.commands h)
  publish s _ _ _ := .emit rfl s

/-! ## The activity's own events -/

/-- The activity `k` since its cancellation was asked for. -/
structure Unwinding (k : Nat) (e₀ : ActivityExec) (s : Interp) : Prop where
  seq : k ≤ s.activitySeq
  command : .activity k ∉ s.commands
  exec : ∀ {e}, s.pendingActivities.get? k = some e → e₀.Unwinds e

variable {e₀ e : ActivityExec} {w : Waiter} {r : TaskResult}

theorem Unwinding.spared (h : s.Unwinding k e₀) (hs : Spared k A s s') : s'.Unwinding k e₀ where
  seq := hs.seq ▸ h.seq
  command hc := h.command (hs.commands hc)
  exec he := by
    obtain ⟨e, he, heq⟩ := hs.exec he
    exact (h.exec he).of_standing heq

/-- What an event reports is an outcome that may be handed over. -/
def Reported (x : Execution) (env : Env) (s : Interp) (k : Nat) (w : Waiter) (r : TaskResult) (e₀ : ActivityExec)
    (o : ActivityOutcome) : Prop := ∃ a, s.report x env k w r = some a ∧ a.Answers e₀ o

theorem Reported.of_ended (he : s.pendingActivities.get? k = some e) {a : AttemptConclusion}
    (ha : s.ended x env k e w r = some a) {o : ActivityOutcome}
    (ho : AttemptReport.Answers e₀ ⟨e.attempt, env.converter, a⟩ o) : s.Reported x env k w r e₀ o :=
  ⟨_, by rw [report, he, Option.bind_some, ha]; rfl, ho⟩

/-- A failure is reported, and fails the activity. -/
theorem Reported.failed (he : s.pendingActivities.get? k = some e) (hu : e₀.Unwinds e) {f : FailureEnvelope}
    (ha : s.ended x env k e w r = some (.failed f)) {st : Option RetryState} {cause : FailureError}
    (hc : activityFailureCause env.converter f st = .ok cause) :
    s.Reported x env k w r e₀ (.failed (activityError e "Activity task failed" st cause)) := by
  refine .of_ended he ha ⟨f, st, cause, rfl, hc, ?_⟩
  rw [activityError, hu.name, hu.id]
  rfl

theorem retries_of_retryDecision {f : FailureEnvelope} {d : Seconds} {st : RetryState}
    (h : s.retryDecision e f = .ok (some d, st)) : e.retries s.timeSeconds f = true := by
  unfold retryDecision Dbosify.retryDecision at h
  unfold ActivityExec.retries
  cases hs : stopState e.retryPolicy e.attempt f with
  | some st => rw [hs] at h; cases h
  | none =>
    rw [hs] at h
    cases hb : backoff e.retryPolicy e.attempt f with
    | error x => rw [hb] at h; cases h
    | ok delay =>
      cases hbudget : e.scheduleToClose with
      | none => simp
      | some budget =>
        simp only [hb, hbudget, ok_bind, Option.isSome_some, if_true] at h
        split at h
        · cases h
        · next hlt => simpa using hlt

/-- What the confirmation of a cancellation says of the failure. -/
theorem confirmsCancel_ok {f : FailureEnvelope} {c : Bool} (hr : e.cancelRequested = true)
    (h : s.confirmsCancel env e f = .ok c) : f.isCancelledError = c := by
  unfold confirmsCancel at h
  rw [if_pos hr] at h
  cases hd : deserializeFailure env.converter f with
  | error x => rw [hd] at h; cases h
  | ok cause =>
    rw [hd] at h
    cases h
    exact (deserializeFailure_isCancelledError hd).symm

/-! ### Pieces -/

theorem timeSeconds_advanceTime (s : Interp) (t : Option Seconds) :
    (s.advanceTime t).timeSeconds = t.elim s.timeSeconds (max s.timeSeconds) := by
  cases t with
  | none => rfl
  | some t =>
    simp only [advanceTime, Option.elim_some]
    split
    · next h => exact (max_eq_right h.le).symm
    · next h => exact (max_eq_left (not_lt.1 h)).symm

theorem spared_self {f : ActivityExec → ActivityExec} (hf : ∀ e, (f e).standing = e.standing) (s : Interp) :
    Spared k A s (s.setActivity k f) := .modify (fun _ => hf) s

theorem along_resolved {o : ActivityOutcome} (ho : A o) : Along (Spared k A) s id (s.resolveActivity k e o) := by
  unfold resolveActivity
  split
  · exact .raises _
  · exact .ok (.wake (fun _ => ho) s)

theorem along_failed {f : FailureEnvelope} {st : Option RetryState}
    (ho : ∀ cause, activityFailureCause env.converter f st = .ok cause →
      A (.failed (activityError e "Activity task failed" st cause))) :
    Along (Spared k A) s id (s.failActivity env k e f st) := by
  unfold failActivity
  refine .after (ActivityFrame.pop s k) ?_
  cases hc : activityFailureCause env.converter f st with
  | error x => exact .raises _
  | ok cause => exact along_resolved (ho cause hc)

/-- A failure that is not retried starts nothing. -/
theorem along_notRetried {f : FailureEnvelope} (hret : e.retries s.timeSeconds f = false)
    (ho : ∀ st cause, activityFailureCause env.converter f st = .ok cause →
      A (.failed (activityError e "Activity task failed" st cause))) :
    Along (Spared k A) s id (s.retryOrFail env k e f) := by
  unfold retryOrFail
  cases hd : s.retryDecision e f with
  | error x => exact .raises _
  | ok d =>
    obtain ⟨_ | delay, st⟩ := d
    · exact along_failed (ho _)
    · rw [retries_of_retryDecision hd] at hret
      cases hret

theorem spared_armDeadline (s : Interp) (d : Option Seconds × DeadlineType) : Spared k A s (s.armDeadline k d) := by
  unfold armDeadline
  split
  · next t _ =>
    exact Frame.trans (spared_self (f := .parkFor d.2.timeoutType (max (1 / 20) t)) (fun _ => rfl) s)
      (Frame.launchWaiter rfl _ _ _)
  · exact Frame.refl s

theorem spared_armHeartbeat (s : Interp) (d : Option Seconds) : Spared k A s (s.armHeartbeat k d) := by
  unfold armHeartbeat
  split
  · exact Frame.trans (spared_self (f := .heartbeat false) (fun _ => rfl) s) (Frame.launchWaiter rfl _ _ _)
  · exact Frame.refl s

theorem spared_parkActivity (s : Interp) (e : ActivityExec) (a b : Seconds) : Spared k A s (s.parkActivity k e a b) := by
  have hpark : Spared k A s (s.setActivity k .park) := spared_self (f := .park) (fun _ => rfl) s
  exact Frame.trans hpark (Frame.trans (spared_armDeadline _ _) (spared_armHeartbeat _ _))

/-- The end of a park whose failure is not retried. -/
theorem along_parkEnds {f : FailureEnvelope} (hret : e.retries s.timeSeconds f = false)
    (ho : ∀ st cause, activityFailureCause env.converter f st = .ok cause →
      A (.failed (activityError e "Activity task failed" st cause))) :
    Along (Spared k A) s id ((s.retireParkedTimers k).failAsyncAttempt env k e f) := by
  refine .after (frame_retireParkedTimers s k) ?_
  exact .after (spared_self (f := .unpark) (fun _ => rfl) _) (along_notRetried (e := e.unpark) hret ho)

/-! ### Events -/

theorem along_attemptEnds (hu : s.Unwinding k e₀) (hw : w.kind = .activity) (hk : w.seq = k)
    (hfin : s.reportsRetried x k env w r = false) :
    Along (Spared k (s.Reported x env k w r e₀)) s id (s.deliverActivityEvent x env k r) := by
  unfold deliverActivityEvent
  split
  · exact .ok (ActivityFrame.pop s k)
  · next e he =>
    have hue := hu.exec he
    split
    · exact .ok (ActivityFrame.pop s k)
    · next hfut =>
      have hasked : e.cancelRequested = true := hue.asked.resolve_right hfut
      rw [if_neg (by rw [hue.running]; exact Bool.false_ne_true)]
      split
      · next a b => exact .ok (Frame.trans (frame_advanceTime s (some b)) (spared_parkActivity _ _ _ _))
      · next v b =>
        have hends : s.ended x env k e w (.attempt (.ok v b)) = some (.returned v) := by simp [ended, hw, hk]
        refine .after (frame_advanceTime s (some b)) (.after (ActivityFrame.pop _ k) (along_resolved ?_))
        exact .of_ended he hends rfl
      · next f b st =>
        have hends : s.ended x env k e w (.attempt (.failed f b st)) = some (.failed f) := by simp [ended, hw, hk]
        refine .after (frame_advanceTime s (some b)) (along_confirmsCancel.bind_eq fun c hc => ?_)
        have hcancel := confirmsCancel_ok hasked hc
        cases c with
        | true =>
          refine .ok (Frame.trans (ActivityFrame.pop _ k) (.wake (fun _ => ?_) _))
          exact .of_ended he hends (.inr ⟨f, rfl, hcancel⟩)
        | false =>
          refine along_notRetried ?_ fun st cause hcause => .failed he hue hends hcause
          rw [timeSeconds_advanceTime]
          simpa [reportsRetried, he, hends, hw, hcancel, eventTime] using hfin
      · exact .raises _
      · exact .raises _

theorem along_queuedEnds (hu : s.Unwinding k e₀) (hw : w.kind = .qActivity) (hk : w.seq = k) :
    Along (Spared k (s.Reported x env k w r e₀)) s id (s.deliverQueuedActivityEvent env k r) := by
  unfold deliverQueuedActivityEvent
  split
  · exact .ok (ActivityFrame.pop s k)
  · next e he =>
    have hue := hu.exec he
    split
    · exact .ok (ActivityFrame.pop s k)
    · next hfut =>
      have hasked : e.cancelRequested = true := hue.asked.resolve_right hfut
      have hpop : ∀ t, Spared k (s.Reported x env k w r e₀) s ((s.advanceTime t).popActivity k) := fun t =>
        Frame.trans (frame_advanceTime s t) (ActivityFrame.pop _ k)
      split
      · next v b =>
        have hends : s.ended x env k e w (.attempt (.ok v b)) = some (.returned v) := by simp [ended, hw, hk]
        exact .after (hpop _) (along_resolved (.of_ended he hends rfl))
      · next f b st =>
        have hends : s.ended x env k e w (.attempt (.failed f b st)) = some (.failed f) := by simp [ended, hw, hk]
        refine .after (hpop _) (along_confirmsCancel.bind_eq fun c hc => ?_)
        cases c with
        | true => exact .ok (.wake (fun _ => .of_ended he hends (.inr ⟨f, rfl, confirmsCancel_ok hasked hc⟩)) _)
        | false => exact along_failed fun cause hcause => .failed he hue hends hcause
      · exact .after (hpop _) (.raises _)
      · exact .raises _
      · exact .raises _

theorem along_deadlineEnds (hu : s.Unwinding k e₀) (hw : w.kind = .actS2c) (hk : w.seq = k)
    (hfin : s.reportsRetried x k env w r = false) :
    Along (Spared k (s.Reported x env k w r e₀)) s id (s.deliverParkTimeout env k) := by
  unfold deliverParkTimeout
  cases he : s.pendingActivities.get? k with
  | none =>
    simp only [asyncParkedTimeout, he]
    exact .ok (Frame.refl s)
  | some e =>
    have hue := hu.exec he
    refine .after (frame_advanceTime s (some (s.timeSeconds + e.pendingWaitSeconds))) ?_
    refine .after (spared_self (f := .charged) (fun _ => rfl) _) ?_
    have he' : (((s.advanceTime (some (s.timeSeconds + e.pendingWaitSeconds))).setActivity k .charged).pendingActivities.get? k)
        = some e.charged := by
      change ((s.advanceTime _).pendingActivities.modify k _).get? k = _
      rw [Dict.get?_modify_self, pendingActivities_advanceTime, he]
      rfl
    simp only [asyncParkedTimeout, he']
    split
    · exact .ok (Frame.refl _)
    · next hp =>
      have hends : s.ended x env k e w r =
          some (.failed (timeoutFailure (parkedTimeoutMessage e.asyncParkTimeoutType) e.asyncParkTimeoutType)) := by
        simp only [ended, hw]
        exact if_pos ⟨hk, not_not.1 hp⟩
      refine along_parkEnds ?_ fun st cause hcause => .failed he hue hends hcause
      change e.retries (s.advanceTime _).timeSeconds _ = false
      rw [timeSeconds_advanceTime]
      simpa [reportsRetried, he, hends, hw, eventTime] using hfin

theorem along_heartbeatEnds (hu : s.Unwinding k e₀) (hw : w.kind = .actHb) (hk : w.seq = k)
    (hfin : s.reportsRetried x k env w r = false) :
    Along (Spared k (s.Reported x env k w r e₀)) s id (s.asyncHeartbeatCheck env k) := by
  unfold asyncHeartbeatCheck
  split
  · exact .ok (Frame.refl s)
  · next e he =>
    split
    · exact .ok (Frame.refl s)
    · next hp =>
      split
      · next hseen =>
        have hends : s.ended x env k e w r = some (.failed (timeoutFailure (parkedTimeoutMessage .heartbeat) .heartbeat)) := by
          simp only [ended, hw]
          exact if_pos ⟨hk, by simpa using hp, hseen⟩
        simp only [asyncParkedTimeout, he, if_neg hp]
        refine along_parkEnds ?_ fun st cause hcause => .failed he (hu.exec he) hends hcause
        simpa [reportsRetried, he, hends, hw, eventTime, advanceTime] using hfin
      · refine .after (spared_self (f := .heartbeat false) (fun _ => rfl) s) ?_
        dsimp only
        split
        · exact .ok (Frame.launchWaiter rfl _ _ _)
        · exact .raises _

theorem along_messageEnds (hu : s.Unwinding k e₀) (hw : w.kind = .inbox) {m : Message} {i : String}
    (hm : m.activityId? = some i) (hi : s.asyncPendingById i = some (k, e))
    (hfin : s.reportsRetried x k env w (.message (some m)) = false) :
    Along (Spared k (s.Reported x env k w (.message (some m)) e₀)) s id (s.deliverInbox x env (some m)) := by
  have he : s.pendingActivities.get? k = some e := (asyncPendingById_some hi).1
  have hi' : (s.advanceTime m.sentAt).asyncPendingById i = some (k, e) :=
    (asyncPendingById_congr (pendingActivities_advanceTime s m.sentAt) i).trans hi
  refine .after (frame_advanceTime s m.sentAt) ?_
  cases m <;> cases hm
  case activityHeartbeat ds t =>
    change Along _ (s.advanceTime t) id ((s.advanceTime t).applyActivityHeartbeat env i ds)
    replace hi' : (s.advanceTime t).asyncPendingById i = some (k, e) := hi'
    simp only [applyActivityHeartbeat, hi']
    refine .after (spared_self (f := .heartbeat true) (fun _ => rfl) _) ?_
    exact .after (Frame.awaitIf _ (!ds.isEmpty)) (.lift fun _ => .ok (Frame.refl _))
  case activityResult c t =>
    have hends : ∀ a, endedOutside x env e c = some a →
        s.ended x env k e w (.message (some (.activityResult i c t))) = some a := by
      intro a ha
      simp only [ended, hw, hi]
      exact (if_pos rfl).trans ha
    change Along _ (s.advanceTime t) id ((s.advanceTime t).applyActivityResult x env i c)
    replace hi' : (s.advanceTime t).asyncPendingById i = some (k, e) := hi'
    unfold applyActivityResult
    rw [hi']
    cases c with
    | cancelled =>
      dsimp only
      refine .after (frame_retireParkedTimers _ k) (.ok (Frame.trans (ActivityFrame.pop _ k) (.wake (fun _ => ?_) _)))
      exact .of_ended he (hends _ rfl) (.inl rfl)
    | ok p =>
      dsimp only
      refine .after (frame_retireParkedTimers _ k) (.after (ActivityFrame.pop _ k) (.after (Frame.await _) ?_))
      cases hv : decodeValue env.converter p (x.activityRetType e.activityName) with
      | error y => exact .raises _
      | ok v => exact along_resolved (.of_ended he (hends (.returned v) (by rw [endedOutside, hv]; rfl)) rfl)
    | failed f =>
      refine along_parkEnds ?_ fun st cause hcause => .failed he (hu.exec he) (hends _ rfl) hcause
      rw [timeSeconds_advanceTime]
      simpa [reportsRetried, he, hends _ rfl, hw, eventTime, Message.sentAt] using hfin

/-- **An event that reports no failure that is retried** starts no attempt of
an activity that is to unwind, and hands over what it reports. -/
theorem along_unwindingEvent (hu : s.Unwinding k e₀) (hfin : s.reportsRetried x k env w r = false) :
    Along (Spared k (s.Reported x env k w r e₀)) s id (s.deliverEvent x env w r) := by
  by_cases hadd : s.Addresses w r k
  · rcases hadd with hw | ⟨m, i, e, hw, rfl, hm, hi⟩
    · obtain ⟨hkind, hk⟩ : w.kind.isActivity = true ∧ w.seq = k := by simpa [Waiter.ofActivity] using hw
      unfold deliverEvent
      subst hk
      cases hw : w.kind <;> rw [hw] at hkind <;> first | (cases hkind; done) | skip
      case activity => exact along_attemptEnds hu hw rfl hfin
      case qActivity => exact along_queuedEnds hu hw rfl
      case actS2c => exact along_deadlineEnds hu hw rfl hfin
      case actHb => exact along_heartbeatEnds hu hw rfl hfin
    · unfold deliverEvent
      rw [hw]
      exact along_messageEnds hu hw hm hi hfin
  · exact along_event fun j hj (hjk : j = k) => hadd (hjk ▸ hj)

/-! ### Rounds -/

/-- What the deliveries of a round report of the activity `k`. -/
def reportsIn (x : Execution) (env : Env) (done : Done) (k : Nat) : List Waiter → Interp → List AttemptReport
  | [], _ => []
  | w :: ws, s =>
    ((done w.task).bind (s.report x env k w)).toList ++
      match s.deliverWaiter x env done w with
      | .ok s' => reportsIn x env done k ws s'
      | .error _ => []

/-- Each delivery of a round meets `P`. -/
def eventsMeet (x : Execution) (env : Env) (done : Done) (P : Env → Interp → Waiter → TaskResult → Bool) :
    List Waiter → Interp → Bool
  | [], _ => true
  | w :: ws, s =>
    (done w.task).all (P env s w) &&
      match s.deliverWaiter x env done w with
      | .ok s' => eventsMeet x env done P ws s'
      | .error _ => true

/-- The event reports no failure of `k` that is retried. -/
def unretried (x : Execution) (k : Nat) (env : Env) (s : Interp) (w : Waiter) (r : TaskResult) : Bool :=
  !s.reportsRetried x k env w r

variable {done : Done}

theorem along_unwindingWaiter (hu : s.Unwinding k e₀) (hfin : (done w.task).all (unretried x k env s w) = true) :
    Along (Spared k fun o => ∃ a ∈ ((done w.task).bind (s.report x env k w)).toList, a.Answers e₀ o) s id
      (s.deliverWaiter x env done w) := by
  unfold deliverWaiter
  cases hr : done w.task with
  | none => exact .ok (Frame.refl s)
  | some r =>
    refine (along_removeWaiter w).bind_eq fun s₁ h₁ => ?_
    unfold removeWaiter at h₁
    split at h₁
    · cases h₁
      have hfin : s.reportsRetried x k env w r = false := by simpa [unretried, hr] using hfin
      have hu₁ : Unwinding k e₀ { s with waiters := s.waiters.eraseP (·.task = w.task) } := ⟨hu.seq, hu.command, hu.exec⟩
      have hevent := along_unwindingEvent hu₁ hfin
      refine hevent.imp fun s' hs' => hs'.mono fun o ho => ?_
      obtain ⟨a, ha, ho⟩ := ho
      exact ⟨a, by rw [Option.bind_some]; exact Option.mem_toList.2 ha, ho⟩
    · exact absurd h₁ raise_ne_ok

/-- The deliveries of a round. -/
theorem along_unwindingWaiters (ws : List Waiter) : ∀ {s : Interp}, s.Unwinding k e₀ →
    eventsMeet x env done (unretried x k) ws s = true →
      Along (Spared k fun o => ∃ a ∈ reportsIn x env done k ws s, a.Answers e₀ o) s id
        (ws.foldlM (deliverWaiter x env done) s) := by
  induction ws with
  | nil => exact fun _ _ => .ok (Frame.refl _)
  | cons w ws ih =>
    intro s hu hm
    rw [eventsMeet, Bool.and_eq_true] at hm
    have hfirst := along_unwindingWaiter hu hm.1
    refine (hfirst.imp fun s' hs' => hs'.mono fun o ho => ?_).bind_eq fun s₁ h₁ => ?_
    · obtain ⟨a, ha, ho⟩ := ho
      exact ⟨a, List.mem_append_left _ ha, ho⟩
    · have hu₁ : s₁.Unwinding k e₀ := hu.spared (hfirst.of_ok h₁)
      have hm₁ : eventsMeet x env done (unretried x k) ws s₁ = true := by simpa [h₁] using hm.2
      refine (ih hu₁ hm₁).imp fun s' hs' => hs'.mono fun o ho => ?_
      obtain ⟨a, ha, ho⟩ := ho
      exact ⟨a, List.mem_append_right _ (by rw [h₁]; exact ha), ho⟩

theorem attempt_of_report (hu : s.Unwinding k e₀) {a : AttemptReport} (ha : s.report x env k w r = some a) :
    a.attempt = e₀.attempt := by
  obtain ⟨e, he, ha⟩ := Option.bind_eq_some_iff.1 ha
  obtain ⟨b, -, rfl⟩ := Option.map_eq_some_iff.1 ha
  exact (hu.exec he).attempt

/-- All that is reported is of the attempt that was asked to unwind. -/
theorem attempt_of_reportsIn (ws : List Waiter) : ∀ {s : Interp}, s.Unwinding k e₀ →
    eventsMeet x env done (unretried x k) ws s = true → ∀ a ∈ reportsIn x env done k ws s, a.attempt = e₀.attempt := by
  induction ws with
  | nil => exact fun _ _ a ha => by cases ha
  | cons w ws ih =>
    intro s hu hm a ha
    rw [eventsMeet, Bool.and_eq_true] at hm
    rcases List.mem_append.1 ha with ha | ha
    · obtain ⟨r, -, hr⟩ := Option.bind_eq_some_iff.1 (Option.mem_toList.1 ha)
      exact attempt_of_report hu hr
    · cases h₁ : s.deliverWaiter x env done w with
      | error r => rw [h₁] at ha; cases ha
      | ok s₁ =>
        rw [h₁] at ha
        exact ih (hu.spared ((along_unwindingWaiter hu hm.1).of_ok h₁)) (by simpa [h₁] using hm.2) a ha

/-! ## Drains -/

theorem Unwinding.request (h : s.Unwinding k e₀) (hr : Request s s') : s'.Unwinding k e₀ := by
  cases hr with
  | @other cs hcs hp hn hc =>
    refine ⟨hn ▸ h.seq, fun hm => ?_, fun he => h.exec (hp ▸ he)⟩
    rw [hc] at hm
    rcases List.mem_append.1 hm with hm | hm
    · exact h.command hm
    · have hk : k ∈ activitySeqs cs := List.mem_filterMap.2 ⟨_, hm, rfl⟩
      rw [hcs] at hk
      cases hk
  | refused hp hn hc => exact ⟨by have := h.seq; omega, hc ▸ h.command, fun he => h.exec (hp ▸ he)⟩
  | @start e _ _ hp hn hc =>
    have hk : k ≠ s.activitySeq + 1 := by have := h.seq; omega
    refine ⟨by have := h.seq; omega, fun hm => ?_, fun he => h.exec ?_⟩
    · rw [hc] at hm
      rcases List.mem_append.1 hm with hm | hm
      · exact h.command hm
      · cases List.mem_singleton.1 hm
        exact hk rfl
    · rwa [hp, Dict.get?_set, if_neg hk] at he
  | @change j f hf hp hn hc =>
    refine ⟨hn ▸ h.seq, hc ▸ h.command, fun {e} he => ?_⟩
    rw [hp, Dict.get?_modify] at he
    split at he
    · obtain ⟨e', he', rfl⟩ := Option.map_eq_some_iff.1 he
      have hu : e₀.Unwinds e' := by
        next hj => exact h.exec (hj ▸ he')
      rcases hf with rfl | rfl
      · exact ⟨hu.name, hu.id, hu.attempt, hu.running, .inl rfl⟩
      · exact ⟨hu.name, hu.id, hu.attempt, hu.running, .inr rfl⟩
    · exact h.exec he

theorem Unwinding.drain (h : s.Unwinding k e₀) (code : Code) : (code.drain x s).Unwinding k e₀ :=
  Code.drain_induct (P := Unwinding k e₀) (fun o hu => hu.request (Request.userOp _ o)) code h

/-- The request: the activity is pending, launched, and not in a backoff. -/
theorem Unwinding.asked (hw : s.Waits x) (he : s.pendingActivities.get? k = some e) (hb : e.inBackoff = false)
    (hc : .activity k ∉ s.commands) : (s.requestActivityCancel k).Unwinding k e := by
  have hseq : k ≤ s.activitySeq := hw.seqs he
  have hmodify : ∀ {f : ActivityExec → ActivityExec}, e.Unwinds (f e) → ∀ {e'},
      (s.pendingActivities.modify k f).get? k = some e' → e.Unwinds e' := by
    intro f hf e' he'
    rw [Dict.get?_modify_self, he] at he'
    cases he'
    exact hf
  unfold requestActivityCancel
  rw [he]
  dsimp only
  split
  · split <;> exact ⟨hseq, hc, hmodify (f := .askCancel) ⟨rfl, rfl, rfl, hb, .inl rfl⟩⟩
  · unfold cancelActivityFuture
    rw [he]
    dsimp only
    split
    · next hf =>
      refine ⟨hseq, hc, fun he' => ?_⟩
      cases he.symm.trans he'
      exact ⟨rfl, rfl, rfl, hb, .inr hf⟩
    · exact ⟨hseq, hc, hmodify (f := .cancelFuture) ⟨rfl, rfl, rfl, hb, .inr rfl⟩⟩

end Interp

/-- User code on its way: from `s`, with `code` to go, it comes to `t`, with
`rest` to go. -/
inductive Code.Gets (x : Execution) : Interp → Code → Interp → Code → Prop
  | here (s : Interp) (c : Code) : Gets x s c s c
  | ask {s t : Interp} {o : UserOp} {next : Interp → Code} {rest : Code}
      (h : Gets x (o.run x s).state (next (o.run x s).state) t rest) : Gets x s (.ask o next) t rest

namespace Code.Gets

variable {x : Execution} {s t : Interp} {code rest : Code}

theorem drain (h : Gets x s code t rest) : code.drain x s = rest.drain x t := by
  induction h with
  | here s c => rfl
  | ask _ ih => exact ih

theorem invariant {P : Interp → Prop} (hs : ∀ {s} (o : UserOp), P s → P (o.run x s).state)
    (h : Gets x s code t rest) (hp : P s) : P t := by
  induction h with
  | here s c => exact hp
  | ask _ ih => exact ih (hs _ hp)

end Code.Gets

/-! ## Runs -/

open Interp

/-- Where a pass leads. -/
def Interp.afterPass (x : Execution) (env : Env) (d : Bool) (code : Code) (s : Interp) : Config :=
  match s.pass x env d code with
  | .ok (t, s') => ⟨t.phase, s'⟩
  | .error r => ⟨.closing (some r.exc), r.state⟩

/-- Where a round leads. -/
def Interp.afterRound (x : Execution) (env : Env) (done : Done) (s : Interp) : Config :=
  match s.round x env done with
  | .ok s' => ⟨.draining, s'⟩
  | .error r => ⟨.closing (some r.exc), r.state⟩

/-- The outcomes of `k` handed over between `s` and `s'`. -/
def Interp.handedOver (k : Nat) (s s' : Interp) : List ActivityOutcome :=
  (s'.outcomesOf k).drop (s.outcomesOf k).length

/-- What became of an activity since its cancellation was asked for. -/
structure CancelCourse where
  reports : List AttemptReport := []
  handed : List ActivityOutcome := []

def CancelCourse.add (l : CancelCourse) (reports : List AttemptReport) (handed : List ActivityOutcome) : CancelCourse :=
  ⟨l.reports ++ reports, l.handed ++ handed⟩

/-- The runs of an execution from a request to cancel the activity `k` on,
which user code makes in the state `t`. What is delivered meets `P`. -/
inductive CancelRun (x : Execution) (k : Nat) (t : Interp) (P : Env → Interp → Waiter → TaskResult → Bool) :
    CancelCourse → Config → Prop
  | asked {s : Interp} {code : Code} {next : Interp → Code} (env : Env) (deadlinePassed : Bool)
      (hr : Reachable x ⟨.draining, s⟩)
      (hg : code.Gets x { s.suspend with ready := [] } t (.ask (.requestActivityCancel k) next)) :
      CancelRun x k t P ⟨[], handedOver k (s.drainOutsideTask x code) (s.afterPass x env deadlinePassed code).interp⟩
        (s.afterPass x env deadlinePassed code)
  | pass {l : CancelCourse} {s : Interp} (env : Env) (deadlinePassed : Bool) (code : Code)
      (hl : CancelRun x k t P l ⟨.draining, s⟩) :
      CancelRun x k t P
        (l.add [] (handedOver k (s.drainOutsideTask x code) (s.afterPass x env deadlinePassed code).interp))
        (s.afterPass x env deadlinePassed code)
  | round {l : CancelCourse} {s : Interp} (env : Env) (done : Done) (hl : CancelRun x k t P l ⟨.waiting, s⟩) (hf : s.Fits done)
      (hm : eventsMeet x env done P s.waiters (s.step .asyncioWait) = true) :
      CancelRun x k t P (l.add (reportsIn x env done k s.waiters (s.step .asyncioWait))
        (handedOver k s (s.afterRound x env done).interp)) (s.afterRound x env done)
  | close {l : CancelCourse} {s : Interp} {e : Option Exc} (env : Env) (hl : CancelRun x k t P l ⟨.closing e, s⟩) :
      CancelRun x k t P (l.add [] (handedOver k s (s.closeRun x env))) ⟨.closing e, s.closeRun x env⟩

section Runs

variable {x : Execution} {env : Env} {s t : Interp} {k : Nat} {e₀ : ActivityExec} {A : ActivityOutcome → Prop}

theorem Interp.Spared.clear (s : Interp) : Spared k A s { s with commands := [] } where
  attempts := rfl
  exec he := ⟨_, he, rfl⟩
  handed := ⟨[], (List.append_nil _).symm, fun _ h => by cases h⟩
  seq := rfl
  commands := List.nil_subset _

/-- A pass spares an activity that is to unwind. -/
theorem Interp.spared_afterPass (d : Bool) {code : Code} (h : (s.drainOutsideTask x code).Unwinding k e₀) :
    Spared k A (s.drainOutsideTask x code) (s.afterPass x env d code).interp := by
  have hpass : Along (Spared k A) (s.drainOutsideTask x code) (·.2) (s.pass x env d code) := by
    refine along_afterDrain (c := ⟨(· ≠ k), fun _ => True, True⟩) trivial Spared.clear ?_ fun _ _ _ _ _ => trivial
    rintro j hj rfl
    exact h.command hj
  unfold afterPass
  split
  · next t s' hs => exact hpass.of_ok hs
  · next r hr => exact hpass.of_error hr

/-- So does a round that reports no failure that is retried. -/
theorem Interp.spared_afterRound {done : Done} (h : s.Unwinding k e₀)
    (hm : eventsMeet x env done (unretried x k) s.waiters (s.step .asyncioWait) = true) :
    Spared k (fun o => ∃ a ∈ reportsIn x env done k s.waiters (s.step .asyncioWait), a.Answers e₀ o) s
      (s.afterRound x env done).interp := by
  have hround := along_unwindingWaiters s.waiters (s := s.step .asyncioWait) ⟨h.seq, h.command, h.exec⟩ hm
  have hstep : Spared k (fun o => ∃ a ∈ reportsIn x env done k s.waiters (s.step .asyncioWait), a.Answers e₀ o) s
      (s.step .asyncioWait) := Frame.step rfl s
  unfold afterRound
  split
  · next s' hs => exact hstep.trans (hround.of_ok hs)
  · next r hr => exact hstep.trans (hround.of_error hr)

/-- What the run has come to: no attempt was launched since, and what was
reported is of the attempt that was running. -/
structure Unwound (k : Nat) (e₀ : ActivityExec) (t : Interp) (l : CancelCourse) (s : Interp) : Prop where
  unwinding : s.Unwinding k e₀
  attempts : s.attemptsOf k = t.attemptsOf k
  reports : ∀ a ∈ l.reports, a.attempt = e₀.attempt
  handed : ∀ o ∈ l.handed, ∃ a ∈ l.reports, a.Answers e₀ o

/-- The run goes on, sparing the activity. -/
theorem Unwound.step {l : CancelCourse} {s' : Interp} {reports : List AttemptReport} (h : Unwound k e₀ t l s)
    (hr : ∀ a ∈ reports, a.attempt = e₀.attempt) (hs : Spared k (fun o => ∃ a ∈ reports, a.Answers e₀ o) s s') :
    Unwound k e₀ t (l.add reports (handedOver k s s')) s' where
  unwinding := h.unwinding.spared hs
  attempts := hs.attempts.trans h.attempts
  reports a ha := (List.mem_append.1 ha).elim (h.reports a) (hr a)
  handed o ho := by
    obtain ⟨new, hnew, hmeets⟩ := hs.handed
    have hover : handedOver k s s' = new := by rw [handedOver, hnew, List.drop_left]
    rcases List.mem_append.1 ho with ho | ho
    · obtain ⟨a, ha, ho⟩ := h.handed o ho
      exact ⟨a, List.mem_append_left _ ha, ho⟩
    · obtain ⟨a, ha, ho⟩ := hmeets o (hover ▸ ho)
      exact ⟨a, List.mem_append_right _ ha, ho⟩

/-- A drain neither launches nor reports. -/
theorem Unwound.drain {l : CancelCourse} (h : Unwound k e₀ t l s) (code : Code) :
    Unwound k e₀ t l (s.drainOutsideTask x code) where
  unwinding := by
    have hu : Unwinding k e₀ { s.suspend with ready := [] } :=
      ⟨h.unwinding.seq, h.unwinding.command, h.unwinding.exec⟩
    exact hu.drain code
  attempts := by rw [attemptsOf, acts_drain]; exact h.attempts
  reports := h.reports
  handed := h.handed

theorem CancelRun.unwound {l : CancelCourse} {c : Config} (he : t.pendingActivities.get? k = some e₀) (hb : e₀.inBackoff = false)
    (hc : .activity k ∉ t.commands) (h : CancelRun x k t (unretried x k) l c) : Unwound k e₀ t l c.interp := by
  induction h with
  | @asked s code next env d hr hg =>
    have hwaits : s.Waits x := hr.waits (fun e h => by cases h)
    have hsuspended : Waits x { s.suspend with ready := [] } := ⟨hwaits.tasks, hwaits.bound, hwaits.warranted,
      hwaits.single, hwaits.inbox, hwaits.seqs, hwaits.cancelled, hwaits.parked, hwaits.distinct, hwaits.queued⟩
    have hw : t.Waits x := hg.invariant (P := fun s => s.Waits x) (fun o h => waits_userOp h o) hsuspended
    have hkept : t.kept = Interp.kept { s.suspend with ready := [] } :=
      hg.invariant (P := fun s' => s'.kept = Interp.kept { s.suspend with ready := [] })
        (fun o h => (kept_userOp _ o).trans h) rfl
    have hdrain : s.drainOutsideTask x code = (next (t.requestActivityCancel k)).drain x (t.requestActivityCancel k) :=
      hg.drain
    have hu : (s.drainOutsideTask x code).Unwinding k e₀ := by
      rw [hdrain]
      exact (Unwinding.asked hw he hb hc).drain _
    have hacts : (s.drainOutsideTask x code).acts = t.acts := by
      have hasks : t.acts = Interp.acts { s.suspend with ready := [] } :=
        congrArg (fun c : Kept => c.past.flatten ++ c.trace) hkept
      rw [acts_drain, hasks]
      exact (acts_suspend s).symm
    have hstart : Unwound k e₀ t {} (s.drainOutsideTask x code) :=
      { unwinding := hu
        attempts := congrArg (List.filterMap (actAttempt k)) hacts
        reports := fun _ h => by cases h
        handed := fun _ h => by cases h }
    have hpass : Spared k (fun o => ∃ a ∈ ([] : List AttemptReport), a.Answers e₀ o) (s.drainOutsideTask x code)
        (s.afterPass x env d code).interp := spared_afterPass d hu
    exact hstart.step (fun _ h => by cases h) hpass
  | pass env d code _ ih =>
    have hd := ih.drain (x := x) code
    exact hd.step (fun _ h => by cases h) (spared_afterPass d hd.unwinding)
  | round env done _ _ hm ih =>
    exact ih.step (attempt_of_reportsIn _ ⟨ih.unwinding.seq, ih.unwinding.command, ih.unwinding.exec⟩ hm)
      (spared_afterRound ih.unwinding hm)
  | close env _ ih =>
    exact ih.step (fun _ h => by cases h) (frame_closeRun (c := ⟨(· ≠ k), fun _ => True, True⟩) trivial x env _)

/-- **No attempt starts after a cancellation request** in a run from a request
on that is made while the activity is at an attempt, and that reports no
failure of it that is retried. What is reported is of that attempt, and what
the awaiting code gets is its result, its failure or a cancellation. -/
theorem cancelled_starts_nothing {l : CancelCourse} {c : Config} (he : t.pendingActivities.get? k = some e₀)
    (hb : e₀.inBackoff = false) (hc : .activity k ∉ t.commands) (h : CancelRun x k t (unretried x k) l c) :
    c.interp.attemptsOf k = t.attemptsOf k ∧ (∀ a ∈ l.reports, a.attempt = e₀.attempt) ∧
      ∀ o ∈ l.handed, ∃ a ∈ l.reports, a.Answers e₀ o :=
  have hu := h.unwound he hb hc
  ⟨hu.attempts, hu.reports, hu.handed⟩

end Runs

/-! ### Three runs -/

def Phase.isDraining : Phase → Bool
  | draining => true
  | _ => false

theorem Phase.isDraining_iff {p : Phase} : p.isDraining = true ↔ p = .draining := by
  cases p <;> simp [isDraining]

/-- Each input fits where the run is, and what is delivered meets `P`. -/
def Config.proceeds (x : Execution) (P : Env → Interp → Waiter → TaskResult → Bool) : Config → List Input → Bool
  | _, [] => true
  | ⟨.draining, s⟩, .pass env d code :: is => (s.afterPass x env d code).proceeds x P is
  | ⟨.waiting, s⟩, .round env done :: is =>
    s.fits done && eventsMeet x env (.of done) P s.waiters (s.step .asyncioWait) &&
      (s.afterRound x env (.of done)).proceeds x P is
  | _, _ :: _ => false

/-- What becomes of the activity `k` by these inputs, and where they lead. -/
def Config.course (x : Execution) (k : Nat) : CancelCourse → Config → List Input → CancelCourse × Config
  | l, c, [] => (l, c)
  | l, c, .pass env d code :: is =>
    course x k (l.add [] (handedOver k (c.interp.drainOutsideTask x code) (c.interp.afterPass x env d code).interp))
      (c.interp.afterPass x env d code) is
  | l, c, .round env done :: is =>
    course x k (l.add (reportsIn x env (.of done) k c.interp.waiters (c.interp.step .asyncioWait))
      (handedOver k c.interp (c.interp.afterRound x env (.of done)).interp)) (c.interp.afterRound x env (.of done)) is

theorem CancelRun.proceeds {x : Execution} {k : Nat} {t : Interp} {P : Env → Interp → Waiter → TaskResult → Bool}
    (is : List Input) : ∀ {l : CancelCourse} {c : Config}, CancelRun x k t P l c → c.proceeds x P is = true →
      CancelRun x k t P (c.course x k l is).1 (c.course x k l is).2 := by
  induction is with
  | nil => exact fun h _ => h
  | cons i is ih =>
    intro l c h hp
    obtain ⟨p, s⟩ := c
    cases i with
    | pass env d code =>
      cases p <;> simp only [Config.proceeds, Bool.false_eq_true] at hp
      exact ih (.pass env d code h) hp
    | round env done =>
      cases p <;> simp only [Config.proceeds, Bool.and_eq_true, Bool.false_eq_true] at hp
      obtain ⟨⟨hf, hm⟩, hp⟩ := hp
      exact ih (.round env _ h (fits_of hf) hm) hp

/-- Where the inputs lead, in the drain in which user code asks for the
cancellation. -/
def askedAfter (inputs : List Input) : Interp := { (Execution.plain.run 0 inputs).interp.suspend with ready := [] }

/-- What becomes of the activity 1 by a request after these inputs, and those
that follow. -/
def courseOf (before after : List Input) : CancelCourse × Config :=
  let asked := (Execution.plain.run 0 before).interp.afterPass .plain .calm false (.asks [.requestActivityCancel 1])
  asked.course .plain 1 ⟨[], handedOver 1 ((Execution.plain.run 0 before).interp.drainOutsideTask .plain
    (.asks [.requestActivityCancel 1])) asked.interp⟩ after

theorem courseOf_run {P : Env → Interp → Waiter → TaskResult → Bool} {before after : List Input}
    (hd : (Execution.plain.run 0 before).phase = .draining)
    (hp : ((Execution.plain.run 0 before).interp.afterPass .plain .calm false (.asks [.requestActivityCancel 1])).proceeds
      .plain P after = true) :
    CancelRun .plain 1 (askedAfter before) P (courseOf before after).1 (courseOf before after).2 := by
  have hreach : Reachable .plain ⟨.draining, (Execution.plain.run 0 before).interp⟩ := by
    have h := Execution.run_reachable .plain 0 before
    generalize Execution.plain.run 0 before = c at hd h ⊢
    obtain ⟨p, s⟩ := c
    cases hd
    exact h
  exact (CancelRun.asked .calm false hreach (.here _ _)).proceeds after hp

/-- An activity that is asked to confirm its cancellation. -/
def confirmingActivity : UserOp := .startActivity { activityName := "act", cancellationType := .waitCancellationCompleted }

/-- The activity is at its first attempt. -/
def atAttempt : List Input := [.drain [confirmingActivity], .round .calm [(1, .message none)]]

/-- The attempt unwinds with a `CancelledError`. -/
def unwinds : TaskResult := .attempt (.failed { info := .cancelledError [], message := "" } 1 none)

/-- An ordinary failure of an attempt. -/
def breaks : TaskResult :=
  .attempt (.failed { info := .applicationError none [] false .unspecified none, message := "" } 1 none)

/-- Asked to unwind, the attempt does: it stays the only one, and the awaiting
code gets what it came to. -/
theorem confirmed_cancel : ∃ e₀ l c, CancelRun .plain 1 (askedAfter atAttempt) (unretried .plain 1) l c ∧
    l.handed.length = 1 ∧ c.interp.attemptsOf 1 = (askedAfter atAttempt).attemptsOf 1 ∧
      (∀ a ∈ l.reports, a.attempt = 1) ∧ ∀ o ∈ l.handed, ∃ a ∈ l.reports, a.Answers e₀ o := by
  have hp : ((Execution.plain.run 0 atAttempt).interp.afterPass .plain .calm false
      (.asks [.requestActivityCancel 1])).proceeds .plain (unretried .plain 1) [.round .calm [(0, unwinds)]] = true := by
    decide +kernel
  have hd : (Execution.plain.run 0 atAttempt).phase.isDraining = true := by decide +kernel
  have hrun := courseOf_run (Phase.isDraining_iff.1 hd) hp
  have hp : ((askedAfter atAttempt).pendingActivities.get? 1).any (fun e => !e.inBackoff && e.attempt = 1) = true := by
    decide +kernel
  have hc : (askedAfter atAttempt).commands.isEmpty = true := by decide +kernel
  have hone : (courseOf atAttempt [.round .calm [(0, unwinds)]]).1.handed.length = 1 := by decide +kernel
  obtain ⟨e₀, he, hat⟩ := (Option.any_eq_true _ _).1 hp
  simp only [Bool.and_eq_true, Bool.not_eq_true', decide_eq_true_eq] at hat
  have hnone : .activity 1 ∉ (askedAfter atAttempt).commands := List.isEmpty_iff.1 hc ▸ List.not_mem_nil
  obtain ⟨hattempts, hreports, hhanded⟩ := cancelled_starts_nothing he hat.1 hnone hrun
  exact ⟨e₀, _, _, hrun, hone, hattempts, fun a ha => (hreports a ha).trans hat.2, hhanded⟩

/-- The activity is in a backoff. -/
def inBackoff : List Input := [.drain [confirmingActivity], .round .calm [(0, breaks)]]

/-- The activity 1 of this worker is to confirm its cancellation. -/
def confirms (s : Interp) : Bool :=
  (s.pendingActivities.get? 1).any fun e => e.cancellationType = .waitCancellationCompleted ∧ e.taskQueue = none

/-- Asked for its cancellation in a backoff, or while an attempt runs that
fails in another way, the activity makes its second attempt. -/
theorem cancelled_relaunches :
    (confirms (askedAfter inBackoff) = true ∧ ∃ l c, CancelRun .plain 1 (askedAfter inBackoff) (fun _ _ _ _ => true) l c ∧
      (askedAfter inBackoff).attemptsOf 1 = [1] ∧ c.interp.attemptsOf 1 = [1, 2]) ∧
    (confirms (askedAfter atAttempt) = true ∧ ∃ l c, CancelRun .plain 1 (askedAfter atAttempt) (fun _ _ _ _ => true) l c ∧
      (askedAfter atAttempt).attemptsOf 1 = [1] ∧ c.interp.attemptsOf 1 = [1, 2]) := by
  have hbackoff : (confirms (askedAfter inBackoff) && (Execution.plain.run 0 inBackoff).phase.isDraining &&
      ((Execution.plain.run 0 inBackoff).interp.afterPass .plain .calm false (.asks [.requestActivityCancel 1])).proceeds
        .plain (fun _ _ _ _ => true) [.round .calm [(2, .slept)]] &&
      (askedAfter inBackoff).attemptsOf 1 == [1] &&
      (courseOf inBackoff [.round .calm [(2, .slept)]]).2.interp.attemptsOf 1 == [1, 2]) = true := by
    decide +kernel
  have hattempt : (confirms (askedAfter atAttempt) && (Execution.plain.run 0 atAttempt).phase.isDraining &&
      ((Execution.plain.run 0 atAttempt).interp.afterPass .plain .calm false (.asks [.requestActivityCancel 1])).proceeds
        .plain (fun _ _ _ _ => true) [.round .calm [(0, breaks)], .drain [], .round .calm [(3, .slept)]] &&
      (askedAfter atAttempt).attemptsOf 1 == [1] &&
      (courseOf atAttempt [.round .calm [(0, breaks)], .drain [], .round .calm [(3, .slept)]]).2.interp.attemptsOf 1
        == [1, 2]) = true := by
    decide +kernel
  simp only [Bool.and_eq_true, beq_iff_eq] at hbackoff hattempt
  obtain ⟨⟨⟨⟨hc, hd⟩, hp⟩, hone⟩, htwo⟩ := hbackoff
  obtain ⟨⟨⟨⟨hc', hd'⟩, hp'⟩, hone'⟩, htwo'⟩ := hattempt
  exact ⟨⟨hc, _, _, courseOf_run (Phase.isDraining_iff.1 hd) hp, hone, htwo⟩,
    hc', _, _, courseOf_run (Phase.isDraining_iff.1 hd') hp', hone', htwo'⟩

end Dbosify
