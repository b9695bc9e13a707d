/-
The attempts of an activity, step by step.

An activity's first attempt is launched by its command, every later one by a
backoff that ends. `AttemptLaw` is what the state holds of them: they are
numbered from one, the retry policy allows the last, and the pending exec
stands at it. What leaves the activity alone keeps the law (`Stays`); its own
command and its own events keep it too (`Tries`), and hand over at most what
its future is still owed.
-/
import Dbosify.WaitCancel

namespace Dbosify

open Py (Dict)

/-- The policy allows an attempt of this number. -/
def RetryPolicy.allows (p : RetryPolicy) (n : Nat) : Prop :=
  n ≤ 1 ∨ p.maximumAttempts = 0 ∨ (n : Int) ≤ p.maximumAttempts

theorem RetryPolicy.allows_succ {p : RetryPolicy} {n : Nat} {f : FailureEnvelope} (h : stopState p n f = none) :
    p.allows (n + 1) := by
  unfold stopState at h
  split at h
  · cases h
  split at h
  · cases h
  split at h
  · cases h
  split at h
  · cases h
  next hmax =>
    rcases Decidable.not_and_iff_or_not.1 hmax with hzero | hless
    · exact .inr (.inl (not_not.1 hzero))
    · exact .inr (.inr (by push_cast; omega))

theorem ActivityExec.allows_of_retries {e : ActivityExec} {now : Seconds} {f : FailureEnvelope}
    (h : e.retries now f = true) : e.retryPolicy.allows (e.attempt + 1) := by
  simp only [retries, Bool.and_eq_true, Option.isNone_iff_eq_none] at h
  exact RetryPolicy.allows_succ h.1

/-- The exec is at the same attempt, in a backoff only if it was. -/
structure ActivityExec.SameAttempt (e e' : ActivityExec) : Prop where
  policy : e'.retryPolicy = e.retryPolicy
  name : e'.activityName = e.activityName
  attempt : e'.attempt = e.attempt
  backoff : e'.inBackoff = true → e.inBackoff = true

namespace ActivityExec.SameAttempt

variable {e e₁ e₂ : ActivityExec}

theorem refl (e : ActivityExec) : e.SameAttempt e := ⟨rfl, rfl, rfl, id⟩

theorem trans (h : e.SameAttempt e₁) (h' : e₁.SameAttempt e₂) : e.SameAttempt e₂ :=
  ⟨h'.policy.trans h.policy, h'.name.trans h.name, h'.attempt.trans h.attempt, h.backoff ∘ h'.backoff⟩

end ActivityExec.SameAttempt

namespace Interp

/-! ## The law -/

/-- The activity was put on a queue, for a worker to run as a workflow. -/
def Enqueued (x : Execution) (k : Nat) (s : Interp) : Prop :=
  .step (.enqueue (activityDbosId x.workflowId k)) ∈ s.acts

/-- What the state holds of the attempts of `k`, whose retry policy is `p`. As
long as its command is `due` there are none. -/
structure AttemptLaw (x : Execution) (k : Nat) (p : RetryPolicy) (due : Prop) (s : Interp) : Prop where
  seq : k ≤ s.activitySeq
  policy : ∀ {e}, s.pendingActivities.get? k = some e → e.retryPolicy = p
  numbered : s.Enqueued x k ∨ ∃ m, s.attemptsOf k = List.range' 1 m ∧ p.allows m
  waiting : due → s.attemptsOf k = [] ∧
    ∀ {e}, s.pendingActivities.get? k = some e → e.attempt = 1 ∧ e.inBackoff = false
  /-- A name that is not registered is an attempt that was not launched. -/
  running : ¬ due → ∀ {e}, s.pendingActivities.get? k = some e →
    s.Enqueued x k ∨ x.registered e.activityName = false ∨
      (s.attemptsOf k = List.range' 1 e.attempt ∧ (e.inBackoff = true → p.allows (e.attempt + 1)))

/-- What the awaiting code may be handed yet: the outcomes that wait for the
drain, and one more while the activity is pending. -/
def owed (k : Nat) (s : Interp) : Nat :=
  (s.outcomesOf k).length + if (s.pendingActivities.get? k).isSome then 1 else 0

/-- Nothing happens to the activity, except that it may be dropped. -/
structure Stays (k : Nat) (s s' : Interp) : Prop where
  attempts : s'.attemptsOf k = s.attemptsOf k
  acts : s.acts ⊆ s'.acts
  exec : ∀ {e'}, s'.pendingActivities.get? k = some e' →
    ∃ e, s.pendingActivities.get? k = some e ∧ e.SameAttempt e'
  outcomes : s'.outcomesOf k = s.outcomesOf k
  seq : s.activitySeq ≤ s'.activitySeq

variable {x : Execution} {env : Env} {s s' : Interp} {k : Nat} {p : RetryPolicy} {due due' : Prop} {e : ActivityExec}

namespace Stays

/-- All of this is left alone. -/
theorem still (ha : s'.acts = s.acts) (hp : s'.pendingActivities = s.pendingActivities) (hr : s'.resolved = s.resolved)
    (hn : s'.activitySeq = s.activitySeq) : Stays k s s' where
  attempts := congrArg (List.filterMap (actAttempt k)) ha
  acts := by rw [ha]; exact List.Subset.refl _
  exec he := ⟨_, hp ▸ he, .refl _⟩
  outcomes := by rw [outcomesOf, hr]; rfl
  seq := hn.ge

theorem trans {t : Interp} (h : Stays k s t) (h' : Stays k t s') : Stays k s s' where
  attempts := h'.attempts.trans h.attempts
  acts := List.Subset.trans h.acts h'.acts
  exec he := by
    obtain ⟨e₁, h₁, hs₁⟩ := h'.exec he
    obtain ⟨e₀, h₀, hs₀⟩ := h.exec h₁
    exact ⟨e₀, h₀, hs₀.trans hs₁⟩
  outcomes := h'.outcomes.trans h.outcomes
  seq := h.seq.trans h'.seq

theorem emit {a : Coop.Act Op} (ha : actAttempt k a = none) (s : Interp) : Stays k s (s.emit a) where
  attempts := by rw [attemptsOf_emit, ha, Option.toList_none, List.append_nil]
  acts := by rw [acts_emit]; exact List.subset_append_left _ _
  exec he := ⟨_, he, .refl _⟩
  outcomes := rfl
  seq := le_rfl

/-- An exec changes that is not the activity's, or not its attempt. -/
theorem modify {j : Nat} {f : ActivityExec → ActivityExec} (hf : j = k → ∀ e : ActivityExec, e.SameAttempt (f e)) (s : Interp) :
    Stays k s (s.setActivity j f) where
  attempts := rfl
  acts := List.Subset.refl _
  exec {e'} he := by
    change (s.pendingActivities.modify j f).get? k = some e' at he
    rw [Dict.get?_modify] at he
    split at he
    · next hj =>
      obtain ⟨e, he₀, rfl⟩ := Option.map_eq_some_iff.1 he
      exact ⟨e, hj ▸ he₀, hf hj.symm e⟩
    · exact ⟨_, he, .refl _⟩
  outcomes := rfl
  seq := le_rfl

theorem modifies {f : ActivityExec → ActivityExec} (hf : ∀ e : ActivityExec, e.SameAttempt (f e)) (s : Interp) :
    Stays k s (s.setActivity k f) := .modify (fun _ => hf) s

theorem pop (s : Interp) (j : Nat) : Stays k s (s.popActivity j) where
  attempts := rfl
  acts := List.Subset.refl _
  exec he := ⟨_, (Dict.get?_pop_some.1 he).2, .refl _⟩
  outcomes := rfl
  seq := le_rfl

theorem law (h : Stays k s s') (hl : s.AttemptLaw x k p due) : s'.AttemptLaw x k p due where
  seq := hl.seq.trans h.seq
  policy he := by
    obtain ⟨e, he₀, hs⟩ := h.exec he
    exact hs.policy.trans (hl.policy he₀)
  numbered := by
    rw [h.attempts]
    exact hl.numbered.imp_left fun hq => h.acts hq
  waiting hd := by
    rw [h.attempts]
    refine ⟨(hl.waiting hd).1, fun {e'} he => ?_⟩
    obtain ⟨e, he₀, hs⟩ := h.exec he
    obtain ⟨hone, hcalm⟩ := (hl.waiting hd).2 he₀
    refine ⟨hs.attempt.trans hone, Bool.eq_false_iff.2 fun hb => ?_⟩
    exact absurd (hs.backoff hb) (by rw [hcalm]; exact Bool.false_ne_true)
  running hd {e'} he := by
    rw [h.attempts]
    obtain ⟨e, he₀, hs⟩ := h.exec he
    rw [hs.name, hs.attempt]
    refine (hl.running hd he₀).imp (fun hq => h.acts hq) (Or.imp_right ?_)
    rintro ⟨hn, ha⟩
    exact ⟨hn, ha ∘ hs.backoff⟩

theorem owed (h : Stays k s s') : s'.owed k ≤ s.owed k := by
  unfold Interp.owed
  rw [h.outcomes]
  refine Nat.add_le_add_left ?_ _
  cases he : s'.pendingActivities.get? k with
  | none => exact Nat.zero_le _
  | some e' =>
    obtain ⟨e, he₀, -⟩ := h.exec he
    rw [he₀]
    rfl

theorem gone (h : Stays k s s') (hn : s.pendingActivities.get? k = none) : s'.pendingActivities.get? k = none := by
  cases he : s'.pendingActivities.get? k with
  | none => rfl
  | some e' =>
    obtain ⟨e, he₀, -⟩ := h.exec he
    rw [hn] at he₀
    cases he₀

end Stays

instance : ActivityFrame ⟨(· ≠ k), fun _ => True, True⟩ (Stays k) where
  refl s := .still rfl rfl rfl rfl
  trans := .trans
  act ha s := .emit (actAttempt_plain ha) s
  other h _ := .still (congrArg Core.acts h) (congrArg Core.pendingActivities h) (congrArg Core.resolved h)
    (congrArg Core.activitySeq h)
  modify hj _ s := .modify (fun h => absurd h hj) s
  pop s j := .pop s j
  resolve {j} hj s o :=
    { attempts := rfl
      acts := List.Subset.refl _
      exec := fun he => ⟨_, he, .refl _⟩
      outcomes := by
        change ((s.ready ++ [Ready.activity j o]).filterMap Ready.activity?).filterMap _ = _
        rw [List.filterMap_append, List.filterMap_append]
        refine (congrArg (s.outcomesOf k ++ ·) ?_).trans (List.append_nil _)
        simp [Ready.activity?, show ¬ j = k from hj]
      seq := le_rfl }
  attempt {j} hj s n d t := .emit (a := .launch (.attempt j n d t)) (if_neg hj) s
  dispatch hj _ s d := .modify (fun h => absurd h hj) s
  mark _ _ _ := .emit rfl _

instance : QueueFrame env (Stays k) where
  ownQueue x s := by
    unfold resolveOwnQueue
    split
    · exact Frame.refl s
    · exact Stays.trans (t := s.step (.status x.workflowId)) (.emit rfl s) (.still rfl rfl rfl rfl)

instance : MessageFrame (Stays k) where
  message h := .still (congrArg ActivityCore.acts h) (congrArg ActivityCore.pendingActivities h)
    (congrArg ActivityCore.resolved h) (congrArg ActivityCore.activitySeq h)
  publish s _ _ _ := .emit rfl s

/-! ## Its future is resolved -/

/-- The activity is dropped, and one outcome handed over at most. -/
structure Settles (k : Nat) (s s' : Interp) : Prop where
  attempts : s'.attemptsOf k = s.attemptsOf k
  acts : s.acts ⊆ s'.acts
  gone : s'.pendingActivities.get? k = none
  outcomes : (s'.outcomesOf k).length ≤ (s.outcomesOf k).length + 1
  seq : s.activitySeq ≤ s'.activitySeq

variable {t : Interp} {f : FailureEnvelope} {o : ActivityOutcome}

theorem Settles.dropped (h : Stays k s t) (hn : t.pendingActivities.get? k = none) : Settles k s t where
  attempts := h.attempts
  acts := h.acts
  gone := hn
  outcomes := by rw [h.outcomes]; exact Nat.le_succ _
  seq := h.seq

theorem Settles.wake (h : Stays k s t) (hn : t.pendingActivities.get? k = none) (o : ActivityOutcome) :
    Settles k s (t.wake (.activity k o)) where
  attempts := h.attempts
  acts := h.acts
  gone := hn
  outcomes := by
    have hr : (t.wake (.activity k o)).outcomesOf k = t.outcomesOf k ++ [o] := by
      change ((t.ready ++ [Ready.activity k o]).filterMap Ready.activity?).filterMap _ = _
      rw [List.filterMap_append, List.filterMap_append]
      refine congrArg (t.outcomesOf k ++ ·) ?_
      simp [Ready.activity?]
    rw [hr, h.outcomes, List.length_append, List.length_singleton]
  seq := h.seq

theorem popped (s : Interp) (k : Nat) : (s.popActivity k).pendingActivities.get? k = none := Dict.get?_pop_self _ _

theorem settles_resolve (h : Stays k s t) (hn : t.pendingActivities.get? k = none) :
    Along (Settles k) s id (t.resolveActivity k e o) := by
  unfold resolveActivity
  split
  · exact Settles.dropped h hn
  · exact .ok (.wake h hn o)

theorem settles_fail {st : Option RetryState} (h : Stays k s t) : Along (Settles k) s id (t.failActivity env k e f st) := by
  have hpop : Stays k s (t.popActivity k) := h.trans (.pop t k)
  unfold failActivity
  cases activityFailureCause env.converter f st with
  | error y => exact Settles.dropped hpop (popped t k)
  | ok cause => exact settles_resolve hpop (popped t k)

/-! ## An attempt starts -/

/-- The law is kept, nothing more is owed, and nothing is done for an activity
that was dropped. -/
structure Tries (x : Execution) (k : Nat) (p : RetryPolicy) (due due' : Prop) (s s' : Interp) : Prop where
  law : s.AttemptLaw x k p due → s'.AttemptLaw x k p due'
  owed : s'.owed k ≤ s.owed k
  gone : s.pendingActivities.get? k = none →
    s'.pendingActivities.get? k = none ∧ s'.attemptsOf k = s.attemptsOf k
  seq : s.activitySeq ≤ s'.activitySeq

theorem Stays.tries (h : Stays k s s') : Tries x k p due due s s' :=
  ⟨h.law, h.owed, fun hn => ⟨h.gone hn, h.attempts⟩, h.seq⟩

theorem Settles.tries (h : Settles k s s') (he : s.pendingActivities.get? k = some e) : Tries x k p due False s s' where
  law hl :=
    { seq := hl.seq.trans h.seq
      policy := fun he' => by rw [h.gone] at he'; cases he'
      numbered := by
        rw [h.attempts]
        exact hl.numbered.imp_left fun hq => h.acts hq
      waiting := False.elim
      running := fun _ _ he' => by rw [h.gone] at he'; cases he' }
  owed := by
    have := h.outcomes
    simp only [Interp.owed, h.gone, he, Option.isSome_none, Option.isSome_some, if_true, Bool.false_eq_true, if_false]
    omega
  gone hn := by
    rw [hn] at he
    cases he
  seq := h.seq

theorem Tries.trans {d : Prop} (h : Tries x k p due d s t) (h' : Tries x k p d due' t s') : Tries x k p due due' s s' where
  law hl := h'.law (h.law hl)
  owed := h'.owed.trans h.owed
  gone hn := by
    obtain ⟨h₁, ha₁⟩ := h.gone hn
    obtain ⟨h₂, ha₂⟩ := h'.gone h₁
    exact ⟨h₂, ha₂.trans ha₁⟩
  seq := h.seq.trans h'.seq

instance : Frame (Tries x k p due due) where
  refl s := (Frame.refl s : Stays k s s).tries
  trans := .trans
  act ha s := (Frame.act ha s : Stays k s _).tries
  other h hn := (Frame.other h hn : Stays k _ _).tries

/-- The number of the attempt that may start. -/
def Next (x : Execution) (k : Nat) (p : RetryPolicy) (n : Nat) (s : Interp) : Prop :=
  s.Enqueued x k ∨ ∃ m, n = m + 1 ∧ s.attemptsOf k = List.range' 1 m ∧ p.allows n

theorem AttemptLaw.first (hl : s.AttemptLaw x k p True) (he : s.pendingActivities.get? k = some e) :
    s.Next x k p e.attempt := by
  obtain ⟨hnone, hone⟩ := hl.waiting trivial
  exact .inr ⟨0, (hone he).1, hnone, .inl (hone he).1.le⟩

theorem AttemptLaw.again (hl : s.AttemptLaw x k p False) (he : s.pendingActivities.get? k = some e)
    (hb : e.inBackoff = true) (hr : x.registered e.activityName = true) : s.Next x k p (e.attempt + 1) := by
  rcases hl.running id he with hq | hunknown | ⟨hn, ha⟩
  · exact .inl hq
  · rw [hr] at hunknown
    cases hunknown
  · exact .inr ⟨_, rfl, hn, ha hb⟩

/-- **An attempt starts**: it is the next one. -/
theorem Tries.launch {n : Nat} {e' : ActivityExec} (he : s.pendingActivities.get? k = some e)
    (he' : s'.pendingActivities.get? k = some e') (hn : s.AttemptLaw x k p due → s.Next x k p n)
    (hattempts : s'.attemptsOf k = s.attemptsOf k ++ [n]) (hacts : s.acts ⊆ s'.acts) (hp : e'.retryPolicy = e.retryPolicy)
    (hat : e'.attempt = n) (hb : e'.inBackoff = false) (ho : s'.outcomesOf k = s.outcomesOf k)
    (hseq : s.activitySeq ≤ s'.activitySeq) : Tries x k p due False s s' where
  law hl := by
    have hnext : s'.Enqueued x k ∨ (s'.attemptsOf k = List.range' 1 n ∧ p.allows n) := by
      rcases hn hl with hq | ⟨m, rfl, hm, ha⟩
      · exact .inl (hacts hq)
      · refine .inr ⟨?_, ha⟩
        rw [hattempts, hm, List.range'_concat, Nat.one_mul, Nat.add_comm]
    refine
      { seq := hl.seq.trans hseq
        policy := fun h => ?_
        numbered := hnext.imp_right fun h => ⟨n, h⟩
        waiting := False.elim
        running := fun _ e₁ h => ?_ }
    · cases he'.symm.trans h
      exact hp.trans (hl.policy he)
    · cases he'.symm.trans h
      refine hnext.imp_right fun h => .inr ⟨hat ▸ h.1, fun hback => ?_⟩
      rw [hb] at hback
      cases hback
  owed := by
    simp only [Interp.owed, ho, he', he, Option.isSome_some]
    exact le_rfl
  gone hnone := by
    rw [hnone] at he
    cases he
  seq := hseq

/-- `_launch_attempt` of the exec `e'`, which the activity has come to. -/
theorem tries_launchAttempt {n : Nat} {e' : ActivityExec} (he : s.pendingActivities.get? k = some e)
    (he' : t.pendingActivities.get? k = some e')
    (hn : x.registered e'.activityName = true → s.AttemptLaw x k p due → s.Next x k p n)
    (hattempts : t.attemptsOf k = s.attemptsOf k) (hacts : s.acts ⊆ t.acts) (ho : t.outcomesOf k = s.outcomesOf k)
    (hseq : s.activitySeq ≤ t.activitySeq) (hp : e'.retryPolicy = e.retryPolicy) (hat : e'.attempt = n)
    (hok : t.launchAttempt x k e' = .ok s') : Tries x k p due False s s' := by
  have hlaunched : (t.setActivity k .launched).pendingActivities.get? k = some e'.launched := by
    change (t.pendingActivities.modify k _).get? k = _
    rw [Dict.get?_modify_self, he']
    rfl
  unfold launchAttempt attemptStepFor at hok
  split at hok
  · next hreg =>
    cases hok
    refine .launch he hlaunched (hn hreg) ?_ ?_ hp hat rfl ho hseq
    · rw [← hattempts, ← hat]
      change ((t.setActivity k .launched).emit _).attemptsOf k = _
      rw [attemptsOf_emit]
      simp [actAttempt, Op.lazy]
      rfl
    · refine List.Subset.trans hacts ?_
      change (t.setActivity k .launched).acts ⊆ ((t.setActivity k .launched).emit _).acts
      rw [acts_emit]
      exact List.subset_append_left _ _
  · cases hok

/-! ## The activity's own events -/

theorem get?_setActivity (he : s.pendingActivities.get? k = some e) (f : ActivityExec → ActivityExec) :
    (s.setActivity k f).pendingActivities.get? k = some (f e) := by
  change (s.pendingActivities.modify k f).get? k = _
  rw [Dict.get?_modify_self, he]
  rfl

theorem tries_launchBackoff (he : s.pendingActivities.get? k = some e) (ha : e.retryPolicy.allows (e.attempt + 1))
    (d : Seconds) : Tries x k p False False s (s.launchBackoff k d) := by
  have hback : Tries x k p False False s (s.setActivity k (.backOff d)) := by
    refine ⟨fun hl => ?_, ?_, fun hn => ?_, le_rfl⟩
    · have hpolicy := hl.policy he
      refine ⟨hl.seq, fun h => ?_, hl.numbered, False.elim, fun hd e₁ h => ?_⟩
      · cases (get?_setActivity he _).symm.trans h
        exact hpolicy
      · cases (get?_setActivity he _).symm.trans h
        refine (hl.running hd he).imp_right (Or.imp_right fun hat => ⟨hat.1, fun _ => ?_⟩)
        rw [← hpolicy]
        exact ha
    · simp only [owed, get?_setActivity he, he, Option.isSome_some]
      exact le_rfl
    · rw [hn] at he
      cases he
  exact hback.trans (Frame.launchWaiter rfl _ _ _)

/-- A failure is retried, if the policy allows the next attempt. -/
theorem tries_retryOrFail {e₀ : ActivityExec} (he : s.pendingActivities.get? k = some e₀)
    (hp : e.retryPolicy = e₀.retryPolicy) (ha : e.attempt = e₀.attempt) :
    Along (Tries x k p False False) s id (s.retryOrFail env k e f) := by
  unfold retryOrFail
  cases hd : s.retryDecision e f with
  | error y => exact .raises _
  | ok d =>
    obtain ⟨_ | delay, st⟩ := d
    · exact (settles_fail (Frame.refl s)).imp fun s' h => h.tries he
    · have hallows := ActivityExec.allows_of_retries (retries_of_retryDecision hd)
      rw [hp, ha] at hallows
      exact .ok (tries_launchBackoff he hallows delay)

theorem stays_armDeadline (s : Interp) (d : Option Seconds × DeadlineType) : Stays k s (s.armDeadline k d) := by
  unfold armDeadline
  split
  · next t _ =>
    have hpark : Stays k s (s.setActivity k (.parkFor d.2.timeoutType (max (1 / 20) t))) :=
      .modifies (f := .parkFor d.2.timeoutType (max (1 / 20) t)) (fun _ => ⟨rfl, rfl, rfl, id⟩) s
    exact hpark.trans (Frame.launchWaiter rfl _ _ _)
  · exact Frame.refl s

theorem stays_armHeartbeat (s : Interp) (d : Option Seconds) : Stays k s (s.armHeartbeat k d) := by
  unfold armHeartbeat
  split
  · have hbeat : Stays k s (s.setActivity k (.heartbeat false)) := .modifies (f := .heartbeat false) (fun _ => ⟨rfl, rfl, rfl, id⟩) s
    exact hbeat.trans (Frame.launchWaiter rfl _ _ _)
  · exact Frame.refl s

theorem stays_parkActivity (s : Interp) (e : ActivityExec) (a b : Seconds) : Stays k s (s.parkActivity k e a b) := by
  have hpark : Stays k s (s.setActivity k .park) := .modifies (f := .park) (fun _ => ⟨rfl, rfl, rfl, id⟩) s
  exact hpark.trans ((stays_armDeadline _ _).trans (stays_armHeartbeat _ _))

/-- A park ends with a failure. -/
theorem tries_parkEnds (he : s.pendingActivities.get? k = some e) :
    Along (Tries x k p False False) s id ((s.retireParkedTimers k).failAsyncAttempt env k e f) := by
  have hunpark : Stays k (s.retireParkedTimers k) ((s.retireParkedTimers k).setActivity k .unpark) :=
    .modifies (f := .unpark) (fun _ => ⟨rfl, rfl, rfl, id⟩) _
  refine .after (frame_retireParkedTimers s k) (.after hunpark.tries ?_)
  exact tries_retryOrFail (get?_setActivity (s := s.retireParkedTimers k) he _) rfl rfl

theorem pending_advanceTime (he : s.pendingActivities.get? k = some e) (t : Option Seconds) :
    (s.advanceTime t).pendingActivities.get? k = some e := by
  rw [pendingActivities_advanceTime]
  exact he

/-- The next attempt is due, and there is no step for it. -/
theorem tries_unregistered (he : s.pendingActivities.get? k = some e) (hr : x.registered e.activityName = false) :
    Tries x k p False False s (s.setActivity k .nextAttempt) where
  law hl :=
    { seq := hl.seq
      policy := fun h => by
        have hp := hl.policy he
        cases (get?_setActivity he _).symm.trans h
        exact hp
      numbered := hl.numbered
      waiting := False.elim
      running := fun _ e₁ h => by
        cases (get?_setActivity he _).symm.trans h
        exact .inr (.inl hr) }
  owed := by
    simp only [Interp.owed, get?_setActivity he, he, Option.isSome_some]
    exact le_rfl
  gone hn := by
    rw [hn] at he
    cases he
  seq := le_rfl

theorem tries_attemptEvent {r : TaskResult} : Along (Tries x k p False False) s id (s.deliverActivityEvent x env k r) := by
  unfold deliverActivityEvent
  split
  · exact .ok (Stays.pop s k).tries
  · next e he =>
    split
    · exact .ok (Stays.pop s k).tries
    · split
      · next hb =>
        refine .after (frame_advanceTime s (some (s.timeSeconds + e.pendingWaitSeconds))) ?_
        have he₁ := pending_advanceTime he (some (s.timeSeconds + e.pendingWaitSeconds))
        generalize s.advanceTime (some (s.timeSeconds + e.pendingWaitSeconds)) = s₁ at he₁ ⊢
        cases hl : (s₁.setActivity k .nextAttempt).launchAttempt x k e.nextAttempt with
        | ok s' =>
          exact tries_launchAttempt he₁ (get?_setActivity he₁ .nextAttempt) (fun hr hl => hl.again he₁ hb hr) rfl
            (List.Subset.refl _) rfl le_rfl rfl rfl hl
        | error r =>
          unfold launchAttempt attemptStepFor at hl
          split at hl
          · cases hl
          · next hr =>
            cases hl
            exact tries_unregistered he₁ (Bool.eq_false_iff.2 hr)
      · split
        · next a b =>
          exact .ok (Tries.trans (frame_advanceTime s (some b)) (stays_parkActivity _ _ _ _).tries)
        · next v b =>
          have hdrop : Stays k s ((s.advanceTime (some b)).popActivity k) := .trans (frame_advanceTime s (some b)) (.pop _ k)
          exact (settles_resolve hdrop (popped _ k)).imp fun s' h => h.tries he
        · next f b st =>
          refine .after (frame_advanceTime s (some b)) (along_confirmsCancel.bind fun c => ?_)
          have he₁ := pending_advanceTime he (some b)
          cases c with
          | true => exact .ok (Settles.tries (.wake (.pop _ k) (popped _ k) _) he₁)
          | false => exact tries_retryOrFail he₁ rfl rfl
        · exact .raises _
        · exact .raises _

theorem settles_confirmsCancel (h : Stays k s t) (hn : t.pendingActivities.get? k = none) :
    Along (Settles k) s (fun _ => t) (t.confirmsCancel env e f) := by
  unfold confirmsCancel
  split
  · cases deserializeFailure env.converter f with
    | ok c => exact .ok (.dropped h hn)
    | error c => exact Settles.dropped h hn
  · exact .ok (.dropped h hn)

theorem tries_queuedEvent {r : TaskResult} :
    Along (Tries x k p False False) s id (s.deliverQueuedActivityEvent env k r) := by
  unfold deliverQueuedActivityEvent
  split
  · exact .ok (Stays.pop s k).tries
  · next e he =>
    split
    · exact .ok (Stays.pop s k).tries
    · have hdrop : ∀ b, Stays k s ((s.advanceTime b).popActivity k) := fun b => .trans (frame_advanceTime s b) (.pop _ k)
      split
      · exact (settles_resolve (hdrop _) (popped _ k)).imp fun s' h => h.tries he
      · next f b st =>
        have hconfirm : Along (Settles k) s _ (((s.advanceTime (some b)).popActivity k).confirmsCancel env e f) :=
          settles_confirmsCancel (hdrop _) (popped _ k)
        cases hc : ((s.advanceTime (some b)).popActivity k).confirmsCancel env e f with
        | error r =>
          simp only [hc]
          exact (hconfirm.of_error hc).tries he
        | ok c =>
          simp only [hc, ok_bind]
          cases c with
          | true => exact .ok (Settles.tries (.wake (hdrop _) (popped _ k) _) he)
          | false => exact (settles_fail (hdrop _)).imp fun s' h => h.tries he
      · exact .after (hdrop _).tries (.raises _)
      · exact .raises _
      · exact .raises _

theorem tries_parkedTimeout {ty : TimeoutType} :
    Along (Tries x k p False False) s id (s.asyncParkedTimeout env k ty) := by
  unfold asyncParkedTimeout
  split
  · exact .ok (Frame.refl s)
  · next e he =>
    split
    · exact .ok (Frame.refl s)
    · exact tries_parkEnds he

theorem tries_parkTimeout : Along (Tries x k p False False) s id (s.deliverParkTimeout env k) := by
  unfold deliverParkTimeout
  split
  · exact tries_parkedTimeout
  · next e he =>
    have hcharged : Stays k (s.advanceTime (some (s.timeSeconds + e.pendingWaitSeconds)))
        ((s.advanceTime (some (s.timeSeconds + e.pendingWaitSeconds))).setActivity k .charged) :=
      .modifies (f := .charged) (fun _ => ⟨rfl, rfl, rfl, id⟩) _
    exact .after (frame_advanceTime s _) (.after hcharged.tries tries_parkedTimeout)

theorem tries_heartbeatCheck : Along (Tries x k p False False) s id (s.asyncHeartbeatCheck env k) := by
  unfold asyncHeartbeatCheck
  split
  · exact .ok (Frame.refl s)
  · split
    · exact .ok (Frame.refl s)
    · split
      · exact tries_parkedTimeout
      · have hbeat : Stays k s (s.setActivity k (.heartbeat false)) :=
          .modifies (f := .heartbeat false) (fun _ => ⟨rfl, rfl, rfl, id⟩) s
        refine .after hbeat.tries ?_
        dsimp only
        split
        · exact .ok (Frame.launchWaiter rfl _ _ _)
        · exact .raises _

/-- A message to the parked activity. -/
theorem tries_message {m : Message} {i : String} (hm : m.activityId? = some i) (hi : s.asyncPendingById i = some (k, e)) :
    Along (Tries x k p False False) s id (s.deliverInbox x env (some m)) := by
  have he : s.pendingActivities.get? k = some e := (asyncPendingById_some hi).1
  have hi' : (s.advanceTime m.sentAt).asyncPendingById i = some (k, e) :=
    (asyncPendingById_congr (pendingActivities_advanceTime s m.sentAt) i).trans hi
  refine .after (frame_advanceTime s m.sentAt) ?_
  have he' := pending_advanceTime he m.sentAt
  cases m <;> cases hm
  case activityHeartbeat ds b =>
    change Along _ (s.advanceTime b) id ((s.advanceTime b).applyActivityHeartbeat env i ds)
    replace hi' : (s.advanceTime b).asyncPendingById i = some (k, e) := hi'
    have hbeat : Stays k (s.advanceTime b) ((s.advanceTime b).setActivity k (.heartbeat true)) :=
      .modifies (f := .heartbeat true) (fun _ => ⟨rfl, rfl, rfl, id⟩) _
    simp only [applyActivityHeartbeat, hi']
    exact .after hbeat.tries (.after (Frame.awaitIf _ (!ds.isEmpty)) (.lift fun _ => .ok (Frame.refl _)))
  case activityResult c b =>
    change Along _ (s.advanceTime b) id ((s.advanceTime b).applyActivityResult x env i c)
    replace hi' : (s.advanceTime b).asyncPendingById i = some (k, e) := hi'
    replace he' : (s.advanceTime b).pendingActivities.get? k = some e := he'
    generalize s.advanceTime b = s₁ at hi' he' ⊢
    have hdrop : Stays k s₁ ((s₁.retireParkedTimers k).popActivity k) := .trans (frame_retireParkedTimers s₁ k) (.pop _ k)
    unfold applyActivityResult
    rw [hi']
    cases c with
    | cancelled => exact .ok (Settles.tries (.wake hdrop (popped _ k) _) he')
    | ok d =>
      have hawait : Stays k s₁ ((s₁.retireParkedTimers k).popActivity k).await := hdrop.trans (Frame.await _)
      dsimp only
      cases decodeValue env.converter d (x.activityRetType e.activityName) with
      | error y => exact (Settles.dropped hawait (popped _ k)).tries he'
      | ok v => exact (settles_resolve hawait (popped _ k)).imp fun s' h => h.tries he'
    | failed f => exact tries_parkEnds he'

/-- **An event keeps the law** of every activity. -/
theorem tries_event {w : Waiter} {r : TaskResult} : Along (Tries x k p False False) s id (s.deliverEvent x env w r) := by
  by_cases hadd : s.Addresses w r k
  · rcases hadd with hw | ⟨m, i, e, hw, rfl, hm, hi⟩
    · obtain ⟨hkind, hk⟩ : w.kind.isActivity = true ∧ w.seq = k := by simpa [Waiter.ofActivity] using hw
      unfold deliverEvent
      subst hk
      cases hw : w.kind <;> rw [hw] at hkind <;> first | (cases hkind; done) | skip
      case activity => exact tries_attemptEvent
      case qActivity => exact tries_queuedEvent
      case actS2c => exact tries_parkTimeout
      case actHb => exact tries_heartbeatCheck
    · unfold deliverEvent
      rw [hw]
      exact tries_message hm hi
  · exact (along_event fun j hj (hjk : j = k) => hadd (hjk ▸ hj)).imp fun s' (h : Stays k s s') => h.tries

theorem tries_round {done : Done} : Along (Tries x k p False False) s id (s.round x env done) := by
  have hwaiter : ∀ (w : Waiter) (s : Interp), Along (Tries x k p False False) s id (s.deliverWaiter x env done w) := by
    intro w s
    unfold deliverWaiter
    split
    · exact .ok (Frame.refl s)
    · exact (along_removeWaiter w).bind fun s₁ => tries_event
  have hfold : ∀ (ws : List Waiter) (s : Interp),
      Along (Tries x k p False False) s id (ws.foldlM (deliverWaiter x env done) s) := by
    intro ws
    induction ws with
    | nil => exact fun s => .ok (Frame.refl s)
    | cons w ws ih => exact fun s => (hwaiter w s).bind ih
  exact .after (Frame.step rfl s) (hfold _ _)

end Interp

end Dbosify
