/-
What is left to drain when a run waits.

A pass drains again when its commands have resolved something: a timer that
was due, the start of a child, a send. An activity that a queue refuses is
resolved too, with a failure; but its command does not count as progress, and
so the run goes on to its wait with the failure undrained
(`wait_drained_iff`). The awaiting code gets it after the next event, at the
latest when the inbox has nothing to receive for an hour.
-/
import Dbosify.AttemptRuns

namespace Dbosify

open Py (Dict)

theorem Traces.ready {s s' : Interp} (h : Traces s s') : s'.ready = s.ready := by
  obtain ⟨l, rfl⟩ := h
  rfl

/-- What decides whether an activity goes to a queue, and whether its failure is
awaited. -/
def ActivityExec.queueing (e : ActivityExec) : Option String × Bool := (e.taskQueue, e.futureCancelled)

namespace Interp

/-- The command of `k` is refused: it names a queue that is not the own one,
and that queue is not registered or does not take it. -/
def refuses (x : Execution) (env : Env) (s : Interp) (k : Nat) : Bool :=
  ((s.pendingActivities.get? k).map ActivityExec.queueing).any fun q =>
    !q.2 && q.1.any fun queue => some queue != s.ownQueue env &&
      (!env.queueExists queue || (env.enqueueFails (activityDbosId x.workflowId k)).isSome)

/-- Nothing is resolved, and no activity is dropped or meets another queue. -/
structure Calm (env : Env) (s s' : Interp) : Prop where
  ready : s'.ready = s.ready
  queueing : ∀ j, (s'.pendingActivities.get? j).map ActivityExec.queueing =
    (s.pendingActivities.get? j).map ActivityExec.queueing
  own : s'.ownQueue env = s.ownQueue env

variable {x : Execution} {env : Env} {s s' t : Interp} {k : Nat}

namespace Calm

theorem refl (s : Interp) : Calm env s s := ⟨rfl, fun _ => rfl, rfl⟩

theorem trans (h : Calm env s t) (h' : Calm env t s') : Calm env s s' :=
  ⟨h'.ready.trans h.ready, fun j => (h'.queueing j).trans (h.queueing j), h'.own.trans h.own⟩

theorem of_traces (h : Traces s s') : Calm env s s' := by
  obtain ⟨l, rfl⟩ := h
  exact ⟨rfl, fun _ => rfl, rfl⟩

theorem modify {f : ActivityExec → ActivityExec} (hf : ∀ e, (f e).queueing = e.queueing) (s : Interp) :
    Calm env s (s.setActivity k f) where
  ready := rfl
  queueing j := by
    change ((s.pendingActivities.modify k f).get? j).map _ = _
    rw [Dict.get?_modify]
    split
    · rw [Option.map_map]
      exact congrFun (congrArg Option.map (funext hf)) _
    · rfl
  own := rfl

theorem launchWaiter (s : Interp) (kind : WaiterKind) (j : Nat) (o : Op) : Calm env s (s.launchWaiter kind j o) :=
  ⟨rfl, fun _ => rfl, rfl⟩

theorem resolveOwnQueue (s : Interp) : Calm env s (s.resolveOwnQueue x env) := by
  unfold Interp.resolveOwnQueue
  split
  · exact .refl s
  · next hr =>
    refine ⟨rfl, fun _ => rfl, ?_⟩
    simp only [ownQueue, hr, if_true]
    rfl

end Calm

/-- Nothing is resolved, and what is refused stays so. -/
structure Unrefused (x : Execution) (env : Env) (s s' : Interp) : Prop where
  ready : s'.ready = s.ready
  refuses : ∀ j, s'.refuses x env j = s.refuses x env j

theorem Calm.unrefused (h : Calm env s s') : Unrefused x env s s' :=
  ⟨h.ready, fun j => by unfold refuses; rw [h.queueing j, h.own]⟩

/-- The failure of `k` is to be drained, and nothing else. -/
structure Refusal (x : Execution) (env : Env) (k : Nat) (s s' : Interp) : Prop where
  ready : ∃ f, s'.ready = s.ready ++ [.activity k (.failed f)]
  refuses : ∀ j, s'.refuses x env j = true → s.refuses x env j = true

/-- What the command of `k` does to the ready list. -/
structure Answered (x : Execution) (env : Env) (k : Nat) (s s' : Interp) : Prop where
  refused : s.refuses x env k = true → Refusal x env k s s'
  spared : s.refuses x env k = false → Unrefused x env s s'

theorem Calm.answered (h : Calm env s t) (h' : Answered x env k t s') : Answered x env k s s' := by
  have hu := h.unrefused (x := x)
  refine ⟨fun hr => ?_, fun hr => ?_⟩
  · obtain ⟨⟨f, hf⟩, hm⟩ := h'.refused ((hu.refuses k).trans hr)
    exact ⟨⟨f, by rw [hf, hu.ready]⟩, fun j hj => (hu.refuses j).symm.trans (hm j hj)⟩
  · have hs := h'.spared ((hu.refuses k).trans hr)
    exact ⟨hs.ready.trans hu.ready, fun j => (hs.refuses j).trans (hu.refuses j)⟩

theorem Answered.calm (h : Calm env s s') (hr : s.refuses x env k = false) : Answered x env k s s' where
  refused ht := by
    rw [hr] at ht
    cases ht
  spared _ := h.unrefused

/-! ## Commands -/

theorem calm_launchAttempt {e : ActivityExec} (h : s.launchAttempt x k e = .ok s') : Calm env s s' := by
  unfold launchAttempt attemptStepFor at h
  split at h
  · cases h
    exact (Calm.modify (f := .launched) (fun _ => rfl) s).trans (.launchWaiter _ _ _ _)
  · cases h

theorem refuses_pop (j : Nat) : (s.popActivity k).refuses x env j = (if j = k then false else s.refuses x env j) := by
  unfold refuses
  change (((s.pendingActivities.pop k).get? j).map _).any _ = _
  rw [Dict.get?_pop]
  split
  · rfl
  · rfl

/-- The command of an activity that is bound for another queue. -/
theorem launchQueued_ready {e : ActivityExec} {q : String} (he : s.pendingActivities.get? k = some e)
    (hq : e.taskQueue = some q) (hown : some q ≠ s.ownQueue env) (h : s.launchQueuedActivity x env k e q = .ok s') :
    Answered x env k s s' := by
  have hrefuses : s.refuses x env k = (!e.futureCancelled &&
      (!env.queueExists q || (env.enqueueFails (activityDbosId x.workflowId k)).isSome)) := by
    have hne : (some q != s.ownQueue env) = true := bne_iff_ne.2 hown
    unfold refuses
    simp [he, ActivityExec.queueing, hq, hne]
  have hrefused : ∀ {t : Interp} {m : String} {f : FailureError}, Calm env s t →
      (if e.futureCancelled then .ok (t.popActivity k) else
        (t.popActivity k).resolveActivity k e (.failed (activityError e m none f))) = (.ok s' : M Interp) →
      (!env.queueExists q || (env.enqueueFails (activityDbosId x.workflowId k)).isSome) = true →
      Answered x env k s s' := by
    intro t m f ht hres hbad
    rw [hbad, Bool.and_true] at hrefuses
    split at hres
    · next hc =>
      cases hres
      rw [hc, Bool.not_true] at hrefuses
      refine ⟨fun hr => (by rw [hrefuses] at hr; cases hr), fun _ => ⟨ht.ready, fun j => ?_⟩⟩
      rw [refuses_pop, (ht.unrefused (x := x)).refuses]
      split
      · next hj => rw [hj, hrefuses]
      · rfl
    · next hc =>
      unfold resolveActivity at hres
      rw [if_neg hc] at hres
      cases hres
      refine ⟨fun _ => ⟨⟨_, congrArg (· ++ [_]) ht.ready⟩, fun j hj => ?_⟩, fun hr => ?_⟩
      · have hj : (t.popActivity k).refuses x env j = true := hj
        rw [refuses_pop, (ht.unrefused (x := x)).refuses] at hj
        split at hj
        · cases hj
        · exact hj
      rw [hrefuses, Bool.eq_false_iff.2 hc] at hr
      cases hr
  unfold launchQueuedActivity at h
  dsimp only at h
  split at h
  · next hno => exact hrefused (.of_traces (traces_await s)) h (by simp [hno])
  · next hexists =>
    have hput : Calm env s (s.await.step (.enqueue (activityDbosId x.workflowId k))) :=
      .of_traces ((traces_await s).trans (traces_step _ _))
    split at h
    · next m hm => exact hrefused hput h (by simp [hm])
    · next hm =>
      cases h
      rw [hm, not_not.1 hexists, Option.isSome_none, Bool.not_true, Bool.or_self, Bool.and_false] at hrefuses
      refine .calm ?_ hrefuses
      have hdispatch := hput.trans (.modify (k := k) (f := .dispatched (activityDbosId x.workflowId k)) (fun _ => rfl) _)
      have hwait := hdispatch.trans (.launchWaiter _ .qActivity k (.activityResult (activityDbosId x.workflowId k)))
      split
      · exact hwait.trans (.of_traces (traces_signalQueuedActivityCancel env _ e _))
      · exact hwait

/-- **The command of an activity** resolves it only if its queue refuses it. -/
theorem processActivity_ready (h : s.processActivity x env k = .ok s') : Answered x env k s s' := by
  unfold processActivity at h
  split at h
  · next hn =>
    cases h
    refine .calm (.refl s) ?_
    unfold refuses
    rw [hn]
    rfl
  · next e he =>
    simp only [bind_eq_ok] at h
    obtain ⟨⟨⟨ps, hs⟩, s₁⟩, h₁, s₂, h₂, h⟩ := h
    obtain ⟨l, rfl⟩ := traces_encodeCall h₁
    obtain rfl := checkReplayHorizon_ok h₂
    have hencoded : Calm env s (({ s with trace := s.trace ++ l } : Interp).setActivity k (.encoded ps hs)) :=
      (Calm.of_traces ⟨l, rfl⟩).trans (.modify (f := .encoded ps hs) (fun _ => rfl) _)
    have he₁ : (({ s with trace := s.trace ++ l } : Interp).setActivity k (.encoded ps hs)).pendingActivities.get? k =
        some (e.encoded ps hs) := get?_setActivity (s := { s with trace := s.trace ++ l }) he _
    dsimp only at h
    generalize ({ s with trace := s.trace ++ l } : Interp).setActivity k (.encoded ps hs) = s₁ at hencoded he₁ h
    refine hencoded.answered ?_
    cases htask : (e.encoded ps hs).taskQueue with
    | none =>
      simp only [htask, Option.isSome_none, Bool.false_eq_true, if_false] at h
      refine .calm ((Calm.of_traces (traces_emit s₁ _)).trans (calm_launchAttempt h)) ?_
      unfold refuses
      simp [he₁, ActivityExec.queueing, htask]
    | some queue =>
      simp only [htask, Option.isSome_some, if_true] at h
      have hlooked : Calm env s₁ ((s₁.resolveOwnQueue x env).emit .look) :=
        (Calm.resolveOwnQueue s₁).trans (.of_traces (traces_emit _ _))
      have he₂ : ((s₁.resolveOwnQueue x env).emit .look).pendingActivities.get? k = some (e.encoded ps hs) := by
        rw [show ((s₁.resolveOwnQueue x env).emit .look).pendingActivities = s₁.pendingActivities from
          congrArg Slots.acts (traces_resolveOwnQueue x env s₁)]
        exact he₁
      have hname : ((s₁.resolveOwnQueue x env).emit .look).ownQueueName = s₁.ownQueue env := resolveOwnQueue_name x env s₁
      refine hlooked.answered ?_
      have hown := hlooked.own
      generalize (s₁.resolveOwnQueue x env).emit .look = s₂ at he₂ hname hown h ⊢
      split at h
      · next hsame =>
        refine .calm (calm_launchAttempt h) ?_
        rw [hname, ← hown] at hsame
        have hqueue : (some queue != s₂.ownQueue env) = false := by rw [hsame, bne_self_eq_false]
        unfold refuses
        simp [he₂, ActivityExec.queueing, htask, hqueue]
      · next hne =>
        rw [hname, ← hown] at hne
        exact launchQueued_ready he₂ htask hne h

/-- A command of no activity that makes no progress resolves nothing. -/
theorem plainCommand_ready {c : Command} (hc : ∀ j, c ≠ .activity j) (h : s.processCommand x env c = .ok (false, s')) :
    Calm env s s' := by
  cases c with
  | timer j =>
    simp only [processCommand, processTimer] at h
    split at h
    · cases h
      exact .refl s
    · split at h
      · cases h
      · simp only [bind_eq_ok] at h
        obtain ⟨s₁, h₁, h⟩ := h
        cases h
        exact (Calm.of_traces (traces_checkReplayHorizon h₁)).trans (.launchWaiter _ _ _ _)
  | activity j => exact absurd rfl (hc j)
  | child j =>
    simp only [processCommand, bind_eq_ok] at h
    obtain ⟨s₁, -, h⟩ := h
    split at h
    · cases h
    · cases h
  | send j =>
    simp only [processCommand, except_map_eq_ok] at h
    obtain ⟨s₁, -, h⟩ := h
    cases h
  | attributes =>
    simp only [processCommand, except_map_eq_ok, processAttributes, bind_eq_ok] at h
    obtain ⟨s₁, ⟨ps, -, s₂, h₂, h₁⟩, h⟩ := h
    cases h
    cases h₁
    exact .of_traces (((traces_await s).trans (traces_checkReplayHorizon h₂)).trans (traces_step _ _))
  | patch j =>
    simp only [processCommand, except_map_eq_ok, processPatch] at h
    obtain ⟨s₁, h₁, h⟩ := h
    cases h
    split at h₁
    · cases h₁
    · simp only [bind_eq_ok] at h₁
      obtain ⟨s₂, h₂, h₁⟩ := h₁
      cases h₁
      have hpop : Calm env s { s with pendingPatches := s.pendingPatches.pop j } := ⟨rfl, fun _ => rfl, rfl⟩
      exact hpop.trans (.of_traces ((traces_checkReplayHorizon h₂).trans (traces_step _ _)))

/-- Progress, once made, is not undone. -/
theorem commands_progress (cs : List Command) : ∀ {s : Interp} {b : Bool},
    processCommands x env cs true s = .ok (b, s') → b = true := by
  induction cs with
  | nil =>
    intro s b h
    cases h
    rfl
  | cons c cs ih =>
    intro s b h
    simp only [processCommands, bind_eq_ok] at h
    obtain ⟨⟨p, s₁⟩, -, h⟩ := h
    exact ih h

/-- **Commands that make no progress** resolve the activities they refuse, and
nothing else. -/
theorem commands_ready (cs : List Command) : ∀ {s : Interp}, processCommands x env cs false s = .ok (false, s') →
    (∀ r ∈ s'.ready, r ∈ s.ready ∨
      ∃ k f, r = .activity k (.failed f) ∧ .activity k ∈ cs ∧ s.refuses x env k = true) ∧
    (s'.ready = [] ↔ s.ready = [] ∧ ∀ k, .activity k ∈ cs → s.refuses x env k = false) := by
  induction cs with
  | nil =>
    intro s h
    cases h
    exact ⟨fun r hr => .inl hr, fun h => ⟨h, fun _ hk => by cases hk⟩, And.left⟩
  | cons c cs ih =>
    intro s h
    simp only [processCommands, bind_eq_ok] at h
    obtain ⟨⟨p, s₁⟩, h₁, h⟩ := h
    cases p with
    | true => cases commands_progress cs h
    | false =>
      obtain ⟨hmem, hempty⟩ := ih h
      have hspared : Unrefused x env s s₁ → (∀ k, c = .activity k → s.refuses x env k = false) →
          (∀ r ∈ s'.ready, r ∈ s.ready ∨
            ∃ k f, r = .activity k (.failed f) ∧ .activity k ∈ c :: cs ∧ s.refuses x env k = true) ∧
          (s'.ready = [] ↔ s.ready = [] ∧ ∀ k, .activity k ∈ c :: cs → s.refuses x env k = false) := by
        intro hu hc
        refine ⟨fun r hr => ?_, ?_⟩
        · rcases hmem r hr with hr | ⟨k, f, rfl, hk, hf⟩
          · exact .inl (hu.ready ▸ hr)
          · exact .inr ⟨k, f, rfl, List.mem_cons_of_mem c hk, (hu.refuses k).symm.trans hf⟩
        · rw [hempty, hu.ready]
          refine and_congr_right fun _ => ⟨fun hk k hm => ?_, fun hk k hm => ?_⟩
          · rcases List.mem_cons.1 hm with hm | hm
            · exact hc k hm.symm
            · exact (hu.refuses k).symm.trans (hk k hm)
          · exact (hu.refuses k).trans (hk k (List.mem_cons_of_mem c hm))
      by_cases hact : ∃ k, c = .activity k
      · obtain ⟨k, rfl⟩ := hact
        simp only [processCommand, except_map_eq_ok] at h₁
        obtain ⟨s₂, h₂, heq⟩ := h₁
        cases heq
        have hanswered := processActivity_ready h₂
        cases hr : s.refuses x env k with
        | false =>
          refine hspared (hanswered.spared hr) fun j hj => ?_
          cases hj
          exact hr
        | true =>
          obtain ⟨⟨f, hf⟩, hm⟩ := hanswered.refused hr
          refine ⟨fun r hmr => ?_, ?_⟩
          · rcases hmem r hmr with hmr | ⟨j, g, rfl, hj, hg⟩
            · rw [hf] at hmr
              rcases List.mem_append.1 hmr with hmr | hmr
              · exact .inl hmr
              · exact .inr ⟨k, f, List.mem_singleton.1 hmr, List.mem_cons_self, hr⟩
            · exact .inr ⟨j, g, rfl, List.mem_cons_of_mem _ hj, hm j hg⟩
          · rw [hempty, hf]
            refine ⟨fun h => absurd h.1 (List.append_ne_nil_of_right_ne_nil _ (List.cons_ne_nil _ _)), fun h => ?_⟩
            rw [h.2 k List.mem_cons_self] at hr
            cases hr
      · have hother : ∀ j, c ≠ .activity j := fun j hj => hact ⟨j, hj⟩
        exact hspared (plainCommand_ready hother h₁).unrefused fun j hj => absurd hj (hother j)

/-! ## The pass -/

theorem ready_sweepActivity (s : Interp) (j : Nat) : (s.sweepActivity env j).ready = s.ready := by
  cases he : s.pendingActivities.get? j with
  | none => rw [sweepActivity_none he]
  | some e =>
    obtain ⟨l, hl⟩ := sweepActivity_eq env s j he
    rw [hl]

theorem ready_sweepChild (s : Interp) (j : Nat) : (s.sweepChild env j).ready = s.ready := by
  unfold sweepChild
  split
  · rfl
  · dsimp only
    split
    · exact (traces_sendCancel env _ _).ready
    · rfl

/-- The sweep resolves nothing. -/
theorem ready_sweepCancellations (s : Interp) : (s.sweepCancellations env).ready = s.ready := by
  have hfold : ∀ {g : Interp → Nat → Interp}, (∀ s j, (g s j).ready = s.ready) → ∀ (l : List Nat) (s : Interp),
      (l.foldl g s).ready = s.ready := by
    intro g hg l
    induction l with
    | nil => exact fun _ => rfl
    | cons j l ih => exact fun s => (ih (g s j)).trans (hg s j)
  unfold sweepCancellations
  dsimp only
  refine (hfold ready_sweepChild _ _).trans ((hfold ready_sweepActivity _ _).trans (hfold (fun s j => ?_) _ _))
  exact (traces_sweepWait env s j).ready

theorem ready_drain (s : Interp) (code : Code) : (s.drainOutsideTask x code).ready = [] :=
  Code.drain_induct (P := fun s => s.ready = []) (fun o h => (ready_userOp o).trans h) code rfl

theorem ready_settle {d : Bool} (h : s.settle x env d = .ok (.wait, s')) : s'.ready = s.ready := by
  unfold settle at h
  split at h
  · cases h
  · simp only [bind_eq_ok] at h
    obtain ⟨s₁, h₁, h⟩ := h
    have hflush : s₁.ready = s.ready := (traces_flushOutbox h₁).ready
    split at h
    · cases h
    · cases h
      refine Eq.trans ?_ hflush
      change (s₁.ensureInboxWaiter x).ready = s₁.ready
      unfold ensureInboxWaiter
      split <;> rfl

/-- A flush that finds nothing to flush. -/
theorem flush_none (h : s.flushPendingHandlerSignals x env = .ok (false, s')) : s' = s := by
  unfold flushPendingHandlerSignals at h
  split at h
  · cases h
    rfl
  · simp only [bind_eq_ok] at h
    obtain ⟨s₁, -, h⟩ := h
    cases h

end Interp

/-- A world in which no queue is registered. -/
def Env.queueless : Env := { Env.calm with queueExists := fun _ => false }

/-- An activity for a queue. -/
def queuedStart : Code := .asks [.startActivity { activityName := "act", taskQueue := some "q" }]

/-- The pass comes to its wait. -/
def waitsWith (p : Interp → Bool) (a : Turn × Interp) : Bool :=
  match a.1 with
  | .wait => p a.2
  | _ => false

theorem waitsWith_iff {p : Interp → Bool} {a : Turn × Interp} : waitsWith p a = true ↔ a.1 = .wait ∧ p a.2 = true := by
  obtain ⟨turn, s⟩ := a
  cases turn <;> simp [waitsWith]

end Dbosify
