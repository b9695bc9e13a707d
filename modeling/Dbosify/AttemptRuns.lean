/-
The attempts of an activity, over whole runs.

A pass launches the first attempt of an activity as it processes its command,
which is queued once; no other command and no request of user code has a part
in them. So from the request that starts an activity on, every run keeps the
law of its attempts (`attempts_numbered`): they are numbered without a gap, the
policy allows each of them, one outcome at most reaches user code, and none of
them starts after that.
-/
import Dbosify.AttemptLaw

namespace Dbosify

open Py (Dict)

namespace Interp

variable {x : Execution} {env : Env} {s s' t : Interp} {k : Nat} {p : RetryPolicy} {due due' : Prop} {e : ActivityExec}

/-! ## Its command -/

/-- A piece comes to where the command is `due'`, or raises. -/
def Comes {α : Type} (x : Execution) (k : Nat) (p : RetryPolicy) (due due' : Prop) (s : Interp) (state : α → Interp)
    (m : M α) : Prop :=
  match m with
  | .ok a => Tries x k p due due' s (state a)
  | .error r => ∃ d, Tries x k p due d s r.state

namespace Comes

variable {α β : Type} {f : α → Interp} {g : β → Interp} {m : M α} {d : Prop}

theorem of_along (h : Along (Tries x k p due due) s f m) : Comes x k p due due s f m := by
  cases m with
  | ok a => exact h
  | error r => exact ⟨due, h⟩

theorem of_stays (h : Along (Stays k) s f m) : Comes x k p due due s f m :=
  of_along (h.imp fun _ hs => hs.tries)

theorem after (h : Tries x k p due d s t) (hm : Comes x k p d due' t f m) : Comes x k p due due' s f m := by
  cases m with
  | ok a => exact h.trans hm
  | error r => exact hm.imp fun _ hr => h.trans hr

theorem bind_eq {b : α → M β} (h : Comes x k p due d s f m) (hb : ∀ a, m = .ok a → Comes x k p d due' (f a) g (b a)) :
    Comes x k p due due' s g (m >>= b) := by
  cases m with
  | ok a => exact after h (hb a rfl)
  | error r => exact h

theorem map {b : α → β} (h : Comes x k p due due' s f m) (hb : ∀ a, g (b a) = f a) :
    Comes x k p due due' s g (m.map b) := by
  cases m with
  | ok a =>
    change Tries x k p due due' s (g (b a))
    rw [hb a]
    exact h
  | error r => exact h

theorem of_ok {a : α} (h : Comes x k p due due' s f m) (hm : m = .ok a) : Tries x k p due due' s (f a) := by
  subst hm
  exact h

theorem of_error {r : Raised} (h : Comes x k p due due' s f m) (hm : m = .error r) :
    ∃ d, Tries x k p due d s r.state := by
  subst hm
  exact h

end Comes

/-- An activity that is gone has nothing to launch. -/
theorem Tries.gone_done (hn : s.pendingActivities.get? k = none) : Tries x k p due False s s where
  law hl := ⟨hl.seq, hl.policy, hl.numbered, False.elim, fun _ _ he => by rw [hn] at he; cases he⟩
  owed := le_rfl
  gone h := ⟨h, rfl⟩
  seq := le_rfl

/-- An activity that goes to a queue. -/
theorem Tries.enqueued (h : Stays k s t) (hq : t.Enqueued x k) : Tries x k p due False s t where
  law hl := ⟨(h.law hl).seq, (h.law hl).policy, .inl hq, False.elim, fun _ _ _ => .inl hq⟩
  owed := h.owed
  gone hn := ⟨h.gone hn, h.attempts⟩
  seq := h.seq

theorem comes_launchAttempt (he : s.pendingActivities.get? k = some e) :
    Comes x k p True False s id (s.launchAttempt x k e) := by
  cases hl : s.launchAttempt x k e with
  | ok s' =>
    exact tries_launchAttempt he he (fun _ hl => hl.first he) rfl (List.Subset.refl _) rfl le_rfl rfl rfl hl
  | error r =>
    unfold launchAttempt attemptStepFor at hl
    split at hl
    · cases hl
    · cases hl
      exact ⟨True, Frame.refl s⟩

theorem comes_launchQueued {e' : ActivityExec} {q : String} (he : s.pendingActivities.get? k = some e) :
    Comes x k p True False s id (s.launchQueuedActivity x env k e' q) := by
  have hrefused : ∀ {t : Interp} {o : ActivityOutcome}, Stays k s t →
      Comes x k p True False s id (if e'.futureCancelled then .ok (t.popActivity k) else
        (t.popActivity k).resolveActivity k e' o) := by
    intro t o ht
    have hdrop : Stays k s (t.popActivity k) := ht.trans (.pop t k)
    split
    · exact (Settles.dropped hdrop (popped t k)).tries he
    · have hres := settles_resolve (e := e') (o := o) hdrop (popped t k)
      cases hr : (t.popActivity k).resolveActivity k e' o with
      | ok s' => exact (hres.of_ok hr).tries he
      | error r => exact ⟨False, (hres.of_error hr).tries he⟩
  have hawait : Stays k s s.await := Frame.await s
  unfold launchQueuedActivity
  dsimp only
  split
  · exact hrefused hawait
  · have hput : Stays k s (s.await.step (.enqueue (activityDbosId x.workflowId k))) := hawait.trans (Frame.step rfl _)
    split
    · exact hrefused hput
    · have hq : (s.await.step (.enqueue (activityDbosId x.workflowId k))).Enqueued x k := by
        rw [Enqueued, step, acts_emit]
        exact List.mem_append_right _ List.mem_cons_self
      refine .after (.enqueued hput hq) (.of_stays ?_)
      generalize s.await.step (.enqueue (activityDbosId x.workflowId k)) = s₁
      have hdispatch : Stays k s₁ (s₁.setActivity k (.dispatched (activityDbosId x.workflowId k))) :=
        .modifies (f := .dispatched (activityDbosId x.workflowId k)) (fun _ => ⟨rfl, rfl, rfl, id⟩) _
      have hwait := hdispatch.trans (Frame.launchWaiter (o := .activityResult (activityDbosId x.workflowId k)) rfl _ .qActivity k)
      refine .ok (hwait.trans ?_)
      split
      · exact Stays.trans (.emit rfl _) (.emit rfl _)
      · exact Frame.refl _

/-- **The command of the activity** starts its first attempt, or leaves it to
another worker. -/
theorem comes_processActivity : Comes x k p True False s id (s.processActivity x env k) := by
  unfold processActivity
  split
  · next hn => exact Tries.gone_done hn
  · next e he =>
    refine (Comes.of_stays along_encodeCall).bind_eq fun a ha => ?_
    obtain ⟨⟨ps, hs⟩, s₁⟩ := a
    obtain ⟨l, rfl⟩ := traces_encodeCall ha
    generalize hs₁ : ({ s with trace := s.trace ++ l } : Interp) = s₁
    have he₁ : s₁.pendingActivities.get? k = some e := by rw [← hs₁]; exact he
    have hencoded : Stays k s₁ (s₁.setActivity k (.encoded ps hs)) :=
      .modifies (f := .encoded ps hs) (fun _ => ⟨rfl, rfl, rfl, id⟩) _
    have he₂ := get?_setActivity he₁ (.encoded ps hs)
    refine .after hencoded.tries ?_
    dsimp only
    generalize s₁.setActivity k (.encoded ps hs) = s₂ at he₂ ⊢
    cases htask : (e.encoded ps hs).taskQueue with
    | none =>
      refine (Comes.of_stays along_checkReplayHorizon).bind_eq fun s₃ h₃ => ?_
      obtain rfl := checkReplayHorizon_ok h₃
      exact comes_launchAttempt he₂
    | some queue =>
      have he₃ : (s₂.resolveOwnQueue x env).pendingActivities.get? k = some (e.encoded ps hs) := by
        rw [show (s₂.resolveOwnQueue x env).pendingActivities = s₂.pendingActivities from
          congrArg Slots.acts (traces_resolveOwnQueue x env s₂)]
        exact he₂
      refine .after (frame_resolveOwnQueue x env s₂ : Stays k _ _).tries ?_
      refine (Comes.of_stays along_checkReplayHorizon).bind_eq fun s₄ h₄ => ?_
      obtain rfl := checkReplayHorizon_ok h₄
      dsimp only
      split
      · exact comes_launchAttempt he₃
      · exact comes_launchQueued he₃

/-! ## Passes -/

/-- The commands of other activities, and all that are of no activity. -/
theorem stays_command {d : Command} (hd : d ≠ .activity k) : Along (Stays k) s (·.2) (s.processCommand x env d) := by
  by_cases hact : ∃ j, d = .activity j
  · obtain ⟨j, rfl⟩ := hact
    have hj : j ≠ k := fun h => hd (h ▸ rfl)
    exact (along_processActivity (c := ⟨(· ≠ k), fun _ => True, True⟩) hj trivial fun _ _ _ _ _ => trivial).map fun _ => rfl
  · exact along_command fun j h => hact ⟨j, h⟩

/-- **The commands of a pass**, among which that of the activity stands once at
most. -/
theorem comes_commands : ∀ (cs : List Command), (activitySeqs cs).Nodup → ∀ (b : Bool) (s : Interp),
    Comes x k p (.activity k ∈ cs) False s (·.2) (processCommands x env cs b s) := by
  intro cs
  induction cs with
  | nil =>
    intro _ b s
    rw [show (.activity k ∈ ([] : List Command)) = False from eq_false List.not_mem_nil]
    exact .of_along (.ok (Frame.refl s))
  | cons d cs ih =>
    intro hn b s
    have htail : (activitySeqs cs).Nodup := hn.sublist ((List.sublist_cons_self d cs).filterMap _)
    have hfirst : Comes x k p (.activity k ∈ d :: cs) (.activity k ∈ cs) s (·.2) (s.processCommand x env d) := by
      by_cases hd : d = .activity k
      · subst hd
        have hnot : .activity k ∉ cs := fun hm =>
          (List.nodup_cons.1 (show (k :: activitySeqs cs).Nodup from hn)).1 (List.mem_filterMap.2 ⟨_, hm, rfl⟩)
        rw [eq_false hnot, eq_true (List.mem_cons_self (a := Command.activity k) (l := cs))]
        exact comes_processActivity.map fun _ => rfl
      · have hsame : (.activity k ∈ d :: cs) = (.activity k ∈ cs) :=
          propext ⟨fun h => (List.mem_cons.1 h).resolve_left fun h => hd h.symm, List.mem_cons_of_mem d⟩
        rw [hsame]
        exact .of_stays (stays_command hd)
    exact hfirst.bind_eq fun a _ => ih htail _ _

/-- **What follows a drain** launches the first attempt of an activity whose
command is queued. -/
theorem comes_afterDrain {d : Bool} (hn : (activitySeqs s.commands).Nodup) :
    Comes x k p (.activity k ∈ s.commands) False s (·.2) (s.afterDrain x env d) := by
  have hsweep : Stays k s (s.sweepCancellations env) := frame_sweepCancellations trivial env s
  have hkept : Queue s (s.sweepCancellations env) := frame_sweepCancellations trivial env s
  unfold afterDrain
  refine .after hsweep.tries ((Comes.of_stays along_flushSignals).bind_eq fun a ha => ?_)
  have hcommands : a.2.commands = s.commands := Eq.trans (along_flushSignals.of_ok (R := Queue) ha) hkept
  have hclear : Stays k a.2 { a.2 with commands := [] } := .still rfl rfl rfl rfl
  have hrun : Comes x k p (.activity k ∈ s.commands) False { a.2 with commands := [] } (·.2)
      (processCommands x env a.2.commands false { a.2 with commands := [] }) := by
    rw [hcommands]
    exact comes_commands _ hn _ _
  refine .after hclear.tries (hrun.bind_eq fun b _ => ?_)
  dsimp only
  split
  · exact .of_along (.ok (Frame.refl _))
  · exact .of_stays along_settle

/-! ## Drains -/

theorem Ends.ready (h : Ends s s') : s'.ready = s.ready := by
  obtain ⟨_, _, _, _, rfl⟩ := h
  rfl

theorem ready_startActivity (a : StartActivity) : (M.state (s.startActivity x a)).ready = s.ready := by
  unfold startActivity assertNotReadOnly attemptStepFor
  split
  · rfl
  · simp only [ok_bind]
    split
    · split
      · simp only [ok_bind]
        split
        · rfl
        · split <;> rfl
      · rfl
    · split
      · rfl
      · split <;> rfl

theorem ready_cancelActivityFuture (j : Nat) : (s.cancelActivityFuture j).ready = s.ready := by
  unfold cancelActivityFuture
  split
  · rfl
  · split <;> rfl

theorem ready_requestActivityCancel (j : Nat) : (s.requestActivityCancel j).ready = s.ready := by
  unfold requestActivityCancel
  split
  · rfl
  · split
    · dsimp only
      split <;> rfl
    · exact ready_cancelActivityFuture j

/-- User code wakes nobody. -/
theorem ready_userOp (o : UserOp) : (M.state (o.run x s)).ready = s.ready := by
  cases o <;> simp only [UserOp.run]
  case startActivity a => exact ready_startActivity a
  case requestActivityCancel j => exact ready_requestActivityCancel j
  case cancelActivityAwait j => exact ready_cancelActivityFuture j
  case cancelTimer j => unfold cancelTimer; split <;> rfl
  case createTimer d =>
    unfold createTimer assertNotReadOnly
    split
    · rfl
    · simp only [ok_bind]
      split <;> rfl
  case startChildWorkflow c =>
    unfold startChildWorkflow assertNotReadOnly
    split
    · rfl
    · simp only [ok_bind]
      split <;> rfl
  case cancelChildStart j => rfl
  case cancelChildResult j =>
    unfold cancelChildResult
    split
    · rfl
    · split <;> rfl
  case sendToWorkflow t e c => unfold sendToWorkflow assertNotReadOnly; split <;> rfl
  case cancelSend j => rfl
  case upsertMemo u => unfold upsertMemo assertNotReadOnly; split <;> rfl
  case patched i =>
    unfold patch assertNotReadOnly
    split
    · rfl
    · simp only [ok_bind]
      split
      · rfl
      · split <;> rfl
  case setHandler c n d =>
    unfold setHandler assertNotReadOnly
    split
    · rfl
    · simp only [ok_bind]
      split
      · rfl
      · rfl
      · split
        · rfl
        · split <;> rfl
  case startHandler t => exact (ends_startHandler x s t).ready
  case handlerEnds t e => exact (ends_handlerEnds x s t e).ready
  case primaryEnds e => exact (ends_primaryEnds x s e).ready
  case abort e => exact (ends_recordWorkflowError x s e).ready

/-- Requests of user code leave a started activity at its attempt, and queue no
command for it. -/
structure Asks (k : Nat) (s s' : Interp) : Prop where
  stays : Stays k s s'
  command : .activity k ∈ s'.commands ↔ .activity k ∈ s.commands

theorem Asks.refl (s : Interp) : Asks k s s := ⟨Frame.refl s, Iff.rfl⟩

theorem Asks.trans (h : Asks k s t) (h' : Asks k t s') : Asks k s s' :=
  ⟨h.stays.trans h'.stays, h'.command.trans h.command⟩

theorem Asks.request (hk : k ≤ s.activitySeq) (ha : s'.acts = s.acts) (hr : s'.ready = s.ready) (h : Request s s') :
    Asks k s s' := by
  have hstays : (∀ {e'}, s'.pendingActivities.get? k = some e' →
      ∃ e, s.pendingActivities.get? k = some e ∧ e.SameAttempt e') → s.activitySeq ≤ s'.activitySeq → Stays k s s' := by
    intro hexec hseq
    refine ⟨congrArg (List.filterMap (actAttempt k)) ha, ?_, hexec, ?_, hseq⟩
    · rw [ha]
      exact List.Subset.refl _
    · rw [outcomesOf, resolved, hr]
      rfl
  cases h with
  | @other cs hcs hp hn hc =>
    refine ⟨hstays (fun he => ⟨_, hp ▸ he, .refl _⟩) hn.ge, ?_⟩
    rw [hc, List.mem_append]
    refine or_iff_left fun hm => ?_
    have hmem : k ∈ activitySeqs cs := List.mem_filterMap.2 ⟨_, hm, rfl⟩
    rw [hcs] at hmem
    cases hmem
  | refused hp hn hc => exact ⟨hstays (fun he => ⟨_, hp ▸ he, .refl _⟩) (by omega), by rw [hc]⟩
  | @start e _ _ hp hn hc =>
    have hne : k ≠ s.activitySeq + 1 := by omega
    refine ⟨hstays (fun he => ?_) (by omega), ?_⟩
    · rw [hp, Dict.get?_set, if_neg hne] at he
      exact ⟨_, he, .refl _⟩
    · rw [hc, List.mem_append]
      refine or_iff_left fun hm => hne ?_
      cases List.mem_singleton.1 hm
      rfl
  | @change j f hf hp hn hc =>
    refine ⟨hstays (fun {e'} he => ?_) hn.ge, by rw [hc]⟩
    rw [hp, Dict.get?_modify] at he
    split at he
    · next hj =>
      obtain ⟨e, he₀, rfl⟩ := Option.map_eq_some_iff.1 he
      refine ⟨e, hj ▸ he₀, ?_⟩
      rcases hf with rfl | rfl <;> exact ⟨rfl, rfl, rfl, id⟩
    · exact ⟨_, he, .refl _⟩

theorem Asks.userOp (hk : k ≤ s.activitySeq) (o : UserOp) : Asks k s (M.state (o.run x s)) := by
  have hacts : (M.state (o.run x s)).acts = s.acts :=
    congrArg (fun c : Kept => c.past.flatten ++ c.trace) (kept_userOp s o)
  exact .request hk hacts (ready_userOp o) (Request.userOp s o)

/-- A drain, once the activity is started. -/
theorem Asks.drain (hk : k ≤ s.activitySeq) (code : Code) : Asks k s (code.drain x s) :=
  Code.drain_induct (P := Asks k s) (fun o h => h.trans (.userOp (hk.trans h.stays.seq) o)) code (.refl s)

/-! ## The start -/

theorem startActivity_ok {a : StartActivity} (h : t.startActivity x a = .ok s) :
    (a.retryPolicy.getD {}).validate = none ∧ s = { t with
      activitySeq := t.activitySeq + 1
      pendingActivities := t.pendingActivities.set (t.activitySeq + 1)
        ({ t with activitySeq := t.activitySeq + 1 }.newExec a (t.activitySeq + 1))
      commands := t.commands ++ [.activity (t.activitySeq + 1)] } := by
  unfold startActivity assertNotReadOnly attemptStepFor at h
  split at h
  · cases h
  simp only [ok_bind] at h
  split at h
  on_goal 1 =>
    split at h
    on_goal 2 => cases h
  all_goals
    split at h
    · cases h
    split at h
    · cases h
    next hv =>
    cases h
    exact ⟨hv, rfl⟩

/-- The request starts the activity: its command is due, and its future is all
that is owed. -/
theorem AttemptLaw.started {a : StartActivity} (h : t.startActivity x a = .ok s)
    (hnone : t.attemptsOf (t.activitySeq + 1) = []) (hwake : t.outcomesOf (t.activitySeq + 1) = []) :
    s.AttemptLaw x (t.activitySeq + 1) (a.retryPolicy.getD {}) (.activity (t.activitySeq + 1) ∈ s.commands) ∧
      s.owed (t.activitySeq + 1) = 1 := by
  obtain ⟨-, rfl⟩ := startActivity_ok h
  refine ⟨⟨le_rfl, fun he => ?_, .inr ⟨0, hnone, .inl (Nat.zero_le 1)⟩, fun _ => ⟨hnone, fun he => ?_⟩, fun hd => ?_⟩, ?_⟩
  · cases (Dict.get?_set_self _ _ _).symm.trans he
    rfl
  · cases (Dict.get?_set_self _ _ _).symm.trans he
    exact ⟨rfl, rfl⟩
  · exact absurd (List.mem_append_right _ List.mem_cons_self) hd
  · unfold owed
    rw [if_pos (by rw [Dict.get?_set_self]; rfl)]
    exact congrArg (fun l : List ActivityOutcome => l.length + 1) hwake

/-! ## Numbers yet to be given -/

/-- What is done for an activity whose number is not given out. -/
theorem Tries.unused (h : Tries x k p due due' s s') (hseqs : ∀ {e}, s.pendingActivities.get? k = some e → k ≤ s.activitySeq)
    (hk : s'.activitySeq < k) : s'.attemptsOf k = s.attemptsOf k := by
  refine (h.gone ?_).2
  cases he : s.pendingActivities.get? k with
  | none => rfl
  | some e => exact absurd (hseqs he) (not_le.2 (h.seq.trans_lt hk))

/-- **A number that was not given out** has no attempts. -/
theorem attempts_unused {c : Config} (h : Reachable x c) (hc : ∀ y, c.phase ≠ .closing (some y)) :
    ∀ j, c.interp.activitySeq < j → c.interp.attemptsOf j = [] := by
  induction h with
  | start t m => exact fun j _ => rfl
  | step hr hst ih =>
    intro j hj
    cases hst with
    | @pass s s' turn env d code hp =>
      have hw : (s.drainOutsideTask x code).Waits x := waits_drain (hr.waits (fun _ => by simp)) code
      have ht : Tries x j {} _ False (s.drainOutsideTask x code) s' := (comes_afterDrain hw.distinct).of_ok hp
      have hdrain : s.activitySeq ≤ (s.drainOutsideTask x code).activitySeq :=
        (Asks.drain (k := 0) (s := { s.suspend with ready := [] }) (Nat.zero_le _) code).stays.seq
      have hnone : s.attemptsOf j = [] := ih (fun _ => by simp) j ((hdrain.trans ht.seq).trans_lt hj)
      rw [ht.unused hw.seqs hj, attemptsOf, acts_drain]
      exact hnone
    | passRaises env d code hp => exact absurd rfl (hc _)
    | @round s s' env done hf hp =>
      have hw : s.Processing x [] := hr.waits (fun _ => by simp)
      have ht : Tries x j {} False False s s' := tries_round.of_ok hp
      rw [ht.unused hw.inv.seqs hj]
      exact ih (fun _ => by simp) j (ht.seq.trans_lt hj)
    | roundRaises env done hf hp => exact absurd rfl (hc _)

end Interp

open Interp

/-! ## Runs -/

/-- The outcomes of `k` that a drain hands over, each with the attempts made by
then. -/
def Interp.handsOver (k : Nat) (s : Interp) : List (ActivityOutcome × List Nat) :=
  (s.outcomesOf k).map fun o => (o, s.attemptsOf k)

/-- The runs of an execution from a request on that starts the activity `a`,
which user code makes in the state `t`; with what is handed over of it. -/
inductive AttemptRun (x : Execution) (a : StartActivity) (t : Interp) : List (ActivityOutcome × List Nat) → Config → Prop
  | started {s t' : Interp} {code : Code} {next : Interp → Code} (env : Env) (deadlinePassed : Bool)
      (hr : Reachable x ⟨.draining, s⟩)
      (hg : code.Gets x { s.suspend with ready := [] } t (.ask (.startActivity a) next))
      (hok : t.startActivity x a = .ok t') : AttemptRun x a t [] (s.afterPass x env deadlinePassed code)
  | pass {l : List (ActivityOutcome × List Nat)} {s : Interp} (env : Env) (deadlinePassed : Bool) (code : Code)
      (hl : AttemptRun x a t l ⟨.draining, s⟩) :
      AttemptRun x a t (l ++ s.handsOver (t.activitySeq + 1)) (s.afterPass x env deadlinePassed code)
  | round {l : List (ActivityOutcome × List Nat)} {s : Interp} (env : Env) (done : Done)
      (hl : AttemptRun x a t l ⟨.waiting, s⟩) (hf : s.Fits done) : AttemptRun x a t l (s.afterRound x env done)
  | close {l : List (ActivityOutcome × List Nat)} {s : Interp} {e : Option Exc} (env : Env)
      (hl : AttemptRun x a t l ⟨.closing e, s⟩) : AttemptRun x a t l ⟨.closing e, s.closeRun x env⟩

section Runs

variable {x : Execution} {env : Env} {s s' t : Interp} {k : Nat} {p : RetryPolicy} {due due' : Prop}
  {l : List (ActivityOutcome × List Nat)} {c : Config}

/-- What a run has come to. -/
structure Numbered (x : Execution) (k : Nat) (p : RetryPolicy) (l : List (ActivityOutcome × List Nat)) (s : Interp) :
    Prop where
  law : ∃ due, s.AttemptLaw x k p due
  owed : l.length + s.owed k ≤ 1
  last : ∀ h ∈ l, h.2 = s.attemptsOf k

/-- In the loop, its command is not due. -/
structure InLoop (x : Execution) (k : Nat) (p : RetryPolicy) (s : Interp) : Prop where
  law : s.AttemptLaw x k p False
  processing : s.Processing x []

theorem Numbered.step (h : Numbered x k p l s) (hl : s.AttemptLaw x k p due) (ht : Tries x k p due due' s s') :
    Numbered x k p l s' where
  law := ⟨due', ht.law hl⟩
  owed := (Nat.add_le_add_left ht.owed _).trans h.owed
  last o ho := by
    have hpos : 0 < l.length := List.length_pos_of_mem ho
    have hnone : s.pendingActivities.get? k = none := by
      have howed := h.owed
      unfold Interp.owed at howed
      cases he : s.pendingActivities.get? k with
      | none => rfl
      | some e =>
        rw [he, Option.isSome_some, if_pos rfl] at howed
        omega
    rw [h.last o ho, (ht.gone hnone).2]

/-- What holds wherever the run is. -/
structure AttemptRun.Holds (x : Execution) (k : Nat) (p : RetryPolicy) (l : List (ActivityOutcome × List Nat)) (c : Config) :
    Prop where
  numbered : Numbered x k p l c.interp
  loop : c.phase = .draining ∨ c.phase = .waiting → InLoop x k p c.interp

/-- A pass, from where its drain has led. -/
theorem AttemptRun.Holds.of_drain {d : Bool} {code : Code} (hs : s.Waits x)
    (h : Numbered x k p l (s.drainOutsideTask x code))
    (hl : (s.drainOutsideTask x code).AttemptLaw x k p (.activity k ∈ (s.drainOutsideTask x code).commands)) :
    AttemptRun.Holds x k p l (s.afterPass x env d code) := by
  have hpass : Comes x k p _ False (s.drainOutsideTask x code) (·.2) (s.pass x env d code) :=
    comes_afterDrain (waits_drain hs code).distinct
  unfold afterPass
  split
  · next turn s' hp =>
    have ht := hpass.of_ok hp
    exact ⟨h.step hl ht, fun _ => ⟨ht.law hl, processing_pass hs hp⟩⟩
  · next r hp =>
    obtain ⟨due, ht⟩ := hpass.of_error hp
    exact ⟨h.step hl ht, by rintro (hphase | hphase) <;> cases hphase⟩

/-- A drain hands over what waits for it. -/
theorem Numbered.drain (h : Numbered x k p l s) (hl : InLoop x k p s) (code : Code) :
    Numbered x k p (l ++ s.handsOver k) (s.drainOutsideTask x code) ∧
      (s.drainOutsideTask x code).AttemptLaw x k p (.activity k ∈ (s.drainOutsideTask x code).commands) := by
  have hsuspend := (Frame.suspend s : Stays k s s.suspend).law hl.law
  have hbegin : AttemptLaw x k p False { s.suspend with ready := [] } :=
    ⟨hsuspend.seq, hsuspend.policy, hsuspend.numbered, hsuspend.waiting, hsuspend.running⟩
  have hasks : Asks k { s.suspend with ready := [] } (s.drainOutsideTask x code) :=
    Asks.drain (s := { s.suspend with ready := [] }) hl.law.seq code
  have hcommands : s.commands = [] := hl.processing.clean.2
  have hdue : (.activity k ∈ (s.drainOutsideTask x code).commands) = False := by
    refine eq_false fun hm => ?_
    have hm : .activity k ∈ s.commands := hasks.command.1 hm
    rw [hcommands] at hm
    cases hm
  have hattempts : (s.drainOutsideTask x code).attemptsOf k = s.attemptsOf k := by rw [attemptsOf, acts_drain]; rfl
  have hlaw := hasks.stays.law hbegin
  refine ⟨⟨⟨False, hlaw⟩, ?_, fun o ho => ?_⟩, by rw [hdue]; exact hlaw⟩
  · have hless := hasks.stays.owed
    have hzero : Interp.owed k { s.suspend with ready := [] } = if (s.pendingActivities.get? k).isSome then 1 else 0 := Nat.zero_add _
    have howed := h.owed
    rw [hzero] at hless
    unfold Interp.owed at howed
    rw [List.length_append, handsOver, List.length_map]
    omega
  · rw [hattempts]
    rcases List.mem_append.1 ho with ho | ho
    · exact h.last o ho
    · obtain ⟨a, -, rfl⟩ := List.mem_map.1 ho
      rfl

theorem AttemptRun.holds {a : StartActivity} (h : AttemptRun x a t l c) :
    AttemptRun.Holds x (t.activitySeq + 1) (a.retryPolicy.getD {}) l c := by
  induction h with
  | @started s t' code next env d hr hg hok =>
    have hwaits : s.Waits x := hr.waits (fun _ => by simp)
    -- The drain up to the request has woken nobody, and performed nothing.
    have hready : t.ready = [] := hg.invariant (P := fun s => s.ready = []) (fun o h => (ready_userOp o).trans h) rfl
    have hasks : Asks 0 { s.suspend with ready := [] } t :=
      hg.invariant (P := Asks 0 _) (fun o h => h.trans (.userOp (Nat.zero_le _) o)) (.refl _)
    have hkept : t.kept = Interp.kept { s.suspend with ready := [] } :=
      hg.invariant (P := fun s' => s'.kept = Interp.kept { s.suspend with ready := [] })
        (fun o h => (kept_userOp _ o).trans h) rfl
    have hacts : t.acts = s.acts :=
      (congrArg (fun c : Kept => c.past.flatten ++ c.trace) hkept).trans (acts_suspend s)
    have hnone : t.attemptsOf (t.activitySeq + 1) = [] := by
      rw [attemptsOf, hacts]
      exact attempts_unused hr (fun _ => by simp) _ (Nat.lt_succ_of_le hasks.stays.seq)
    have hwake : t.outcomesOf (t.activitySeq + 1) = [] := by
      rw [outcomesOf, resolved, hready]
      rfl
    obtain ⟨hlaw, howed⟩ := AttemptLaw.started hok hnone hwake
    have hdrain : s.drainOutsideTask x code = (next t').drain x t' := by
      refine hg.drain.trans ?_
      rw [Code.drain, UserOp.run, hok]
      rfl
    have hrest : Asks (t.activitySeq + 1) t' (s.drainOutsideTask x code) := hdrain ▸ .drain hlaw.seq (next t')
    have hlaw' := hrest.stays.law hlaw
    rw [← propext hrest.command] at hlaw'
    exact .of_drain hwaits ⟨⟨_, hlaw'⟩, by have := hrest.stays.owed; simp only [List.length_nil]; omega, fun _ h => by cases h⟩ hlaw'
  | @pass l s env d code _ ih =>
    have hl := ih.loop (.inl rfl)
    have hd := ih.numbered.drain (x := x) hl code
    exact .of_drain (processing_idle hl.processing).waits hd.1 hd.2
  | @round l s env done _ hf ih =>
    have hl := ih.loop (.inr rfl)
    have hround : Interp.Along (Tries x (t.activitySeq + 1) (a.retryPolicy.getD {}) False False) s id (s.round x env done) := tries_round
    unfold afterRound
    split
    · next s' hp =>
      have ht := hround.of_ok hp
      refine ⟨ih.numbered.step hl.law ht, fun _ => ⟨ht.law hl.law, ?_⟩⟩
      exact deliver_processing (hl.processing.of_eq (slots_step s _)) hp
    · next r hp =>
      refine ⟨ih.numbered.step hl.law (hround.of_error hp), ?_⟩
      rintro (hphase | hphase) <;> cases hphase
  | @close l s e env _ ih =>
    obtain ⟨due, hlaw⟩ := ih.numbered.law
    have hclose : Stays (t.activitySeq + 1) s (s.closeRun x env) := frame_closeRun trivial x env s
    refine ⟨ih.numbered.step hlaw hclose.tries, ?_⟩
    rintro (hphase | hphase) <;> cases hphase

/-- A policy that was checked allows a number up to its maximum. -/
theorem RetryPolicy.allows_of_validate {m : Nat} (hv : p.validate = none) (ha : p.allows m) :
    p.maximumAttempts = 0 ∨ (m : Int) ≤ p.maximumAttempts := by
  rcases ha with hone | hmax
  · have hpos : 0 ≤ p.maximumAttempts := by
      unfold validate at hv
      grind
    by_cases hzero : p.maximumAttempts = 0
    · exact .inl hzero
    · exact .inr (by omega)
  · exact hmax

theorem AttemptRun.valid {a : StartActivity} (h : AttemptRun x a t l c) : (a.retryPolicy.getD {}).validate = none := by
  induction h with
  | started env d hr hg hok => exact (startActivity_ok hok).1
  | pass env d code _ ih => exact ih
  | round env done _ hf ih => exact ih
  | close env _ ih => exact ih

/-- **The attempts of an activity**, in every run from the request on that
starts it. Unless it goes to another queue they are numbered from one without a
gap, and not beyond the maximum of its policy; one outcome at most is handed
over or still owed; and no attempt starts once one was handed over. -/
theorem attempts_numbered {a : StartActivity} (h : AttemptRun x a t l c) :
    (c.interp.Enqueued x (t.activitySeq + 1) ∨ ∃ m : Nat, c.interp.attemptsOf (t.activitySeq + 1) = List.range' 1 m ∧
      ((a.retryPolicy.getD {}).maximumAttempts = 0 ∨ (m : Int) ≤ (a.retryPolicy.getD {}).maximumAttempts)) ∧
    l.length + c.interp.owed (t.activitySeq + 1) ≤ 1 ∧
    ∀ o ∈ l, o.2 = c.interp.attemptsOf (t.activitySeq + 1) := by
  obtain ⟨⟨⟨due, hlaw⟩, howed, hlast⟩, -⟩ := h.holds
  refine ⟨hlaw.numbered.imp_right ?_, howed, hlast⟩
  rintro ⟨m, hm, ha⟩
  exact ⟨m, hm, RetryPolicy.allows_of_validate h.valid ha⟩

end Runs

/-- What is handed over of `k` by these inputs, and where they lead. -/
def Config.handing (x : Execution) (k : Nat) :
    List (ActivityOutcome × List Nat) → Config → List Input → List (ActivityOutcome × List Nat) × Config
  | l, c, [] => (l, c)
  | l, c, .pass env d code :: is => handing x k (l ++ c.interp.handsOver k) (c.interp.afterPass x env d code) is
  | l, c, .round env done :: is => handing x k l (c.interp.afterRound x env (.of done)) is

theorem AttemptRun.proceeds {x : Execution} {a : StartActivity} {t : Interp} (is : List Input) :
    ∀ {l : List (ActivityOutcome × List Nat)} {c : Config}, AttemptRun x a t l c →
      c.proceeds x (fun _ _ _ _ => true) is = true →
        AttemptRun x a t (c.handing x (t.activitySeq + 1) l is).1 (c.handing x (t.activitySeq + 1) l is).2 := by
  induction is with
  | nil => exact fun h _ => h
  | cons i is ih =>
    intro l c h hp
    obtain ⟨phase, s⟩ := c
    cases i with
    | pass env d code =>
      cases phase <;> simp only [Config.proceeds, Bool.false_eq_true] at hp
      exact ih (.pass env d code h) hp
    | round env done =>
      cases phase <;> simp only [Config.proceeds, Bool.and_eq_true, Bool.false_eq_true] at hp
      exact ih (.round env _ h (fits_of hp.1.1)) hp.2

/-- An activity that may be tried twice. -/
def triedTwice : StartActivity := { activityName := "act", retryPolicy := some { maximumAttempts := 2 } }

/-- The state in which a run starts its first activity. -/
def beforeFirst : Interp := { (Interp.start 0).suspend with ready := [] }

/-- Where the run is once the activity was started. -/
def startedTwice : Config := (Interp.start 0).afterPass .plain .calm false (.asks [.startActivity triedTwice])

/-- Its first attempt breaks, its second returns. -/
def breaksOnce : List Input :=
  [.round .calm [(0, breaks)], .drain [], .round .calm [(2, .slept)], .drain [], .round .calm [(3, .attempt (.ok .none 2))],
    .drain []]

/-- After the second attempt, the outcome is handed over. -/
theorem twice_tried : ∃ l c, AttemptRun .plain triedTwice beforeFirst l c ∧ l.length = 1 ∧
    c.interp.attemptsOf 1 = [1, 2] ∧ l.length + c.interp.owed 1 ≤ 1 ∧ ∀ o ∈ l, o.2 = c.interp.attemptsOf 1 := by
  have hp : startedTwice.proceeds .plain (fun _ _ _ _ => true) breaksOnce = true := by decide +kernel
  have hok : (beforeFirst.startActivity .plain triedTwice).toOption.isSome = true := by decide +kernel
  have hone : (startedTwice.handing .plain 1 [] breaksOnce).1.length = 1 := by decide +kernel
  have htwo : (startedTwice.handing .plain 1 [] breaksOnce).2.interp.attemptsOf 1 = [1, 2] := by decide +kernel
  have hrun : AttemptRun .plain triedTwice beforeFirst [] startedTwice := by
    cases hs : beforeFirst.startActivity .plain triedTwice with
    | ok t' => exact .started .calm false (.start 0 .empty) (.here _ _) hs
    | error r =>
      rw [hs] at hok
      cases hok
  have hend := hrun.proceeds breaksOnce hp
  obtain ⟨-, howed, hlast⟩ := attempts_numbered hend
  exact ⟨_, _, hend, hone, htwo, howed, hlast⟩

end Dbosify
