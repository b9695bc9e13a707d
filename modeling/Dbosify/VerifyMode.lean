/-
The loop of a verification.

In verify mode `_check_replay_horizon` stops the driver in front of a command
that may launch an operation once everything on record is numbered. Apart from
these checks the loop goes the way of the run it replays, as long as `patched`
finds its answers on record: through the same passes and rounds up to the first
check that fails, and to the end if none does (`run_verifying`).
-/
import Dbosify.Decided

namespace Dbosify

/-! ## Up to a check -/

/-- What is read off a piece that goes through. -/
def M.collect {α : Type} (m : M α) (f : α → List Nat) : List Nat :=
  match m with
  | .ok a => f a
  | .error _ => []

/-- `m'` goes the way of `m` while the counts `ks` stay below `H`, and raises
`e` once one does not. -/
def Follows {α : Type} (H : Nat) (e : Exc) (ks : List Nat) (m' m : M α) : Prop :=
  (∀ k ∈ ks, k < H) ∧ m' = m ∨ (∃ k ∈ ks, H ≤ k) ∧ ∃ s, m' = .error ⟨e, s⟩

namespace Follows

variable {α β : Type} {H : Nat} {e : Exc} {ks : List Nat} {m' m : M α}

theorem refl (m : M α) : Follows H e [] m m := .inl ⟨fun _ h => (by cases h), rfl⟩

/-- A piece, then pieces that follow each other. -/
theorem bind {k' k : α → M β} {js : α → List Nat} (h : Follows H e ks m' m)
    (hk : ∀ a, m = .ok a → Follows H e (js a) (k' a) (k a)) : Follows H e (ks ++ m.collect js) (m' >>= k') (m >>= k) := by
  rcases h with ⟨hks, rfl⟩ | ⟨⟨n, hn, hH⟩, s, rfl⟩
  · cases m' with
    | error r => exact .inl ⟨fun n hn => hks n (by simpa [M.collect] using hn), rfl⟩
    | ok a =>
      rcases hk a rfl with ⟨hjs, heq⟩ | ⟨⟨n, hn, hH⟩, s, hs⟩
      · refine .inl ⟨fun n hn => ?_, heq⟩
        rcases List.mem_append.1 hn with hn | hn
        · exact hks n hn
        · exact hjs n hn
      · exact .inr ⟨⟨n, List.mem_append_right _ hn, hH⟩, s, hs⟩
  · exact .inr ⟨⟨n, List.mem_append_left _ hn, hH⟩, s, rfl⟩

/-- The same goes on behind it. -/
theorem andThen (h : Follows H e ks m' m) (k : α → M β) : Follows H e ks (m' >>= k) (m >>= k) := by
  rcases h with ⟨hks, rfl⟩ | ⟨hks, s, rfl⟩
  · exact .inl ⟨hks, rfl⟩
  · exact .inr ⟨hks, s, rfl⟩

/-- The same comes before it. -/
theorem after (m : M α) {k' k : α → M β} {js : α → List Nat} (hk : ∀ a, Follows H e (js a) (k' a) (k a)) :
    Follows H e (m.collect js) (m >>= k') (m >>= k) := bind (refl m) fun a _ => hk a

theorem map (h : Follows H e ks m' m) (f : α → β) : Follows H e ks (m'.map f) (m.map f) := by
  rcases h with ⟨hks, rfl⟩ | ⟨hks, s, rfl⟩
  · exact .inl ⟨hks, rfl⟩
  · exact .inr ⟨hks, s, rfl⟩

end Follows

/-! ## The checks -/

/-- The same program in verify mode, over a record that reaches to `horizon`
and holds the markers of `patches`. -/
def Execution.verifying (x : Execution) (horizon : Nat) (patches : List String) : Execution :=
  { x with replayMode := some .verify, replayHorizon := horizon, patchesRecorded := patches }

/-- What `_check_replay_horizon` raises. -/
def Execution.beyondHistory (x : Execution) : Exc :=
  .nondeterminismError ("workflow type '" ++ x.defn.name ++ "' produced new commands beyond its recorded history")

namespace Interp

/-- The check of a command, if it comes to one: how many operations are
numbered by then. -/
def checks (x : Execution) (env : Env) (s : Interp) : Command → List Nat
  | .timer seq => if s.unexpired seq then [s.functionId x] else []
  | .activity seq =>
    match s.pendingActivities.get? seq with
    | none => []
    | some e =>
      (s.encodeCall env e.args e.headers).collect fun r =>
        let s := r.2.setActivity seq (.encoded r.1.1 r.1.2)
        let s := if e.taskQueue.isSome then s.resolveOwnQueue x env else s
        [s.functionId x]
  | .child _ | .send _ => [s.functionId x]
  | .attributes => (lift s.await (encodeValues env.converter s.memo.values)).collect fun _ => [s.await.functionId x]
  | .patch seq => if (s.pendingPatches.get? seq).isSome then [s.functionId x] else []

/-- The checks of `_process_commands`. -/
def commandChecks (x : Execution) (env : Env) : List Command → Interp → List Nat
  | [], _ => []
  | c :: cs, s => s.checks x env c ++ (s.processCommand x env c).collect fun r => commandChecks x env cs r.2

/-- The checks of a pass. -/
def passChecks (x : Execution) (env : Env) (code : Code) (s : Interp) : List Nat :=
  (s.beginPass x env code).collect fun r => commandChecks x env r.2.commands { r.2 with commands := [] }

end Interp

/-- The checks of the step an input makes. -/
def Config.checks (x : Execution) (c : Config) : Input → List Nat
  | .pass env _ code =>
    match c.phase with
    | .draining => c.interp.passChecks x env code
    | _ => []
  | .round _ _ => []

/-- The checks of the steps the inputs make. -/
def Config.runChecks (x : Execution) : List Input → Config → List Nat
  | [], _ => []
  | i :: is, c => c.checks x i ++ runChecks x is (c.next x i)

/-! ## A pass -/

namespace Interp

variable {x : Execution} {env : Env} {s : Interp} {H : Nat} {P : List String}

theorem functionId_look (x : Execution) (s : Interp) : (s.emit .look).functionId x = s.functionId x := by
  simp only [functionId, emit, Coop.Loop.run_append]
  rfl

theorem follows_check (hm : x.replayMode = none) :
    Follows H x.beyondHistory [s.functionId x] (s.checkReplayHorizon (x.verifying H P)) (s.checkReplayHorizon x) := by
  have hx : s.checkReplayHorizon x = .ok (s.emit .look) := by simp [checkReplayHorizon, hm]
  have hcount : (s.emit .look).functionId (x.verifying H P) = s.functionId x := functionId_look x s
  rw [hx]
  unfold checkReplayHorizon
  simp only [hcount]
  by_cases hk : H ≤ s.functionId x
  · exact .inr ⟨⟨_, .head _, hk⟩, _, if_pos ⟨rfl, hk⟩⟩
  · refine .inl ⟨fun k hk' => ?_, if_neg fun h => hk h.2⟩
    rw [List.mem_singleton.1 hk']
    omega

theorem follows_timer (hm : x.replayMode = none) (k : Nat) : Follows H x.beyondHistory (s.checks x env (.timer k))
    (s.processTimer (x.verifying H P) k) (s.processTimer x k) := by
  cases ht : s.pendingTimers.get? k with
  | none =>
    have hc : s.checks x env (.timer k) = [] := by simp [checks, unexpired, ht]
    simp only [hc, processTimer, ht]
    exact .refl _
  | some t =>
    simp only [processTimer, ht]
    by_cases hd : t - s.timeSeconds ≤ 0
    · have hc : s.checks x env (.timer k) = [] := by simp [checks, unexpired, ht, sub_nonpos.1 hd]
      rw [hc, if_pos hd, if_pos hd]
      exact .refl _
    · have hc : s.checks x env (.timer k) = [s.functionId x] := by
        simp [checks, unexpired, ht, sub_pos.1 (not_le.1 hd)]
      rw [hc, if_neg hd, if_neg hd]
      exact (follows_check hm).andThen _

theorem follows_activity (hm : x.replayMode = none) (k : Nat) : Follows H x.beyondHistory (s.checks x env (.activity k))
    (s.processActivity (x.verifying H P) env k) (s.processActivity x env k) := by
  cases he : s.pendingActivities.get? k with
  | none =>
    simp only [checks, processActivity, he]
    exact .refl _
  | some e =>
    simp only [checks, processActivity, he]
    exact .after _ fun r => (follows_check hm).andThen _

theorem follows_attributes (hm : x.replayMode = none) : Follows H x.beyondHistory (s.checks x env .attributes)
    (s.processAttributes (x.verifying H P) env) (s.processAttributes x env) :=
  .after _ fun _ => (follows_check hm).andThen _

theorem follows_patch (hm : x.replayMode = none) (k : Nat) : Follows H x.beyondHistory (s.checks x env (.patch k))
    (s.processPatch (x.verifying H P) k) (s.processPatch x k) := by
  cases hid : s.pendingPatches.get? k with
  | none =>
    simp only [checks, processPatch, hid]
    exact .refl _
  | some id =>
    simp only [checks, processPatch, hid]
    exact (follows_check (s := { s with pendingPatches := s.pendingPatches.pop k }) hm).andThen _

/-- **A command goes the way of the run up to its check.** -/
theorem follows_command (hm : x.replayMode = none) (c : Command) : Follows H x.beyondHistory (s.checks x env c)
    (s.processCommand (x.verifying H P) env c) (s.processCommand x env c) := by
  cases c with
  | timer k => exact follows_timer hm k
  | activity k => exact (follows_activity hm k).map _
  | child k => exact (follows_check hm).andThen _
  | send k => exact ((follows_check hm).andThen _).map _
  | attributes => exact (follows_attributes hm).map _
  | patch k => exact (follows_patch hm k).map _

theorem follows_commands (hm : x.replayMode = none) : ∀ (cs : List Command) (p : Bool) (s : Interp),
    Follows H x.beyondHistory (commandChecks x env cs s) (processCommands (x.verifying H P) env cs p s)
      (processCommands x env cs p s) := by
  intro cs
  induction cs with
  | nil => exact fun p s => .refl _
  | cons c cs ih => exact fun p s => (follows_command hm c).bind fun r _ => ih _ _

theorem settle_verifying (hm : x.replayMode = none) (d : Bool) (s : Interp) :
    s.settle (x.verifying H P) env d = s.settle x env d := by
  have hleaves : ∀ s : Interp, s.leaves (x.verifying H P) d = s.leaves x d := by
    intro s
    simp only [leaves, Execution.verifying, hm]
    rfl
  have hrecv : ∀ s : Interp, s.ensureInboxWaiter (x.verifying H P) = s.ensureInboxWaiter x := by
    intro s
    simp [ensureInboxWaiter, recvTimeout, Execution.verifying, hm]
  unfold settle
  simp only [hleaves, hrecv]

/-! ## A drain -/

/-- What a run comes to, as far as its replay needs it: no task failure, and
every answer of `patched` as it is on record. -/
structure OnRecord (P : List String) (s : Interp) : Prop where
  outcome : ∀ e, s.outcome ≠ some (.taskFailure e)
  answers : ∀ id b, s.patchesMemoized.get? id = some b → P.contains id = b

theorem OnRecord.before {s' : Interp} (h : s'.OnRecord P) (hs : Sticks s s') : s.OnRecord P :=
  ⟨fun e he => h.outcome e (hs.outcome _ he), fun id b hb => h.answers id b (hs.memoized id b hb)⟩

theorem recordWorkflowError_verifying {e : WorkflowExc} (h : (s.recordWorkflowError x e).OnRecord P) :
    s.recordWorkflowError (x.verifying H P) e = s.recordWorkflowError x e := by
  cases e with
  | nondeterminism m =>
    by_cases hx : x.replayMode.isSome = true
    · simp [recordWorkflowError, Execution.verifying, hx]
    · cases ho : s.outcome with
      | some o => simp [recordWorkflowError, setOutcome, ho]
      | none =>
        refine absurd ?_ (h.outcome (.nondeterminism m))
        simp [recordWorkflowError, setOutcome, ho, hx]
  | _ => rfl

theorem primaryEnds_verifying {e : Ending} (h : (s.primaryEnds x e).OnRecord P) :
    s.primaryEnds (x.verifying H P) e = s.primaryEnds x e := by
  cases e with
  | raised e =>
    cases e with
    | nondeterminism m => exact recordWorkflowError_verifying (x := x) (s := { s with primaryDone := true }) (e := .nondeterminism m) h
    | _ => rfl
  | _ => rfl

theorem handlerEnds_verifying {t : Nat} {e : Ending} (h : (s.handlerEnds x t e).OnRecord P) :
    s.handlerEnds (x.verifying H P) t e = s.handlerEnds x t e := by
  unfold handlerEnds at h ⊢
  cases hh : s.inflightHandlers.get? t with
  | none => rfl
  | some d =>
    obtain ⟨kind, name, uid, args, headers⟩ := d
    simp only [hh] at h ⊢
    cases e with
    | returned v => cases kind <;> cases uid <;> rfl
    | continueAsNew can => rfl
    | raised e =>
      cases kind with
      | signal => exact recordWorkflowError_verifying h
      | update =>
        cases uid with
        | none => exact recordWorkflowError_verifying h
        | some u =>
          by_cases hf : e.isFailure = true
          · simp only [replyOf, hf, if_true]
          · simp only [replyOf, hf, if_false, Bool.false_eq_true] at h ⊢
            exact recordWorkflowError_verifying h

/-- What the start of a handler raises is no nondeterminism. -/
theorem startHandler_verifying (t : Nat) : s.startHandler (x.verifying H P) t = s.startHandler x t := by
  have hends : ∀ e : Ending, (e = .returned .none ∨ ∃ n m, e = .raised (.other n m)) →
      s.handlerEnds (x.verifying H P) t e = s.handlerEnds x t e := by
    intro e he
    unfold handlerEnds
    cases s.inflightHandlers.get? t with
    | none => rfl
    | some d =>
      obtain ⟨kind, name, uid, args, headers⟩ := d
      rcases he with rfl | ⟨n, m, rfl⟩ <;> cases kind <;> cases uid <;> rfl
  unfold startHandler
  simp only [hends _ (.inl rfl), hends _ (.inr ⟨_, _, rfl⟩)]
  rfl

theorem patch_verifying {id : String} (hH : x.replayHorizon ≤ H) (h : (M.state (s.patch x id)).OnRecord P) :
    s.patch (x.verifying H P) id = s.patch x id := by
  refine patch_congr fun hr hm => ?_
  rw [patch_fresh hr hm] at h
  rw [show (x.verifying H P).patchesRecorded = P from rfl, h.answers id _ (memoized_answer s id _)]
  have hreplaying : s.isReplaying x = true → s.isReplaying (x.verifying H P) = true := by
    simp only [isReplaying, decide_eq_true_eq]
    exact fun hlt => hlt.trans_le hH
  revert hreplaying
  cases s.isReplaying x <;> cases s.isReplaying (x.verifying H P) <;> simp

theorem userOp_verifying (hH : x.replayHorizon ≤ H) (o : UserOp) (h : (M.state (o.run x s)).OnRecord P) :
    o.run (x.verifying H P) s = o.run x s := by
  cases o with
  | patched id => exact patch_verifying hH h
  | startHandler t => exact congrArg Except.ok (startHandler_verifying t)
  | handlerEnds t e => exact congrArg Except.ok (handlerEnds_verifying h)
  | primaryEnds e => exact congrArg Except.ok (primaryEnds_verifying h)
  | abort e => exact congrArg Except.ok (recordWorkflowError_verifying h)
  | _ => rfl

/-- **A drain goes the way of the run's** when what the run comes to is on
record. -/
theorem drain_verifying (hH : x.replayHorizon ≤ H) (code : Code) : ∀ {s : Interp}, (code.drain x s).OnRecord P →
    code.drain (x.verifying H P) s = code.drain x s := by
  induction code with
  | park => intro s _; rfl
  | ask o k ih =>
    intro s h
    have ho : o.run (x.verifying H P) s = o.run x s := userOp_verifying hH o (h.before (sticks_drain _ _))
    simp only [Code.drain, ho]
    exact ih _ h

end Interp

/-! ## A run -/

variable {x : Execution} {H : Nat} {P : List String}

/-- A step goes the way of the run's up to its first failing check. -/
theorem Config.next_verifying (hm : x.replayMode = none) (hH : x.replayHorizon ≤ H) (i : Input) {c : Config}
    (hn : ∀ e, (c.next x i).phase ≠ .closing (some e)) (h : (c.next x i).interp.OnRecord P) :
    (∀ k ∈ c.checks x i, k < H) ∧ c.next (x.verifying H P) i = c.next x i ∨
      (∃ k ∈ c.checks x i, H ≤ k) ∧ ∃ s, c.next (x.verifying H P) i = ⟨.closing (some x.beyondHistory), s⟩ := by
  obtain ⟨p, s⟩ := c
  cases i with
  | round env done => exact .inl ⟨fun k hk => (by cases hk), rfl⟩
  | pass env d code =>
    cases p with
    | waiting | closing | failed => exact .inl ⟨fun k hk => (by cases hk), rfl⟩
    | draining =>
      simp only [next] at hn h
      cases hp : s.pass x env d code with
      | error r => rw [hp] at hn; exact absurd rfl (hn _)
      | ok r =>
        rw [hp] at h
        have hdrain : s.drainOutsideTask (x.verifying H P) code = s.drainOutsideTask x code :=
          Interp.drain_verifying hH code (h.before (Interp.sticks_afterDrain hp))
        have hbegin : s.beginPass (x.verifying H P) env code = s.beginPass x env code := by
          unfold Interp.beginPass
          rw [hdrain]
          rfl
        have hfollows : Follows H x.beyondHistory (s.passChecks x env code) (s.pass (x.verifying H P) env d code)
            (s.pass x env d code) := by
          rw [Interp.pass_eq, Interp.pass_eq, hbegin]
          refine .after _ fun r => ?_
          unfold Interp.endPass
          simp only [Interp.settle_verifying hm]
          exact (Interp.follows_commands hm _ _ _).andThen _
        rcases hfollows with ⟨hks, heq⟩ | ⟨hks, s', heq⟩
        · exact .inl ⟨hks, by simp only [next, heq]⟩
        · exact .inr ⟨hks, s', by simp only [next, heq]⟩

/-- **A verification goes the way of the run up to its first failing check.** -/
theorem Config.run_verifying (hm : x.replayMode = none) (hH : x.replayHorizon ≤ H) (l : List Input) : ∀ {c : Config},
    (∀ e, (l.foldl (Config.next x) c).phase ≠ .closing (some e)) → (l.foldl (Config.next x) c).interp.OnRecord P →
    (∀ k ∈ runChecks x l c, k < H) ∧ l.foldl (Config.next (x.verifying H P)) c = l.foldl (Config.next x) c ∨
      (∃ k ∈ runChecks x l c, H ≤ k) ∧
        ∃ s, l.foldl (Config.next (x.verifying H P)) c = ⟨.closing (some x.beyondHistory), s⟩ := by
  induction l with
  | nil => intro c _ _; exact .inl ⟨fun k hk => (by cases hk), rfl⟩
  | cons i l ih =>
    intro c hn h
    obtain ⟨hn₁, hs⟩ := Config.sticks_run l (c := c.next x i) hn
    simp only [List.foldl_cons, runChecks, List.mem_append]
    rcases Config.next_verifying hm hH i hn₁ (h.before hs) with ⟨hks, heq⟩ | ⟨⟨k, hk, hle⟩, s, heq⟩
    · rw [heq]
      rcases ih hn h with ⟨hjs, hrun⟩ | ⟨⟨k, hk, hle⟩, hrun⟩
      · exact .inl ⟨fun k hk => hk.elim (hks k) (hjs k), hrun⟩
      · exact .inr ⟨⟨k, .inr hk, hle⟩, hrun⟩
    · exact .inr ⟨⟨k, .inl hk, hle⟩, s, by rw [heq, Config.run_raised l rfl]⟩

end Dbosify
