/-
Replay verification.

`start_replay_fork` copies every recorded step of a closed run into a scratch
run, and `execute` and `dispatch` run there again, in verify mode; `replay_one`
reads a nondeterminism off how the scratch run ends. The scratch run skips the
operations of the close, but it measures itself by a record that holds them:
by the highest number on it, and by the operation under each number. So it
finds a run faithful exactly when the run launched nothing once everything
that came to be recorded was numbered, and when nothing was recorded behind
its loop that the replay does not come to (`replay_faithful_iff`).
-/
import Dbosify.ChildSweep
import Dbosify.Conversions
import Dbosify.VerifyMode

namespace Dbosify

open Coop (Act Claim Recordable)
open Py (Dict)

/-! ## A recorded run -/

/-- A run from its start: what decided each step of its loop, what its close
and the dispatcher found, and which of its operations are on record. -/
structure RunRecord where
  x : Execution
  startTime : Seconds
  memo : Dict String Value := .empty
  inputs : List Input
  env : Env
  dispatch : Dispatch
  recorded : Claim Op → Bool

/-- `_drain_unconsumed_inbox` is reached: `hops_possible`, and for a completed
run a schedule. -/
def Dispatch.drains (d : Dispatch) : Option Outcome → Bool
  | some (.ok _) => d.runMeta.cron.isSome
  | some (.failure _) => d.runMeta.hopsPossible
  | _ => false

/-- The operations of a hop: the drain, up to the receive that finds the inbox
empty; and where there is a next run, the look for our own queue, the enqueue,
and what is sent on. -/
def Dispatch.hopOps (d : Dispatch) (x : Execution) (s : Interp) : List Op :=
  if d.drains s.outcome then
    List.replicate (d.carryover.length + 1) (.recv 0) ++
      match d.next s with
      | .ok (some _) =>
        .status x.workflowId :: .enqueue (Interp.nextRunId x) ::
          (d.carryover.filter Message.kept).map (.send (Interp.nextRunId x))
      | _ => []
  else []

namespace RunRecord

variable (r : RunRecord)

def start : Config := ⟨.draining, .start r.startTime r.memo⟩

/-- Where its loop ended. -/
def config : Config := r.inputs.foldl (Config.next r.x) r.start

def last : Interp := r.config.interp

/-- Its close, up to the teardown of its waiters. -/
def swept : Interp := (r.last.cancelInFlight r.env).sweepChildrenOnClose r.env

/-- Its close. -/
def closed : Interp := r.last.closeRun r.x r.env

/-- The operations of the close. -/
def closeOps : List Op := r.last.closeOps r.x r.env

/-- The operations of the hop. -/
def hopOps : List Op := r.dispatch.hopOps r.x r.last

/-- What comes behind the teardown. -/
def rest : List (Act Op) := r.closed.trace.drop r.swept.trace.length ++ r.hopOps.map .step

/-- Everything it did. -/
def history : List (List (Act Op)) := r.last.past ++ [r.swept.trace ++ r.rest]

/-- Its operations in the order they are numbered. -/
def claims : List (Claim Op) :=
  Coop.claims r.x.suspends 0 r.last.past ++
    Coop.tornDown (r.x.suspends r.last.past.length) r.last.past.length r.swept.trace r.rest

/-- `replay_horizon`: the highest number on record. -/
def horizon : Nat := Coop.horizon r.recorded r.claims

/-- `_patches_recorded`. -/
def patches : List String := patchesIn r.recorded r.claims

/-- The checks of its replay: how many operations were numbered at each. -/
def checks : List Nat := Config.runChecks r.x r.inputs r.start

end RunRecord

/-- A run outside a replay that closed COMPLETED, FAILED or CANCELED, with
every operation it awaited on record, and what was on record when it was last
recovered still there. -/
structure ClosedRun extends RunRecord where
  mode : x.replayMode = none
  closing : toRunRecord.config.phase = .closing none
  ends : toRunRecord.last.outcome.any Outcome.ends = true
  awaited : Recordable recorded 0 toRunRecord.history []
  grown : x.replayHorizon ≤ toRunRecord.horizon

/-! ## The scratch run -/

/-- Whether the operation is a receive. -/
def Op.isRecv : Op → Bool
  | recv _ => true
  | _ => false

/-- What DBOS records operations under, and what it says when an operation
claims a number recorded under another name. A receive has a name of its
own. -/
structure StepNames where
  name : Op → String
  recv : ∀ o t, name o = name (.recv t) → o.isRecv = true
  unexpected : String

/-- How the scratch run ends: as a run does, or by `DBOSUnexpectedStepError`. -/
inductive ForkEnd
  | ended (e : RunEnd)
  | unexpectedStep (message : String)

/-- `NONDETERMINISM_MARKER`. -/
def nondeterminismMarker : String := "__dbosify_nondeterminism__"

/-- The envelope of a nondeterminism found in a replay. -/
def nondeterminismFailure (message : String) : FailureEnvelope := nonRetryableFailure message nondeterminismMarker

/-- What `execute` raises at the end of a verification that leaves something
recorded unclaimed. -/
def Execution.finishedEarly (x : Execution) : String :=
  "workflow type '" ++ x.defn.name ++ "' completed before consuming all recorded history"

/-- What `replay_one` does: it waits for the scratch run, it raises, or it
returns. -/
inductive Replayed
  | waiting
  | raised (e : Exc)
  | returned (replayFailure : Option Exc)

/-- `replay_one`, once the scratch run has ended. -/
def ForkEnd.replayed : ForkEnd → Replayed
  | unexpectedStep m => .returned (some (.nondeterminismError m))
  | ended (.failed f) =>
    .returned (if f.type = some nondeterminismMarker then some (.nondeterminismError f.message) else none)
  | ended (.escaped (.nondeterminismError m)) => .returned (some (.nondeterminismError m))
  | ended (.escaped e) => .raised e
  | ended (.returned _) | ended (.cancelled _) | ended (.continuedAsNew _) => .returned none
  | ended .running | ended (.retried _) => .waiting

namespace RunRecord

variable (r : RunRecord)

/-- The scratch run's execution: every recorded step is copied, and a recorded
step answers from its record. -/
def fork : Execution := r.x.verifying r.horizon r.patches

/-- Whether operations claimed from number `k` on have the names on record
there. -/
def named (dbos : StepNames) (k : Nat) (l : List Op) : Bool :=
  (l.zip (r.claims.drop k)).all fun p => !r.recorded p.2 || dbos.name p.2.op = dbos.name p.1

/-- The failure of the scratch run, which first comes to
`_continue_chain_after_failure`. -/
def forkFails (dbos : StepNames) (s : Interp) (e : WorkflowExc) : ForkEnd :=
  if !r.named dbos (s.functionId r.fork) (r.dispatch.hopOps r.fork s) then .unexpectedStep dbos.unexpected
  else
    match r.dispatch.next s with
    | .ok _ => .ended (.failed e.serialize)
    | .error e => .ended (.escaped e)

/-- The end of `execute` and of `dispatch` in the scratch run: of the close it
performs the teardown alone, which numbers nothing. -/
def forkEnds (dbos : StepNames) (c : Config) : ForkEnd :=
  match c.phase with
  | .draining | .waiting => .ended .running
  | .failed e => .ended (.retried e)
  | .closing (some (.nondeterminismError m)) => .ended (.failed (nondeterminismFailure m))
  | .closing (some e) => .ended (.escaped e)
  | .closing none =>
    match c.interp.outcome with
    | some (.ok v) =>
      if c.interp.functionId r.fork < r.horizon then .ended (.failed (nondeterminismFailure r.x.finishedEarly))
      else if !r.named dbos (c.interp.functionId r.fork) (r.dispatch.hopOps r.fork c.interp) then
        .unexpectedStep dbos.unexpected
      else
        match r.dispatch.result r.env c.interp v with
        | .ok p => .ended (.returned p)
        | .error e => .ended (.escaped e)
    | some (.failure (.nondeterminism m)) => .ended (.failed (nondeterminismFailure m))
    | some (.failure e) => r.forkFails dbos c.interp e
    | some (.cancelled e) => .ended (.cancelled e.serialize)
    | some (.continueAsNew _) | some (.taskFailure _) | none => .ended (.escaped .assertionError)

/-- `replay_one`, of a run that closed so that it can be replayed. -/
def replayOne (dbos : StepNames) : Replayed := (r.forkEnds dbos (r.inputs.foldl (Config.next r.fork) r.start)).replayed

/-- Nothing is on record behind the loop that the scratch run does not come
to, and the run's end is one that `replay_one` takes for one. -/
def endsFaithfully : Bool :=
  match r.last.outcome with
  | some (.ok v) => r.closeOps.isEmpty && r.dispatch.runMeta.cron.isNone && (encodeValue r.env.converter v).isOk
  -- Outside a replay no outcome is such a failure.
  | some (.failure (.nondeterminism _)) => false
  | some (.failure e) =>
    (!r.dispatch.runMeta.hopsPossible || r.closeOps.isEmpty) && (r.dispatch.next r.last).isOk &&
      e.serialize.type != some nondeterminismMarker
  | some (.cancelled _) => true
  | _ => false

end RunRecord

/-! ## The close -/

/-- `s'` is `s` after operations awaited on the spot, none of them a
receive. -/
def Sends (s s' : Interp) : Prop := ∃ l, Performs s s' l ∧ ∀ o ∈ l, o.isRecv = false

namespace Sends

variable {s s₁ s' : Interp}

theorem refl (s : Interp) : Sends s s := ⟨[], .refl s, fun o h => by cases h⟩

theorem trans (h : Sends s s₁) (h' : Sends s₁ s') : Sends s s' := by
  obtain ⟨l, hl, ho⟩ := h
  obtain ⟨l', hl', ho'⟩ := h'
  refine ⟨l ++ l', hl.trans hl', fun o hm => ?_⟩
  rcases List.mem_append.1 hm with hm | hm
  · exact ho o hm
  · exact ho' o hm

theorem step (s : Interp) {o : Op} (ho : o.isRecv = false) : Sends s (s.step o) :=
  ⟨[o], (Performs.refl s).step o, fun o' hm => by rw [List.mem_singleton.1 hm]; exact ho⟩

theorem foldl {α : Type} {f : Interp → α → Interp} (hf : ∀ s a, Sends s (f s a)) (l : List α) : ∀ s, Sends s (l.foldl f s) := by
  induction l with
  | nil => exact refl
  | cons a l ih => exact fun s => (hf s a).trans (ih _)

theorem foldl_snd {α β : Type} {f : β × Interp → α → β × Interp} (hf : ∀ r a, Sends r.2 (f r a).2) (l : List α) :
    ∀ r, Sends r.2 (l.foldl f r).2 := by
  induction l with
  | nil => exact fun r => refl r.2
  | cons a l ih => exact fun r => (hf r a).trans (ih _)

theorem resolveCurrentRun (env : Env) (s : Interp) (i : String) : Sends s (s.resolveCurrentRun env i) :=
  foldl (fun s _ => step s rfl) _ s

theorem sendCancel (env : Env) (s : Interp) (i : String) : Sends s (s.sendCancel env i) :=
  (resolveCurrentRun env s i).trans (step _ rfl)

theorem terminateChildTree (env : Env) (n : Nat) : ∀ (id : String) (r : List String × Interp),
    Sends r.2 (Interp.terminateChildTree env n id r).2 := by
  induction n with
  | zero => exact fun _ r => refl r.2
  | succ n ih =>
    intro id r
    obtain ⟨visited, s⟩ := r
    have hprobe : Sends s ((s.resolveCurrentRun env id).step (.status (env.currentRun id))) :=
      (resolveCurrentRun env s id).trans (step _ rfl)
    simp only [Interp.terminateChildTree]
    split
    · exact refl s
    · split
      · exact hprobe
      · refine ((hprobe.trans (step _ rfl)).trans (step _ rfl)).trans (foldl_snd (fun r g => ?_) _ (_, _))
        obtain ⟨child, policy⟩ := g
        cases policy with
        | abandon => exact refl r.2
        | requestCancel => exact step r.2 rfl
        | terminate | unspecified => exact ih child r

theorem cancelInFlight (env : Env) (s : Interp) : Sends s (s.cancelInFlight env) := by
  refine foldl (fun s e => ?_) _ s
  split
  · exact (step s rfl).trans (step _ rfl)
  · exact refl s

theorem sweepChildrenOnClose (env : Env) (s : Interp) : Sends s (s.sweepChildrenOnClose env) := by
  refine foldl (fun s c => ?_) _ s
  split
  · exact refl s
  · split
    · exact refl s
    · exact sendCancel env s _
    · exact terminateChildTree env _ _ ([], s)
    · exact terminateChildTree env _ _ ([], s)

theorem failAbandonedUpdates (s : Interp) : Sends s s.failAbandonedUpdates := by
  refine foldl (fun s h => ?_) _ s
  split
  · exact step s rfl
  · exact refl s

theorem announceGone (s : Interp) : Sends s s.announceGone := by
  refine foldl (fun s e => ?_) _ s
  split
  · exact step s rfl
  · exact refl s

end Sends

theorem closeOps_of_trace {x : Execution} {env : Env} {s : Interp} {a b : List Op} {w : List (Act Op)}
    (h : (s.closeRun x env).trace = s.trace ++ (a.map .step ++ (w ++ b.map .step))) (hw : ∀ o, Act.step o ∉ w) :
    s.closeOps x env = a ++ b := by
  rw [Interp.closeOps, h, List.drop_left, List.filterMap_append, List.filterMap_append, List.filterMap_map,
    List.filterMap_map]
  refine congrArg₂ _ List.filterMap_some (Eq.trans (congrArg₂ _ ?_ List.filterMap_some) (List.nil_append b))
  refine List.filterMap_eq_nil_iff.2 fun c hc => ?_
  cases c with
  | step o => exact absurd hc (hw o)
  | await | launch | spawn | look => rfl

namespace ClosedRun

variable (r : ClosedRun)

theorem closes : r.x.closes r.last.outcome = true := by
  have he := r.ends
  rw [Execution.closes, r.mode]
  cases ho : r.last.outcome with
  | none => rw [ho] at he; cases he
  | some o =>
    rw [ho] at he
    cases o <;> first | rfl | cases he

theorem closed_eq : r.closed = r.swept.tearDown.failAbandonedUpdates.announceGone := by
  unfold RunRecord.closed Interp.closeRun
  rw [r.closes]
  rfl

/-- The close, taken apart: the operations before the teardown, and those
behind it. -/
theorem close_eq : ∃ (a b : List Op) (w : List (Act Op)), r.swept.trace = r.last.trace ++ a.map .step ∧
    r.closed.trace = r.swept.trace ++ (w ++ b.map .step) ∧ Coop.calls w = [] ∧ r.closeOps = a ++ b ∧
    ∀ o ∈ a ++ b, o.isRecv = false := by
  obtain ⟨a, ha, hra⟩ := (Sends.cancelInFlight r.env r.last).trans (Sends.sweepChildrenOnClose r.env _)
  obtain ⟨b, hb, hrb⟩ := (Sends.failAbandonedUpdates r.swept.tearDown).trans (Sends.announceGone _)
  obtain ⟨w, hw, hcalls, hnone⟩ : ∃ w, r.swept.tearDown.trace = r.swept.trace ++ w ∧ Coop.calls w = [] ∧
      ∀ o, Act.step o ∉ w := by
    unfold Interp.tearDown Interp.awaitIf
    split
    · exact ⟨[.await], rfl, rfl, by simp⟩
    · exact ⟨[], by simp, rfl, by simp⟩
  have hswept : r.swept.trace = r.last.trace ++ a.map .step := congrArg Interp.trace ha
  have htrace : r.closed.trace = r.swept.trace ++ (w ++ b.map .step) := by
    rw [r.closed_eq, congrArg Interp.trace hb, ← List.append_assoc, ← hw]
  refine ⟨a, b, w, hswept, htrace, hcalls, ?_, fun o ho => (List.mem_append.1 ho).elim (hra o) (hrb o)⟩
  refine closeOps_of_trace ?_ hnone
  rw [← List.append_assoc, ← hswept]
  exact htrace

theorem past_closed : r.closed.past = r.last.past := by
  have hpast : ∀ {s s' : Interp}, Sends s s' → s'.past = s.past := by
    rintro s s' ⟨l, hl, -⟩
    rw [hl]
  have hdown : r.swept.tearDown.past = r.swept.past := by
    unfold Interp.tearDown Interp.awaitIf
    split <;> rfl
  rw [r.closed_eq, hpast ((Sends.failAbandonedUpdates _).trans (Sends.announceGone _)), hdown]
  exact hpast ((Sends.cancelInFlight r.env r.last).trans (Sends.sweepChildrenOnClose r.env _))

/-! ## What is numbered behind the loop -/

/-- What the loop numbered. -/
def loopClaims : List (Claim Op) :=
  Coop.claims r.x.suspends 0 r.last.past ++
    (Coop.Loop.run (r.x.suspends r.last.past.length) {} (Coop.tagged r.last.past.length 0 r.last.trace)).claimed

theorem length_loopClaims : r.loopClaims.length = r.last.functionId r.x := by
  rw [loopClaims, List.length_append, Coop.length_claims, Coop.length_claimed_tagged]
  rfl

theorem rest_eq {b : List Op} {w : List (Act Op)} (h : r.closed.trace = r.swept.trace ++ (w ++ b.map .step)) :
    r.rest = w ++ (b ++ r.hopOps).map .step := by
  rw [RunRecord.rest, h, List.drop_left, List.map_append, List.append_assoc]

theorem recorded_last {t u : List (Act Op)} {o : Op} (h : r.swept.trace ++ r.rest = t ++ .step o :: u) :
    r.recorded ⟨r.last.past.length, t.length, o⟩ = true := by
  have hlast := (r.awaited.drop r.last.past).1 t o u h
  rwa [Nat.zero_add] at hlast

/-- The close calls nothing: what is numbered behind the loop is the hop. -/
theorem claims_quiet (h : r.closeOps = []) : ∃ late, r.claims = r.loopClaims ++ late ∧ late.map (·.op) = r.hopOps := by
  obtain ⟨a, b, w, hswept, hclosed, hw, hops, -⟩ := r.close_eq
  rw [h] at hops
  obtain ⟨rfl, rfl⟩ := List.append_eq_nil_iff.1 hops.symm
  rw [List.map_nil, List.append_nil] at hswept
  have hcalls : ∀ l : List Op, Coop.calls (l.map Act.step) = l := by
    intro l
    rw [Coop.calls, List.filterMap_map]
    exact List.filterMap_some
  refine ⟨Coop.calls (Coop.tagged r.last.past.length r.last.trace.length r.rest), ?_, ?_⟩
  · rw [RunRecord.claims, Coop.tornDown, hswept, loopClaims, List.append_assoc]
  · rw [Coop.calls_tagged, r.rest_eq hclosed, Coop.calls_append, hw, hcalls, List.nil_append, List.nil_append]

/-- The first operation behind the loop is numbered next, and on record. -/
theorem claims_late {o : Op} {l : List Op} (h : r.closeOps ++ r.hopOps = o :: l) : ∃ c late,
    r.claims = r.loopClaims ++ c :: late ∧ r.recorded c = true ∧ c.op = o := by
  obtain ⟨a, b, w, hswept, hclosed, hw, hops, -⟩ := r.close_eq
  rw [hops, List.append_assoc] at h
  have hrest := r.rest_eq hclosed
  cases a with
  | cons o' a =>
    rw [List.cons_append, List.cons.injEq] at h
    obtain ⟨rfl, -⟩ := h
    rw [List.map_cons] at hswept
    obtain ⟨late, hlate⟩ := Coop.tornDown_step (r.x.suspends r.last.past.length) r.last.past.length r.last.trace o'
      (a.map .step) r.rest
    refine ⟨_, late, ?_, r.recorded_last (t := r.last.trace) (u := a.map .step ++ r.rest) ?_, rfl⟩
    · rw [RunRecord.claims, hswept, hlate, loopClaims, List.append_assoc]
    · rw [hswept, List.append_assoc, List.cons_append]
  | nil =>
    rw [List.map_nil, List.append_nil] at hswept
    rw [List.nil_append] at h
    rw [h, List.map_cons] at hrest
    obtain ⟨late, hlate⟩ := Coop.tornDown_call (r.x.suspends r.last.past.length) r.last.past.length r.last.trace o hw
      (l.map .step)
    refine ⟨⟨r.last.past.length, r.last.trace.length + w.length, o⟩, late, ?_, ?_, rfl⟩
    · rw [RunRecord.claims, hswept, hrest, hlate, loopClaims, List.append_assoc]
    · rw [← List.length_append]
      refine r.recorded_last (u := l.map .step) ?_
      rw [hswept, hrest, List.append_assoc]

/-- The record reaches past the loop exactly when something is called behind
it. -/
theorem lt_horizon_iff : r.last.functionId r.x < r.horizon ↔ r.closeOps ++ r.hopOps ≠ [] := by
  rw [← r.length_loopClaims, RunRecord.horizon]
  cases hl : r.closeOps ++ r.hopOps with
  | nil =>
    obtain ⟨hclose, hhop⟩ := List.append_eq_nil_iff.1 hl
    obtain ⟨late, hlate, hops⟩ := r.claims_quiet hclose
    rw [hhop, List.map_eq_nil_iff] at hops
    rw [hlate, hops, Coop.lt_horizon_iff]
    simp
  | cons o l =>
    obtain ⟨c, late, hlate, hc, -⟩ := r.claims_late hl
    rw [hlate, Coop.lt_horizon_iff]
    exact iff_of_true ⟨c, .head _, hc⟩ (List.cons_ne_nil _ _)

/-- A hop that drains finds its own names on record exactly when the close
called nothing. -/
theorem named_iff (dbos : StepNames) (hd : r.dispatch.drains r.last.outcome = true) :
    r.named dbos (r.last.functionId r.x) r.hopOps = true ↔ r.closeOps = [] := by
  rw [RunRecord.named, ← r.length_loopClaims]
  constructor
  · intro h
    cases hc : r.closeOps with
    | nil => rfl
    | cons o l =>
      obtain ⟨a, b, w, -, -, -, hops, hrecv⟩ := r.close_eq
      have ho : o.isRecv = false := hrecv o (by rw [← hops, hc]; exact .head _)
      obtain ⟨c, late, hlate, hrec, rfl⟩ := r.claims_late (o := o) (l := l ++ r.hopOps) (by rw [hc, List.cons_append])
      obtain ⟨l', hl'⟩ : ∃ l', r.hopOps = .recv 0 :: l' := by
        unfold RunRecord.hopOps Dispatch.hopOps
        rw [if_pos hd, List.replicate_succ, List.cons_append]
        exact ⟨_, rfl⟩
      rw [hlate, List.drop_left, hl', List.zip_cons_cons, List.all_cons, hrec] at h
      simp only [Bool.not_true, Bool.false_or, Bool.and_eq_true, decide_eq_true_eq] at h
      rw [dbos.recv _ _ h.1] at ho
      cases ho
  · intro h
    obtain ⟨late, hlate, hops⟩ := r.claims_quiet h
    rw [hlate, List.drop_left, ← hops]
    clear hlate hops
    induction late with
    | nil => rfl
    | cons c late ih => rw [List.map_cons, List.zip_cons_cons, List.all_cons, ih]; simp

/-! ## What is on record -/

theorem contains_patches (id : String) :
    r.patches.contains id = true ↔ ∃ c ∈ r.claims, r.recorded c = true ∧ c.op = .patch id := by
  rw [RunRecord.patches, patchesIn, List.contains_iff_mem, List.mem_filterMap]
  constructor
  · rintro ⟨c, hc, hid⟩
    obtain ⟨hm, hr⟩ := List.mem_filter.1 hc
    refine ⟨c, hm, hr, ?_⟩
    split at hid
    · next ho =>
      cases hid
      exact ho
    · cases hid
  · rintro ⟨c, hm, hr, ho⟩
    exact ⟨c, List.mem_filter.2 ⟨hm, hr⟩, by rw [ho]⟩

/-- A step of the loop is on record. -/
theorem recorded_of_step {o : Op} (h : .step o ∈ r.last.acts) : ∃ c ∈ r.claims, r.recorded c = true ∧ c.op = o := by
  rcases List.mem_append.1 h with h | h
  · obtain ⟨t, ht, hstep⟩ := List.mem_flatten.1 h
    obtain ⟨c, hc, hr, ho⟩ := Recordable.step (σ := r.x.suspends) r.last.past r.awaited ht hstep
    exact ⟨c, List.mem_append_left _ hc, hr, ho⟩
  · obtain ⟨t, u, htu⟩ := List.append_of_mem h
    obtain ⟨a, -, -, hswept, -⟩ := r.close_eq
    have hsplit : r.swept.trace ++ r.rest = t ++ .step o :: (u ++ a.map .step ++ r.rest) := by
      rw [hswept, htu]
      simp
    exact ⟨_, List.mem_append_right _ (Coop.mem_tornDown_of_step hsplit), r.recorded_last hsplit, rfl⟩

/-- What is on record was called or spawned by the run, or it is of the
hop. -/
theorem act_of_claim {c : Claim Op} (h : c ∈ r.claims) :
    (∃ a ∈ r.closed.acts, a.called = some c.op ∨ a.spawned = some c.op) ∨ c.op ∈ r.hopOps := by
  obtain ⟨a, b, w, hswept, hclosed, -⟩ := r.close_eq
  rcases List.mem_append.1 h with h | h
  · obtain ⟨t, ht, ho⟩ := Coop.mem_of_mem_claims _ h
    refine .inl ?_
    rcases ho with ho | ho
    · obtain ⟨a, ha, hc⟩ := List.mem_filterMap.1 ho
      exact ⟨a, List.mem_append_left _ (r.past_closed ▸ List.mem_flatten.2 ⟨t, ht, ha⟩), .inl hc⟩
    · obtain ⟨a, ha, hc⟩ := List.mem_filterMap.1 ho
      exact ⟨a, List.mem_append_left _ (r.past_closed ▸ List.mem_flatten.2 ⟨t, ht, ha⟩), .inr hc⟩
  · rcases Coop.mem_of_mem_tornDown h with ho | ho
    · rw [r.rest_eq hclosed, List.map_append, ← List.append_assoc, ← List.append_assoc, List.append_assoc r.swept.trace,
        ← hclosed] at ho
      obtain ⟨a, ha, hc⟩ := List.mem_filterMap.1 ho
      rcases List.mem_append.1 ha with ha | ha
      · exact .inl ⟨a, List.mem_append_right _ ha, .inl hc⟩
      · obtain ⟨o, hop, rfl⟩ := List.mem_map.1 ha
        cases hc
        exact .inr hop
    · obtain ⟨a, ha, hc⟩ := List.mem_filterMap.1 ho
      exact .inl ⟨a, List.mem_append_right _ (hclosed ▸ List.mem_append_left _ ha), .inr hc⟩

theorem not_patch_of_hopOps {o : Op} (h : o ∈ r.hopOps) (id : String) : o ≠ .patch id := by
  rintro rfl
  unfold RunRecord.hopOps Dispatch.hopOps at h
  split at h
  · rcases List.mem_append.1 h with h | h
    · cases List.eq_of_mem_replicate h
    · split at h
      · rcases List.mem_cons.1 h with h | h
        · cases h
        · rcases List.mem_cons.1 h with h | h
          · cases h
          · obtain ⟨m, -, hm⟩ := List.mem_map.1 h
            cases hm
      · cases h
  · cases h

theorem reachable : Reachable r.x r.config := by
  have key : ∀ (l : List Input) (c : Config), Reachable r.x c → Reachable r.x (l.foldl (Config.next r.x) c) := by
    intro l
    induction l with
    | nil => exact fun c h => h
    | cons i l ih => exact fun c h => ih _ (h.next i)
  exact key _ _ (.start _ _)

theorem not_raised (e : Exc) : r.config.phase ≠ .closing (some e) := fun h => by
  have hc := r.closing
  rw [h] at hc
  cases hc

/-- The patch markers on record are those its loop wrote. -/
theorem marks_iff (id : String) : .step (.patch id) ∈ r.last.marks ↔ r.patches.contains id = true := by
  rw [r.contains_patches]
  constructor
  · exact fun h => r.recorded_of_step (List.mem_filter.1 h).1
  · rintro ⟨c, hc, -, ho⟩
    rcases r.act_of_claim hc with ⟨a, ha, hact⟩ | hhop
    · have hclose : r.closed.marks = r.last.marks :=
        congrArg Interp.Decided.marks (Interp.decided_closeRun r.x r.env r.last)
      have hmark : a ∈ r.last.marks := by
        rw [← hclose]
        refine List.mem_filter.2 ⟨ha, ?_⟩
        rw [ho] at hact
        rcases hact with hact | hact <;> simp [isMark, hact, unmarked]
      obtain ⟨id', rfl⟩ := (r.reachable.marked r.not_raised).steps a hmark
      rcases hact with hact | hact
      · cases hact.trans (congrArg some ho)
        exact hmark
      · cases hact
    · exact absurd ho (r.not_patch_of_hopOps hhop id)

/-- What the run came to is on record: each answer of `patched` was true
exactly if its marker is. -/
theorem onRecord : r.last.OnRecord r.patches := by
  have hmark : ∀ id, r.last.patchesMemoized.get? id = some true ↔ r.patches.contains id = true := fun id =>
    (r.reachable.answered r.not_raised id).trans (r.marks_iff id)
  refine ⟨fun e he => ?_, fun id b hb => ?_⟩
  · have hends := r.ends
    rw [he] at hends
    cases hends
  · cases b with
    | true => exact (hmark id).1 hb
    | false =>
      rw [Bool.eq_false_iff]
      intro hp
      rw [(hmark id).2 hp] at hb
      cases hb

/-! ## The end of a verification -/

theorem hopOps_eq_nil : r.hopOps = [] ↔ r.dispatch.drains r.last.outcome = false := by
  unfold RunRecord.hopOps Dispatch.hopOps
  split
  · next h => simp [h, List.replicate_succ]
  · next h => simp [Bool.not_eq_true _ ▸ h]

/-- Where the loop ends with everything launched on record, the hop claims
what is on record exactly if it comes to no drain, or the close called
nothing. -/
theorem named_hopOps (dbos : StepNames) : r.named dbos (r.last.functionId r.x) r.hopOps = true ↔
    r.dispatch.drains r.last.outcome = false ∨ r.closeOps = [] := by
  cases hd : r.dispatch.drains r.last.outcome with
  | true => simp [r.named_iff dbos hd]
  | false =>
    rw [r.hopOps_eq_nil.2 hd]
    simp [RunRecord.named]

theorem replayed_escaped (e : Exc) : (ForkEnd.ended (.escaped e)).replayed ≠ .returned none := by
  intro h
  cases e <;> cases h

theorem replayed_failed (f : FailureEnvelope) :
    (ForkEnd.ended (.failed f)).replayed = .returned none ↔ f.type ≠ some nondeterminismMarker := by
  simp only [ForkEnd.replayed, Replayed.returned.injEq]
  split
  · next h => exact iff_of_false nofun fun hn => hn h
  · next h => exact iff_of_true rfl h

theorem completed_iff (dbos : StepNames) {v : Value} (ho : r.last.outcome = some (.ok v)) :
    (r.forkEnds dbos r.config).replayed = .returned none ↔ r.endsFaithfully = true := by
  have hdrains : r.dispatch.drains r.last.outcome = r.dispatch.runMeta.cron.isSome := by rw [ho]; rfl
  have hfork : r.config.interp.outcome = some (.ok v) := ho
  simp only [RunRecord.forkEnds, RunRecord.endsFaithfully, r.closing, ho, hfork]
  change ForkEnd.replayed (if r.last.functionId r.x < r.horizon then _
    else if !r.named dbos (r.last.functionId r.x) r.hopOps then _ else _) = _ ↔ _
  split
  · next hlt =>
    -- Something was called behind the loop.
    refine iff_of_false (fun h => (replayed_failed _).1 h rfl) fun h => ?_
    simp only [Bool.and_eq_true, List.isEmpty_iff, Option.isNone_iff_eq_none] at h
    refine r.lt_horizon_iff.1 hlt (List.append_eq_nil_iff.2 ⟨h.1.1, r.hopOps_eq_nil.2 ?_⟩)
    rw [hdrains, h.1.2]
    rfl
  · next hlt =>
    have hnil : r.closeOps ++ r.hopOps = [] := by
      refine Classical.byContradiction fun h => hlt (r.lt_horizon_iff.2 h)
    obtain ⟨hclose, hhop⟩ := List.append_eq_nil_iff.1 hnil
    have hcron : r.dispatch.runMeta.cron = none := by
      have hd := r.hopOps_eq_nil.1 hhop
      rwa [hdrains, Option.isSome_eq_false_iff, Option.isNone_iff_eq_none] at hd
    have hnext : r.dispatch.next r.last = .ok none := by
      unfold Dispatch.next Hop.decision
      split
      · rfl
      · change nextHop _ _ r.last.outcome = _
        rw [ho, nextHop, nextOccurrence, hcron]
        rfl
    have hresult : r.dispatch.result r.env r.config.interp v = encodeValue r.env.converter v := by
      unfold Dispatch.result
      rw [show r.dispatch.next r.config.interp = .ok none from hnext]
      rfl
    rw [(r.named_hopOps dbos).2 (.inr hclose), hresult, hclose, hcron]
    cases encodeValue r.env.converter v with
    | ok p => exact iff_of_true rfl rfl
    | error e => exact iff_of_false (replayed_escaped e) nofun

theorem forkFails_iff (dbos : StepNames) {e : WorkflowExc} (ho : r.last.outcome = some (.failure e)) :
    (r.forkFails dbos r.last e).replayed = .returned none ↔
      ((!r.dispatch.runMeta.hopsPossible || r.closeOps.isEmpty) && (r.dispatch.next r.last).isOk &&
        e.serialize.type != some nondeterminismMarker) = true := by
  have hnamed := r.named_hopOps dbos
  rw [show r.dispatch.drains r.last.outcome = r.dispatch.runMeta.hopsPossible by rw [ho]; rfl] at hnamed
  unfold RunRecord.forkFails
  change ForkEnd.replayed (if !r.named dbos (r.last.functionId r.x) r.hopOps then _ else _) = _ ↔ _
  split
  · next h =>
    -- The close called something, and the drain claims its number.
    refine iff_of_false nofun fun hends => ?_
    rw [Bool.not_eq_true', ← Bool.not_eq_true, hnamed] at h
    simp only [Bool.and_eq_true, Bool.or_eq_true, Bool.not_eq_true', List.isEmpty_iff] at hends
    exact h hends.1.1
  · next h =>
    rw [Bool.not_eq_true', Bool.not_eq_false, hnamed] at h
    have hhop : (!r.dispatch.runMeta.hopsPossible || r.closeOps.isEmpty) = true := by simpa using h
    rw [hhop, Bool.true_and]
    cases r.dispatch.next r.last with
    | ok n => simp [replayed_failed, Except.isOk, Except.toBool]
    | error e => exact iff_of_false (replayed_escaped e) (by simp [Except.isOk, Except.toBool])

theorem failed_iff (dbos : StepNames) {e : WorkflowExc} (ho : r.last.outcome = some (.failure e)) :
    (r.forkEnds dbos r.config).replayed = .returned none ↔ r.endsFaithfully = true := by
  have hfork : r.config.interp.outcome = some (.failure e) := ho
  have hfails := r.forkFails_iff dbos ho
  simp only [RunRecord.forkEnds, RunRecord.endsFaithfully, r.closing, ho, hfork]
  cases e with
  | nondeterminism m => exact iff_of_false (fun h => (replayed_failed _).1 h rfl) nofun
  | failureError | asyncTimeout | asyncCancelled | declared | other => exact hfails

end ClosedRun

/-- A run with everything numbered on record. -/
def RunRecord.complete (inputs : List Input) : RunRecord where
  x := .plain
  startTime := 0
  inputs
  env := .calm
  dispatch := { fire := fun _ => 0, encodeSync := fun _ => .ok ⟨"null"⟩ }
  recorded _ := true

def ClosedRun.complete (inputs : List Input) (closing : (RunRecord.complete inputs).config.phase = .closing none)
    (ends : (RunRecord.complete inputs).last.outcome.any Outcome.ends = true) : ClosedRun where
  toRunRecord := .complete inputs
  mode := rfl
  closing
  ends
  awaited := Coop.recordable_all _ _ _
  grown := Nat.zero_le _

/-- A receive under a name of its own. -/
def StepNames.plain : StepNames where
  name o := if o.isRecv then "DBOS.recv" else "step"
  recv o t h := by
    cases ho : o.isRecv with
    | true => rfl
    | false =>
      rw [ho] at h
      exact absurd h (by simp [Op.isRecv])
  unexpected := "unexpected step"

end Dbosify
