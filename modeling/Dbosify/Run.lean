/-
`execute`: one pass of its loop, from a drain to the next wait, and the runs
it makes.

A run alternates passes and rounds. User code, the world's answers and the
sets of tasks that are done are arbitrary at every step, so what is proved
of every reachable state holds for every workflow and every schedule.
-/
import Dbosify.Commands

namespace Dbosify

/-- How a pass ends. -/
inductive Turn
  /-- Progress without a wait: drain again. -/
  | again
  /-- At the wait. -/
  | wait
  /-- The outcome is in: leave the loop. -/
  | close
  /-- `raise WorkflowTaskFailure`. -/
  | taskFailure (e : WorkflowExc)

namespace Interp

/-- The drain at the head of a pass: the driver suspends, and user code runs
on what it was handed. -/
def drainOutsideTask (x : Execution) (code : Code) (s : Interp) : Interp :=
  code.drain x { s.suspend with ready := [] }

/-- Whether a run with an outcome leaves the loop: a rehydrated one serves
queries until it is told to stop, or long enough. -/
def leaves (x : Execution) (deadlinePassed : Bool) (s : Interp) : Bool :=
  s.outcome.isSome && (x.replayMode != some .rehydrate || s.rehydrateStop || deadlinePassed)

/-- The end of a pass that made no progress. -/
def settle (x : Execution) (env : Env) (deadlinePassed : Bool) (s : Interp) : M (Turn × Interp) :=
  match s.outcome with
  | some (.taskFailure e) => .ok (.taskFailure e, s)
  | _ => do
    let s ← s.flushOutbox env
    if s.leaves x deadlinePassed then .ok (.close, s) else .ok (.wait, (s.ensureInboxWaiter x).suspend)

/-- What follows the drain in a pass. -/
def afterDrain (x : Execution) (env : Env) (deadlinePassed : Bool) (s : Interp) : M (Turn × Interp) := do
  let s := s.sweepCancellations env
  let (flushed, s) ← s.flushPendingHandlerSignals x env
  let (progressed, s) ← processCommands x env s.commands false { s with commands := [] }
  if progressed || flushed then .ok (.again, s) else s.settle x env deadlinePassed

/-- One pass of the loop. -/
def pass (x : Execution) (env : Env) (deadlinePassed : Bool) (code : Code) (s : Interp) : M (Turn × Interp) :=
  (s.drainOutsideTask x code).afterDrain x env deadlinePassed

/-- A set of results `asyncio_wait` can report: of tasks that are waited for,
each with a result its operation can have. -/
def Fits (s : Interp) (done : Done) : Prop :=
  ∀ t r, done t = some r → ∃ w ∈ s.waiters, w.task = t ∧ w.op.yields r = true

/-- The same, of a listed done set. -/
def fits (s : Interp) (l : List (Nat × TaskResult)) : Bool :=
  l.all fun e => s.waiters.any fun w => w.task = e.1 && w.op.yields e.2

theorem fits_of {s : Interp} {l : List (Nat × TaskResult)} (h : s.fits l = true) : s.Fits (.of l) := by
  intro t r hr
  simp only [Done.of, Option.map_eq_some_iff] at hr
  obtain ⟨e, he, rfl⟩ := hr
  have hm := List.all_eq_true.1 h e (List.mem_of_find?_eq_some he)
  have ht : e.1 = t := by simpa using List.find?_some he
  obtain ⟨w, hw, hy⟩ := List.any_eq_true.1 hm
  simp only [Bool.and_eq_true, decide_eq_true_eq] at hy
  exact ⟨w, hw, hy.1.trans ht, hy.2⟩

/-- The race and its delivery. -/
def round (x : Execution) (env : Env) (done : Done) (s : Interp) : M Interp :=
  (s.step .asyncioWait).deliver x env done

end Interp

/-- Where the driver is. -/
inductive Phase
  | draining
  | waiting
  /-- In the `finally` block, with the exception that escaped the loop. -/
  | closing (escaped : Option Exc)
  /-- In the `finally` block of a task failure. -/
  | failed (e : WorkflowExc)

def Phase.isWaiting : Phase → Bool
  | waiting => true
  | _ => false

theorem Phase.isWaiting_iff {p : Phase} : p.isWaiting = true ↔ p = .waiting := by
  cases p <;> simp [isWaiting]

/-- What escaped, in the `finally` block. -/
def Phase.escaped : Phase → Option Exc
  | closing e => e
  | _ => none

theorem Phase.escaped_eq_some {p : Phase} {e : Exc} (h : p.escaped = some e) : p = .closing (some e) := by
  cases p <;> cases h
  rfl

structure Config where
  phase : Phase
  interp : Interp

/-- The phase a turn leads to. -/
def Turn.phase : Turn → Phase
  | again => .draining
  | wait => .waiting
  | close => .closing none
  | taskFailure e => .failed e

/-- One step of the loop. -/
inductive Step (x : Execution) : Config → Config → Prop
  | pass {s s' : Interp} {t : Turn} (env : Env) (deadlinePassed : Bool) (code : Code)
      (h : s.pass x env deadlinePassed code = .ok (t, s')) : Step x ⟨.draining, s⟩ ⟨t.phase, s'⟩
  | passRaises {s : Interp} {r : Raised} (env : Env) (deadlinePassed : Bool) (code : Code)
      (h : s.pass x env deadlinePassed code = .error r) : Step x ⟨.draining, s⟩ ⟨.closing (some r.exc), r.state⟩
  | round {s s' : Interp} (env : Env) (done : Done) (hf : s.Fits done)
      (h : s.round x env done = .ok s') : Step x ⟨.waiting, s⟩ ⟨.draining, s'⟩
  | roundRaises {s : Interp} {r : Raised} (env : Env) (done : Done) (hf : s.Fits done)
      (h : s.round x env done = .error r) : Step x ⟨.waiting, s⟩ ⟨.closing (some r.exc), r.state⟩

/-- The state `execute` enters its loop with. -/
def Interp.start (startTime : Seconds) (memo : Py.Dict String Value := .empty) : Interp :=
  { timeSeconds := startTime, memo, trace := [.step .init] }

/-- The configurations the runs of an execution reach. -/
inductive Reachable (x : Execution) : Config → Prop
  | start (startTime : Seconds) (memo : Py.Dict String Value) : Reachable x ⟨.draining, .start startTime memo⟩
  | step {c c' : Config} : Reachable x c → Step x c c' → Reachable x c'

/-- **The invariant rule.** What holds at the start, and survives each pass and
each round that do not raise, holds whenever the loop has not ended. -/
theorem Reachable.invariant {x : Execution} {P : Phase → Interp → Prop}
    (h₀ : ∀ t m, P .draining (.start t m))
    (hp : ∀ {s s' t} env d code, P .draining s → s.pass x env d code = .ok (t, s') → P t.phase s')
    (hr : ∀ {s s'} env done, P .waiting s → s.Fits done → s.round x env done = .ok s' → P .draining s')
    {c : Config} (h : Reachable x c) (hc : ∀ e, c.phase ≠ .closing (some e)) : P c.phase c.interp := by
  induction h with
  | start t m => exact h₀ t m
  | step hr₀ hst ih =>
    cases hst with
    | pass env d code h => exact hp env d code (ih (by simp)) h
    | passRaises env d code h => exact absurd rfl (hc _)
    | round env done hf h => exact hr env done (ih (by simp)) hf h
    | roundRaises env done hf h => exact absurd rfl (hc _)

/-! ## Running -/

/-- What decides one step: what the world answers, and what user code does
or which tasks are done. -/
inductive Input
  | pass (env : Env) (deadlinePassed : Bool) (code : Code)
  | round (env : Env) (done : List (Nat × TaskResult))

/-- The step an input makes, where it makes one. -/
def Config.next (x : Execution) (c : Config) : Input → Config
  | .pass env d code =>
    match c.phase with
    | .draining =>
      match c.interp.pass x env d code with
      | .ok (t, s) => ⟨t.phase, s⟩
      | .error r => ⟨.closing (some r.exc), r.state⟩
    | _ => c
  | .round env done =>
    match c.phase with
    | .waiting =>
      if c.interp.fits done then
        match c.interp.round x env (.of done) with
        | .ok s => ⟨.draining, s⟩
        | .error r => ⟨.closing (some r.exc), r.state⟩
      else c
    | _ => c

/-- The run the inputs make. -/
def Execution.run (x : Execution) (startTime : Seconds) (inputs : List Input) : Config :=
  inputs.foldl (Config.next x) ⟨.draining, .start startTime⟩

theorem Reachable.next {x : Execution} {c : Config} (h : Reachable x c) (i : Input) : Reachable x (c.next x i) := by
  obtain ⟨p, s⟩ := c
  cases i with
  | pass env d code =>
    cases p with
    | draining =>
      simp only [Config.next]
      split
      · next t s' hs => exact h.step (.pass env d code hs)
      · next r hr => exact h.step (.passRaises env d code hr)
    | waiting | closing | failed => exact h
  | round env done =>
    cases p with
    | waiting =>
      simp only [Config.next]
      split
      · next hf =>
        split
        · next s' hs => exact h.step (.round env _ (Interp.fits_of hf) hs)
        · next r hr => exact h.step (.roundRaises env _ (Interp.fits_of hf) hr)
      · exact h
    | draining | closing | failed => exact h

/-- Every run is reached. -/
theorem Execution.run_reachable (x : Execution) (t : Seconds) (inputs : List Input) : Reachable x (x.run t inputs) := by
  have key : ∀ (l : List Input) (c : Config), Reachable x c → Reachable x (l.foldl (Config.next x) c) := by
    intro l
    induction l with
    | nil => intro c h; exact h
    | cons i l ih => intro c h; exact ih _ (h.next i)
  exact key inputs _ (.start t _)

/-- A converter that converts everything. -/
def Converter.lenient : Converter where
  encode vs := .ok (vs.map fun _ => ⟨"null"⟩)
  decode ps _ := .ok (ps.map fun p => .obj p.text)
  codecEncode := .ok
  codecDecode := .ok
  decodeSync p := .ok (.obj p.text)

/-- A world in which nothing fails. -/
def Env.calm : Env := { converter := .lenient }

/-- User code that asks these things, one after the other. -/
def Code.asks : List UserOp → Code
  | [] => .park
  | o :: os => .ask o fun _ => asks os

/-- A pass whose user code asks these things. -/
def Input.drain (os : List UserOp) : Input := .pass .calm false (.asks os)

/-- Whether a piece goes through, to something of which `p` holds. -/
def M.holds {α : Type} (m : M α) (p : α → Bool) : Bool :=
  match m with
  | .ok a => p a
  | .error _ => false

theorem M.holds_iff {α : Type} {m : M α} {p : α → Bool} : M.holds m p = true ↔ ∃ a, m = .ok a ∧ p a = true := by
  cases m <;> simp [holds]

def Turn.isWait : Turn → Bool
  | wait => true
  | _ => false

theorem Turn.isWait_iff {t : Turn} : t.isWait = true ↔ t = .wait := by
  cases t <;> simp [isWait]

def Turn.isClose : Turn → Bool
  | close => true
  | _ => false

theorem Turn.isClose_iff {t : Turn} : t.isClose = true ↔ t = .close := by
  cases t <;> simp [isClose]

/-- Out of the loop, with nothing that escaped it. -/
def Phase.isClosed : Phase → Bool
  | closing none => true
  | _ => false

theorem Phase.isClosed_iff {p : Phase} : p.isClosed = true ↔ p = .closing none := by
  cases p with
  | closing e => cases e <;> simp [isClosed]
  | draining | waiting | failed => simp [isClosed]

/-- What the next run is started with, if there is one. -/
def Outcome.continuing : Outcome → Option ContinueAsNew
  | continueAsNew can => some can
  | _ => none

theorem Outcome.continuing_eq_some {o : Outcome} {can : ContinueAsNew} : o.continuing = some can ↔ o = .continueAsNew can := by
  cases o <;> simp [continuing]

/-- An execution of a workflow without handlers. -/
def Execution.plain : Execution := { base := "wf", defn := { name := "Wf" } }

end Dbosify
