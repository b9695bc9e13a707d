/-
The virtual loop and its drain (`_VirtualLoop`, `_drain`).

The drain runs the ready callbacks until there are none, scans the wait
conditions once, and begins again if that made callbacks ready. A callback may
do anything to the loop; a scan changes nothing a predicate reads. So what a
scan found false is false when the drain returns, unless another callback ran,
and then another scan came after it (`drain_settles`).
-/
import Dbosify.Values

namespace Dbosify

/-! ## The loop -/

/-- An `asyncio.Handle`, by a number. -/
abbrev Handle := Nat

/-- An `asyncio.Future` of the virtual loop, by a number. -/
abbrev VFuture := Nat

/-- An entry of `_conditions`: a predicate of the state the program's tasks
change, and the future its waiter awaits. -/
structure Condition (σ : Type) where
  fn : σ → Except Exc Bool
  fut : VFuture

/-- `_VirtualLoop`, with the interpreter's `_conditions`. `state` is what the
program's tasks change. -/
structure VirtualLoop (σ : Type) where
  state : σ
  ready : List Handle := []
  /-- `handle.cancelled()`. -/
  cancelled : Handle → Bool := fun _ => false
  /-- `fut.done()`. -/
  done : VFuture → Bool := fun _ => false
  callbacks : VFuture → List Handle := fun _ => []
  conditions : List (Condition σ) := []

namespace VirtualLoop

variable {σ : Type}

/-- `call_soon`; `create_task` calls its first step soon. -/
def callSoon (l : VirtualLoop σ) (h : Handle) : VirtualLoop σ := { l with ready := l.ready ++ [h] }

/-- `fut.set_result`, `set_exception` or `cancel`, of a future that is not
done: its callbacks are called soon. -/
def resolve (l : VirtualLoop σ) (fut : VFuture) : VirtualLoop σ :=
  { l with
    done := Function.update l.done fut true
    ready := l.ready ++ l.callbacks fut
    callbacks := Function.update l.callbacks fut [] }

/-- `fut.add_done_callback`. -/
def addDoneCallback (l : VirtualLoop σ) (fut : VFuture) (h : Handle) : VirtualLoop σ :=
  if l.done fut then l.callSoon h else { l with callbacks := Function.update l.callbacks fut (l.callbacks fut ++ [h]) }

/-- `runtime_wait_condition`, up to its await: `h` is what the waiter goes on
with. -/
def waitCondition (l : VirtualLoop σ) (fn : σ → Except Exc Bool) (fut : VFuture) (h : Handle) : VirtualLoop σ :=
  addDoneCallback { l with conditions := l.conditions ++ [⟨fn, fut⟩] } fut h

/-- What a workflow program makes of each callback: anything it can do to the
loop. -/
abbrev Program (σ : Type) := Handle → VirtualLoop σ → VirtualLoop σ

/-! ## The drain -/

/-- `while ready`, the inner one; the fuel bounds the callbacks run. -/
def runReady (p : Program σ) : Nat → VirtualLoop σ → Option (VirtualLoop σ)
  | 0, l => if l.ready.isEmpty then some l else none
  | fuel + 1, l =>
    match l.ready with
    | [] => some l
    | h :: rest =>
      let l := { l with ready := rest }
      runReady p fuel (if l.cancelled h then l else p h l)

/-- `for fn, fut in self._conditions`: what is done is dropped, what holds is
resolved, and the rest is `still` there. The exception is a predicate's. -/
def scan : List (Condition σ) → List (Condition σ) → VirtualLoop σ → VirtualLoop σ × Option Exc
  | [], still, l => ({ l with conditions := still }, none)
  | c :: cs, still, l =>
    if l.done c.fut then scan cs still l
    else
      match c.fn l.state with
      | .error e => (l, some e)
      | .ok true => scan cs still (l.resolve c.fut)
      | .ok false => scan cs (still ++ [c]) l

/-- `_drain`, with the exception it aborted with, if it did. The fuel bounds
the rounds, and the callbacks of each. -/
def drain (p : Program σ) : Nat → VirtualLoop σ → Option (VirtualLoop σ × Option Exc)
  | 0, l => if l.ready.isEmpty then some (l, none) else none
  | fuel + 1, l =>
    if l.ready.isEmpty then some (l, none)
    else
      (runReady p (fuel + 1) l).bind fun l =>
        match scan l.conditions [] l with
        | (l, some e) => some (l, some e)
        | (l, none) => drain p fuel l

/-! ## What a drain leaves -/

/-- No condition that is pending holds, nor would its predicate raise. -/
def Settled (l : VirtualLoop σ) : Prop := ∀ c ∈ l.conditions, l.done c.fut = false → c.fn l.state = .ok false

variable {p : Program σ} {l l' : VirtualLoop σ}

/-- A scan that ends changes nothing a predicate reads, and what stays was
found false. -/
theorem scan_false {cs still : List (Condition σ)} (hs : ∀ c ∈ still, c.fn l.state = .ok false)
    (h : scan cs still l = (l', none)) : ∀ c ∈ l'.conditions, c.fn l'.state = .ok false := by
  induction cs generalizing still l with
  | nil =>
    cases h
    exact hs
  | cons c cs ih =>
    rw [scan] at h
    split at h
    · exact ih hs h
    · split at h
      · cases h
      · exact ih (l := l.resolve c.fut) hs h
      · next hc =>
        refine ih (fun c' hc' => ?_) h
        rcases List.mem_append.1 hc' with hc' | hc'
        · exact hs c' hc'
        · rw [List.mem_singleton.1 hc', hc]

/-- **A drain that ran something settles the conditions**: when it returns and
no predicate raised, nothing is ready and none that is pending holds. -/
theorem drain_ran {fuel : Nat} (h : drain p fuel l = some (l', none)) :
    l'.ready = [] ∧ (l.ready ≠ [] ∨ l.Settled → l'.Settled) := by
  induction fuel generalizing l with
  | zero =>
    simp only [drain, Option.ite_none_right_eq_some, List.isEmpty_iff, Option.some.injEq, Prod.mk.injEq, and_true] at h
    obtain ⟨hready, rfl⟩ := h
    exact ⟨hready, fun hor => hor.resolve_left (fun hne => hne hready)⟩
  | succ fuel ih =>
    rw [drain] at h
    split at h
    · next hready =>
      rw [List.isEmpty_iff] at hready
      cases h
      exact ⟨hready, fun hor => hor.resolve_left (fun hne => hne hready)⟩
    · rw [Option.bind_eq_some_iff] at h
      obtain ⟨l₁, -, h⟩ := h
      split at h
      · cases h
      · next l₂ hscan =>
        obtain ⟨hready, hsettles⟩ := ih h
        have hsettled : l₂.Settled := fun c hc _ => scan_false (fun c hc => by cases hc) hscan c hc
        exact ⟨hready, fun _ => hsettles (.inr hsettled)⟩

/-! ## Runs of a loop -/

/-- What happens to the loop between two drains: callbacks become ready and
futures done, and nothing a predicate reads changes. -/
structure Outside (l l' : VirtualLoop σ) : Prop where
  state : l'.state = l.state
  conditions : l'.conditions = l.conditions
  done : ∀ fut, l.done fut = true → l'.done fut = true
  ready : l.ready <+: l'.ready

/-- A loop reached by drains and what happens between them, and whether a
predicate has raised. -/
inductive Ran (p : Program σ) : VirtualLoop σ → Bool → Prop
  | start (l : VirtualLoop σ) (h : l.conditions = []) : Ran p l false
  | outside {l l' : VirtualLoop σ} {raised : Bool} (h : Ran p l raised) (ho : Outside l l') : Ran p l' raised
  | drained {l l' : VirtualLoop σ} {raised : Bool} {fuel : Nat} {e : Option Exc} (h : Ran p l raised)
      (hd : drain p fuel l = some (l', e)) : Ran p l' (raised || e.isSome)

theorem Settled.outside (h : l.Settled) (ho : Outside l l') : l'.Settled := by
  intro c hc hpending
  rw [ho.conditions] at hc
  rw [ho.state]
  refine h c hc ?_
  cases hd : l.done c.fut with
  | false => rfl
  | true =>
    rw [ho.done c.fut hd] at hpending
    cases hpending

/-- While no predicate has raised, every loop between two drains is settled. -/
theorem Ran.settled {raised : Bool} (h : Ran p l raised) (hr : raised = false) : l.Settled := by
  induction h with
  | start l h => exact fun c hc => by rw [h] at hc; cases hc
  | outside _ ho ih => exact (ih hr).outside ho
  | @drained l l' raised fuel e h hd ih =>
    rw [Bool.or_eq_false_iff] at hr
    obtain ⟨hr, he⟩ := hr
    cases e with
    | some e => cases he
    | none => exact (drain_ran hd).2 (.inr (ih hr))

end VirtualLoop

open VirtualLoop in
/-- **Draining reaches a fixpoint**: whenever a drain returns and no predicate
has raised, nothing is ready and no condition that is pending holds. After a
predicate has raised the same is true of every later drain that had something
to run. -/
theorem drain_settles {σ : Type} (p : VirtualLoop.Program σ) {l l' : VirtualLoop σ} {raised : Bool} {fuel : Nat}
    (h : Ran p l raised) (hd : drain p fuel l = some (l', none)) :
    l'.ready = [] ∧ (raised = false ∨ l.ready ≠ [] →
      ∀ c ∈ l'.conditions, l'.done c.fut = false → c.fn l'.state ≠ .ok true) := by
  obtain ⟨hready, hsettles⟩ := drain_ran hd
  refine ⟨hready, fun hor c hc hpending => ?_⟩
  have hsettled : l'.Settled := hsettles (hor.elim (fun hr => .inr (h.settled hr)) .inl)
  rw [hsettled c hc hpending]
  simp

/-- Three tasks: `1` waits for two, `3` waits for one and counts, `4` counts.
A condition of `1` waits for ten beside. -/
def countingTasks : VirtualLoop.Program Nat
  | 0, l => (l.waitCondition (fun n => .ok (2 ≤ n)) 0 1).callSoon 2
  | 1, l => l.waitCondition (fun n => .ok (10 ≤ n)) 2 5
  | 2, l => (l.waitCondition (fun n => .ok (1 ≤ n)) 1 3).callSoon 4
  | _, l => { l with state := l.state + 1 }

/-- The conditions enable one another, and the drain ends with the last one
pending. -/
theorem countingTasks_settles : ∃ l', VirtualLoop.drain countingTasks 10 { state := 0, ready := [0] } = some (l', none) ∧
    l'.state = 2 ∧ l'.ready = [] ∧ ∀ c ∈ l'.conditions, l'.done c.fut = false → c.fn l'.state ≠ .ok true := by
  have hstart : VirtualLoop.Ran countingTasks { state := 0, ready := [0] } false := .start _ rfl
  obtain ⟨l', hd, hstate⟩ : ∃ l', VirtualLoop.drain countingTasks 10 { state := 0, ready := [0] } = some (l', none) ∧
      l'.state = 2 := ⟨_, rfl, rfl⟩
  obtain ⟨hready, hsettles⟩ := drain_settles countingTasks hstart hd
  exact ⟨l', hd, hstate, hready, hsettles (.inl rfl)⟩

end Dbosify
