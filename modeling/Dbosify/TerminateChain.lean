/-
`WorkflowHandle.terminate` of a handle bound to no run, against a chain that
hops while the call is under way.

The call is the state between its reads and writes of the system database:
the lookups that resolve the target, the status read, the native cancel, the
look for a successor. Between any two of them the chain's own runs go on: a
run is dequeued, enqueues its successor, closes. A run that has been
cancelled records nothing further.
-/
import Dbosify.ChainResolution
import Dbosify.Status
import Dbosify.Transitions

namespace Dbosify

open Transitions

/-! ## The chain -/

/-- A row of the chain. -/
structure ChainRun where
  status : DbosStatus := .enqueued
  error : Option RecordedError := none
  /-- `parent_workflow_id` is the run before: a hop enqueued this one. -/
  hopped : Bool := false
deriving DecidableEq, Repr

def ChainRun.isOpen (r : ChainRun) : Bool := r.status.isOpen

/-- `to_execution_status`, of a row. -/
def ChainRun.execution (r : ChainRun) : WorkflowExecutionStatus := toExecutionStatus r.status r.error

/-- The rows of a chain, by run index. -/
abbrev ChainRows := List ChainRun

namespace ChainRows

variable (rows : ChainRows)

/-- Run `k` exists and is open. -/
def openAt (k : Nat) : Bool := (rows[k]?).any ChainRun.isOpen

/-- Run `k` exists and was enqueued by the run before. -/
def hoppedAt (k : Nat) : Bool := (rows[k]?).any ChainRun.hopped

/-- Run `k` has enqueued the next run. -/
def hasHopped (k : Nat) : Bool := rows.hoppedAt (k + 1)

/-- No run of the chain is open. -/
def NoneOpen : Prop := ∀ k, rows.openAt k = false

end ChainRows

/-! ## The call -/

inductive TerminateExc
  | workflowNotFound
  | runNotFound (target : Nat)
  | alreadyClosed (target : Nat) (status : WorkflowExecutionStatus)
  | didNotConverge
deriving DecidableEq, Repr

/-- Where `_terminate_impl` stands; `rounds` of its 64 are left. -/
inductive TerminateCall
  | resolving (r : Resolver String)
  | reading (target rounds : Nat)
  | cancelling (target rounds : Nat)
  /-- The children have been dealt with; a successor may be there. -/
  | looking (target rounds : Nat)
  | returned
  | raised (e : TerminateExc)

structure TerminateConf where
  rows : ChainRows
  call : TerminateCall

/-- What happens next. -/
inductive TerminateEvent
  /-- The last run, open, enqueues its successor: it continues as new, or has
  failed or completed and is retried or comes round again by cron. -/
  | hop
  /-- An open run's row changes: it is dequeued, or closes. -/
  | record (run : Nat) (status : DbosStatus) (error : Option RecordedError)
  /-- The call takes its next step. -/
  | call
deriving DecidableEq, Repr

/-- The lookup of a resolver's step, against the chain as it is. -/
def ChainRows.lookup (workflowId : String) (rows : ChainRows) (r : Resolver String) : Found String :=
  probe workflowId (chainLookup workflowId (rows.length - 1) id) r.points

/-- `_resolve_dbos_id`, one lookup on. -/
def resolveStep (workflowId : String) (rows : ChainRows) (r : Resolver String) : TerminateCall :=
  match r.next (rows.lookup workflowId r) with
  | .returned (some (target, _)) => .reading target 64
  | .returned none => .raised .workflowNotFound
  | r => .resolving r

/-- The status read: a continue-as-new is followed, and only a running run is
cancelled. -/
def readStatus (rows : ChainRows) (target : Nat) : Nat → TerminateCall
  | 0 => .raised .didNotConverge
  | rounds + 1 =>
    match rows[target]? with
    | none => .raised (.runNotFound target)
    | some run =>
      match run.execution with
      | .continuedAsNew => .reading (target + 1) rounds
      | .running => .cancelling target rounds
      | status => .raised (.alreadyClosed target status)

/-- The native cancel. It clobbers the status of a run that closed since the
read. -/
def cancelRun (rows : ChainRows) (target : Nat) : ChainRows :=
  rows.modify target fun run => { run with status := .cancelled, error := none }

/-- The look for a successor, by its parent. -/
def lookForSuccessor (rows : ChainRows) (target rounds : Nat) : TerminateCall :=
  if rows.hasHopped target then .reading (target + 1) rounds else .returned

/-- One step of the call. -/
def terminateStep (workflowId : String) (rows : ChainRows) : TerminateCall → Option TerminateConf
  | .resolving r => some ⟨rows, resolveStep workflowId rows r⟩
  | .reading target rounds => some ⟨rows, readStatus rows target rounds⟩
  | .cancelling target rounds => some ⟨cancelRun rows target, .looking target rounds⟩
  | .looking target rounds => some ⟨rows, lookForSuccessor rows target rounds⟩
  | .returned | .raised _ => none

def TerminateCall.over : TerminateCall → Bool
  | .returned | .raised _ => true
  | _ => false

/-- One step of the chain or of the call, while the call lasts. Only a run
that is open does anything, and the continue-as-new marker is recorded by a
run that has enqueued its successor. -/
def TerminateConf.step (workflowId : String) (c : TerminateConf) : TerminateEvent → Option TerminateConf
  | .call => terminateStep workflowId c.rows c.call
  | .hop =>
    if !c.call.over && c.rows.openAt (c.rows.length - 1) then some { c with rows := c.rows ++ [{ hopped := true }] }
    else none
  | .record k status error =>
    if !c.call.over && c.rows.openAt k && (error ≠ some .continueAsNew || c.rows.hasHopped k) then
      some { c with rows := c.rows.modify k fun run => { run with status, error } }
    else none

/-- A call against these rows. -/
def TerminateConf.start (rows : ChainRows) : TerminateConf := ⟨rows, .resolving .ladder⟩

/-! ## What an orderly run is -/

/-- The condition on a step of the call. When the target is settled on, no run
before it is still open; and a status that is read is not that of a run
closed by anything but continue-as-new after it had enqueued its successor. -/
def TerminateConf.Orderly (workflowId : String) (c : TerminateConf) : TerminateEvent → Prop
  | .call =>
    match c.call with
    | .resolving r => ∀ target rounds, resolveStep workflowId c.rows r = .reading target rounds →
        ∀ k < target, c.rows.openAt k = false
    | .reading target _ => c.rows.openAt target = false → c.rows.hasHopped target = true →
        (c.rows[target]?).map (·.execution) = some .continuedAsNew ∨
          (c.rows[target]?).map (·.execution) = some .running
    | _ => True
  | _ => True

/-! ## The chain only grows -/

/-- What the chain does, and what a cancel does to it: closed runs stay
closed, hops stay hops, and new rows are hops. -/
structure ChainRows.Grows (a b : ChainRows) : Prop where
  length_le : a.length ≤ b.length
  closed : ∀ k < a.length, a.openAt k = false → b.openAt k = false
  hopped : ∀ k, a.hoppedAt k = true → b.hoppedAt k = true
  fresh : ∀ k, a.length ≤ k → k < b.length → b.hoppedAt k = true

namespace ChainRows.Grows

theorem refl (a : ChainRows) : a.Grows a where
  length_le := Nat.le_refl _
  closed _ _ h := h
  hopped _ h := h
  fresh k h₁ h₂ := by omega

theorem hop (a : ChainRows) : a.Grows (a ++ [{ hopped := true }]) where
  length_le := by simp
  closed k hk h := by rwa [openAt, List.getElem?_append_left hk]
  hopped k h := by
    have hk : k < a.length := by
      by_contra hk
      simp [hoppedAt, List.getElem?_eq_none (Nat.not_lt.1 hk)] at h
    rwa [hoppedAt, List.getElem?_append_left hk]
  fresh k h₁ h₂ := by
    have hk : k = a.length := by simp at h₂; omega
    subst hk
    simp [hoppedAt]

/-- A row that is rewritten, but for where it came from; one that was closed
is not reopened. -/
theorem modify {a : ChainRows} {n : Nat} {f : ChainRun → ChainRun} (hf : ∀ r, (f r).hopped = r.hopped)
    (ho : a.openAt n = false → ∀ r, (f r).isOpen = false) : a.Grows (a.modify n f) where
  length_le := by simp
  closed k hk h := by
    rw [openAt] at h ⊢
    rw [List.getElem?_modify]
    by_cases hn : n = k
    · subst hn
      cases hr : a[n]? with
      | none => rfl
      | some r => simpa using ho h r
    · simpa [hn] using h
  hopped k h := by
    rw [hoppedAt] at h ⊢
    rw [List.getElem?_modify]
    cases hr : a[k]? with
    | none => simp [hr] at h
    | some r =>
      rw [hr] at h
      by_cases hn : n = k <;> simpa [hn, hf] using h
  fresh k h₁ h₂ := by simp at h₂; omega

theorem cancel (a : ChainRows) (n : Nat) : a.Grows (cancelRun a n) := modify (fun _ => rfl) fun _ _ => rfl

end ChainRows.Grows

theorem openAt_cancelRun (a : ChainRows) (n : Nat) : (cancelRun a n).openAt n = false := by
  rw [ChainRows.openAt, cancelRun, List.getElem?_modify]
  cases a[n]? <;> simp [ChainRun.isOpen, DbosStatus.isOpen]

/-! ## The resolver, between hops -/

theorem Resolver.Sound.congr {workflowId : String} {newest newest' : ℕ → ℕ} {status : ℕ → String → String} {k : Nat}
    {r : Resolver String} (he : ∀ j < k, newest j = newest' j) (h : r.Sound workflowId newest id status k) :
    r.Sound workflowId newest' id status k := by
  have hseen {lo : Nat} {st : String} (h : Seen workflowId newest id status k lo st) :
      Seen workflowId newest' id status k lo st := by
    obtain ⟨j, hj, hlo, hst⟩ := h
    exact ⟨j, hj, by rwa [id, ← he j hj], hst⟩
  have hmissed {hi : Nat} (h : Missed newest id k hi) : Missed newest' id k hi := by
    obtain ⟨j, hj, hm⟩ := h
    exact ⟨j, hj, by rwa [id, ← he j hj]⟩
  cases r with
  | ladder => exact h
  | doubling lo st => exact ⟨h.1, hseen h.2⟩
  | refining lo hi st => exact ⟨h.1, hseen h.2.1, hmissed h.2.2⟩
  | returned latest =>
    obtain ⟨lo, st, rfl, hs, hm⟩ := h
    exact ⟨lo, st, rfl, hseen hs, hmissed hm⟩

/-- The resolver's state is evidence about lookups that each found the chain
between its length at the call and its length now. -/
def Resolver.Evidence (workflowId : String) (lo hi : Nat) (r : Resolver String) : Prop :=
  ∃ (k : Nat) (newest : ℕ → ℕ), r.Sound workflowId newest id (fun _ => id) k ∧ ∀ j < k, lo ≤ newest j ∧ newest j ≤ hi

namespace Resolver.Evidence

variable {workflowId : String} {lo hi hi' : Nat} {r : Resolver String}

theorem mono (h : r.Evidence workflowId lo hi) (hle : hi ≤ hi') : r.Evidence workflowId lo hi' := by
  obtain ⟨k, newest, hs, hb⟩ := h
  exact ⟨k, newest, hs, fun j hj => ⟨(hb j hj).1, (hb j hj).2.trans hle⟩⟩

theorem next (h : r.Evidence workflowId lo hi) (hle : lo ≤ hi) :
    (r.next (probe workflowId (chainLookup workflowId hi id) r.points)).Evidence workflowId lo hi := by
  obtain ⟨k, newest, hs, hb⟩ := h
  refine ⟨k + 1, Function.update newest k hi, Resolver.sound_next (hs.congr fun j hj => ?_) ?_, fun j hj => ?_⟩
  · rw [Function.update_of_ne (by omega)]
  · have hof : (probe workflowId (chainLookup workflowId hi id) r.points).Of r.points hi
        fun i => runDbosId workflowId i := ⟨probe_chain workflowId _ _ _⟩
    simpa using hof
  · by_cases hj' : j = k
    · subst hj'
      simpa using hle
    · rw [Function.update_of_ne hj']
      exact hb j (by omega)

/-- The run it settles on was the newest at some lookup. -/
theorem returned {latest : Option (Nat × String)} (h : (Resolver.returned latest).Evidence workflowId lo hi) :
    ∃ n st, latest = some (n, st) ∧ lo ≤ n ∧ n ≤ hi := by
  obtain ⟨k, newest, ⟨n, st, rfl, ⟨i, hi', hseen, -⟩, j, hj, hmissed⟩, hb⟩ := h
  have h₁ := (hb i hi').2
  have h₂ := (hb j hj).1
  simp only [id] at hseen hmissed
  exact ⟨n, st, rfl, by omega, by omega⟩

end Resolver.Evidence

/-! ## The invariant -/

/-- No run before `n` is open. -/
def ChainRows.ClosedBelow (rows : ChainRows) (n : Nat) : Prop := ∀ k < n, rows.openAt k = false

/-- Where the call stands, against a chain whose last run was `first` when it
began. -/
def TerminateCall.Inv (workflowId : String) (first : Nat) (rows : ChainRows) : TerminateCall → Prop
  | .resolving r => r.Evidence workflowId first (rows.length - 1)
  | .reading target _ => first ≤ target ∧ target ≤ rows.length ∧ rows.ClosedBelow target
  | .cancelling target _ => first ≤ target ∧ target < rows.length ∧ rows.ClosedBelow target
  | .looking target _ => first ≤ target ∧ target < rows.length ∧ rows.ClosedBelow (target + 1)
  | .returned | .raised (.alreadyClosed _ _) => rows.NoneOpen
  | .raised _ => True

structure TerminateConf.Inv (workflowId : String) (first : Nat) (c : TerminateConf) : Prop where
  grown : first < c.rows.length
  hopped : ∀ k, first < k → k < c.rows.length → c.rows.hoppedAt k = true
  call : c.call.Inv workflowId first c.rows

theorem ChainRows.Grows.closedBelow {a b : ChainRows} (h : a.Grows b) {n : Nat} (hn : n ≤ a.length)
    (hc : a.ClosedBelow n) : b.ClosedBelow n := fun k hk => h.closed k (by omega) (hc k hk)

theorem ChainRows.Grows.hopped_from {a b : ChainRows} (h : a.Grows b) {first : Nat}
    (ha : ∀ k, first < k → k < a.length → a.hoppedAt k = true) :
    ∀ k, first < k → k < b.length → b.hoppedAt k = true := by
  intro k hf hk
  by_cases hka : k < a.length
  · exact h.hopped k (ha k hf hka)
  · exact h.fresh k (Nat.not_lt.1 hka) hk

/-- The chain's own steps keep where the call stands. -/
theorem TerminateCall.Inv.grows {workflowId : String} {first : Nat} {a b : ChainRows} {c : TerminateCall}
    (hc : c.Inv workflowId first a) (hover : c.over = false) (h : a.Grows b) : c.Inv workflowId first b := by
  have hle := h.length_le
  cases c with
  | resolving r => exact Resolver.Evidence.mono hc (by omega)
  | reading target rounds => exact ⟨hc.1, by have := hc.2.1; omega, h.closedBelow hc.2.1 hc.2.2⟩
  | cancelling target rounds => exact ⟨hc.1, by have := hc.2.1; omega, h.closedBelow (by have := hc.2.1; omega) hc.2.2⟩
  | looking target rounds => exact ⟨hc.1, by have := hc.2.1; omega, h.closedBelow hc.2.1 hc.2.2⟩
  | returned | raised e => cases hover

/-- A run that has not hopped is the last: those before it closed, and it too,
none is open. -/
theorem noneOpen_of_last {rows : ChainRows} {first target : Nat} (hfirst : first ≤ target)
    (hhopped : ∀ k, first < k → k < rows.length → rows.hoppedAt k = true)
    (hclosed : rows.ClosedBelow (target + 1)) (hlast : rows.hasHopped target = false) : rows.NoneOpen := by
  have hlen : rows.length ≤ target + 1 := by
    by_contra hlt
    have := hhopped (target + 1) (by omega) (by omega)
    rw [ChainRows.hasHopped] at hlast
    rw [this] at hlast
    cases hlast
  intro k
  by_cases hk : k < target + 1
  · exact hclosed k hk
  · simp [ChainRows.openAt, List.getElem?_eq_none (show rows.length ≤ k by omega)]

namespace TerminateConf

variable {workflowId : String} {first : Nat} {c c' : TerminateConf}

/-- A step of the chain. -/
theorem Inv.grows (h : c.Inv workflowId first) (hover : c.call.over = false) {rows : ChainRows}
    (hg : c.rows.Grows rows) : Inv workflowId first ⟨rows, c.call⟩ where
  grown := lt_of_lt_of_le h.grown hg.length_le
  hopped := hg.hopped_from h.hopped
  call := h.call.grows hover hg

/-- The lookups end on a run the chain had when the call began, or a later
one. -/
theorem inv_resolveStep {rows : ChainRows} {r : Resolver String} (hgrown : first < rows.length)
    (h : r.Evidence workflowId first (rows.length - 1))
    (hp : ∀ target rounds, resolveStep workflowId rows r = .reading target rounds → rows.ClosedBelow target) :
    (resolveStep workflowId rows r).Inv workflowId first rows := by
  have hn := h.next (by omega)
  rw [resolveStep] at hp ⊢
  rw [ChainRows.lookup] at hp ⊢
  split at hp
  · next target st hr =>
    rw [hr] at hn
    obtain ⟨n, st', he, hlo, hhi⟩ := hn.returned
    simp only [Option.some.injEq, Prod.mk.injEq] at he
    obtain ⟨rfl, rfl⟩ := he
    exact ⟨hlo, by omega, hp _ _ rfl⟩
  · next hr => trivial
  · next hr => exact hn

/-- The status read. A target that is neither running nor continued as new
has, in an orderly run, no successor. -/
theorem inv_readStatus {rows : ChainRows} {target rounds : Nat}
    (hhopped : ∀ k, first < k → k < rows.length → rows.hoppedAt k = true) (hfirst : first ≤ target)
    (hclosed : rows.ClosedBelow target)
    (hp : rows.openAt target = false → rows.hasHopped target = true →
      (rows[target]?).map (·.execution) = some .continuedAsNew ∨ (rows[target]?).map (·.execution) = some .running) :
    (readStatus rows target rounds).Inv workflowId first rows := by
  cases rounds with
  | zero => trivial
  | succ rounds =>
    rw [readStatus]
    cases hr : rows[target]? with
    | none => trivial
    | some run =>
      have hlt : target < rows.length := by
        by_contra hlt
        simp [List.getElem?_eq_none (Nat.not_lt.1 hlt)] at hr
      have hopen : rows.openAt target = run.isOpen := by simp [ChainRows.openAt, hr]
      have hbelow (hc : run.isOpen = false) : rows.ClosedBelow (target + 1) := by
        intro k hk
        by_cases hkt : k = target
        · rw [hkt, hopen, hc]
        · exact hclosed k (by omega)
      have hrunning (ho : run.isOpen = true) : run.execution = .running := toExecutionStatus_of_isOpen ho _
      simp only [hr, Option.map_some, Option.some.injEq, hopen] at hp
      dsimp only
      split
      · next he =>
        have hc : run.isOpen = false := by
          by_contra ho
          rw [hrunning (by simpa using ho)] at he
          cases he
        exact ⟨by omega, by omega, hbelow hc⟩
      · next he => exact ⟨hfirst, hlt, hclosed⟩
      · next hcan hrun =>
        have hc : run.isOpen = false := by
          by_contra ho
          exact hrun (hrunning (by simpa using ho))
        refine noneOpen_of_last hfirst hhopped (hbelow hc) ?_
        by_contra hh
        rcases hp hc (by simpa using hh) with he | he
        · exact hcan he
        · exact hrun he

/-- Every step of an orderly run keeps where the call stands. -/
theorem Inv.step {e : TerminateEvent} (h : c.Inv workflowId first) (hp : c.Orderly workflowId e)
    (hs : c.step workflowId e = some c') : c'.Inv workflowId first := by
  obtain ⟨rows, call⟩ := c
  obtain ⟨hgrown, hhopped, hcall⟩ := h
  cases e with
  | hop =>
    simp only [TerminateConf.step, Option.ite_none_right_eq_some, Bool.and_eq_true, Bool.not_eq_true',
      Option.some.injEq] at hs
    obtain ⟨⟨hover, -⟩, rfl⟩ := hs
    exact Inv.grows ⟨hgrown, hhopped, hcall⟩ hover (.hop rows)
  | record k status error =>
    simp only [TerminateConf.step, Option.ite_none_right_eq_some, Bool.and_eq_true, Bool.not_eq_true',
      Option.some.injEq] at hs
    obtain ⟨⟨⟨hover, hopen⟩, -⟩, rfl⟩ := hs
    exact Inv.grows ⟨hgrown, hhopped, hcall⟩ hover
      (.modify (fun _ => rfl) fun hclosed => absurd (hclosed.symm.trans hopen) (by simp))
  | call =>
    simp only [TerminateConf.step] at hs
    cases call with
    | resolving r =>
      simp only [terminateStep, Option.some.injEq] at hs
      subst hs
      exact ⟨hgrown, hhopped, inv_resolveStep hgrown hcall hp⟩
    | reading target rounds =>
      simp only [terminateStep, Option.some.injEq] at hs
      subst hs
      exact ⟨hgrown, hhopped, inv_readStatus hhopped hcall.1 hcall.2.2 hp⟩
    | cancelling target rounds =>
      simp only [terminateStep, Option.some.injEq] at hs
      subst hs
      obtain ⟨hfirst, hlt, hclosed⟩ : first ≤ target ∧ target < rows.length ∧ rows.ClosedBelow target := hcall
      have hg : rows.Grows (cancelRun rows target) := .cancel rows target
      refine ⟨lt_of_lt_of_le hgrown hg.length_le, hg.hopped_from hhopped, hfirst, lt_of_lt_of_le hlt hg.length_le, ?_⟩
      intro k hk
      by_cases hkt : k = target
      · rw [hkt, openAt_cancelRun]
      · exact hg.closedBelow (by omega) hclosed k (by omega)
    | looking target rounds =>
      simp only [terminateStep, Option.some.injEq] at hs
      subst hs
      obtain ⟨hfirst, hlt, hclosed⟩ : first ≤ target ∧ target < rows.length ∧ rows.ClosedBelow (target + 1) := hcall
      refine ⟨hgrown, hhopped, ?_⟩
      dsimp only
      rw [lookForSuccessor]
      split
      · next hh => exact ⟨by omega, by omega, hclosed⟩
      · next hh => exact noneOpen_of_last hfirst hhopped hclosed (by simpa using hh)
    | returned | raised e => cases hs

theorem inv_start {rows : ChainRows} (hne : rows ≠ []) : (start rows).Inv workflowId (rows.length - 1) where
  grown := by
    have := List.length_pos_iff.2 hne
    show rows.length - 1 < rows.length
    omega
  hopped k h₁ h₂ := by
    have : k < rows.length := h₂
    omega
  call := ⟨0, fun _ => 0, rfl, fun j hj => absurd hj (by omega)⟩

/-- What the call reports when it is over holds of the chain at that moment:
the workflow has no open run. -/
def Truthful (c : TerminateConf) : Prop :=
  (c.call = .returned → c.rows.NoneOpen) ∧ ∀ target status, c.call = .raised (.alreadyClosed target status) → c.rows.NoneOpen

theorem Inv.truthful (h : c.Inv workflowId first) : c.Truthful := by
  obtain ⟨rows, call⟩ := c
  refine ⟨fun hr => ?_, fun target status hr => ?_⟩
  · have := h.call
    simp only at hr
    subst hr
    exact this
  · have := h.call
    simp only at hr
    subst hr
    exact this

/-- **An unbound terminate that ends, ends truthfully, in every orderly run.**
When it returns, no run of the chain is open; when it says that the workflow
is closed already, then none is open at that instant of the call. -/
theorem terminate_truthful (workflowId : String) (rows : ChainRows) (hne : rows ≠ []) (c : TerminateConf)
    (h : Reached (step workflowId) (Orderly workflowId) (start rows) c) : c.Truthful :=
  (h.invariant (inv_start hne) fun hi hp hs => hi.step hp hs).truthful

/-- A chain of one pending run. -/
def onePending : ChainRows := [{ status := .pending }]

theorem resolve_onePending : resolveStep "W" onePending .ladder = .reading 0 64 := by rfl

/-- A pending run, terminated while nothing else happens. -/
theorem pendingRun_terminated : ∃ c : TerminateConf, c.call = .returned ∧ c.Truthful := by
  have h₁ : Reached (step "W") (Orderly "W") (start onePending) ⟨onePending, .reading 0 64⟩ :=
    Reached.refl.next (e := .call) (fun t n ht k hk => by
      rw [show (start onePending).rows = onePending from rfl, resolve_onePending] at ht
      cases ht
      omega) (by rw [step, start, terminateStep, resolve_onePending])
  have h₂ : Reached (step "W") (Orderly "W") (start onePending) ⟨onePending, .cancelling 0 63⟩ :=
    h₁.next (e := .call) (fun hclosed => by cases hclosed) rfl
  have h₃ : Reached (step "W") (Orderly "W") (start onePending) ⟨[{ status := .cancelled }], .looking 0 63⟩ :=
    h₂.next (e := .call) trivial rfl
  have h₄ : Reached (step "W") (Orderly "W") (start onePending) ⟨[{ status := .cancelled }], .returned⟩ :=
    h₃.next (e := .call) trivial rfl
  exact ⟨_, rfl, terminate_truthful "W" onePending (by simp [onePending]) _ h₄⟩

/-- The run fails and is retried between the lookup that resolves it and the
read of its status: the call says that the workflow is closed, and at every
instant of the call one of its runs was open. -/
theorem retriedRun_missed : ∃ (c : TerminateConf) (target : Nat) (status : WorkflowExecutionStatus),
    Reached (step "W") (fun c _ => ¬ c.rows.NoneOpen) (start onePending) c ∧
      c.call = .raised (.alreadyClosed target status) ∧ ¬ c.rows.NoneOpen := by
  have hopen (rows : ChainRows) (k : Nat) (h : rows.openAt k = true) : ¬ rows.NoneOpen := fun hn => by
    rw [hn k] at h
    cases h
  let hopped : ChainRows := [{ status := .pending }, { hopped := true }]
  let retried : ChainRows := [{ status := .error, error := some .failure }, { hopped := true }]
  have h₁ : Reached (step "W") (fun c _ => ¬ c.rows.NoneOpen) (start onePending) ⟨onePending, .reading 0 64⟩ :=
    Reached.refl.next (e := .call) (hopen _ 0 rfl) (by rw [step, start, terminateStep, resolve_onePending])
  have h₂ : Reached (step "W") (fun c _ => ¬ c.rows.NoneOpen) (start onePending) ⟨hopped, .reading 0 64⟩ :=
    h₁.next (e := .hop) (hopen _ 0 rfl) rfl
  have h₃ : Reached (step "W") (fun c _ => ¬ c.rows.NoneOpen) (start onePending) ⟨retried, .reading 0 64⟩ :=
    h₂.next (e := .record 0 .error (some .failure)) (hopen _ 0 rfl) rfl
  have h₄ : Reached (step "W") (fun c _ => ¬ c.rows.NoneOpen) (start onePending)
      ⟨retried, .raised (.alreadyClosed 0 .failed)⟩ := h₃.next (e := .call) (hopen _ 1 rfl) rfl
  exact ⟨_, 0, .failed, h₄, rfl, hopen _ 1 rfl⟩

end TerminateConf

end Dbosify
