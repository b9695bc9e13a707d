/-
The dispatchers of a schedule (`dispatcher._schedule_fire`): one durable
workflow for each fire, which sleeps for its jitter, looks up the prior
occurrence, applies the overlap policy, and starts the action.

Each of these is a step of its own, and the fires of a schedule run side by
side. The prior occurrence is found by fire time, among the runs `0` of the
actions there are. What later runs the action's chain has is not looked at
(`priorChain_seen_iff`).
-/
import Mathlib.Data.List.Sort
import Dbosify.ChainResolution
import Dbosify.Status
import Dbosify.Transitions

namespace Dbosify

open Transitions

/-! ## The schedule -/

/-- `ScheduleOverlapPolicy`. -/
inductive OverlapPolicy | skip | bufferOne | bufferAll | cancelOther | terminateOther | allowAll
deriving DecidableEq, Repr

/-- A `datetime` from 1970 on, in microseconds. -/
abbrev Instant := Nat

/-- `int(t.timestamp())`. -/
def epoch (t : Instant) : Nat := t / 1000000

/-- A schedule's context, as the fires read it. -/
structure ScheduleContext where
  /-- The action's own id, to which each occurrence adds its fire time. -/
  actionId : String
  cron : String
  /-- A schedule is compiled to a cron expression before it is created. -/
  cron_nonempty : cron.isEmpty = false
  overlap : OverlapPolicy := .skip
  startAt : Option Instant := none
  endAt : Option Instant := none

/-- `_OVERLAP_LOOKBACK_LIMIT`. -/
def overlapLookbackLimit : Nat := 60

/-- `f"{action['id']}-{ts}"`. -/
def occurrenceId (base : String) (ts : Nat) : String := base ++ "-" ++ toString ts

/-- Whether a fire is within the schedule's bounds. -/
def ScheduleContext.inBounds (x : ScheduleContext) (firedAt : Instant) : Bool :=
  !(x.startAt.any (firedAt < ·)) && !(x.endAt.any (· < firedAt))

/-- `_schedule_occurrences`: of the newest fires created, the times before
`before`, latest first. -/
def scheduleOccurrences (fires : List Instant) (before limit : Nat) : List Nat :=
  (((fires.reverse.take limit).map epoch).filter (· < before)).insertionSort (· ≥ ·)

/-- `_running_prior_occurrence`, of the occurrences listed: the latest that
left an action row, if that row is open. -/
def runningPriorOccurrence (base : String) (occurrences : List Nat) (status : String → Option DbosStatus) : Option String :=
  let found : Found DbosStatus := occurrences.filterMap fun ts => (status (occurrenceId base ts)).map (ts, ·)
  match found.newest with
  | some (ts, st) => if st.isOpen then some (occurrenceId base ts) else none
  | none => none

/-- What a fire does to the prior occurrence. -/
inductive OverlapOp
  /-- `cancel_workflow_async(prior, cancel_children=True)`. -/
  | cancelWithChildren (prior : String)
  | requestCancel (prior : String)
deriving DecidableEq, Repr

/-- `_apply_overlap_policy`, with the prior occurrence that runs: whether the
action is started, and what is done to the prior one first. -/
def applyOverlapPolicy (x : ScheduleContext) (prior : Option String) : Bool × List OverlapOp :=
  if x.overlap = .allowAll ∨ x.cron.isEmpty then (true, [])
  else
    match prior with
    | none => (true, [])
    | some prior =>
      match x.overlap with
      | .skip => (false, [])
      | .terminateOther => (true, [.cancelWithChildren prior])
      | .cancelOther => (true, [.requestCancel prior])
      | _ => (true, [])

/-! ## The fires, side by side -/

/-- Where a dispatcher stands. -/
inductive FireStage
  | created
  | sleeping
  /-- `_schedule_occurrences` has answered. -/
  | listed (occurrences : List Nat)
  /-- The statuses are in. -/
  | decided (prior : Option String)
  | starting
  | done
deriving DecidableEq, Repr

structure Fire where
  firedAt : Instant
  stage : FireStage := .created
deriving DecidableEq, Repr

/-- An action a fire has started: the fire time in its id, the status of its
run `0`, and whether its chain lives on in a later run. -/
structure ScheduledAction where
  ts : Nat
  status : DbosStatus := .enqueued
  livesOn : Bool := false
deriving DecidableEq, Repr

/-- Some run of the action is open. -/
def ScheduledAction.isOpen (a : ScheduledAction) : Bool := a.status.isOpen || a.livesOn

/-- The schedule's fires and its actions, each in the order they came to be. -/
structure ScheduleWorld where
  fires : List Fire := []
  actions : List ScheduledAction := []
deriving DecidableEq, Repr

inductive ScheduleEvent
  /-- A fire: by cron, by `trigger`, or by `backfill`. -/
  | fire (firedAt : Instant)
  /-- A dispatcher takes its next step. -/
  | dispatch (fire : Nat)
  /-- An open action moves: run `0` changes its status, or its chain goes on
  in another run. -/
  | act (action : Nat) (status : DbosStatus) (livesOn : Bool)
deriving DecidableEq, Repr

namespace ScheduleWorld

variable (x : ScheduleContext) (w : ScheduleWorld)

/-- `_safe_status_list`, of one id. -/
def status (id : String) : Option DbosStatus :=
  (w.actions.find? fun a => occurrenceId x.actionId a.ts = id).map (·.status)

def setStage (k : Nat) (stage : FireStage) : ScheduleWorld :=
  { w with fires := w.fires.modify k fun f => { f with stage } }

/-- A native cancel of the prior occurrence, and nothing the policy can see
of a cooperative one. -/
def applyOp : OverlapOp → ScheduleWorld
  | .cancelWithChildren prior =>
    { w with actions := w.actions.map fun a =>
        if occurrenceId x.actionId a.ts = prior then { a with status := .cancelled } else a }
  | .requestCancel _ => w

/-- `_start_scheduled_action`: the enqueue attaches to an action that is
there. -/
def startAction (ts : Nat) : ScheduleWorld :=
  if w.actions.any (·.ts = ts) then w else { w with actions := w.actions ++ [{ ts }] }

/-- The next step of a dispatcher. -/
def dispatch (k : Nat) (f : Fire) : Option ScheduleWorld :=
  match f.stage with
  | .created => some (w.setStage k (if x.inBounds f.firedAt then .sleeping else .done))
  | .sleeping =>
    if x.overlap = .allowAll ∨ x.cron.isEmpty then some (w.setStage k .starting)
    else some (w.setStage k (.listed (scheduleOccurrences (w.fires.map (·.firedAt)) (epoch f.firedAt) overlapLookbackLimit)))
  | .listed occurrences =>
    some (w.setStage k (.decided (runningPriorOccurrence x.actionId occurrences (w.status x))))
  | .decided prior =>
    let (starts, ops) := applyOverlapPolicy x prior
    some ((ops.foldl (applyOp x) w).setStage k (if starts then .starting else .done))
  | .starting => some ((w.startAction (epoch f.firedAt)).setStage k .done)
  | .done => none

/-- One step of the schedule. A closed action does nothing, and a run that is
closed stays closed. -/
def step (x : ScheduleContext) (w : ScheduleWorld) : ScheduleEvent → Option ScheduleWorld
  | .fire firedAt => some { w with fires := w.fires ++ [{ firedAt }] }
  | .dispatch k => (w.fires[k]?).bind (w.dispatch x k)
  | .act k status livesOn =>
    (w.actions[k]?).bind fun a =>
      if a.isOpen && (a.status.isOpen || !status.isOpen) then
        some { w with actions := w.actions.modify k fun a => { a with status, livesOn } }
      else none

end ScheduleWorld

/-! ## Orderly fires -/

/-- Between its look at the schedule and its start. -/
def FireStage.deciding : FireStage → Bool
  | .listed _ | .decided _ | .starting => true
  | _ => false

namespace ScheduleWorld

/-- The condition on a step. No more fires than the lookup considers. When a
dispatcher reads the statuses, no action lives on in a later run alone. When
one starts an action, its fire is later than those of all actions started so
far, and no other dispatcher is between its look and its start. -/
def Orderly (w : ScheduleWorld) : ScheduleEvent → Prop
  | .fire _ => w.fires.length < overlapLookbackLimit
  | .dispatch k => ∀ f, w.fires[k]? = some f →
    match f.stage with
    | .listed _ => ∀ a ∈ w.actions, a.livesOn = true → a.status.isOpen = true
    | .starting => (∃ a ∈ w.actions, a.ts = epoch f.firedAt) ∨
        (∀ a ∈ w.actions, a.ts < epoch f.firedAt) ∧ ∀ j g, w.fires[j]? = some g → j ≠ k → g.stage.deciding = false
    | _ => True
  | .act _ _ _ => True

/-- Every action from before a fire is closed. -/
def ClosedBefore (w : ScheduleWorld) (f : Fire) : Prop := ∀ a ∈ w.actions, a.ts < epoch f.firedAt → a.isOpen = false

/-- What a dispatcher knows of the actions from before its fire. -/
def Knows (w : ScheduleWorld) (f : Fire) : Prop :=
  match f.stage with
  | .listed occurrences => (∀ a ∈ w.actions, a.ts < epoch f.firedAt → a.ts ∈ occurrences) ∧
      ∀ ts ∈ occurrences, ts < epoch f.firedAt
  | .decided none | .starting => w.ClosedBefore f
  | _ => True

/-- The actions were started in the order of their fires, only the latest may
be open, and what the dispatchers know is so. -/
structure Inv (w : ScheduleWorld) : Prop where
  few : w.fires.length ≤ overlapLookbackLimit
  fired : ∀ a ∈ w.actions, ∃ f ∈ w.fires, epoch f.firedAt = a.ts
  ordered : w.actions.Pairwise (·.ts < ·.ts)
  latest : ∀ a ∈ w.actions, a.isOpen = true → ∀ b ∈ w.actions, b.ts ≤ a.ts
  knows : ∀ f ∈ w.fires, w.Knows f

variable {x : ScheduleContext} {w w' : ScheduleWorld}

theorem Inv.empty : Inv {} where
  few := by simp [overlapLookbackLimit]
  fired a ha := by cases ha
  ordered := .nil
  latest a ha := by cases ha
  knows f hf := by cases hf

/-! ### Steps that start nothing -/

/-- The same actions, none reopened. -/
structure Quieter (w w' : ScheduleWorld) : Prop where
  ts : w'.actions.map (·.ts) = w.actions.map (·.ts)
  opened : ∀ b ∈ w'.actions, ∃ a ∈ w.actions, a.ts = b.ts ∧ (b.isOpen = true → a.isOpen = true)

theorem Quieter.of_actions (h : w'.actions = w.actions) : Quieter w w' where
  ts := by rw [h]
  opened b hb := ⟨b, by rwa [h] at hb, rfl, id⟩

theorem Quieter.closedBefore (h : Quieter w w') {f : Fire} (hc : w.ClosedBefore f) : w'.ClosedBefore f := by
  intro b hb hlt
  obtain ⟨a, ha, hts, hopen⟩ := h.opened b hb
  have := hc a ha (by omega)
  cases hbo : b.isOpen with
  | false => rfl
  | true => rw [hopen hbo] at this; cases this

theorem Quieter.knows (h : Quieter w w') {f : Fire} (hk : w.Knows f) : w'.Knows f := by
  rw [Knows] at hk ⊢
  cases hs : f.stage with
  | listed occurrences =>
    rw [hs] at hk
    refine ⟨fun b hb hlt => ?_, hk.2⟩
    obtain ⟨a, ha, hts, -⟩ := h.opened b hb
    rw [← hts]
    exact hk.1 a ha (by omega)
  | decided prior =>
    rw [hs] at hk
    cases prior with
    | none => exact h.closedBefore hk
    | some prior => trivial
  | starting =>
    rw [hs] at hk
    exact h.closedBefore hk
  | created | sleeping | done => trivial

/-- Such a step keeps the invariant, if the dispatchers it moves know what they
should. -/
theorem Inv.quieter (h : w.Inv) (hq : Quieter w w') (hfew : w'.fires.length ≤ overlapLookbackLimit)
    (hfired : ∀ f ∈ w.fires, ∃ g ∈ w'.fires, g.firedAt = f.firedAt)
    (hk : ∀ f ∈ w'.fires, f ∈ w.fires ∨ w'.Knows f) : w'.Inv where
  few := hfew
  fired b hb := by
    obtain ⟨a, ha, hts, -⟩ := hq.opened b hb
    obtain ⟨f, hf, he⟩ := h.fired a ha
    obtain ⟨g, hg, hgf⟩ := hfired f hf
    exact ⟨g, hg, by rw [hgf, he, hts]⟩
  ordered := by
    have := h.ordered
    rw [← List.pairwise_map (f := ScheduledAction.ts) (R := (· < ·))] at this ⊢
    rwa [hq.ts]
  latest b hb hbo b' hb' := by
    obtain ⟨a, ha, hts, hopen⟩ := hq.opened b hb
    obtain ⟨a', ha', hts', -⟩ := hq.opened b' hb'
    have := h.latest a ha (hopen hbo) a' ha'
    omega
  knows f hf := by
    rcases hk f hf with hf | hk
    · exact hq.knows (h.knows f hf)
    · exact hk

theorem setStage_actions (w : ScheduleWorld) (k : Nat) (stage : FireStage) : (w.setStage k stage).actions = w.actions := rfl

/-- A dispatcher moved on: the fires are the same, one in a new stage. -/
theorem mem_setStage {k : Nat} {stage : FireStage} {f g : Fire} (hf : w.fires[k]? = some f)
    (hg : g ∈ (w.setStage k stage).fires) : g ∈ w.fires ∨ g = { f with stage } := by
  obtain ⟨j, hj⟩ := List.mem_iff_getElem?.1 hg
  rw [setStage, List.getElem?_modify] at hj
  by_cases hkj : k = j
  · subst hkj
    simp only [hf, if_true, Option.map_eq_map, Option.map_some, Option.some.injEq] at hj
    exact .inr hj.symm
  · simp only [hkj, if_false, Option.map_eq_map, Option.map_id_fun', id] at hj
    exact .inl (List.mem_of_getElem? hj)

theorem setStage_keeps (k : Nat) (stage : FireStage) : ∀ f ∈ w.fires, ∃ g ∈ (w.setStage k stage).fires, g.firedAt = f.firedAt := by
  intro f hf
  obtain ⟨j, hj⟩ := List.mem_iff_getElem?.1 hf
  refine ⟨if k = j then { f with stage } else f, List.mem_iff_getElem?.2 ⟨j, ?_⟩, ?_⟩
  · rw [setStage, List.getElem?_modify, hj]
    by_cases hkj : k = j <;> simp [hkj]
  · split <;> rfl

/-- A dispatcher that moves on and does nothing else. -/
theorem Inv.setStage (h : w.Inv) {k : Nat} {stage : FireStage} {f : Fire} (hf : w.fires[k]? = some f)
    (hk : w.Knows { f with stage }) : (w.setStage k stage).Inv := by
  have hq : Quieter w (w.setStage k stage) := .of_actions rfl
  refine h.quieter hq (by simpa [ScheduleWorld.setStage] using h.few) (setStage_keeps k stage) fun g hg => ?_
  rcases mem_setStage hf hg with hg | rfl
  · exact .inl hg
  · exact .inr (hq.knows hk)

end ScheduleWorld

/-! ### The look at the prior occurrence -/

theorem occurrenceId_injective (base : String) : Function.Injective (occurrenceId base) := fun _ _ h =>
  Nat.repr_injective ((String.append_right_inj _).1 h)

theorem Found.newest_mem {σ : Type} {found : Found σ} {n : Nat} {st : σ} (h : found.newest = some (n, st)) :
    (n, st) ∈ found ∧ ∀ e ∈ found, e.1 ≤ n := by
  simp only [Found.newest, Option.bind_eq_bind, Option.bind_eq_some_iff, Option.pure_def, Option.some.injEq,
    Prod.mk.injEq] at h
  obtain ⟨m, hm, st', hst, rfl, rfl⟩ := h
  obtain ⟨l, r, hf, -⟩ := List.lookup_eq_some_iff.1 hst
  refine ⟨by rw [hf]; simp, fun e he => ?_⟩
  exact (List.max?_eq_some_iff.1 hm).2 e.1 (List.mem_map_of_mem he)

theorem Found.newest_eq_none {σ : Type} {found : Found σ} (h : found.newest = none) : found = [] := by
  cases found with
  | nil => rfl
  | cons e found =>
    obtain ⟨m, hm⟩ : ∃ m, (Found.indexes (e :: found)).max? = some m := Option.isSome_iff_exists.1 (by simp [Found.indexes])
    have hmem : m ∈ Found.indexes (e :: found) := List.max?_mem hm
    simp only [Found.newest, hm, Option.bind_eq_bind, Option.bind_some, Option.bind_eq_none_iff, Option.pure_def,
      reduceCtorEq, imp_false] at h
    have hnone : (e :: found).lookup m = none := by
      cases hl : List.lookup m (e :: found) with
      | none => rfl
      | some st => exact absurd hl (h st)
    rw [List.lookup_eq_none_iff] at hnone
    obtain ⟨e', he', rfl⟩ := List.mem_map.1 hmem
    exact absurd (hnone e' he') (by simp)

namespace ScheduleWorld

variable {x : ScheduleContext} {w w' : ScheduleWorld}

theorem Inv.eq_of_ts (h : w.Inv) {a b : ScheduledAction} (ha : a ∈ w.actions) (hb : b ∈ w.actions) (hts : a.ts = b.ts) :
    a = b := by
  have hnodup : (w.actions.map (·.ts)).Nodup := (List.pairwise_map.2 h.ordered).imp Nat.ne_of_lt
  exact List.inj_on_of_nodup_map hnodup ha hb hts

/-- The probe answers with the action of the fire time. -/
theorem Inv.status_eq (h : w.Inv) {ts : Nat} {st : DbosStatus} :
    w.status x (occurrenceId x.actionId ts) = some st ↔ ∃ a ∈ w.actions, a.ts = ts ∧ a.status = st := by
  simp only [status, Option.map_eq_some_iff]
  constructor
  · rintro ⟨a, ha, rfl⟩
    have hid := List.find?_some ha
    simp only [decide_eq_true_eq] at hid
    exact ⟨a, List.mem_of_find?_eq_some ha, occurrenceId_injective _ hid, rfl⟩
  · rintro ⟨a, ha, rfl, rfl⟩
    cases hf : w.actions.find? fun b => occurrenceId x.actionId b.ts = occurrenceId x.actionId a.ts with
    | none =>
      have := List.find?_eq_none.1 hf a ha
      simp at this
    | some b =>
      have hid := List.find?_some hf
      simp only [decide_eq_true_eq] at hid
      rw [h.eq_of_ts (List.mem_of_find?_eq_some hf) ha (occurrenceId_injective _ hid)]
      exact ⟨a, rfl, rfl⟩

/-- No prior occurrence runs: then none from before the fire does, as only the
latest of all may be open. -/
theorem Inv.closedBefore_of_none (h : w.Inv) {f : Fire} {occurrences : List Nat} (hs : f.stage = .listed occurrences)
    (hk : w.Knows f) (hl : ∀ a ∈ w.actions, a.livesOn = true → a.status.isOpen = true)
    (hp : runningPriorOccurrence x.actionId occurrences (w.status x) = none) : w.ClosedBefore f := by
  rw [Knows, hs] at hk
  obtain ⟨hlisted, hbefore⟩ := hk
  intro a ha hlt
  have hmem : (a.ts, a.status) ∈
      occurrences.filterMap fun ts => (w.status x (occurrenceId x.actionId ts)).map (ts, ·) :=
    List.mem_filterMap.2 ⟨a.ts, hlisted a ha hlt, by rw [h.status_eq.2 ⟨a, ha, rfl, rfl⟩]; rfl⟩
  by_contra hopen
  simp only [Bool.not_eq_false] at hopen
  rw [runningPriorOccurrence] at hp
  split at hp
  · next ts st hn =>
    obtain ⟨hin, hmax⟩ := Found.newest_mem hn
    obtain ⟨ts', hts', hst⟩ := List.mem_filterMap.1 hin
    simp only [Option.map_eq_some_iff, Prod.mk.injEq] at hst
    obtain ⟨st', hst', rfl, rfl⟩ := hst
    obtain ⟨b, hb, rfl, rfl⟩ := h.status_eq.1 hst'
    have h₁ := hmax _ hmem
    have h₂ := h.latest a ha hopen b hb
    have hab : b = a := h.eq_of_ts hb ha (by simp only at h₁; omega)
    subst hab
    rw [ScheduledAction.isOpen, Bool.or_eq_true] at hopen
    have : b.status.isOpen = true := hopen.elim id (hl b ha)
    simp [this] at hp
  · next hn =>
    rw [Found.newest_eq_none hn] at hmem
    cases hmem

/-! ### Each step -/

theorem Inv.fire (h : w.Inv) (firedAt : Instant) (hfew : w.fires.length < overlapLookbackLimit) :
    ({ w with fires := w.fires ++ [{ firedAt }] } : ScheduleWorld).Inv := by
  refine h.quieter (.of_actions rfl) (by simpa using hfew) (fun f hf => ⟨f, by simp [hf], rfl⟩) fun f hf => ?_
  rcases List.mem_append.1 hf with hf | hf
  · exact .inl hf
  · obtain rfl := List.mem_singleton.1 hf
    exact .inr trivial

theorem Inv.act (h : w.Inv) {k : Nat} {status : DbosStatus} {livesOn : Bool}
    (hs : w.step x (.act k status livesOn) = some w') : w'.Inv := by
  simp only [step, Option.bind_eq_some_iff, Option.ite_none_right_eq_some, Bool.and_eq_true, Option.some.injEq] at hs
  obtain ⟨a, ha, ⟨hopen, -⟩, rfl⟩ := hs
  have hget : ∀ (j : Nat) (b : ScheduledAction), (w.actions.modify k fun a => { a with status, livesOn })[j]? = some b →
      ∃ c ∈ w.actions, c.ts = b.ts ∧ (b.isOpen = true → c.isOpen = true) := by
    intro j b hb
    rw [List.getElem?_modify] at hb
    by_cases hkj : k = j
    · subst hkj
      simp only [ha, if_true, Option.map_eq_map, Option.map_some, Option.some.injEq] at hb
      subst hb
      exact ⟨a, List.mem_of_getElem? ha, rfl, fun _ => hopen⟩
    · simp only [hkj, if_false, Option.map_eq_map, Option.map_id_fun', id] at hb
      exact ⟨b, List.mem_of_getElem? hb, rfl, id⟩
  refine h.quieter ⟨?_, fun b hb => ?_⟩ h.few (fun f hf => ⟨f, hf, rfl⟩) fun f hf => .inl hf
  · apply List.ext_getElem?
    intro j
    simp only [List.getElem?_map, List.getElem?_modify]
    by_cases hkj : k = j
    · simp only [hkj, if_true, Option.map_eq_map, Option.map_map]
      rfl
    · simp [hkj]
  · obtain ⟨j, hj⟩ := List.mem_iff_getElem?.1 hb
    exact hget j b hj

/-- A dispatcher about to start an action that is not there yet: the others
came before its fire, and are closed. -/
theorem Inv.starts_closed (h : w.Inv) {k : Nat} {f : Fire} (hf : w.fires[k]? = some f) (hs : f.stage = .starting)
    (hp : w.Orderly (.dispatch k)) (hnew : ¬ w.actions.any (·.ts = epoch f.firedAt) = true) :
    (∀ a ∈ w.actions, a.ts < epoch f.firedAt ∧ a.isOpen = false) ∧
      ∀ j g, w.fires[j]? = some g → j ≠ k → g.stage.deciding = false := by
  have hknows := h.knows f (List.mem_of_getElem? hf)
  rw [Knows, hs] at hknows
  have horderly := hp f hf
  rw [hs] at horderly
  rcases horderly with ⟨a, ha, hts⟩ | ⟨hlater, halone⟩
  · exact absurd (List.any_eq_true.2 ⟨a, ha, by simpa using hts⟩) hnew
  · exact ⟨fun a ha => ⟨hlater a ha, hknows a ha (hlater a ha)⟩, halone⟩

/-- A start: the new action is the latest, and the only one that is open. -/
theorem Inv.start (h : w.Inv) {k : Nat} {f : Fire} (hf : w.fires[k]? = some f) (hs : f.stage = .starting)
    (hp : w.Orderly (.dispatch k)) : ((w.startAction (epoch f.firedAt)).setStage k .done).Inv := by
  rw [startAction]
  by_cases hattach : w.actions.any (·.ts = epoch f.firedAt) = true
  · rw [if_pos hattach]
    exact h.setStage hf trivial
  · rw [if_neg hattach]
    obtain ⟨hbefore, halone⟩ := h.starts_closed hf hs hp hattach
    refine ⟨by simpa [ScheduleWorld.setStage] using h.few, ?_, ?_, ?_, ?_⟩
    · intro a ha
      obtain ⟨g, hg, hge⟩ : ∃ g ∈ w.fires, epoch g.firedAt = a.ts := by
        rcases List.mem_append.1 ha with ha | ha
        · exact h.fired a ha
        · obtain rfl := List.mem_singleton.1 ha
          exact ⟨f, List.mem_of_getElem? hf, rfl⟩
      obtain ⟨g', hg', hfired⟩ := setStage_keeps k .done g hg
      exact ⟨g', hg', by rw [hfired, hge]⟩
    · refine List.pairwise_append.2 ⟨h.ordered, List.pairwise_singleton _ _, fun a ha b hb => ?_⟩
      obtain rfl := List.mem_singleton.1 hb
      exact (hbefore a ha).1
    · intro a ha hopen b hb
      rcases List.mem_append.1 ha with ha | ha
      · rw [(hbefore a ha).2] at hopen
        cases hopen
      · obtain rfl := List.mem_singleton.1 ha
        rcases List.mem_append.1 hb with hb | hb
        · exact Nat.le_of_lt (hbefore b hb).1
        · obtain rfl := List.mem_singleton.1 hb
          exact Nat.le_refl _
    · -- No other dispatcher knows anything yet that the new action would belie.
      intro g hg
      have hg : g ∈ (w.setStage k .done).fires := hg
      obtain ⟨j, hj⟩ := List.mem_iff_getElem?.1 hg
      rw [ScheduleWorld.setStage, List.getElem?_modify] at hj
      by_cases hkj : k = j
      · subst hkj
        simp only [hf, if_true, Option.map_eq_map, Option.map_some, Option.some.injEq] at hj
        subst hj
        trivial
      · simp only [hkj, if_false, Option.map_eq_map, Option.map_id_fun', id] at hj
        have hidle := halone j g hj (Ne.symm hkj)
        rw [Knows]
        cases hgs : g.stage <;> simp [hgs, FireStage.deciding] at hidle ⊢

/-- Every step of an orderly run keeps the invariant. -/
theorem Inv.step (hx : x.overlap = .skip) {e : ScheduleEvent} (h : w.Inv) (hp : w.Orderly e)
    (hs : w.step x e = some w') : w'.Inv := by
  cases e with
  | fire firedAt =>
    simp only [ScheduleWorld.step, Option.some.injEq] at hs
    subst hs
    exact h.fire firedAt hp
  | act k status livesOn => exact h.act hs
  | dispatch k =>
    simp only [ScheduleWorld.step, Option.bind_eq_some_iff] at hs
    obtain ⟨f, hf, hs⟩ := hs
    have hknows := h.knows f (List.mem_of_getElem? hf)
    rw [dispatch] at hs
    cases hstage : f.stage with
    | created =>
      simp only [hstage, Option.some.injEq] at hs
      subst hs
      refine h.setStage hf ?_
      cases x.inBounds f.firedAt <;> trivial
    | sleeping =>
      simp only [hstage, hx, reduceCtorEq, x.cron_nonempty, Bool.false_eq_true, or_self, if_false, Option.some.injEq] at hs
      subst hs
      refine h.setStage hf ⟨fun a ha hlt => ?_, fun ts hts => ?_⟩
      · obtain ⟨g, hg, hge⟩ := h.fired a ha
        rw [scheduleOccurrences, List.mem_insertionSort, List.mem_filter, List.take_of_length_le (by simpa using h.few)]
        refine ⟨?_, by simpa using hlt⟩
        rw [← hge]
        exact List.mem_map_of_mem (List.mem_reverse.2 (List.mem_map_of_mem hg))
      · rw [scheduleOccurrences, List.mem_insertionSort, List.mem_filter] at hts
        simpa using hts.2
    | listed occurrences =>
      simp only [hstage, Option.some.injEq] at hs
      subst hs
      refine h.setStage hf ?_
      cases hprior : runningPriorOccurrence x.actionId occurrences (w.status x) with
      | some prior => trivial
      | none =>
        have hl := hp f hf
        rw [hstage] at hl
        have hclosed : w.ClosedBefore f := h.closedBefore_of_none hstage hknows hl hprior
        exact hclosed
    | decided prior =>
      simp only [hstage, applyOverlapPolicy, hx, reduceCtorEq, x.cron_nonempty, Bool.false_eq_true, or_self,
        if_false] at hs
      cases prior with
      | none =>
        simp only [List.foldl_nil, if_true, Option.some.injEq] at hs
        subst hs
        rw [Knows, hstage] at hknows
        exact h.setStage hf hknows
      | some prior =>
        simp only [List.foldl_nil, Bool.false_eq_true, if_false, Option.some.injEq] at hs
        subst hs
        exact h.setStage hf trivial
    | starting =>
      simp only [hstage, Option.some.injEq] at hs
      subst hs
      exact h.start hf hstage hp
    | done => simp only [hstage, reduceCtorEq] at hs

/-- A schedule of every minute, with the overlap policy it has by default. -/
def everyMinute : ScheduleContext := { actionId := "greet", cron := "* * * * *", cron_nonempty := rfl }

end ScheduleWorld

/-! ## The chain of the prior occurrence -/

/-- The prior occurrence: the latest of those listed that left an action row.
Its action is a chain of runs, gapless from run `0` on, and `runs` has their
statuses. -/
structure PriorChain (base : String) (occurrences : List Nat) (rows : String → Option DbosStatus) where
  ts : Nat
  listed : ts ∈ occurrences
  latest : ∀ t ∈ occurrences, (rows (occurrenceId base t)).isSome = true → t ≤ ts
  runs : List DbosStatus
  nonempty : runs ≠ []
  rows_eq : ∀ k, rows (runDbosId (occurrenceId base ts) k) = runs[k]?

/-- Whether an op acts on run `k` of an action. A native cancel takes along the
runs after its own, each one started by the run before it. -/
def OverlapOp.ActsOn (id : String) (k : Nat) : OverlapOp → Prop
  | .requestCancel prior => prior = runDbosId id k
  | .cancelWithChildren prior => ∃ j ≤ k, prior = runDbosId id j

namespace PriorChain

variable {base : String} {occurrences : List Nat} {rows : String → Option DbosStatus}

/-- The status of run `0`. -/
def first (p : PriorChain base occurrences rows) : DbosStatus := p.runs.head p.nonempty

def newest (p : PriorChain base occurrences rows) : DbosStatus := p.runs.getLast p.nonempty

/-- The policy sees the whole chain: the occurrence is reported as running when
its newest run is open, and what acts on an open one acts on that run. -/
def Seen (x : ScheduleContext) (p : PriorChain x.actionId occurrences rows) : Prop :=
  let prior := runningPriorOccurrence x.actionId occurrences rows
  (prior.isSome = true ↔ p.newest.isOpen = true) ∧
    (p.newest.isOpen = true → x.overlap = .cancelOther ∨ x.overlap = .terminateOther →
      ∃ op, applyOverlapPolicy x prior = (true, [op]) ∧ op.ActsOn (occurrenceId x.actionId p.ts) (p.runs.length - 1))

/-- The probe answers with the occurrence's run `0`. -/
theorem rows_first (p : PriorChain base occurrences rows) : rows (occurrenceId base p.ts) = some p.first := by
  have h := p.rows_eq 0
  rw [List.getElem?_eq_getElem (List.length_pos_iff.2 p.nonempty), List.getElem_zero_eq_head] at h
  exact h

/-- What the look at the prior occurrence answers turns on its run `0`. -/
theorem running_eq (p : PriorChain base occurrences rows) : runningPriorOccurrence base occurrences rows =
    if p.first.isOpen then some (occurrenceId base p.ts) else none := by
  have hmem : (p.ts, p.first) ∈ occurrences.filterMap fun ts => (rows (occurrenceId base ts)).map (ts, ·) :=
    List.mem_filterMap.2 ⟨p.ts, p.listed, by rw [p.rows_first]; rfl⟩
  rw [runningPriorOccurrence]
  split
  · next ts st hn =>
    obtain ⟨hin, hmax⟩ := Found.newest_mem hn
    obtain ⟨t, ht, hst⟩ := List.mem_filterMap.1 hin
    simp only [Option.map_eq_some_iff, Prod.mk.injEq] at hst
    obtain ⟨st', hst', rfl, rfl⟩ := hst
    have hle : p.ts ≤ t := hmax _ hmem
    have hge : t ≤ p.ts := p.latest t ht (by rw [hst']; rfl)
    obtain rfl : t = p.ts := by omega
    rw [p.rows_first, Option.some.injEq] at hst'
    rw [hst']
  · next hn =>
    rw [Found.newest_eq_none hn] at hmem
    cases hmem

/-- Only a chain of one run has its run `0` for its newest. -/
theorem newest_first_iff (p : PriorChain base occurrences rows) :
    occurrenceId base p.ts = runDbosId (occurrenceId base p.ts) (p.runs.length - 1) ↔ p.runs.length = 1 := by
  have hpos : 0 < p.runs.length := List.length_pos_iff.2 p.nonempty
  constructor
  · intro h
    have hinj : 0 = p.runs.length - 1 := runDbosId_injective (occurrenceId base p.ts) h
    omega
  · intro h
    rw [h]
    rfl

end PriorChain

/-- **A policy sees the chain of the prior occurrence exactly when run `0`
stands for it**: the first run and the newest are both open or both closed, and
a cooperative cancel of an open one has a chain of one run to act on. -/
theorem priorChain_seen_iff (x : ScheduleContext) {occurrences : List Nat} {rows : String → Option DbosStatus}
    (p : PriorChain x.actionId occurrences rows) :
    p.Seen x ↔ p.first.isOpen = p.newest.isOpen ∧
      (x.overlap = .cancelOther → p.newest.isOpen = true → p.runs.length = 1) := by
  have hcron : x.cron.isEmpty = false := x.cron_nonempty
  simp only [PriorChain.Seen, p.running_eq]
  constructor
  · intro h
    obtain ⟨hiff, hacts⟩ := h
    have hsame : p.first.isOpen = p.newest.isOpen := by
      rw [Bool.eq_iff_iff, ← hiff]
      cases p.first.isOpen <;> simp
    refine ⟨hsame, fun hx hopen => ?_⟩
    obtain ⟨op, hop, hact⟩ := hacts hopen (.inl hx)
    rw [hsame, if_pos hopen] at hop
    simp only [applyOverlapPolicy, hx, hcron, reduceCtorEq, Bool.false_eq_true, or_self, if_false, Prod.mk.injEq,
      true_and, List.cons.injEq, and_true] at hop
    subst hop
    exact p.newest_first_iff.1 hact
  · intro h
    obtain ⟨hsame, hone⟩ := h
    rw [hsame]
    refine ⟨by cases p.newest.isOpen <;> simp, fun hopen hx => ?_⟩
    rw [if_pos hopen]
    rcases hx with hx | hx
    · refine ⟨.requestCancel (occurrenceId x.actionId p.ts), ?_, p.newest_first_iff.2 (hone hx hopen)⟩
      simp [applyOverlapPolicy, hx, hcron]
    · refine ⟨.cancelWithChildren (occurrenceId x.actionId p.ts), ?_, 0, Nat.zero_le _, rfl⟩
      simp [applyOverlapPolicy, hx, hcron]

/-- The rows of an action that the fire of 00:01 started and that has continued
as new: its first run is closed, its second is running. -/
def continuedRows (id : String) : Option DbosStatus :=
  if id = "greet-60" then some .error else if id = "greet-60--r1" then some .pending else none

def continuedAction : PriorChain ScheduleWorld.everyMinute.actionId [60] continuedRows where
  ts := 60
  listed := .head _
  latest t ht _ := Nat.le_of_eq (by simpa using ht)
  runs := [.error, .pending]
  nonempty := by simp
  rows_eq k := by
    have h₁ : ∀ n, runDbosId (occurrenceId "greet" 60) n = "greet-60" ↔ n = 0 := fun n =>
      (runDbosId_injective (occurrenceId "greet" 60)).eq_iff (b := 0)
    have h₂ : ∀ n, runDbosId (occurrenceId "greet" 60) n = "greet-60--r1" ↔ n = 1 := fun n =>
      (runDbosId_injective (occurrenceId "greet" 60)).eq_iff (b := 1)
    simp only [ScheduleWorld.everyMinute, continuedRows, h₁, h₂]
    match k with
    | 0 | 1 | _ + 2 => simp

/-- The look at the prior occurrence does not see the run that is open, and the
next fire starts its action beside it. -/
theorem continuedAction_unseen : continuedAction.newest.isOpen = true ∧
    applyOverlapPolicy ScheduleWorld.everyMinute (runningPriorOccurrence "greet" [60] continuedRows) = (true, []) ∧
    ¬ continuedAction.Seen ScheduleWorld.everyMinute := by
  have hnone : runningPriorOccurrence "greet" [60] continuedRows = none := continuedAction.running_eq
  refine ⟨rfl, by rw [hnone]; rfl, fun h => ?_⟩
  have hsome := h.1.2 rfl
  rw [show runningPriorOccurrence ScheduleWorld.everyMinute.actionId [60] continuedRows = none from hnone] at hsome
  cases hsome

end Dbosify
