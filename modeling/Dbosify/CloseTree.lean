/-
The four ways to terminate a workflow, and what each does to its tree: the
client's handle, a closing parent, a start that replaces the running workflow,
and a schedule whose fires terminate the action before.

Each was written by itself. The first two follow the recorded policies, the
third looks at no child, and the last takes every DBOS child and no chain. On
which trees they leave the same is `terminations_alike_iff`.
-/
import Mathlib.Logic.Relation
import Dbosify.ChildTree
import Dbosify.ScheduleFire
import Dbosify.StartWorkflow

namespace Dbosify

/-! ## The tree -/

/-- The workflows there are while one of them is terminated: the newest run of
each chain, the rows of the runs, the children each run has recorded, and
those DBOS has it down as the parent of. -/
structure Forest where
  newest : String → Option Nat
  row : String → Option DbosStatus
  children : String → List (String × ParentClosePolicy)
  dbosChildren : String → List String
  absent : ∀ id, newest id = none → row id = none
  /-- The recorded children form a tree: each is deeper than the run that
  recorded it. -/
  depth : String → Nat
  deeper : ∀ run, ∀ c ∈ children run, depth run < depth (runDbosId c.1 ((newest c.1).getD 0))

namespace Forest

variable (f : Forest)

/-- The newest run of a chain. -/
def current (id : String) : String := runDbosId id ((f.newest id).getD 0)

def isOpen (run : String) : Bool := (f.row run).any DbosStatus.isOpen

/-- `_current_run`. -/
def currentRow (id : String) : Option (Nat × DbosStatus) := do
  let k ← f.newest id
  return (k, ← f.row (runDbosId id k))

end Forest

/-- An operation of a termination. -/
inductive TreeOp
  | cancel (run : String)
  /-- `cancel_children=True`. -/
  | cancelWithChildren (run : String)
  | requestCancel (run : String)
deriving DecidableEq, Repr

namespace Forest

variable (f : Forest)

/-- DBOS has `b` down as a descendant of `a`. -/
def Descends : String → String → Prop := Relation.TransGen fun a b => b ∈ f.dbosChildren a

/-- The run was open, and these operations cancel it. -/
def LeftCancelled (ops : List TreeOp) (run : String) : Prop :=
  f.isOpen run = true ∧
    (.cancel run ∈ ops ∨ ∃ p, .cancelWithChildren p ∈ ops ∧ (run = p ∨ f.Descends p run))

/-- The same runs are left cancelled, and the same cancel requests sent. -/
def Alike (a b : List TreeOp) : Prop :=
  (∀ run, f.LeftCancelled a run ↔ f.LeftCancelled b run) ∧ ∀ run, .requestCancel run ∈ a ↔ .requestCancel run ∈ b

/-- Each cancel request goes to the run of its chain that is open. -/
def Addressed (ops : List TreeOp) : Prop := ∀ run, .requestCancel run ∈ ops → ∃ id, run = f.current id ∧ f.isOpen run = true

/-! ## By the handle -/

/-- One child in the fold of `_apply_parent_close_policies`. -/
def applyPolicy (go : String → List String × List TreeOp → List String × List TreeOp) (r : List String × List TreeOp)
    (child : String × ParentClosePolicy) : List String × List TreeOp :=
  if child.2 = .abandon then r
  else
    match f.newest child.1 with
    | none => r
    | some _ =>
      let current := f.current child.1
      if !f.isOpen current then r
      else if child.2 = .requestCancel then (r.1, r.2 ++ [.requestCancel current])
      else go current (r.1, r.2 ++ [.cancel current])

/-- `_apply_parent_close_policies`, with the runs visited; as deep as the
recorded children go. -/
def applyParentClosePolicies : Nat → String → List String × List TreeOp → List String × List TreeOp
  | 0, _, r => r
  | n + 1, parent, (visited, ops) =>
    if visited.contains parent then (visited, ops)
    else (f.children parent).foldl (f.applyPolicy (fun p r => applyParentClosePolicies n p r)) (visited ++ [parent], ops)

/-- `_terminate_impl` on a tree that does not move: the open run is cancelled,
and has no successor. -/
def byHandle (n : Nat) (root : String) : List TreeOp :=
  .cancel (f.current root) :: (f.applyParentClosePolicies n (f.current root) ([], [])).2

end Forest

/-! ## By the other ways -/

/-- What an operation of a closing parent is to the tree. -/
def Op.tree : Op → Option TreeOp
  | .cancelWorkflow run => some (.cancel run)
  | .send run (.cancel _ _) => some (.requestCancel run)
  | _ => none

def ClientOp.tree : ClientOp → Option TreeOp
  | .cancelWorkflow run => some (.cancel run)
  | .send run (.cancel _ _, _) => some (.requestCancel run)
  | _ => none

def OverlapOp.tree : OverlapOp → TreeOp
  | .cancelWithChildren prior => .cancelWithChildren prior
  | .requestCancel prior => .requestCancel prior

/-- An open workflow, in the places the other ways find it: as a child of a
parent that closes, as the running workflow of an id that is started anew,
and as the latest action of a schedule. -/
structure Terminated (f : Forest) (root : String) where
  opened : f.isOpen (f.current root) = true
  env : Env
  parent : Interp
  current : env.currentRun = f.current
  running : env.running = f.isOpen
  recorded : env.recordedChildren = f.children
  startEnv : StartEnv
  input : StartWorkflowInput
  id : input.id = root
  accepted : input.Accepted startEnv
  conflict : input.idConflictPolicy = .terminateExisting
  found : startEnv.current = f.currentRow root
  schedule : ScheduleContext
  overlap : schedule.overlap = .terminateOther
  occurrences : List Nat
  ts : Nat
  occurrence : root = occurrenceId schedule.actionId ts
  acted : (f.row root).isSome = true
  listed : ts ∈ occurrences
  latest : ∀ ts' ∈ occurrences, ts < ts' → f.row (occurrenceId schedule.actionId ts') = none

namespace Terminated

variable {f : Forest} {root : String} (t : Terminated f root)

/-- `_terminate_child_tree`. -/
def byParent (n : Nat) : List TreeOp :=
  ((Interp.terminateChildTree t.env n root ([], t.parent)).2.trace.drop t.parent.trace.length).filterMap fun
    | .step o => o.tree
    | _ => none

/-- `start_workflow` with `TERMINATE_EXISTING`. -/
def byStart : List TreeOp := (t.input.startWorkflow t.startEnv).ops.filterMap ClientOp.tree

/-- A fire with `TERMINATE_OTHER`. -/
def bySchedule : List TreeOp :=
  (applyOverlapPolicy t.schedule (runningPriorOccurrence t.schedule.actionId t.occurrences f.row)).2.map OverlapOp.tree

/-- All four ways do the same, with as many generations as `n + 1`. -/
structure AllAlike (n : Nat) : Prop where
  parent : f.Alike (f.byHandle (n + 1) root) (t.byParent (n + 1))
  start : f.Alike (f.byHandle (n + 1) root) t.byStart
  schedule : f.Alike (f.byHandle (n + 1) root) t.bySchedule
  addressed : f.Addressed (f.byHandle (n + 1) root) ∧ f.Addressed (t.byParent (n + 1)) ∧ f.Addressed t.byStart ∧
    f.Addressed t.bySchedule

end Terminated

/-- A workflow on its first run, with nothing below it that any of the ways
would touch: no child recorded for a cancel request, none for termination that
is open, and no open DBOS descendant. -/
structure Forest.Bare (f : Forest) (root : String) : Prop where
  firstRun : f.current root = root
  noRequest : ∀ c ∈ f.children root, c.2 ≠ .requestCancel
  noneOpen : ∀ c ∈ f.children root, c.2.terminates = true → f.isOpen (f.current c.1) = false
  noDescendant : ∀ run, f.Descends root run → run ≠ root → f.isOpen run = false

/-! ## What each way does -/

namespace Forest

variable {f : Forest}

theorem current_eq {id : String} {k : Nat} (h : f.newest id = some k) : f.current id = runDbosId id k := by
  rw [current, h, Option.getD_some]

/-- An open run is the newest of a chain that exists. -/
theorem newest_of_isOpen {id : String} (h : f.isOpen (f.current id) = true) : ∃ k, f.newest id = some k := by
  cases hn : f.newest id with
  | some k => exact ⟨k, rfl⟩
  | none =>
    have hrow := f.absent id hn
    have hcur : f.current id = id := by rw [current, hn]; rfl
    rw [isOpen, hcur, hrow] at h
    cases h

/-- A child that is passed over, by its policy or because it is closed. -/
theorem applyPolicy_inert {go : String → List String × List TreeOp → List String × List TreeOp}
    {r : List String × List TreeOp} {c : String × ParentClosePolicy} (hr : c.2 ≠ .requestCancel)
    (ho : c.2.terminates = true → f.isOpen (f.current c.1) = false) : f.applyPolicy go r c = r := by
  rw [applyPolicy]
  split
  · rfl
  · next ha =>
    have ht : c.2.terminates = true := by cases hp : c.2 <;> simp_all [ParentClosePolicy.terminates]
    cases f.newest c.1 with
    | none => rfl
    | some k => simp [ho ht]

theorem applyPolicy_grows {go : String → List String × List TreeOp → List String × List TreeOp}
    (hgo : ∀ p r, r.2 <+: (go p r).2) (r : List String × List TreeOp) (c : String × ParentClosePolicy) :
    r.2 <+: (f.applyPolicy go r c).2 := by
  rw [applyPolicy]
  split
  · exact List.prefix_rfl
  · cases f.newest c.1 with
    | none => exact List.prefix_rfl
    | some k =>
      simp only
      split
      · exact List.prefix_rfl
      · split
        · exact List.prefix_append _ _
        · exact (List.prefix_append _ _).trans (hgo (f.current c.1) (r.1, r.2 ++ [.cancel (f.current c.1)]))

theorem foldl_applyPolicy_grows {go : String → List String × List TreeOp → List String × List TreeOp}
    (hgo : ∀ p r, r.2 <+: (go p r).2) (cs : List (String × ParentClosePolicy)) (r : List String × List TreeOp) :
    r.2 <+: (cs.foldl (f.applyPolicy go) r).2 := by
  induction cs generalizing r with
  | nil => exact List.prefix_rfl
  | cons c cs ih => exact (applyPolicy_grows hgo r c).trans (ih _)

theorem applyParentClosePolicies_grows (n : Nat) (p : String) (r : List String × List TreeOp) :
    r.2 <+: (f.applyParentClosePolicies n p r).2 := by
  induction n generalizing p r with
  | zero => exact List.prefix_rfl
  | succ n ih =>
    obtain ⟨v, ops⟩ := r
    rw [applyParentClosePolicies]
    split
    · exact List.prefix_rfl
    · exact foldl_applyPolicy_grows (fun p r => ih p r) _ (v ++ [p], ops)

/-- A recorded child that is open and to be terminated is cancelled. -/
theorem cancel_mem_foldl {go : String → List String × List TreeOp → List String × List TreeOp}
    (hgo : ∀ p r, r.2 <+: (go p r).2) {cs : List (String × ParentClosePolicy)} {c : String × ParentClosePolicy}
    (hc : c ∈ cs) (ht : c.2.terminates = true) (ho : f.isOpen (f.current c.1) = true) (r : List String × List TreeOp) :
    .cancel (f.current c.1) ∈ (cs.foldl (f.applyPolicy go) r).2 := by
  induction cs generalizing r with
  | nil => cases hc
  | cons d cs ih =>
    rcases List.mem_cons.1 hc with rfl | hc
    · refine (foldl_applyPolicy_grows hgo cs _).subset ?_
      obtain ⟨k, hk⟩ := newest_of_isOpen ho
      have hne : c.2 ≠ .abandon ∧ c.2 ≠ .requestCancel := by cases hp : c.2 <;> simp_all [ParentClosePolicy.terminates]
      simp only [applyPolicy, hne.1, hne.2, hk, ho, if_false, Bool.not_true, Bool.false_eq_true]
      exact (hgo _ _).subset (by simp)
    · exact ih hc _

theorem cancel_mem_byHandle {n : Nat} {root : String} {c : String × ParentClosePolicy}
    (hc : c ∈ f.children (f.current root)) (ht : c.2.terminates = true) (ho : f.isOpen (f.current c.1) = true) :
    .cancel (f.current c.1) ∈ f.byHandle (n + 1) root := by
  refine List.mem_cons_of_mem _ ?_
  rw [applyParentClosePolicies, if_neg (by simp)]
  exact cancel_mem_foldl (fun p r => applyParentClosePolicies_grows n p r) hc ht ho _

/-- With nothing to do below it, the handle cancels the one run. -/
theorem byHandle_eq {n : Nat} {root : String} (hr : ∀ c ∈ f.children (f.current root), c.2 ≠ .requestCancel)
    (ho : ∀ c ∈ f.children (f.current root), c.2.terminates = true → f.isOpen (f.current c.1) = false) :
    f.byHandle (n + 1) root = [.cancel (f.current root)] := by
  have key : ∀ (go : String → List String × List TreeOp → List String × List TreeOp)
      (cs : List (String × ParentClosePolicy)), (∀ c ∈ cs, c ∈ f.children (f.current root)) →
      ∀ r, cs.foldl (f.applyPolicy go) r = r := by
    intro go cs hcs r
    induction cs with
    | nil => rfl
    | cons c cs ih =>
      have hc := hcs c (.head _)
      rw [List.foldl_cons, applyPolicy_inert (hr c hc) (ho c hc)]
      exact ih fun c hc => hcs c (.tail _ hc)
  rw [byHandle, applyParentClosePolicies, if_neg (by simp), key _ _ fun _ h => h]

end Forest

namespace Terminated

variable {f : Forest} {root : String} (t : Terminated f root)

theorem envOpen (id : String) : t.env.open id = f.isOpen (f.current id) := by
  rw [Env.open, t.current, t.running]

theorem childrenOf (id : String) : t.env.childrenOf id = f.children (f.current id) := by
  rw [Env.childrenOf, t.current, t.recorded]

/-- What a closing parent does, by the operations of its walk. -/
theorem byParent_eq (n : Nat) : ∃ l : List Op, t.byParent (n + 1) = l.filterMap Op.tree ∧
    (∀ o ∈ l, o.touches = true → Owed t.env root o) ∧ .cancelWorkflow (f.current root) ∈ l ∧
    ∀ child, (child, ParentClosePolicy.requestCancel) ∈ f.children (f.current root) → t.env.cancelOp child ∈ l := by
  have hopen : t.env.open root = true := by rw [t.envOpen, t.opened]
  obtain ⟨l, hp, howed, hcancel, hreq⟩ := Interp.terminateChildTree_first n hopen t.parent
  refine ⟨l, ?_, howed, by rwa [t.current] at hcancel, fun child hc => hreq child (by rwa [t.childrenOf])⟩
  rw [Performs] at hp
  rw [byParent, hp, List.drop_left, List.filterMap_map]
  rfl

theorem startRun_tree {w : StartEnv} {i : StartWorkflowInput} (ops : List ClientOp) (n : Nat) (m : StartMeta)
    (d : Option Timedelta) (l : List StartMessage) :
    (i.startRun w ops n m d l).ops.filterMap ClientOp.tree = ops.filterMap ClientOp.tree := by
  rw [StartWorkflowInput.startRun]
  cases encodeValues w.converter i.args with
  | error e => rfl
  | ok args => cases w.enqueueRaises <;> simp [List.filterMap_append, ClientOp.tree]

/-- A start cancels the open run, and looks at no child. -/
theorem byStart_eq : t.byStart = [.cancel (f.current root)] := by
  obtain ⟨⟨m, d, l⟩, hp⟩ := StartWorkflowInput.prepare_isOk.2 t.accepted
  obtain ⟨k, hk⟩ := Forest.newest_of_isOpen t.opened
  obtain ⟨st, hst, hopen⟩ : ∃ st, f.row (runDbosId root k) = some st ∧ st.isOpen = true := by
    have := t.opened
    rwa [Forest.current_eq hk, Forest.isOpen, Option.any_eq_true] at this
  have hcur : t.startEnv.current = some (k, st) := by rw [t.found, Forest.currentRow, hk]; simp [hst]
  rw [byStart, StartWorkflowInput.startWorkflow, hp]
  simp only [hcur, hopen, if_true, reduceCtorEq, if_false, t.conflict, true_or, t.id, Forest.current_eq hk]
  rw [StartWorkflowInput.reuse]
  split
  · rfl
  · split
    · rfl
    · rw [startRun_tree]
      rfl

/-- A fire takes run `0` of the latest action, if that is the one that is
open. -/
theorem bySchedule_eq : t.bySchedule = if f.isOpen root = true then [.cancelWithChildren root] else [] := by
  obtain ⟨st, hst⟩ := Option.isSome_iff_exists.1 t.acted
  have hprior : runningPriorOccurrence t.schedule.actionId t.occurrences f.row =
      if f.isOpen root = true then some root else none := by
    have hmem : (t.ts, st) ∈ t.occurrences.filterMap fun ts => (f.row (occurrenceId t.schedule.actionId ts)).map (ts, ·) :=
      List.mem_filterMap.2 ⟨t.ts, t.listed, by rw [← t.occurrence, hst]; rfl⟩
    rw [runningPriorOccurrence]
    split
    · next ts st' hn =>
      obtain ⟨hin, hmax⟩ := Found.newest_mem hn
      obtain ⟨ts', hts', hrow⟩ := List.mem_filterMap.1 hin
      simp only [Option.map_eq_some_iff, Prod.mk.injEq] at hrow
      obtain ⟨st'', hrow, rfl, rfl⟩ := hrow
      have hle : t.ts ≤ ts' := hmax _ hmem
      have heq : ts' = t.ts := by
        by_contra hne
        rw [t.latest ts' hts' (by omega)] at hrow
        cases hrow
      rw [heq, ← t.occurrence] at hrow ⊢
      simp only [Forest.isOpen, hrow, Option.any_some]
    · next hn =>
      rw [Found.newest_eq_none hn] at hmem
      cases hmem
  rw [bySchedule, hprior]
  by_cases ho : f.isOpen root = true
  · simp [applyOverlapPolicy, ho, t.overlap, t.schedule.cron_nonempty, OverlapOp.tree]
  · simp [applyOverlapPolicy, ho, t.overlap, t.schedule.cron_nonempty]

/-! ## When they do the same -/

theorem leftCancelled_cancel {f : Forest} {run run' : String} :
    f.LeftCancelled [.cancel run] run' ↔ f.isOpen run' = true ∧ run' = run := by
  simp [Forest.LeftCancelled]

/-- The four ways agree with the one that cancels the open run and no more, if
they agree at all. -/
theorem bare_of_allAlike {n : Nat} (h : t.AllAlike n) : f.Bare root := by
  obtain ⟨hparent, hstart, hschedule, -⟩ := h
  rw [t.byStart_eq] at hstart
  have hhandle (run : String) : f.LeftCancelled (f.byHandle (n + 1) root) run ↔ f.isOpen run = true ∧ run = f.current root := by
    rw [hstart.1 run, leftCancelled_cancel]
  -- The schedule: it takes run 0, and every descendant.
  have hsched (run : String) : f.LeftCancelled t.bySchedule run ↔ f.isOpen run = true ∧ run = f.current root := by
    rw [← hschedule.1 run, hhandle]
  rw [t.bySchedule_eq] at hsched
  have hopen : f.isOpen root = true := by
    by_contra hclosed
    have := (hsched (f.current root)).2 ⟨t.opened, rfl⟩
    simp [hclosed, Forest.LeftCancelled] at this
  simp only [hopen, if_true] at hsched
  have hfirst : f.current root = root := ((hsched root).1 ⟨hopen, .inr ⟨root, by simp, .inl rfl⟩⟩).2.symm
  refine ⟨hfirst, fun c hc hp => ?_, fun c hc ht => ?_, fun run hd hne => ?_⟩
  · obtain ⟨child, policy⟩ := c
    simp only at hp
    subst hp
    obtain ⟨l, hl, -, -, hreq⟩ := t.byParent_eq n
    have hsent : .requestCancel child ∈ t.byParent (n + 1) := by
      rw [hl]
      exact List.mem_filterMap.2 ⟨_, hreq child (by rwa [hfirst]), rfl⟩
    have := (hstart.2 child).1 ((hparent.2 child).2 hsent)
    simp at this
  · by_contra hclosed
    have ho : f.isOpen (f.current c.1) = true := by simpa using hclosed
    rw [← hfirst] at hc
    have hcancel : .cancel (f.current c.1) ∈ f.byHandle (n + 1) root := Forest.cancel_mem_byHandle hc ht ho
    have heq := ((hhandle (f.current c.1)).1 ⟨ho, .inl hcancel⟩).2
    have hdeeper := f.deeper (f.current root) c hc
    rw [← Forest.current, heq] at hdeeper
    omega
  · by_contra hclosed
    have ho : f.isOpen run = true := by simpa using hclosed
    have := ((hsched run).1 ⟨ho, .inr ⟨root, by simp, .inr hd⟩⟩).2
    rw [hfirst] at this
    exact hne this

/-- Nothing below a bare workflow is owed anything. -/
theorem owed_of_bare (h : f.Bare root) {o : Op} (ho : Owed t.env root o) : o = .cancelWorkflow root := by
  cases ho with
  | cancel ho => rw [t.current, h.firstRun]
  | request ho hc =>
    rw [t.childrenOf, h.firstRun] at hc
    exact absurd rfl (h.noRequest _ hc)
  | inside ho hc hp hbelow =>
    rw [t.childrenOf, h.firstRun] at hc
    have hclosed := h.noneOpen _ hc hp
    rw [← t.envOpen] at hclosed
    cases hbelow with
    | cancel ho | request ho | inside ho => rw [hclosed] at ho; cases ho

theorem mem_byParent_of_bare (h : f.Bare root) (n : Nat) (o : TreeOp) : o ∈ t.byParent (n + 1) ↔ o = .cancel root := by
  obtain ⟨l, hl, howed, hcancel, -⟩ := t.byParent_eq n
  rw [hl, List.mem_filterMap]
  constructor
  · rintro ⟨op, hop, htree⟩
    have htouches : op.touches = true := by
      cases op <;> first | rfl | cases htree
    obtain rfl := t.owed_of_bare h (howed op hop htouches)
    simpa [Op.tree] using htree.symm
  · rintro rfl
    rw [h.firstRun] at hcancel
    exact ⟨_, hcancel, rfl⟩

theorem allAlike_of_bare (h : f.Bare root) (n : Nat) : t.AllAlike n := by
  have hhandle : f.byHandle (n + 1) root = [.cancel root] := by
    have hb : f.byHandle (n + 1) root = [.cancel (f.current root)] :=
      Forest.byHandle_eq (by rw [h.firstRun]; exact h.noRequest) (by rw [h.firstRun]; exact h.noneOpen)
    rwa [h.firstRun] at hb
  have hstart : t.byStart = [.cancel root] := by rw [t.byStart_eq, h.firstRun]
  have hopen : f.isOpen root = true := by
    have ho := t.opened
    rwa [h.firstRun] at ho
  have hschedule : t.bySchedule = [.cancelWithChildren root] := by rw [t.bySchedule_eq, if_pos hopen]
  have hparent := t.mem_byParent_of_bare h n
  refine ⟨⟨fun run => ?_, fun run => ?_⟩, ⟨fun run => ?_, fun run => ?_⟩, ⟨fun run => ?_, fun run => ?_⟩, ?_⟩
  · simp only [Forest.LeftCancelled, hhandle, hparent, List.mem_singleton]
  · simp only [hhandle, hparent, List.mem_singleton]
  · rw [hhandle, hstart]
  · rw [hhandle, hstart]
  · -- The descendants that DBOS would cancel are closed.
    rw [hhandle, hschedule, leftCancelled_cancel]
    refine and_congr_right fun ho => ⟨fun hr => .inr ⟨root, by simp, .inl hr⟩, ?_⟩
    rintro (hc | ⟨p, hp, hr⟩)
    · simp at hc
    · simp only [List.mem_singleton, TreeOp.cancelWithChildren.injEq] at hp
      subst hp
      rcases hr with hr | hd
      · exact hr
      · by_contra hne
        rw [h.noDescendant run hd hne] at ho
        cases ho
  · simp [hhandle, hschedule]
  · refine ⟨?_, ?_, ?_, ?_⟩
    · simp [Forest.Addressed, hhandle]
    · simp [Forest.Addressed, hparent]
    · simp [Forest.Addressed, hstart]
    · simp [Forest.Addressed, hschedule]

/-- **The four ways to terminate a workflow leave the same exactly when there
is nothing below it that any of them would touch**, and it is on its first
run. -/
theorem terminations_alike_iff {f : Forest} {root : String} (t : Terminated f root) (n : Nat) :
    t.AllAlike n ↔ f.Bare root :=
  ⟨t.bare_of_allAlike, fun h => t.allAlike_of_bare h n⟩

end Terminated

/-- An action of a schedule, and one child it has recorded for termination;
both run. -/
def parentAndChild : Forest where
  newest id := if id = "greet-60" ∨ id = "child" then some 0 else none
  row id := if id = "greet-60" ∨ id = "child" then some .pending else none
  children run := if run = "greet-60" then [("child", .terminate)] else []
  dbosChildren run := if run = "greet-60" then ["child"] else []
  absent id h := by split at h <;> simp_all
  depth run := if run = "child" then 1 else 0
  deeper run c hc := by
    split at hc
    · next hr =>
      obtain rfl := List.mem_singleton.1 hc
      subst hr
      decide
    · cases hc

/-- The action, wherever it is terminated from. -/
def parentAndChild.terminated : Terminated parentAndChild "greet-60" where
  opened := by decide
  env := { Env.calm with
    currentRun := parentAndChild.current
    running := parentAndChild.isOpen
    recordedChildren := parentAndChild.children }
  parent := .start 0
  current := rfl
  running := rfl
  recorded := rfl
  startEnv := { converter := .lenient, nextFireDelay := fun _ => .ok 0, current := some (0, .pending) }
  input := { workflow := "Greet", id := "greet-60", taskQueue := "q", idConflictPolicy := .terminateExisting }
  id := rfl
  accepted := by
    refine ⟨rfl, by decide, rfl, rfl, (fun h => by cases h), ?_, ?_, ⟨[], rfl⟩, (fun h => by cases h)⟩
    · intro kv h; cases h
    · intro p h; cases h
  conflict := rfl
  found := by decide
  schedule := { ScheduleWorld.everyMinute with overlap := .terminateOther }
  overlap := rfl
  occurrences := [60]
  ts := 60
  occurrence := by decide
  acted := by decide
  listed := continuedAction.listed
  latest ts' h hlt := by
    obtain rfl := List.mem_singleton.1 h
    omega

/-- The handle and a closing parent take the child down with it; a start that
replaces the action leaves the child to run. -/
theorem terminateChild_differs : ¬ parentAndChild.terminated.AllAlike 1 := fun h => by
  have hchild := (parentAndChild.terminated.bare_of_allAlike h).noneOpen ("child", .terminate) (.head _) rfl
  exact absurd hchild (by decide)

end Dbosify
