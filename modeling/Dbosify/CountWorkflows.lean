/-
Counting (`count_workflows`), beside listing.

A listing keeps the rows of users' workflows. A count has the database group
the rows by name. It keeps the groups of users' workflows too, but a replay's
scratch fork goes by the name of its run: the two agree when there is no fork
among the rows (`count_agrees_iff`).
-/
import Dbosify.Listing

namespace Dbosify

variable {F : Type}

/-! ## The whole listing -/

/-- The rows a listing of `q` yields. -/
def listedRows (w : QueryWorld F) (rows : List (WorkflowRow F)) (q : VisibilityQuery F) : List (WorkflowRow F) :=
  rows.filter fun row => q.selects w row && row.isWorkflow && !isReplayScratch row.workflowId

/-- **A listing yields exactly the visible rows its query selects**, whatever
the size of its pages. -/
theorem listWorkflows_ok {w : QueryWorld F} {rows : List (WorkflowRow F)} {query : Option String} {q : VisibilityQuery F}
    {pageSize : Nat} (hq : parseOptionalQuery w query = .ok q) (hsize : 0 < pageSize) {n : Nat}
    (hn : 2 * rows.length + 1 < n) :
    listWorkflows w rows query pageSize n = .ok ((listedRows w rows q).map executionFromStatus) := by
  let it : WorkflowExecutionAsyncIterator F := { query, pageSize }
  have hi : it.Iterates w rows q.toDbosFilters q.postFilter :=
    ⟨by simp [it, WorkflowExecutionAsyncIterator.ensureParsed, hq, Except.map], hsize, fun h => by cases h⟩
  have hrem : it.remaining w rows q.toDbosFilters q.postFilter = (listedRows w rows q).map executionFromStatus := by
    have hfilter : (rows.filter (q.toDbosFilters.admits w)).filter
        (WorkflowExecutionAsyncIterator.survives q.postFilter) = listedRows w rows q := by
      rw [List.filter_filter]
      refine List.filter_congr fun row _ => ?_
      rw [WorkflowExecutionAsyncIterator.survives, VisibilityQuery.selects]
      ac_rfl
    rw [← hfilter]
    rfl
  have hdrain := WorkflowExecutionAsyncIterator.drain_init hi rfl rfl hn
  rw [hrem] at hdrain
  exact hdrain

/-! ## Counting -/

/-- `aggregate_eligible`. -/
def VisibilityQuery.aggregateEligible (q : VisibilityQuery F) : Bool :=
  q.searchAttributes.entries.isEmpty && q.workflowIds.isNone && q.workflowIdChain.isNone && q.typeNotIn.isEmpty

/-- `aggregate_filter_kwargs`. -/
def VisibilityQuery.aggregateFilterKwargs (q : VisibilityQuery F) : DbosFilters F :=
  { q.toDbosFilters with workflowIds := none, attributes := none }

/-- A row of `get_workflow_aggregates`, grouped by name. -/
structure AggregateRow where
  name : Option String
  count : Option Nat
deriving DecidableEq, Repr

structure AggregationGroup where
  count : Nat
  groupValues : List String
deriving DecidableEq, Repr

/-- `WorkflowExecutionCount`. -/
structure WorkflowExecutionCount where
  count : Nat
  groups : List AggregationGroup
deriving DecidableEq, Repr

/-- The count of a group goes to its workflow type. -/
def tally (tallies : Py.Dict String Nat) (r : AggregateRow) : Py.Dict String Nat :=
  let name := r.name.getD ""
  if ¬ workflowPrefix.toList.isPrefixOf name.toList then tallies
  else
    let key := String.ofList (name.toList.drop 3)
    tallies.set key ((tallies.get? key).getD 0 + r.count.getD 0)

/-- `count_workflows`, given the aggregate operator of the system database, if
there is one. -/
def countWorkflows (w : QueryWorld F) (aggregates : Option (DbosFilters F → List AggregateRow)) (query : Option String) :
    Except Exc WorkflowExecutionCount := do
  let parsed ← parseOptionalQuery w query
  match aggregates with
  | none => .error (.runtimeError "count_workflows requires DBOS system-database access")
  | some aggregates =>
    if ¬ parsed.aggregateEligible ∨ parsed.postFilter.isSome then
      reject ("count_workflows cannot filter by exact WorkflowId, a search attribute, WorkflowType !=, or an " ++
        "ERROR-family ExecutionStatus; narrow the query or enumerate with list_workflows.")
    else if parsed.groupBy = some .executionStatus then
      reject "count_workflows cannot GROUP BY ExecutionStatus; GROUP BY WorkflowType is supported."
    else
      let tallies := (aggregates parsed.aggregateFilterKwargs).foldl tally .empty
      let groups := (tallies.entries.mergeSort fun a b => a.1 ≤ b.1).map fun e => ⟨e.2, [e.1]⟩
      .ok ⟨tallies.values.sum, if parsed.groupBy.isNone then [] else groups⟩

/-! ## What a count tells -/

/-- The aggregate operator applies the filters a listing applies, and counts
the rows of each name. -/
structure GroupsByName (w : QueryWorld F) (rows : List (WorkflowRow F)) (filters : DbosFilters F)
    (groups : List AggregateRow) : Prop where
  nodup : (groups.map (·.name)).Nodup
  count : ∀ g ∈ groups, g.count = some (rows.countP fun row => filters.admits w row && decide (row.name = g.name))
  complete : ∀ row ∈ rows, filters.admits w row = true → row.name ∈ groups.map (·.name)

variable {w : QueryWorld F} {rows : List (WorkflowRow F)} {q : VisibilityQuery F} {groups : List AggregateRow}

/-- The filters an eligible query leaves out are absent. -/
theorem aggregateFilterKwargs_eq (h : q.aggregateEligible = true) : q.aggregateFilterKwargs = q.toDbosFilters := by
  simp only [VisibilityQuery.aggregateEligible, Bool.and_eq_true, Option.isNone_iff_eq_none] at h
  simp [VisibilityQuery.aggregateFilterKwargs, VisibilityQuery.toDbosFilters, h.1.1.1, h.1.1.2]

/-- A name that is a workflow's. -/
def isWorkflowName (name : Option String) : Bool := workflowPrefix.toList.isPrefixOf (name.getD "").toList

/-- The type it names. -/
def typeOfName (name : Option String) : String := .ofList ((name.getD "").toList.drop 3)

theorem typeName_eq {row : WorkflowRow F} (h : row.isWorkflow = true) : row.typeName = typeOfName row.name := if_pos h

theorem toList_of_isWorkflowName {name : Option String} (h : isWorkflowName name = true) :
    ∃ n, name = some n ∧ n.toList = workflowPrefix.toList ++ n.toList.drop 3 := by
  rw [isWorkflowName, List.isPrefixOf_iff_prefix] at h
  cases name with
  | none => exact absurd h (by decide)
  | some n => exact ⟨n, rfl, List.prefix_iff_eq_append.1 h |>.symm⟩

theorem typeOfName_inj {a b : Option String} (ha : isWorkflowName a = true) (hb : isWorkflowName b = true)
    (h : typeOfName a = typeOfName b) : a = b := by
  obtain ⟨x, rfl, hx⟩ := toList_of_isWorkflowName ha
  obtain ⟨y, rfl, hy⟩ := toList_of_isWorkflowName hb
  have hdrop : x.toList.drop 3 = y.toList.drop 3 := by
    have h' := congrArg String.toList h
    simpa [typeOfName] using h'
  rw [hdrop, ← hy] at hx
  rw [String.toList_inj.1 hx]

/-- The groups that are counted, with their types. -/
def counted (groups : List AggregateRow) : List (String × Nat) :=
  (groups.filter (isWorkflowName ·.name)).map fun g => (typeOfName g.name, g.count.getD 0)

theorem entries_foldl_tally {d : Py.Dict String Nat} (h : (d.entries.map (·.1) ++ (counted groups).map (·.1)).Nodup) :
    (groups.foldl tally d).entries = d.entries ++ counted groups := by
  induction groups generalizing d with
  | nil => exact (List.append_nil _).symm
  | cons g groups ih =>
    rw [List.foldl_cons]
    by_cases hg : isWorkflowName g.name = true
    · have hcounted : counted (g :: groups) = (typeOfName g.name, g.count.getD 0) :: counted groups := by
        simp [counted, hg]
      rw [hcounted] at h ⊢
      have hnone : d.get? (typeOfName g.name) = none := by
        rw [← Option.not_isSome_iff_eq_none, ← Py.Dict.mem_keys_iff]
        intro hk
        rw [List.nodup_append] at h
        exact h.2.2 _ hk _ List.mem_cons_self rfl
      have htally : tally d g = d.set (typeOfName g.name) (g.count.getD 0) := by
        have hset : tally d g = d.set (typeOfName g.name) ((d.get? (typeOfName g.name)).getD 0 + g.count.getD 0) :=
          if_neg (not_not_intro hg)
        rw [hset, hnone, Option.getD_none, Nat.zero_add]
      rw [htally, ih, Py.Dict.entries_set_of_none hnone, List.append_assoc, List.singleton_append]
      rw [Py.Dict.entries_set_of_none hnone, List.map_append, List.append_assoc]
      exact h
    · have hcounted : counted (g :: groups) = counted groups := by
        simp [counted, hg]
      have htally : tally d g = d := if_pos hg
      rw [hcounted] at h ⊢
      rw [htally, ih h]

/-- The groups of distinct names have an entry each. -/
theorem entries_tally (hn : (groups.map (·.name)).Nodup) : (groups.foldl tally .empty).entries = counted groups := by
  refine entries_foldl_tally ?_
  rw [Py.Dict.empty, List.map_nil, List.nil_append, counted, List.map_map]
  refine List.Nodup.map_on ?_ (List.Nodup.filter _ (List.Nodup.of_map _ hn))
  intro a ha b hb hab
  rw [List.mem_filter] at ha hb
  exact List.inj_on_of_nodup_map hn ha.1 hb.1 (typeOfName_inj ha.2 hb.2 hab)

theorem countP_add_of_disjoint {α : Type} {p q : α → Bool} (h : ∀ a, p a = true → q a = false) (l : List α) :
    l.countP p + l.countP q = l.countP fun a => p a || q a := by
  induction l with
  | nil => rfl
  | cons a l ih =>
    have ha := h a
    simp only [List.countP_cons, ← ih]
    cases hp : p a <;> cases hq : q a <;> simp_all <;> omega

/-- Over distinct values, the counts of each add up to the count of all. -/
theorem sum_countP {α β : Type} [DecidableEq β] (f : α → β) (p : α → Bool) (l : List α) {bs : List β} (hb : bs.Nodup) :
    (bs.map fun b => l.countP fun a => p a && decide (f a = b)).sum = l.countP fun a => p a && decide (f a ∈ bs) := by
  induction bs with
  | nil => simp
  | cons b bs ih =>
    rw [List.nodup_cons] at hb
    rw [List.map_cons, List.sum_cons, ih hb.2, countP_add_of_disjoint]
    · refine List.countP_congr fun a _ => ?_
      simp only [List.mem_cons, Bool.or_eq_true, Bool.and_eq_true, decide_eq_true_eq]
      rw [← and_or_left]
    · intro a ha
      simp only [Bool.and_eq_true, decide_eq_true_eq] at ha
      rw [ha.2, decide_eq_false hb.1, Bool.and_false]

/-- The rows that are counted. -/
def Counted (w : QueryWorld F) (q : VisibilityQuery F) (row : WorkflowRow F) : Bool :=
  q.toDbosFilters.admits w row && row.isWorkflow

/-- The count of a group is that of its rows. -/
theorem mem_counted (hg : GroupsByName w rows q.toDbosFilters groups) {e : String × Nat} (he : e ∈ counted groups) :
    e.2 = rows.countP fun row => Counted w q row && decide (row.typeName = e.1) := by
  obtain ⟨g, hmem, rfl⟩ := List.mem_map.1 he
  obtain ⟨hmem, hname⟩ := List.mem_filter.1 hmem
  dsimp only
  rw [hg.count g hmem, Option.getD_some]
  refine List.countP_congr fun row _ => ?_
  simp only [Counted, Bool.and_eq_true, decide_eq_true_eq, and_assoc]
  refine and_congr_right fun _ => ⟨fun h => ?_, fun ⟨hrow, htype⟩ => ?_⟩
  · have hrow : row.isWorkflow = true := by
      rw [← h] at hname
      exact hname
    exact ⟨hrow, by rw [typeName_eq hrow, h]⟩
  · rw [typeName_eq hrow] at htype
    exact typeOfName_inj hrow hname htype

theorem sum_counted (hg : GroupsByName w rows q.toDbosFilters groups) :
    ((counted groups).map (·.2)).sum = rows.countP (Counted w q) := by
  have hcounts : (counted groups).map (·.2) = ((groups.filter (isWorkflowName ·.name)).map (·.name)).map fun name =>
      rows.countP fun row => q.toDbosFilters.admits w row && decide (row.name = name) := by
    rw [counted, List.map_map, List.map_map]
    refine List.map_congr_left fun g hmem => ?_
    exact congrArg (·.getD 0) (hg.count g (List.mem_filter.1 hmem).1)
  have hnodup : ((groups.filter (isWorkflowName ·.name)).map (·.name)).Nodup :=
    hg.nodup.sublist (List.Sublist.map _ List.filter_sublist)
  rw [hcounts, sum_countP _ _ _ hnodup]
  refine List.countP_congr fun row hrow => ?_
  simp only [Counted, Bool.and_eq_true, decide_eq_true_eq]
  refine and_congr_right fun hadmits => ⟨fun h => ?_, fun h => ?_⟩
  · obtain ⟨g, hmem, hname⟩ := List.mem_map.1 h
    have hw := (List.mem_filter.1 hmem).2
    rw [hname] at hw
    exact hw
  · obtain ⟨g, hmem, hname⟩ := List.mem_map.1 (hg.complete row hrow hadmits)
    refine List.mem_map.2 ⟨g, List.mem_filter.2 ⟨hmem, ?_⟩, hname⟩
    rw [hname]
    exact h

/-- What an accepted count answers. -/
theorem countWorkflows_eq {aggregates : DbosFilters F → List AggregateRow} {query : Option String}
    {c : WorkflowExecutionCount} (hagg : ∀ filters, GroupsByName w rows filters (aggregates filters))
    (hq : parseOptionalQuery w query = .ok q) (hc : countWorkflows w (some aggregates) query = .ok c) :
    q.postFilter = none ∧ c.count = ((counted (aggregates q.toDbosFilters)).map (·.2)).sum ∧
      (q.groupBy = some .workflowType → ∀ g, g ∈ c.groups ↔
        ∃ e ∈ counted (aggregates q.toDbosFilters), g = ⟨e.2, [e.1]⟩) := by
  simp only [countWorkflows, hq, ok_bind] at hc
  split at hc
  · cases hc
  · next helig =>
    rw [not_or, not_not, Bool.not_eq_true, Option.isSome_eq_false_iff, Option.isNone_iff_eq_none] at helig
    split at hc
    · cases hc
    · cases hc
      rw [aggregateFilterKwargs_eq helig.1, Py.Dict.values, entries_tally (hagg _).nodup]
      refine ⟨helig.2, rfl, fun hgroup g => ?_⟩
      simp only [hgroup, Option.isNone_some, Bool.false_eq_true, if_false, List.mem_map, List.mem_mergeSort]
      exact exists_congr fun e => and_congr_right fun _ => eq_comm

/-- A count agrees with a listing: in all, and of each type if it is grouped. -/
structure Agrees (c : WorkflowExecutionCount) (groupBy : Option SystemField) (l : List WorkflowExecution) : Prop where
  count : c.count = l.length
  groups : groupBy = some .workflowType →
    (∀ g ∈ c.groups, ∃ t, g.groupValues = [t] ∧ g.count = l.countP (·.workflowType = t)) ∧
      ∀ e ∈ l, ∃ g ∈ c.groups, g.groupValues = [e.workflowType]

/-- Without a post-filter, the rows listed are those counted that are no forks. -/
theorem listedRows_eq (hp : q.postFilter = none) :
    listedRows w rows q = rows.filter fun row => Counted w q row && !isReplayScratch row.workflowId := by
  refine List.filter_congr fun row _ => ?_
  simp [VisibilityQuery.selects, hp, Counted]

theorem countP_and_not {α : Type} (p s : α → Bool) (l : List α) :
    l.countP p = l.countP (fun a => p a && !s a) ↔ ∀ a ∈ l, p a = true → s a = false := by
  have hadd := countP_add_of_disjoint (p := fun a => p a && !s a) (q := fun a => p a && s a)
    (fun a ha => by simp_all) l
  have hor : (fun a => p a && !s a || p a && s a) = p := by
    funext a
    cases p a <;> cases s a <;> rfl
  rw [hor] at hadd
  have hzero : l.countP (fun a => p a && s a) = 0 ↔ ∀ a ∈ l, p a = true → s a = false := by
    simp [List.countP_eq_zero]
  rw [← hzero]
  omega

/-- **A count agrees with the listing of its query** exactly if no replay's
scratch fork is among the workflow rows that the query's filters admit. -/
theorem count_agrees_iff {aggregates : DbosFilters F → List AggregateRow} {query : Option String} {pageSize : Nat}
    {c : WorkflowExecutionCount} (hagg : ∀ filters, GroupsByName w rows filters (aggregates filters))
    (hq : parseOptionalQuery w query = .ok q) (hsize : 0 < pageSize)
    (hc : countWorkflows w (some aggregates) query = .ok c) :
    ∃ l, (∀ n, 2 * rows.length + 1 < n → listWorkflows w rows query pageSize n = .ok l) ∧
      (Agrees c q.groupBy l ↔ ∀ row ∈ rows, Counted w q row = true → isReplayScratch row.workflowId = false) := by
  refine ⟨_, fun n hn => listWorkflows_ok hq hsize hn, ?_⟩
  obtain ⟨hpost, hcount, hgroups⟩ := countWorkflows_eq hagg hq hc
  have hg := hagg q.toDbosFilters
  have hlength : c.count = ((listedRows w rows q).map executionFromStatus).length ↔
      ∀ row ∈ rows, Counted w q row = true → isReplayScratch row.workflowId = false := by
    rw [hcount, sum_counted hg, List.length_map, listedRows_eq hpost, ← List.countP_eq_length_filter]
    exact countP_and_not _ _ rows
  refine ⟨fun h => hlength.1 h.count, fun hforks => ⟨hlength.2 hforks, fun hgroup => ?_⟩⟩
  refine ⟨fun g hmem => ?_, fun e hmem => ?_⟩
  · obtain ⟨e, he, rfl⟩ := (hgroups hgroup g).1 hmem
    refine ⟨e.1, rfl, ?_⟩
    rw [listedRows_eq hpost, List.countP_map, List.countP_filter, mem_counted hg he]
    refine List.countP_congr fun row hrow => ?_
    have hfork := hforks row hrow
    simp only [Function.comp, executionFromStatus, Bool.and_eq_true, decide_eq_true_eq, Bool.not_eq_true']
    exact ⟨fun h => ⟨decide_eq_true h.2, h.1, hfork h.1⟩, fun h => ⟨h.2.1, of_decide_eq_true h.1⟩⟩
  · obtain ⟨row, hrow, rfl⟩ := List.mem_map.1 hmem
    rw [listedRows_eq hpost, List.mem_filter, Bool.and_eq_true, Counted, Bool.and_eq_true] at hrow
    obtain ⟨hrow, ⟨hadmits, hw⟩, -⟩ := hrow
    obtain ⟨g, hmem, hname⟩ := List.mem_map.1 (hg.complete row hrow hadmits)
    have hcounted : (typeOfName g.name, g.count.getD 0) ∈ counted (aggregates q.toDbosFilters) := by
      refine List.mem_map.2 ⟨g, List.mem_filter.2 ⟨hmem, ?_⟩, rfl⟩
      rw [hname]
      exact hw
    refine ⟨_, (hgroups hgroup _).2 ⟨_, hcounted, rfl⟩, ?_⟩
    rw [executionFromStatus, typeName_eq hw, hname]

/-- `SELECT name, COUNT(*) … GROUP BY name`. -/
def groupByName (w : QueryWorld F) (rows : List (WorkflowRow F)) (filters : DbosFilters F) : List AggregateRow :=
  ((rows.filter (filters.admits w)).map (·.name)).dedup.map fun name =>
    ⟨name, some (rows.countP fun row => filters.admits w row && decide (row.name = name))⟩

theorem groupsByName_groupByName (w : QueryWorld F) (rows : List (WorkflowRow F)) (filters : DbosFilters F) :
    GroupsByName w rows filters (groupByName w rows filters) := by
  have hnames : (groupByName w rows filters).map (·.name) = ((rows.filter (filters.admits w)).map (·.name)).dedup := by
    rw [groupByName, List.map_map]
    exact List.map_id _
  refine ⟨by rw [hnames]; exact List.nodup_dedup _, fun g hg => ?_, fun row hrow hadmits => ?_⟩
  · obtain ⟨name, -, rfl⟩ := List.mem_map.1 hg
    rfl
  · rw [hnames, List.mem_dedup]
    exact List.mem_map_of_mem (List.mem_filter.2 ⟨hrow, hadmits⟩)

/-- A run and a query's fork of it. -/
def forkedRows : List (WorkflowRow String) :=
  [{ sampleRow with workflowId := replayScratchId "b" .rehydrate "f00d" }, sampleRow]

theorem count_agrees_sample :
    ∃ l, (∀ n, 3 < n → listWorkflows sampleWorld [sampleRow] (some "GROUP BY WorkflowType") 1 n = .ok l) ∧
      (Agrees ⟨1, [⟨1, ["Order"]⟩]⟩ (some .workflowType) l ↔
        ∀ row ∈ [sampleRow], Counted sampleWorld { groupBy := some .workflowType } row = true →
          isReplayScratch row.workflowId = false) := by
  have hq : parseOptionalQuery sampleWorld (some "GROUP BY WorkflowType") = .ok { groupBy := some .workflowType } := by
    decide +kernel
  have hc : countWorkflows sampleWorld (some (groupByName sampleWorld [sampleRow])) (some "GROUP BY WorkflowType") =
      .ok ⟨1, [⟨1, ["Order"]⟩]⟩ := by decide +kernel
  exact count_agrees_iff (groupsByName_groupByName sampleWorld [sampleRow]) hq (by decide) hc

/-- The fork is counted and not listed. -/
theorem fork_counted :
    ∃ c l, countWorkflows sampleWorld (some (groupByName sampleWorld forkedRows)) none = .ok c ∧
      (∀ n, 5 < n → listWorkflows sampleWorld forkedRows none 1000 n = .ok l) ∧ c.count = 2 ∧ l.length = 1 := by
  refine ⟨⟨2, []⟩, _, by decide +kernel, fun n hn => listWorkflows_ok (q := {}) rfl (by decide) hn, rfl, ?_⟩
  decide +kernel

end Dbosify
