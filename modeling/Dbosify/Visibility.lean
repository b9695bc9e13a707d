/-
The rows a visibility query selects (`VisibilityQuery.to_dbos_filters` and
`post_filter`), and the law of conjunction.

A joined query asks of a row all that its two parts do, but for a second
`WorkflowId` clause, or a second one on a search attribute: that one stands in
the place of the first (`conjunction_iff`).
-/
import Dbosify.Ids
import Dbosify.QueryJoin

namespace Dbosify

variable {F : Type} {w : QueryWorld F}

/-! ## Rows -/

/-- What a listing reads of a workflow's row; times in microseconds since the
epoch. -/
structure WorkflowRow (F : Type) where
  workflowId : String
  name : Option String
  status : DbosStatus
  error : Option RecordedError
  createdAt : Int
  completedAt : Option Int
  /-- `@>`, of the row's attributes and one search attribute. -/
  hasAttribute : String → Scalar F → Bool

def workflowPrefix : String := "wf:"

/-- The type of a row, as `post_filter` reads it. -/
def WorkflowRow.typeName (row : WorkflowRow F) : String :=
  let name := row.name.getD ""
  if workflowPrefix.toList.isPrefixOf name.toList then .ofList (name.toList.drop 3) else name

/-! ## Filters -/

/-- `_TEMPORAL_TO_DBOS`. -/
def temporalToDbos : WorkflowExecutionStatus → List DbosStatus
  | .running => [.pending, .enqueued, .delayed, .maxRecoveryAttemptsExceeded]
  | .completed => [.success]
  | .terminated => [.cancelled]
  | .failed | .canceled | .timedOut | .continuedAsNew => [.error]

/-- The filters of DBOS; its times are sent by their ISO texts. -/
structure DbosFilters (F : Type) where
  name : Option (List String) := none
  workflowIds : Option (List String) := none
  workflowIdPrefix : Option (List String) := none
  status : Option (List DbosStatus) := none
  startTime : Option PyDatetime := none
  endTime : Option PyDatetime := none
  completedAfter : Option PyDatetime := none
  completedBefore : Option PyDatetime := none
  attributes : Option (List (String × Scalar F)) := none

/-- `to_dbos_filters`. -/
def VisibilityQuery.toDbosFilters (q : VisibilityQuery F) : DbosFilters F where
  name := q.typeIn.map (·.map (workflowPrefix ++ ·))
  workflowIds := q.workflowIds
  workflowIdPrefix := (q.workflowIdPrefix.or q.workflowIdChain).map ([·])
  status := q.statuses.map fun l => (l.flatMap temporalToDbos).eraseDups
  startTime := q.startTimeLo
  endTime := q.startTimeHi
  completedAfter := q.closeTimeLo
  completedBefore := q.closeTimeHi
  attributes := if q.searchAttributes.entries.isEmpty then none else some q.searchAttributes.entries

/-- Some element of a list filter; an absent filter matches all. -/
def anyOf {α : Type} (filter : Option (List α)) (p : α → Bool) : Bool := filter.all (·.any p)

/-- The instant of a datetime, once its text is read. -/
def QueryWorld.instant (w : QueryWorld F) (d : PyDatetime) : Int :=
  match d.utcoffset with
  | some x => d.wall - x
  | none => w.localInstant d.wall

/-- What DBOS returns for the filters. -/
def DbosFilters.admits (w : QueryWorld F) (f : DbosFilters F) (row : WorkflowRow F) : Bool :=
  anyOf f.name (fun n => row.name = some n) &&
  anyOf f.workflowIds (row.workflowId = ·) &&
  anyOf f.workflowIdPrefix (·.toList.isPrefixOf row.workflowId.toList) &&
  anyOf f.status (row.status = ·) &&
  f.startTime.all (fun d => w.instant d ≤ row.createdAt) &&
  f.endTime.all (fun d => row.createdAt ≤ w.instant d) &&
  f.completedAfter.all (fun d => row.completedAt.any (w.instant d ≤ ·)) &&
  f.completedBefore.all (fun d => row.completedAt.any (· ≤ w.instant d)) &&
  f.attributes.all (·.all fun e => row.hasAttribute e.1 e.2)

/-- The run chain of an id: the id itself, and the runs after its first. -/
def inChain (id workflowId : String) : Bool :=
  workflowId = id || (id ++ runSeparator).toList.isPrefixOf workflowId.toList

/-- Whether a status among those asked for is held by `ERROR`. -/
def VisibilityQuery.needsStatus (q : VisibilityQuery F) : Bool :=
  q.statuses.any (·.any fun s => temporalToDbos s = [.error])

/-- `post_filter`. -/
def VisibilityQuery.postFilter (q : VisibilityQuery F) : Option (WorkflowRow F → Bool) :=
  if ¬ q.needsStatus ∧ q.typeNotIn.isEmpty ∧ q.workflowIdChain.isNone then none
  else some fun row =>
    q.workflowIdChain.all (inChain · row.workflowId) &&
    q.statuses.all (toExecutionStatus row.status row.error ∈ ·) &&
    decide (row.typeName ∉ q.typeNotIn)

/-- The rows a query selects: those DBOS returns that pass the post-filter. -/
def VisibilityQuery.selects (w : QueryWorld F) (q : VisibilityQuery F) (row : WorkflowRow F) : Bool :=
  q.toDbosFilters.admits w row && q.postFilter.all (· row)

/-! ## What is asked of a row -/

/-- The conditions that are lists. -/
structure AllowsLists (q : VisibilityQuery F) (row : WorkflowRow F) : Prop where
  typeIn : ∀ l ∈ q.typeIn, row.name ∈ l.map fun t => some (workflowPrefix ++ t)
  typeNotIn : row.typeName ∉ q.typeNotIn
  workflowIds : ∀ l ∈ q.workflowIds, row.workflowId ∈ l
  statuses : ∀ l ∈ q.statuses, toExecutionStatus row.status row.error ∈ l

/-- The bounds on the times of a row. -/
structure Between (w : QueryWorld F) (startLo startHi closeLo closeHi : Option PyDatetime) (row : WorkflowRow F) :
    Prop where
  startLo : ∀ d ∈ startLo, w.instant d ≤ row.createdAt
  startHi : ∀ d ∈ startHi, row.createdAt ≤ w.instant d
  closeLo : ∀ d ∈ closeLo, ∃ t ∈ row.completedAt, w.instant d ≤ t
  closeHi : ∀ d ∈ closeHi, ∃ t ∈ row.completedAt, t ≤ w.instant d

def AllowsTimes (w : QueryWorld F) (q : VisibilityQuery F) : WorkflowRow F → Prop :=
  Between w q.startTimeLo q.startTimeHi q.closeTimeLo q.closeTimeHi

/-- What the clauses on `WorkflowId` and on search attributes ask. -/
structure AllowsKeyed (idPrefix chain : Option String) (search : String → Option (Scalar F)) (row : WorkflowRow F) :
    Prop where
  idPrefix : ∀ p ∈ idPrefix, p.toList <+: row.workflowId.toList
  chain : ∀ b ∈ chain, inChain b row.workflowId = true
  search : ∀ k, ∀ x ∈ search k, row.hasAttribute k x = true

def AllowsKeys (q : VisibilityQuery F) : WorkflowRow F → Prop :=
  AllowsKeyed q.workflowIdPrefix q.workflowIdChain q.searchAttributes.get?

theorem anyOf_iff {α : Type} {filter : Option (List α)} {p : α → Bool} :
    anyOf filter p = true ↔ ∀ l ∈ filter, ∃ x ∈ l, p x = true := by
  cases filter <;> simp [anyOf]

theorem anyOf_mem {α : Type} [DecidableEq α] {filter : Option (List α)} {x : α} :
    anyOf filter (x = ·) = true ↔ ∀ l ∈ filter, x ∈ l := by
  simp [anyOf_iff]

theorem anyOf_singleton {α : Type} {x : Option α} {p : α → Bool} :
    anyOf (x.map ([·])) p = true ↔ ∀ a ∈ x, p a = true := by
  cases x <;> simp [anyOf]

theorem anyOf_name {types : Option (List String)} {name : Option String} :
    anyOf (types.map (·.map (workflowPrefix ++ ·))) (fun n => name = some n) = true ↔
      ∀ l ∈ types, name ∈ l.map fun t => some (workflowPrefix ++ t) := by
  cases types <;> simp [anyOf, @eq_comm _ name]

/-- A status is held by the DBOS statuses that read as it. -/
theorem mem_temporalToDbos (s : DbosStatus) (error : Option RecordedError) :
    s ∈ temporalToDbos (toExecutionStatus s error) := by
  cases s with
  | error =>
    cases error with
    | none => decide
    | some e => cases e <;> decide
  | _ => simp [toExecutionStatus, temporalToDbos]

/-- Only the ones held by `ERROR` are not told by it. -/
theorem toExecutionStatus_of_mem {s : DbosStatus} {x : WorkflowExecutionStatus} (h : s ∈ temporalToDbos x)
    (hx : temporalToDbos x ≠ [.error]) (error : Option RecordedError) : toExecutionStatus s error = x := by
  cases x <;> simp_all [temporalToDbos]
  · rcases h with rfl | rfl | rfl | rfl <;> rfl
  · rfl
  · rfl

theorem isPrefix_of_inChain {b id : String} (h : inChain b id = true) : b.toList <+: id.toList := by
  simp only [inChain, Bool.or_eq_true, decide_eq_true_eq, List.isPrefixOf_iff_prefix, String.toList_append] at h
  rcases h with rfl | h
  · exact List.prefix_rfl
  · exact (List.prefix_append _ _).trans h

def AsksStatus (q : VisibilityQuery F) (row : WorkflowRow F) : Prop :=
  ∀ l ∈ q.statuses, toExecutionStatus row.status row.error ∈ l

/-- The status filter lets through what has a status asked for; and nothing
else, unless the post-filter is there for it. -/
theorem status_filter {q : VisibilityQuery F} {row : WorkflowRow F} :
    (∀ l ∈ q.toDbosFilters.status, row.status ∈ l) ∧ (q.needsStatus = true → AsksStatus q row) ↔ AsksStatus q row := by
  simp only [AsksStatus, VisibilityQuery.toDbosFilters, VisibilityQuery.needsStatus]
  cases q.statuses with
  | none => simp
  | some l =>
    simp only [Option.map_some, Option.mem_def, Option.some.injEq, forall_eq', List.mem_eraseDups, List.mem_flatMap,
      Option.any_some, List.any_eq_true, decide_eq_true_eq]
    constructor
    · intro ⟨⟨x, hx, hs⟩, hn⟩
      by_cases he : ∃ x ∈ l, temporalToDbos x = [.error]
      · exact hn he
      · rw [toExecutionStatus_of_mem hs fun h => he ⟨x, hx, h⟩]
        exact hx
    · exact fun h => ⟨⟨_, h, mem_temporalToDbos _ _⟩, fun _ => h⟩

theorem postFilter_iff {q : VisibilityQuery F} {row : WorkflowRow F} :
    q.postFilter.all (· row) = true ↔ (∀ b ∈ q.workflowIdChain, inChain b row.workflowId = true) ∧
      row.typeName ∉ q.typeNotIn ∧ (q.postFilter.isSome = true → AsksStatus q row) := by
  simp only [VisibilityQuery.postFilter]
  split
  · next h =>
    obtain ⟨-, hn, hc⟩ := h
    rw [List.isEmpty_iff] at hn
    rw [Option.isNone_iff_eq_none] at hc
    simp [hn, hc]
  · simp only [Option.all_some, Bool.and_eq_true, decide_eq_true_eq, Option.all_eq_true, AsksStatus, Option.isSome_some,
      true_imp_iff, and_assoc]
    simp only [Option.mem_def]
    grind

theorem between_iff {a b c d : Option PyDatetime} {row : WorkflowRow F} :
    Between w a b c d row ↔
      a.all (fun d => w.instant d ≤ row.createdAt) = true ∧ b.all (fun d => row.createdAt ≤ w.instant d) = true ∧
        c.all (fun d => row.completedAt.any (w.instant d ≤ ·)) = true ∧
        d.all (fun d => row.completedAt.any (· ≤ w.instant d)) = true := by
  simp only [Option.all_eq_true, Option.any_eq_true, decide_eq_true_eq]
  exact ⟨fun h => ⟨h.startLo, h.startHi, h.closeLo, h.closeHi⟩, fun ⟨h₁, h₂, h₃, h₄⟩ => ⟨h₁, h₂, h₃, h₄⟩⟩

theorem attributes_iff {d : Py.Dict String (Scalar F)} {row : WorkflowRow F} :
    (if d.entries.isEmpty then none else some d.entries).all (·.all fun e => row.hasAttribute e.1 e.2) = true ↔
      ∀ k, ∀ x ∈ d.get? k, row.hasAttribute k x = true := by
  have hall : (if d.entries.isEmpty then none else some d.entries).all (·.all fun e => row.hasAttribute e.1 e.2) = true ↔
      d.entries.all (fun e => row.hasAttribute e.1 e.2) = true := by
    split
    · next h =>
      rw [List.isEmpty_iff] at h
      simp [h]
    · rfl
  rw [hall, List.all_eq_true]
  simp only [Option.mem_def, ← Py.Dict.mem_entries_iff]
  exact ⟨fun h k x hm => h (k, x) hm, fun h e hm => h e.1 e.2 hm⟩

theorem admits_iff {q : VisibilityQuery F} {row : WorkflowRow F} :
    q.toDbosFilters.admits w row = true ↔
      (∀ l ∈ q.typeIn, row.name ∈ l.map fun t => some (workflowPrefix ++ t)) ∧
      (∀ l ∈ q.workflowIds, row.workflowId ∈ l) ∧
      (∀ p ∈ q.workflowIdPrefix.or q.workflowIdChain, p.toList <+: row.workflowId.toList) ∧
      (∀ l ∈ q.toDbosFilters.status, row.status ∈ l) ∧ AllowsTimes w q row ∧
      ∀ k, ∀ x ∈ q.searchAttributes.get? k, row.hasAttribute k x = true := by
  rw [← attributes_iff, AllowsTimes, between_iff]
  simp only [DbosFilters.admits, VisibilityQuery.toDbosFilters, Bool.and_eq_true, anyOf_mem, anyOf_singleton, anyOf_name,
    List.isPrefixOf_iff_prefix, and_assoc]

/-- **What a query selects**: DBOS and the post-filter together ask each
condition of the query. -/
theorem selects_iff {q : VisibilityQuery F} {row : WorkflowRow F} :
    q.selects w row = true ↔ AllowsLists q row ∧ AllowsTimes w q row ∧ AllowsKeys q row := by
  rw [VisibilityQuery.selects, Bool.and_eq_true, admits_iff, postFilter_iff]
  constructor
  · intro ⟨⟨ht, hi, hp, hs, htimes, ha⟩, hc, hn, hpost⟩
    have hneeds : q.needsStatus = true → AsksStatus q row := by
      intro h
      refine hpost ?_
      rw [VisibilityQuery.postFilter, if_neg fun hf => hf.1 h]
      rfl
    refine ⟨⟨ht, hn, hi, status_filter.1 ⟨hs, hneeds⟩⟩, htimes, fun p hp' => hp p ?_, hc, ha⟩
    rw [Option.mem_def.1 hp']
    rfl
  · intro ⟨hl, htimes, hk⟩
    obtain ⟨hs, -⟩ := status_filter.2 hl.statuses
    refine ⟨⟨hl.typeIn, hl.workflowIds, fun p hp => ?_, hs, htimes, hk.search⟩, hk.chain, hl.typeNotIn,
      fun _ => hl.statuses⟩
    cases hidp : q.workflowIdPrefix with
    | some p' =>
      rw [hidp] at hp
      exact hk.idPrefix p (hidp.trans hp)
    | none =>
      -- The chain's own prefix filter is the weaker one.
      rw [hidp] at hp
      exact isPrefix_of_inChain (hk.chain p hp)

/-! ## The law of conjunction -/

theorem both_map {α β : Type} [DecidableEq α] {f : α → β} (hf : Function.Injective f) {x y : Option (List α)} {b : β} :
    (∀ l ∈ both x y, b ∈ l.map f) ↔ (∀ l ∈ x, b ∈ l.map f) ∧ ∀ l ∈ y, b ∈ l.map f := by
  cases y with
  | none => simp [both]
  | some m =>
    cases x with
    | none => simp [both, intersect]
    | some l =>
      simp only [both, intersect, Option.mem_def, Option.some.injEq, forall_eq', List.mem_map, List.mem_filter,
        decide_eq_true_eq]
      constructor
      · rintro ⟨a, ⟨hl, hm⟩, rfl⟩
        exact ⟨⟨a, hl, rfl⟩, a, hm, rfl⟩
      · rintro ⟨⟨a, hl, rfl⟩, a', hm, he⟩
        rw [hf he] at hm
        exact ⟨a, ⟨hl, hm⟩, rfl⟩

theorem both_mem {α : Type} [DecidableEq α] {x y : Option (List α)} {b : α} :
    (∀ l ∈ both x y, b ∈ l) ↔ (∀ l ∈ x, b ∈ l) ∧ ∀ l ∈ y, b ∈ l := by
  simpa using both_map (x := x) (y := y) (b := b) Function.injective_id

variable {v₁ v₂ v : VisibilityQuery F} {row : WorkflowRow F}

/-- Lists are intersected, and exclusions collected. -/
theorem Joined.allowsLists (hj : Joined v₁ v₂ v) : AllowsLists v row ↔ AllowsLists v₁ row ∧ AllowsLists v₂ row := by
  have hinj : Function.Injective fun t : String => some (workflowPrefix ++ t) := by
    intro a b h
    simpa using h
  have ht := both_map hinj (x := v₁.typeIn) (y := v₂.typeIn) (b := row.name)
  have hi := both_mem (x := v₁.workflowIds) (y := v₂.workflowIds) (b := row.workflowId)
  have hs := both_mem (x := v₁.statuses) (y := v₂.statuses) (b := toExecutionStatus row.status row.error)
  rw [← hj.typeIn] at ht
  rw [← hj.workflowIds] at hi
  rw [← hj.statuses] at hs
  have hn : row.typeName ∉ v.typeNotIn ↔ row.typeName ∉ v₁.typeNotIn ∧ row.typeName ∉ v₂.typeNotIn := by
    rw [hj.typeNotIn, List.mem_append, not_or]
  constructor
  · intro h
    exact ⟨⟨(ht.1 h.typeIn).1, (hn.1 h.typeNotIn).1, (hi.1 h.workflowIds).1, (hs.1 h.statuses).1⟩,
      (ht.1 h.typeIn).2, (hn.1 h.typeNotIn).2, (hi.1 h.workflowIds).2, (hs.1 h.statuses).2⟩
  · intro ⟨h₁, h₂⟩
    exact ⟨ht.2 ⟨h₁.typeIn, h₂.typeIn⟩, hn.2 ⟨h₁.typeNotIn, h₂.typeNotIn⟩, hi.2 ⟨h₁.workflowIds, h₂.workflowIds⟩,
      hs.2 ⟨h₁.statuses, h₂.statuses⟩⟩

/-- The tighter of two bounds is one of them. -/
theorem mem_bound {pick : PyDatetime → PyDatetime → PyDatetime} (hp : ∀ c d, pick c d = c ∨ pick c d = d)
    {x y : Option PyDatetime} {d : PyDatetime} (h : d ∈ bound pick x y) : d ∈ x ∨ d ∈ y := by
  cases y with
  | none => exact .inl h
  | some d' =>
    cases x with
    | none => exact .inr h
    | some c =>
      cases h
      rcases hp c d' with he | he <;> simp [he]

theorem later_or (c d : PyDatetime) : later c d = c ∨ later c d = d := by
  simp only [later]
  split <;> simp

theorem earlier_or (c d : PyDatetime) : earlier c d = c ∨ earlier c d = d := by
  simp only [earlier]
  split <;> simp

/-- The tighter bounds of two queries. -/
def BetweenBoth (w : QueryWorld F) (v₁ v₂ : VisibilityQuery F) : WorkflowRow F → Prop :=
  Between w (bound later v₁.startTimeLo v₂.startTimeLo) (bound earlier v₁.startTimeHi v₂.startTimeHi)
    (bound later v₁.closeTimeLo v₂.closeTimeLo) (bound earlier v₁.closeTimeHi v₂.closeTimeHi)

theorem betweenBoth_of (h₁ : AllowsTimes w v₁ row) (h₂ : AllowsTimes w v₂ row) : BetweenBoth w v₁ v₂ row where
  startLo d hd := (mem_bound later_or hd).elim (h₁.startLo d) (h₂.startLo d)
  startHi d hd := (mem_bound earlier_or hd).elim (h₁.startHi d) (h₂.startHi d)
  closeLo d hd := (mem_bound later_or hd).elim (h₁.closeLo d) (h₂.closeLo d)
  closeHi d hd := (mem_bound earlier_or hd).elim (h₁.closeHi d) (h₂.closeHi d)

/-- The keys of two queries, the second's in front. -/
def KeysBoth (v₁ v₂ : VisibilityQuery F) : WorkflowRow F → Prop :=
  AllowsKeyed (v₂.workflowIdPrefix.or v₁.workflowIdPrefix) (v₂.workflowIdChain.or v₁.workflowIdChain)
    fun k => (v₂.searchAttributes.get? k).or (v₁.searchAttributes.get? k)

theorem keysBoth_of (h₁ : AllowsKeys v₁ row) (h₂ : AllowsKeys v₂ row) : KeysBoth v₁ v₂ row where
  idPrefix p hp := (Option.or_eq_some_iff.1 hp).elim (h₂.idPrefix p) fun h => h₁.idPrefix p h.2
  chain b hb := (Option.or_eq_some_iff.1 hb).elim (h₂.chain b) fun h => h₁.chain b h.2
  search k x hx := (Option.or_eq_some_iff.1 hx).elim (h₂.search k x) fun h => h₁.search k x h.2

theorem keys_of_keysBoth (h : KeysBoth v₁ v₂ row) : AllowsKeys v₂ row where
  idPrefix p hp := h.idPrefix p (Option.or_eq_some_iff.2 (.inl hp))
  chain b hb := h.chain b (Option.or_eq_some_iff.2 (.inl hb))
  search k x hx := h.search k x (Option.or_eq_some_iff.2 (.inl hx))

theorem Joined.selects (hj : Joined v₁ v₂ v) (w : QueryWorld F) (row : WorkflowRow F) :
    v.selects w row = true ↔
      (AllowsLists v₁ row ∧ AllowsLists v₂ row) ∧ BetweenBoth w v₁ v₂ row ∧ KeysBoth v₁ v₂ row := by
  have hkeys : v.searchAttributes.get? = fun k => (v₂.searchAttributes.get? k).or (v₁.searchAttributes.get? k) :=
    funext hj.searchAttributes
  rw [selects_iff, hj.allowsLists, AllowsTimes, AllowsKeys, hj.startTimeLo, hj.startTimeHi, hj.closeTimeLo,
    hj.closeTimeHi, hj.workflowIdPrefix, hj.workflowIdChain, hkeys]
  rfl

/-- A row meets what two joined queries still ask: the lists of both, the
tighter of their bounds, and of their keys the second's where it has one. -/
structure Standing (w : QueryWorld F) (v₁ v₂ : VisibilityQuery F) (row : WorkflowRow F) : Prop where
  first : AllowsLists v₁ row
  second : AllowsLists v₂ row
  times : BetweenBoth w v₁ v₂ row
  keys : KeysBoth v₁ v₂ row

/-- It meets what they no longer ask: the first query's `WorkflowId` and search
attribute clauses, and the bounds that gave way. -/
structure Replaced (w : QueryWorld F) (v₁ v₂ : VisibilityQuery F) (row : WorkflowRow F) : Prop where
  keys : AllowsKeys v₁ row
  firstTimes : AllowsTimes w v₁ row
  secondTimes : AllowsTimes w v₂ row

/-- Every bound of the query has its offset from UTC. -/
def AwareBounds (q : VisibilityQuery F) : Prop :=
  ∀ x ∈ [q.startTimeLo, q.startTimeHi, q.closeTimeLo, q.closeTimeHi], ∀ d ∈ x, d.utcoffset.isSome = true

theorem instant_of_isSome {d : PyDatetime} (h : d.utcoffset.isSome = true) : w.instant d = d.key := by
  obtain ⟨x, hx⟩ := Option.isSome_iff_exists.1 h
  simp [QueryWorld.instant, PyDatetime.key, hx]

/-- What the later of two bounds asks, both ask. -/
theorem of_bound_later {x y : Option PyDatetime} {P : Int → Prop} (hP : ∀ {i j}, i ≤ j → P j → P i)
    (hx : ∀ d ∈ x, d.utcoffset.isSome = true) (hy : ∀ d ∈ y, d.utcoffset.isSome = true)
    (h : ∀ d ∈ bound later x y, P (w.instant d)) : (∀ d ∈ x, P (w.instant d)) ∧ ∀ d ∈ y, P (w.instant d) := by
  cases y with
  | none => exact ⟨h, by simp⟩
  | some d =>
    cases x with
    | none => exact ⟨by simp, h⟩
    | some c =>
      have hpick := h (later c d) rfl
      have hc := instant_of_isSome (w := w) (hx c rfl)
      have hd := instant_of_isSome (w := w) (hy d rfl)
      simp only [Option.mem_def, Option.some.injEq, forall_eq']
      simp only [later] at hpick
      split at hpick
      · exact ⟨hP (by omega) hpick, hpick⟩
      · exact ⟨hpick, hP (by omega) hpick⟩

theorem of_bound_earlier {x y : Option PyDatetime} {P : Int → Prop} (hP : ∀ {i j}, i ≤ j → P i → P j)
    (hx : ∀ d ∈ x, d.utcoffset.isSome = true) (hy : ∀ d ∈ y, d.utcoffset.isSome = true)
    (h : ∀ d ∈ bound earlier x y, P (w.instant d)) : (∀ d ∈ x, P (w.instant d)) ∧ ∀ d ∈ y, P (w.instant d) := by
  cases y with
  | none => exact ⟨h, by simp⟩
  | some d =>
    cases x with
    | none => exact ⟨by simp, h⟩
    | some c =>
      have hpick := h (earlier c d) rfl
      have hc := instant_of_isSome (w := w) (hx c rfl)
      have hd := instant_of_isSome (w := w) (hy d rfl)
      simp only [Option.mem_def, Option.some.injEq, forall_eq']
      simp only [earlier] at hpick
      split at hpick
      · exact ⟨hP (by omega) hpick, hpick⟩
      · exact ⟨hpick, hP (by omega) hpick⟩

/-- Only a naive bound gives way: of those with offsets the tighter one asks
all that the other does. -/
theorem times_of_aware (ha₁ : AwareBounds v₁) (ha₂ : AwareBounds v₂) (h : BetweenBoth w v₁ v₂ row) :
    AllowsTimes w v₁ row ∧ AllowsTimes w v₂ row := by
  have hslo := of_bound_later (P := (· ≤ row.createdAt)) (fun hij hj => by omega) (ha₁ _ (by simp)) (ha₂ _ (by simp))
    h.startLo
  have hshi := of_bound_earlier (P := (row.createdAt ≤ ·)) (fun hij hi => by omega) (ha₁ _ (by simp)) (ha₂ _ (by simp))
    h.startHi
  have hclo := of_bound_later (P := fun i => ∃ t ∈ row.completedAt, i ≤ t)
    (fun hij ⟨t, ht, hj⟩ => ⟨t, ht, by omega⟩) (ha₁ _ (by simp)) (ha₂ _ (by simp)) h.closeLo
  have hchi := of_bound_earlier (P := fun i => ∃ t ∈ row.completedAt, t ≤ i)
    (fun hij ⟨t, ht, hi⟩ => ⟨t, ht, by omega⟩) (ha₁ _ (by simp)) (ha₂ _ (by simp)) h.closeHi
  exact ⟨⟨hslo.1, hshi.1, hclo.1, hchi.1⟩, hslo.2, hshi.2, hclo.2, hchi.2⟩

theorem replaced_iff_of_aware (ha₁ : AwareBounds v₁) (ha₂ : AwareBounds v₂) (hs : Standing w v₁ v₂ row) :
    Replaced w v₁ v₂ row ↔ AllowsKeys v₁ row := by
  obtain ⟨h₁, h₂⟩ := times_of_aware ha₁ ha₂ hs.times
  exact ⟨fun h => h.keys, fun h => ⟨h, h₁, h₂⟩⟩

/-- **Conjunction**: a joined query selects what both of its queries select,
exactly if the rows that meet what still stands of them also meet what the
second replaced. -/
theorem conjunction_iff {q₁ q₂ : String} (h₁ : parseQuery w q₁ = .ok v₁) (h₂ : parseQuery w q₂ = .ok v₂)
    (hg₁ : v₁.groupBy = none) (hg₂ : v₂.groupBy = none) (h : parseQuery w (q₁ ++ " AND " ++ q₂) = .ok v)
    (row : WorkflowRow F) :
    (v.selects w row = true ↔ v₁.selects w row = true ∧ v₂.selects w row = true) ↔
      (Standing w v₁ v₂ row → Replaced w v₁ v₂ row) := by
  have hsel := (joined_of_parseQuery h₁ h₂ hg₁ hg₂ h).selects w row
  rw [hsel, selects_iff, selects_iff]
  constructor
  · intro hiff hs
    obtain ⟨⟨-, ht₁, hk₁⟩, -, ht₂, -⟩ := hiff.1 ⟨⟨hs.first, hs.second⟩, hs.times, hs.keys⟩
    exact ⟨hk₁, ht₁, ht₂⟩
  · intro himp
    constructor
    · intro ⟨⟨hl₁, hl₂⟩, ht, hk⟩
      have hr := himp ⟨hl₁, hl₂, ht, hk⟩
      exact ⟨⟨hl₁, hr.firstTimes, hr.keys⟩, hl₂, hr.secondTimes, keys_of_keysBoth hk⟩
    · intro ⟨⟨hl₁, ht₁, hk₁⟩, hl₂, ht₂, hk₂⟩
      exact ⟨⟨hl₁, hl₂⟩, betweenBoth_of ht₁ ht₂, keysBoth_of hk₁ hk₂⟩

def sampleWorld : QueryWorld String where
  float := id
  floatStr := id
  fromIso _ := none
  localInstant := id

def sampleRow : WorkflowRow String where
  workflowId := "b"
  name := some "wf:Order"
  status := .success
  error := none
  createdAt := 0
  completedAt := some 1
  hasAttribute _ _ := false

/-- A type and an id: nothing is replaced. -/
theorem conjunction_sample :
    (VisibilityQuery.selects sampleWorld { typeIn := some ["Order"], workflowIdChain := some "b" } sampleRow = true ↔
      VisibilityQuery.selects sampleWorld { typeIn := some ["Order"] } sampleRow = true ∧
        VisibilityQuery.selects sampleWorld { workflowIdChain := some "b" } sampleRow = true) := by
  have h₁ : parseQuery sampleWorld "WorkflowType = 'Order'" = .ok { typeIn := some ["Order"] } := by decide +kernel
  have h₂ : parseQuery sampleWorld "WorkflowId = 'b'" = .ok { workflowIdChain := some "b" } := by decide +kernel
  have h : parseQuery sampleWorld ("WorkflowType = 'Order'" ++ " AND " ++ "WorkflowId = 'b'") =
      .ok { typeIn := some ["Order"], workflowIdChain := some "b" } := by decide +kernel
  refine (conjunction_iff h₁ h₂ rfl rfl h sampleRow).2 fun _ => ⟨⟨?_, ?_, ?_⟩, ⟨?_, ?_, ?_, ?_⟩, ⟨?_, ?_, ?_, ?_⟩⟩
  all_goals simp

/-- Of two ids the second alone is asked for. -/
theorem repeated_id :
    ∃ v₁ v₂ v, parseQuery sampleWorld "WorkflowId = 'a'" = .ok v₁ ∧ parseQuery sampleWorld "WorkflowId = 'b'" = .ok v₂ ∧
      v₁.groupBy = none ∧ v₂.groupBy = none ∧
      parseQuery sampleWorld ("WorkflowId = 'a'" ++ " AND " ++ "WorkflowId = 'b'") = .ok v ∧
      ¬ (v.selects sampleWorld sampleRow = true ↔
          v₁.selects sampleWorld sampleRow = true ∧ v₂.selects sampleWorld sampleRow = true) := by
  refine ⟨{ workflowIdChain := some "a" }, { workflowIdChain := some "b" }, { workflowIdChain := some "b" }, ?_⟩
  decide +kernel

end Dbosify
