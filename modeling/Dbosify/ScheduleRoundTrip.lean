/-
A schedule rebuilt from its stored context, and stored again.

Of the specification, the policy, the state and the plain fields of the action
nothing is lost. Search attributes come back typed and sorted, which is the
same dict. What decides are the payloads: the arguments and the memo are
decoded for the description and encoded again (`context_round_trip`).
-/
import Dbosify.ScheduleUpdate

namespace Dbosify

/-! ## The row of a schedule -/

/-- The row of a schedule, from what its creation compiled and encoded. -/
def builtRow (id now : String) (s : Schedule) (a : ScheduleActionStartWorkflow) (spec : String × Option String)
    (workflow : String) (args : List Payload) (attributes : Option Attributes) : ScheduleRow where
  cron := spec.1
  cronTimezone := spec.2
  context := {
    action := {
      workflow
      args
      id := a.id
      taskQueue := a.taskQueue
      executionTimeout := storedSeconds a.executionTimeout
      runTimeout := storedSeconds a.runTimeout
      taskTimeout := storedSeconds a.taskTimeout
      retryPolicy := a.retryPolicy.map serializeRetryPolicy
      staticSummary := a.staticSummary
      staticDetails := a.staticDetails
      priority := a.priority.map serializePriority
      attributes }
    spec := serializeSpec s.spec
    policy := {
      overlap := s.policy.overlap.value
      catchupWindow := s.policy.catchupWindow.totalSeconds
      pauseOnFailure := s.policy.pauseOnFailure }
    state := s.state
    cron := spec.1
    createdAt := now
    scheduleId := id }
  queueName := a.taskQueue

/-- What a creation checks and makes of a schedule with a start-workflow
action. -/
structure Compiled (env : ScheduleEnv) (s : Schedule) (a : ScheduleActionStartWorkflow) (spec : String × Option String)
    (workflow : String) (args : List Payload) (attributes : Option Attributes) : Prop where
  action : s.action = .startWorkflow a
  supported : s.policy.overlap ≠ .bufferOne ∧ s.policy.overlap ≠ .bufferAll
  admitted : validateWorkflowId a.id = none
  spec : compileSpec env.cron s.spec = .ok spec
  workflow : resolveTypeName a.workflow = .ok workflow
  args : encodeValuesSync env.converter a.args = .ok args
  attributes : encodeActionAttributes env.converter.toConverter a = .ok attributes

theorem newRow_eq_ok {env : ScheduleEnv} {id now : String} {s : Schedule} {row : ScheduleRow} :
    newRow env id now s = .ok row ↔ ∃ a spec workflow args attributes,
      Compiled env s a spec workflow args attributes ∧ row = builtRow id now s a spec workflow args attributes := by
  cases ha : s.action with
  | other =>
    refine iff_of_false (by simp [newRow, ha]) ?_
    rintro ⟨a, _, _, _, _, h, _⟩
    have hact := h.action
    rw [ha] at hact
    cases hact
  | startWorkflow a =>
    simp only [newRow, ha, bind_eq_ok, requireSupportedOverlap_ok, asSchedule_eq_ok, refuse_ok, serializeScheduleContext]
    constructor
    · rintro ⟨_, ho, _, hid, spec, hs, _, ⟨workflow, hw, args, hargs, he⟩, attributes, hat, hrow⟩
      cases he
      cases hrow
      exact ⟨a, spec, workflow, args, attributes, ⟨ha, ho, hid, hs, hw, hargs, hat⟩, rfl⟩
    · rintro ⟨a', spec, workflow, args, attributes, h, rfl⟩
      have hact := h.action
      rw [ha] at hact
      cases hact
      exact ⟨(), h.supported, (), h.admitted, spec, h.spec, _, ⟨workflow, h.workflow, args, h.args, rfl⟩,
        attributes, h.attributes, rfl⟩

/-! ## Memo and search attributes -/

/-- A memo each of whose payloads comes back the same when it is decoded and
encoded again. -/
def MemoStable (c : Converter) (memo : List (String × Payload)) : Prop :=
  ∀ kp ∈ memo, (decodeValue c kp.2 none >>= encodeValue c) = .ok kp.2

theorem memo_round_trip (c : Converter) (memo : List (String × Payload)) :
    (decodeMemo c memo >>= encodeMemo c) = .ok memo ↔ MemoStable c memo := by
  induction memo with
  | nil => exact iff_of_true rfl (by simp [MemoStable])
  | cons kp memo ih =>
    obtain ⟨k, p⟩ := kp
    simp only [MemoStable, List.forall_mem_cons] at ih ⊢
    rw [← ih]
    simp only [decodeMemo, encodeMemo, List.mapM_cons, bind_eq_ok, except_map_eq_ok, pure_eq_ok]
    constructor
    · rintro ⟨_, ⟨_, ⟨v, hv, rfl⟩, vs, hvs, rfl⟩, h⟩
      simp only [List.mapM_cons, bind_eq_ok, except_map_eq_ok, pure_eq_ok, List.cons.injEq] at h
      obtain ⟨_, ⟨q, hq, rfl⟩, qs, hqs, he, rfl⟩ := h
      cases he
      exact ⟨⟨v, hv, hq⟩, vs, hvs, hqs⟩
    · rintro ⟨⟨v, hv, hq⟩, vs, hvs, hqs⟩
      refine ⟨_, ⟨_, ⟨v, hv, rfl⟩, vs, hvs, rfl⟩, ?_⟩
      simp only [List.mapM_cons, bind_eq_ok, except_map_eq_ok, pure_eq_ok]
      exact ⟨_, ⟨p, hq, rfl⟩, memo, hqs, rfl⟩

theorem nodup_entry {t : TypedSearchAttributes} : ((t.pairs.map TypedPair.entry).map (·.1)).Nodup := by
  rw [List.map_map]
  exact t.nodup

/-- What a creation stores of attributes: something, each entry one that a pair
was stored as. -/
theorem encodeActionAttributes_written {c : Converter} {a : ScheduleActionStartWorkflow} {x : Attributes}
    (h : encodeActionAttributes c a = .ok (some x)) :
    (∀ e ∈ x.searchAttributes, Written e) ∧ (x.searchAttributes.map (·.1)).Nodup ∧
      (x.memo.isEmpty && x.searchAttributes.isEmpty) = false := by
  simp only [encodeActionAttributes, bind_eq_ok] at h
  obtain ⟨u, hu, t, ht, m, hm, h⟩ := h
  obtain ⟨hstorable, rfl⟩ := encodeSearchAttributes_pairs.1 hu
  obtain ⟨hstorable', rfl⟩ := encodeSearchAttributes_pairs.1 ht
  rw [Except.ok.injEq] at h
  split at h
  · cases h
  · next hne =>
    cases h
    refine ⟨fun e he => ?_, Py.Dict.nodup _, by simpa using hne⟩
    rcases List.mem_append.1 (Py.Dict.mem_of_mem_ofEntries he) with he | he
    · obtain ⟨p, hp, rfl⟩ := List.mem_map.1 he
      exact ⟨p, hstorable p hp, rfl⟩
    · obtain ⟨p, hp, rfl⟩ := List.mem_map.1 he
      exact ⟨p, hstorable' p hp, rfl⟩

/-- The attributes of an action without untyped ones. -/
theorem encodeActionAttributes_typed {c : Converter} {a : ScheduleActionStartWorkflow} {stored : List StoredEntry}
    (hu : a.untypedSearchAttributes = .empty)
    (ht : encodeSearchAttributes (a.typedSearchAttributes.pairs.map TypedPair.pair) = .ok stored) :
    encodeActionAttributes c a = (encodeMemo c a.memo).map fun memo =>
      if memo.isEmpty && stored.isEmpty then none else some { memo, searchAttributes := stored } := by
  obtain ⟨-, rfl⟩ := encodeSearchAttributes_pairs.1 ht
  have hentries := Py.Dict.entries_ofEntries (nodup_entry (t := a.typedSearchAttributes))
  simp only [encodeActionAttributes, hu, untypedPairs, Py.Dict.empty, List.filterMap_nil, List.map_nil, ht, ok_bind]
  rw [show encodeSearchAttributes [] = .ok [] from rfl, ok_bind, List.nil_append, hentries]
  cases encodeMemo c a.memo with
  | error e => rfl
  | ok m => rfl

/-- The attributes a description decodes are stored the same again exactly when
the memo is stable. -/
theorem attributes_restored {c : Converter} {x : Attributes} (hw : ∀ e ∈ x.searchAttributes, Written e)
    (hn : (x.searchAttributes.map (·.1)).Nodup) (hne : (x.memo.isEmpty && x.searchAttributes.isEmpty) = false)
    (again : List (String × Value) → TypedSearchAttributes → ScheduleActionStartWorkflow)
    (hagain : ∀ m t, (again m t).memo = m ∧ (again m t).typedSearchAttributes = t ∧ (again m t).untypedSearchAttributes = .empty) :
    (∃ m t y, decodeAttributes c (some x) = .ok (m, t) ∧ encodeActionAttributes c (again m t) = .ok y ∧
      SameAttributes y (some x)) ↔ MemoStable c x.memo := by
  obtain ⟨t, stored, hdec, henc, hperm⟩ := encode_decode hw hn
  have hstored : ∀ m, encodeActionAttributes c (again m t) = (encodeMemo c m).map fun memo =>
      if memo.isEmpty && stored.isEmpty then none else some { memo, searchAttributes := stored } := by
    intro m
    obtain ⟨hm, ht, hu⟩ := hagain m t
    rw [encodeActionAttributes_typed hu (by rw [ht]; exact henc), hm]
  simp only [← memo_round_trip, bind_eq_ok, decodeAttributes, hdec, Except.ok.injEq, exists_eq_left', Prod.mk.injEq]
  constructor
  · rintro ⟨_, _, y, ⟨m, hm, rfl, rfl⟩, hy, hsame⟩
    rw [hstored, except_map_eq_ok] at hy
    obtain ⟨memo, hmemo, hy⟩ := hy
    refine ⟨m, hm, ?_⟩
    split at hy
    · rw [← hy] at hsame
      cases hsame
    · rw [← hy] at hsame
      obtain ⟨hsame, -⟩ := hsame
      dsimp only at hsame
      rw [hmemo, hsame]
  · rintro ⟨m, hm, hmemo⟩
    refine ⟨m, t, _, ⟨m, hm, rfl, rfl⟩, by rw [hstored, hmemo]; rfl, ?_⟩
    have hempty : stored.isEmpty = x.searchAttributes.isEmpty := by
      rw [Bool.eq_iff_iff, List.isEmpty_iff, List.isEmpty_iff]
      exact ⟨fun h => by simpa [h] using hperm, fun h => by simpa [h] using hperm⟩
    simp only [hempty, hne, Bool.false_eq_true, if_false]
    exact ⟨rfl, hperm⟩

/-! ## The schedule rebuilt -/

/-- The payloads of a stored schedule come back the same when they are decoded
and encoded again: the arguments as a list, the memo one by one. -/
structure Restorable (c : SyncConverter) (x : StoredSchedule) : Prop where
  args : Stable c x.action.args
  memo : ∀ attributes, x.action.attributes = some attributes → MemoStable c.toConverter attributes.memo

/-- The action of a rebuilt schedule: its workflow by name, its attributes
typed. -/
def rebuiltAction (a : ScheduleActionStartWorkflow) (workflow : String) (args : List Value) (memo : List (String × Value))
    (typed : TypedSearchAttributes) : ScheduleActionStartWorkflow :=
  { a with
    workflow := .typeName workflow
    args
    memo
    typedSearchAttributes := typed
    untypedSearchAttributes := .empty }

section Rebuilt

variable {env : ScheduleEnv} {id now now' : String} {s s' : Schedule} {a : ScheduleActionStartWorkflow}
  {spec : String × Option String} {workflow : String} {args : List Payload} {attributes : Option Attributes}

theorem mapM_deserializePriority (p : Option Priority) :
    (p.map serializePriority).mapM deserializePriority = .ok p := by
  cases p with
  | none => rfl
  | some p => simp [Option.mapM, deserialize_serializePriority, Functor.map, Except.map]

/-- What is rebuilt of a built row: the schedule, but for the action's
payloads and attributes. -/
theorem scheduleFromContext_builtRow {c : SyncConverter} :
    scheduleFromContext c (builtRow id now s a spec workflow args attributes).context.toStoredSchedule = .ok s' ↔
      ∃ m t vs, decodeAttributes c.toConverter attributes = .ok (m, t) ∧
        args.mapM (decodeValueSync c.toConverter) = .ok vs ∧
        s' = { s with action := .startWorkflow (rebuiltAction a workflow vs m t) } := by
  have hretry : (a.retryPolicy.map serializeRetryPolicy).map deserializeRetryPolicy = a.retryPolicy := by
    cases a.retryPolicy <;> simp
  simp only [scheduleFromContext, actionFromContext, builtRow, bind_eq_ok, mapM_deserializePriority,
    OverlapPolicy.ofValue_value, timedeltaOf_storedSeconds, hretry, deserialize_serializeSpec,
    Timedelta.ofSeconds_totalSeconds, Except.ok.injEq, exists_eq_left', Prod.exists]
  constructor
  · rintro ⟨_, ⟨m, t, hm, vs, hvs, rfl⟩, rfl⟩
    exact ⟨m, t, vs, hm, hvs, rfl⟩
  · rintro ⟨m, t, vs, hm, hvs, rfl⟩
    exact ⟨_, ⟨m, t, hm, vs, hvs, rfl⟩, rfl⟩

/-- Stored again, the row is the same exactly when the arguments, the
attributes and the state are. -/
theorem builtRow_rebuilt {vs : List Value} {m : List (String × Value)} {t : TypedSearchAttributes} {state : ScheduleState}
    {action : ScheduleAction} {ps : List Payload} {y : Option Attributes} :
    (builtRow id now' { s with action, state } (rebuiltAction a workflow vs m t) spec workflow ps y).Same
        (builtRow id now s a spec workflow args attributes) ↔
      SameAttributes y attributes ∧ ps = args ∧ state = s.state := by
  simp only [ScheduleRow.Same, builtRow, rebuiltAction, ScheduleRow.mk.injEq, ContextDict.mk.injEq, StoredSchedule.mk.injEq,
    StoredAction.mk.injEq, true_and, and_true]

/-- A rebuilt schedule compiles as the schedule did. -/
theorem newRow_rebuilt (h : Compiled env s a spec workflow args attributes) {vs : List Value} {m : List (String × Value)}
    {t : TypedSearchAttributes} {state : ScheduleState} {row : ScheduleRow} :
    newRow env id now' { s with action := .startWorkflow (rebuiltAction a workflow vs m t), state } = .ok row ↔
      ∃ ps y, encodeValuesSync env.converter vs = .ok ps ∧
        encodeActionAttributes env.converter.toConverter (rebuiltAction a workflow vs m t) = .ok y ∧
        row = builtRow id now' { s with action := .startWorkflow (rebuiltAction a workflow vs m t), state }
          (rebuiltAction a workflow vs m t) spec workflow ps y := by
  rw [newRow_eq_ok]
  constructor
  · rintro ⟨_, spec', _, ps, y, h', rfl⟩
    have hact := h'.action
    have hspec := h'.spec
    have hworkflow := h'.workflow
    cases hact
    rw [h.spec] at hspec
    cases hspec
    cases hworkflow
    exact ⟨ps, y, h'.args, h'.attributes, rfl⟩
  · rintro ⟨ps, y, hps, hy, rfl⟩
    exact ⟨_, spec, workflow, ps, y, ⟨rfl, h.supported, h.admitted, h.spec, rfl, hps, hy⟩, rfl⟩

/-- The schedule rebuilt, given a state and stored again, is the same row
exactly when the payloads are restorable and the state is the stored one. -/
theorem restored_iff (id now now' : String) (h : Compiled env s a spec workflow args attributes)
    (state : ScheduleState) :
    (∃ s' row', scheduleFromContext env.converter
          (builtRow id now s a spec workflow args attributes).context.toStoredSchedule = .ok s' ∧
        newRow env id now' { s' with state } = .ok row' ∧ row'.Same (builtRow id now s a spec workflow args attributes)) ↔
      Restorable env.converter (builtRow id now s a spec workflow args attributes).context.toStoredSchedule ∧
        state = s.state := by
  have hattr : ∀ vs, (∃ m t y, decodeAttributes env.converter.toConverter attributes = .ok (m, t) ∧
        encodeActionAttributes env.converter.toConverter (rebuiltAction a workflow vs m t) = .ok y ∧
        SameAttributes y attributes) ↔
      ∀ x, attributes = some x → MemoStable env.converter.toConverter x.memo := by
    intro vs
    cases hx : attributes with
    | none => exact iff_of_true ⟨[], .empty, none, rfl, rfl, trivial⟩ (fun _ he => by cases he)
    | some x =>
      obtain ⟨hw, hn, hne⟩ := encodeActionAttributes_written (hx ▸ h.attributes)
      rw [attributes_restored hw hn hne (rebuiltAction a workflow vs) fun _ _ => ⟨rfl, rfl, rfl⟩]
      simp
  constructor
  · rintro ⟨_, row', hs, hrow, hsame⟩
    obtain ⟨m, t, vs, hm, hvs, rfl⟩ := scheduleFromContext_builtRow.1 hs
    obtain ⟨ps, y, hps, hy, rfl⟩ := (newRow_rebuilt h).1 hrow
    obtain ⟨hattrs, rfl, hstate⟩ := builtRow_rebuilt.1 hsame
    exact ⟨⟨bind_eq_ok.2 ⟨vs, hvs, hps⟩, (hattr vs).1 ⟨m, t, y, hm, hy, hattrs⟩⟩, hstate⟩
  · rintro ⟨⟨hargs, hmemo⟩, rfl⟩
    obtain ⟨vs, hvs, hps⟩ := bind_eq_ok.1 hargs
    obtain ⟨m, t, y, hm, hy, hattrs⟩ := (hattr vs).2 hmemo
    exact ⟨_, _, scheduleFromContext_builtRow.2 ⟨m, t, vs, hm, hvs, rfl⟩, (newRow_rebuilt h).2 ⟨_, y, hps, hy, rfl⟩,
      builtRow_rebuilt.2 ⟨hattrs, rfl, rfl⟩⟩

end Rebuilt

/-! ## The row updated -/

theorem same_status {r r' : ScheduleRow} (h : r.status = r'.status) (status : ScheduleStatus) :
    ({ r with status } : ScheduleRow).Same { r' with status } ↔ r.Same r' := by
  obtain ⟨cron, tz, context, queue, st⟩ := r
  obtain ⟨cron', tz', context', queue', st'⟩ := r'
  cases h
  simp only [ScheduleRow.Same, ScheduleRow.mk.injEq, and_true]

/-- A replaced row, in its status. -/
theorem replaceSchedule_row {env : ScheduleEnv} {id now : String} {s : Schedule} {row : ScheduleRow} :
    (replaceSchedule env id now s).1 = some row ↔ ∃ new, newRow env id now s = .ok new ∧ env.refuses new = none ∧
      row = { new with status := if s.state.paused then .paused else .active } := by
  cases hn : newRow env id now s with
  | error e => simp [replaceSchedule, createScheduleRow, hn]
  | ok new =>
    have hactive : new.status = .active := by
      obtain ⟨_, _, _, _, _, _, rfl⟩ := newRow_eq_ok.1 hn
      rfl
    cases hr : env.refuses new with
    | some message => simp [replaceSchedule, createScheduleRow, hn, hr]
    | none =>
      simp only [replaceSchedule, createScheduleRow, hn, hr, Option.some.injEq, Except.ok.injEq, exists_eq_left', true_and]
      cases hp : s.state.paused
      · have hself : new = { new with status := .active } := by rw [← hactive]
        simp only [Bool.false_eq_true, if_false]
        rw [← hself, eq_comm]
      · simp only [if_true, eq_comm]

/-- A greeting with an argument and a memo. -/
def greetAction (arg : Value) : ScheduleActionStartWorkflow where
  workflow := .typeName "Greet"
  args := [arg]
  id := "greet"
  taskQueue := "q"
  memo := [("team", .obj "2")]

def greetingWith (arg : Value) : Schedule where
  action := .startWorkflow (greetAction arg)
  spec := { calendars := [{ hour := [.of 9] }] }

/-- Its row, with the argument's payload. -/
def greetingRow (arg : Value) (text : String) : ScheduleRow :=
  builtRow "s" "2026-01-01T00:00:00+00:00" (greetingWith arg) (greetAction arg) ("0 9 * * *", none) "Greet" [⟨text⟩]
    (some { memo := [("team", ⟨"\x7b\"encoding\":\"json/plain\",\"json\":2\x7d"⟩)], searchAttributes := [] })

/-- The payload of a `RawValue`, with a key of its own in the metadata. -/
def taggedText : String := "\x7b\"encoding\":\"json/plain\",\"meta\":\x7b\"key\":\"dg==\"\x7d,\"json\":1\x7d"

end Dbosify
