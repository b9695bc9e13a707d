/-
Creating, replacing and updating a schedule's row (`create_schedule_row`,
`_replace_schedule`, `ScheduleHandle._update_impl`).

An update replaces the row: it deletes the row, and only then validates,
compiles and encodes the new schedule. So a schedule that cannot be created
leaves no row behind (`update_atomic_iff`).
-/
import Dbosify.Schedule

namespace Dbosify

/-! ## Rows -/

inductive ScheduleStatus | active | paused
deriving DecidableEq, Repr

/-- The context of a schedule's row. -/
structure ContextDict extends StoredSchedule where
  cron : String
  createdAt : String
  scheduleId : String

structure ScheduleRow where
  cron : String
  cronTimezone : Option String
  context : ContextDict
  queueName : String
  status : ScheduleStatus := .active

/-- One dict of attributes, whatever the order of its keys. -/
def SameAttributes : Option Attributes → Option Attributes → Prop
  | none, none => True
  | some a, some b => a.memo = b.memo ∧ a.searchAttributes.Perm b.searchAttributes
  | _, _ => False

/-- Equal rows: but for the creation time, and for the order of the search
attributes' keys. -/
def ScheduleRow.Same (r r' : ScheduleRow) : Prop :=
  SameAttributes r.context.action.attributes r'.context.action.attributes ∧
  r = { r' with
    context := { r'.context with
      createdAt := r.context.createdAt
      action := { r'.context.action with attributes := r.context.action.attributes } } }

/-- What a schedule call finds around it: the data converter, time zones and
cron expressions, and what DBOS raises at the creation of a row. -/
structure ScheduleEnv where
  converter : SyncConverter
  cron : CronWorld
  refuses : ScheduleRow → Option String
  /-- DBOS takes a context as the JSON value it is. -/
  refuses_same : ∀ {r r'}, r.Same r' → refuses r = refuses r'

section Create

variable (env : ScheduleEnv)

/-- `require_supported_overlap`. -/
def requireSupportedOverlap (p : OverlapPolicy) : Except ScheduleExc Unit :=
  if p = .bufferOne ∨ p = .bufferAll then
    .error (.notImplementedError
      "dbosify does not support ScheduleOverlapPolicy.BUFFER_ONE / BUFFER_ALL; use SKIP, CANCEL_OTHER, TERMINATE_OTHER, or ALLOW_ALL")
  else .ok ()

/-- The row `create_schedule_row` has DBOS create, at a time. -/
def newRow (id now : String) (s : Schedule) : Except ScheduleExc ScheduleRow :=
  match s.action with
  | .other => .error (.raised (.typeError "dbosify schedules support ScheduleActionStartWorkflow only"))
  | .startWorkflow a => do
    requireSupportedOverlap s.policy.overlap
    asSchedule (refuse (validateWorkflowId a.id))
    let (cron, cronTimezone) ← compileSpec env.cron s.spec
    let context ← asSchedule (serializeScheduleContext env.converter s)
    let attributes ← asSchedule (encodeActionAttributes env.converter.toConverter a)
    .ok {
      cron
      cronTimezone
      context := { context with action := { context.action with attributes }, cron, createdAt := now, scheduleId := id }
      queueName := a.taskQueue }

/-- `create_schedule_row`, with no trigger and no backfill, on the schedule's
row: the row it leaves, and what it raises. -/
def createScheduleRow (id now : String) (s : Schedule) (row : Option ScheduleRow) :
    Option ScheduleRow × Except ScheduleExc Unit :=
  match newRow env id now s with
  | .error e => (row, .error e)
  | .ok new =>
    match row, env.refuses new with
    | some _, _ => (row, .error (.dbosError ("Schedule '" ++ id ++ "' already exists")))
    | none, some message => (none, .error (.dbosError message))
    | none, none => (some (if s.state.paused then { new with status := .paused } else new), .ok ())

/-- `_replace_schedule`: the row is deleted first. -/
def replaceSchedule (id now : String) (s : Schedule) : Option ScheduleRow × Except ScheduleExc Unit :=
  createScheduleRow env id now s none

/-- The schedule of a description (`_description_from_row`): paused as the row
is. -/
def describedSchedule (row : ScheduleRow) : Except ScheduleExc Schedule := do
  let s ← asSchedule (scheduleFromContext env.converter row.context.toStoredSchedule)
  .ok { s with state := { s.state with paused := decide (row.status ≠ .active) } }

/-- `ScheduleHandle.update`; the updater answers with a schedule, or with
`None` to skip. -/
def updateSchedule (id now : String) (updater : Schedule → Option Schedule) (row : Option ScheduleRow) :
    Option ScheduleRow × Except ScheduleExc Unit :=
  match row with
  | none => (none, .error (.raised (.runtimeError ("Schedule '" ++ id ++ "' not found"))))
  | some r =>
    match describedSchedule env r with
    | .error e => (some r, .error e)
    | .ok described =>
      match updater described with
      | none => (some r, .ok ())
      | some s => replaceSchedule env id now s

end Create

/-! ## What can be created -/

theorem asSchedule_isOk {α : Type} {x : Except Exc α} : (∃ a, asSchedule x = .ok a) ↔ ∃ a, x = .ok a := by
  cases x <;> simp [asSchedule, Except.mapError]

theorem asSchedule_eq_ok {α : Type} {x : Except Exc α} {a : α} : asSchedule x = .ok a ↔ x = .ok a := by
  cases x <;> simp [asSchedule, Except.mapError]

/-- A specification that compiles: a cron expression of a known zone that
`croniter` accepts, or an interval above half a second, or a calendar. -/
def ScheduleSpec.Compiles (w : CronWorld) (s : ScheduleSpec) : Prop :=
  match s.cronExpressions, s.intervals, s.calendars with
  | expr :: _, _, _ => ∃ p, parseCron w expr = .ok p
  | [], i :: _, _ => 500000 < i.every.micros
  | [], [], _ :: _ => True
  | [], [], [] => False

/-- Above a half, and only there, a positive number rounds to something. -/
theorem roundHalfEven_eq_zero {q : ℚ} (h : 0 < q) : roundHalfEven q = 0 ↔ q ≤ 1 / 2 := by
  have hfloor : 0 ≤ ⌊q⌋ := Int.floor_nonneg.2 h.le
  have hle := Int.floor_le q
  have hlt := Int.lt_floor_add_one q
  unfold roundHalfEven
  rcases hfloor.eq_or_lt with hz | hpos
  · rw [← hz]
    simp only [Int.cast_zero, sub_zero, zero_add]
    split
    · next hq => exact iff_of_true rfl hq.le
    · next hq =>
      split
      · next hq' => exact iff_of_false one_ne_zero (not_le.2 hq')
      · next hq' => exact iff_of_true rfl (not_lt.1 hq')
  · have hone : (1 : ℚ) ≤ ⌊q⌋ := by exact_mod_cast hpos
    refine iff_of_false ?_ (by linarith)
    dsimp only
    split_ifs <;> omega

theorem intervalToCron_isOk {every : Timedelta} : (∃ c, intervalToCron every = .ok c) ↔ 500000 < every.micros := by
  have hdiv : every.totalSeconds = (every.micros : ℚ) / 1000000 := rfl
  unfold intervalToCron
  split
  · next hle =>
    rw [hdiv, div_le_iff₀ (by norm_num), zero_mul] at hle
    have hint : every.micros ≤ 0 := by exact_mod_cast hle
    exact iff_of_false (by simp) (by omega)
  · next hgt =>
    have hzero := roundHalfEven_eq_zero (not_le.1 hgt)
    have hhalf : every.totalSeconds ≤ 1 / 2 ↔ every.micros ≤ 500000 := by
      rw [hdiv, div_le_iff₀ (by norm_num), show (1 : ℚ) / 2 * 1000000 = ((500000 : Int) : ℚ) by norm_num, Int.cast_le]
    rw [hhalf] at hzero
    dsimp only
    split
    · split
      · next hs => exact iff_of_false (by simp) (by omega)
      · next hs => exact iff_of_true ⟨_, rfl⟩ (by omega)
    · next hs =>
      have hbig : 500000 < every.micros := by
        by_contra hsmall
        have := hzero.2 (by omega)
        omega
      refine iff_of_true ?_ hbig
      split_ifs <;> exact ⟨_, rfl⟩

theorem compileSpec_isOk {w : CronWorld} {s : ScheduleSpec} : (∃ p, compileSpec w s = .ok p) ↔ s.Compiles w := by
  obtain ⟨calendars, intervals, cronExpressions, _, _, _, _, _⟩ := s
  cases cronExpressions with
  | cons expr _ =>
    simp only [compileSpec, ScheduleSpec.Compiles]
    rw [← asSchedule_isOk]
    cases asSchedule (parseCron w expr) with
    | error e => simp
    | ok p => exact iff_of_true ⟨_, rfl⟩ ⟨p, rfl⟩
  | nil =>
    cases intervals with
    | cons i _ =>
      simp only [compileSpec, ScheduleSpec.Compiles]
      rw [map_isOk, intervalToCron_isOk]
    | nil =>
      cases calendars with
      | cons c _ => exact iff_of_true ⟨_, rfl⟩ trivial
      | nil => exact iff_of_false (by simp [compileSpec]) (fun h => h)

/-- An action whose data can be stored: its id is admitted, its workflow
resolves, its arguments and memo encode, and its datetime attributes have a
time zone. -/
structure ScheduleActionStartWorkflow.Encodes (env : ScheduleEnv) (a : ScheduleActionStartWorkflow) : Prop where
  admitted : validateWorkflowId a.id = none
  resolves : ∀ message, a.workflow ≠ .unresolvable message
  args : ∃ ps, encodeValuesSync env.converter a.args = .ok ps
  untyped : ∀ p ∈ untypedPairs a.untypedSearchAttributes, p.Storable
  typed : ∀ p ∈ a.typedSearchAttributes.pairs, p.Storable
  memo : ∃ memo, encodeMemo env.converter.toConverter a.memo = .ok memo

/-- A schedule whose row can be created. -/
structure Schedule.Creatable (env : ScheduleEnv) (id now : String) (s : Schedule) : Prop where
  action : ∃ a, s.action = .startWorkflow a ∧ a.Encodes env
  supported : s.policy.overlap ≠ .bufferOne ∧ s.policy.overlap ≠ .bufferAll
  compiles : s.spec.Compiles env.cron
  taken : ∀ row, newRow env id now s = .ok row → env.refuses row = none

theorem requireSupportedOverlap_ok {p : OverlapPolicy} {u : Unit} :
    requireSupportedOverlap p = .ok u ↔ p ≠ .bufferOne ∧ p ≠ .bufferAll := by
  unfold requireSupportedOverlap
  split
  · next h => exact iff_of_false (by simp) (by simp only [ne_eq, ← not_or, not_not]; exact h)
  · next h => exact iff_of_true rfl (not_or.1 h)

theorem refuse_ok {m : Option String} {u : Unit} : refuse m = .ok u ↔ m = none := by
  cases m <;> simp [refuse]

theorem resolveTypeName_isOk {r : WorkflowRef} : (∃ n, resolveTypeName r = .ok n) ↔ ∀ message, r ≠ .unresolvable message := by
  cases r <;> simp [resolveTypeName]

theorem encodePairs_isOk {l : List TypedPair} :
    (∃ stored, encodeSearchAttributes (l.map TypedPair.pair) = .ok stored) ↔ ∀ p ∈ l, p.Storable := by
  simp only [encodeSearchAttributes_pairs, exists_and_left, exists_eq, and_true]

theorem encodeActionAttributes_isOk {c : Converter} {a : ScheduleActionStartWorkflow} :
    (∃ x, encodeActionAttributes c a = .ok x) ↔
      (∀ p ∈ untypedPairs a.untypedSearchAttributes, p.Storable) ∧ (∀ p ∈ a.typedSearchAttributes.pairs, p.Storable) ∧
        ∃ memo, encodeMemo c a.memo = .ok memo := by
  rw [← encodePairs_isOk, ← encodePairs_isOk]
  simp only [encodeActionAttributes, bind_eq_ok]
  constructor
  · rintro ⟨_, u, hu, t, ht, m, hm, _⟩
    exact ⟨⟨u, hu⟩, ⟨t, ht⟩, m, hm⟩
  · rintro ⟨⟨u, hu⟩, ⟨t, ht⟩, m, hm⟩
    exact ⟨_, u, hu, t, ht, m, hm, rfl⟩

theorem serializeScheduleContext_isOk {c : SyncConverter} {s : Schedule} {a : ScheduleActionStartWorkflow}
    (ha : s.action = .startWorkflow a) :
    (∃ x, serializeScheduleContext c s = .ok x) ↔
      (∀ message, a.workflow ≠ .unresolvable message) ∧ ∃ ps, encodeValuesSync c a.args = .ok ps := by
  rw [← resolveTypeName_isOk]
  simp only [serializeScheduleContext, ha, bind_eq_ok]
  constructor
  · rintro ⟨_, n, hn, ps, hps, _⟩
    exact ⟨⟨n, hn⟩, ps, hps⟩
  · rintro ⟨⟨n, hn⟩, ps, hps⟩
    exact ⟨_, n, hn, ps, hps, rfl⟩

theorem newRow_isOk {env : ScheduleEnv} {id now : String} {s : Schedule} :
    (∃ row, newRow env id now s = .ok row) ↔
      (∃ a, s.action = .startWorkflow a ∧ a.Encodes env) ∧
        (s.policy.overlap ≠ .bufferOne ∧ s.policy.overlap ≠ .bufferAll) ∧ s.spec.Compiles env.cron := by
  cases ha : s.action with
  | other => simp [newRow, ha]
  | startWorkflow a =>
    have hctx := serializeScheduleContext_isOk (c := env.converter) ha
    have hattr := encodeActionAttributes_isOk (c := env.converter.toConverter) (a := a)
    have hspec := compileSpec_isOk (w := env.cron) (s := s.spec)
    simp only [newRow, ha, bind_eq_ok, requireSupportedOverlap_ok, asSchedule_eq_ok, refuse_ok]
    constructor
    · rintro ⟨_, _, ho, _, hid, spec, hs, ctx, hc, attrs, hat, _⟩
      obtain ⟨hres, hargs⟩ := hctx.1 ⟨ctx, hc⟩
      obtain ⟨hu, ht, hm⟩ := hattr.1 ⟨attrs, hat⟩
      exact ⟨⟨a, rfl, hid, hres, hargs, hu, ht, hm⟩, ho, hspec.1 ⟨spec, hs⟩⟩
    · rintro ⟨⟨a', he, h⟩, ho, hs⟩
      cases he
      obtain ⟨spec, hs⟩ := hspec.2 hs
      obtain ⟨ctx, hc⟩ := hctx.2 ⟨h.resolves, h.args⟩
      obtain ⟨attrs, hat⟩ := hattr.2 ⟨h.untyped, h.typed, h.memo⟩
      exact ⟨_, (), ho, (), h.admitted, spec, hs, ctx, hc, attrs, hat, rfl⟩

/-! ## Replacing -/

/-- A replacement succeeds exactly on a schedule that can be created; else it
leaves no row. -/
theorem replaceSchedule_spec (env : ScheduleEnv) (id now : String) (s : Schedule) :
    (s.Creatable env id now ∧ (replaceSchedule env id now s).2 = .ok ()) ∨
      (¬ s.Creatable env id now ∧ (replaceSchedule env id now s).1 = none ∧
        ∃ e, (replaceSchedule env id now s).2 = .error e) := by
  cases hn : newRow env id now s with
  | error e =>
    have hrun : replaceSchedule env id now s = (none, .error e) := by
      simp only [replaceSchedule, createScheduleRow, hn]
    rw [hrun]
    refine .inr ⟨fun h => ?_, rfl, e, rfl⟩
    obtain ⟨row, hrow⟩ := newRow_isOk.2 ⟨h.action, h.supported, h.compiles⟩
    rw [hn] at hrow
    cases hrow
  | ok new =>
    obtain ⟨ha, ho, hs⟩ := newRow_isOk.1 ⟨new, hn⟩
    cases hr : env.refuses new with
    | some message =>
      have hrun : replaceSchedule env id now s = (none, .error (.dbosError message)) := by
        simp only [replaceSchedule, createScheduleRow, hn, hr]
      rw [hrun]
      refine .inr ⟨fun h => ?_, rfl, _, rfl⟩
      rw [h.taken new hn] at hr
      cases hr
    | none =>
      have hrun : (replaceSchedule env id now s).2 = .ok () := by
        simp only [replaceSchedule, createScheduleRow, hn, hr]
      refine .inl ⟨⟨ha, ho, hs, fun row hrow => ?_⟩, hrun⟩
      rw [hn] at hrow
      cases hrow
      exact hr

section Update

variable {env : ScheduleEnv} {id now : String} {updater : Schedule → Option Schedule} {row : ScheduleRow}

theorem updateSchedule_undescribed {e : ScheduleExc} (hd : describedSchedule env row = .error e) :
    updateSchedule env id now updater (some row) = (some row, .error e) := by
  simp only [updateSchedule, hd]

theorem updateSchedule_skipped {d : Schedule} (hd : describedSchedule env row = .ok d) (hu : updater d = none) :
    updateSchedule env id now updater (some row) = (some row, .ok ()) := by
  simp only [updateSchedule, hd, hu]

theorem updateSchedule_replaced {d s : Schedule} (hd : describedSchedule env row = .ok d) (hu : updater d = some s) :
    updateSchedule env id now updater (some row) = replaceSchedule env id now s := by
  simp only [updateSchedule, hd, hu]

end Update

/-- **An update that raises leaves the row as it was exactly when no schedule
that cannot be created came from the updater**: the row is deleted before the
new schedule is looked at. -/
theorem update_atomic_iff (env : ScheduleEnv) (id now : String) (updater : Schedule → Option Schedule) (row : ScheduleRow) :
    ((∃ e, (updateSchedule env id now updater (some row)).2 = .error e) →
        (updateSchedule env id now updater (some row)).1 = some row) ↔
      ∀ described s, describedSchedule env row = .ok described → updater described = some s → s.Creatable env id now := by
  cases hd : describedSchedule env row with
  | error e =>
    rw [updateSchedule_undescribed hd]
    simp
  | ok d =>
    cases hu : updater d with
    | none =>
      rw [updateSchedule_skipped hd hu]
      refine iff_of_true (fun _ => rfl) fun d' s hd' hs => ?_
      cases hd'
      rw [hu] at hs
      cases hs
    | some s =>
      rw [updateSchedule_replaced hd hu]
      rcases replaceSchedule_spec env id now s with ⟨hc, hok⟩ | ⟨hc, hnone, hraise⟩
      · rw [hok]
        refine iff_of_true (fun h => by simp at h) fun d' s' hd' hs => ?_
        cases hd'
        rw [hu] at hs
        cases hs
        exact hc
      · rw [hnone]
        refine iff_of_false (fun h => by cases h hraise) fun h => ?_
        exact hc (h d s rfl hu)

/-- JSON values, inlined; a `RawValue` (a list of its payload's text here)
passes through. -/
def jsonConverter : SyncConverter :=
  let toPayloads (vs : List Value) : Except String (List Payload) := vs.mapM fun
    | .obj json => .ok ⟨"\x7b\"encoding\":\"json/plain\",\"json\":" ++ json ++ "\x7d"⟩
    | .list [.str text] => .ok ⟨text⟩
    | _ => .error "Value has no known converter"
  let fromPayload (p : Payload) : Except String Value :=
    match Py.rpartition "\"json\":".toList p.text.toList with
    | some (_, rest) => .ok (.obj (.ofList rest.dropLast))
    | none => .error "Unknown payload encoding"
  { encode := toPayloads
    decode := fun ps _ => ps.mapM fromPayload
    codecEncode := .ok
    codecDecode := .ok
    decodeSync := fromPayload
    encodeSync := toPayloads }

/-- DBOS takes every row. -/
def lenientEnv : ScheduleEnv where
  converter := jsonConverter
  cron := { zone := (· = "UTC"), isValid := fun _ => true }
  refuses _ := none
  refuses_same _ := rfl

/-- A greeting at nine. -/
def nineGreeting : Schedule where
  action := .startWorkflow { workflow := .typeName "Greet", id := "greet", taskQueue := "q" }
  spec := { calendars := [{ hour := [.of 9] }] }

def nineRow : ScheduleRow where
  cron := "0 9 * * *"
  cronTimezone := none
  context := {
    action := {
      workflow := "Greet"
      args := []
      id := "greet"
      taskQueue := "q"
      executionTimeout := none
      runTimeout := none
      taskTimeout := none
      retryPolicy := none
      staticSummary := none
      staticDetails := none
      priority := none }
    spec := serializeSpec nineGreeting.spec
    policy := { overlap := 1, catchupWindow := 31536000, pauseOnFailure := false }
    state := {}
    cron := "0 9 * * *"
    createdAt := "2026-01-01T00:00:00+00:00"
    scheduleId := "s" }
  queueName := "q"

/-- An updater that asks for the overlap policy `BUFFER_ONE`, which a creation
refuses. -/
def buffering (s : Schedule) : Option Schedule := some { s with policy := { s.policy with overlap := .bufferOne } }

/-- The update raises, and the schedule is gone. -/
theorem buffering_deletes :
    ¬ ∀ (env : ScheduleEnv) (id now : String) (updater : Schedule → Option Schedule) (row : ScheduleRow),
      (∃ e, (updateSchedule env id now updater (some row)).2 = .error e) →
        (updateSchedule env id now updater (some row)).1 = some row := by
  intro h
  have hrun : updateSchedule lenientEnv "s" "2026-01-02T00:00:00+00:00" buffering (some nineRow) =
      (none, .error (.notImplementedError
        "dbosify does not support ScheduleOverlapPolicy.BUFFER_ONE / BUFFER_ALL; use SKIP, CANCEL_OTHER, TERMINATE_OTHER, or ALLOW_ALL")) :=
    rfl
  have hrow := h lenientEnv "s" "2026-01-02T00:00:00+00:00" buffering nineRow ⟨_, congrArg Prod.snd hrun⟩
  rw [hrun] at hrow
  cases hrow

end Dbosify
