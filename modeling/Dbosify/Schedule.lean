/-
Schedules: their types, what is stored of one, and the cron expression one is
compiled to (`_schedule.py`, `_internal/schedules.py`).

A schedule is stored as the context of its row, a dict of plain data, and
rebuilt from it for a description. Durations are stored in seconds, datetimes
by their `isoformat`, arguments and memo as payloads.
-/
import Dbosify.ScheduleFire
import Dbosify.SearchAttributes
import Dbosify.Strings
import Dbosify.SyncConversion

namespace Dbosify

/-- What a schedule call can raise, apart from what `Exc` lists. -/
inductive ScheduleExc
  | raised (e : Exc)
  | notImplementedError (message : String)
  | zeroDivisionError (message : String)
  /-- What DBOS raises. -/
  | dbosError (message : String)
deriving DecidableEq, Repr

def asSchedule {α : Type} (x : Except Exc α) : Except ScheduleExc α := x.mapError .raised

/-! ## Specifications -/

/-- `ScheduleRange`, as its `__post_init__` leaves it; `stop` is its `end`. -/
structure ScheduleRange where
  start : Int
  stop : Int
  step : Int
  start_le : start ≤ stop
  step_ne : step ≠ 0
deriving DecidableEq, Repr

/-- `ScheduleRange(start, end, step)`: the end defaults to the start, the step
to 1. -/
def ScheduleRange.of (start : Int) (stop step : Int := 0) : ScheduleRange where
  start
  stop := if stop < start then start else stop
  step := if step = 0 then 1 else step
  start_le := by split <;> omega
  step_ne := by split <;> omega

@[simp] theorem ScheduleRange.of_fields (r : ScheduleRange) : of r.start r.stop r.step = r := by
  obtain ⟨start, stop, step, hle, hne⟩ := r
  simp only [of, ScheduleRange.mk.injEq, true_and]
  exact ⟨if_neg (by omega), if_neg hne⟩

structure ScheduleCalendarSpec where
  second : List ScheduleRange := [.of 0]
  minute : List ScheduleRange := [.of 0]
  hour : List ScheduleRange := [.of 0]
  dayOfMonth : List ScheduleRange := [.of 1 31]
  month : List ScheduleRange := [.of 1 12]
  year : List ScheduleRange := []
  dayOfWeek : List ScheduleRange := [.of 0 6]
  comment : Option String := none

structure ScheduleIntervalSpec where
  every : Timedelta
  offset : Option Timedelta := none

/-- A `datetime`, by its `isoformat`: `fromisoformat` reads each one back. -/
structure Datetime where
  iso : String
  iso_ne : iso ≠ ""

structure ScheduleSpec where
  calendars : List ScheduleCalendarSpec := []
  intervals : List ScheduleIntervalSpec := []
  cronExpressions : List String := []
  skip : List ScheduleCalendarSpec := []
  startAt : Option Datetime := none
  endAt : Option Datetime := none
  jitter : Option Timedelta := none
  timeZoneName : Option String := none

/-- The value of a `ScheduleOverlapPolicy`. -/
def OverlapPolicy.value : OverlapPolicy → Nat
  | skip => 1
  | bufferOne => 2
  | bufferAll => 3
  | cancelOther => 4
  | terminateOther => 5
  | allowAll => 6

/-- `ScheduleOverlapPolicy(value)`. -/
def OverlapPolicy.ofValue (n : Nat) : Except Exc OverlapPolicy :=
  match [skip, bufferOne, bufferAll, cancelOther, terminateOther, allowAll].find? (·.value = n) with
  | some p => .ok p
  | none => .error (.valueError (toString n ++ " is not a valid ScheduleOverlapPolicy"))

@[simp] theorem OverlapPolicy.ofValue_value (p : OverlapPolicy) : ofValue p.value = .ok p := by
  cases p <;> rfl

structure SchedulePolicy where
  overlap : OverlapPolicy := .skip
  catchupWindow : Timedelta := ⟨365 * 86400 * 1000000⟩
  pauseOnFailure : Bool := false

structure ScheduleState where
  note : Option String := none
  paused : Bool := false
  limitedActions : Bool := false
  remainingActions : Int := 0

/-! ## Actions -/

/-- `common.Priority`, as its `__post_init__` admits it. -/
structure Priority where
  priorityKey : Option Int := none
  fairnessKey : Option String := none
  fairnessWeight : Option ℚ := none
  key_pos : ∀ k ∈ priorityKey, 1 ≤ k

/-- What an action names its workflow by: the type name, a class or run method
that carries it, or something that does not. -/
inductive WorkflowRef
  | typeName (name : String)
  | defined (name : String)
  | unresolvable (message : String)
deriving DecidableEq, Repr

structure ScheduleActionStartWorkflow where
  workflow : WorkflowRef
  args : List Value := []
  id : String
  taskQueue : String
  executionTimeout : Option Timedelta := none
  runTimeout : Option Timedelta := none
  taskTimeout : Option Timedelta := none
  retryPolicy : Option RetryPolicy := none
  /-- No memo and an empty one are one. -/
  memo : List (String × Value) := []
  typedSearchAttributes : TypedSearchAttributes := .empty
  untypedSearchAttributes : UntypedAttributes := .empty
  staticSummary : Option String := none
  staticDetails : Option String := none
  /-- Anything but a `Priority` counts as none. -/
  priority : Option Priority := none

/-- `ScheduleAction`: the one kind there is, or a subclass of the caller's. -/
inductive ScheduleAction
  | startWorkflow (a : ScheduleActionStartWorkflow)
  | other

structure Schedule where
  action : ScheduleAction
  spec : ScheduleSpec
  policy : SchedulePolicy := {}
  state : ScheduleState := {}

/-! ## What is stored -/

abbrev StoredRange := Int × Int × Int

structure StoredCalendar where
  second : List StoredRange
  minute : List StoredRange
  hour : List StoredRange
  dayOfMonth : List StoredRange
  month : List StoredRange
  year : List StoredRange
  dayOfWeek : List StoredRange
  comment : Option String
deriving DecidableEq, Repr

structure StoredInterval where
  every : Seconds
  offset : Option Seconds
deriving DecidableEq, Repr

structure StoredSpec where
  intervals : List StoredInterval
  calendars : List StoredCalendar
  cronExpressions : List String
  skip : List StoredCalendar
  startAt : Option String
  endAt : Option String
  jitter : Option Seconds
  timeZoneName : Option String
deriving DecidableEq, Repr

structure StoredPriority where
  priorityKey : Option Int
  fairnessKey : Option String
  fairnessWeight : Option ℚ
deriving DecidableEq, Repr

structure StoredAction where
  workflow : String
  args : List Payload
  id : String
  taskQueue : String
  executionTimeout : Option Seconds
  runTimeout : Option Seconds
  taskTimeout : Option Seconds
  retryPolicy : Option SerializedRetryPolicy
  staticSummary : Option String
  staticDetails : Option String
  priority : Option StoredPriority
  attributes : Option Attributes := none
deriving DecidableEq

structure StoredPolicy where
  overlap : Nat
  catchupWindow : Seconds
  pauseOnFailure : Bool
deriving DecidableEq, Repr

/-- The four parts that `serialize_schedule_context` makes. -/
structure StoredSchedule where
  action : StoredAction
  spec : StoredSpec
  policy : StoredPolicy
  state : ScheduleState

/-! ## Specifications, stored and rebuilt -/

def storedRanges (rs : List ScheduleRange) : List StoredRange := rs.map fun r => (r.start, r.stop, r.step)

def rangesOf (rs : List StoredRange) : List ScheduleRange := rs.map fun r => .of r.1 r.2.1 r.2.2

@[simp] theorem rangesOf_storedRanges (rs : List ScheduleRange) : rangesOf (storedRanges rs) = rs := by
  simp only [rangesOf, storedRanges, List.map_map, Function.comp_def, ScheduleRange.of_fields, List.map_id']

/-- `_serialize_calendar`. -/
def serializeCalendar (c : ScheduleCalendarSpec) : StoredCalendar where
  second := storedRanges c.second
  minute := storedRanges c.minute
  hour := storedRanges c.hour
  dayOfMonth := storedRanges c.dayOfMonth
  month := storedRanges c.month
  year := storedRanges c.year
  dayOfWeek := storedRanges c.dayOfWeek
  comment := c.comment

/-- `_deserialize_calendar`. -/
def deserializeCalendar (d : StoredCalendar) : ScheduleCalendarSpec where
  second := rangesOf d.second
  minute := rangesOf d.minute
  hour := rangesOf d.hour
  dayOfMonth := rangesOf d.dayOfMonth
  month := rangesOf d.month
  year := rangesOf d.year
  dayOfWeek := rangesOf d.dayOfWeek
  comment := d.comment

@[simp] theorem deserialize_serializeCalendar (c : ScheduleCalendarSpec) :
    deserializeCalendar (serializeCalendar c) = c := by
  simp only [serializeCalendar, deserializeCalendar, rangesOf_storedRanges]

/-- `_parse_dt`. -/
def parseDatetime (value : Option String) : Option Datetime :=
  value.bind fun iso => if h : iso ≠ "" then some ⟨iso, h⟩ else none

@[simp] theorem parseDatetime_iso (d : Option Datetime) : parseDatetime (d.map (·.iso)) = d := by
  cases d with
  | none => rfl
  | some d => exact dif_pos d.iso_ne

/-- `_secs`. -/
def storedSeconds (d : Option Timedelta) : Option Seconds := d.map (·.totalSeconds)

/-- `_td`. -/
def timedeltaOf (s : Option Seconds) : Option Timedelta := s.map .ofSeconds

@[simp] theorem timedeltaOf_storedSeconds (d : Option Timedelta) : timedeltaOf (storedSeconds d) = d := by
  cases d <;> simp [timedeltaOf, storedSeconds]

/-- `_serialize_spec`. -/
def serializeSpec (s : ScheduleSpec) : StoredSpec where
  intervals := s.intervals.map fun i => { every := i.every.totalSeconds, offset := storedSeconds i.offset }
  calendars := s.calendars.map serializeCalendar
  cronExpressions := s.cronExpressions
  skip := s.skip.map serializeCalendar
  startAt := s.startAt.map (·.iso)
  endAt := s.endAt.map (·.iso)
  jitter := storedSeconds s.jitter
  timeZoneName := s.timeZoneName

/-- `_deserialize_spec`. -/
def deserializeSpec (d : StoredSpec) : ScheduleSpec where
  calendars := d.calendars.map deserializeCalendar
  intervals := d.intervals.map fun i => { every := .ofSeconds i.every, offset := timedeltaOf i.offset }
  cronExpressions := d.cronExpressions
  skip := d.skip.map deserializeCalendar
  startAt := parseDatetime d.startAt
  endAt := parseDatetime d.endAt
  jitter := timedeltaOf d.jitter
  timeZoneName := d.timeZoneName

/-- A specification survives its storage, whatever it is made of. -/
@[simp] theorem deserialize_serializeSpec (s : ScheduleSpec) : deserializeSpec (serializeSpec s) = s := by
  simp only [serializeSpec, deserializeSpec, List.map_map, Function.comp_def, deserialize_serializeCalendar, List.map_id',
    Timedelta.ofSeconds_totalSeconds, timedeltaOf_storedSeconds, parseDatetime_iso]

/-- `_serialize_priority`. -/
def serializePriority (p : Priority) : StoredPriority :=
  { priorityKey := p.priorityKey, fairnessKey := p.fairnessKey, fairnessWeight := p.fairnessWeight }

/-- `_deserialize_priority`. -/
def deserializePriority (raw : StoredPriority) : Except Exc Priority :=
  if h : ∀ k ∈ raw.priorityKey, 1 ≤ k then
    .ok {
      priorityKey := raw.priorityKey
      fairnessKey := raw.fairnessKey
      fairnessWeight := raw.fairnessWeight
      key_pos := h }
  else .error (.valueError "priority_key must be a positive integer")

@[simp] theorem deserialize_serializePriority (p : Priority) : deserializePriority (serializePriority p) = .ok p :=
  dif_pos p.key_pos

/-! ## The stored context -/

/-- `_resolve_type_name`. -/
def resolveTypeName : WorkflowRef → Except Exc String
  | .typeName name | .defined name => .ok name
  | .unresolvable message => .error (.typeError message)

/-- `serialize_schedule_context`, of a start-workflow action. -/
def serializeScheduleContext (c : SyncConverter) (s : Schedule) : Except Exc StoredSchedule :=
  match s.action with
  | .other => .error (.typeError "dbosify schedules support ScheduleActionStartWorkflow only")
  | .startWorkflow a => do
    let workflow ← resolveTypeName a.workflow
    let args ← encodeValuesSync c a.args
    .ok {
      action := {
        workflow
        args
        id := a.id
        taskQueue := a.taskQueue
        executionTimeout := storedSeconds a.executionTimeout
        runTimeout := storedSeconds a.runTimeout
        taskTimeout := storedSeconds a.taskTimeout
        retryPolicy := a.retryPolicy.map serializeRetryPolicy
        staticSummary := a.staticSummary
        staticDetails := a.staticDetails
        priority := a.priority.map serializePriority }
      spec := serializeSpec s.spec
      policy := {
        overlap := s.policy.overlap.value
        catchupWindow := s.policy.catchupWindow.totalSeconds
        pauseOnFailure := s.policy.pauseOnFailure }
      state := s.state }

/-- `encode_action_attributes`: typed attributes win over untyped ones of their
name. -/
def encodeActionAttributes (c : Converter) (a : ScheduleActionStartWorkflow) : Except Exc (Option Attributes) := do
  let untyped ← encodeSearchAttributes ((untypedPairs a.untypedSearchAttributes).map TypedPair.pair)
  let typed ← encodeSearchAttributes (a.typedSearchAttributes.pairs.map TypedPair.pair)
  let searchAttributes := (Py.Dict.ofEntries (untyped ++ typed)).entries
  let memo ← encodeMemo c a.memo
  .ok (if memo.isEmpty && searchAttributes.isEmpty then none else some { memo, searchAttributes })

/-- `attributes.decode_memo`. -/
def decodeMemo (c : Converter) (stored : List (String × Payload)) : Except Exc (List (String × Value)) :=
  stored.mapM fun kp => (decodeValue c kp.2 none).map (kp.1, ·)

/-- `attributes.decode_attributes`. -/
def decodeAttributes (c : Converter) : Option Attributes → Except Exc (List (String × Value) × TypedSearchAttributes)
  | none => .ok ([], .empty)
  | some a => do
    let memo ← decodeMemo c a.memo
    let typed ← decodeSearchAttributes a.searchAttributes
    .ok (memo, typed)

/-- `_action_from_context`. -/
def actionFromContext (c : SyncConverter) (a : StoredAction) : Except Exc ScheduleActionStartWorkflow := do
  let (memo, typed) ← decodeAttributes c.toConverter a.attributes
  let args ← a.args.mapM (decodeValueSync c.toConverter)
  let priority ← a.priority.mapM deserializePriority
  .ok {
    workflow := .typeName a.workflow
    args
    id := a.id
    taskQueue := a.taskQueue
    executionTimeout := timedeltaOf a.executionTimeout
    runTimeout := timedeltaOf a.runTimeout
    taskTimeout := timedeltaOf a.taskTimeout
    retryPolicy := a.retryPolicy.map deserializeRetryPolicy
    memo
    typedSearchAttributes := typed
    staticSummary := a.staticSummary
    staticDetails := a.staticDetails
    priority }

/-- `_schedule_from_context`. -/
def scheduleFromContext (c : SyncConverter) (x : StoredSchedule) : Except Exc Schedule := do
  let action ← actionFromContext c x.action
  let overlap ← OverlapPolicy.ofValue x.policy.overlap
  .ok {
    action := .startWorkflow action
    spec := deserializeSpec x.spec
    policy := { overlap, catchupWindow := .ofSeconds x.policy.catchupWindow, pauseOnFailure := x.policy.pauseOnFailure }
    state := x.state }

/-! ## Cron -/

/-- What is known outside of time zones and of cron expressions: the zones
`ZoneInfo` finds, and the expressions `croniter` accepts. -/
structure CronWorld where
  zone : String → Bool
  isValid : String → Bool

/-- The end of `parse_cron`, its prefix taken off. -/
def checkCron (w : CronWorld) (expr : List Char) (tz : String) : Except Exc (String × String) :=
  if w.isValid (.ofList expr) then .ok (.ofList expr, tz)
  else .error (.valueError ("Invalid cron schedule: '" ++ .ofList expr ++ "'"))

/-- `schedules.parse_cron`: the expression, and the name of its zone. -/
def parseCron (w : CronWorld) (expr : String) : Except Exc (String × String) :=
  let expr := Py.strip expr.toList
  match ["CRON_TZ=", "TZ="].find? fun p => p.toList.isPrefixOf expr with
  | none => checkCron w expr "UTC"
  | some p =>
    let (tzName, rest) := Py.partition ' ' (expr.drop p.toList.length)
    if w.zone (.ofList tzName) then checkCron w (Py.strip rest) (.ofList tzName)
    else .error (.valueError ("Unknown timezone in cron schedule: '" ++ .ofList tzName ++ "'"))

/-- `schedules.interval_to_cron`. An offset is dropped. -/
def intervalToCron (every : Timedelta) : Except ScheduleExc String :=
  if every.totalSeconds ≤ 0 then .error (.raised (.valueError "ScheduleIntervalSpec.every must be positive"))
  else
    let secs := roundHalfEven every.totalSeconds
    let mins := secs / 60
    let hours := secs / 3600
    if secs < 60 then
      -- `60 % secs`, before the expression is made
      if secs = 0 then .error (.zeroDivisionError "integer modulo by zero")
      else .ok ("*/" ++ toString secs ++ " * * * * *")
    else if secs % 60 = 0 ∧ mins = 60 then .ok "0 * * * *"
    else if secs % 60 = 0 ∧ mins < 60 ∧ 60 % mins = 0 then .ok ("*/" ++ toString mins ++ " * * * *")
    else if secs % 3600 = 0 ∧ hours = 24 then .ok "0 0 * * *"
    else if secs % 3600 = 0 ∧ hours < 24 ∧ 24 % hours = 0 then .ok ("0 */" ++ toString hours ++ " * * *")
    else if secs % 86400 = 0 then .ok ("0 0 */" ++ toString (min (secs / 86400) 31) ++ " * *")
    else
      let approx := max 1 (roundHalfEven ((secs : ℚ) / 60))
      .ok (if approx < 60 then "*/" ++ toString approx ++ " * * * *" else "0 * * * *")

/-- One range of a calendar field, as a cron token. -/
def rangeToken (r : ScheduleRange) (domainLo domainHi : Int) : String :=
  let step := if 0 < r.step then r.step else 1
  if r.start ≤ domainLo ∧ domainHi ≤ r.stop ∧ step = 1 then "*"
  else if r.start = r.stop then toString r.start
  else if step = 1 then toString r.start ++ "-" ++ toString r.stop
  else toString r.start ++ "-" ++ toString r.stop ++ "/" ++ toString step

/-- `schedules._ranges_to_field`. -/
def rangesToField (rs : List ScheduleRange) (domainLo domainHi : Int) : String :=
  let tokens := rs.map (rangeToken · domainLo domainHi)
  if rs.isEmpty then "*" else if "*" ∈ tokens then "*" else ",".intercalate tokens

/-- `schedules.calendar_to_cron`; the years are dropped. -/
def calendarToCron (c : ScheduleCalendarSpec) : String :=
  let second := rangesToField c.second 0 59
  let fields := [rangesToField c.minute 0 59, rangesToField c.hour 0 23, rangesToField c.dayOfMonth 1 31,
    rangesToField c.month 1 12, rangesToField c.dayOfWeek 0 6]
  if second ≠ "0" then " ".intercalate (second :: fields) else " ".intercalate fields

/-- `compile_spec`: the first cron expression, else the first interval, else
the first calendar, with the name of the time zone. -/
def compileSpec (w : CronWorld) (s : ScheduleSpec) : Except ScheduleExc (String × Option String) :=
  match s.cronExpressions, s.intervals, s.calendars with
  | expr :: _, _, _ => do
    let (fields, tz) ← asSchedule (parseCron w expr)
    let own := s.timeZoneName.filter (· ≠ "")
    .ok (fields, if own.isSome then own else if tz = "UTC" then none else some tz)
  | [], i :: _, _ => (intervalToCron i.every).map (·, s.timeZoneName)
  | [], [], c :: _ => .ok (calendarToCron c, s.timeZoneName)
  | [], [], [] => .error (.raised (.valueError "ScheduleSpec must specify intervals, calendars, or cron"))

/-- Half a second rounds to none. -/
example : (intervalToCron ⟨500000⟩).toOption = none ∧ (intervalToCron ⟨90000000⟩).toOption = some "*/2 * * * *" := by
  decide +kernel

end Dbosify
