/-
The result of a chain.

`WorkflowHandle.result` awaits a run, and where the run closed for a next one
to go on it awaits that one; the step a parent records for its child does the
same. Meanwhile the chain goes on: its last run enqueues a next one, then
closes and names it. Both come out at the first run that closed without naming
a next one, and there they agree (`result_follows`).
-/
import Dbosify.ChainResolution
import Dbosify.Conversions
import Dbosify.Redirects

namespace Dbosify

open Redirects

/-! ## What a run leaves -/

/-- What DBOS holds of a run that is over. -/
inductive Stored
  | output (p : Payload)
  /-- `SerializedContinueAsNew`. -/
  | continuedAsNew (newRunId : String)
  /-- `SerializedWorkflowFailure`, with the retry or the cron run that follows. -/
  | failure (f : FailureEnvelope) (newRunId : Option String)
  /-- `SerializedWorkflowCancellation`. -/
  | cancellation (f : FailureEnvelope)
  /-- A native cancel: `DBOSAwaitedWorkflowCancelledError`. -/
  | terminated
  /-- Any other exception, by its class and its text. -/
  | error (type message : String)

/-- The run that goes on from it. A completed run of a cron chain names none. -/
def Stored.newRunId : Stored → Option String
  | continuedAsNew n => some n
  | failure _ n => n
  | output _ | cancellation _ | terminated | error _ _ => none

/-- What a closed run leaves: a failed run names the next run of its chain if
it has enqueued one, and an exception keeps its text alone. -/
def Dispatch.stored (d : Dispatch) (x : Execution) (env : Env) (c : Config) : Option Stored :=
  match d.ends x env c with
  | .running | .retried _ => none
  | .returned p => some (.output p)
  | .failed f =>
    match d.next c.interp with
    | .ok (some _) => some (.failure f (some (Interp.nextRunId x)))
    | .ok none | .error _ => some (.failure f none)
  | .cancelled f => some (.cancellation f)
  | .continuedAsNew n => some (.continuedAsNew n)
  | .escaped e => some (.error "Exception" e.serialize.message)

theorem beginContinueAsNew_id {x : Execution} {env : Env} {s s' : Interp} {can : ContinueAsNew} {n : String}
    (h : s.beginContinueAsNew x env can = .ok (n, s')) : n = Interp.nextRunId x := by
  unfold Interp.beginContinueAsNew at h
  dsimp only at h
  split at h
  · cases h
  · simp only [bind_eq_ok] at h
    obtain ⟨_, -, _, -, _, -, h⟩ := h
    split at h
    · cases h
    · cases h; rfl

theorem closesAsNew_id {x : Execution} {env : Env} {s : Interp} {n : String} (h : s.closesAsNew x env = .ok (some n)) :
    n = Interp.nextRunId x := by
  unfold Interp.closesAsNew at h
  split at h
  · split at h
    · cases h
    · split at h
      · next hb =>
        cases h
        exact beginContinueAsNew_id hb
      · cases h
  · cases h

/-- A run names the next run of its own chain, or none. -/
theorem Dispatch.stored_names {d : Dispatch} {x : Execution} {env : Env} {c : Config} {e : Stored} {n : String}
    (h : d.stored x env c = some e) (hn : e.newRunId = some n) : n = runDbosId x.base (x.runIndex + 1) := by
  unfold stored at h
  split at h
  · cases h
  · cases h
  · cases h; cases hn
  · split at h <;> cases h <;> cases hn
    rfl
  · cases h; cases hn
  · next m hends =>
    cases h
    cases hn
    unfold ends at hends
    -- Of all the ends, only that of a continue-as-new is one.
    repeat' split at hends
    all_goals cases hends
    next hcloses => exact closesAsNew_id hcloses
  · cases h; cases hn

/-- `exceptions.TerminatedError(message)`. -/
def terminatedError (message : String) : FailureError := { info := .terminatedError [], message }

/-- `exceptions.ApplicationError(message, type=type)`. -/
def applicationError (type message : String) : FailureError :=
  { info := .applicationError (some type) [] false .unspecified none, message }

/-! ## The client's wait -/

inductive ResultExc
  /-- `WorkflowFailureError`, by its cause. -/
  | workflowFailure (cause : FailureError)
  | workflowContinuedAsNew (newRunId : String)
  /-- Raised while an envelope is read. -/
  | raised (e : Exc)

/-- `ApplicationError(str(err), type=type(err).__name__)`. -/
def Exc.application (e : Exc) : FailureError := applicationError (e.serialize.type.getD "Exception") e.serialize.message

/-- A result that does not decode is a failure of the workflow, too. -/
def clientOutput (c : Converter) (hint : Option Hint) (p : Payload) : Except ResultExc Value :=
  (decodeValue c p hint).mapError fun e => .workflowFailure e.application

def clientFailure (c : Converter) (f : FailureEnvelope) : Except ResultExc Value :=
  match deserializeFailure c f with
  | .ok cause => .error (.workflowFailure cause)
  | .error e => .error (.raised e)

/-- What `WorkflowHandle.result` makes of a run that is over: the run it
awaits next, or its own end. -/
def resultStep (c : Converter) (hint : Option Hint) (followRuns : Bool) : Stored → String ⊕ Except ResultExc Value
  | .output p => .inr (clientOutput c hint p)
  | .continuedAsNew n => if followRuns then .inl n else .inr (.error (.workflowContinuedAsNew n))
  | .failure f newRunId =>
    match followRuns, newRunId with
    | true, some n => .inl n
    | _, _ => .inr (clientFailure c f)
  | .cancellation f => .inr (clientFailure c f)
  | .terminated => .inr (.error (.workflowFailure (terminatedError "Workflow terminated")))
  | .error type message => .inr (.error (.workflowFailure (applicationError type message)))

/-! ## The parent's wait -/

/-- What `child_result_step` makes of a run that is over: the run it awaits
next, or what it records. -/
def childResultStep : Stored → String ⊕ (Payload ⊕ FailureEnvelope)
  | .output p => .inr (.inl p)
  | .continuedAsNew n => .inl n
  | .failure f newRunId =>
    match newRunId with
    | some n => .inl n
    | none => .inr (.inr f)
  | .cancellation f => .inr (.inr f)
  | .terminated => .inr (.inr { info := .terminatedError [], message := "Child workflow terminated" })
  | .error type message =>
    .inr (.inr { info := .applicationError (some type) [] false .unspecified none, message })

/-! ## The chain -/

/-- The rows of a chain, by run index: open, or over. -/
abbrev StoredRuns := List (Option Stored)

inductive StoredEvent
  /-- The last run, open, enqueues the next one. -/
  | hop
  /-- An open run is over. -/
  | close (run : Nat) (e : Stored)

/-- Run `k` is there, and not over. -/
def StoredRuns.openAt (rows : StoredRuns) (k : Nat) : Bool := rows[k]?.any Option.isNone

/-- Run `k` may name the run that it has enqueued. -/
def StoredRuns.names (base : String) (rows : StoredRuns) (k : Nat) (e : Stored) : Bool :=
  e.newRunId.all fun n => n = runDbosId base (k + 1) && k + 1 < rows.length

def StoredRuns.step (base : String) (rows : StoredRuns) : StoredEvent → Option StoredRuns
  | .hop => if rows.openAt (rows.length - 1) then some (rows ++ [none]) else none
  | .close k e => if rows.openAt k && rows.names base k e then some (rows.set k (some e)) else none

/-- A chain from its start, at instants. -/
structure StoredHistory (base : String) where
  rows : Nat → StoredRuns
  starts : rows 0 = [none]
  steps : ∀ t, rows (t + 1) = rows t ∨ ∃ e, (rows t).step base e = some (rows (t + 1))

/-- The row of a run id. -/
def StoredRuns.row (base : String) (rows : StoredRuns) (id : String) : Option Stored :=
  ((List.range rows.length).find? (runDbosId base · = id)).bind fun k => rows[k]?.join

/-- The rows, as one who awaits a run reads them. -/
def StoredRuns.table {β : Type} (base : String) (read : Stored → String ⊕ β) (rows : StoredRuns) : Table String β :=
  fun id => (rows.row base id).map read

/-- The first run from run `i` on that is over without naming a next one. -/
def StoredRuns.EndsWith (base : String) (rows : StoredRuns) (i j : Nat) (e : Stored) : Prop :=
  i ≤ j ∧ rows[j]? = some (some e) ∧ e.newRunId = none ∧
    ∀ m, i ≤ m → m < j → ∃ e', rows[m]? = some (some e') ∧ e'.newRunId = some (runDbosId base (m + 1))

namespace StoredRuns

variable {base : String} {rows rows' : StoredRuns} {i j k : Nat} {e : Stored}

theorem openAt_iff : rows.openAt k = true ↔ rows[k]? = some none := by
  unfold openAt
  cases rows[k]? with
  | none => simp
  | some r => cases r <;> simp

theorem row_runDbosId (base : String) (rows : StoredRuns) (k : Nat) : rows.row base (runDbosId base k) = rows[k]?.join := by
  unfold row
  by_cases hk : k < rows.length
  · have hfind : (List.range rows.length).find? (runDbosId base · = runDbosId base k) = some k := by
      rw [List.find?_eq_some_iff_getElem]
      refine ⟨by simp, k, by simpa using hk, by simp, fun j hj => ?_⟩
      simp only [List.getElem_range, Bool.not_eq_true', decide_eq_false_iff_not]
      exact fun h => absurd (runDbosId_injective base h) (by omega)
    rw [hfind]
    rfl
  · have hnone : rows[k]? = none := List.getElem?_eq_none (by omega)
    have hfind : (List.range rows.length).find? (runDbosId base · = runDbosId base k) = none := by
      rw [List.find?_eq_none]
      intro j hj h
      rw [runDbosId_injective base (of_decide_eq_true h), List.mem_range] at hj
      exact hk hj
    rw [hfind, hnone]
    rfl

/-- A run that is over names the next one, which exists. -/
def Lawful (base : String) (rows : StoredRuns) : Prop :=
  ∀ (k : Nat) (e : Stored) (n : String), rows[k]? = some (some e) → e.newRunId = some n → n = runDbosId base (k + 1) ∧ k + 1 < rows.length

/-- What is over stays as it is. -/
def Keeps (rows rows' : StoredRuns) : Prop := ∀ (k : Nat) (e : Stored), rows[k]? = some (some e) → rows'[k]? = some (some e)

theorem step_keeps {ev : StoredEvent} (h : rows.step base ev = some rows') : rows.Keeps rows' := by
  intro k e hk
  cases ev with
  | hop =>
    simp only [step, Option.ite_none_right_eq_some] at h
    obtain ⟨-, h⟩ := h
    cases h
    rw [List.getElem?_append_left (List.getElem?_eq_some_iff.1 hk).1, hk]
  | close k' e' =>
    simp only [step, Option.ite_none_right_eq_some] at h
    obtain ⟨hg, h⟩ := h
    cases h
    have hopen := openAt_iff.1 (Bool.and_eq_true_iff.1 hg).1
    have hne : k' ≠ k := fun heq => by rw [heq, hk] at hopen; cases hopen
    rw [List.getElem?_set_ne hne, hk]

theorem step_lawful {ev : StoredEvent} (hl : rows.Lawful base) (h : rows.step base ev = some rows') :
    rows'.Lawful base := by
  intro k e n hk hn
  cases ev with
  | hop =>
    simp only [step, Option.ite_none_right_eq_some] at h
    obtain ⟨-, h⟩ := h
    cases h
    by_cases hlt : k < rows.length
    · rw [List.getElem?_append_left hlt] at hk
      obtain ⟨hid, hex⟩ := hl k e n hk hn
      exact ⟨hid, by rw [List.length_append]; omega⟩
    · rw [List.getElem?_append_right (by omega)] at hk
      obtain ⟨hi, hk⟩ := List.getElem?_eq_some_iff.1 hk
      simp at hk
  | close k' e' =>
    simp only [step, Option.ite_none_right_eq_some] at h
    obtain ⟨hg, h⟩ := h
    cases h
    obtain ⟨hopen, hnames⟩ := Bool.and_eq_true_iff.1 hg
    rw [openAt_iff] at hopen
    rw [List.length_set]
    by_cases heq : k' = k
    · subst heq
      rw [List.getElem?_set_self (List.getElem?_eq_some_iff.1 hopen).1] at hk
      cases hk
      simpa [names, hn] using hnames
    · rw [List.getElem?_set_ne heq] at hk
      exact hl k e n hk hn

/-- A reading that goes to the next run where one is named, and ends where
none is. -/
structure Redirecting {β : Type} (read : Stored → String ⊕ β) : Prop where
  goes : ∀ e n, e.newRunId = some n → read e = .inl n
  ends : ∀ e, e.newRunId = none → ∃ b, read e = .inr b

variable {β : Type} {read : Stored → String ⊕ β}

theorem Redirecting.of_inl (h : Redirecting read) {n : String} (hr : read e = .inl n) : e.newRunId = some n := by
  cases he : e.newRunId with
  | none =>
    obtain ⟨b, hb⟩ := h.ends e he
    rw [hr] at hb
    cases hb
  | some m =>
    rw [h.goes e m he] at hr
    cases hr
    rfl

theorem Redirecting.of_inr (h : Redirecting read) {b : β} (hr : read e = .inr b) : e.newRunId = none := by
  cases he : e.newRunId with
  | none => rfl
  | some m =>
    rw [h.goes e m he] at hr
    cases hr

theorem table_eq_some {r : String ⊕ β} :
    rows.table base read (runDbosId base k) = some r ↔ ∃ e, rows[k]? = some (some e) ∧ read e = r := by
  rw [table, row_runDbosId, Option.map_eq_some_iff]
  simp only [Option.join_eq_some_iff]

theorem endsWith_self : rows.EndsWith base i i e ↔ rows[i]? = some (some e) ∧ e.newRunId = none :=
  ⟨fun h => ⟨h.2.1, h.2.2.1⟩, fun h => ⟨le_rfl, h.1, h.2, fun m hi hm => by omega⟩⟩

theorem endsWith_next (hij : i < j) : rows.EndsWith base i j e ↔
    (∃ e', rows[i]? = some (some e') ∧ e'.newRunId = some (runDbosId base (i + 1))) ∧ rows.EndsWith base (i + 1) j e := by
  constructor
  · rintro ⟨-, hj, hn, hpath⟩
    exact ⟨hpath i le_rfl hij, hij, hj, hn, fun m hi hm => hpath m (by omega) hm⟩
  · rintro ⟨hi, -, hj, hn, hpath⟩
    refine ⟨by omega, hj, hn, fun m him hm => ?_⟩
    by_cases heq : m = i
    · exact heq ▸ hi
    · exact hpath m (by omega) hm

/-- What a reading leads to is the end of the first run that names no next
one. -/
theorem leads_iff (hl : rows.Lawful base) (hread : Redirecting read) {d : Nat} {b : β} :
    Leads (rows.table base read) d (runDbosId base i) b ↔ ∃ e, rows.EndsWith base i (i + d) e ∧ read e = .inr b := by
  induction d generalizing i with
  | zero =>
    simp only [Nat.add_zero, endsWith_self]
    constructor
    · intro h
      cases h with
      | value h =>
        obtain ⟨e, he, hb⟩ := table_eq_some.1 h
        exact ⟨e, ⟨he, hread.of_inr hb⟩, hb⟩
    · rintro ⟨e, ⟨he, -⟩, hb⟩
      exact .value (table_eq_some.2 ⟨e, he, hb⟩)
  | succ d ih =>
    rw [show i + (d + 1) = i + 1 + d by omega]
    constructor
    · intro h
      cases h with
      | next h htail =>
        obtain ⟨e', he', hb⟩ := table_eq_some.1 h
        have hn := hread.of_inl hb
        obtain ⟨rfl, -⟩ := hl i e' _ he' hn
        obtain ⟨e, hends, hr⟩ := ih.1 htail
        exact ⟨e, (endsWith_next (by omega)).2 ⟨⟨e', he', hn⟩, hends⟩, hr⟩
    · rintro ⟨e, hends, hb⟩
      obtain ⟨⟨e', he', hn⟩, htail⟩ := (endsWith_next (by omega)).1 hends
      exact .next (table_eq_some.2 ⟨e', he', hread.goes e' _ hn⟩) (ih.2 ⟨e, htail, hb⟩)

theorem EndsWith.unique {j' : Nat} {e' : Stored} (h : rows.EndsWith base i j e) (h' : rows.EndsWith base i j' e') :
    j = j' ∧ e = e' := by
  have hlt : ∀ {a b : Nat} {u v : Stored}, rows.EndsWith base i a u → rows.EndsWith base i b v → ¬ a < b := by
    rintro a b u v ⟨hia, ha, hna, -⟩ ⟨-, -, -, hpath⟩ hab
    obtain ⟨w, hw, hnw⟩ := hpath a hia hab
    rw [ha] at hw
    cases hw
    rw [hna] at hnw
    cases hnw
  have hj : j = j' := le_antisymm (not_lt.1 (hlt h' h)) (not_lt.1 (hlt h h'))
  subst hj
  have he := h.2.1.symm.trans h'.2.1
  cases he
  exact ⟨rfl, rfl⟩

theorem Keeps.trans {rows'' : StoredRuns} (h : rows.Keeps rows') (h' : rows'.Keeps rows'') : rows.Keeps rows'' :=
  fun k e hk => h' k e (h k e hk)

theorem Keeps.endsWith (h : rows.Keeps rows') (he : rows.EndsWith base i j e) : rows'.EndsWith base i j e := by
  obtain ⟨hij, hj, hn, hpath⟩ := he
  refine ⟨hij, h j e hj, hn, fun m hi hm => ?_⟩
  obtain ⟨e', he', hn'⟩ := hpath m hi hm
  exact ⟨e', h m e' he', hn'⟩

theorem Keeps.extends (h : rows.Keeps rows') (read : Stored → String ⊕ β) :
    (rows.table base read).Extends (rows'.table base read) := by
  intro id r hr
  obtain ⟨k, rfl⟩ : ∃ k, id = runDbosId base k := by
    unfold table row at hr
    cases hf : (List.range rows.length).find? (runDbosId base · = id) with
    | none => rw [hf] at hr; cases hr
    | some k =>
      have hid := List.find?_some hf
      exact ⟨k, (of_decide_eq_true hid).symm⟩
  obtain ⟨e, he, hread⟩ := table_eq_some.1 hr
  exact table_eq_some.2 ⟨e, h k e he, hread⟩

end StoredRuns

/-! ## Both waits -/

theorem resultStep_redirecting (c : Converter) (hint : Option Hint) :
    StoredRuns.Redirecting (resultStep c hint true) where
  goes e n h := by
    cases e with
    | continuedAsNew m => cases h; rfl
    | failure f m => cases h; rfl
    | output | cancellation | terminated | error => cases h
  ends e h := by
    cases e with
    | continuedAsNew m => cases h
    | failure f m => cases h; exact ⟨_, rfl⟩
    | output | cancellation | terminated | error => exact ⟨_, rfl⟩

theorem childResultStep_redirecting : StoredRuns.Redirecting childResultStep where
  goes e n h := by
    cases e with
    | continuedAsNew m => cases h; rfl
    | failure f m => cases h; rfl
    | output | cancellation | terminated | error => cases h
  ends e h := by
    cases e with
    | continuedAsNew m => cases h
    | failure f m => cases h; exact ⟨_, rfl⟩
    | output | cancellation | terminated | error => exact ⟨_, rfl⟩

namespace StoredHistory

variable {base : String} (h : StoredHistory base)

theorem lawful (t : Nat) : (h.rows t).Lawful base := by
  induction t with
  | zero =>
    rw [h.starts]
    intro k e n hk hn
    cases k <;> simp at hk
  | succ t ih =>
    rcases h.steps t with heq | ⟨ev, hev⟩
    · rwa [heq]
    · exact StoredRuns.step_lawful ih hev

theorem keeps {t t' : Nat} (ht : t ≤ t') : (h.rows t).Keeps (h.rows t') := by
  induction t', ht using Nat.le_induction with
  | base => exact fun k e hk => hk
  | succ t' _ ih =>
    refine ih.trans ?_
    rcases h.steps t' with heq | ⟨ev, hev⟩
    · rw [heq]; exact fun k e hk => hk
    · exact StoredRuns.step_keeps hev

/-- One who awaits run `i` and looks at these instants, after `n` looks. -/
def awaiting {β : Type} (read : Stored → String ⊕ β) (instant : ℕ →o ℕ) (i : Nat) (n : Nat) : Follower String β :=
  follow (fun m => (h.rows (instant m)).table base read) (runDbosId base i) n

variable {β : Type} {read : Stored → String ⊕ β} {instant : ℕ →o ℕ} {i j n : Nat} {b : β} {e : Stored}

theorem tables_extend (read : Stored → String ⊕ β) (instant : ℕ →o ℕ) (m : Nat) :
    ((h.rows (instant m)).table base read).Extends ((h.rows (instant (m + 1))).table base read) :=
  (h.keeps (instant.monotone (Nat.le_succ m))).extends read

theorem awaiting_sound (hread : StoredRuns.Redirecting read) (hd : h.awaiting read instant i n = .decided b) :
    ∃ j e, (h.rows (instant n)).EndsWith base i j e ∧ read e = .inr b := by
  obtain ⟨d, hl⟩ := decided_leads (h.tables_extend read instant) hd
  obtain ⟨e, he, hb⟩ := (StoredRuns.leads_iff (h.lawful _) hread).1 hl
  exact ⟨i + d, e, he, hb⟩

theorem awaiting_decides (hread : StoredRuns.Redirecting read) (he : (h.rows (instant n)).EndsWith base i j e) :
    ∃ b, read e = .inr b ∧ h.awaiting read instant i (n + (j - i) + 1) = .decided b := by
  obtain ⟨b, hb⟩ := hread.ends e he.2.2.1
  refine ⟨b, hb, follow_decides (h.tables_extend read instant) ?_⟩
  refine (StoredRuns.leads_iff (h.lawful _) hread).2 ⟨e, ?_, hb⟩
  rwa [Nat.add_sub_of_le he.1]

end StoredHistory

/-- The end of a run, as `WorkflowHandle.result` reports it and as the parent
records it. -/
inductive SameEnd (c : Converter) (hint : Option Hint) : Except ResultExc Value → Payload ⊕ FailureEnvelope → Prop
  | output (p : Payload) : SameEnd c hint (clientOutput c hint p) (.inl p)
  | failure (f : FailureEnvelope) : SameEnd c hint (clientFailure c f) (.inr f)
  /-- Each has its own text for a termination. -/
  | terminated : SameEnd c hint (.error (.workflowFailure (terminatedError "Workflow terminated")))
      (.inr { info := .terminatedError [], message := "Child workflow terminated" })

theorem sameEnd {c : Converter} {hint : Option Hint} {e : Stored} {o : Except ResultExc Value}
    {r : Payload ⊕ FailureEnvelope} (ho : resultStep c hint true e = .inr o) (hr : childResultStep e = .inr r) :
    SameEnd c hint o r := by
  cases e with
  | output p => cases ho; cases hr; exact .output p
  | continuedAsNew n => cases hr
  | failure f n =>
    cases n with
    | none => cases ho; cases hr; exact .failure f
    | some n => cases hr
  | cancellation f => cases ho; cases hr; exact .failure f
  | terminated => cases ho; cases hr; exact .terminated
  | error type message =>
    cases ho
    cases hr
    exact .failure { info := .applicationError (some type) [] false .unspecified none, message }

/-- What the two waits for a chain come to: `told` by the client, `recorded`
by the parent, of run `i` on. -/
structure ResultLaw {base : String} (h : StoredHistory base) (c : Converter) (hint : Option Hint) (i : Nat)
    (instant instant' : ℕ →o ℕ) : Prop where
  /-- The client reports the first run that is over without naming a next
  one. -/
  told : ∀ n o, h.awaiting (resultStep c hint true) instant i n = .decided o →
    ∃ j e, (h.rows (instant n)).EndsWith base i j e ∧ resultStep c hint true e = .inr o
  recorded : ∀ n r, h.awaiting childResultStep instant' i n = .decided r →
    ∃ j e, (h.rows (instant' n)).EndsWith base i j e ∧ childResultStep e = .inr r
  /-- They report the same end. -/
  same : ∀ n m o r, h.awaiting (resultStep c hint true) instant i n = .decided o →
    h.awaiting childResultStep instant' i m = .decided r → SameEnd c hint o r
  /-- Once that run is over, each takes at most as many looks as there are runs
  on the way. -/
  tells : ∀ n j e, (h.rows (instant n)).EndsWith base i j e →
    ∃ o, h.awaiting (resultStep c hint true) instant i (n + (j - i) + 1) = .decided o
  records : ∀ n j e, (h.rows (instant' n)).EndsWith base i j e →
    ∃ r, h.awaiting childResultStep instant' i (n + (j - i) + 1) = .decided r

/-- **Whenever a chain grows, and whenever they look, a client that awaits the
result of a run and a parent that awaits its child end with the first run that
is over without naming a next one, and report the same.** -/
theorem result_follows {base : String} (h : StoredHistory base) (c : Converter) (hint : Option Hint) (i : Nat)
    (instant instant' : ℕ →o ℕ) : ResultLaw h c hint i instant instant' where
  told _ _ hd := h.awaiting_sound (resultStep_redirecting c hint) hd
  recorded _ _ hd := h.awaiting_sound childResultStep_redirecting hd
  same n m o r ho hr := by
    obtain ⟨j, e, he, hoe⟩ := h.awaiting_sound (resultStep_redirecting c hint) ho
    obtain ⟨j', e', he', hre⟩ := h.awaiting_sound childResultStep_redirecting hr
    have hlast := (h.keeps (le_max_left _ (instant' m))).endsWith he
    have hlast' := (h.keeps (le_max_right (instant n) _)).endsWith he'
    obtain ⟨-, rfl⟩ := hlast.unique hlast'
    exact sameEnd hoe hre
  tells n j e he := by
    obtain ⟨o, -, ho⟩ := h.awaiting_decides (resultStep_redirecting c hint) he
    exact ⟨o, ho⟩
  records n j e he := by
    obtain ⟨r, -, hr⟩ := h.awaiting_decides childResultStep_redirecting he
    exact ⟨r, hr⟩

/-- A chain that fails once, and completes on the retry. -/
def retriedOnce : StoredHistory "wf" where
  rows
    | 0 => [none]
    | 1 => [none, none]
    | 2 => [some (.failure (nonRetryableFailure "boom" "Boom") (some "wf--r1")), none]
    | _ + 3 => [some (.failure (nonRetryableFailure "boom" "Boom") (some "wf--r1")), some (.output ⟨"null"⟩)]
  starts := rfl
  steps
    | 0 => .inr ⟨.hop, rfl⟩
    | 1 => .inr ⟨.close 0 (.failure (nonRetryableFailure "boom" "Boom") (some "wf--r1")), rfl⟩
    | 2 => .inr ⟨.close 1 (.output ⟨"null"⟩), rfl⟩
    | _ + 3 => .inl rfl

example : retriedOnce.awaiting childResultStep OrderHom.id 0 5 = .decided (.inl ⟨"null"⟩) := rfl

end Dbosify
