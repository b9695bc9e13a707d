/-
The worker's record of the attempts in flight (`activity.py`).

A cancellation request is for a run's activity, by its key, and the attempt it
is meant for may be running, between two attempts, or not yet begun. So a
request marks the key, and the context registered under it if there is one;
an attempt that registers takes the mark with it. Attempts register and leave,
are timed out by their watchdogs, and send heartbeats, in any order. Which
contexts are then cancelled, and which details the next attempt of an activity
sees, is what the past says (`registry_exact`).
-/
import Dbosify.Dict
import Dbosify.PastTime
import Dbosify.Values

namespace Dbosify

open PastTime Py

/-! ## The record -/

/-- The run and the sequence number of an activity. -/
abbrev AttemptKey := String × Nat

/-- `_Context`, by its identity; outside a worker it has no key. -/
structure AttemptContext where
  id : Nat
  attemptKey : Option AttemptKey
deriving DecidableEq, Repr

structure AttemptRegistry where
  liveAttempts : Dict AttemptKey AttemptContext := .empty
  heartbeatStore : Dict AttemptKey (List Value) := .empty
  cancelRequestedKeys : List AttemptKey := []
  /-- The contexts whose `cancelled` is set. -/
  cancelled : List AttemptContext := []

namespace AttemptRegistry

variable (s : AttemptRegistry)

/-- `ctx.cancelled.set()`. -/
def cancel (ctx : AttemptContext) : AttemptRegistry := { s with cancelled := ctx :: s.cancelled }

/-- `_register_attempt`: a mark is consumed. -/
def registerAttempt (key : AttemptKey) (ctx : AttemptContext) : AttemptRegistry :=
  let s := { s with liveAttempts := s.liveAttempts.set key ctx }
  if key ∈ s.cancelRequestedKeys then
    { s.cancel ctx with cancelRequestedKeys := s.cancelRequestedKeys.filter (· ≠ key) }
  else s

/-- `_unregister_attempt`: a successor's registration stays. -/
def unregisterAttempt (key : AttemptKey) (ctx : AttemptContext) : AttemptRegistry :=
  if s.liveAttempts.get? key = some ctx then { s with liveAttempts := s.liveAttempts.pop key } else s

/-- `_request_cancel`. -/
def requestCancel (key : AttemptKey) : AttemptRegistry :=
  let s := { s with cancelRequestedKeys := s.cancelRequestedKeys.insert key }
  match s.liveAttempts.get? key with
  | some ctx => s.cancel ctx
  | none => s

/-- `_forget_attempt_state`. -/
def forgetAttemptState (key : AttemptKey) : AttemptRegistry := { s with heartbeatStore := s.heartbeatStore.pop key }

/-- `_root_heartbeat`; a cancelled context raises before it records anything. -/
def rootHeartbeat (ctx : AttemptContext) (details : List Value) : AttemptRegistry :=
  if ctx ∈ s.cancelled then s
  else
    match ctx.attemptKey with
    | some key => { s with heartbeatStore := s.heartbeatStore.set key details }
    | none => s

/-- `_apply_activity_heartbeat`, of an activity completed from outside. -/
def recordHeartbeat (key : AttemptKey) (details : List Value) : AttemptRegistry :=
  { s with heartbeatStore := s.heartbeatStore.set key details }

end AttemptRegistry

/-! ## What happens to it -/

inductive RegistryEvent
  | register (key : AttemptKey) (ctx : AttemptContext)
  | unregister (key : AttemptKey) (ctx : AttemptContext)
  | requestCancel (key : AttemptKey)
  /-- A watchdog or a deadline sets `ctx.cancelled`. -/
  | expire (ctx : AttemptContext)
  | forget (key : AttemptKey)
  | heartbeat (ctx : AttemptContext) (details : List Value)
  | record (key : AttemptKey) (details : List Value)

def AttemptRegistry.step (s : AttemptRegistry) : RegistryEvent → AttemptRegistry
  | .register key ctx => s.registerAttempt key ctx
  | .unregister key ctx => s.unregisterAttempt key ctx
  | .requestCancel key => s.requestCancel key
  | .expire ctx => s.cancel ctx
  | .forget key => s.forgetAttemptState key
  | .heartbeat ctx details => s.rootHeartbeat ctx details
  | .record key details => s.recordHeartbeat key details

/-- From a worker's start. -/
def AttemptRegistry.run (es : List RegistryEvent) : AttemptRegistry := es.foldl step {}

namespace RegistryEvent

/-- An attempt registers under the key. -/
def Registers (key : AttemptKey) (_ : List RegistryEvent) (e : RegistryEvent) : Prop := ∃ ctx, e = register key ctx

/-- The last to register under the key was `ctx`, and it has not left. -/
def Live (key : AttemptKey) (ctx : AttemptContext) : List RegistryEvent → Prop :=
  Since (fun _ e => e = register key ctx) fun past e => Registers key past e ∨ e = unregister key ctx

/-- A cancellation was requested since anything last registered under the
key. -/
def Marked (key : AttemptKey) : List RegistryEvent → Prop :=
  Since (fun _ e => e = requestCancel key) (Registers key)

/-- The event cancels `ctx`: its watchdog does, or it registers under a marked
key, or a request comes for its key while it is live. -/
def Cancels (ctx : AttemptContext) (past : List RegistryEvent) (e : RegistryEvent) : Prop :=
  e = expire ctx ∨ ∃ key, e = register key ctx ∧ Marked key past ∨ e = requestCancel key ∧ Live key ctx past

/-- `ctx` has been cancelled. -/
def Cancelled (ctx : AttemptContext) : List RegistryEvent → Prop := Once (Cancels ctx)

/-- The event leaves these details for the next attempt. -/
def Beats (key : AttemptKey) (details : List Value) (past : List RegistryEvent) (e : RegistryEvent) : Prop :=
  e = record key details ∨ ∃ ctx, e = heartbeat ctx details ∧ ctx.attemptKey = some key ∧ ¬ Cancelled ctx past

/-- The last details left for the next attempt, not forgotten since. -/
def Details (key : AttemptKey) (details : List Value) : List RegistryEvent → Prop :=
  Since (Beats key details) fun past e => (∃ details', Beats key details' past e) ∨ e = forget key

end RegistryEvent

/-! ## What the record says of the past -/

open RegistryEvent

/-- What the record says after the events. -/
structure RegistryLaw (es : List RegistryEvent) (s : AttemptRegistry) : Prop where
  live : ∀ key ctx, s.liveAttempts.get? key = some ctx ↔ Live key ctx es
  marked : ∀ key, key ∈ s.cancelRequestedKeys ↔ RegistryEvent.Marked key es
  cancelled : ∀ ctx, ctx ∈ s.cancelled ↔ Cancelled ctx es
  details : ∀ key ds, s.heartbeatStore.get? key = some ds ↔ Details key ds es

namespace AttemptRegistry

variable {s : AttemptRegistry} {es : List RegistryEvent} {e : RegistryEvent}

@[simp] theorem live_cancel (ctx : AttemptContext) : (s.cancel ctx).liveAttempts = s.liveAttempts := rfl

@[simp] theorem marks_cancel (ctx : AttemptContext) : (s.cancel ctx).cancelRequestedKeys = s.cancelRequestedKeys := rfl

@[simp] theorem details_cancel (ctx : AttemptContext) : (s.cancel ctx).heartbeatStore = s.heartbeatStore := rfl

@[simp] theorem mem_cancel (ctx ctx' : AttemptContext) :
    ctx' ∈ (s.cancel ctx).cancelled ↔ ctx' = ctx ∨ ctx' ∈ s.cancelled := by
  rw [cancel, List.mem_cons]

/-! What each function leaves alone. -/

@[simp] theorem live_register (key : AttemptKey) (ctx : AttemptContext) :
    (s.registerAttempt key ctx).liveAttempts = s.liveAttempts.set key ctx := by
  simp only [registerAttempt]
  split <;> rfl

@[simp] theorem details_register (key : AttemptKey) (ctx : AttemptContext) :
    (s.registerAttempt key ctx).heartbeatStore = s.heartbeatStore := by
  simp only [registerAttempt]
  split <;> rfl

@[simp] theorem marks_unregister (key : AttemptKey) (ctx : AttemptContext) :
    (s.unregisterAttempt key ctx).cancelRequestedKeys = s.cancelRequestedKeys := by
  simp only [unregisterAttempt]
  split <;> rfl

@[simp] theorem cancelled_unregister (key : AttemptKey) (ctx : AttemptContext) :
    (s.unregisterAttempt key ctx).cancelled = s.cancelled := by
  simp only [unregisterAttempt]
  split <;> rfl

@[simp] theorem details_unregister (key : AttemptKey) (ctx : AttemptContext) :
    (s.unregisterAttempt key ctx).heartbeatStore = s.heartbeatStore := by
  simp only [unregisterAttempt]
  split <;> rfl

@[simp] theorem live_request (key : AttemptKey) : (s.requestCancel key).liveAttempts = s.liveAttempts := by
  simp only [requestCancel]
  split <;> rfl

@[simp] theorem marks_request (key : AttemptKey) :
    (s.requestCancel key).cancelRequestedKeys = s.cancelRequestedKeys.insert key := by
  simp only [requestCancel]
  split <;> rfl

@[simp] theorem details_request (key : AttemptKey) : (s.requestCancel key).heartbeatStore = s.heartbeatStore := by
  simp only [requestCancel]
  split <;> rfl

/-- A heartbeat records details, and nothing else. -/
theorem rootHeartbeat_eq (ctx : AttemptContext) (ds : List Value) :
    s.rootHeartbeat ctx ds = s ∨
      ∃ key, ctx.attemptKey = some key ∧ ctx ∉ s.cancelled ∧
        s.rootHeartbeat ctx ds = { s with heartbeatStore := s.heartbeatStore.set key ds } := by
  unfold rootHeartbeat
  split
  · exact .inl rfl
  · next hc =>
    split
    · next key hk => exact .inr ⟨key, hk, hc, rfl⟩
    · exact .inl rfl

@[simp] theorem live_heartbeat (ctx : AttemptContext) (ds : List Value) :
    (s.rootHeartbeat ctx ds).liveAttempts = s.liveAttempts := by
  rcases s.rootHeartbeat_eq ctx ds with h | ⟨_, _, _, h⟩ <;> rw [h]

@[simp] theorem marks_heartbeat (ctx : AttemptContext) (ds : List Value) :
    (s.rootHeartbeat ctx ds).cancelRequestedKeys = s.cancelRequestedKeys := by
  rcases s.rootHeartbeat_eq ctx ds with h | ⟨_, _, _, h⟩ <;> rw [h]

@[simp] theorem cancelled_heartbeat (ctx : AttemptContext) (ds : List Value) :
    (s.rootHeartbeat ctx ds).cancelled = s.cancelled := by
  rcases s.rootHeartbeat_eq ctx ds with h | ⟨_, _, _, h⟩ <;> rw [h]

theorem details_heartbeat (ctx : AttemptContext) (ds : List Value) (key : AttemptKey) :
    (s.rootHeartbeat ctx ds).heartbeatStore.get? key =
      if ctx.attemptKey = some key ∧ ctx ∉ s.cancelled then some ds else s.heartbeatStore.get? key := by
  unfold rootHeartbeat
  split
  · next hc => rw [if_neg fun h => h.2 hc]
  · next hc =>
    split
    · next key' hk =>
      simp only [hk, hc, not_false_eq_true, and_true, Option.some.injEq, Dict.get?_set, eq_comm]
    · next hk => simp [hk]

/-! What one event does to each part. -/

/-- The event records these details. -/
def Recorded (s : AttemptRegistry) (e : RegistryEvent) (key : AttemptKey) (ds : List Value) : Prop :=
  e = .record key ds ∨ ∃ ctx, e = .heartbeat ctx ds ∧ ctx.attemptKey = some key ∧ ctx ∉ s.cancelled

/-- Which context an event leaves registered under a key. -/
theorem live_step (key : AttemptKey) (ctx : AttemptContext) :
    (s.step e).liveAttempts.get? key = some ctx ↔
      e = .register key ctx ∨
        s.liveAttempts.get? key = some ctx ∧ ¬ ((∃ ctx', e = .register key ctx') ∨ e = .unregister key ctx) := by
  cases e with
  | register key' ctx' =>
    rw [step, live_register, Dict.get?_set]
    split
    · next hk => subst hk; simp
    · next hk =>
      have hk' : key' ≠ key := Ne.symm hk
      simp [hk']
  | unregister key' ctx' =>
    simp only [step, unregisterAttempt, reduceCtorEq, false_or, exists_false, RegistryEvent.unregister.injEq, not_and]
    split
    · next h =>
      rw [Dict.get?_pop]
      split
      · next hk =>
        subst hk
        rw [h, Option.some.injEq]
        refine ⟨fun hn => absurd hn (Option.some_ne_none _).symm, ?_⟩
        rintro ⟨rfl, hn⟩
        exact absurd rfl (hn rfl)
      · next hk => exact ⟨fun hl => ⟨hl, fun he => absurd he.symm hk⟩, And.left⟩
    · next h =>
      refine ⟨fun hl => ⟨hl, ?_⟩, And.left⟩
      rintro rfl rfl
      exact h hl
  | requestCancel _ | expire _ | forget _ | heartbeat _ _ | record _ _ => simp [step, forgetAttemptState, recordHeartbeat]

/-- Which keys an event leaves marked. -/
theorem mark_step (key : AttemptKey) :
    key ∈ (s.step e).cancelRequestedKeys ↔
      e = .requestCancel key ∨ key ∈ s.cancelRequestedKeys ∧ ¬ ∃ ctx, e = .register key ctx := by
  cases e with
  | register key' ctx' =>
    simp only [step, registerAttempt, reduceCtorEq, false_or, RegistryEvent.register.injEq, exists_and_left,
      exists_eq', and_true]
    split
    · simp only [List.mem_filter, decide_eq_true_eq]
      exact and_congr_right fun _ => not_congr eq_comm
    · next h =>
      refine ⟨fun hm => ⟨hm, ?_⟩, And.left⟩
      rintro rfl
      exact h hm
  | requestCancel key' =>
    rw [step, marks_request, List.mem_insert_iff]
    simp [eq_comm]
  | unregister _ _ | expire _ | forget _ | heartbeat _ _ | record _ _ => simp [step, forgetAttemptState, recordHeartbeat]

/-- Which contexts an event cancels. -/
theorem cancelled_step (ctx : AttemptContext) :
    ctx ∈ (s.step e).cancelled ↔
      (e = .expire ctx ∨
        ∃ key, e = .register key ctx ∧ key ∈ s.cancelRequestedKeys ∨
          e = .requestCancel key ∧ s.liveAttempts.get? key = some ctx) ∨
      ctx ∈ s.cancelled := by
  cases e with
  | register key' ctx' =>
    simp only [step, registerAttempt, reduceCtorEq, false_and, or_false, false_or, RegistryEvent.register.injEq]
    split
    · next h =>
      rw [mem_cancel]
      refine or_congr_left ⟨fun hc => ⟨key', ⟨rfl, hc.symm⟩, h⟩, ?_⟩
      rintro ⟨_, ⟨-, rfl⟩, -⟩
      rfl
    · next h =>
      refine ⟨.inr, ?_⟩
      rintro (⟨_, ⟨rfl, -⟩, hk⟩ | hc)
      · exact absurd hk h
      · exact hc
  | requestCancel key' =>
    simp only [step, requestCancel, reduceCtorEq, false_and, false_or, RegistryEvent.requestCancel.injEq]
    split
    · next ctx' h =>
      rw [mem_cancel]
      refine or_congr_left ⟨fun hc => ⟨key', rfl, by rw [h, hc]⟩, ?_⟩
      rintro ⟨_, rfl, hc⟩
      exact Option.some.inj (hc.symm.trans h)
    · next h =>
      refine ⟨.inr, ?_⟩
      rintro (⟨_, rfl, hc⟩ | hc)
      · exact absurd (h.symm.trans hc) (Option.some_ne_none _).symm
      · exact hc
  | expire ctx' => simp [step, eq_comm]
  | unregister _ _ | forget _ | heartbeat _ _ | record _ _ => simp [step, forgetAttemptState, recordHeartbeat]

/-- Which details an event leaves for the next attempt. -/
theorem details_step (key : AttemptKey) (ds : List Value) :
    (s.step e).heartbeatStore.get? key = some ds ↔
      s.Recorded e key ds ∨
        s.heartbeatStore.get? key = some ds ∧ ¬ ((∃ ds', s.Recorded e key ds') ∨ e = .forget key) := by
  cases e with
  | heartbeat ctx ds' =>
    simp only [step, Recorded, reduceCtorEq, false_or, or_false, RegistryEvent.heartbeat.injEq, details_heartbeat]
    split
    · next h => simp [h, eq_comm]
    · next h => simp [h]
  | record key' ds' =>
    simp only [step, recordHeartbeat, Recorded, reduceCtorEq, false_and, exists_false, or_false,
      RegistryEvent.record.injEq, exists_and_left, exists_eq', and_true, Dict.get?_set]
    split
    · next hk => simp [hk, eq_comm]
    · next hk =>
      have hk' : key' ≠ key := Ne.symm hk
      simp [hk']
  | forget key' =>
    simp only [step, forgetAttemptState, Recorded, reduceCtorEq, false_and, exists_false, or_false, false_or,
      RegistryEvent.forget.injEq, Dict.get?_pop]
    split
    · next hk => simp [hk]
    · next hk =>
      have hk' : key' ≠ key := Ne.symm hk
      simp [hk']
  | register _ _ | unregister _ _ | requestCancel _ | expire _ => simp [step, Recorded]

/-! ## The law of a run -/

theorem run_snoc (es : List RegistryEvent) (e : RegistryEvent) : run (es ++ [e]) = (run es).step e := by
  rw [run, List.foldl_append]
  rfl

/-- What one more event does. -/
theorem law_step (h : RegistryLaw es s) : RegistryLaw (es ++ [e]) (s.step e) where
  live key ctx := by
    rw [live_step, Live, since_snoc, h.live]
    rfl
  marked key := by
    rw [mark_step, RegistryEvent.Marked, since_snoc, h.marked]
    rfl
  cancelled ctx := by
    rw [cancelled_step, Cancelled, once_snoc, h.cancelled]
    simp only [h.marked, h.live]
    rfl
  details key ds := by
    have hr : ∀ ds, s.Recorded e key ds ↔ Beats key ds es e := by
      intro ds
      simp only [Recorded, Beats, h.cancelled]
    rw [details_step, Details, since_snoc, h.details]
    simp only [hr]
    rfl

end AttemptRegistry

/-- **The record says what the past says.** After any events, in any order: the
context registered under a key is the last to register there, if it has not
left since (a late one that leaves does not take its successor with it); a key
is marked if a cancellation was requested and no attempt registered since; a
context is cancelled exactly if its watchdog expired, or a request came while
it was registered, or it registered under a mark; and the details kept are the
last ones that an attempt not yet cancelled sent, unless forgotten since. -/
theorem registry_exact (es : List RegistryEvent) : RegistryLaw es (.run es) := by
  induction es using snoc_induction with
  | nil =>
    exact
      { live := fun _ _ => iff_of_false nofun not_since_nil
        marked := fun _ => iff_of_false nofun not_since_nil
        cancelled := fun _ => iff_of_false nofun not_once_nil
        details := fun _ _ => iff_of_false nofun not_since_nil }
  | snoc es e ih => exact AttemptRegistry.run_snoc es e ▸ AttemptRegistry.law_step ih

end Dbosify
