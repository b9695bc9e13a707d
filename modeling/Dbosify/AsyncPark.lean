/-
The park of a queued activity (`_await_async_completion`): a loop of `recv`s,
each of which waits for the whole of the timeout.

A heartbeat ends one `recv` and begins the next, so the bound the park is
given counts from the last heartbeat (`park_endsBy_iff`).
-/
import Mathlib.Algebra.Order.Archimedean.Basic
import Dbosify.ActivityWorkflow

namespace Dbosify

/-! ## The messages a park is sent -/

/-- The messages on the topic, first come first, each with the instant it
arrives. There may be no last one, but only so many arrive by any instant. -/
structure Arrivals where
  message : ℕ → Option (Seconds × ParkMessage)
  gapless : ∀ k, message k = none → message (k + 1) = none
  ordered : ∀ k m m', message k = some m → message (k + 1) = some m' → m.1 ≤ m'.1
  finite : ∀ t, ∃ k, ∀ m, message k = some m → t < m.1

namespace Arrivals

variable (a : Arrivals)

/-- The messages before one that is sent are sent, and no later. -/
theorem earlier {k : ℕ} {m : Seconds × ParkMessage} (h : a.message k = some m) :
    ∀ d ≤ k, ∃ m', a.message (k - d) = some m' ∧ m'.1 ≤ m.1 := by
  intro d
  induction d with
  | zero => exact fun _ => ⟨m, h, le_rfl⟩
  | succ d ih =>
    intro hd
    obtain ⟨m₁, h₁, hle⟩ := ih (by omega)
    have hk : k - d = k - (d + 1) + 1 := by omega
    rw [hk] at h₁
    cases h₂ : a.message (k - (d + 1)) with
    | none =>
      rw [a.gapless _ h₂] at h₁
      cases h₁
    | some m₂ => exact ⟨m₂, rfl, (a.ordered _ _ _ h₂ h₁).trans hle⟩

theorem earlier_lt {j k : ℕ} {m : Seconds × ParkMessage} (h : a.message k = some m) (hjk : j ≤ k) :
    ∃ m', a.message j = some m' ∧ m'.1 ≤ m.1 := by
  have hj : k - (k - j) = j := by omega
  have := a.earlier h (k - j) (by omega)
  rwa [hj] at this

/-- Message `k` is a heartbeat that arrives by `limit`. -/
def Beats (k : ℕ) (limit : Seconds) : Prop := ∃ t, a.message k = some (t, .heartbeat) ∧ t ≤ limit

/-- Something other than a heartbeat arrives by `limit`. -/
def Completes (limit : Seconds) : Prop := ∃ k t c s, a.message k = some (t, .completion c s) ∧ t ≤ limit

end Arrivals

/-! ## The loop -/

def QueuedState.isParked : QueuedState → Bool
  | parked .. => true
  | attempting .. | backingOff .. | returned _ | raised _ => false

/-- The loop between two `recv`s: the instant, the number of messages it has
received, and where the workflow stands. -/
structure Park where
  now : Seconds
  received : ℕ
  state : QueuedState

namespace Park

/-- `recv_async` with the park's timeout: the next message if it arrives by
the end of the timeout, else `None`. -/
def next (q : QueuedActivity) (a : Arrivals) (p : Park) : Park :=
  match p.state with
  | .parked attempt endedAt timeout deadlineType =>
    match (a.message p.received).filter (·.1 ≤ p.now + timeout) with
    | some (t, m) => ⟨max p.now t, p.received + 1, q.nextReceived attempt endedAt timeout deadlineType (some m)⟩
    | none => ⟨p.now + timeout, p.received, q.nextReceived attempt endedAt timeout deadlineType none⟩
  | _ => p

/-- The loop after `k` `recv`s. -/
def after (q : QueuedActivity) (a : Arrivals) (p : Park) : ℕ → Park
  | 0 => p
  | k + 1 => (after q a p k).next q a

/-- The park is over by `limit`. -/
def EndsBy (q : QueuedActivity) (a : Arrivals) (p : Park) (limit : Seconds) : Prop :=
  ∃ k, (after q a p k).state.isParked = false ∧ (after q a p k).now ≤ limit

/-! ## One `recv` -/

variable {q : QueuedActivity} {a : Arrivals} {p : Park} {n : Nat} {e w t : Seconds} {ty : DeadlineType}

theorem failAttempt_over (f : FailureEnvelope) (endedAt : Seconds) : (q.failAttempt n f endedAt).isParked = false := by
  unfold QueuedActivity.failAttempt
  split
  · rfl
  · dsimp only
    split <;> rfl

/-- A heartbeat in time begins the same `recv` anew. -/
theorem next_heartbeat (hp : p.state = .parked n e w ty) (hm : a.message p.received = some (t, .heartbeat))
    (ht : t ≤ p.now + w) : p.next q a = ⟨max p.now t, p.received + 1, .parked n e w ty⟩ := by
  simp only [next, hp, hm, Option.filter_some, decide_eq_true ht, if_true]
  rfl

/-- Anything else in time ends the park. -/
theorem next_completion {c : Completion} {s : Option Seconds} (hp : p.state = .parked n e w ty)
    (hm : a.message p.received = some (t, .completion c s)) (ht : t ≤ p.now + w) :
    (p.next q a).state.isParked = false ∧ (p.next q a).now = max p.now t := by
  simp only [next, hp, hm, Option.filter_some, decide_eq_true ht, if_true, and_true]
  cases c with
  | cancelled => exact failAttempt_over _ _
  | ok r => rfl
  | failed f => exact failAttempt_over _ _

/-- A `recv` that nothing reaches in time ends the park, at its own end. -/
theorem next_timeout (hp : p.state = .parked n e w ty) (hm : ∀ m, a.message p.received = some m → p.now + w < m.1) :
    (p.next q a).state.isParked = false ∧ (p.next q a).now = p.now + w := by
  have hnone : (a.message p.received).filter (·.1 ≤ p.now + w) = none := by
    cases h : a.message p.received with
    | none => rfl
    | some m => rw [Option.filter_some, decide_eq_false (not_le.2 (hm m h)), if_neg Bool.false_ne_true]
  simp only [next, hp, hnone, and_true]
  exact failAttempt_over _ _

/-- A park that is over stays as it is. -/
theorem next_over (hp : p.state.isParked = false) : p.next q a = p := by
  unfold next
  cases hs : p.state with
  | parked => rw [hs] at hp; cases hp
  | attempting | backingOff | returned | raised => rfl

/-! ## Runs of the loop -/

variable {begun : Seconds} (q n e ty)

/-- While only heartbeats arrive, and by the end of the first timeout, the
loop goes on from the last of them. -/
theorem after_heartbeats (k : ℕ) (hb : ∀ j < k, a.Beats j (begun + w)) (hw : 0 ≤ w) :
    ∃ now, after q a ⟨begun, 0, .parked n e w ty⟩ k = ⟨now, k, .parked n e w ty⟩ ∧ begun ≤ now ∧ now ≤ begun + w ∧
      (∀ j < k, ∀ t m, a.message j = some (t, m) → t ≤ now) ∧
      (begun < now → ∃ j < k, a.message j = some (now, .heartbeat)) := by
  induction k with
  | zero => exact ⟨begun, rfl, le_rfl, by linarith, fun j hj => by omega, fun h => absurd h (lt_irrefl _)⟩
  | succ k ih =>
    obtain ⟨now, hafter, hlo, hhi, hall, hlast⟩ := ih fun j hj => hb j (by omega)
    obtain ⟨t, hm, ht⟩ := hb k (by omega)
    refine ⟨max now t, ?_, hlo.trans (le_max_left _ _), max_le hhi ht, fun j hj t' m hj' => ?_, fun hlt => ?_⟩
    · rw [after, hafter]
      exact next_heartbeat rfl hm (by dsimp only; linarith)
    · by_cases hjk : j = k
      · subst hjk
        rw [hm] at hj'
        cases hj'
        exact le_max_right _ _
      · exact (hall j (by omega) t' m hj').trans (le_max_left _ _)
    · rcases le_total t now with hle | hle
      · rw [max_eq_left hle] at hlt ⊢
        obtain ⟨j, hj, hmj⟩ := hlast hlt
        exact ⟨j, by omega, hmj⟩
      · rw [max_eq_right hle] at hlt ⊢
        exact ⟨k, by omega, hm⟩

/-- A loop that goes on from a heartbeat received past its beginning ends past
its first timeout, if it ends. -/
theorem after_late {late : Seconds} {k : ℕ} (hlate : begun < late) (hnone : ¬ a.Completes (begun + w))
    (hp : (after q a p k).state = .parked n e w ty ∧ late ≤ (after q a p k).now) (d : ℕ) :
    (after q a p (k + d)).state = .parked n e w ty ∧ late ≤ (after q a p (k + d)).now ∨
      (after q a p (k + d)).state.isParked = false ∧ begun + w < (after q a p (k + d)).now := by
  induction d with
  | zero => exact .inl hp
  | succ d ih =>
    rw [← Nat.add_assoc, after]
    generalize after q a p (k + d) = r at ih
    rcases ih with ⟨hs, hnow⟩ | ⟨hs, hnow⟩
    · by_cases hm : ∀ m, a.message r.received = some m → r.now + w < m.1
      · obtain ⟨hover, hend⟩ := next_timeout (q := q) hs hm
        exact .inr ⟨hover, by rw [hend]; linarith⟩
      · simp only [not_forall, not_lt] at hm
        obtain ⟨⟨t, m⟩, hm, ht⟩ := hm
        cases m with
        | heartbeat =>
          rw [next_heartbeat hs hm ht]
          exact .inl ⟨rfl, hnow.trans (le_max_left _ _)⟩
        | completion c s =>
          obtain ⟨hover, hend⟩ := next_completion (q := q) hs hm ht
          have hlt : begun + w < t := by
            by_contra hle
            exact hnone ⟨_, t, c, s, hm, not_lt.1 hle⟩
          exact .inr ⟨hover, by rw [hend]; exact hlt.trans_le (le_max_right _ _)⟩
    · rw [next_over hs]
      exact .inr ⟨hs, hnow⟩

/-- A completion in time ends the park in time, whatever heartbeats there are
before it. -/
theorem endsBy_of_completes (hw : 0 ≤ w) (h : a.Completes (begun + w)) :
    EndsBy q a ⟨begun, 0, .parked n e w ty⟩ (begun + w) := by
  classical
  have hex : ∃ k, ∃ t c s, a.message k = some (t, .completion c s) ∧ t ≤ begun + w := h
  obtain ⟨t, c, s, hm, ht⟩ := Nat.find_spec hex
  have hbeats : ∀ j < Nat.find hex, a.Beats j (begun + w) := by
    intro j hj
    obtain ⟨⟨t', m'⟩, hm', hle⟩ := a.earlier_lt hm hj.le
    cases m' with
    | heartbeat => exact ⟨t', hm', hle.trans ht⟩
    | completion c' s' => exact absurd ⟨t', c', s', hm', hle.trans ht⟩ (Nat.find_min hex hj)
  obtain ⟨now, hafter, hlo, hhi, -⟩ := after_heartbeats q n e ty _ hbeats hw
  refine ⟨Nat.find hex + 1, ?_⟩
  rw [after, hafter]
  obtain ⟨hover, hnow⟩ := next_completion (q := q) (p := ⟨now, Nat.find hex, .parked n e w ty⟩) rfl hm
    (by dsimp only; linarith)
  exact ⟨hover, by rw [hnow]; exact max_le hhi ht⟩

/-- Heartbeats that were there when the park began extend nothing. -/
theorem endsBy_of_quiet (hw : 0 ≤ w) (hnone : ¬ a.Completes (begun + w))
    (h : ∀ k t, a.message k = some (t, .heartbeat) → begun < t → begun + w < t) :
    EndsBy q a ⟨begun, 0, .parked n e w ty⟩ (begun + w) := by
  classical
  have hex : ∃ k, ∀ m, a.message k = some m → begun + w < m.1 := a.finite _
  have hbeats : ∀ j < Nat.find hex, a.Beats j (begun + w) ∧ ∀ t m, a.message j = some (t, m) → t ≤ begun := by
    intro j hj
    have hj := Nat.find_min hex hj
    simp only [not_forall, not_lt] at hj
    obtain ⟨⟨t, m⟩, hm, ht⟩ := hj
    cases m with
    | completion c s => exact absurd ⟨j, t, c, s, hm, ht⟩ hnone
    | heartbeat =>
      refine ⟨⟨t, hm, ht⟩, fun t' m' hm' => ?_⟩
      rw [hm] at hm'
      cases hm'
      by_contra hlt
      have hlt := h j t hm (not_le.1 hlt)
      have ht : t ≤ begun + w := ht
      linarith
  obtain ⟨now, hafter, hlo, -, -, hlast⟩ :=
    after_heartbeats q n e ty _ (fun j hj => (hbeats j hj).1) hw
  have hnow : now = begun := by
    by_contra hne
    obtain ⟨j, hj, hm⟩ := hlast (lt_of_le_of_ne hlo (Ne.symm hne))
    exact hne (le_antisymm ((hbeats j hj).2 now _ hm) hlo)
  subst hnow
  obtain ⟨hover, hend⟩ := next_timeout (q := q) (p := ⟨now, Nat.find hex, .parked n e w ty⟩) rfl (Nat.find_spec hex)
  exact ⟨Nat.find hex + 1, by rw [after, hafter]; exact hover, by rw [after, hafter, hend]⟩

/-- A heartbeat during the first timeout, with no completion in it, and the
park outlasts that timeout. -/
theorem not_endsBy (hw : 0 ≤ w) (hnone : ¬ a.Completes (begun + w)) {k : ℕ} {late : Seconds}
    (hm : a.message k = some (late, .heartbeat)) (hlo : begun < late) (hhi : late ≤ begun + w) :
    ¬ EndsBy q a ⟨begun, 0, .parked n e w ty⟩ (begun + w) := by
  intro h
  obtain ⟨i, hover, hend⟩ := h
  have hbeats : ∀ j < k + 1, a.Beats j (begun + w) := by
    intro j hj
    obtain ⟨⟨t, m⟩, hmj, hle⟩ := a.earlier_lt hm (Nat.lt_succ_iff.1 hj)
    cases m with
    | heartbeat => exact ⟨t, hmj, hle.trans hhi⟩
    | completion c s => exact absurd ⟨j, t, c, s, hmj, hle.trans hhi⟩ hnone
  by_cases hi : i ≤ k + 1
  · obtain ⟨now, hafter, -⟩ := after_heartbeats q n e ty i (fun j hj => hbeats j (by omega)) hw
    rw [hafter] at hover
    cases hover
  · obtain ⟨now, hafter, -, -, hall, -⟩ := after_heartbeats q n e ty (k + 1) hbeats hw
    have hlate : late ≤ now := hall k (by omega) late _ hm
    have hp := after_late q n e ty (p := ⟨begun, 0, .parked n e w ty⟩) (k := k + 1) hlo hnone
      (by rw [hafter]; exact ⟨rfl, hlate⟩) (i - (k + 1))
    rw [show k + 1 + (i - (k + 1)) = i by omega] at hp
    rcases hp with ⟨hs, -⟩ | ⟨-, hlt⟩
    · rw [hs] at hover
      cases hover
    · linarith

end Park

/-! ## The bound -/

theorem parkTimeout_nonneg (deadline : Option Seconds) (startedAt endedAt : Seconds) :
    0 ≤ QueuedActivity.parkTimeout deadline startedAt endedAt := by
  cases deadline with
  | none => norm_num [QueuedActivity.parkTimeout, recvTimeoutSeconds]
  | some d => exact le_max_left _ _

/-- **A park keeps its bound exactly when no heartbeat extends it**: it is over
by the end of the timeout it was given if something other than a heartbeat
arrives by then, or if every heartbeat that does was there when it began. -/
theorem park_endsBy_iff (q : QueuedActivity) (a : Arrivals) (attempt : Nat) (deadline : Option Seconds)
    (deadlineType : DeadlineType) (startedAt endedAt begun : Seconds) :
    Park.EndsBy q a ⟨begun, 0, q.nextAttempted attempt deadline deadlineType (.asyncPending startedAt endedAt)⟩
        (begun + QueuedActivity.parkTimeout deadline startedAt endedAt) ↔
      a.Completes (begun + QueuedActivity.parkTimeout deadline startedAt endedAt) ∨
        ∀ k t, a.message k = some (t, .heartbeat) → begun < t →
          begun + QueuedActivity.parkTimeout deadline startedAt endedAt < t := by
  have hw := parkTimeout_nonneg deadline startedAt endedAt
  by_cases hc : a.Completes (begun + QueuedActivity.parkTimeout deadline startedAt endedAt)
  · exact ⟨fun _ => .inl hc, fun _ => Park.endsBy_of_completes q _ _ _ hw hc⟩
  · constructor
    · intro h
      refine .inr fun k t hm hlo => ?_
      by_contra hhi
      exact Park.not_endsBy q _ _ _ hw hc hm hlo (not_lt.1 hhi) h
    · intro h
      exact Park.endsBy_of_quiet q _ _ _ hw hc (h.resolve_left hc)

/-- A heartbeat every five seconds. -/
def steadyHeartbeats : Arrivals where
  message k := some (5 * (k + 1), .heartbeat)
  gapless k h := by cases h
  ordered k m m' h h' := by
    cases h
    cases h'
    push_cast
    linarith
  finite t := by
    obtain ⟨k, hk⟩ := exists_nat_gt t
    refine ⟨k, fun m hm => ?_⟩
    cases hm
    have : (0 : Seconds) ≤ k := Nat.cast_nonneg k
    linarith

/-- An activity bounded by ten seconds, parked at its first instant. -/
def parkedActivity : QueuedActivity :=
  { activityName := "act", activityId := "1", startToClose := some 10, scheduleToClose := none, retryPolicy := none,
    startedAt := 0 }

/-- Under steady heartbeats its park never ends. -/
theorem steadyHeartbeats_extend : (∀ k, (Park.after parkedActivity steadyHeartbeats
      ⟨0, 0, parkedActivity.nextAttempted 1 (some 10) .startToClose (.asyncPending 0 0)⟩ k).state.isParked = true) ∧
    ¬ Park.EndsBy parkedActivity steadyHeartbeats
      ⟨0, 0, parkedActivity.nextAttempted 1 (some 10) .startToClose (.asyncPending 0 0)⟩ (0 + 10) := by
  have hparked : parkedActivity.nextAttempted 1 (some 10) .startToClose (.asyncPending 0 0) =
      .parked 1 0 10 .startToClose := by
    have hw : QueuedActivity.parkTimeout (some 10) 0 0 = 10 := by decide +kernel
    simp only [QueuedActivity.nextAttempted, hw]
  have hafter : ∀ k : ℕ, Park.after parkedActivity steadyHeartbeats ⟨0, 0, .parked 1 0 10 .startToClose⟩ k =
      ⟨5 * k, k, .parked 1 0 10 .startToClose⟩ := by
    intro k
    induction k with
    | zero => rw [Park.after, Nat.cast_zero, mul_zero]
    | succ k ih =>
      rw [Park.after, ih]
      refine (Park.next_heartbeat (t := 5 * (k + 1)) rfl rfl (by dsimp only; linarith)).trans ?_
      rw [max_eq_right (by dsimp only; linarith), Nat.cast_succ]
  rw [hparked]
  refine ⟨fun k => by rw [hafter]; rfl, fun h => ?_⟩
  obtain ⟨k, hover, -⟩ := h
  rw [hafter] at hover
  cases hover

end Dbosify
