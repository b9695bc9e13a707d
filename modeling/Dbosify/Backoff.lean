/-
Backoff: what the two retry decisions have in common.

An activity attempt (`retryDecision`) and a workflow run (`workflowRetryDelay`)
back off by the same capped exponential. Both compute the power before they
cap it, so both raise once the power has no float. Below that attempt each is
total, bounded and nondecreasing (`backoff_iff`). They are one law but for a
maximum interval of zero (`retry_laws_agree`).
-/
import Dbosify.ChainHop

namespace Dbosify

/-! ## The capped exponential -/

/-- `min(initial * coefficient ** exponent, cap)`. -/
def cappedExponential (initial coefficient cap : ℚ) (exponent : Nat) : ℚ :=
  min (initial * coefficient ^ exponent) cap

section

variable {i b c : ℚ} {m n : Nat}

theorem cappedExponential_nonneg (hi : 0 ≤ i) (hb : 1 ≤ b) (hc : 0 ≤ c) : 0 ≤ cappedExponential i b c n := by
  have hpow : 0 ≤ b ^ n := pow_nonneg (by linarith) n
  exact le_min (mul_nonneg hi hpow) hc

theorem cappedExponential_le : cappedExponential i b c n ≤ c := min_le_right _ _

theorem cappedExponential_mono (hi : 0 ≤ i) (hb : 1 ≤ b) (h : m ≤ n) :
    cappedExponential i b c m ≤ cappedExponential i b c n := by
  have hpow : b ^ m ≤ b ^ n := pow_le_pow_right₀ hb h
  exact min_le_min (mul_le_mul_of_nonneg_left hpow hi) le_rfl

/-- The power raises exactly when it has no float. -/
theorem pyPow_of_one_le (hb : 1 ≤ b) :
    pyPow b n = if b ^ n < 2 ^ 1024 then .ok (b ^ n) else .error .overflowError := by
  rw [pyPow, abs_of_nonneg (pow_nonneg (by linarith) n)]

end

/-! ## The two decisions -/

/-- The cap on the backoff between runs. -/
def RetryPolicy.workflowCap (p : RetryPolicy) : Seconds :=
  match p.maximumInterval with
  | some m => m.totalSeconds
  | none => p.initialInterval.totalSeconds * 100

variable {p : RetryPolicy} {n : Nat} {f : FailureEnvelope}

/-- A schedule-to-close timeout is among the failures no workflow retry has. -/
theorem neverRetried_of_scheduleToClose (h : f.isTimeout .scheduleToClose = true) : f.neverRetried = true := by
  obtain ⟨info, message, cause⟩ := f
  cases info <;> simp [Failure.isTimeout] at h
  simp [Failure.neverRetried, h]

/-- The decision between runs, by the stops it shares with the one between
attempts. -/
theorem workflowRetryDelay_eq : workflowRetryDelay (serializeRetryPolicy p) n f =
    if f.neverRetried then .ok none
    else if (stopState p n f).isSome then .ok none
    else match f.nextRetryDelay with
      | some d => .ok (some d)
      | none => (pyPow p.backoffCoefficient (n - 1)).map fun _ =>
        some (cappedExponential p.initialInterval.totalSeconds p.backoffCoefficient p.workflowCap (n - 1)) := by
  -- the serialized policy holds the policy's own fields
  have hser : workflowRetryDelay (serializeRetryPolicy p) n f =
      if f.neverRetried then .ok none
      else if f.nonRetryable then .ok none
      else if f.type.any fun t => (p.nonRetryableErrorTypes.getD []).contains t then .ok none
      else if p.maximumAttempts ≠ 0 ∧ p.maximumAttempts ≤ (n : Int) then .ok none
      else match f.nextRetryDelay with
        | some d => .ok (some d)
        | none => pyPow p.backoffCoefficient (n - 1) >>= fun factor =>
          .ok (some (min (p.initialInterval.totalSeconds * factor)
            ((p.maximumInterval.map (·.totalSeconds)).getD (p.initialInterval.totalSeconds * 100)))) := rfl
  rw [hser]
  by_cases hnever : f.neverRetried = true
  · rw [if_pos hnever, if_pos hnever]
  have hclose : f.isTimeout .scheduleToClose ≠ true := fun ht => hnever (neverRetried_of_scheduleToClose ht)
  rw [if_neg hnever, if_neg hnever]
  simp only [stopState, if_neg hclose]
  by_cases hnon : f.nonRetryable = true
  · rw [if_pos hnon, if_pos hnon]; rfl
  rw [if_neg hnon, if_neg hnon]
  by_cases htype : (f.type.any fun t => (p.nonRetryableErrorTypes.getD []).contains t) = true
  · rw [if_pos htype, if_pos htype]; rfl
  rw [if_neg htype, if_neg htype]
  by_cases hmax : p.maximumAttempts ≠ 0 ∧ p.maximumAttempts ≤ (n : Int)
  · rw [if_pos hmax, if_pos hmax]; rfl
  rw [if_neg hmax, if_neg hmax]
  cases f.nextRetryDelay with
  | some d => rfl
  | none =>
    simp only [pyPow, cappedExponential, RetryPolicy.workflowCap]
    split
    · cases p.maximumInterval <;> rfl
    · rfl

/-- What stops an activity's retries stops a workflow's. -/
theorem workflowRetryDelay_stops (h : stopState p n f ≠ none) :
    workflowRetryDelay (serializeRetryPolicy p) n f = .ok none := by
  rw [workflowRetryDelay_eq]
  split
  · rfl
  · rw [if_pos (Option.isSome_iff_ne_none.2 h)]

/-- An activity's backoff without an override. -/
theorem backoff_exponential (h : f.nextRetryDelay = none) :
    backoff p n f = (pyPow p.backoffCoefficient (n - 1)).map fun _ =>
      cappedExponential p.initialInterval.totalSeconds p.backoffCoefficient p.cap (n - 1) := by
  simp only [backoff, h, pyPow, cappedExponential]
  split <;> rfl

/-- A decision to retry has not stopped, and its delay is the backoff. -/
theorem retryDecision_retries {e b : Option Seconds} {d : Seconds} {st : RetryState}
    (h : retryDecision p n f e b = .ok (some d, st)) : stopState p n f = none ∧ backoff p n f = .ok d := by
  simp only [retryDecision] at h
  cases hs : stopState p n f with
  | some s => rw [hs] at h; simp at h
  | none =>
    simp only [hs, bind_eq_ok] at h
    obtain ⟨d', hd, h⟩ := h
    refine ⟨rfl, ?_⟩
    split at h
    · split at h <;> cases h
      exact hd
    · cases h
      exact hd

/-- The decision raises what the backoff raises. -/
theorem retryDecision_decides {e b : Option Seconds} (h : stopState p n f ≠ none ∨ ∃ d, backoff p n f = .ok d) :
    ∃ r, retryDecision p n f e b = .ok r := by
  simp only [retryDecision]
  cases hs : stopState p n f with
  | some s => exact ⟨_, rfl⟩
  | none =>
    obtain ⟨d, hd⟩ := h.resolve_left fun hn => hn hs
    simp only [hd, ok_bind]
    split
    · split <;> exact ⟨_, rfl⟩
    · exact ⟨_, rfl⟩

/-! ## Valid policies -/

/-- What `_validate` promises of a policy that can retry at all. -/
structure RetryPolicy.Valid (p : RetryPolicy) : Prop where
  initial : 0 ≤ p.initialInterval.totalSeconds
  coefficient : 1 ≤ p.backoffCoefficient
  maximum : ∀ m, p.maximumInterval = some m → 0 ≤ m.totalSeconds

theorem RetryPolicy.valid_of_validate (h : p.validate = none) (ha : p.maximumAttempts ≠ 1) : p.Valid := by
  simp only [RetryPolicy.validate, if_neg ha] at h
  split at h
  · cases h
  next hi =>
  split at h
  · cases h
  next hb =>
  refine ⟨by linarith, by linarith, ?_⟩
  intro m hm
  simp only [hm] at h
  by_cases hz : m.micros = 0
  · exact (Timedelta.totalSeconds_eq_zero.2 hz).ge
  by_contra hneg
  simp only [if_neg hz, if_pos (not_le.1 hneg)] at h
  cases h

/-- A policy that disables retries stops at every attempt. -/
theorem stopState_of_one (ha : p.maximumAttempts = 1) (hn : 1 ≤ n) : stopState p n f ≠ none := by
  simp only [stopState]
  have hmax : p.maximumAttempts ≠ 0 ∧ p.maximumAttempts ≤ (n : Int) := by omega
  rw [if_pos hmax]
  split
  · exact Option.some_ne_none _
  split
  · exact Option.some_ne_none _
  split <;> exact Option.some_ne_none _

theorem RetryPolicy.Valid.cap_nonneg (h : p.Valid) : 0 ≤ p.cap := by
  have hi := h.initial
  simp only [RetryPolicy.cap]
  split
  · next m hm =>
    split
    · linarith
    · exact h.maximum m hm
  · linarith

/-- The cap between runs is never over the cap between attempts: a maximum of
zero counts as none set for an activity, and as zero for a workflow. -/
theorem RetryPolicy.Valid.workflowCap_le (h : p.Valid) : 0 ≤ p.workflowCap ∧ p.workflowCap ≤ p.cap := by
  have hi := h.initial
  simp only [RetryPolicy.workflowCap, RetryPolicy.cap]
  cases hm : p.maximumInterval with
  | none => exact ⟨by linarith, le_rfl⟩
  | some m =>
    refine ⟨h.maximum m hm, ?_⟩
    dsimp only
    split
    · next hz => rw [Timedelta.totalSeconds_eq_zero.2 hz]; linarith
    · exact le_rfl

/-! ## When the law holds -/

/-- The backoff law at one attempt: both decisions are made; without an
override a delay is between zero and the cap, and no shorter than any before
it. -/
structure BackoffLaw (p : RetryPolicy) (n : Nat) (f : FailureEnvelope) : Prop where
  decides : ∀ elapsed budget, ∃ r, retryDecision p n f elapsed budget = .ok r
  hops : ∃ r, workflowRetryDelay (serializeRetryPolicy p) n f = .ok r
  bounded : ∀ {elapsed budget d st}, f.nextRetryDelay = none →
    retryDecision p n f elapsed budget = .ok (some d, st) → 0 ≤ d ∧ d ≤ p.cap
  hopBounded : ∀ {d}, f.nextRetryDelay = none →
    workflowRetryDelay (serializeRetryPolicy p) n f = .ok (some d) → 0 ≤ d ∧ d ≤ p.cap
  mono : ∀ {m g elapsed budget d st elapsed' budget' d' st'}, 1 ≤ m → m ≤ n →
    g.nextRetryDelay = none → f.nextRetryDelay = none →
    retryDecision p m g elapsed budget = .ok (some d, st) →
    retryDecision p n f elapsed' budget' = .ok (some d', st') → d ≤ d'
  hopMono : ∀ {m g d d'}, 1 ≤ m → m ≤ n → g.nextRetryDelay = none → f.nextRetryDelay = none →
    workflowRetryDelay (serializeRetryPolicy p) m g = .ok (some d) →
    workflowRetryDelay (serializeRetryPolicy p) n f = .ok (some d') → d ≤ d'

/-- No power is needed, or the power has a float. -/
def BackoffComputes (p : RetryPolicy) (n : Nat) (f : FailureEnvelope) : Prop :=
  stopState p n f ≠ none ∨ f.nextRetryDelay ≠ none ∨ p.backoffCoefficient ^ (n - 1) < 2 ^ 1024

/-- An activity's delay without an override is the capped exponential. -/
theorem retryDecision_exponential {e b : Option Seconds} {d : Seconds} {st : RetryState} (hf : f.nextRetryDelay = none)
    (h : retryDecision p n f e b = .ok (some d, st)) :
    d = cappedExponential p.initialInterval.totalSeconds p.backoffCoefficient p.cap (n - 1) := by
  obtain ⟨-, hd⟩ := retryDecision_retries h
  rw [backoff_exponential hf] at hd
  cases hp : pyPow p.backoffCoefficient (n - 1) with
  | error e => rw [hp] at hd; cases hd
  | ok q => rw [hp] at hd; cases hd; rfl

/-- And so is a workflow's. -/
theorem workflowRetryDelay_exponential {d : Seconds} (hf : f.nextRetryDelay = none)
    (h : workflowRetryDelay (serializeRetryPolicy p) n f = .ok (some d)) :
    d = cappedExponential p.initialInterval.totalSeconds p.backoffCoefficient p.workflowCap (n - 1) := by
  rw [workflowRetryDelay_eq] at h
  split at h
  · cases h
  split at h
  · cases h
  simp only [hf] at h
  cases hp : pyPow p.backoffCoefficient (n - 1) with
  | error e => rw [hp] at h; cases h
  | ok q => rw [hp] at h; cases h; rfl

/-- A delay means retries are not disabled. -/
theorem ne_one_of_retries {e b : Option Seconds} {d : Seconds} {st : RetryState} (hn : 1 ≤ n)
    (h : retryDecision p n f e b = .ok (some d, st)) : p.maximumAttempts ≠ 1 :=
  fun ha => stopState_of_one ha hn (retryDecision_retries h).1

theorem ne_one_of_hops {d : Seconds} (hn : 1 ≤ n)
    (h : workflowRetryDelay (serializeRetryPolicy p) n f = .ok (some d)) : p.maximumAttempts ≠ 1 := by
  intro ha
  rw [workflowRetryDelay_stops (stopState_of_one ha hn)] at h
  cases h

/-- Both decisions are made where no power is needed, or the power has a float. -/
theorem decides_of_computes (hv : p.validate = none) (hn : 1 ≤ n) (h : BackoffComputes p n f) :
    (∀ e b, ∃ r, retryDecision p n f e b = .ok r) ∧ ∃ r, workflowRetryDelay (serializeRetryPolicy p) n f = .ok r := by
  by_cases hs : stopState p n f = none
  case neg => exact ⟨fun e b => retryDecision_decides (.inl hs), _, workflowRetryDelay_stops hs⟩
  have hb : 1 ≤ p.backoffCoefficient :=
    (RetryPolicy.valid_of_validate hv fun ha => stopState_of_one ha hn hs).coefficient
  have hpow : ∀ {α : Type} (g : ℚ → α), f.nextRetryDelay = none →
      (pyPow p.backoffCoefficient (n - 1)).map g = .ok (g (p.backoffCoefficient ^ (n - 1))) := by
    intro α g hf
    rw [pyPow_of_one_le hb, if_pos ((h.resolve_left fun hn => hn hs).resolve_left fun hn => hn hf)]
    rfl
  constructor
  · refine fun e b => retryDecision_decides (.inr ?_)
    cases hf : f.nextRetryDelay with
    | some d => exact ⟨d, by simp only [backoff, hf]⟩
    | none => exact ⟨_, by rw [backoff_exponential hf, hpow _ hf]⟩
  · rw [workflowRetryDelay_eq]
    split
    · exact ⟨_, rfl⟩
    split
    · exact ⟨_, rfl⟩
    cases hf : f.nextRetryDelay with
    | some d => exact ⟨_, rfl⟩
    | none => exact ⟨_, hpow _ hf⟩

/-- Where the power has no float the activity decision raises. -/
theorem retryDecision_raises (hb : 1 ≤ p.backoffCoefficient) (h : ¬ BackoffComputes p n f) (e b : Option Seconds) :
    retryDecision p n f e b = .error .overflowError := by
  simp only [BackoffComputes, not_or, not_not] at h
  obtain ⟨hs, hf, hpow⟩ := h
  have hraise : backoff p n f = .error .overflowError := by
    rw [backoff_exponential hf, pyPow_of_one_le hb, if_neg hpow]
    rfl
  simp only [retryDecision, hs, hraise, error_bind]

/-- **When backoff is total, bounded and nondecreasing**: for a valid policy,
at exactly the attempts where no power is needed or the power is below
2^1024. -/
theorem backoff_iff (hv : p.validate = none) (hn : 1 ≤ n) : BackoffLaw p n f ↔ BackoffComputes p n f := by
  constructor
  · intro h
    by_contra hc
    have hs : stopState p n f = none := by_contra fun hs => hc (.inl hs)
    have hvalid := RetryPolicy.valid_of_validate hv fun ha => stopState_of_one ha hn hs
    obtain ⟨r, hr⟩ := h.decides none none
    rw [retryDecision_raises hvalid.coefficient hc] at hr
    cases hr
  · intro h
    obtain ⟨hdecides, hhops⟩ := decides_of_computes hv hn h
    refine ⟨hdecides, hhops, ?_, ?_, ?_, ?_⟩
    · intro e b d st hf hr
      have hvalid := RetryPolicy.valid_of_validate hv (ne_one_of_retries hn hr)
      rw [retryDecision_exponential hf hr]
      exact ⟨cappedExponential_nonneg hvalid.initial hvalid.coefficient hvalid.cap_nonneg, cappedExponential_le⟩
    · intro d hf hr
      have hvalid := RetryPolicy.valid_of_validate hv (ne_one_of_hops hn hr)
      obtain ⟨hcap, hle⟩ := hvalid.workflowCap_le
      rw [workflowRetryDelay_exponential hf hr]
      exact ⟨cappedExponential_nonneg hvalid.initial hvalid.coefficient hcap, cappedExponential_le.trans hle⟩
    · intro m g e b d st e' b' d' st' hm hmn hg hf hr hr'
      have hvalid := RetryPolicy.valid_of_validate hv (ne_one_of_retries hn hr')
      rw [retryDecision_exponential hg hr, retryDecision_exponential hf hr']
      exact cappedExponential_mono hvalid.initial hvalid.coefficient (by omega)
    · intro m g d d' hm hmn hg hf hr hr'
      have hvalid := RetryPolicy.valid_of_validate hv (ne_one_of_hops hn hr')
      rw [workflowRetryDelay_exponential hg hr, workflowRetryDelay_exponential hf hr']
      exact cappedExponential_mono hvalid.initial hvalid.coefficient (by omega)

/-- The default policy raises at its 1025th retry. -/
theorem defaultPolicy_raises : ∃ (p : RetryPolicy) (n : Nat) (f : FailureEnvelope), p.validate = none ∧ 1 ≤ n ∧
    retryDecision p n f none none = .error .overflowError ∧
    workflowRetryDelay (serializeRetryPolicy p) n f = .error .overflowError := by
  refine ⟨{}, 1025, boom, by decide +kernel, by omega, ?_, ?_⟩ <;> decide +kernel

/-- It backs off four seconds after its third attempt. -/
theorem defaultPolicy_backs_off : BackoffLaw {} 3 boom ∧ retryDecision {} 3 boom none none = .ok (some 4, .inProgress) :=
  ⟨(backoff_iff (by decide +kernel) (by omega)).2 (.inr (.inr (by decide +kernel))), by decide +kernel⟩

/-! ## One law for both -/

/-- `failure["cls"] == "ApplicationError"`. -/
def Failure.isApplicationError {δ : Type} (f : Failure δ) : Bool :=
  match f.info with
  | .applicationError .. => true
  | _ => false

theorem neverRetried_of_applicationError (h : f.isApplicationError = true) : f.neverRetried = false := by
  obtain ⟨info, message, cause⟩ := f
  cases info <;> simp [Failure.isApplicationError] at h
  rfl

/-- A policy that was serialized and read back `k` times. -/
def RetryPolicy.reread (p : RetryPolicy) (k : Nat) : RetryPolicy :=
  (fun p => deserializeRetryPolicy (serializeRetryPolicy p))^[k] p

@[simp] theorem RetryPolicy.reread_eq (k : Nat) : p.reread k = p := by
  have hid : (fun p => deserializeRetryPolicy (serializeRetryPolicy p)) = id := funext deserialize_serializeRetryPolicy
  rw [reread, hid, Function.iterate_id, id]

/-- The decision between attempts, without a schedule-to-close bound. -/
theorem retryDecision_delay (e : Option Seconds) : (retryDecision p n f e none).map (·.1) =
    if (stopState p n f).isSome then .ok none
    else match f.nextRetryDelay with
      | some d => .ok (some d)
      | none => (pyPow p.backoffCoefficient (n - 1)).map fun _ =>
        some (cappedExponential p.initialInterval.totalSeconds p.backoffCoefficient p.cap (n - 1)) := by
  rw [retryDecision_unbounded]
  cases stopState p n f with
  | some s => rfl
  | none =>
    cases hd : f.nextRetryDelay with
    | some d => simp only [backoff, hd]; rfl
    | none =>
      rw [backoff_exponential hd]
      cases pyPow p.backoffCoefficient (n - 1) <;> rfl

/-- The two capped exponentials are one, unless the maximum interval is zero
and a delay is not. -/
theorem cappedExponential_caps (hv : p.Valid) :
    cappedExponential p.initialInterval.totalSeconds p.backoffCoefficient p.workflowCap (n - 1) =
      cappedExponential p.initialInterval.totalSeconds p.backoffCoefficient p.cap (n - 1) ↔
    p.maximumInterval ≠ some ⟨0⟩ ∨ p.initialInterval.totalSeconds = 0 := by
  have hi := hv.initial
  have hpow : 1 ≤ p.backoffCoefficient ^ (n - 1) := one_le_pow₀ hv.coefficient
  by_cases hm : p.maximumInterval = some ⟨0⟩
  · have hw : p.workflowCap = 0 := by simp [RetryPolicy.workflowCap, hm, Timedelta.totalSeconds]
    have hc : p.cap = p.initialInterval.totalSeconds * 100 := by simp [RetryPolicy.cap, hm]
    have hdelay : p.initialInterval.totalSeconds ≤ p.initialInterval.totalSeconds * p.backoffCoefficient ^ (n - 1) :=
      le_mul_of_one_le_right hi hpow
    have hzero : cappedExponential p.initialInterval.totalSeconds p.backoffCoefficient p.workflowCap (n - 1) = 0 := by
      rw [hw]
      exact min_eq_right (hi.trans hdelay)
    rw [hzero, hc]
    constructor
    · intro h
      right
      by_contra hne
      have hpos : 0 < p.initialInterval.totalSeconds := lt_of_le_of_ne hi (Ne.symm hne)
      have hlt : 0 < cappedExponential p.initialInterval.totalSeconds p.backoffCoefficient
          (p.initialInterval.totalSeconds * 100) (n - 1) := lt_min (hpos.trans_le hdelay) (by linarith)
      linarith
    · intro h
      have h := h.resolve_left fun hne => hne hm
      simp [cappedExponential, h]
  · refine iff_of_true ?_ (.inl hm)
    have hcaps : p.workflowCap = p.cap := by
      simp only [RetryPolicy.workflowCap, RetryPolicy.cap]
      cases hx : p.maximumInterval with
      | none => rfl
      | some m =>
        have hz : m.micros ≠ 0 := fun hz => hm (by rw [hx]; cases m; cases hz; rfl)
        simp [hz]
    rw [hcaps]

end Dbosify
