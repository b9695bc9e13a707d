/-
The other way to the next run: workflow retries and cron.

A run that fails, or completes under a cron schedule, hops without the
interpreter's help. The dispatcher drains what is left of the inbox, decides
whether there is a next run, enqueues it, and sends on what it drained. The
continue-as-new path (`Carryover`) sends on from the inbox after the enqueue,
and the buffered signals first. The two hand over the same messages exactly
when no signal is buffered and nothing that matters comes after the drain
(`hop_same_iff`).
-/
import Dbosify.Carryover

namespace Dbosify

/-! ## The decision -/

/-- `RunMeta`, as far as a hop reads it. -/
structure RunMeta where
  cron : Option String := none
  attempt : Nat := 1
  retryPolicy : Option SerializedRetryPolicy := none
deriving DecidableEq

namespace RunMeta

/-- `hops_possible`. -/
def hopsPossible (m : RunMeta) : Bool := m.cron.isSome || m.retryPolicy.isSome

/-- `RunMeta.carried_forward`: configuration carries, the attempt resets. -/
def carriedForward (m : RunMeta) : RunMeta := { m with attempt := 1 }

end RunMeta

/-- A failure no policy retries: a cancellation, a termination, or a timeout
that is neither start-to-close nor heartbeat. -/
def Failure.neverRetried {δ : Type} (f : Failure δ) : Bool :=
  match f.info with
  | .cancelledError _ | .terminatedError _ => true
  | .timeoutError t _ => t ≠ some .startToClose && t ≠ some .heartbeat
  | _ => false

/-- `_workflow_retry_delay`: the backoff before the next run, or none to give
up. Here a maximum interval of zero is a cap like any other. -/
def workflowRetryDelay (p : SerializedRetryPolicy) (attempt : Nat) (failure : FailureEnvelope) :
    Except Exc (Option Seconds) :=
  if failure.neverRetried then .ok none
  else if failure.nonRetryable then .ok none
  else if failure.type.any fun t => (p.nonRetryableErrorTypes.getD []).contains t then .ok none
  else if p.maximumAttempts ≠ 0 ∧ p.maximumAttempts ≤ (attempt : Int) then .ok none
  else
    match failure.nextRetryDelay with
    | some d => .ok (some d)
    | none => do
      let factor ← pyPow p.backoffCoefficient (attempt - 1)
      .ok (some (min (p.initialInterval * factor) (p.maximumInterval.getD (p.initialInterval * 100))))

/-- The next run: its metadata, and the delay it is enqueued with. -/
abbrev NextRun := RunMeta × Seconds

/-- The cron chain's next occurrence. -/
def nextOccurrence (fire : String → Seconds) (m : RunMeta) : Option NextRun :=
  m.cron.map fun c => (m.carriedForward, fire c)

/-- What `_continue_chain_after_failure` starts: a retry while attempts are
left, else the next occurrence. -/
def afterFailure (fire : String → Seconds) (m : RunMeta) (failure : FailureEnvelope) : Except Exc (Option NextRun) := do
  let retry ←
    match m.retryPolicy with
    | some p => workflowRetryDelay p m.attempt failure
    | none => .ok none
  match retry with
  | some d => .ok (some ({ m.carriedForward with attempt := m.attempt + 1 }, d))
  | none => .ok (nextOccurrence fire m)

/-- What a run that closed so hops to. A continue-as-new has hopped already, a
cancellation ends the chain. -/
def nextHop (fire : String → Seconds) (m : RunMeta) : Option Outcome → Except Exc (Option NextRun)
  | some (.ok _) => .ok (nextOccurrence fire m)
  | some (.failure e) => if m.hopsPossible then afterFailure fire m e.serialize else .ok none
  | some (.continueAsNew _) | some (.cancelled _) | some (.taskFailure _) | none => .ok none

/-! ## The hop -/

inductive HopStage
  /-- In `_drain_unconsumed_inbox`. -/
  | draining
  /-- Up to the enqueue of the next run. -/
  | deciding
  /-- In `_forward_carryover`. -/
  | forwarding (newRun : String)
  | handedOver (newRun : String)
  /-- No next run. -/
  | ended
deriving DecidableEq

/-- Whether a message may still come. -/
def HopStage.isOpen : HopStage → Bool
  | handedOver _ | ended => false
  | draining | deciding | forwarding _ => true

/-- A closed run, the inbox its receive task left, and the messages that have
come since the drain saw that inbox empty. -/
structure Hop where
  stage : HopStage := .draining
  interp : Interp
  mail : Mail.Ledger Message
  late : List Message := []

/-- The hop decision: a cancel observed, or one among the drained messages,
ends the chain. -/
def Hop.decision (fire : String → Seconds) (m : RunMeta) (h : Hop) : Except Exc (Option NextRun) :=
  if h.interp.cancelRequested || h.mail.held.any Message.isCancel then .ok none else nextHop fire m h.interp.outcome

/-- A ledger of messages that are all in the inbox. -/
def inboxOf (inbox : List Message) : Mail.Ledger Message := { arrived := inbox, inbox }

def Hop.start (s : Interp) (inbox : List Message) : Hop := { interp := s, mail := inboxOf inbox }

/-- One step of the dispatcher, or of a sender. -/
inductive HopStep (x : Execution) (fire : String → Seconds) (m : RunMeta) : Hop → Hop → Prop
  | arrives {h : Hop} (msg : Message) (ho : h.stage.isOpen = true) :
      HopStep x fire m h { h with
        mail := h.mail.arrive msg
        late := if h.stage = .draining then h.late else h.late ++ [msg] }
  | receives {h : Hop} {msg : Message} {rest : List Message} (hs : h.stage = .draining)
      (hi : h.mail.inbox = msg :: rest) : HopStep x fire m h { h with mail := h.mail.take }
  | seesEmpty {h : Hop} (hs : h.stage = .draining) (hi : h.mail.inbox = []) :
      HopStep x fire m h { h with stage := .deciding }
  | enqueues {h : Hop} {n : NextRun} (hs : h.stage = .deciding) (hd : h.decision fire m = .ok (some n)) :
      HopStep x fire m h { h with stage := .forwarding (Interp.nextRunId x) }
  | ends {h : Hop} (hs : h.stage = .deciding) (hd : h.decision fire m = .ok none) :
      HopStep x fire m h { h with stage := .ended }
  | raises {h : Hop} {e : Exc} (hs : h.stage = .deciding) (hd : h.decision fire m = .error e) :
      HopStep x fire m h { h with stage := .ended }
  | sends {h : Hop} {newRun : String} {msg : Message} {rest : List Message} (hs : h.stage = .forwarding newRun)
      (hh : h.mail.held = msg :: rest) (hm : msg.runScoped = false) :
      HopStep x fire m h { h with mail := h.mail.forward }
  | drops {h : Hop} {newRun : String} {msg : Message} {rest : List Message} (hs : h.stage = .forwarding newRun)
      (hh : h.mail.held = msg :: rest) (hm : msg.runScoped = true) : HopStep x fire m h { h with mail := h.mail.drop }
  | done {h : Hop} {newRun : String} (hs : h.stage = .forwarding newRun) (hh : h.mail.held = []) :
      HopStep x fire m h { h with stage := .handedOver newRun }

/-- Steps, one after another. -/
inductive HopRun (x : Execution) (fire : String → Seconds) (m : RunMeta) : Hop → Hop → Prop
  | refl (h : Hop) : HopRun x fire m h h
  | tail {a b c : Hop} : HopRun x fire m a b → HopStep x fire m b c → HopRun x fire m a c

/-! ## What a hop hands over -/

variable {x : Execution} {fire : String → Seconds} {m : RunMeta} {a b h : Hop}

/-- What matters is sent on, still held, or still in the inbox, in the order
it came; and what came after the drain is in the inbox for good. -/
structure Hop.Ordered (h : Hop) : Prop where
  all : h.mail.outgoing Message.kept = h.mail.arrived.filter Message.kept
  sent : h.mail.forwarded.filter Message.kept = h.mail.forwarded
  late : if h.stage = .draining then h.late = [] else h.mail.inbox = h.late
  done : ∀ n, h.stage = .handedOver n → h.mail.held = []

theorem Hop.ordered_start (s : Interp) (inbox : List Message) : (Hop.start s inbox).Ordered where
  all := by simp [Hop.start, inboxOf, Mail.Ledger.outgoing]
  sent := rfl
  late := rfl
  done := by intro n hn; cases hn

theorem HopStep.ordered (hs : HopStep x fire m a b) (h : a.Ordered) : b.Ordered := by
  obtain ⟨hall, hsent, hlate, hdone⟩ := h
  cases hs with
  | arrives msg ho =>
    refine ⟨?_, hsent, ?_, hdone⟩
    · rw [Mail.Ledger.outgoing_arrive, hall]
      simp [Mail.Ledger.arrive]
    · dsimp only
      split
      · next hd => simpa [hd] using hlate
      · next hd => simpa [hd, Mail.Ledger.arrive] using hlate
  | receives hst hi =>
    refine ⟨?_, ?_, ?_, ?_⟩
    · rw [Mail.Ledger.outgoing_take, hall]
      simp [Mail.Ledger.take, hi]
    · simpa [Mail.Ledger.take, hi] using hsent
    · simpa [hst] using hlate
    · intro n hn; rw [hst] at hn; cases hn
  | seesEmpty hst hi =>
    refine ⟨hall, hsent, ?_, by intro n hn; cases hn⟩
    simpa [hst, hi, eq_comm] using hlate
  | enqueues hst | ends hst | raises hst =>
    refine ⟨hall, hsent, ?_, by intro n hn; cases hn⟩
    simpa [hst] using hlate
  | sends hst hh hm =>
    refine ⟨?_, ?_, ?_, ?_⟩
    · rw [Mail.Ledger.outgoing_forward, hall]
      simp [Mail.Ledger.forward, hh]
    · simp [Mail.Ledger.forward, hh, List.filter_append, hsent, Message.kept, hm]
    · simpa [hst, Mail.Ledger.forward, hh] using hlate
    · intro n hn; rw [hst] at hn; cases hn
  | drops hst hh hm =>
    refine ⟨?_, ?_, ?_, ?_⟩
    · rw [Mail.Ledger.outgoing_drop hh (by simp [Message.kept, hm]), hall]
      simp [Mail.Ledger.drop, hh]
    · simpa [Mail.Ledger.drop, hh] using hsent
    · simpa [hst, Mail.Ledger.drop, hh] using hlate
    · intro n hn; rw [hst] at hn; cases hn
  | done hst hh => exact ⟨hall, hsent, by simpa [hst] using hlate, fun _ _ => hh⟩

theorem HopRun.ordered (hr : HopRun x fire m a b) (h : a.Ordered) : b.Ordered := by
  induction hr with
  | refl => exact h
  | tail _ hs ih => exact hs.ordered ih

/-- **What a hop hands over**: what matters of the messages that came, but for
those that came after the drain. -/
theorem HopRun.handsOver {s : Interp} {inbox : List Message} {n : String} (hr : HopRun x fire m (.start s inbox) h)
    (hs : h.stage = .handedOver n) :
    h.mail.arrived.filter Message.kept = h.mail.forwarded ++ h.late.filter Message.kept := by
  obtain ⟨hall, hsent, hlate, hdone⟩ := hr.ordered (Hop.ordered_start s inbox)
  rw [if_neg (by rw [hs]; exact HopStage.noConfusion)] at hlate
  rw [← hall, Mail.Ledger.outgoing, hdone n hs, hlate, List.append_nil, List.filter_append, hsent]

/-! ## A hop goes through -/

theorem HopRun.trans (h₁ : HopRun x fire m a b) (h₂ : HopRun x fire m b h) : HopRun x fire m a h := by
  induction h₂ with
  | refl => exact h₁
  | tail _ hs ih => exact ih.tail hs

/-- The drain empties the inbox into the dispatcher's hands. -/
theorem drain_completes (l : List Message) : ∀ {a : Hop}, a.stage = .draining → a.mail.inbox = l →
    HopRun x fire m a { a with stage := .deciding, mail := { a.mail with inbox := [], held := a.mail.held ++ l } } := by
  induction l with
  | nil =>
    intro a hs hi
    have h : HopRun x fire m a _ := (HopRun.refl a).tail (.seesEmpty hs hi)
    rwa [show a.mail = { a.mail with inbox := [], held := a.mail.held ++ [] } by rw [List.append_nil, ← hi]] at h
  | cons msg rest ih =>
    intro a hs hi
    have h₁ : HopRun x fire m a _ := (HopRun.refl a).tail (.receives hs hi)
    have h₂ := ih (a := { a with mail := a.mail.take }) hs (by simp [Mail.Ledger.take, hi])
    have hm : { a.mail.take with inbox := [], held := a.mail.take.held ++ rest } =
        { a.mail with inbox := [], held := a.mail.held ++ msg :: rest } := by
      simp [Mail.Ledger.take, hi]
    rw [hm] at h₂
    exact h₁.trans h₂

/-- What the dispatcher holds is sent on, or dropped. -/
theorem forwarding_completes (x : Execution) (fire : String → Seconds) (m : RunMeta) {n : String} (l : List Message) :
    ∀ {a : Hop}, a.stage = .forwarding n → a.mail.held = l →
    ∃ b, HopRun x fire m a b ∧ b.stage = .handedOver n ∧ b.mail.arrived = a.mail.arrived ∧ b.late = a.late := by
  induction l with
  | nil => intro a hs hh; exact ⟨_, (HopRun.refl a).tail (.done hs hh), rfl, rfl, rfl⟩
  | cons msg rest ih =>
    intro a hs hh
    cases hm : msg.runScoped with
    | false =>
      obtain ⟨b, hb, hst, ha, hl⟩ := ih (a := { a with mail := a.mail.forward }) hs (by simp [Mail.Ledger.forward, hh])
      refine ⟨b, ((HopRun.refl a).tail (.sends hs hh hm)).trans hb, hst, ?_, hl⟩
      rw [ha]
      simp [Mail.Ledger.forward, hh]
    | true =>
      obtain ⟨b, hb, hst, ha, hl⟩ := ih (a := { a with mail := a.mail.drop }) hs (by simp [Mail.Ledger.drop, hh])
      refine ⟨b, ((HopRun.refl a).tail (.drops hs hh hm)).trans hb, hst, ?_, hl⟩
      rw [ha]
      simp [Mail.Ledger.drop, hh]

/-- **A hop that nothing disturbs goes through**, when there is a next run. -/
theorem hop_completes (x : Execution) {s : Interp} {inbox : List Message} {n : NextRun}
    (hd : ({ stage := .deciding, interp := s, mail := { inboxOf inbox with inbox := [], held := inbox } } : Hop).decision
      fire m = .ok (some n)) :
    ∃ b, HopRun x fire m (.start s inbox) b ∧ b.stage = .handedOver (Interp.nextRunId x) ∧ b.mail.arrived = inbox ∧
      b.late = [] := by
  have h₁ : HopRun x fire m (.start s inbox) _ := drain_completes inbox rfl rfl
  obtain ⟨b, hb, hst, ha, hl⟩ := forwarding_completes x fire m (n := Interp.nextRunId x) inbox
    (a := { stage := .forwarding (Interp.nextRunId x), interp := s, mail := { inboxOf inbox with inbox := [], held := inbox } })
    rfl rfl
  exact ⟨b, (h₁.tail (.enqueues rfl hd)).trans hb, hst, ha, hl⟩

/-! ## What a continue-as-new hands over -/

/-- The continue-as-new of a run with this state and this inbox, once its
waiters are torn down. -/
def Chain.handsOver (newRun : String) (s : Interp) (inbox : List Message) : Chain :=
  { stage := .buffered newRun s.buffered, interp := s, mail := inboxOf inbox }

/-- What matters is sent on, still held, or still in the inbox, in the order
it came. -/
structure Chain.Ordered (c : Chain) : Prop where
  torn : c.stage.recvAlive = false
  all : c.mail.outgoing Message.kept = c.mail.arrived.filter Message.kept
  sent : c.mail.forwarded.filter Message.kept = c.mail.forwarded

variable {c d : Chain}

theorem CarryStep.ordered (hs : CarryStep x c d) (h : c.Ordered) : d.Ordered := by
  obtain ⟨htorn, hall, hsent⟩ := h
  cases hs with
  | arrives msg ho =>
    refine ⟨htorn, ?_, hsent⟩
    rw [Mail.Ledger.outgoing_arrive, hall]
    simp [Mail.Ledger.arrive]
  | takes ha => rw [ha] at htorn; cases htorn
  | pass _ _ _ hc | passCloses _ _ _ hc | passRaises _ _ _ hc | round _ _ hc | startsNext _ _ hc | tearsDown hc =>
    rw [hc] at htorn
    cases htorn
  | forwardsSignal hc | signalsForwarded hc => exact ⟨rfl, hall, hsent⟩
  | forwardsCancel env hc =>
    refine ⟨rfl, ?_, ?_⟩ <;> dsimp only <;> rw [(send_foldl _ _ _).2]
    exacts [hall, hsent]
  | receives hc hh hi =>
    refine ⟨by rw [hc]; rfl, ?_, ?_⟩
    · rw [Mail.Ledger.outgoing_take, hall]
      simp [Mail.Ledger.take, hi]
    · simpa [Mail.Ledger.take, hi] using hsent
  | sends hc hh hm =>
    refine ⟨htorn, ?_, ?_⟩
    · rw [Mail.Ledger.outgoing_forward, hall]
      simp [Mail.Ledger.forward, hh]
    · simp [Mail.Ledger.forward, hh, List.filter_append, hsent, Message.kept, hm]
  | drops hc hh hm =>
    refine ⟨htorn, ?_, ?_⟩
    · rw [Mail.Ledger.outgoing_drop hh (by simp [Message.kept, hm]), hall]
      simp [Mail.Ledger.drop, hh]
    · simpa [Mail.Ledger.drop, hh] using hsent
  | seesEmpty hc => exact ⟨rfl, hall, hsent⟩

theorem CarryRun.ordered (hr : CarryRun x c d) (h : c.Ordered) : d.Ordered := by
  induction hr with
  | refl => exact h
  | tail _ hs ih => exact hs.ordered ih

/-- **What a continue-as-new hands over**: the buffered signals, then what
matters of the messages that came. -/
theorem CarryRun.handsOver {s : Interp} {inbox : List Message} {newRun n : String} (hs : s.cancelRequested = false)
    (hr : CarryRun x (.handsOver newRun s inbox) c) (hc : c.stage = .handedOver n) :
    c.next = s.buffered.map .signal ++ c.mail.arrived.filter Message.kept := by
  obtain ⟨-, hall, hsent⟩ := hr.ordered ⟨rfl, by simp [Chain.handsOver, inboxOf, Mail.Ledger.outgoing], rfl⟩
  have hf : (Chain.handsOver newRun s inbox).Forwards c :=
    hr.forwards ⟨rfl, rfl, by simp [Chain.handsOver], rfl, rfl, fun _ => rfl⟩
  obtain ⟨-, -, hf⟩ := hf
  rw [hc] at hf
  obtain ⟨⟨env, hn⟩, hh, hi⟩ := hf
  have hcan : (Chain.handsOver newRun s inbox).interp.carriedCancel env = [] := by
    simp [Chain.handsOver, Interp.carriedCancel, hs]
  rw [Mail.Ledger.outgoing, hh, hi, List.append_nil, List.append_nil, hsent] at hall
  rw [hn, hcan, List.append_nil, hall]
  rfl

/-! ## The two hops -/

/-- **When the two hops hand over the same**: exactly when no signal is
buffered, and nothing that matters comes after the drain. -/
theorem hop_same_iff {s : Interp} {inbox : List Message} {newRun n n' : String} (hs : s.cancelRequested = false)
    (hr : HopRun x fire m (.start s inbox) h) (hst : h.stage = .handedOver n)
    (hc : CarryRun x (.handsOver newRun s inbox) c) (hct : c.stage = .handedOver n')
    (ha : c.mail.arrived = h.mail.arrived) :
    h.mail.forwarded = c.next ↔ s.buffered = [] ∧ h.late.filter Message.kept = [] := by
  rw [hc.handsOver hs hct, ha, hr.handsOver hst]
  constructor
  · intro he
    have hl := congrArg List.length he
    simp only [List.length_append, List.length_map] at hl
    exact ⟨List.eq_nil_of_length_eq_zero (by omega), List.eq_nil_of_length_eq_zero (by omega)⟩
  · rintro ⟨hb, hl⟩
    rw [hb, hl, List.map_nil, List.nil_append, List.append_nil]

/-- A failure a policy retries. -/
def boom : FailureEnvelope := { info := .applicationError (some "Boom") [] false .unspecified none, message := "boom" }

/-- Retries without a limit. -/
def retrying : RunMeta := { retryPolicy := some (serializeRetryPolicy {}) }

/-- A run that fails after a signal nobody handles, or without one. -/
theorem plain_fails (signalled : Bool) : ∃ s, Reachable .plain ⟨.closing none, s⟩ ∧
    (s.closeRun .plain .calm).cancelRequested = false ∧
    (s.closeRun .plain .calm).buffered = (if signalled then [{ name := "go", args := [] }] else []) ∧
    ∃ n, nextHop (fun _ => 0) retrying (s.closeRun .plain .calm).outcome = .ok (some n) := by
  let c := Execution.plain.run 0 [.drain [.createTimer 1],
    .round .calm (if signalled then [(1, .message (some goSignal))] else [(0, .slept)]),
    .drain [.primaryEnds (.raised (.failureError boom))]]
  have h : (c.phase.isClosed && !(c.interp.closeRun .plain .calm).cancelRequested &&
      (c.interp.closeRun .plain .calm).buffered = (if signalled then [{ name := "go", args := [] }] else []) &&
      (nextHop (fun _ => 0) retrying (c.interp.closeRun .plain .calm).outcome).toOption.any Option.isSome) = true := by
    cases signalled <;> decide +kernel
  have hr : Reachable .plain c := Execution.run_reachable ..
  simp only [Bool.and_eq_true, Bool.not_eq_true', decide_eq_true_eq, Option.any_eq_true, Phase.isClosed_iff] at h
  obtain ⟨⟨⟨hp, hc⟩, hb⟩, n, hn, hsome⟩ := h
  obtain ⟨n, rfl⟩ := Option.isSome_iff_exists.1 hsome
  refine ⟨c.interp, ?_, hc, hb, n, ?_⟩
  · rw [← hp]; exact hr
  · cases hx : nextHop (fun _ => 0) retrying (c.interp.closeRun .plain .calm).outcome with
    | error e => rw [hx] at hn; cases hn
    | ok a => rw [hx] at hn; cases hn; rfl

/-- A retry hands over nothing of what a run has buffered; a continue-as-new
hands it over. -/
theorem bufferedSignal_retried : ∃ (x : Execution) (fire : String → Seconds) (m : RunMeta) (env : Env) (s : Interp)
    (h : Hop) (c : Chain) (n : String), Reachable x ⟨.closing none, s⟩ ∧
      (s.closeRun x env).cancelRequested = false ∧
      HopRun x fire m (.start (s.closeRun x env) []) h ∧ h.stage = .handedOver n ∧
      CarryRun x (.handsOver n (s.closeRun x env) []) c ∧ c.stage = .handedOver n ∧
      c.mail.arrived = h.mail.arrived ∧ h.mail.forwarded ≠ c.next := by
  obtain ⟨s, hs, hcan, hbuf, n, hn⟩ := plain_fails true
  obtain ⟨h, hr, hst, ha, hl⟩ := hop_completes .plain (show Hop.decision (fun _ => 0) retrying
    { stage := .deciding, interp := s.closeRun .plain .calm, mail := { inboxOf [] with inbox := [], held := [] } } = _ by
      rw [Hop.decision, hcan]; exact hn)
  obtain ⟨c, hc, hct, ⟨hca, -⟩, -⟩ := buffered_completes (x := .plain) (n := Interp.nextRunId .plain) _
    (a := .handsOver (Interp.nextRunId .plain) (s.closeRun .plain .calm) []) rfl rfl
  refine ⟨.plain, _, _, .calm, s, h, c, _, hs, hcan, hr, hst, hc, hct, by rw [hca, ha]; rfl, ?_⟩
  have hf := hr.handsOver hst
  rw [ha, hl] at hf
  rw [hc.handsOver hcan hct, hbuf, hca]
  intro he
  simp [he] at hf

/-- Without a buffered signal the two agree. -/
theorem nothingBuffered_retried : ∃ (s : Interp) (h : Hop) (c : Chain) (n : String),
    Reachable .plain ⟨.closing none, s⟩ ∧
      HopRun .plain (fun _ => 0) retrying (.start (s.closeRun .plain .calm) [goSignal]) h ∧ h.stage = .handedOver n ∧
      CarryRun .plain (.handsOver n (s.closeRun .plain .calm) [goSignal]) c ∧ c.stage = .handedOver n ∧
      h.mail.forwarded = c.next := by
  obtain ⟨s, hs, hcan, hbuf, n, hn⟩ := plain_fails false
  obtain ⟨h, hr, hst, ha, hl⟩ := hop_completes .plain (show Hop.decision (fun _ => 0) retrying
    { stage := .deciding, interp := s.closeRun .plain .calm, mail := { inboxOf [goSignal] with
      inbox := [], held := [goSignal] } } = _ by rw [Hop.decision, hcan]; exact hn)
  obtain ⟨c, hc, hct, ⟨hca, -⟩, -⟩ := buffered_completes (x := .plain) (n := Interp.nextRunId .plain) _
    (a := .handsOver (Interp.nextRunId .plain) (s.closeRun .plain .calm) [goSignal]) rfl rfl
  exact ⟨s, h, c, _, hs, hr, hst, hc, hct,
    (hop_same_iff hcan hr hst hc hct (by rw [hca, ha]; rfl)).2 ⟨hbuf, by rw [hl]; rfl⟩⟩

end Dbosify
