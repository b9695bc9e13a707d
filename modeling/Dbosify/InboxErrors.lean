/-
What a bad message does to a run.

A signal that does not decode is dropped. Every other payload is decoded
unguarded, and a handler whose function cannot take the arguments raises in
its first step, which fails the workflow task. `inbox_harmless_iff` says
which messages leave the run alone.
-/
import Dbosify.Rest
import Dbosify.Delivery

namespace Dbosify

open Py (Dict)

/-! ## Decoding -/

/-- The values a handler gets from a message. -/
def messageArgs (c : Converter) (defn : Option HandlerDefn) (name : String) (args : List Payload) :
    Except Exc (List Value) :=
  if defn.any (·.name.isNone) then
    (decodeValues c args (some (List.replicate args.length Hint.rawValue))).map fun raw => [.str name, .list raw]
  else decodeValues c args (defn.bind (·.argTypes))

namespace Interp

variable {x : Execution} {env : Env} {s s' : Interp}

theorem decodeMessageArgs_eq (env : Env) (s : Interp) (d : Option HandlerDefn) (name : String) (args : List Payload) :
    s.decodeMessageArgs env d name args =
      (lift (s.awaitIf (!args.isEmpty)) (messageArgs env.converter d name args)).map (·, s.awaitIf (!args.isEmpty)) := by
  unfold decodeMessageArgs messageArgs
  dsimp only
  split
  · cases decodeValues env.converter args (some (List.replicate args.length Hint.rawValue)) <;> rfl
  · cases decodeValues env.converter args (d.bind (·.argTypes)) <;> rfl

theorem decodeMessageHeaders_eq (env : Env) (s : Interp) (hs : Headers) :
    s.decodeMessageHeaders env hs =
      (lift (s.awaitIf (!hs.isEmpty)) (decodeHeaders env.converter hs)).map (·, s.awaitIf (!hs.isEmpty)) := by
  unfold decodeMessageHeaders
  dsimp only
  cases decodeHeaders env.converter hs <;> rfl

end Interp

/-! ## The condition -/

/-- What an event is asked to convert can be converted. -/
def Converts {α : Type} (r : Except Exc α) : Prop := ∃ a, r = .ok a

namespace Message

/-- The arguments decode, for the handler the message finds. -/
def ArgsDecode (x : Execution) (env : Env) (s : Interp) : Message → Prop
  | .signal e => ∀ d, s.resolveSignal x e.name = some d → Converts (messageArgs env.converter (some d) e.name e.args)
  | .update e => Converts (messageArgs env.converter (s.resolveUpdate x e.name) e.name e.args)
  | .query e => Converts (messageArgs env.converter (s.resolveQuery x e.name) e.name e.args)
  | _ => True

/-- Every payload decoded without a guard decodes: all but the arguments of a
signal and the headers of a query. -/
def Decodes (x : Execution) (env : Env) (s : Interp) : Message → Prop
  | .signal e => ∀ d, s.resolveSignal x e.name = some d → Converts (messageArgs env.converter (some d) e.name e.args) →
      Converts (decodeHeaders env.converter e.headers)
  | .update e => Converts (messageArgs env.converter (s.resolveUpdate x e.name) e.name e.args) ∧
      (s.seenUpdateIds.contains e.updateId = false → (s.resolveUpdate x e.name).isSome = true →
        Converts (decodeHeaders env.converter e.headers))
  | .query e => Converts (messageArgs env.converter (s.resolveQuery x e.name) e.name e.args)
  | .activityResult i (.ok p) _ => ∀ k e, s.asyncPendingById i = some (k, e) →
      Converts (decodeValue env.converter p (x.activityRetType e.activityName))
  | .activityResult i (.failed f) t => ∀ k e, s.asyncPendingById i = some (k, e) →
      ∀ st, (s.advanceTime t).retryDecision e f = .ok (none, st) → Converts (deserializeFailure env.converter f)
  | .activityHeartbeat i ds _ => (s.asyncPendingById i).isSome = true → Converts (decodeValues env.converter ds none)
  | _ => True

/-- The retry decision an async failure asks for overflows nothing. -/
def Decides (s : Interp) : Message → Prop
  | .activityResult i (.failed f) t => ∀ k e, s.asyncPendingById i = some (k, e) →
      Converts ((s.advanceTime t).retryDecision e f)
  | _ => True

/-- The function of the handler the message starts takes its arguments. -/
def Accepted (x : Execution) (env : Env) (s : Interp) : Message → Prop
  | .signal e => ∀ d vs, s.resolveSignal x e.name = some d → messageArgs env.converter (some d) e.name e.args = .ok vs →
      d.accepts vs.length = true
  | .update e => s.seenUpdateIds.contains e.updateId = false → ∀ d vs, s.resolveUpdate x e.name = some d →
      messageArgs env.converter (some d) e.name e.args = .ok vs →
      (if d.hasValidator then env.validator e.name vs else none) = none → d.accepts vs.length = true
  | _ => True

/-- What the sender of a message that does not decode is told, and nobody
else. -/
def Answered (s s' : Interp) : Message → Prop
  | .signal e => Traces (s.advanceTime e.sentAt) s'
  | .update e => ∃ f, s'.inflightHandlers = s.inflightHandlers ∧ s'.outbox = s.outbox ++
      [(.updateAcceptance e.updateId, ⟨.rejected, .inr f⟩), (.updateResult e.updateId, ⟨.rejected, .inr f⟩)]
  | .query e => ∃ f, s'.inflightHandlers = s.inflightHandlers ∧
      s'.outbox = s.outbox ++ [(.queryResult e.requestId, ⟨.failed, .inr f⟩)]
  | _ => True

end Message

namespace Interp

/-- The message is delivered; where it does not decode its sender is told; and
neither it nor the first step of the handler it starts ends the run. -/
structure Harmless (x : Execution) (env : Env) (s : Interp) (m : Message) : Prop where
  returns : ∃ s', s.deliverInbox x env (some m) = .ok s'
  answered : ∀ s', s.deliverInbox x env (some m) = .ok s' → ¬ m.ArgsDecode x env s → m.Answered s s'
  goesOn : ∀ s', s.deliverInbox x env (some m) = .ok s' → s'.outcome = s.outcome ∧
    ∀ t, .handler t ∈ s'.ready.drop s.ready.length → (s'.startHandler x t).outcome = s.outcome

/-! ## The pieces -/

variable {x : Execution} {env : Env} {s s' : Interp}

/-- Only the clock and the history have moved. -/
def Aside (s s' : Interp) : Prop := ∃ now t, s' = { s with timeSeconds := now, trace := t }

namespace Aside

variable {s₁ : Interp}

theorem trans (h : Aside s s₁) (h' : Aside s₁ s') : Aside s s' := by
  obtain ⟨_, _, rfl⟩ := h
  obtain ⟨_, _, rfl⟩ := h'
  exact ⟨_, _, rfl⟩

theorem advanceTime (s : Interp) (t : Option Seconds) : Aside s (s.advanceTime t) := by
  unfold Interp.advanceTime
  split
  · split
    · exact ⟨_, _, rfl⟩
    · exact ⟨_, _, rfl⟩
  · exact ⟨_, _, rfl⟩

theorem traces (h : Traces s s') : Aside s s' := by
  obtain ⟨t, rfl⟩ := h
  exact ⟨_, _, rfl⟩

theorem ready (h : Aside s s') : s'.ready = s.ready := by obtain ⟨_, _, rfl⟩ := h; rfl

theorem outcome (h : Aside s s') : s'.outcome = s.outcome := by obtain ⟨_, _, rfl⟩ := h; rfl

theorem outbox (h : Aside s s') : s'.outbox = s.outbox := by obtain ⟨_, _, rfl⟩ := h; rfl

theorem seen (h : Aside s s') : s'.seenUpdateIds = s.seenUpdateIds := by obtain ⟨_, _, rfl⟩ := h; rfl

theorem resolveSignal (h : Aside s s') (n : String) : s'.resolveSignal x n = s.resolveSignal x n := by
  obtain ⟨_, _, rfl⟩ := h; rfl

theorem resolveUpdate (h : Aside s s') (n : String) : s'.resolveUpdate x n = s.resolveUpdate x n := by
  obtain ⟨_, _, rfl⟩ := h; rfl

theorem resolveQuery (h : Aside s s') (n : String) : s'.resolveQuery x n = s.resolveQuery x n := by
  obtain ⟨_, _, rfl⟩ := h; rfl

theorem asyncPendingById (h : Aside s s') (i : String) : s'.asyncPendingById i = s.asyncPendingById i := by
  obtain ⟨_, _, rfl⟩ := h; rfl

end Aside

/-- A function that cannot take its arguments ends the run, unless it has
ended. -/
theorem outcome_wrongArguments {t : Nat} {h : Handler} (hget : s.inflightHandlers.get? t = some h)
    (hid : h.kind = .update → h.id.isSome = true) :
    (s.handlerEnds x t (.raised (.other "TypeError" "wrong number of arguments"))).outcome = s.outcome ↔
      s.outcome ≠ none := by
  have hrec : ∀ s₁ : Interp, s₁.outcome = s.outcome →
      ((s₁.recordWorkflowError x (.other "TypeError" "wrong number of arguments")).outcome = s.outcome ↔
        s.outcome ≠ none) := by
    intro s₁ h₁
    simp only [recordWorkflowError, WorkflowExc.isCancelled, WorkflowExc.isFailure, Bool.false_eq_true, and_false,
      if_false, setOutcome, h₁]
    cases ho : s.outcome with
    | none => simp
    | some o => simp [h₁, ho]
  obtain ⟨kind, name, id, args, headers⟩ := h
  unfold handlerEnds
  simp only [hget]
  cases kind with
  | signal => exact hrec _ rfl
  | update =>
    obtain ⟨u, rfl⟩ := Option.isSome_iff_exists.1 (hid rfl)
    exact hrec _ rfl

/-- The first step of a handler. -/
theorem outcome_startHandler {t : Nat} {h : Handler} {d : HandlerDefn} (hget : s.inflightHandlers.get? t = some h)
    (hid : h.kind = .update → h.id.isSome = true)
    (hd : (match h.kind with
      | .signal => s.resolveSignal x h.name
      | .update => s.resolveUpdate x h.name) = some d) :
    (s.startHandler x t).outcome = s.outcome ↔ (s.outcome = none → d.accepts h.args.length = true) := by
  have hstep : s.startHandler x t = if d.accepts h.args.length = true then s
      else s.handlerEnds x t (.raised (.other "TypeError" "wrong number of arguments")) := by
    unfold startHandler
    simp only [hget]
    cases hk : h.kind <;> simp only [hk] at hd <;> simp only [hd, Option.map_some, Option.getD_some]
  rw [hstep]
  split
  · next ha => simp [ha]
  · next ha =>
    rw [outcome_wrongArguments hget hid]
    simp [ha]

/-- What is left of `Harmless` for a message that is delivered, and starts at
most this handler. -/
theorem harmless_of_ok {m : Message} (hs : s.deliverInbox x env (some m) = .ok s') :
    s.Harmless x env m ↔ (¬ m.ArgsDecode x env s → m.Answered s s') ∧ s'.outcome = s.outcome ∧
      ∀ t, .handler t ∈ s'.ready.drop s.ready.length → (s'.startHandler x t).outcome = s.outcome := by
  constructor
  · intro h
    exact ⟨h.answered s' hs, h.goesOn s' hs⟩
  · rintro ⟨ha, hg⟩
    refine ⟨⟨s', hs⟩, fun s₁ h₁ => ?_, fun s₁ h₁ => ?_⟩
    · rw [hs] at h₁
      cases h₁
      exact ha
    · rw [hs] at h₁
      cases h₁
      exact hg

theorem not_harmless {m : Message} {r : Raised} (hs : s.deliverInbox x env (some m) = .error r) :
    ¬ s.Harmless x env m := by
  intro h
  obtain ⟨s', h'⟩ := h.returns
  rw [hs] at h'
  cases h'

/-- A message that wakes no handler. -/
theorem harmless_quiet {m : Message} (hs : s.deliverInbox x env (some m) = .ok s') (ho : s'.outcome = s.outcome)
    (hr : ∀ t, .handler t ∉ s'.ready.drop s.ready.length) (ha : ¬ m.ArgsDecode x env s → m.Answered s s') :
    s.Harmless x env m :=
  (harmless_of_ok hs).2 ⟨ha, ho, fun t ht => absurd ht (hr t)⟩

/-! ## Each kind of message -/

/-- A message whose handler is spawned. -/
theorem harmless_spawn {m : Message} {s₂ : Interp} {h : Handler} {d : HandlerDefn}
    (hs : s.deliverInbox x env (some m) = .ok (s₂.spawnHandler h)) (ho : s₂.outcome = s.outcome)
    (hr : s₂.ready = s.ready) (ha : m.ArgsDecode x env s) (hid : h.kind = .update → h.id.isSome = true)
    (hd : (match h.kind with
      | .signal => s₂.resolveSignal x h.name
      | .update => s₂.resolveUpdate x h.name) = some d) :
    s.Harmless x env m ↔ (s.outcome = none → d.accepts h.args.length = true) := by
  have hget : (s₂.spawnHandler h).inflightHandlers.get? s₂.nextTask = some h := Dict.get?_set_self _ _ _
  have hdrop : (s₂.spawnHandler h).ready.drop s.ready.length = [.handler s₂.nextTask] := by
    rw [← hr]
    exact List.drop_left
  have hstart := outcome_startHandler (x := x) hget hid hd
  rw [show (s₂.spawnHandler h).outcome = s.outcome from ho] at hstart
  rw [harmless_of_ok hs, hdrop, ← hstart]
  constructor
  · rintro ⟨-, -, hg⟩
    exact hg _ (.head _)
  · refine fun h => ⟨fun hn => absurd ha hn, ho, fun t ht => ?_⟩
    cases List.mem_singleton.1 ht
    exact h

theorem harmless_signal (e : SignalEnvelope) : s.Harmless x env (.signal e) ↔
    Message.Decodes x env s (.signal e) ∧ (s.outcome = none → Message.Accepted x env s (.signal e)) := by
  have hdel : s.deliverInbox x env (some (.signal e)) = (s.advanceTime e.sentAt).applySignal x env e := rfl
  have hadv := Aside.advanceTime s e.sentAt
  simp only [Message.Decodes, Message.Accepted]
  unfold applySignal at hdel
  rw [hadv.resolveSignal] at hdel
  cases hd : s.resolveSignal x e.name with
  | none =>
    rw [hd] at hdel
    refine iff_of_true (harmless_quiet hdel hadv.outcome (by simp [hadv.ready]) fun hn => absurd (fun d h => ?_) hn)
      ⟨(fun d h => by cases h), (fun _ d vs h => by cases h)⟩
    rw [hd] at h
    cases h
  | some d =>
    simp only [hd, decodeMessageArgs_eq] at hdel
    have haw := hadv.trans (.traces (traces_awaitIf _ (!e.args.isEmpty)))
    cases ha : messageArgs env.converter (some d) e.name e.args with
    | error err =>
      rw [ha] at hdel
      refine iff_of_true (harmless_quiet hdel haw.outcome (by simp [haw.ready]) fun _ => traces_awaitIf _ _)
        ⟨fun d' h hc => ?_, fun _ d' vs h hv => ?_⟩
      · cases h
        obtain ⟨vs, hv⟩ := hc
        rw [ha] at hv
        cases hv
      · cases h
        rw [ha] at hv
        cases hv
    | ok vs =>
      simp only [ha, lift_ok, Except.map, decodeMessageHeaders_eq] at hdel
      have haw' := haw.trans (.traces (traces_awaitIf _ (!e.headers.isEmpty)))
      cases hh : decodeHeaders env.converter e.headers with
      | error err =>
        rw [hh] at hdel
        refine iff_of_false (not_harmless hdel) fun hc => ?_
        obtain ⟨hs, hhs⟩ := hc.1 d rfl ⟨vs, ha⟩
        cases hhs
      | ok hs =>
        rw [hh] at hdel
        rw [harmless_spawn hdel haw'.outcome haw'.ready (fun d' h => ?_) (fun h => by cases h)
          (show _ = some d from (haw'.resolveSignal _).trans hd)]
        · constructor
          · refine fun hacc => ⟨fun d' h _ => ⟨hs, rfl⟩, fun ho d' vs' h hv => ?_⟩
            cases h
            rw [ha] at hv
            cases hv
            exact hacc ho
          · exact fun hc ho => hc.2 ho d vs rfl ha
        · rw [hd] at h
          cases h
          exact ⟨vs, ha⟩

/-- An update, its arguments decoded. -/
theorem harmless_applyUpdate {s₁ : Interp} {e : UpdateEnvelope} {vs : List Value}
    (hdel : s.deliverInbox x env (some (.update e)) = s₁.applyUpdate x env e vs) (h₁ : Aside s s₁)
    (ha : messageArgs env.converter (s.resolveUpdate x e.name) e.name e.args = .ok vs) :
    s.Harmless x env (.update e) ↔
      (s.seenUpdateIds.contains e.updateId = false → (s.resolveUpdate x e.name).isSome = true →
        Converts (decodeHeaders env.converter e.headers)) ∧
      (s.outcome = none → Message.Accepted x env s (.update e)) := by
  have hargs : Message.ArgsDecode x env s (.update e) := ⟨vs, ha⟩
  unfold applyUpdate at hdel
  simp only [Message.Accepted]
  rw [h₁.seen] at hdel
  by_cases hseen : s.seenUpdateIds.contains e.updateId = true
  · rw [if_pos hseen] at hdel
    refine iff_of_true (harmless_quiet hdel h₁.outcome (by simp [h₁.ready]) fun hn => absurd hargs hn)
      ⟨fun hf => ?_, fun _ hf => ?_⟩
    · rw [hseen] at hf; cases hf
    · rw [hseen] at hf; cases hf
  · rw [if_neg hseen] at hdel
    have hnew : s.seenUpdateIds.contains e.updateId = false := by simpa using hseen
    generalize hs₂ : ({ s₁ with seenUpdateIds := s.seenUpdateIds ++ [e.updateId] } : Interp) = s₂ at hdel
    have hready : s₂.ready = s.ready := by rw [← hs₂]; exact h₁.ready
    have hout : s₂.outcome = s.outcome := by rw [← hs₂]; exact h₁.outcome
    have hres : s₂.resolveUpdate x e.name = s.resolveUpdate x e.name := by rw [← hs₂]; exact h₁.resolveUpdate _
    clear hs₂
    dsimp only at hdel
    rw [hres] at hdel
    cases hd : s.resolveUpdate x e.name with
    | none =>
      rw [hd] at hdel
      exact iff_of_true (harmless_quiet hdel hout (by simp [reply, hready]) fun hn => absurd hargs hn)
        ⟨(fun _ h => by cases h), (fun _ _ d vs h => by cases h)⟩
    | some d =>
      rw [hd] at ha
      simp only [hd, decodeMessageHeaders_eq] at hdel
      have haw : Aside s₂ (s₂.awaitIf (!e.headers.isEmpty)) := .traces (traces_awaitIf _ _)
      cases hh : decodeHeaders env.converter e.headers with
      | error err =>
        rw [hh] at hdel
        refine iff_of_false (not_harmless hdel) fun hc => ?_
        obtain ⟨hs, hhs⟩ := hc.1 hnew rfl
        cases hhs
      | ok hs =>
        simp only [hh, lift_ok, Except.map, ok_bind] at hdel
        have hval : Aside (s₂.awaitIf (!e.headers.isEmpty))
            (if d.hasValidator = true then (s₂.awaitIf (!e.headers.isEmpty)).step (.validateUpdate e.updateId)
              else s₂.awaitIf (!e.headers.isEmpty)) := by
          split
          · exact .traces (traces_step _ _)
          · exact .traces (.refl _)
        have haw := haw.trans hval
        generalize (if d.hasValidator = true then (s₂.awaitIf (!e.headers.isEmpty)).step (.validateUpdate e.updateId)
            else s₂.awaitIf (!e.headers.isEmpty)) = s₃ at haw hdel
        have hready₃ := haw.ready.trans hready
        have hout₃ := haw.outcome.trans hout
        cases hv : (if d.hasValidator = true then env.validator e.name vs else none) with
        | some f =>
          rw [hv] at hdel
          refine iff_of_true (harmless_quiet hdel hout₃ (by simp [reply, hready₃]) fun hn => absurd hargs hn)
            ⟨fun _ _ => ⟨hs, rfl⟩, fun _ _ d' vs' h hvs hnone => ?_⟩
          cases h
          rw [ha] at hvs
          cases hvs
          rw [hv] at hnone
          cases hnone
        | none =>
          rw [hv] at hdel
          rw [harmless_spawn hdel hout₃ hready₃ hargs (fun _ => rfl)
            (show _ = some d from (haw.resolveUpdate _).trans (hres.trans hd))]
          constructor
          · refine fun hacc => ⟨fun _ _ => ⟨hs, rfl⟩, fun ho _ d' vs' h hvs _ => ?_⟩
            cases h
            rw [ha] at hvs
            cases hvs
            exact hacc ho
          · exact fun hc ho => hc.2 ho hnew d vs rfl ha hv

theorem harmless_update (e : UpdateEnvelope) : s.Harmless x env (.update e) ↔
    Message.Decodes x env s (.update e) ∧ (s.outcome = none → Message.Accepted x env s (.update e)) := by
  have hadv := Aside.advanceTime s e.sentAt
  have haw := hadv.trans (.traces (traces_awaitIf _ (!e.args.isEmpty)))
  have hdel : s.deliverInbox x env (some (.update e)) =
      ((s.advanceTime e.sentAt).decodeMessageArgs env ((s.advanceTime e.sentAt).resolveUpdate x e.name) e.name e.args >>=
        fun a => a.2.applyUpdate x env e a.1) := rfl
  rw [hadv.resolveUpdate, decodeMessageArgs_eq] at hdel
  simp only [Message.Decodes]
  cases ha : messageArgs env.converter (s.resolveUpdate x e.name) e.name e.args with
  | error err =>
    rw [ha] at hdel
    refine iff_of_false (not_harmless hdel) ?_
    rintro ⟨⟨⟨vs, hv⟩, -⟩, -⟩
    cases hv
  | ok vs =>
    rw [ha] at hdel
    rw [harmless_applyUpdate hdel haw ha]
    constructor
    · exact fun h => ⟨⟨⟨vs, rfl⟩, h.1⟩, h.2⟩
    · exact fun h => ⟨h.1.2, h.2⟩

theorem harmless_query (e : QueryEnvelope) : s.Harmless x env (.query e) ↔ Message.Decodes x env s (.query e) := by
  have hadv := Aside.advanceTime s e.sentAt
  have haw := hadv.trans (.traces (traces_awaitIf _ (!e.args.isEmpty)))
  have hdel : s.deliverInbox x env (some (.query e)) =
      ((s.advanceTime e.sentAt).decodeMessageArgs env ((s.advanceTime e.sentAt).resolveQuery x e.name) e.name e.args >>=
        fun a => .ok (a.2.applyQuery x env e a.1)) := rfl
  rw [hadv.resolveQuery, decodeMessageArgs_eq] at hdel
  simp only [Message.Decodes]
  cases ha : messageArgs env.converter (s.resolveQuery x e.name) e.name e.args with
  | error err =>
    rw [ha] at hdel
    refine iff_of_false (not_harmless hdel) ?_
    rintro ⟨vs, hv⟩
    cases hv
  | ok vs =>
    rw [ha] at hdel
    have hquery : ∀ s₁ : Interp, Aside s s₁ → (s₁.applyQuery x env e vs).outcome = s.outcome ∧
        (s₁.applyQuery x env e vs).ready = s.ready := by
      intro s₁ h₁
      unfold applyQuery
      dsimp only
      split
      · exact ⟨h₁.outcome, h₁.ready⟩
      · split
        · next r hr =>
          have hr := h₁.trans (.traces (decodeMessageHeaders_error hr ▸ traces_awaitIf s₁ _))
          exact ⟨hr.outcome, hr.ready⟩
        · next hs s₂ hr =>
          have hr := h₁.trans (.traces (traces_decodeMessageHeaders hr))
          split
          · split <;> exact ⟨hr.outcome, hr.ready⟩
          · exact ⟨hr.outcome, hr.ready⟩
    obtain ⟨ho, hr⟩ := hquery _ haw
    refine iff_of_true (harmless_quiet hdel ho (by rw [show _ = s.ready from hr]; simp) fun hn => absurd ⟨vs, ha⟩ hn)
      ⟨vs, rfl⟩

/-! ### Activities -/

/-- A message that wakes no handler, whatever else it wakes. -/
theorem harmless_wakes {m : Message} {l : List Ready} (hs : s.deliverInbox x env (some m) = .ok s')
    (ho : s'.outcome = s.outcome) (hl : s'.ready = s.ready ++ l) (hn : ∀ t, .handler t ∉ l) (ha : m.ArgsDecode x env s) :
    s.Harmless x env m :=
  harmless_quiet hs ho (by rw [hl, List.drop_left]; exact hn) fun h => absurd ha h

/-- A failure is retried or given up, as long as nothing raises. -/
theorem retryOrFail_iff {k : Nat} {e : ActivityExec} {f : FailureEnvelope} (hl : e.futureCancelled = false) :
    (∃ s', s.retryOrFail env k e f = .ok s') ↔ Converts (s.retryDecision e f) ∧
      ∀ st, s.retryDecision e f = .ok (none, st) → Converts (deserializeFailure env.converter f) := by
  unfold retryOrFail
  cases hd : s.retryDecision e f with
  | error err =>
    refine iff_of_false ?_ ?_
    · rintro ⟨s', h⟩
      cases h
    · rintro ⟨⟨a, h⟩, -⟩
      cases h
  | ok r =>
    obtain ⟨delay, st⟩ := r
    simp only [lift_ok, ok_bind]
    cases delay with
    | some d => exact iff_of_true ⟨_, rfl⟩ ⟨⟨_, rfl⟩, fun st' h => by cases h⟩
    | none =>
      simp only [failActivity, activityFailureCause, resolveActivity, hl]
      cases hf : deserializeFailure env.converter f with
      | error err =>
        refine iff_of_false ?_ ?_
        · rintro ⟨s', h⟩
          cases h
        · rintro ⟨-, h⟩
          obtain ⟨a, ha⟩ := h st rfl
          cases ha
      | ok c =>
        refine iff_of_true ?_ ⟨⟨_, rfl⟩, fun _ _ => ⟨c, rfl⟩⟩
        simp only [ok_bind]
        split <;> exact ⟨_, rfl⟩

theorem ready_retryOrFail {k : Nat} {e : ActivityExec} {f : FailureEnvelope} (h : s.retryOrFail env k e f = .ok s') :
    ∃ l, s'.ready = s.ready ++ l ∧ ∀ t, .handler t ∉ l := by
  simp only [retryOrFail, bind_eq_ok] at h
  obtain ⟨⟨delay, st⟩, -, h⟩ := h
  cases delay with
  | some d =>
    cases h
    exact ⟨[], (List.append_nil _).symm, fun _ h => absurd h List.not_mem_nil⟩
  | none =>
    simp only [failActivity, bind_eq_ok] at h
    obtain ⟨c, -, h⟩ := h
    unfold resolveActivity at h
    split at h
    · exact absurd h raise_ne_ok
    · cases h
      exact ⟨_, rfl, fun t ht => by cases List.mem_singleton.1 ht⟩

theorem harmless_activityResult (i : String) (c : Completion) (t : Option Seconds)
    (hlive : ∀ k e, s.asyncPendingById i = some (k, e) → e.futureCancelled = false) :
    s.Harmless x env (.activityResult i c t) ↔
      Message.Decodes x env s (.activityResult i c t) ∧ Message.Decides s (.activityResult i c t) := by
  have hdel : s.deliverInbox x env (some (.activityResult i c t)) = (s.advanceTime t).applyActivityResult x env i c := rfl
  have hadv := Aside.advanceTime s t
  unfold applyActivityResult at hdel
  rw [hadv.asyncPendingById] at hdel
  cases hp : s.asyncPendingById i with
  | none =>
    rw [hp] at hdel
    refine iff_of_true (harmless_wakes hdel hadv.outcome (hadv.ready.trans (List.append_nil _).symm)
      (fun _ h => absurd h List.not_mem_nil) trivial) ?_
    cases c with
    | cancelled => exact ⟨trivial, trivial⟩
    | ok p => exact ⟨fun k e h => absurd (hp.symm.trans h) (by simp), trivial⟩
    | failed f => exact ⟨fun k e h => absurd (hp.symm.trans h) (by simp), fun k e h => absurd (hp.symm.trans h) (by simp)⟩
  | some r =>
    obtain ⟨k, e⟩ := r
    have hl := hlive k e hp
    simp only [hp] at hdel
    cases c with
    | cancelled =>
      refine iff_of_true (harmless_wakes hdel (Eq.trans rfl hadv.outcome) (l := [.activity k .cancelled]) ?_ (by simp) trivial)
        ⟨trivial, trivial⟩
      rw [← hadv.ready]
      rfl
    | ok p =>
      simp only [Message.Decodes, Message.Decides, and_true]
      cases hd : decodeValue env.converter p (x.activityRetType e.activityName) with
      | error err =>
        simp only [hd, lift_error, error_bind] at hdel
        refine iff_of_false (not_harmless hdel) fun h => ?_
        obtain ⟨v, hv⟩ := h k e hp
        rw [hd] at hv
        cases hv
      | ok v =>
        simp only [hd, lift_ok, ok_bind, resolveActivity, hl, Bool.false_eq_true, if_false] at hdel
        refine iff_of_true (harmless_wakes hdel (Eq.trans rfl hadv.outcome) (l := [.activity k (.completed v)]) ?_ (by simp) trivial)
          fun k' e' h => ?_
        · rw [← hadv.ready]
          rfl
        · rw [hp] at h
          cases h
          exact ⟨v, hd⟩
    | failed f =>
      simp only [Message.Decodes, Message.Decides]
      have hiff : (∃ s', failAsyncAttempt env ((s.advanceTime t).retireParkedTimers k) k e f = .ok s') ↔
          Converts ((s.advanceTime t).retryDecision e f) ∧
            ∀ st, (s.advanceTime t).retryDecision e f = .ok (none, st) → Converts (deserializeFailure env.converter f) :=
        retryOrFail_iff hl
      have hcond : ((∀ k' e', s.asyncPendingById i = some (k', e') →
            ∀ st, (s.advanceTime t).retryDecision e' f = .ok (none, st) → Converts (deserializeFailure env.converter f)) ∧
          ∀ k' e', s.asyncPendingById i = some (k', e') → Converts ((s.advanceTime t).retryDecision e' f)) ↔
          ∃ s', failAsyncAttempt env ((s.advanceTime t).retireParkedTimers k) k e f = .ok s' := by
        rw [hiff]
        constructor
        · exact fun h => ⟨h.2 k e hp, h.1 k e hp⟩
        · intro h
          refine ⟨fun k' e' h' => ?_, fun k' e' h' => ?_⟩
          · rw [hp] at h'
            cases h'
            exact h.2
          · rw [hp] at h'
            cases h'
            exact h.1
      rw [hcond]
      dsimp only at hdel
      cases hr : failAsyncAttempt env ((s.advanceTime t).retireParkedTimers k) k e f with
      | error r =>
        rw [hr] at hdel
        refine iff_of_false (not_harmless hdel) ?_
        rintro ⟨s', h⟩
        cases h
      | ok s' =>
        rw [hr] at hdel
        obtain ⟨l, hl', hno⟩ := ready_retryOrFail hr
        have ho := (congrArg Rest.outcome (rest_retryOrFail hr)).trans hadv.outcome
        exact iff_of_true (harmless_wakes hdel ho (hl'.trans (by rw [← hadv.ready]; rfl)) hno trivial) ⟨s', rfl⟩

theorem harmless_activityHeartbeat (i : String) (ds : List Payload) (t : Option Seconds) :
    s.Harmless x env (.activityHeartbeat i ds t) ↔ Message.Decodes x env s (.activityHeartbeat i ds t) := by
  have hdel : s.deliverInbox x env (some (.activityHeartbeat i ds t)) =
      (s.advanceTime t).applyActivityHeartbeat env i ds := rfl
  have hadv := Aside.advanceTime s t
  unfold applyActivityHeartbeat at hdel
  rw [hadv.asyncPendingById] at hdel
  simp only [Message.Decodes]
  cases hp : s.asyncPendingById i with
  | none =>
    rw [hp] at hdel
    exact iff_of_true (harmless_wakes hdel hadv.outcome (hadv.ready.trans (List.append_nil _).symm)
      (fun _ h => absurd h List.not_mem_nil) trivial) fun h => by cases h
  | some r =>
    obtain ⟨k, e⟩ := r
    simp only [hp] at hdel
    cases hd : decodeValues env.converter ds none with
    | error err =>
      rw [hd] at hdel
      refine iff_of_false (not_harmless hdel) fun h => ?_
      obtain ⟨vs, hv⟩ := h rfl
      cases hv
    | ok vs =>
      rw [hd] at hdel
      have hbeat := traces_awaitIf ((s.advanceTime t).setActivity k (.heartbeat true)) (!ds.isEmpty)
      have ho := (Aside.traces hbeat).outcome.trans hadv.outcome
      refine iff_of_true (harmless_wakes hdel ho (l := []) ?_ (fun _ h => absurd h List.not_mem_nil) trivial)
        fun _ => ⟨vs, rfl⟩
      rw [List.append_nil, ← hadv.ready]
      exact (Aside.traces hbeat).ready

/-! ## All of them -/

/-- **Which messages leave the run alone.** -/
theorem harmless_iff (hlive : ∀ k e, s.pendingActivities.get? k = some e → e.futureCancelled = false) (m : Message) :
    s.Harmless x env m ↔ m.Decodes x env s ∧ m.Decides s ∧ (s.outcome = none → m.Accepted x env s) := by
  have hnone : ∀ t, Ready.handler t ∉ [] := fun _ h => absurd h List.not_mem_nil
  cases m with
  | signal e =>
    rw [harmless_signal]
    exact ⟨fun h => ⟨h.1, trivial, h.2⟩, fun h => ⟨h.1, h.2.2⟩⟩
  | update e =>
    rw [harmless_update]
    exact ⟨fun h => ⟨h.1, trivial, h.2⟩, fun h => ⟨h.1, h.2.2⟩⟩
  | query e =>
    rw [harmless_query]
    exact ⟨fun h => ⟨h, trivial, fun _ => trivial⟩, fun h => h.1⟩
  | activityResult i c t =>
    rw [harmless_activityResult i c t fun k e h => hlive k e (asyncPendingById_some h).1]
    exact ⟨fun h => ⟨h.1, h.2, fun _ => trivial⟩, fun h => ⟨h.1, h.2.1⟩⟩
  | activityHeartbeat i ds t =>
    rw [harmless_activityHeartbeat]
    exact ⟨fun h => ⟨h, trivial, fun _ => trivial⟩, fun h => h.1⟩
  | cancel reason t =>
    have hadv := Aside.advanceTime s t
    refine iff_of_true ?_ ⟨trivial, trivial, fun _ => trivial⟩
    have hdel : s.deliverInbox x env (some (.cancel reason t)) = .ok ((s.advanceTime t).applyCancel reason) := rfl
    unfold applyCancel at hdel
    split at hdel
    · exact harmless_wakes hdel hadv.outcome (hadv.ready.trans (List.append_nil _).symm) hnone trivial
    · dsimp only at hdel
      split at hdel
      · exact harmless_wakes hdel hadv.outcome (hadv.ready.trans (List.append_nil _).symm) hnone trivial
      · refine harmless_wakes hdel hadv.outcome (l := [.cancelPrimary]) ?_ (by simp) trivial
        rw [← hadv.ready]
        rfl
  | rehydrateStop t =>
    have hadv := Aside.advanceTime s t
    exact iff_of_true (harmless_wakes rfl hadv.outcome (hadv.ready.trans (List.append_nil _).symm) hnone trivial)
      ⟨trivial, trivial, fun _ => trivial⟩
  | unknown kind t =>
    have hadv := Aside.advanceTime s t
    exact iff_of_true (harmless_wakes rfl hadv.outcome (hadv.ready.trans (List.append_nil _).symm) hnone trivial)
      ⟨trivial, trivial, fun _ => trivial⟩
  | malformed =>
    exact iff_of_true (harmless_wakes rfl rfl (List.append_nil _).symm hnone trivial)
      ⟨trivial, trivial, fun _ => trivial⟩

end Interp

open Interp

/-- The states a run delivers a message in: a round has come to its receive
task, and taken it off the list. -/
def Receiving (x : Execution) (s : Interp) : Prop :=
  ∃ c env done before w after s₁, Reachable x c ∧ c.phase = .waiting ∧ c.interp.Fits done ∧
    c.interp.waiters = before ++ w :: after ∧ w.kind = .inbox ∧
    before.foldlM (deliverWaiter x env done) (c.interp.step .asyncioWait) = .ok s₁ ∧ s₁.removeWaiter w = .ok s

theorem Receiving.live {x : Execution} {s : Interp} (h : Receiving x s) {k : Nat} {e : ActivityExec}
    (he : s.pendingActivities.get? k = some e) : e.futureCancelled = false := by
  obtain ⟨c, env, done, before, w, after, s₁, hc, hw, hf, hsplit, hk, hb, hr⟩ := h
  have hwaits := hc.waits (by simp [hw])
  rw [hw] at hwaits
  have h₀ : (c.interp.step .asyncioWait).Processing x [] := hwaits.of_eq (slots_step _ _)
  have hsub : before ⊆ (c.interp.step .asyncioWait).waiters := by
    change before ⊆ c.interp.waiters
    rw [hsplit]
    exact List.subset_append_left _ _
  have h₁ := (deliverWaiters_processing h₀ before hsub h₀ (.refl _) hb).1
  refine h₁.live (k := k) (e := e) ?_
  rw [← he]
  have := congrArg Slots.acts (slots_removeWaiter hr)
  exact congrArg (fun d : Dict Nat ActivityExec => d.get? k) this.symm

/-- A run with nothing to wait for but its inbox. -/
theorem receiving_idle (m : Message) : ∃ s, Receiving .plain s ∧ s.outcome = none ∧ s.seenUpdateIds = [] ∧
    s.updateOverrides = .empty := by
  have hwait : (Execution.plain.run 0 [.drain []]).phase = .waiting := rfl
  have hwaiters : (Execution.plain.run 0 [.drain []]).interp.waiters = [⟨.inbox, 0, 0, .recv 3600⟩] := rfl
  refine ⟨{ (Execution.plain.run 0 [.drain []]).interp.step .asyncioWait with waiters := [] },
    ⟨Execution.plain.run 0 [.drain []], .calm, .of [(0, .message (some m))], [], _, [], _,
      Execution.run_reachable _ _ _, hwait, fits_of ?_, hwaiters, rfl, rfl, rfl⟩, rfl, rfl, rfl⟩
  rw [fits, hwaiters]
  rfl

/-- An update whose argument the converter rejects. -/
def Message.sample : Message := .update { name := "u", args := [⟨"null"⟩], updateId := "1" }

/-- A converter that decodes nothing. -/
def Converter.rejecting : Converter := { Converter.lenient with decode := fun _ _ => .error "cannot decode" }

end Dbosify
