/-
Where a conversion error goes.

Values are converted at many points of a run, most of them with no guard. A
start of a child is guarded, and its error is raised at the call; whatever
else does not convert escapes from `execute`, or from the dispatcher after it,
and ends the run without an envelope. In every run whose unguarded
conversions succeed nothing of the kind escapes (`conversions_confined`).
-/
import Dbosify.ChainHop
import Dbosify.InboxErrors

namespace Dbosify

open Py (Dict)

/-- A conversion raised it: in the driver, or in the task of a waiter. -/
def Exc.isConversion : Exc → Bool
  | conversionError _ | taskError _ => true
  | _ => false

/-- No conversion error is raised. -/
abbrev Clean {α : Type} (m : M α) : Prop := Raises (fun r => r.exc.isConversion = false) m

/-! ## What a pass converts -/

/-- What goes out with a call can be encoded. -/
def Env.Encodes (env : Env) (args : List Value) (headers : Headers) : Prop :=
  Converts (encodeValues env.converter args) ∧ Converts (encodeHeaders env.converter headers)

/-- The arguments of an activity, of an outgoing signal, and the memo. A child
is started under a guard. -/
def CommandConverts (env : Env) (s : Interp) : Command → Prop
  | .activity k => ∀ e, s.pendingActivities.get? k = some e → env.Encodes e.args e.headers
  | .send k => ∀ p name args headers sentAt, s.pendingSends.get? k = some p →
      p.envelope = .signal name args headers sentAt → env.Encodes args headers
  | .attributes => Converts (encodeValues env.converter s.memo.values)
  | _ => True

/-- The commands of a drain, each where it is processed. -/
def CommandsConvert (x : Execution) (env : Env) : List Command → Interp → Prop
  | [], _ => True
  | c :: cs, s => CommandConverts env s c ∧
      ∀ b s', s.processCommand x env c = .ok (b, s') → CommandsConvert x env cs s'

/-- The results of queries and updates. -/
def RepliesConvert (env : Env) (s : Interp) : Prop :=
  ∀ r ∈ s.outbox, ∀ v, r.2.body = .inl v → Converts (encodeValue env.converter v)

/-- What a pass converts after its drain. -/
def PassConverts (x : Execution) (env : Env) (s : Interp) : Prop :=
  EachStep (Interp.applySignal x env) (fun s e => Message.Decodes x env s (.signal e))
    (s.sweepCancellations env).pendingHandlerFlush { s.sweepCancellations env with pendingHandlerFlush := [] } ∧
  ∀ b s₁, (s.sweepCancellations env).flushPendingHandlerSignals x env = .ok (b, s₁) →
    CommandsConvert x env s₁.commands { s₁ with commands := [] } ∧
    ∀ p s₂, Interp.processCommands x env s₁.commands false { s₁ with commands := [] } = .ok (p, s₂) →
      (p || b) = false → (∀ e, s₂.outcome ≠ some (.taskFailure e)) → RepliesConvert env s₂

/-! ## What a round converts -/

/-- The envelope of an attempt or a queued activity, as it is recorded. -/
inductive ResultEnvelope
  | ok (result : Payload) (endedAt : Seconds)
  | failed (failure : FailureEnvelope) (endedAt : Seconds) (retryState : Option RetryState)
  | asyncPending (startedAt endedAt : Seconds)

/-- What the operation of a waiter's task recorded. -/
inductive Recorded
  | slept
  | message (m : Option Message)
  | attempt (e : ResultEnvelope)
  | child (result : Payload ⊕ FailureEnvelope) (endedAt : Seconds)

/-- A result decoded in the waiter's task: what does not decode is raised
there. -/
def decodedOr (c : Converter) (hint : Option Hint) (p : Payload) (f : Value → TaskResult) : TaskResult :=
  match decodeValue c p hint with
  | .ok v => f v
  | .error e => .raised e.serialize.message

/-- `_decode_activity_result` and `_await_child_result_decoded`. -/
def Recorded.decoded (c : Converter) (hint : Option Hint) : Recorded → TaskResult
  | slept => .slept
  | message m => .message m
  | attempt (.ok p t) => decodedOr c hint p fun v => .attempt (.ok v t)
  | attempt (.failed f t st) => .attempt (.failed f t st)
  | attempt (.asyncPending a b) => .attempt (.asyncPending a b)
  | child (.inl p) t => decodedOr c hint p fun v => .child (.ok v t)
  | child (.inr f) t => .child (.failed f t)

/-- The result of an activity that is still waited for. -/
def ActivityConverts (env : Env) (s : Interp) (w : Waiter) (hint : Option Hint) (e : ActivityExec) :
    ResultEnvelope → Prop
  | .ok p _ => Converts (decodeValue env.converter p hint)
  | .failed f t _ => (w.kind = .activity → e.cancelRequested = true ∨
      ∃ st, (s.advanceTime (some t)).retryDecision e f = .ok (none, st)) → Converts (deserializeFailure env.converter f)
  | .asyncPending _ _ => True

/-- The records an operation can have. -/
def Op.records : Op → Recorded → Bool
  | .sleep _, .slept | .recv _, .message _ | .attempt .., .attempt _ | .childResult _, .child .. => true
  | .activityResult _, .attempt (.asyncPending _ _) => false
  | .activityResult _, .attempt _ => true
  | _, _ => false

/-- What the event of a waiter converts. -/
def EventConverts (x : Execution) (env : Env) (s : Interp) (w : Waiter) (hint : Option Hint) : Recorded → Prop
  | .message (some m) => m.Decodes x env s
  | .attempt r => ∀ e, s.pendingActivities.get? w.seq = some e → e.futureCancelled = false →
      (w.kind = .activity → e.inBackoff = false) → ActivityConverts env s w hint e r
  | .child r _ => ∀ c, s.pendingChildren.get? w.seq = some c → c.resultCancelled = false →
      match r with
      | .inl p => Converts (decodeValue env.converter p hint)
      | .inr f => Converts (deserializeFailure env.converter f)
  | _ => True

/-- The done set of these records, each decoded to the type its waiter
expects. -/
def doneOf (env : Env) (hints : Nat → Option Hint) (recorded : Nat → Option Recorded) : Done :=
  fun t => (recorded t).map (Recorded.decoded env.converter (hints t))

/-- Records of tasks that are waited for. -/
def Interp.Records (s : Interp) (recorded : Nat → Option Recorded) : Prop :=
  ∀ t r, recorded t = some r → ∃ w ∈ s.waiters, w.task = t ∧ w.op.records r = true

/-- What a round converts, each event where it is delivered. -/
def RoundConverts (x : Execution) (env : Env) (hints : Nat → Option Hint) (recorded : Nat → Option Recorded)
    (s : Interp) : Prop :=
  EachStep (Interp.deliverWaiter x env (doneOf env hints recorded))
    (fun s w => ∀ r s', recorded w.task = some r → s.removeWaiter w = .ok s' →
      EventConverts x env s' w (hints w.task) r)
    s.waiters (s.step .asyncioWait)

/-! ## Pieces that raise no conversion error -/

theorem clean_lift {α : Type} {r : Except Exc α} (s : Interp) (h : Converts r) : Clean (lift s r) := by
  obtain ⟨a, rfl⟩ := h
  exact .ok a

theorem clean_raise {α : Type} {s : Interp} {e : Exc} (h : e.isConversion = false) : Clean (raise s e : M α) := .error h

theorem retryDecision_overflow {p : RetryPolicy} {n : Nat} {f : FailureEnvelope} {el b : Option Seconds} {e : Exc}
    (h : Dbosify.retryDecision p n f el b = .error e) : e = .overflowError := by
  have hpow : ∀ q m, Raises (· = Exc.overflowError) (pyPow q m) := by
    intro q m
    unfold pyPow
    split
    · exact .ok _
    · exact .error rfl
  have hback : Raises (· = Exc.overflowError) (backoff p n f) := by
    unfold backoff
    split
    · exact .ok _
    · exact (hpow _ _).bind fun _ _ => .ok _
  suffices Raises (· = Exc.overflowError) (Dbosify.retryDecision p n f el b) from this e h
  unfold Dbosify.retryDecision
  split
  · exact .ok _
  · refine hback.bind fun d _ => ?_
    split
    · split <;> exact .ok _
    · exact .ok _

namespace Interp

variable {x : Execution} {env : Env} {s s' : Interp}

theorem clean_checkReplayHorizon : Clean (s.checkReplayHorizon x) := by
  unfold checkReplayHorizon
  dsimp only
  split
  · exact clean_raise rfl
  · exact .ok _

theorem clean_encodeCall {args : List Value} {headers : Headers} (h : env.Encodes args headers) :
    Clean (s.encodeCall env args headers) :=
  (clean_lift _ h.1).bind fun _ _ => (clean_lift _ h.2).bind fun _ _ => .ok _

theorem clean_resolveActivity {k : Nat} {e : ActivityExec} {o : ActivityOutcome} : Clean (s.resolveActivity k e o) := by
  unfold resolveActivity
  split
  · exact clean_raise rfl
  · exact .ok _

theorem clean_launchAttempt {k : Nat} {e : ActivityExec} : Clean (s.launchAttempt x k e) := by
  refine Raises.bind ?_ fun _ _ => .ok _
  unfold attemptStepFor
  split
  · exact .ok _
  · exact clean_raise rfl

theorem clean_failActivity {k : Nat} {e : ActivityExec} {f : FailureEnvelope} {st : Option RetryState}
    (h : Converts (deserializeFailure env.converter f)) : Clean (s.failActivity env k e f st) := by
  refine (clean_lift _ ?_).bind fun _ _ => clean_resolveActivity
  obtain ⟨c, hc⟩ := h
  unfold activityFailureCause
  rw [hc, ok_bind]
  split <;> exact ⟨_, rfl⟩

/-- A decision that overflows converts nothing. -/
theorem clean_retryOrFail {k : Nat} {e : ActivityExec} {f : FailureEnvelope}
    (h : ∀ st, s.retryDecision e f = .ok (none, st) → Converts (deserializeFailure env.converter f)) :
    Clean (s.retryOrFail env k e f) := by
  unfold retryOrFail
  cases hd : s.retryDecision e f with
  | error err =>
    rw [retryDecision_overflow hd]
    exact .error rfl
  | ok r =>
    obtain ⟨delay, st⟩ := r
    cases delay with
    | some d => exact .ok _
    | none => exact clean_failActivity (h st hd)

theorem clean_confirmsCancel {e : ActivityExec} {f : FailureEnvelope}
    (h : e.cancelRequested = true → Converts (deserializeFailure env.converter f)) : Clean (s.confirmsCancel env e f) := by
  unfold confirmsCancel
  split
  · next hc => exact (clean_lift _ (h hc)).map _
  · exact .ok _

/-! ## Commands -/

theorem clean_launchQueuedActivity {k : Nat} {e : ActivityExec} {q : String} :
    Clean (s.launchQueuedActivity x env k e q) := by
  unfold launchQueuedActivity
  dsimp only
  split
  · split
    · exact .ok _
    · exact clean_resolveActivity
  · split
    · split
      · exact .ok _
      · exact clean_resolveActivity
    · exact .ok _

theorem clean_processActivity {k : Nat} (h : CommandConverts env s (.activity k)) : Clean (s.processActivity x env k) := by
  unfold processActivity
  split
  · exact .ok _
  · next e he =>
    refine (clean_encodeCall (h e he)).bind fun r _ => ?_
    refine clean_checkReplayHorizon.bind fun s₁ _ => ?_
    split
    · exact clean_launchAttempt
    · split
      · exact clean_launchAttempt
      · exact clean_launchQueuedActivity

theorem clean_processSend {k : Nat} (h : CommandConverts env s (.send k)) : Clean (s.processSend x env k) := by
  refine clean_checkReplayHorizon.bind fun s₁ h₁ => ?_
  have hsends : s₁.pendingSends = s.pendingSends := by
    obtain ⟨t, rfl⟩ := traces_checkReplayHorizon h₁
    rfl
  rw [hsends]
  split
  · exact clean_raise rfl
  · next p hp =>
    refine Raises.bind ?_ fun r _ => ?_
    · obtain ⟨target, envelope, cancelled, chain⟩ := p
      cases envelope with
      | cancel reason sentAt => exact .ok _
      | signal name args headers sentAt =>
        exact (clean_encodeCall (h _ name args headers sentAt hp rfl)).bind fun _ _ => .ok _
    · dsimp only
      split <;> exact .ok _

theorem clean_processCommand {c : Command} (h : CommandConverts env s c) : Clean (s.processCommand x env c) := by
  cases c with
  | timer k =>
    change Clean (s.processTimer x k)
    unfold processTimer
    split
    · exact .ok _
    · dsimp only
      split
      · exact .ok _
      · exact clean_checkReplayHorizon.bind fun _ _ => .ok _
  | activity k => exact (clean_processActivity h).map _
  | child k =>
    refine clean_checkReplayHorizon.bind fun s₁ _ => ?_
    split
    · exact clean_raise rfl
    · exact .ok _
  | send k => exact (clean_processSend h).map _
  | attributes =>
    exact ((clean_lift _ h).bind fun _ _ => clean_checkReplayHorizon.bind fun _ _ => .ok _).map _
  | patch k =>
    refine Raises.map _ ?_
    unfold processPatch
    split
    · exact clean_raise rfl
    · exact clean_checkReplayHorizon.bind fun _ _ => .ok _

theorem clean_processCommands : ∀ {cs : List Command} {p : Bool} {s : Interp}, CommandsConvert x env cs s →
    Clean (processCommands x env cs p s) := by
  intro cs
  induction cs with
  | nil => intro p s _; exact .ok _
  | cons c cs ih =>
    intro p s h
    exact (clean_processCommand h.1).bind fun r hr => ih (h.2 r.1 r.2 hr)

/-! ## Signals and replies -/

theorem clean_decodeMessageArgs {d : Option HandlerDefn} {n : String} {args : List Payload}
    (h : Converts (messageArgs env.converter d n args)) : Clean (s.decodeMessageArgs env d n args) := by
  rw [decodeMessageArgs_eq]
  exact (clean_lift _ h).map _

theorem clean_decodeMessageHeaders {hs : Headers} (h : Converts (decodeHeaders env.converter hs)) :
    Clean (s.decodeMessageHeaders env hs) := by
  rw [decodeMessageHeaders_eq]
  exact (clean_lift _ h).map _

/-- A signal whose arguments do not decode is dropped. -/
theorem clean_applySignal {e : SignalEnvelope} (h : Message.Decodes x env s (.signal e)) :
    Clean (s.applySignal x env e) := by
  unfold applySignal
  split
  · exact .ok _
  · next d hd =>
    split
    · exact .ok _
    · next vs s₁ hargs =>
      refine (clean_decodeMessageHeaders (h d hd ?_)).bind fun _ _ => .ok _
      rw [decodeMessageArgs_eq] at hargs
      cases hm : messageArgs env.converter (some d) e.name e.args with
      | error err => rw [hm] at hargs; cases hargs
      | ok vs => exact ⟨vs, rfl⟩

theorem clean_flushReply {r : EventKey × Reply} (h : ∀ v, r.2.body = .inl v → Converts (encodeValue env.converter v)) :
    Clean (s.flushReply env r) := by
  unfold flushReply
  split
  · next v hv => exact (clean_lift _ (h v hv)).bind fun _ _ => .ok _
  · exact .ok _

theorem clean_flushOutbox (h : RepliesConvert env s) : Clean (s.flushOutbox env) := by
  have hall : ∀ l : List (EventKey × Reply),
      (∀ r ∈ l, ∀ v, r.2.body = .inl v → Converts (encodeValue env.converter v)) →
      ∀ s : Interp, Clean (l.foldlM (flushReply env) s) := by
    intro l
    induction l with
    | nil => intro _ s; exact .ok _
    | cons r l ih =>
      intro h s
      rw [List.foldlM_cons]
      exact (clean_flushReply (h r List.mem_cons_self)).bind fun s₁ _ =>
        ih (fun r hr => h r (List.mem_cons_of_mem _ hr)) s₁
  exact hall s.outbox h _

theorem clean_settle {d : Bool} (h : (∀ e, s.outcome ≠ some (.taskFailure e)) → RepliesConvert env s) :
    Clean (s.settle x env d) := by
  unfold settle
  split
  · exact .ok _
  · next hne =>
    refine (clean_flushOutbox (h fun e he => hne e he)).bind fun s₁ _ => ?_
    split <;> exact .ok _

/-- **A pass whose conversions succeed raises no conversion error.** -/
theorem clean_afterDrain {d : Bool} (h : PassConverts x env s) : Clean (s.afterDrain x env d) := by
  unfold afterDrain
  refine Raises.bind ?_ fun r hr => ?_
  · unfold flushPendingHandlerSignals
    split
    · exact .ok _
    · exact (Raises.foldlM (fun s e => clean_applySignal) h.1).bind fun _ _ => .ok _
  · obtain ⟨b, s₁⟩ := r
    obtain ⟨hc, hs⟩ := h.2 b s₁ hr
    refine (clean_processCommands hc).bind fun r hr => ?_
    obtain ⟨p, s₂⟩ := r
    dsimp only
    split
    · exact .ok _
    · next hpb => exact clean_settle (hs p s₂ hr (by simpa using hpb))

/-! ## Events -/

theorem clean_applyActivityResult {i : String} {c : Completion} {t : Option Seconds}
    (h : Message.Decodes x env s (.activityResult i c t)) :
    Clean ((s.advanceTime t).applyActivityResult x env i c) := by
  unfold applyActivityResult
  rw [(Aside.advanceTime s t).asyncPendingById]
  split
  · exact .ok _
  · next k e hp =>
    dsimp only
    split
    · exact .ok _
    · exact (clean_lift _ (h k e hp)).bind fun _ _ => clean_resolveActivity
    · exact clean_retryOrFail fun st hd => h k e hp st hd

theorem clean_inbox {m : Message} (h : m.Decodes x env s) : Clean (s.deliverInbox x env (some m)) := by
  have hadv := Aside.advanceTime s m.sentAt
  cases m with
  | signal e =>
    refine clean_applySignal fun d hd => h d ?_
    rwa [hadv.resolveSignal] at hd
  | update e =>
    refine (clean_decodeMessageArgs ?_).bind fun r hr => ?_
    · rw [hadv.resolveUpdate]
      exact h.1
    · obtain ⟨vs, s₁⟩ := r
      have h₁ := hadv.trans (.traces (traces_decodeMessageArgs hr))
      dsimp only
      unfold applyUpdate
      rw [h₁.seen]
      split
      · exact .ok _
      · next hseen =>
        dsimp only
        split
        · exact .ok _
        · next d hd =>
          have hd : s.resolveUpdate x e.name = some d := (h₁.resolveUpdate e.name).symm.trans hd
          refine (clean_decodeMessageHeaders (h.2 (by simpa using hseen) (by rw [hd]; rfl))).bind fun _ _ => ?_
          split <;> exact .ok _
  | query e =>
    refine (clean_decodeMessageArgs ?_).bind fun _ _ => .ok _
    rw [hadv.resolveQuery]
    exact h
  | activityResult i c t => exact clean_applyActivityResult h
  | activityHeartbeat i ds t =>
    change Clean ((s.advanceTime (Message.activityHeartbeat i ds t).sentAt).applyActivityHeartbeat env i ds)
    unfold applyActivityHeartbeat
    split
    · exact .ok _
    · next k e hp =>
      rw [hadv.asyncPendingById] at hp
      exact (clean_lift _ (h (by rw [hp]; rfl))).bind fun _ _ => .ok _
  | cancel | rehydrateStop | unknown | malformed => exact .ok _

theorem decodedOr_of_converts {c : Converter} {hint : Option Hint} {p : Payload} {f : Value → TaskResult}
    (h : Converts (decodeValue c p hint)) : ∃ v, decodedOr c hint p f = f v := by
  obtain ⟨v, hv⟩ := h
  exact ⟨v, by rw [decodedOr, hv]⟩

theorem clean_activityEvent {w : Waiter} {hint : Option Hint} {r : Recorded}
    (hr : r = .slept ∨ ∃ e, r = .attempt e) (h : EventConverts x env s w hint r) :
    Clean (s.deliverActivityEvent x env w.seq (r.decoded env.converter hint)) := by
  unfold deliverActivityEvent
  split
  · exact .ok _
  · next e he =>
    split
    · exact .ok _
    · next hlive =>
      split
      · exact clean_launchAttempt
      · next hb =>
        obtain rfl | ⟨a, rfl⟩ := hr
        · exact clean_raise rfl
        · have h := h e he (by simpa using hlive) fun _ => by simpa using hb
          cases a with
          | ok p t =>
            obtain ⟨v, hv⟩ := decodedOr_of_converts (f := fun v => .attempt (.ok v t)) h
            simp only [Recorded.decoded, hv]
            exact clean_resolveActivity
          | failed f t st =>
            refine (clean_confirmsCancel fun hc => h fun _ => .inl hc).bind fun b _ => ?_
            split
            · exact .ok _
            · exact clean_retryOrFail fun st hd => h fun _ => .inr ⟨st, hd⟩
          | asyncPending a b => exact .ok _

theorem clean_queuedEvent {w : Waiter} {hint : Option Hint} {r : Recorded} (hk : w.kind = .qActivity)
    (hr : ∃ e, r = .attempt e) (h : EventConverts x env s w hint r) :
    Clean (s.deliverQueuedActivityEvent env w.seq (r.decoded env.converter hint)) := by
  obtain ⟨a, rfl⟩ := hr
  unfold deliverQueuedActivityEvent
  split
  · exact .ok _
  · next e he =>
    split
    · exact .ok _
    · next hlive =>
      have h := h e he (by simpa using hlive) fun hk' => by rw [hk] at hk'; cases hk'
      cases a with
      | ok p t =>
        obtain ⟨v, hv⟩ := decodedOr_of_converts (f := fun v => .attempt (.ok v t)) h
        simp only [Recorded.decoded, hv]
        exact clean_resolveActivity
      | failed f t st =>
        have hf : Converts (deserializeFailure env.converter f) := h fun hk' => by rw [hk] at hk'; cases hk'
        refine (clean_confirmsCancel fun _ => hf).bind fun b _ => ?_
        split
        · exact .ok _
        · exact clean_failActivity hf
      | asyncPending a b => exact clean_raise rfl

/-- The timeout of a park carries no details. -/
theorem clean_parkedTimeout {k : Nat} {t : TimeoutType} : Clean (s.asyncParkedTimeout env k t) := by
  unfold asyncParkedTimeout
  split
  · exact .ok _
  · split
    · exact .ok _
    · exact clean_retryOrFail fun _ _ => deserializeFailure_isOk.2 rfl

theorem clean_childEvent {w : Waiter} {hint : Option Hint} {r : Recorded} (hr : ∃ p t, r = .child p t)
    (h : EventConverts x env s w hint r) : Clean (s.deliverChildEvent env w.seq (r.decoded env.converter hint)) := by
  obtain ⟨p, t, rfl⟩ := hr
  unfold deliverChildEvent
  split
  · exact .ok _
  · next c hc =>
    dsimp only
    split
    · exact .ok _
    · next hlive =>
      have h := h c hc (by simpa using hlive)
      cases p with
      | inl p =>
        obtain ⟨v, hv⟩ := decodedOr_of_converts (f := fun v => .child (.ok v t)) h
        simp only [Recorded.decoded, hv]
        exact .ok _
      | inr f => exact (clean_lift _ h).bind fun _ _ => .ok _

/-- **An event whose conversions succeed raises no conversion error.** -/
theorem clean_event {acts : Dict Nat ActivityExec} {w : Waiter} {hint : Option Hint} {r : Recorded}
    (hw : Warranted x acts w) (hy : w.op.records r = true) (h : EventConverts x env s w hint r) :
    Clean (s.deliverEvent x env w (r.decoded env.converter hint)) := by
  unfold Warranted at hw
  unfold deliverEvent
  cases hk : w.kind <;> simp only [hk] at hw ⊢
  case inbox =>
    obtain ⟨t, hop⟩ := hw
    rw [hop] at hy
    cases r with
    | message m =>
      cases m with
      | none => exact .ok _
      | some m => exact clean_inbox h
    | slept | attempt | child => cases hy
  case timer => exact .ok _
  case activity =>
    obtain ⟨e, -, -, -, hop⟩ := hw
    refine clean_activityEvent ?_ h
    split at hop
    · rw [hop] at hy
      cases r with
      | slept => exact .inl rfl
      | message | attempt | child => cases hy
    · obtain ⟨n, d, t, hop⟩ := hop
      rw [hop] at hy
      cases r with
      | attempt a => exact .inr ⟨a, rfl⟩
      | slept | message | child => cases hy
  case qActivity =>
    obtain ⟨e, -, -, d, hop⟩ := hw
    rw [hop] at hy
    refine clean_queuedEvent hk ?_ h
    cases r with
    | attempt a => exact ⟨a, rfl⟩
    | slept | message | child => cases hy
  case actS2c =>
    unfold deliverParkTimeout
    split <;> exact clean_parkedTimeout
  case actHb =>
    unfold asyncHeartbeatCheck
    split
    · exact .ok _
    · split
      · exact .ok _
      · split
        · exact clean_parkedTimeout
        · dsimp only
          split
          · exact .ok _
          · exact clean_raise rfl
  case child =>
    obtain ⟨c, hop⟩ := hw
    rw [hop] at hy
    refine clean_childEvent ?_ h
    cases r with
    | child p t => exact ⟨p, t, rfl⟩
    | slept | message | attempt => cases hy

/-! ## Rounds -/

theorem yields_decoded {o : Op} {r : Recorded} (c : Converter) (hint : Option Hint) (h : o.records r = true) :
    o.yields (r.decoded c hint) = true := by
  have hor : ∀ (p : Payload) (f : Value → TaskResult), o.yields (.raised "") = true →
      (∀ v, o.yields (f v) = true) → o.yields (decodedOr c hint p f) = true := by
    intro p f hr hf
    unfold decodedOr
    split
    · exact hf _
    · cases o <;> first | rfl | cases hr
  cases r with
  | slept | message => cases o <;> simp [Op.records, Op.yields, Recorded.decoded] at h ⊢
  | attempt e =>
    cases e with
    | ok p t =>
      refine hor p _ ?_ fun v => ?_
      · cases o <;> simp [Op.records, Op.yields] at h ⊢
      · cases o <;> simp [Op.records, Op.yields] at h ⊢
    | failed | asyncPending => cases o <;> simp [Op.records, Op.yields, Recorded.decoded] at h ⊢
  | child p t =>
    cases p with
    | inl p =>
      refine hor p _ ?_ fun v => ?_
      · cases o <;> simp [Op.records, Op.yields] at h ⊢
      · cases o <;> simp [Op.records, Op.yields] at h ⊢
    | inr f => cases o <;> simp [Op.records, Op.yields, Recorded.decoded] at h ⊢

variable {hints : Nat → Option Hint} {recorded : Nat → Option Recorded}

theorem Records.fits (h : s.Records recorded) : s.Fits (doneOf env hints recorded) := by
  intro t r hr
  simp only [doneOf, Option.map_eq_some_iff] at hr
  obtain ⟨rec, hrec, rfl⟩ := hr
  obtain ⟨w, hw, ht, hy⟩ := h t rec hrec
  exact ⟨w, hw, ht, yields_decoded _ _ hy⟩

/-- The rest of a round, of waiters that were warranted at its start. -/
theorem clean_deliver {s₀ : Interp} (h₀ : s₀.Processing x []) (hrec : s₀.Records recorded) :
    ∀ (ws : List Waiter) {s : Interp}, ws ⊆ s₀.waiters →
    EachStep (deliverWaiter x env (doneOf env hints recorded))
      (fun s w => ∀ r s', recorded w.task = some r → s.removeWaiter w = .ok s' →
        EventConverts x env s' w (hints w.task) r) ws s →
    Clean (ws.foldlM (deliverWaiter x env (doneOf env hints recorded)) s) := by
  intro ws
  induction ws with
  | nil => intro s _ _; exact .ok s
  | cons w ws ih =>
    intro s hsub h
    rw [List.foldlM_cons]
    refine Raises.bind ?_ fun s₁ h₁ => ih (fun v hv => hsub (List.mem_cons_of_mem _ hv)) (h.2 s₁ h₁)
    have hw₀ : w ∈ s₀.waiters := hsub List.mem_cons_self
    unfold deliverWaiter
    split
    · exact .ok s
    · next r hr =>
      simp only [doneOf, Option.map_eq_some_iff] at hr
      obtain ⟨rec, hr, rfl⟩ := hr
      obtain ⟨u, hu, ht, hy⟩ := hrec _ _ hr
      rw [List.inj_on_of_nodup_map h₀.inv.tasks hu hw₀ ht] at hy
      refine Raises.bind ?_ fun s₁ h₁ => clean_event (h₀.inv.warranted w hw₀) hy (h.1 rec s₁ hr h₁)
      unfold removeWaiter
      split
      · exact .ok _
      · exact clean_raise rfl

end Interp

/-! ## Runs -/

open Interp

/-- The steps whose unguarded conversions succeed. -/
inductive ConvertingStep (x : Execution) : Config → Config → Prop
  | pass {s s' : Interp} {t : Turn} (env : Env) (deadlinePassed : Bool) (code : Code)
      (hc : PassConverts x env (s.drainOutsideTask x code)) (h : s.pass x env deadlinePassed code = .ok (t, s')) :
      ConvertingStep x ⟨.draining, s⟩ ⟨t.phase, s'⟩
  | passRaises {s : Interp} {r : Raised} (env : Env) (deadlinePassed : Bool) (code : Code)
      (hc : PassConverts x env (s.drainOutsideTask x code)) (h : s.pass x env deadlinePassed code = .error r) :
      ConvertingStep x ⟨.draining, s⟩ ⟨.closing (some r.exc), r.state⟩
  | round {s s' : Interp} (env : Env) (hints : Nat → Option Hint) (recorded : Nat → Option Recorded)
      (hr : s.Records recorded) (hc : RoundConverts x env hints recorded s)
      (h : s.round x env (doneOf env hints recorded) = .ok s') : ConvertingStep x ⟨.waiting, s⟩ ⟨.draining, s'⟩
  | roundRaises {s : Interp} {r : Raised} (env : Env) (hints : Nat → Option Hint) (recorded : Nat → Option Recorded)
      (hr : s.Records recorded) (hc : RoundConverts x env hints recorded s)
      (h : s.round x env (doneOf env hints recorded) = .error r) :
      ConvertingStep x ⟨.waiting, s⟩ ⟨.closing (some r.exc), r.state⟩

/-- The configurations of the runs whose steps all convert what they have no
guard for. -/
inductive Converting (x : Execution) : Config → Prop
  | start (startTime : Seconds) (memo : Dict String Value) : Converting x ⟨.draining, .start startTime memo⟩
  | step {c c' : Config} : Converting x c → ConvertingStep x c c' → Converting x c'

theorem ConvertingStep.step {x : Execution} {c c' : Config} (h : ConvertingStep x c c') : Step x c c' := by
  cases h with
  | pass env d code _ h => exact .pass env d code h
  | passRaises env d code _ h => exact .passRaises env d code h
  | round env hints recorded hr _ h => exact .round env _ hr.fits h
  | roundRaises env hints recorded hr _ h => exact .roundRaises env _ hr.fits h

theorem Converting.reachable {x : Execution} {c : Config} (h : Converting x c) : Reachable x c := by
  induction h with
  | start t m => exact .start t m
  | step _ hs ih => exact ih.step hs.step

/-- What escapes the loop of such a run is no conversion error. -/
theorem Converting.escaped {x : Execution} {s : Interp} {e : Exc} (h : Converting x ⟨.closing (some e), s⟩) :
    e.isConversion = false := by
  generalize hc : (⟨.closing (some e), s⟩ : Config) = c at h
  cases h with
  | start => cases hc
  | step h hs =>
    cases hs with
    | @pass s s' t env d code =>
      have ht : Phase.closing (some e) = t.phase := congrArg Config.phase hc
      cases t <;> cases ht
    | passRaises env d code hconv hraise =>
      cases hc
      exact clean_afterDrain hconv _ hraise
    | round => cases hc
    | @roundRaises s r env hints recorded hr hconv hraise =>
      cases hc
      have hw := h.reachable.waits (by simp)
      have h₀ : (s.step .asyncioWait).Processing x [] := hw.of_eq (slots_step _ _)
      exact clean_deliver h₀ hr _ (List.Subset.refl _) hconv _ hraise

/-! ## The end of a run -/

/-- What the dispatcher has when a run closes: its metadata, and what it
drained of the inbox. -/
structure Dispatch where
  runMeta : RunMeta := {}
  carryover : List Message := []
  fire : String → Seconds
  /-- `conversion.encode_value_sync`. -/
  encodeSync : Value → Except String Payload

/-- How a run ends for DBOS. -/
inductive RunEnd
  | running
  /-- A task failure: the run stays RUNNING, and the task is retried. -/
  | retried (e : WorkflowExc)
  | returned (result : Payload)
  | failed (f : FailureEnvelope)
  | cancelled (f : FailureEnvelope)
  | continuedAsNew (newRun : String)
  /-- With neither an envelope nor a marker. -/
  | escaped (e : Exc)

/-- The next run of a continue-as-new, begun in the `finally` block. -/
def Interp.closesAsNew (x : Execution) (env : Env) (s : Interp) : Except Exc (Option String) :=
  match s.outcome with
  | some (.continueAsNew can) =>
    if x.replayMode.isSome then .ok none
    else
      match ((s.cancelInFlight env).sweepChildrenOnClose env).beginContinueAsNew x env can with
      | .ok (newRun, _) => .ok (some newRun)
      | .error r => .error r.exc
  | _ => .ok none

namespace Dispatch

/-- The hop of a closed run. -/
def next (d : Dispatch) (s : Interp) : Except Exc (Option NextRun) :=
  Hop.decision d.fire d.runMeta
    { stage := .deciding, interp := s, mail := { inboxOf d.carryover with inbox := [], held := d.carryover } }

/-- The result of a completed run: for the next occurrence of a cron chain,
and for DBOS. -/
def result (d : Dispatch) (env : Env) (s : Interp) (v : Value) : Except Exc Payload := do
  match ← d.next s with
  | some _ => do
    let _ ← converted (d.encodeSync v)
    encodeValue env.converter v
  | none => encodeValue env.converter v

/-- The end of `execute` and of `dispatch`, outside a replay. -/
def ends (d : Dispatch) (x : Execution) (env : Env) (c : Config) : RunEnd :=
  match c.phase with
  | .draining | .waiting => .running
  | .failed e => .retried e
  | .closing escaped =>
    match c.interp.closesAsNew x env, escaped with
    | .error e, _ => .escaped e
    | .ok _, some e => .escaped e
    | .ok newRun, none =>
      match c.interp.outcome with
      | some (.ok v) =>
        match d.result env c.interp v with
        | .ok p => .returned p
        | .error e => .escaped e
      | some (.failure e) =>
        match d.next c.interp with
        | .ok _ => .failed e.serialize
        | .error e => .escaped e
      | some (.cancelled e) => .cancelled e.serialize
      | some (.continueAsNew _) =>
        match newRun with
        | some n => .continuedAsNew n
        | none => .escaped .assertionError
      | some (.taskFailure _) | none => .escaped .assertionError

/-- What the end of a run converts: the arguments, headers and memo of a
continue-as-new, or the result. -/
def CloseConverts (d : Dispatch) (env : Env) (c : Config) : Prop :=
  (∀ can, c.interp.outcome = some (.continueAsNew can) →
    env.Encodes can.args can.headers ∧ Converts (encodeValues env.converter c.interp.memo.values)) ∧
  (c.phase = .closing none → ∀ v, c.interp.outcome = some (.ok v) → Converts (encodeValue env.converter v) ∧
    ∀ n, d.next c.interp = .ok (some n) → Converts (converted (d.encodeSync v)))

end Dispatch

/-- No conversion error ends the run, out of `execute` or out of `dispatch`. -/
structure Confined (x : Execution) (env : Env) (d : Dispatch) (c : Config) : Prop where
  loop : ∀ e, c.phase = .closing (some e) → e.isConversion = false
  close : ∀ m, d.ends x env c ≠ .escaped (.conversionError m)

/-- Not raised by a converter. -/
abbrev Unconverted {α : Type} (r : Except Exc α) : Prop := Raises (fun e => ∀ m, e ≠ .conversionError m) r

theorem unconverted_of_converts {α : Type} {r : Except Exc α} (h : Converts r) : Unconverted r := by
  obtain ⟨a, rfl⟩ := h
  exact .ok a

namespace Interp

variable {x : Execution} {env : Env} {s : Interp}

theorem beginContinueAsNew_raises {can : ContinueAsNew} (he : env.Encodes can.args can.headers)
    (hm : Converts (encodeValues env.converter s.memo.values)) :
    Raises (fun r => ∀ m, r.exc ≠ .conversionError m) (s.beginContinueAsNew x env can) := by
  have hl : ∀ {α : Type} {r : Except Exc α} (s : Interp), Converts r →
      Raises (fun r => ∀ m, r.exc ≠ .conversionError m) (lift s r) := by
    rintro α r s ⟨a, rfl⟩
    exact .ok a
  have hmemo : ∀ {s₁ : Interp} (b : Bool), s₁.memo = s.memo → (s₁.awaitIf b).memo = s.memo := by
    intro s₁ b h
    obtain ⟨t, ht⟩ := traces_awaitIf s₁ b
    rw [ht]
    exact h
  have hown : (s.resolveOwnQueue x env).memo = s.memo := by
    unfold resolveOwnQueue
    split <;> rfl
  have hawait : ∀ {s₁ : Interp}, s₁.memo = s.memo →
      Converts (encodeValues env.converter s₁.await.memo.values) := by
    intro s₁ h
    change Converts (encodeValues env.converter s₁.memo.values)
    rw [h]
    exact hm
  unfold beginContinueAsNew
  dsimp only
  split
  · exact .error fun m h => by cases h
  · refine (hl _ he.2).bind fun _ _ => (hl _ ?_).bind fun _ _ => (hl _ he.1).bind fun _ _ => ?_
    · exact hawait (hmemo _ (hmemo _ hown))
    · split
      · exact .error fun m h => by cases h
      · exact .ok _

theorem closesAsNew_unconverted (h : ∀ can, s.outcome = some (.continueAsNew can) →
    env.Encodes can.args can.headers ∧ Converts (encodeValues env.converter s.memo.values)) :
    Unconverted (s.closesAsNew x env) := by
  unfold closesAsNew
  split
  · next can hcan =>
    split
    · exact .ok _
    · obtain ⟨he, hm⟩ := h can hcan
      have hmemo : ((s.cancelInFlight env).sweepChildrenOnClose env).memo = s.memo := by
        obtain ⟨t, ht⟩ := (traces_cancelInFlight env s).trans (traces_sweepChildrenOnClose env _)
        rw [ht]
      have hb := beginContinueAsNew_raises (x := x) (s := (s.cancelInFlight env).sweepChildrenOnClose env) he
        (by rw [hmemo]; exact hm)
      cases hr : ((s.cancelInFlight env).sweepChildrenOnClose env).beginContinueAsNew x env can with
      | ok r => exact .ok _
      | error r => exact .error (hb r hr)
  · exact .ok _

end Interp

/-- A retry policy's overflow is the only thing a hop decision raises. -/
theorem Dispatch.next_unconverted (d : Dispatch) (s : Interp) : Unconverted (d.next s) := by
  have hdelay : ∀ p n f, Unconverted (workflowRetryDelay p n f) := by
    intro p n f
    unfold workflowRetryDelay
    split
    · exact .ok _
    · split
      · exact .ok _
      · split
        · exact .ok _
        · split
          · exact .ok _
          · split
            · exact .ok _
            · refine Raises.bind ?_ fun _ _ => .ok _
              unfold pyPow
              split
              · exact .ok _
              · exact .error fun m h => by cases h
  unfold next Hop.decision
  split
  · exact .ok _
  · unfold nextHop
    split
    · exact .ok _
    · split
      · unfold afterFailure
        dsimp only
        split
        · refine (hdelay _ _ _).bind fun r _ => ?_
          split <;> exact .ok _
        · exact .ok _
      · exact .ok _
    all_goals exact .ok _

theorem Dispatch.result_unconverted {d : Dispatch} {env : Env} {s : Interp} {v : Value}
    (h : Converts (encodeValue env.converter v))
    (hs : ∀ n, d.next s = .ok (some n) → Converts (converted (d.encodeSync v))) : Unconverted (d.result env s v) := by
  refine (d.next_unconverted s).bind fun n hn => ?_
  split
  · exact (unconverted_of_converts (hs _ hn)).bind fun _ _ => unconverted_of_converts h
  · exact unconverted_of_converts h

/-- The start of a child that does not encode is answered at the call. -/
theorem startChild_answered {x : Execution} {env : Env} (s : Interp) (k : Nat) {e : ChildExec}
    (he : ¬ env.Encodes e.args e.headers) (hl : e.startCancelled = false) :
    ∃ f, .childStart k (some f) ∈ (s.startChild x env k e).ready := by
  have hencode : ∀ s : Interp, ∃ r, s.encodeCall env e.args e.headers = .error r := by
    intro s
    simp only [encodeCall]
    cases ha : encodeValues env.converter e.args with
    | error err => exact ⟨_, rfl⟩
    | ok ps =>
      cases hh : encodeHeaders env.converter e.headers with
      | error err => exact ⟨_, rfl⟩
      | ok hs => exact absurd ⟨⟨ps, ha⟩, hs, hh⟩ he
  obtain ⟨f, s₁, h⟩ : ∃ f s₁, s.enqueueChild x env e = .error (f, s₁) := by
    simp only [enqueueChild]
    split
    · exact ⟨_, _, rfl⟩
    · split
      · exact ⟨_, _, rfl⟩
      · split
        · exact ⟨_, _, rfl⟩
        · next r s₂ hr =>
          obtain ⟨r', hr'⟩ := hencode _
          exact absurd (hr'.symm.trans hr) (by simp)
  refine ⟨f, ?_⟩
  simp only [startChild, h, hl, Bool.false_eq_true, if_false]
  exact List.mem_append_right _ (.head _)

theorem lenient_encodes (args : List Value) (headers : Headers) : Env.calm.Encodes args headers := by
  refine ⟨⟨_, rfl⟩, ?_⟩
  unfold encodeHeaders
  split
  · exact ⟨_, rfl⟩
  · exact ⟨_, rfl⟩

/-- A pass in a world in which everything converts. -/
theorem calm_converts (x : Execution) (s : Interp) : PassConverts x .calm s := by
  have hsignals : ∀ (l : List SignalEnvelope) (s : Interp),
      EachStep (Interp.applySignal x .calm) (fun s e => Message.Decodes x .calm s (.signal e)) l s := by
    intro l
    induction l with
    | nil => exact fun _ => trivial
    | cons e l ih =>
      refine fun s => ⟨fun d _ _ => ?_, fun s' _ => ih s'⟩
      unfold decodeHeaders
      split <;> exact ⟨_, rfl⟩
  have hcommands : ∀ (cs : List Command) (s : Interp), CommandsConvert x .calm cs s := by
    intro cs
    induction cs with
    | nil => exact fun _ => trivial
    | cons c cs ih =>
      refine fun s => ⟨?_, fun _ s' _ => ih s'⟩
      cases c with
      | activity k => exact fun e _ => lenient_encodes _ _
      | send k => exact fun _ _ args headers _ _ _ => lenient_encodes args headers
      | attributes => exact ⟨_, rfl⟩
      | timer | child | patch => trivial
  exact ⟨hsignals _ _, fun _ _ _ => ⟨hcommands _ _, fun _ _ _ _ _ _ _ v _ => ⟨_, rfl⟩⟩⟩

/-- An hourly chain. -/
def Dispatch.hourly : Dispatch :=
  { runMeta := { cron := some "0 * * * *" }, fire := fun _ => 3600, encodeSync := fun _ => .ok ⟨"null"⟩ }

/-- A converter that encodes nothing. -/
def Converter.refusing : Converter := { Converter.lenient with encode := fun _ => .error "cannot encode" }

end Dbosify
