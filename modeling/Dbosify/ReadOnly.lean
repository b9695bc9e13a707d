/-
Queries and update validators, against the runtime they run on.

Their code is synchronous and runs with `_read_only` set, between two drains.
Each method of the runtime asks for itself whether it may change anything
(`_assert_not_read_only`). The cancels of handles and futures that earlier code
was handed do not ask, so a handler leaves the runtime as it was exactly when
it cancels nothing that can still be cancelled (`readOnly_frame_iff`).
-/
import Dbosify.InboxErrors
import Dbosify.SearchAttributes

namespace Dbosify

open Py (Dict)

/-! ## Search attributes, upserted -/

/-- `SearchAttributeUpdate`: a value, or `value_unset`. -/
inductive SearchAttributeUpdate
  | set (p : TypedPair)
  | unset (key : SearchAttributeKey)

/-- `TypedSearchAttributes.updated`: an attribute replaces the one of its
name, or comes last. -/
def TypedSearchAttributes.updated (t : TypedSearchAttributes) (l : List TypedPair) : Except Exc TypedSearchAttributes :=
  TypedSearchAttributes.of (l.foldl (fun attrs p =>
    match attrs.findIdx? (·.key.name = p.key.name) with
    | none => attrs ++ [p]
    | some i => attrs.set i p) t.pairs)

/-- `apply_sa_updates`, of typed updates or of the deprecated dict. -/
def applySaUpdates (current : TypedSearchAttributes) :
    UntypedAttributes ⊕ List SearchAttributeUpdate → Except Exc TypedSearchAttributes
  | .inl d => current.updated (untypedPairs d)
  | .inr updates => updates.foldlM (fun t u =>
      match u with
      | .unset key => TypedSearchAttributes.of (t.pairs.filter (·.key.name ≠ key.name))
      | .set p => t.updated [p]) current

/-! ## The runtime -/

/-- The interpreter, with what only the runtime's methods touch. -/
structure Runtime where
  interp : Interp
  typedSa : TypedSearchAttributes := .empty
  currentDetails : String := ""
  /-- How many tasks user code has created on the virtual loop. -/
  tasks : Nat := 0

/-- What user code asks for, rather than how its coroutines end. -/
def UserOp.isRequest : UserOp → Bool
  | startHandler _ | handlerEnds _ _ | primaryEnds _ | abort _ => false
  | _ => true

/-- An operation of the runtime that user code can invoke: a method of it, or
a cancel through a handle or a task. -/
inductive RuntimeOp
  | user (o : UserOp) (h : o.isRequest = true)
  | createTask
  | upsertSearchAttributes (updates : UntypedAttributes ⊕ List SearchAttributeUpdate)
  | setCurrentDetails (details : String)

namespace Runtime

/-- A method behind `_assert_not_read_only`. -/
def guarded (r : Runtime) (what : String) (method : Except Exc Runtime) : Runtime × Option Exc :=
  match r.interp.assertNotReadOnly what with
  | .error e => (r, some e.exc)
  | .ok () =>
    match method with
    | .ok r => (r, none)
    | .error e => (r, some e)

/-- `runtime_upsert_search_attributes`, past its guard. -/
def upsertSearchAttributes (r : Runtime) (updates : UntypedAttributes ⊕ List SearchAttributeUpdate) :
    Except Exc Runtime := do
  let newSa ← applySaUpdates r.typedSa updates
  let _ ← encodeSearchAttributes (newSa.pairs.map TypedPair.pair)
  return { r with typedSa := newSa, interp := { r.interp with commands := r.interp.commands ++ [.attributes] } }

end Runtime

/-- What an operation leaves, and the exception it raises, if it does. -/
def RuntimeOp.run (x : Execution) (r : Runtime) : RuntimeOp → Runtime × Option Exc
  | user o _ =>
    match o.run x r.interp with
    | .ok s => ({ r with interp := s }, none)
    | .error e => ({ r with interp := e.state }, some e.exc)
  | createTask => r.guarded "create task" (.ok { r with tasks := r.tasks + 1 })
  | upsertSearchAttributes updates => r.guarded "upsert search attributes" (r.upsertSearchAttributes updates)
  | setCurrentDetails details => r.guarded "set current details" (.ok { r with currentDetails := details })

/-- The code of a query handler or a validator: it asks one thing after
another, may look at everything and catch what it is told, and ends. -/
inductive HandlerCode
  | returns (v : Value)
  | raises (failure : FailureEnvelope)
  | ask (o : RuntimeOp) (k : Runtime → Option Exc → HandlerCode)

def HandlerCode.run (x : Execution) (r : Runtime) : HandlerCode → Runtime × Except FailureEnvelope Value
  | returns v => (r, .ok v)
  | raises f => (r, .error f)
  | ask o k => let a := o.run x r; (k a.1 a.2).run x a.1

namespace Runtime

/-- `_read_only`, for as long as the code runs. -/
def runReadOnly (x : Execution) (r : Runtime) (code : HandlerCode) : Runtime × Except FailureEnvelope Value :=
  let a := code.run x { r with interp := { r.interp with readOnly := true } }
  ({ a.1 with interp := { a.1.interp with readOnly := false } }, a.2)

/-- `_apply_query`, its arguments decoded, with the code of the handler. -/
def applyQuery (x : Execution) (env : Env) (r : Runtime) (e : QueryEnvelope) (args : List Value) (code : HandlerCode) :
    Runtime :=
  let answer (r : Runtime) (reply : Reply) : Runtime := { r with interp := r.interp.reply (.queryResult e.requestId) reply }
  match r.interp.resolveQuery x e.name with
  | none => answer r ⟨.failed, .inr (nonRetryableFailure ("query handler '" ++ e.name ++ "' not found") "NotFoundError")⟩
  | some defn =>
    match r.interp.decodeMessageHeaders env e.headers with
    | .error e => answer { r with interp := e.state } ⟨.failed, .inr e.exc.serialize⟩
    | .ok (_, s) =>
      if defn.accepts args.length then
        match ({ r with interp := s } : Runtime).runReadOnly x code with
        | (r, .ok v) => answer r ⟨.completed, .inl v⟩
        | (r, .error f) => answer r ⟨.failed, .inr f⟩
      else answer { r with interp := s } ⟨.failed, .inr (Exc.typeError "wrong number of arguments").serialize⟩

/-- `handle_update_validator`: the failure it raises, if it does. -/
def handleUpdateValidator (x : Execution) (r : Runtime) (code : HandlerCode) : Runtime × Option FailureEnvelope :=
  let a := r.runReadOnly x code
  (a.1, match a.2 with
    | .ok _ => none
    | .error f => some f)

/-- Everything but the replies, the history, and the flag itself. -/
def state (r : Runtime) : Runtime :=
  { r with interp := { r.interp with outbox := [], past := [], trace := [], readOnly := false } }

end Runtime

/-- Code that asks nothing. -/
def HandlerCode.answer : Except FailureEnvelope Value → HandlerCode
  | .ok v => returns v
  | .error f => raises f

/-- A query whose handler asks nothing is answered as the interpreter answers
it. -/
theorem Runtime.applyQuery_answer (x : Execution) (env : Env) (r : Runtime) (hr : r.interp.readOnly = false)
    (e : QueryEnvelope) (args : List Value) :
    (r.applyQuery x env e args (.answer (env.query e.name args))).interp = r.interp.applyQuery x env e args := by
  have hself : ∀ s : Interp, s.readOnly = false → ({ s with readOnly := false } : Interp) = s := by
    intro s hs
    rw [← hs]
  unfold applyQuery Interp.applyQuery
  cases hq : r.interp.resolveQuery x e.name with
  | none => rfl
  | some defn =>
    dsimp only
    cases hd : r.interp.decodeMessageHeaders env e.headers with
    | error e => rfl
    | ok a =>
      obtain ⟨headers, s⟩ := a
      have hs : s.readOnly = false := by
        unfold Interp.decodeMessageHeaders at hd
        simp only [bind_eq_ok, lift_eq_ok, pure_eq_ok] at hd
        obtain ⟨_, -, h⟩ := hd
        cases h
        unfold Interp.awaitIf
        split <;> exact hr
      dsimp only
      split
      · cases env.query e.name args with
        | ok v => exact congrArg (fun t : Interp => t.reply _ _) (hself s hs)
        | error f => exact congrArg (fun t : Interp => t.reply _ _) (hself s hs)
      · rfl

/-! ## What a request cancels -/

/-- The request cancels something that can still be cancelled. -/
def UserOp.Hits (s : Interp) : UserOp → Prop
  | requestActivityCancel seq => ∃ e, s.pendingActivities.get? seq = some e ∧
      if e.cancellationType = .waitCancellationCompleted ∧ ¬ e.asyncPending then
        e.queuedDbosId.isSome = true ∨ e.cancelRequested = false
      else e.futureCancelled = false
  | cancelActivityAwait seq => ∃ e, s.pendingActivities.get? seq = some e ∧ e.futureCancelled = false
  | cancelTimer seq => (s.pendingTimers.get? seq).isSome = true
  | cancelChildStart seq => ∃ c, s.pendingChildren.get? seq = some c ∧ c.startCancelled = false
  | cancelChildResult seq => ∃ c, s.pendingChildren.get? seq = some c ∧ c.started = true ∧ c.resultCancelled = false
  | cancelSend seq => ∃ p, s.pendingSends.get? seq = some p ∧ p.futureCancelled = false
  | _ => False

def RuntimeOp.Hits (r : Runtime) : RuntimeOp → Prop
  | user o _ => o.Hits r.interp
  | _ => False

/-- What a handler asks for, as long as nothing it asks changes anything. -/
def HandlerCode.asked (x : Execution) (r : Runtime) : HandlerCode → List RuntimeOp
  | returns _ | raises _ => []
  | ask o k => o :: (k r (o.run x r).2).asked x r

namespace Interp

variable {x : Execution} {s s' : Interp}

theorem assertNotReadOnly_error (hr : s.readOnly = true) (what : String) :
    s.assertNotReadOnly what = raise s (.readOnlyContextError ("Cannot " ++ what ++ " in a read-only context")) :=
  if_pos hr

theorem setActivity_eq_self {seq : Nat} {f : ActivityExec → ActivityExec}
    (h : ∀ e, s.pendingActivities.get? seq = some e → f e = e) : s.setActivity seq f = s := by
  rw [setActivity, Dict.modify_eq_self h]

theorem cancelActivityFuture_eq_self {seq : Nat}
    (h : ∀ e, s.pendingActivities.get? seq = some e → e.futureCancelled = true) : s.cancelActivityFuture seq = s := by
  unfold cancelActivityFuture
  split
  · rfl
  · next e he => rw [if_pos (h e he)]

/-- A request in a read-only context that hits nothing changes nothing. -/
theorem run_eq_self (hr : s.readOnly = true) {o : UserOp} (hreq : o.isRequest = true) (h : ¬ o.Hits s) :
    (o.run x s).state = s := by
  cases o with
  | startActivity a => simp only [UserOp.run, startActivity, assertNotReadOnly_error hr]; rfl
  | createTimer delay => simp only [UserOp.run, createTimer, assertNotReadOnly_error hr]; rfl
  | startChildWorkflow c => simp only [UserOp.run, startChildWorkflow, assertNotReadOnly_error hr]; rfl
  | sendToWorkflow target envelope chain => simp only [UserOp.run, sendToWorkflow, assertNotReadOnly_error hr]; rfl
  | upsertMemo updates => simp only [UserOp.run, upsertMemo, assertNotReadOnly_error hr]; rfl
  | patched id => simp only [UserOp.run, patch, assertNotReadOnly_error hr]; rfl
  | setHandler category name handler => simp only [UserOp.run, setHandler, assertNotReadOnly_error hr]; rfl
  | requestActivityCancel seq =>
    change s.requestActivityCancel seq = s
    unfold requestActivityCancel
    split
    · rfl
    · next e he =>
      have hne : ¬ (if e.cancellationType = .waitCancellationCompleted ∧ ¬ e.asyncPending then
          e.queuedDbosId.isSome = true ∨ e.cancelRequested = false else e.futureCancelled = false) := fun hhit => h ⟨e, he, hhit⟩
      split at hne
      · next hc =>
        rw [not_or, Bool.not_eq_true, Bool.not_eq_false] at hne
        rw [if_pos hc, hne.1, if_neg Bool.false_ne_true]
        refine setActivity_eq_self fun e' he' => ?_
        rw [he, Option.some.injEq] at he'
        subst he'
        rw [ActivityExec.askCancel, ← hne.2]
      · next hc =>
        rw [if_neg hc]
        refine cancelActivityFuture_eq_self fun e' he' => ?_
        rw [he, Option.some.injEq] at he'
        rw [← he', ← Bool.not_eq_false]
        exact hne
  | cancelActivityAwait seq =>
    refine cancelActivityFuture_eq_self fun e he => ?_
    by_contra hne
    exact h ⟨e, he, by simpa using hne⟩
  | cancelTimer seq =>
    have hnone : (s.pendingTimers.get? seq).isNone = true := by
      rw [← Option.not_isSome, Bool.not_eq_true']
      exact Bool.eq_false_iff.2 h
    exact if_pos hnone
  | cancelChildStart seq =>
    have hself : s.pendingChildren.modify seq (fun c => { c with startCancelled := true }) = s.pendingChildren := by
      refine Dict.modify_eq_self fun c hc => ?_
      have hset : c.startCancelled = true := by
        by_contra hne
        exact h ⟨c, hc, by simpa using hne⟩
      rw [← hset]
    change s.cancelChildStart seq = s
    rw [cancelChildStart, hself]
  | cancelChildResult seq =>
    change s.cancelChildResult seq = s
    unfold cancelChildResult
    split
    · rfl
    · next c hc =>
      refine if_pos ?_
      by_contra hne
      rw [not_or, not_not, Bool.not_eq_true] at hne
      exact h ⟨c, hc, hne⟩
  | cancelSend seq =>
    have hself : s.pendingSends.modify seq (fun p => { p with futureCancelled := true }) = s.pendingSends := by
      refine Dict.modify_eq_self fun p hp => ?_
      have hset : p.futureCancelled = true := by
        by_contra hne
        exact h ⟨p, hp, by simpa using hne⟩
      rw [← hset]
    change s.cancelSend seq = s
    rw [cancelSend, hself]
  | startHandler | handlerEnds | primaryEnds | abort => cases hreq

end Interp

/-- Marks are kept: what had one under a key is there and has it still. -/
def Marked {α : Type} (f : α → Bool) (d d' : Dict Nat α) : Prop :=
  ∀ k v, d.get? k = some v → f v = true → ∃ v', d'.get? k = some v' ∧ f v' = true

namespace Marked

variable {α : Type} {f : α → Bool} {d d' d'' : Dict Nat α}

theorem refl (d : Dict Nat α) : Marked f d d := fun _ v h hf => ⟨v, h, hf⟩

theorem trans (h : Marked f d d') (h' : Marked f d' d'') : Marked f d d'' := by
  intro k v hk hf
  obtain ⟨v', hk', hf'⟩ := h k v hk hf
  exact h' k v' hk' hf'

theorem modify (k : Nat) {g : α → α} (hg : ∀ v, f v = true → f (g v) = true) : Marked f d (d.modify k g) := by
  intro k' v hk hf
  rw [Dict.get?_modify, hk]
  split
  · exact ⟨g v, rfl, hg v hf⟩
  · exact ⟨v, rfl, hf⟩

/-- A mark that was set tells the dictionaries apart. -/
theorem ne {d₁ : Dict Nat α} {k : Nat} {v : α} (h : Marked f d₁ d') (hv : d.get? k = some v) (hf : f v = false)
    (v₁ : α) (hv₁ : d₁.get? k = some v₁) (hf₁ : f v₁ = true) : d' ≠ d := by
  intro heq
  obtain ⟨v', hv', hf'⟩ := h k v₁ hv₁ hf₁
  rw [heq, hv, Option.some.injEq] at hv'
  rw [← hv', hf] at hf'
  cases hf'

end Marked

/-- What has been cancelled stays so, and the context stays read-only. -/
structure Interp.Spent (s s' : Interp) : Prop where
  readOnly : s'.readOnly = s.readOnly
  timers : ∀ k, s.pendingTimers.get? k = none → s'.pendingTimers.get? k = none
  futures : Marked (·.futureCancelled) s.pendingActivities s'.pendingActivities
  asked : Marked (·.cancelRequested) s.pendingActivities s'.pendingActivities
  starts : Marked (·.startCancelled) s.pendingChildren s'.pendingChildren
  results : Marked (·.resultCancelled) s.pendingChildren s'.pendingChildren
  sends : Marked (·.futureCancelled) s.pendingSends s'.pendingSends
  waits : s.queuedWaitCancelSeqs.length ≤ s'.queuedWaitCancelSeqs.length

namespace Interp

variable {x : Execution} {s s₁ s' : Interp}

theorem Spent.refl (s : Interp) : s.Spent s := ⟨rfl, fun _ h => h, .refl _, .refl _, .refl _, .refl _, .refl _, le_rfl⟩

theorem Spent.trans (h : s.Spent s₁) (h' : s₁.Spent s') : s.Spent s' where
  readOnly := h'.readOnly.trans h.readOnly
  timers k hk := h'.timers k (h.timers k hk)
  futures := h.futures.trans h'.futures
  asked := h.asked.trans h'.asked
  starts := h.starts.trans h'.starts
  results := h.results.trans h'.results
  sends := h.sends.trans h'.sends
  waits := h.waits.trans h'.waits

theorem spent_cancelActivityFuture (s : Interp) (seq : Nat) : s.Spent (s.cancelActivityFuture seq) := by
  unfold cancelActivityFuture
  split
  · exact .refl s
  · split
    · exact .refl s
    · exact { Spent.refl s with
        futures := .modify seq fun _ _ => rfl
        asked := .modify seq fun _ h => h }

/-- A request in a read-only context undoes no cancellation. -/
theorem spent_run (hr : s.readOnly = true) {o : UserOp} (hreq : o.isRequest = true) : s.Spent (o.run x s).state := by
  by_cases h : o.Hits s
  · cases o with
    | requestActivityCancel seq =>
      change s.Spent (s.requestActivityCancel seq)
      unfold requestActivityCancel
      split
      · exact .refl s
      · split
        · have hask : s.Spent (s.setActivity seq .askCancel) :=
            { Spent.refl s with
              futures := .modify seq fun _ h => h
              asked := .modify seq fun _ _ => rfl }
          dsimp only
          split
          · exact { hask with waits := by simp [setActivity] }
          · exact hask
        · exact spent_cancelActivityFuture s seq
    | cancelActivityAwait seq => exact spent_cancelActivityFuture s seq
    | cancelTimer seq =>
      change s.Spent (s.cancelTimer seq)
      unfold cancelTimer
      split
      · exact .refl s
      · refine { Spent.refl s with timers := fun k hk => ?_ }
        rw [Dict.get?_pop]
        split
        · rfl
        · exact hk
    | cancelChildStart seq =>
      exact { Spent.refl s with
        starts := .modify seq fun _ _ => rfl
        results := .modify seq fun _ h => h }
    | cancelChildResult seq =>
      change s.Spent (s.cancelChildResult seq)
      unfold cancelChildResult
      split
      · exact .refl s
      · split
        · exact .refl s
        · exact { Spent.refl s with
            starts := .modify seq fun _ h => h
            results := .modify seq fun _ _ => rfl }
    | cancelSend seq => exact { Spent.refl s with sends := .modify seq fun _ _ => rfl }
    | startActivity | createTimer | startChildWorkflow | sendToWorkflow | upsertMemo | patched | setHandler => cases h
    | startHandler | handlerEnds | primaryEnds | abort => cases hreq
  · rw [run_eq_self hr hreq h]
    exact .refl s

/-- What cancels act on. -/
def cancellable (s : Interp) :
    Dict Nat Seconds × Dict Nat ActivityExec × Dict Nat ChildExec × Dict Nat PendingSend × List Nat :=
  (s.pendingTimers, s.pendingActivities, s.pendingChildren, s.pendingSends, s.queuedWaitCancelSeqs)

theorem hits_cancelActivityFuture {seq : Nat} {e : ActivityExec} (he : s.pendingActivities.get? seq = some e)
    (hf : e.futureCancelled = false) (hs : (s.cancelActivityFuture seq).Spent s') :
    s'.pendingActivities ≠ s.pendingActivities := by
  have hrun : (s.cancelActivityFuture seq).pendingActivities = s.pendingActivities.modify seq .cancelFuture := by
    unfold cancelActivityFuture
    rw [he]
    dsimp only
    rw [hf, if_neg Bool.false_ne_true]
  refine hs.futures.ne he hf e.cancelFuture ?_ rfl
  rw [hrun, Dict.get?_modify_self, he]
  rfl

/-- A request that hits something is not undone by what follows. -/
theorem hits_ne {o : UserOp} (h : o.Hits s) (hs : (o.run x s).state.Spent s') : s'.cancellable ≠ s.cancellable := by
  intro heq
  simp only [cancellable, Prod.mk.injEq] at heq
  obtain ⟨htimers, hactivities, hchildren, hsends, hwaits⟩ := heq
  cases o with
  | requestActivityCancel seq =>
    obtain ⟨e, he, hhit⟩ := h
    have hs : (s.requestActivityCancel seq).Spent s' := hs
    unfold requestActivityCancel at hs
    simp only [he] at hs
    split at hhit
    · next hc =>
      rw [if_pos hc] at hs
      split at hs
      · have := hs.waits
        rw [hwaits] at this
        simp [setActivity] at this
      · next hq =>
        refine hs.asked.ne he (hhit.resolve_left hq) e.askCancel ?_ rfl hactivities
        rw [setActivity, Dict.get?_modify_self, he]
        rfl
    · next hc =>
      rw [if_neg hc] at hs
      exact hits_cancelActivityFuture he hhit hs hactivities
  | cancelActivityAwait seq =>
    obtain ⟨e, he, hf⟩ := h
    exact hits_cancelActivityFuture he hf hs hactivities
  | cancelTimer seq =>
    have hs : (s.cancelTimer seq).Spent s' := hs
    have hrun : (s.cancelTimer seq).pendingTimers.get? seq = none := by
      unfold cancelTimer
      split
      · next hnone => exact Option.isNone_iff_eq_none.1 hnone
      · exact Dict.get?_pop_self _ _
    have hnone := hs.timers seq hrun
    rw [htimers] at hnone
    have h : (s.pendingTimers.get? seq).isSome = true := h
    rw [hnone] at h
    cases h
  | cancelChildStart seq =>
    obtain ⟨c, hc, hf⟩ := h
    refine hs.starts.ne hc hf { c with startCancelled := true } ?_ rfl hchildren
    exact (Dict.get?_modify_self _ _ _).trans (by rw [hc]; rfl)
  | cancelChildResult seq =>
    obtain ⟨c, hc, hstarted, hf⟩ := h
    have hs : (s.cancelChildResult seq).Spent s' := hs
    unfold cancelChildResult at hs
    simp only [hc, hstarted, hf, not_true_eq_false, Bool.false_eq_true, or_self, if_false] at hs
    refine hs.results.ne hc hf { c with resultCancelled := true } ?_ rfl hchildren
    exact (Dict.get?_modify_self _ _ _).trans (by rw [hc]; rfl)
  | cancelSend seq =>
    obtain ⟨p, hp, hf⟩ := h
    refine hs.sends.ne hp hf { p with futureCancelled := true } ?_ rfl hsends
    exact (Dict.get?_modify_self _ _ _).trans (by rw [hp]; rfl)
  | startActivity | createTimer | startChildWorkflow | sendToWorkflow | upsertMemo | patched | setHandler | startHandler
  | handlerEnds | primaryEnds | abort => cases h

end Interp

/-! ## Handlers -/

variable {x : Execution}

theorem RuntimeOp.run_interp (r : Runtime) (o : UserOp) (h : o.isRequest = true) :
    (RuntimeOp.run x r (.user o h)).1 = { r with interp := (o.run x r.interp).state } := by
  simp only [RuntimeOp.run]
  cases o.run x r.interp <;> rfl

theorem Runtime.guarded_eq_self {r : Runtime} (hr : r.interp.readOnly = true) (what : String) (m : Except Exc Runtime) :
    (r.guarded what m).1 = r := by
  unfold guarded
  rw [Interp.assertNotReadOnly_error hr]
  rfl

/-- An operation in a read-only context that hits nothing changes nothing. -/
theorem RuntimeOp.run_eq_self {r : Runtime} (hr : r.interp.readOnly = true) {o : RuntimeOp} (h : ¬ o.Hits r) :
    (o.run x r).1 = r := by
  cases o with
  | user o hreq => rw [run_interp, Interp.run_eq_self hr hreq h]
  | createTask | upsertSearchAttributes | setCurrentDetails => exact Runtime.guarded_eq_self hr _ _

theorem RuntimeOp.spent_run {r : Runtime} (hr : r.interp.readOnly = true) (o : RuntimeOp) :
    r.interp.Spent (o.run x r).1.interp := by
  cases o with
  | user o hreq =>
    rw [run_interp]
    exact Interp.spent_run hr hreq
  | createTask | upsertSearchAttributes | setCurrentDetails =>
    rw [run, Runtime.guarded_eq_self hr]
    exact .refl _

theorem HandlerCode.spent_run (code : HandlerCode) : ∀ {r : Runtime}, r.interp.readOnly = true →
    r.interp.Spent (code.run x r).1.interp := by
  induction code with
  | returns | raises => exact fun _ => .refl _
  | ask o k ih =>
    intro r hr
    have hs := o.spent_run (x := x) hr
    exact hs.trans (ih _ _ (hs.readOnly.trans hr))

/-- Code that hits nothing changes nothing. -/
theorem HandlerCode.run_eq_self (code : HandlerCode) : ∀ {r : Runtime}, r.interp.readOnly = true →
    (∀ o ∈ code.asked x r, ¬ o.Hits r) → (code.run x r).1 = r := by
  induction code with
  | returns | raises => exact fun _ _ => rfl
  | ask o k ih =>
    intro r hr h
    have hself := RuntimeOp.run_eq_self (x := x) hr (h o (.head _))
    rw [run, hself]
    exact ih _ _ hr fun o' ho' => h o' (.tail _ ho')

/-- Code that hits something leaves its mark. -/
theorem HandlerCode.run_ne (code : HandlerCode) : ∀ {r : Runtime}, r.interp.readOnly = true →
    (∃ o ∈ code.asked x r, o.Hits r) → (code.run x r).1.interp.cancellable ≠ r.interp.cancellable := by
  induction code with
  | returns | raises => intro r _ h; obtain ⟨o, ho, -⟩ := h; cases ho
  | ask o k ih =>
    intro r hr h
    by_cases ho : o.Hits r
    · have hs := o.spent_run (x := x) hr
      have hrest := (k (o.run x r).1 (o.run x r).2).spent_run (x := x) (hs.readOnly.trans hr)
      cases o with
      | user o hreq =>
        rw [RuntimeOp.run_interp] at hrest
        rw [run, RuntimeOp.run_interp]
        exact Interp.hits_ne ho hrest
      | createTask | upsertSearchAttributes | setCurrentDetails => cases ho
    · obtain ⟨o', ho', hhit⟩ := h
      rw [run, RuntimeOp.run_eq_self (x := x) hr ho]
      rcases List.mem_cons.1 ho' with rfl | ho'
      · exact absurd hhit ho
      · exact ih _ _ hr ⟨o', ho', hhit⟩

namespace Runtime

/-- The state a handler's code starts in. -/
def readOnly (r : Runtime) : Runtime := { r with interp := { r.interp with readOnly := true } }

/-- Where the code of a query's handler starts, if it comes to that. -/
def handlerStart (x : Execution) (env : Env) (r : Runtime) (e : QueryEnvelope) (args : List Value) : Option Runtime :=
  match r.interp.resolveQuery x e.name with
  | none => none
  | some defn =>
    match r.interp.decodeMessageHeaders env e.headers with
    | .error _ => none
    | .ok (_, s) => if defn.accepts args.length then some ({ r with interp := s } : Runtime).readOnly else none

/-- Code run read-only leaves the state as it was exactly when nothing it asks
for hits anything. -/
theorem runReadOnly_state_iff (r : Runtime) (code : HandlerCode) :
    (r.runReadOnly x code).1.state = r.state ↔ ∀ o ∈ code.asked x r.readOnly, ¬ o.Hits r.readOnly := by
  constructor
  · intro h o ho hhit
    have hne := code.run_ne (x := x) (r := r.readOnly) rfl ⟨o, ho, hhit⟩
    have hc := congrArg (fun r' : Runtime => r'.interp.cancellable) h
    exact hne hc
  · intro h
    have hself := code.run_eq_self (x := x) (r := r.readOnly) rfl h
    have hrun : (r.runReadOnly x code).1 = { (code.run x r.readOnly).1 with
        interp := { (code.run x r.readOnly).1.interp with readOnly := false } } := rfl
    rw [hrun, hself]
    rfl

theorem decodeMessageHeaders_state {r : Runtime} {env : Env} {hs : Headers} :
    match r.interp.decodeMessageHeaders env hs with
    | .ok a => ({ r with interp := a.2 } : Runtime).state = r.state
    | .error e => ({ r with interp := e.state } : Runtime).state = r.state := by
  have hawait : ∀ b, ({ r with interp := r.interp.awaitIf b } : Runtime).state = r.state := by
    intro b
    cases b <;> rfl
  unfold Interp.decodeMessageHeaders
  dsimp only
  cases decodeHeaders env.converter hs with
  | ok h => exact hawait _
  | error e => exact hawait _

/-- A query leaves the state as it was exactly when its handler hits nothing. -/
theorem applyQuery_state_iff (r : Runtime) (env : Env) (e : QueryEnvelope) (args : List Value) (code : HandlerCode) :
    (r.applyQuery x env e args code).state = r.state ↔
      ∀ r₀, r.handlerStart x env e args = some r₀ → ∀ o ∈ code.asked x r₀, ¬ o.Hits r₀ := by
  have hdecode := @decodeMessageHeaders_state r env e.headers
  unfold applyQuery handlerStart
  cases r.interp.resolveQuery x e.name with
  | none => exact ⟨(fun _ _ h => by cases h), fun _ => rfl⟩
  | some defn =>
    dsimp only
    cases hd : r.interp.decodeMessageHeaders env e.headers with
    | error e' =>
      rw [hd] at hdecode
      exact ⟨(fun _ _ h => by cases h), fun _ => hdecode⟩
    | ok a =>
      obtain ⟨headers, s⟩ := a
      rw [hd] at hdecode
      dsimp only at hdecode ⊢
      split
      · next hacc =>
        have hrun := ({ r with interp := s } : Runtime).runReadOnly_state_iff (x := x) code
        rw [hdecode] at hrun
        simp only [Option.some.injEq, forall_eq']
        rw [← hrun]
        generalize ({ r with interp := s } : Runtime).runReadOnly x code = a
        obtain ⟨r', result⟩ := a
        cases result <;> exact Iff.rfl
      · exact ⟨(fun _ _ h => by cases h), fun _ => hdecode⟩

end Runtime

/-- **A query or a validator is read-only exactly when it cancels nothing that
can still be cancelled**: everything else it asks of the runtime is refused. -/
theorem readOnly_frame_iff (x : Execution) (r : Runtime) (code : HandlerCode) :
    (∀ (env : Env) (e : QueryEnvelope) (args : List Value), (r.applyQuery x env e args code).state = r.state ↔
        ∀ r₀, r.handlerStart x env e args = some r₀ → ∀ o ∈ code.asked x r₀, ¬ o.Hits r₀) ∧
      ((r.handleUpdateValidator x code).1.state = r.state ↔ ∀ o ∈ code.asked x r.readOnly, ¬ o.Hits r.readOnly) :=
  ⟨fun env e args => r.applyQuery_state_iff env e args code, r.runReadOnly_state_iff code⟩

/-- A workflow with a query handler. -/
def Execution.queried : Execution :=
  { base := "wf", defn := { name := "Wf", queries := .set .empty (some "q") { name := some "q" } } }

/-- A run that has an activity in flight, and waits. -/
def activityStarted : List Input := [.drain [.startActivity { activityName := "act" }]]

/-- Code that cancels the handle of that activity. -/
def cancelsActivity : HandlerCode := .ask (.user (.requestActivityCancel 1) rfl) fun _ _ => .returns .none

/-- A query that cancels an activity the run started leaves its future
cancelled, and so does a validator. -/
theorem cancelsActivity_seen : ∃ r : Runtime, Receiving .queried r.interp ∧
    (r.applyQuery .queried .calm { requestId := "1", name := "q", args := [] } [] cancelsActivity).state ≠ r.state ∧
    (r.handleUpdateValidator .queried cancelsActivity).1.state ≠ r.state := by
  have h : ((Execution.queried.run 0 activityStarted).phase.isWaiting &&
      (Execution.queried.run 0 activityStarted).interp.fits [(1, .message none)] &&
      decide ((Execution.queried.run 0 activityStarted).interp.waiters.map (fun w => (w.kind, w.task)) =
        [(.activity, 0), (.inbox, 1)]) &&
      decide (((Execution.queried.run 0 activityStarted).interp.pendingActivities.get? 1).map (fun e =>
        (e.cancellationType, e.asyncPending, e.futureCancelled)) = some (.tryCancel, false, false)) &&
      decide ((Execution.queried.run 0 activityStarted).interp.queryOverrides.get? (some "q") = none)) = true := by
    decide +kernel
  have hreach := Execution.queried.run_reachable 0 activityStarted
  generalize Execution.queried.run 0 activityStarted = c at h hreach
  simp only [Bool.and_eq_true, decide_eq_true_eq] at h
  obtain ⟨⟨⟨⟨hwait, hfits⟩, hwaiters⟩, hact⟩, hquery⟩ := h
  obtain ⟨w, l, hl, hw, hrest⟩ := List.map_eq_cons_iff.1 hwaiters
  obtain ⟨v, l, rfl, hv, hrest⟩ := List.map_eq_cons_iff.1 hrest
  rw [List.map_eq_nil_iff] at hrest
  subst hrest
  simp only [Prod.mk.injEq] at hw hv
  obtain ⟨e, he, hflags⟩ := Option.map_eq_some_iff.1 hact
  simp only [Prod.mk.injEq] at hflags
  -- The receive task is off the list, and the query's handler is about to run.
  let s : Interp := { c.interp.step .asyncioWait with waiters := [w] }
  have hbefore : [w].foldlM (Interp.deliverWaiter .queried .calm (.of [(1, .message none)])) (c.interp.step .asyncioWait) =
      .ok (c.interp.step .asyncioWait) := by
    simp only [List.foldlM_cons, List.foldlM_nil, Interp.deliverWaiter, Done.of, hw.2]
    rfl
  have hremove : (c.interp.step .asyncioWait).removeWaiter v = .ok s := by
    have hlist : (c.interp.step .asyncioWait).waiters = [w, v] := hl
    simp only [Interp.removeWaiter, hlist, s, List.any_cons, List.eraseP_cons, hw.2, hv.2]
    rfl
  have hhits : (UserOp.requestActivityCancel 1).Hits { s with readOnly := true } := by
    refine ⟨e, he, ?_⟩
    rw [hflags.1, if_neg (fun hn => by cases hn.1)]
    exact hflags.2.2
  refine ⟨{ interp := s }, ⟨c, .calm, _, [w], v, [], _, hreach, Phase.isWaiting_iff.1 hwait, Interp.fits_of hfits, hl, hv.1, hbefore,
    hremove⟩, fun h => ?_, fun h => ?_⟩
  · have hres : s.resolveQuery .queried "q" = some { name := some "q" } := by
      simp only [s, Interp.resolveQuery, Interp.resolve, Interp.step, Interp.emit, hquery]
      rfl
    have hstart : ({ interp := s } : Runtime).handlerStart .queried .calm { requestId := "1", name := "q", args := [] } [] =
        some ({ interp := s } : Runtime).readOnly := by
      simp only [Runtime.handlerStart, hres]
      rfl
    exact (Runtime.applyQuery_state_iff ..).1 h _ hstart _ (.head _) hhits
  · exact (Runtime.runReadOnly_state_iff _ _).1 h _ (.head _) hhits

end Dbosify
