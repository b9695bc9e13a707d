/-
Which children the close of a run reaches.

The run records every child it starts, for clients and for the runs that may
terminate it; its own close walks the children whose result is still pending.
A child leaves that map when its result comes in, and also when whoever
awaited the result is cancelled, whatever the child goes on doing. In every
run in which no child is let go of that is open at the close, the close
applies every recorded policy and no other (`policies_applied`).
-/
import Dbosify.ChildTree
import Dbosify.Rest

namespace Dbosify

open Py (Dict)

/-- The start of a child gets nowhere: it does not convert, or its enqueue
raises. -/
def Env.startFails (env : Env) (e : ChildExec) : Prop :=
  (∃ r, encodeValues env.converter e.args = .error r) ∨ (∃ r, encodeHeaders env.converter e.headers = .error r) ∨
    (env.enqueueFails e.childId).isSome = true

/-! ## The books -/

/-- A child as the registry has it. -/
def ChildExec.entry (e : ChildExec) : String × ParentClosePolicy := (e.childId, e.parentClosePolicy)

/-- The children among the commands. -/
def childSeqs (cs : List Command) : List Nat :=
  cs.filterMap fun
    | .child k => some k
    | _ => none

/-- The two places the children are tracked in, and the starts to come. -/
structure Offspring where
  seq : Nat
  pending : Dict Nat ChildExec
  registry : List (String × ParentClosePolicy)
  queued : List Nat

def Interp.offspring (s : Interp) : Offspring := ⟨s.childSeq, s.pendingChildren, s.childrenRegistry, childSeqs s.commands⟩

/-- Nothing is lost by letting go of this child: it is recorded to be
abandoned, or not open at the close. -/
def Exempt (isOpen : String → Bool) (c : String × ParentClosePolicy) : Prop := c.2 = .abandon ∨ isOpen c.1 = false

/-- Every recorded child that is not exempt is pending and started, and what
is started is recorded. -/
structure Tracked (isOpen : String → Bool) (σ : Offspring) : Prop where
  fresh : ∀ {k e}, σ.pending.get? k = some e → k ≤ σ.seq
  queued : ∀ {k}, k ∈ σ.queued → k ≤ σ.seq ∧ ∀ e, σ.pending.get? k = some e → e.started = false
  distinct : σ.queued.Nodup
  recorded : ∀ {k e}, σ.pending.get? k = some e → e.started = true → e.entry ∈ σ.registry
  covered : ∀ c ∈ σ.registry, Exempt isOpen c ∨ ∃ k e, σ.pending.get? k = some e ∧ e.started = true ∧ e.entry = c

namespace Tracked

variable {isOpen : String → Bool} {σ : Offspring}

/-- A seq is used up. -/
theorem skip (h : Tracked isOpen σ) : Tracked isOpen { σ with seq := σ.seq + 1 } where
  fresh := fun he => Nat.le_succ_of_le (h.fresh he)
  queued := fun hk => ⟨Nat.le_succ_of_le (h.queued hk).1, (h.queued hk).2⟩
  distinct := h.distinct
  recorded := h.recorded
  covered := h.covered

/-- A child is asked for. -/
theorem ask (h : Tracked isOpen σ) {e : ChildExec} (he : e.started = false) :
    Tracked isOpen { σ with seq := σ.seq + 1, pending := σ.pending.set (σ.seq + 1) e, queued := σ.queued ++ [σ.seq + 1] } where
  fresh := by
    intro k e' he'
    simp only [Dict.get?_set] at he'
    split at he'
    · next hk => exact hk.le
    · exact Nat.le_succ_of_le (h.fresh he')
  queued := by
    intro k hk
    rcases List.mem_append.1 hk with hk | hk
    · obtain ⟨hle, hs⟩ := h.queued hk
      refine ⟨Nat.le_succ_of_le hle, fun e' he' => hs e' ?_⟩
      simp only [Dict.get?_set] at he'
      rwa [if_neg (by omega)] at he'
    · obtain rfl := List.mem_singleton.1 hk
      refine ⟨le_rfl, fun e' he' => ?_⟩
      simp only [Dict.get?_set_self, Option.some.injEq] at he'
      rw [← he', he]
  distinct := by
    refine List.nodup_append.2 ⟨h.distinct, List.nodup_singleton _, fun a ha b hb hab => ?_⟩
    have := (h.queued ha).1
    have := List.mem_singleton.1 hb
    omega
  recorded := by
    intro k e' he' hs
    simp only [Dict.get?_set] at he'
    split at he'
    · cases he'
      rw [he] at hs
      cases hs
    · exact h.recorded he' hs
  covered := by
    intro c hc
    refine (h.covered c hc).imp_right ?_
    rintro ⟨k, e', he', hs⟩
    have := h.fresh he'
    exact ⟨k, e', by rwa [Dict.get?_set_other _ _ (by omega)], hs⟩

/-- A flag of a pending child changes that is not read here. -/
theorem flag (h : Tracked isOpen σ) (k : Nat) {f : ChildExec → ChildExec}
    (hf : ∀ e, (f e).started = e.started ∧ (f e).entry = e.entry) :
    Tracked isOpen { σ with pending := σ.pending.modify k f } := by
  have hget : ∀ {j e'}, (σ.pending.modify k f).get? j = some e' →
      ∃ e, σ.pending.get? j = some e ∧ e'.started = e.started ∧ e'.entry = e.entry := by
    intro j e' he'
    rw [Dict.get?_modify] at he'
    split at he'
    · obtain ⟨e, he, rfl⟩ := Option.map_eq_some_iff.1 he'
      exact ⟨e, he, hf e⟩
    · exact ⟨e', he', rfl, rfl⟩
  refine ⟨fun he' => ?_, fun hk => ⟨(h.queued hk).1, fun e' he' => ?_⟩, h.distinct, fun he' hs => ?_, fun c hc => ?_⟩
  · obtain ⟨e, he, -⟩ := hget he'
    exact h.fresh he
  · obtain ⟨e, he, hst, -⟩ := hget he'
    rw [hst]
    exact (h.queued hk).2 e he
  · obtain ⟨e, he, hst, hen⟩ := hget he'
    rw [hen]
    exact h.recorded he (hst ▸ hs)
  · refine (h.covered c hc).imp_right ?_
    rintro ⟨j, e, he, hs, hen⟩
    by_cases hj : j = k
    · subst hj
      exact ⟨j, f e, by simp [Dict.get?_modify_self, he], (hf e).1.trans hs, (hf e).2.trans hen⟩
    · exact ⟨j, e, by rwa [Dict.get?_modify_other _ _ hj], hs, hen⟩

/-- A child that is exempt, or was never started, is let go of. -/
theorem pop (h : Tracked isOpen σ) {k : Nat}
    (hk : ∀ e, σ.pending.get? k = some e → e.started = true → Exempt isOpen e.entry) :
    Tracked isOpen { σ with pending := σ.pending.pop k } where
  fresh := fun he => h.fresh (Dict.get?_pop_some.1 he).2
  queued := fun hj => ⟨(h.queued hj).1, fun e he => (h.queued hj).2 e (Dict.get?_pop_some.1 he).2⟩
  distinct := h.distinct
  recorded := fun he => h.recorded (Dict.get?_pop_some.1 he).2
  covered := by
    intro c hc
    rcases h.covered c hc with hx | ⟨j, e, he, hs, rfl⟩
    · exact .inl hx
    · by_cases hj : j = k
      · subst hj
        exact .inl (hk e he hs)
      · exact .inr ⟨j, e, Dict.get?_pop_some.2 ⟨hj, he⟩, hs, rfl⟩

/-- The next start to come comes to nothing before it is recorded. -/
theorem unqueue (h : Tracked isOpen σ) {k : Nat} {ks : List Nat} (hq : σ.queued = k :: ks) :
    Tracked isOpen { σ with queued := ks } where
  fresh := h.fresh
  queued := fun hj => h.queued (by rw [hq]; exact .tail _ hj)
  distinct := by
    have := h.distinct
    rw [hq] at this
    exact this.tail
  recorded := h.recorded
  covered := h.covered

/-- An entry that is exempt is recorded. -/
theorem record (h : Tracked isOpen σ) {c : String × ParentClosePolicy} (hc : Exempt isOpen c) :
    Tracked isOpen { σ with registry := σ.registry ++ [c] } where
  fresh := h.fresh
  queued := h.queued
  distinct := h.distinct
  recorded := fun he hs => List.mem_append_left _ (h.recorded he hs)
  covered := by
    intro c' hc'
    rcases List.mem_append.1 hc' with hc' | hc'
    · exact h.covered c' hc'
    · obtain rfl := List.mem_singleton.1 hc'
      exact .inl hc

/-- A child is recorded, and started. -/
theorem start (h : Tracked isOpen σ) {k : Nat} {e : ChildExec} {ks : List Nat} (hq : σ.queued = k :: ks)
    (he : σ.pending.get? k = some e) :
    Tracked isOpen { σ with
      pending := σ.pending.modify k fun e => { e with started := true }
      registry := σ.registry ++ [e.entry]
      queued := ks } := by
  have hne : ∀ j ∈ ks, j ≠ k := by
    have := h.distinct
    rw [hq, List.nodup_cons] at this
    exact fun j hj he => this.1 (he ▸ hj)
  refine ⟨fun he' => ?_, fun hj => ⟨(h.queued (by rw [hq]; exact .tail _ hj)).1, fun e' he' => ?_⟩,
    (h.unqueue hq).distinct, fun {j e'} he' hs => ?_, fun c hc => ?_⟩
  · simp only [Dict.get?_modify] at he'
    split at he'
    · next hj => rw [hj]; exact h.fresh he
    · exact h.fresh he'
  · simp only [Dict.get?_modify_other _ _ (hne _ hj)] at he'
    exact (h.queued (by rw [hq]; exact .tail _ hj)).2 e' he'
  · simp only [Dict.get?_modify] at he'
    split at he'
    · next hj =>
      rw [hj, he, Option.map_some, Option.some.injEq] at he'
      subst he'
      exact List.mem_append_right _ (.head _)
    · exact List.mem_append_left _ (h.recorded he' hs)
  · rcases List.mem_append.1 hc with hc | hc
    · refine (h.covered c hc).imp_right ?_
      rintro ⟨j, e', he', hs, hen⟩
      have hj : j ≠ k := by
        rintro rfl
        have := (h.queued (by rw [hq]; exact .head _)).2 e' he'
        rw [hs] at this
        cases this
      exact ⟨j, e', by rwa [Dict.get?_modify_other _ _ hj], hs, hen⟩
    · obtain rfl := List.mem_singleton.1 hc
      exact .inr ⟨k, { e with started := true }, by simp [Dict.get?_modify_self, he], rfl, rfl⟩

end Tracked

theorem childSeqs_append (cs ds : List Command) : childSeqs (cs ++ ds) = childSeqs cs ++ childSeqs ds := by
  simp [childSeqs]

namespace Interp

variable {x : Execution} {env : Env} {s s' : Interp} {isOpen : String → Bool}

theorem offspring_of_rest (h : s'.rest = s.rest) : s'.offspring = s.offspring :=
  congrArg (fun r => (⟨r.childSeq, r.pendingChildren, r.childrenRegistry, childSeqs r.commands⟩ : Offspring)) h

theorem Ends.offspring (h : Ends s s') : s'.offspring = s.offspring := by
  obtain ⟨_, _, _, _, rfl⟩ := h
  rfl

/-- A command is queued that starts no child. -/
theorem offspring_queue {c : Command} (hc : childSeqs [c] = [])
    (h : s'.offspring = { s.offspring with queued := childSeqs (s.commands ++ [c]) }) : s'.offspring = s.offspring := by
  rw [h, childSeqs_append, hc, List.append_nil]
  rfl

/-! ## Drains -/

theorem tracked_startChildWorkflow (h : Tracked isOpen s.offspring) (c : StartChild) :
    Tracked isOpen (M.state (s.startChildWorkflow x c)).offspring := by
  unfold startChildWorkflow assertNotReadOnly
  split
  · exact h
  · simp only [ok_bind]
    split
    · exact h.skip
    · simp only [M.state, offspring, childSeqs_append]
      exact Tracked.ask h rfl

theorem tracked_cancelChildResult (h : Tracked isOpen s.offspring) (k : Nat) :
    Tracked isOpen (s.cancelChildResult k).offspring := by
  unfold cancelChildResult
  split
  · exact h
  · split
    · exact h
    · exact h.flag k (f := fun c => { c with resultCancelled := true }) fun _ => ⟨rfl, rfl⟩

/-- No other request touches a child. -/
theorem offspring_userOp {o : UserOp} (hs : ∀ c, o ≠ .startChildWorkflow c) (ha : ∀ k, o ≠ .cancelChildStart k)
    (hr : ∀ k, o ≠ .cancelChildResult k) : (M.state (o.run x s)).offspring = s.offspring := by
  have hcancel : ∀ k, (s.cancelActivityFuture k).offspring = s.offspring := by
    intro k
    unfold cancelActivityFuture
    split
    · rfl
    · split <;> rfl
  cases o <;> simp only [UserOp.run]
  case startActivity a =>
    unfold startActivity assertNotReadOnly attemptStepFor
    split
    · rfl
    · simp only [ok_bind]
      split
      · split
        · simp only [ok_bind]
          split
          · rfl
          · split
            · rfl
            · exact offspring_queue rfl rfl
        · rfl
      · split
        · rfl
        · split
          · rfl
          · exact offspring_queue rfl rfl
  case requestActivityCancel k =>
    unfold requestActivityCancel
    split
    · rfl
    · split
      · simp only
        split <;> rfl
      · exact hcancel k
  case cancelActivityAwait k => exact hcancel k
  case createTimer d =>
    unfold createTimer assertNotReadOnly
    split
    · rfl
    · simp only [ok_bind]
      split
      · rfl
      · exact offspring_queue rfl rfl
  case cancelTimer k => unfold cancelTimer; split <;> rfl
  case startChildWorkflow c => exact absurd rfl (hs c)
  case cancelChildStart k => exact absurd rfl (ha k)
  case cancelChildResult k => exact absurd rfl (hr k)
  case sendToWorkflow t e c =>
    unfold sendToWorkflow assertNotReadOnly
    split
    · rfl
    · exact offspring_queue rfl rfl
  case cancelSend k => rfl
  case upsertMemo u =>
    unfold upsertMemo assertNotReadOnly
    split
    · rfl
    · exact offspring_queue rfl rfl
  case patched i =>
    unfold patch assertNotReadOnly
    split
    · rfl
    · simp only [ok_bind]
      split
      · rfl
      · split
        · exact offspring_queue rfl rfl
        · rfl
  case setHandler c n d =>
    unfold setHandler assertNotReadOnly
    split
    · rfl
    · simp only [ok_bind]
      split
      · rfl
      · rfl
      · split
        · rfl
        · split <;> rfl
  case startHandler t => exact (ends_startHandler x s t).offspring
  case handlerEnds t e => exact (ends_handlerEnds x s t e).offspring
  case primaryEnds e => exact (ends_primaryEnds x s e).offspring
  case abort e => exact (ends_recordWorkflowError x s e).offspring

theorem tracked_drain (h : Tracked isOpen s.offspring) (code : Code) :
    Tracked isOpen (s.drainOutsideTask x code).offspring := by
  refine Code.drain_induct (P := fun s => Tracked isOpen s.offspring) (fun {s} o hs => ?_) code h
  by_cases hstart : ∃ c, o = .startChildWorkflow c
  · obtain ⟨c, rfl⟩ := hstart
    exact tracked_startChildWorkflow hs c
  · by_cases hflag : ∃ k, o = .cancelChildStart k
    · obtain ⟨k, rfl⟩ := hflag
      exact hs.flag k (f := fun c => { c with startCancelled := true }) fun _ => ⟨rfl, rfl⟩
    · by_cases hres : ∃ k, o = .cancelChildResult k
      · obtain ⟨k, rfl⟩ := hres
        exact tracked_cancelChildResult hs k
      · rw [offspring_userOp (fun c hc => hstart ⟨c, hc⟩) (fun k hk => hflag ⟨k, hk⟩) fun k hk => hres ⟨k, hk⟩]
        exact hs

/-! ## The sweep of what was cancelled -/

/-- One child in the sweep: it is let go of, if it is there. -/
theorem offspring_sweepChild (env : Env) (s : Interp) (k : Nat) :
    (s.sweepChild env k).offspring = s.offspring ∨
      (s.sweepChild env k).offspring = { s.offspring with pending := s.pendingChildren.pop k } := by
  unfold sweepChild
  split
  · exact .inl rfl
  · simp only
    split
    · exact .inr (offspring_of_rest (traces_sendCancel env _ _).rest)
    · exact .inr rfl

/-- A sweep of children that are exempt. -/
theorem tracked_sweepChildren (env : Env) {ks : List Nat} (h : Tracked isOpen s.offspring)
    (hk : ∀ k ∈ ks, ∀ e, s.pendingChildren.get? k = some e → e.started = true → Exempt isOpen e.entry) :
    Tracked isOpen (ks.foldl (sweepChild env) s).offspring ∧
      (ks.foldl (sweepChild env) s).offspring.queued = s.offspring.queued ∧
      ∀ j e, (ks.foldl (sweepChild env) s).pendingChildren.get? j = some e → s.pendingChildren.get? j = some e := by
  induction ks generalizing s with
  | nil => exact ⟨h, rfl, fun _ _ he => he⟩
  | cons k ks ih =>
    have hget : ∀ j e, (s.sweepChild env k).pendingChildren.get? j = some e → s.pendingChildren.get? j = some e := by
      intro j e he
      rcases offspring_sweepChild env s k with hs | hs
      · rwa [show (s.sweepChild env k).pendingChildren = s.pendingChildren from congrArg Offspring.pending hs] at he
      · rw [show (s.sweepChild env k).pendingChildren = s.pendingChildren.pop k from congrArg Offspring.pending hs] at he
        exact (Dict.get?_pop_some.1 he).2
    have hstep : Tracked isOpen (s.sweepChild env k).offspring := by
      rcases offspring_sweepChild env s k with hs | hs
      · rwa [hs]
      · rw [hs]
        exact h.pop (hk k (.head _))
    have hqueued : (s.sweepChild env k).offspring.queued = s.offspring.queued := by
      rcases offspring_sweepChild env s k with hs | hs <;> rw [hs]
    obtain ⟨h', hq, hg⟩ := ih hstep fun j hj e he => hk j (.tail _ hj) e (hget j e he)
    exact ⟨h', hq.trans hqueued, fun j e he => hget j e (hg j e he)⟩

/-! ## Messages -/

theorem offspring_applySignal {e : SignalEnvelope} (hs : s.applySignal x env e = .ok s') : s'.offspring = s.offspring := by
  unfold applySignal at hs
  split at hs
  · cases hs; rfl
  · split at hs
    · next r hr =>
      cases hs
      rw [decodeMessageArgs_error hr]
      exact offspring_of_rest (traces_awaitIf s _).rest
    · next args s₁ hr =>
      simp only [bind_eq_ok, Except.ok.injEq] at hs
      obtain ⟨⟨hd, s₂⟩, h₂, rfl⟩ := hs
      exact (offspring_of_rest ((traces_decodeMessageArgs hr).trans (traces_decodeMessageHeaders h₂)).rest :
        s₂.offspring = s.offspring)

theorem offspring_flush {b : Bool} (hs : s.flushPendingHandlerSignals x env = .ok (b, s')) :
    s'.offspring = s.offspring := by
  unfold flushPendingHandlerSignals at hs
  split at hs
  · cases hs; rfl
  · simp only [bind_eq_ok, Except.ok.injEq, Prod.mk.injEq] at hs
    obtain ⟨s₁, h₁, -, rfl⟩ := hs
    exact foldlM_induct (P := fun _ s' => s'.offspring = s.offspring) h₁ rfl fun hP hf => (offspring_applySignal hf).trans hP

theorem offspring_applyUpdate {e : UpdateEnvelope} {args : List Value} (hs : s.applyUpdate x env e args = .ok s') :
    s'.offspring = s.offspring := by
  unfold applyUpdate at hs
  split at hs
  · cases hs; rfl
  · simp only at hs
    split at hs
    · cases hs; rfl
    · simp only [bind_eq_ok] at hs
      obtain ⟨⟨hd, s₁⟩, h₁, hs⟩ := hs
      have hrest : s₁.offspring = s.offspring := (offspring_of_rest (traces_decodeMessageHeaders h₁).rest).trans rfl
      split at hs <;> cases hs <;> split <;> exact hrest

theorem offspring_applyQuery {e : QueryEnvelope} {args : List Value} :
    (s.applyQuery x env e args).offspring = s.offspring := by
  unfold applyQuery
  simp only
  split
  · rfl
  · split
    · next r hr =>
      refine Eq.trans ?_ (offspring_of_rest (traces_awaitIf s (!e.headers.isEmpty)).rest)
      rw [← decodeMessageHeaders_error hr]
      rfl
    · next hd s₁ hr =>
      have hrest : s₁.offspring = s.offspring := offspring_of_rest (traces_decodeMessageHeaders hr).rest
      split
      · split <;> exact hrest
      · exact hrest

/-- No message touches a child. -/
theorem offspring_inbox {m : Option Message} (hs : s.deliverInbox x env m = .ok s') : s'.offspring = s.offspring := by
  unfold deliverInbox at hs
  split at hs
  · cases hs; rfl
  · next m =>
    have hadv : (s.advanceTime m.sentAt).offspring = s.offspring := offspring_of_rest (rest_advanceTime s _)
    simp only at hs
    split at hs
    · exact (offspring_applySignal hs).trans hadv
    · simp only [bind_eq_ok] at hs
      obtain ⟨⟨args, s₁⟩, h₁, hs⟩ := hs
      exact (offspring_applyUpdate hs).trans ((offspring_of_rest (traces_decodeMessageArgs h₁).rest).trans hadv)
    · simp only [bind_eq_ok, Except.ok.injEq] at hs
      obtain ⟨⟨args, s₁⟩, h₁, rfl⟩ := hs
      exact offspring_applyQuery.trans ((offspring_of_rest (traces_decodeMessageArgs h₁).rest).trans hadv)
    · exact (offspring_of_rest (rest_activityResult hs)).trans hadv
    · exact (offspring_of_rest (rest_activityHeartbeat hs)).trans hadv
    · cases hs
      unfold applyCancel
      split
      · exact hadv
      · simp only
        split <;> exact hadv
    · cases hs; exact hadv
    · cases hs; exact hadv
    · cases hs; exact hadv

/-! ## Starts -/

theorem encodeCall_ok {args : List Value} {hs : Headers} {ps : List Payload} {hs' : Headers}
    (ha : encodeValues env.converter args = .ok ps) (hh : encodeHeaders env.converter hs = .ok hs') :
    ∃ r, s.encodeCall env args hs = .ok r := by
  simp only [encodeCall, ha, hh, lift_ok, ok_bind]
  exact ⟨_, rfl⟩

theorem offspring_recordChild (x : Execution) (env : Env) (s : Interp) (e : ChildExec) :
    (s.recordChild x env e).offspring = { s.offspring with registry := s.childrenRegistry ++ [e.entry] } := by
  have hqueue : ((s.step (.childExists e.childId)).resolveOwnQueue x env).offspring = s.offspring :=
    (offspring_of_rest (rest_resolveOwnQueue x env _)).trans rfl
  unfold recordChild
  generalize (s.step (.childExists e.childId)).resolveOwnQueue x env = s₁ at hqueue
  rw [← hqueue, show s.childrenRegistry = s₁.childrenRegistry from (congrArg Offspring.registry hqueue).symm]
  dsimp only
  split <;> rfl

theorem startFails_of_error {e : ChildExec} {r : Raised} (h : s.encodeCall env e.args e.headers = .error r) :
    env.startFails e := by
  by_contra hf
  simp only [Env.startFails, not_or, not_exists] at hf
  obtain ⟨ha, hh, -⟩ := hf
  cases hva : encodeValues env.converter e.args with
  | error r => exact ha r hva
  | ok ps =>
    cases hvh : encodeHeaders env.converter e.headers with
    | error r => exact hh r hvh
    | ok hs =>
      obtain ⟨r', hr'⟩ := encodeCall_ok (s := s) hva hvh
      rw [h] at hr'
      cases hr'

/-- What the enqueue of a child leaves: nothing; the entry, and it fails; the
entry. -/
theorem offspring_enqueueChild (x : Execution) (env : Env) (s : Interp) (e : ChildExec) :
    (∃ f s', s.enqueueChild x env e = .error (f, s') ∧ s'.offspring = s.offspring) ∨
    (∃ f s', s.enqueueChild x env e = .error (f, s') ∧ env.startFails e ∧
      s'.offspring = { s.offspring with registry := s.childrenRegistry ++ [e.entry] }) ∨
    ∃ s', s.enqueueChild x env e = .ok s' ∧
      s'.offspring = { s.offspring with registry := s.childrenRegistry ++ [e.entry] } := by
  by_cases hr : env.workflowRegistered e.typeName = true
  · cases ht : env.childIdTaken e.childId with
    | true =>
      unfold enqueueChild
      rw [if_neg (by simp [hr]), if_pos ht]
      exact .inl ⟨_, _, rfl, rfl⟩
    | false =>
      have hrec := offspring_recordChild x env s e
      rw [enqueueChild_recorded hr ht]
      cases hc : (s.recordChild x env e).encodeCall env e.args e.headers with
      | error r =>
        exact .inr (.inl ⟨_, _, rfl, startFails_of_error hc, (offspring_of_rest (traces_encodeCall_error hc).rest).trans hrec⟩)
      | ok r =>
        obtain ⟨r, s₁⟩ := r
        have henc := (offspring_of_rest (traces_encodeCall hc).rest).trans hrec
        dsimp only
        cases hq : env.enqueueFails e.childId with
        | some m => exact .inr (.inl ⟨_, _, rfl, .inr (.inr (by rw [hq]; rfl)), henc⟩)
        | none => exact .inr (.inr ⟨_, rfl, henc⟩)
  · unfold enqueueChild
    rw [if_pos hr]
    exact .inl ⟨_, _, rfl, rfl⟩

/-- How far a start gets: nowhere; recorded, and it fails; recorded, and
started. -/
theorem offspring_startChild (x : Execution) (env : Env) (s : Interp) (k : Nat) (e : ChildExec) :
    (s.startChild x env k e).offspring = { s.offspring with pending := s.pendingChildren.pop k } ∨
    (env.startFails e ∧ (s.startChild x env k e).offspring =
      { s.offspring with pending := s.pendingChildren.pop k, registry := s.childrenRegistry ++ [e.entry] }) ∨
    (s.startChild x env k e).offspring =
      { s.offspring with
        pending := s.pendingChildren.modify k fun e => { e with started := true }
        registry := s.childrenRegistry ++ [e.entry] } := by
  have hpop : ∀ {f s'}, s.enqueueChild x env e = .error (f, s') →
      (s.startChild x env k e).offspring = { s'.offspring with pending := s'.offspring.pending.pop k } := by
    intro f s' h
    simp only [startChild, h]
    split <;> rfl
  rcases offspring_enqueueChild x env s e with ⟨f, s', h, hs⟩ | ⟨f, s', h, hf, hs⟩ | ⟨s', h, hs⟩
  · exact .inl (by rw [hpop h, hs]; rfl)
  · exact .inr (.inl ⟨hf, by rw [hpop h, hs]; rfl⟩)
  · have hmod : (s.startChild x env k e).offspring =
        { s'.offspring with pending := s'.offspring.pending.modify k fun e => { e with started := true } } := by
      simp only [startChild, h]
      split <;> rfl
    exact .inr (.inr (by rw [hmod, hs]; rfl))

/-- A start, of the next child to come. -/
theorem tracked_startChild {k : Nat} {ks : List Nat} {e : ChildExec}
    (h : Tracked isOpen { s.offspring with queued := k :: ks }) (he : s.pendingChildren.get? k = some e)
    (hf : env.startFails e → Exempt isOpen e.entry) :
    Tracked isOpen { (s.startChild x env k e).offspring with queued := ks } := by
  have hns : e.started = false := (h.queued (.head _)).2 e he
  have hpop := (h.unqueue rfl).pop (k := k) fun e' he' hs => by
    rw [show s.offspring.pending = s.pendingChildren from rfl, he, Option.some.injEq] at he'
    rw [← he', hns] at hs
    cases hs
  rcases offspring_startChild x env s k e with hs | ⟨hfail, hs⟩ | hs
  · rw [hs]
    exact hpop
  · rw [hs]
    exact hpop.record (hf hfail)
  · rw [hs]
    exact h.start rfl he

/-! ## Commands -/

theorem pendingChildren_startChild {k j : Nat} {e e' : ChildExec} (hj : j ≠ k)
    (he : (s.startChild x env k e).pendingChildren.get? j = some e') : s.pendingChildren.get? j = some e' := by
  have hpend := he
  rcases offspring_startChild x env s k e with hs | ⟨-, hs⟩ | hs
  all_goals rw [show (s.startChild x env k e).pendingChildren = _ from congrArg Offspring.pending hs] at hpend
  · exact (Dict.get?_pop_some.1 hpend).2
  · exact (Dict.get?_pop_some.1 hpend).2
  · rwa [Dict.get?_modify_other _ _ hj] at hpend

/-- The commands of a drain. -/
theorem tracked_processCommands (cs : List Command) : ∀ {b : Bool} {s : Interp} {r : Bool × Interp},
    s.offspring.queued = [] → Tracked isOpen { s.offspring with queued := childSeqs cs } →
    (∀ k ∈ childSeqs cs, ∀ e, s.pendingChildren.get? k = some e → env.startFails e → Exempt isOpen e.entry) →
    processCommands x env cs b s = .ok r → Tracked isOpen r.2.offspring := by
  induction cs with
  | nil =>
    intro b s r hq h _ hr
    cases hr
    exact cast (congrArg (fun q => Tracked isOpen { s.offspring with queued := q }) hq.symm) h
  | cons c cs ih =>
    intro b s r hq h hf hr
    simp only [processCommands, bind_eq_ok] at hr
    obtain ⟨⟨p, s₁⟩, hc, hr⟩ := hr
    by_cases hchild : ∃ k, c = .child k
    · obtain ⟨k, rfl⟩ := hchild
      have hseqs : childSeqs (.child k :: cs) = k :: childSeqs cs := rfl
      rw [hseqs] at h hf
      simp only [processCommand, bind_eq_ok] at hc
      obtain ⟨s₂, h₂, hc⟩ := hc
      have hlook := offspring_of_rest (traces_checkReplayHorizon h₂).rest
      split at hc
      · exact absurd hc raise_ne_ok
      · next e he =>
        cases hc
        have hpend : s₂.pendingChildren = s.pendingChildren := congrArg Offspring.pending hlook
        rw [← hlook] at h
        have hdist := h.distinct
        rw [List.nodup_cons] at hdist
        refine ih ?_ (tracked_startChild h he (hf k (.head _) e (by rwa [← hpend]))) (fun j hj e' he' => ?_) hr
        · rw [← hq, ← hlook]
          rcases offspring_startChild x env s₂ k e with hs | ⟨-, hs⟩ | hs <;> rw [hs]
        · refine hf j (.tail _ hj) e' ?_
          rw [← hpend]
          refine pendingChildren_startChild (fun hjk => ?_) he'
          subst hjk
          exact hdist.1 hj
    · have hrest := offspring_of_rest (rest_command (fun k hk => hchild ⟨k, hk⟩) hc)
      have hseqs : childSeqs (c :: cs) = childSeqs cs := by
        cases c with
        | child k => exact absurd ⟨k, rfl⟩ hchild
        | timer k | activity k | send k | attributes | patch k => rfl
      rw [hseqs] at h hf
      refine ih (by rw [hrest, hq]) (by rw [hrest]; exact h) (fun k hk e he => hf k hk e ?_) hr
      rwa [show s₁.pendingChildren = s.pendingChildren from congrArg Offspring.pending hrest] at he

/-! ## Passes and rounds -/

/-- After its drain, a pass lets go of no child that is open at the close:
where an awaiter was cancelled the child is exempt, and so is one whose start
fails. -/
structure Spares (isOpen : String → Bool) (env : Env) (s : Interp) : Prop where
  swept : ∀ k ∈ s.cancelledChildSeqs, ∀ e, s.pendingChildren.get? k = some e → e.started = true → Exempt isOpen e.entry
  failed : ∀ k ∈ childSeqs s.commands, ∀ e, s.pendingChildren.get? k = some e → env.startFails e → Exempt isOpen e.entry

/-- A round delivers no result of a child that is open at the close. -/
def ResultsFinal (isOpen : String → Bool) (done : Done) (s : Interp) : Prop :=
  ∀ w ∈ s.waiters, w.kind = .child → (done w.task).isSome = true →
    ∀ e, s.pendingChildren.get? w.seq = some e → Exempt isOpen e.entry

theorem tracked_sweepCancellations (h : Tracked isOpen s.offspring) (hk : s.Spares isOpen env) :
    Tracked isOpen (s.sweepCancellations env).offspring ∧
      (s.sweepCancellations env).offspring.queued = s.offspring.queued ∧
      ∀ j e, (s.sweepCancellations env).pendingChildren.get? j = some e → s.pendingChildren.get? j = some e := by
  have hrest := rest_sweepActivities env s.queuedWaitCancelSeqs
    (s.queuedWaitCancelSeqs.foldl (sweepWait env) { s with queuedWaitCancelSeqs := [] }).cancelledActivitySeqs s
  unfold sweepCancellations
  simp only
  generalize List.foldl (sweepActivity env) _ _ = s₁ at hrest ⊢
  have hoff := offspring_of_rest hrest
  have hpend : s₁.pendingChildren = s.pendingChildren := congrArg Rest.pendingChildren hrest
  have hcanc : s₁.cancelledChildSeqs = s.cancelledChildSeqs := congrArg Rest.cancelledChildSeqs hrest
  have hclean : Tracked isOpen ({ s₁ with cancelledChildSeqs := [] } : Interp).offspring := by
    rw [← hoff] at h
    exact h
  have hspared : ∀ k ∈ s₁.cancelledChildSeqs, ∀ e, s₁.pendingChildren.get? k = some e → e.started = true →
      Exempt isOpen e.entry := by
    rw [hcanc, hpend]
    exact hk.swept
  obtain ⟨ht, hq, hg⟩ := tracked_sweepChildren env hclean hspared
  refine ⟨ht, hq.trans (congrArg Offspring.queued hoff), fun j e he => ?_⟩
  rw [← hpend]
  exact hg j e he

theorem offspring_settle {d : Bool} {t : Turn} (hs : s.settle x env d = .ok (t, s')) : s'.offspring = s.offspring := by
  unfold settle at hs
  split at hs
  · cases hs; rfl
  · simp only [bind_eq_ok] at hs
    obtain ⟨s₁, h₁, hs⟩ := hs
    have hflush : s₁.offspring = s.offspring := (offspring_of_rest (traces_flushOutbox h₁).rest).trans rfl
    split at hs
    · cases hs; exact hflush
    · cases hs
      refine Eq.trans ?_ hflush
      unfold ensureInboxWaiter
      split <;> rfl

/-- **A pass** that spares what is open keeps the books. -/
theorem tracked_pass {d : Bool} {code : Code} {t : Turn} (h : Tracked isOpen s.offspring)
    (hk : (s.drainOutsideTask x code).Spares isOpen env) (hp : s.pass x env d code = .ok (t, s')) :
    Tracked isOpen s'.offspring := by
  have hdrain := tracked_drain (x := x) h code
  unfold pass at hp
  generalize s.drainOutsideTask x code = s₀ at hk hp hdrain
  obtain ⟨hsweep, hqueued, hget⟩ := tracked_sweepCancellations hdrain hk
  simp only [afterDrain, bind_eq_ok] at hp
  obtain ⟨⟨flushed, s₁⟩, h₁, ⟨progressed, s₂⟩, h₂, hp⟩ := hp
  have hflush := offspring_flush h₁
  have hcmds : Tracked isOpen s₂.offspring := by
    refine tracked_processCommands s₁.commands (s := { s₁ with commands := [] }) rfl ?_ (fun k hmem e he hf => ?_) h₂
    · rw [← hflush] at hsweep
      exact hsweep
    · have hseqs : childSeqs s₁.commands = childSeqs s₀.commands := (congrArg Offspring.queued hflush).trans hqueued
      have hpend : s₁.pendingChildren = (s₀.sweepCancellations env).pendingChildren := congrArg Offspring.pending hflush
      rw [hseqs] at hmem
      refine hk.failed k hmem e (hget k e ?_) hf
      rwa [← hpend]
  dsimp only at hp
  split at hp
  · cases hp; exact hcmds
  · rw [offspring_settle hp]
    exact hcmds

/-- The result of a child: it is let go of. -/
theorem offspring_childEvent {k : Nat} {r : TaskResult} (hs : s.deliverChildEvent env k r = .ok s') :
    s'.offspring = s.offspring ∨ s'.offspring = { s.offspring with pending := s.pendingChildren.pop k } := by
  have hpop : ∀ t, ({ s with pendingChildren := s.pendingChildren.pop k }.advanceTime t).offspring =
      { s.offspring with pending := s.pendingChildren.pop k } :=
    fun t => (offspring_of_rest (rest_advanceTime _ t)).trans rfl
  unfold deliverChildEvent at hs
  split at hs
  · cases hs; exact .inl rfl
  · dsimp only at hs
    split at hs
    · cases hs; exact .inr rfl
    · split at hs
      · cases hs; exact .inr (hpop _)
      · simp only [bind_eq_ok, Except.ok.injEq] at hs
        obtain ⟨_, -, rfl⟩ := hs
        exact .inr (hpop _)
      · exact absurd hs raise_ne_ok
      · exact absurd hs raise_ne_ok

/-- One event. -/
theorem offspring_event {w : Waiter} {r : TaskResult} (hs : s.deliverEvent x env w r = .ok s') :
    s'.offspring = s.offspring ∨
      w.kind = .child ∧ s'.offspring = { s.offspring with pending := s.pendingChildren.pop w.seq } := by
  by_cases hc : w.kind = .child
  · simp only [deliverEvent, hc] at hs
    exact (offspring_childEvent hs).imp_right fun h => ⟨hc, h⟩
  · by_cases hi : w.kind = .inbox
    · simp only [deliverEvent, hi] at hs
      split at hs
      · exact .inl (offspring_inbox hs)
      · exact absurd hs raise_ne_ok
      · exact absurd hs raise_ne_ok
    · exact .inl (offspring_of_rest (rest_event hi hc hs))

/-- **A round** whose results are final keeps the books. -/
theorem tracked_round {done : Done} (h : Tracked isOpen s.offspring) (hf : s.ResultsFinal isOpen done)
    (hs : s.round x env done = .ok s') : Tracked isOpen s'.offspring := by
  have key : ∀ (ws : List Waiter) (s₁ : Interp), (∀ w ∈ ws, w ∈ s.waiters) → Tracked isOpen s₁.offspring →
      (∀ j e, s₁.pendingChildren.get? j = some e → s.pendingChildren.get? j = some e) →
      ws.foldlM (deliverWaiter x env done) s₁ = .ok s' → Tracked isOpen s'.offspring := by
    intro ws
    induction ws with
    | nil => intro s₁ _ h₁ _ hs; cases hs; exact h₁
    | cons w ws ih =>
      intro s₁ hws h₁ hget hs
      rw [List.foldlM_cons, bind_eq_ok] at hs
      obtain ⟨s₂, h₂, hs⟩ := hs
      have hws' : ∀ v ∈ ws, v ∈ s.waiters := fun v hv => hws v (.tail _ hv)
      cases hr : done w.task with
      | none =>
        simp only [deliverWaiter, hr] at h₂
        cases h₂
        exact ih _ hws' h₁ hget hs
      | some r =>
        simp only [deliverWaiter, hr, bind_eq_ok] at h₂
        obtain ⟨s₃, h₃, h₂⟩ := h₂
        have hdrop := offspring_of_rest (rest_removeWaiter h₃)
        have hpend : s₃.pendingChildren = s₁.pendingChildren := congrArg Offspring.pending hdrop
        rcases offspring_event h₂ with hev | ⟨hk, hev⟩
        · refine ih s₂ hws' (by rw [hev, hdrop]; exact h₁) (fun j e he => hget j e ?_) hs
          rwa [show s₂.pendingChildren = s₃.pendingChildren from congrArg Offspring.pending hev, hpend] at he
        · refine ih s₂ hws' ?_ (fun j e he => hget j e ?_) hs
          · rw [hev, hdrop, hpend]
            exact h₁.pop fun e he _ => hf w (hws w (.head _)) hk (by rw [hr]; rfl) e (hget _ _ he)
          · rw [show s₂.pendingChildren = _ from congrArg Offspring.pending hev, hpend] at he
            exact (Dict.get?_pop_some.1 he).2
  exact key s.waiters (s.step .asyncioWait) (fun w hw => hw) h (fun j e he => he) hs

end Interp

/-! ## Runs -/

/-- The runs in which no child is let go of that is open at the close. -/
inductive Attended (x : Execution) (isOpen : String → Bool) : Config → Prop
  | start (startTime : Seconds) (memo : Dict String Value) : Attended x isOpen ⟨.draining, .start startTime memo⟩
  | pass {s s' : Interp} {t : Turn} (env : Env) (deadlinePassed : Bool) (code : Code) (h : Attended x isOpen ⟨.draining, s⟩)
      (hk : (s.drainOutsideTask x code).Spares isOpen env) (hs : s.pass x env deadlinePassed code = .ok (t, s')) :
      Attended x isOpen ⟨t.phase, s'⟩
  | round {s s' : Interp} (env : Env) (done : Done) (h : Attended x isOpen ⟨.waiting, s⟩) (hf : s.Fits done)
      (hr : s.ResultsFinal isOpen done) (hs : s.round x env done = .ok s') : Attended x isOpen ⟨.draining, s'⟩

namespace Attended

variable {x : Execution} {isOpen : String → Bool} {c : Config}

theorem reachable (h : Attended x isOpen c) : Reachable x c := by
  induction h with
  | start t m => exact .start t m
  | pass env d code _ _ hs ih => exact ih.step (.pass env d code hs)
  | round env done _ hf _ hs ih => exact ih.step (.round env done hf hs)

/-- Every recorded child that is open at the close is pending at every moment
of the run. -/
theorem tracked (h : Attended x isOpen c) : Tracked isOpen c.interp.offspring := by
  induction h with
  | start t m =>
    exact ⟨(fun h => by cases h), (fun h => by cases h), List.nodup_nil, (fun h => by cases h), (fun c h => by cases h)⟩
  | pass env d code _ hk hs ih => exact Interp.tracked_pass ih hk hs
  | round env done _ _ hr hs ih => exact Interp.tracked_round ih hr hs

end Attended

/-! ## The close -/

/-- What a recorded child is owed at the close. -/
def Due (env : Env) (c : String × ParentClosePolicy) (o : Op) : Prop :=
  match c.2 with
  | .abandon => False
  | .requestCancel => o = env.cancelOp (env.currentRun c.1)
  | .terminate | .unspecified => Owed env c.1 o

/-- The operation cancels a run, or asks one to cancel itself. -/
def Op.cancels : Op → Bool
  | .cancelWorkflow _ | .send _ (.cancel _ _) => true
  | _ => false

theorem Op.cancels_touches {o : Op} (h : o.cancels = true) : o.touches = true := by
  unfold cancels at h
  split at h
  · rfl
  · rfl
  · cases h

/-- The way a run ends that closes it for good. -/
def Outcome.ends : Outcome → Bool
  | .ok _ | .cancelled _ | .failure _ => true
  | .continueAsNew _ | .taskFailure _ => false

/-- The recorded trees are finite, and no deeper than the walk goes: they stay
within a list of ids shorter than its fuel. -/
def Env.Covers (env : Env) (roots : List (String × ParentClosePolicy)) : Prop :=
  ∃ reach : List String, (∀ c ∈ roots, c.1 ∈ reach) ∧ (∀ i ∈ reach, ∀ c ∈ env.childrenOf i, c.1 ∈ reach) ∧
    reach.length < env.generations

namespace Interp

variable {x : Execution} {env : Env} {s s' : Interp}

/-- The operations of the `finally` block. -/
def closeOps (x : Execution) (env : Env) (s : Interp) : List Op :=
  ((s.closeRun x env).trace.drop s.trace.length).filterMap fun
    | .step o => some o
    | _ => none

/-- Each recorded child that is open at the close gets what it is owed, and
no run is cancelled or asked to cancel itself but as is owed. -/
structure PoliciesApplied (x : Execution) (env : Env) (s : Interp) : Prop where
  complete : ∀ c ∈ s.childrenRegistry, env.open c.1 = true → ∀ o, Due env c o → o ∈ s.closeOps x env
  sound : ∀ o ∈ s.closeOps x env, o.cancels = true → ∃ c ∈ s.childrenRegistry, Due env c o

/-- The policy of one child, applied. -/
def applyClosePolicy (env : Env) (s : Interp) (e : ChildExec) : Interp :=
  match e.parentClosePolicy with
  | .abandon => s
  | .requestCancel => s.sendCancel env e.childId
  | .terminate | .unspecified => (terminateChildTree env env.generations e.childId ([], s)).2

theorem sweepChildrenOnClose_eq (env : Env) (s : Interp) : s.sweepChildrenOnClose env =
    s.pendingChildren.values.foldl (fun s e => if e.started = true then s.applyClosePolicy env e else s) s := by
  unfold sweepChildrenOnClose
  congr 1
  funext s e
  cases e.started <;> rfl

/-- One child gets what it is owed, and nothing else. -/
theorem applyClosePolicy_due {reach : List String} (hreach : ∀ i ∈ reach, ∀ c ∈ env.childrenOf i, c.1 ∈ reach)
    (hfuel : reach.length < env.generations) (s : Interp) {e : ChildExec} (he : e.childId ∈ reach) :
    ∃ l, Performs s (s.applyClosePolicy env e) l ∧ (∀ o, Due env e.entry o → o ∈ l) ∧
      ∀ o ∈ l, o.cancels = true → Due env e.entry o := by
  have htree : ∃ l, Performs s (terminateChildTree env env.generations e.childId ([], s)).2 l ∧
      (∀ o, Owed env e.childId o → o ∈ l) ∧ ∀ o ∈ l, o.cancels = true → Owed env e.childId o := by
    obtain ⟨l, hp, hall⟩ := terminateChildTree_performs hreach he hfuel s
    obtain ⟨l', hw⟩ : ∃ l', Walked env _ _ _ _ _ l' := terminateChildTree_owed env.generations e.childId [] s
    obtain rfl := hp.unique hw.performs
    exact ⟨l, hp, hall, fun o ho hc => hw.owed o ho (Op.cancels_touches hc)⟩
  unfold applyClosePolicy Due ChildExec.entry
  cases e.parentClosePolicy with
  | abandon => exact ⟨[], .refl s, fun o h => h.elim, fun o ho => absurd ho List.not_mem_nil⟩
  | requestCancel =>
    refine ⟨_, (performs_resolveCurrentRun env s e.childId).step _, fun o ho => ?_, fun o ho hc => ?_⟩
    · rw [show o = _ from ho]
      exact List.mem_append_right _ (.head _)
    · rcases List.mem_append.1 ho with ho | ho
      · have := Op.cancels_touches hc
        rw [probeOps_touches ho] at this
        cases this
      · exact List.mem_singleton.1 ho
  | terminate | unspecified => exact htree

/-- The sweep: every started child of the list gets what it is owed. -/
theorem sweep_due {reach : List String} (hreach : ∀ i ∈ reach, ∀ c ∈ env.childrenOf i, c.1 ∈ reach)
    (hfuel : reach.length < env.generations) (es : List ChildExec)
    (hes : ∀ e ∈ es, e.started = true → e.childId ∈ reach) (s : Interp) :
    ∃ l, Performs s (es.foldl (fun s e => if e.started = true then s.applyClosePolicy env e else s) s) l ∧
      (∀ e ∈ es, e.started = true → ∀ o, Due env e.entry o → o ∈ l) ∧
      ∀ o ∈ l, o.cancels = true → ∃ e ∈ es, e.started = true ∧ Due env e.entry o := by
  induction es generalizing s with
  | nil => exact ⟨[], .refl s, fun e h => absurd h List.not_mem_nil, fun o h => absurd h List.not_mem_nil⟩
  | cons e es ih =>
    have hes' : ∀ e ∈ es, e.started = true → e.childId ∈ reach := fun e h => hes e (.tail _ h)
    rw [List.foldl_cons]
    by_cases hst : e.started = true
    · rw [if_pos hst]
      obtain ⟨l₁, hp₁, hall₁, hcan₁⟩ := applyClosePolicy_due hreach hfuel s (hes e (.head _) hst)
      obtain ⟨l₂, hp₂, hall₂, hcan₂⟩ := ih hes' (s.applyClosePolicy env e)
      refine ⟨l₁ ++ l₂, hp₁.trans hp₂, fun e' he' hs' o ho => ?_, fun o ho hc => ?_⟩
      · rcases List.mem_cons.1 he' with rfl | he'
        · exact List.mem_append_left _ (hall₁ o ho)
        · exact List.mem_append_right _ (hall₂ e' he' hs' o ho)
      · rcases List.mem_append.1 ho with ho | ho
        · exact ⟨e, .head _, hst, hcan₁ o ho hc⟩
        · obtain ⟨e', he', h⟩ := hcan₂ o ho hc
          exact ⟨e', .tail _ he', h⟩
    · rw [if_neg hst]
      obtain ⟨l, hp, hall, hcan⟩ := ih hes' s
      refine ⟨l, hp, fun e' he' hs' => ?_, fun o ho hc => ?_⟩
      · rcases List.mem_cons.1 he' with rfl | he'
        · exact absurd hs' hst
        · exact hall e' he' hs'
      · obtain ⟨e', he', h⟩ := hcan o ho hc
        exact ⟨e', .tail _ he', h⟩

/-! ### The rest of the block -/

/-- Stretches of the block that cancel nothing. -/
def CancelsNothing (s s' : Interp) : Prop :=
  ∃ l : List (Coop.Act Op), s'.trace = s.trace ++ l ∧ ∀ o, .step o ∈ l → o.cancels = false

theorem CancelsNothing.refl (s : Interp) : CancelsNothing s s :=
  ⟨[], (List.append_nil _).symm, fun _ h => absurd h List.not_mem_nil⟩

theorem CancelsNothing.trans {s₁ : Interp} (h : CancelsNothing s s₁) (h' : CancelsNothing s₁ s') : CancelsNothing s s' := by
  obtain ⟨l, hl, ho⟩ := h
  obtain ⟨l', hl', ho'⟩ := h'
  refine ⟨l ++ l', by rw [hl', hl, List.append_assoc], fun o hm => ?_⟩
  rcases List.mem_append.1 hm with hm | hm
  · exact ho o hm
  · exact ho' o hm

theorem CancelsNothing.step {o : Op} (h : o.cancels = false) (s : Interp) : CancelsNothing s (s.step o) :=
  ⟨[.step o], rfl, fun o' hm => by cases List.mem_singleton.1 hm; exact h⟩

theorem CancelsNothing.foldl {α : Type} {f : Interp → α → Interp} (h : ∀ s a, CancelsNothing s (f s a)) (l : List α)
    (s : Interp) : CancelsNothing s (l.foldl f s) := by
  induction l generalizing s with
  | nil => exact .refl s
  | cons a l ih => exact (h s a).trans (ih _)

theorem cancelsNothing_cancelInFlight (env : Env) (s : Interp) : CancelsNothing s (s.cancelInFlight env) := by
  refine CancelsNothing.foldl (fun s e => ?_) _ s
  split
  · exact (CancelsNothing.step rfl s).trans (.step rfl _)
  · exact .refl s

theorem cancelsNothing_tearDown (s : Interp) : CancelsNothing s s.tearDown := by
  unfold tearDown awaitIf
  split
  · exact ⟨[.await], rfl, fun o h => by cases List.mem_singleton.1 h⟩
  · exact ⟨[], (List.append_nil _).symm, fun o h => absurd h List.not_mem_nil⟩

theorem cancelsNothing_failAbandonedUpdates (s : Interp) : CancelsNothing s s.failAbandonedUpdates := by
  refine CancelsNothing.foldl (fun s h => ?_) _ s
  split
  · exact .step rfl s
  · exact .refl s

theorem cancelsNothing_announceGone (s : Interp) : CancelsNothing s s.announceGone := by
  refine CancelsNothing.foldl (fun s e => ?_) _ s
  split
  · exact .step rfl s
  · exact .refl s

theorem pendingChildren_cancelInFlight (env : Env) (s : Interp) :
    (s.cancelInFlight env).pendingChildren = s.pendingChildren :=
  congrArg Rest.pendingChildren (traces_cancelInFlight env s).rest

/-- The operations of a block, around those of its sweep. -/
theorem closeOps_eq (env : Env) (hm : x.closes s.outcome = true) : ∃ s₁, s₁.pendingChildren = s.pendingChildren ∧
    ∀ l, Performs s₁ (s₁.sweepChildrenOnClose env) l → ∃ pre post, s.closeOps x env = pre ++ l ++ post ∧
      (∀ o ∈ pre, o.cancels = false) ∧ ∀ o ∈ post, o.cancels = false := by
  refine ⟨s.cancelInFlight env, pendingChildren_cancelInFlight env s, fun l hl => ?_⟩
  obtain ⟨t₁, ht₁, ho₁⟩ := cancelsNothing_cancelInFlight env s
  obtain ⟨t₂, ht₂, ho₂⟩ := ((cancelsNothing_tearDown ((s.cancelInFlight env).sweepChildrenOnClose env)).trans
    (cancelsNothing_failAbandonedUpdates _)).trans (cancelsNothing_announceGone _)
  have hops : ∀ {t : List (Coop.Act Op)} {o : Op}, o ∈ t.filterMap (fun
      | .step o => some o
      | _ => none) → .step o ∈ t := by
    intro t o ho
    obtain ⟨a, ha, he⟩ := List.mem_filterMap.1 ho
    split at he
    · cases he; exact ha
    · cases he
  refine ⟨t₁.filterMap _, t₂.filterMap _, ?_, fun o ho => ho₁ o (hops ho), fun o ho => ho₂ o (hops ho)⟩
  have htrace : (s.closeRun x env).trace = s.trace ++ (t₁ ++ l.map .step ++ t₂) := by
    simp only [closeRun, hm, if_true]
    rw [ht₂, show ((s.cancelInFlight env).sweepChildrenOnClose env).trace = _ from congrArg Interp.trace hl, ht₁]
    simp
  rw [closeOps, htrace, List.drop_left, List.filterMap_append, List.filterMap_append, List.filterMap_map]
  congr 2
  exact List.filterMap_some

end Interp

open Interp

/-- In a calm world no start fails. -/
theorem spares_calm {isOpen : String → Bool} {s : Interp} (h : s.cancelledChildSeqs = []) : s.Spares isOpen .calm where
  swept := fun k hk => by rw [h] at hk; cases hk
  failed := by
    rintro k hk e he (⟨r, hr⟩ | ⟨r, hr⟩ | hr)
    · cases hr
    · unfold encodeHeaders at hr
      split at hr <;> cases hr
    · cases hr

/-- A pass in a calm world that cancels no awaiter. -/
theorem Attended.drain {x : Execution} {isOpen : String → Bool} {c : Config} (h : Attended x isOpen c)
    (hc : c.phase = .draining) (os : List UserOp) {p : Phase} (hp : (c.next x (.drain os)).phase = p)
    (hn : ∀ e, p ≠ .closing (some e)) (hk : (c.interp.drainOutsideTask x (.asks os)).cancelledChildSeqs = []) :
    Attended x isOpen (c.next x (.drain os)) := by
  obtain ⟨p', s⟩ := c
  cases hc
  simp only [Input.drain, Config.next] at hp ⊢
  cases hs : s.pass x .calm false (.asks os) with
  | ok r => exact .pass .calm false (.asks os) h (spares_calm hk) hs
  | error r =>
    rw [hs] at hp
    exact absurd hp.symm (hn _)

/-- A child is started, and the run returns. -/
def unawaitedChild : List Input :=
  [.drain [.startChildWorkflow { typeName := "Child" }], .drain [.primaryEnds (.returned .none)]]

/-- A child is started, the task that awaits its result is cancelled, and the
run returns. -/
def cancelledAwaiter : List Input :=
  [.drain [.startChildWorkflow { typeName := "Child", cancellationType := .abandon }],
    .drain [.cancelChildResult 1, .primaryEnds (.returned .none)]]

/-- The world at the close: every workflow is open, and has recorded no
child. -/
def Env.childless : Env := { Env.calm with generations := 2 }

theorem covers_childless (id : String) (p : ParentClosePolicy) : Env.childless.Covers [(id, p)] :=
  ⟨[id], by simp, (fun i _ c hc => by cases hc), Nat.lt_succ_self 1⟩

/-- The operation cancels this run. -/
def Op.cancelsRun (run : String) : Op → Bool
  | .cancelWorkflow r => r = run
  | _ => false

end Dbosify
