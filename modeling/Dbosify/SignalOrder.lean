/-
The order of signals: started, buffered for want of a handler, released when
one is set, and sent on when a run continues as new.

The buffer has a list for each name, so the order across names is not kept by
a dynamic registration or a hand-over. Within a name it is: in every run, what
has arrived of a name is what was handled of it, then what is buffered, then
what the inbox still holds (`signals_in_order`).
-/
import Dbosify.UpdateProtocol
import Mathlib.Data.List.TakeWhile

namespace Py.Dict

variable {κ β : Type} [DecidableEq κ]

/-- Lists filed under the keys of their members: the members of a key are the
list filed under it. -/
theorem filter_flatten_values {d : Dict κ (List β)} {f : β → κ} (hf : ∀ e ∈ d.entries, ∀ b ∈ e.2, f b = e.1) (k : κ) :
    d.values.flatten.filter (f · = k) = (d.get? k).getD [] := by
  obtain ⟨l, hn⟩ := d
  change (l.map (·.2)).flatten.filter (f · = k) = ((l.find? (·.1 = k)).map (·.2)).getD []
  induction l with
  | nil => rfl
  | cons e l ih =>
    rw [List.map_cons, List.nodup_cons] at hn
    have ih := ih hn.2 fun e' he' => hf e' (.tail _ he')
    rw [List.map_cons, List.flatten_cons, List.filter_append]
    by_cases hk : e.1 = k
    · have hrest : (l.map (·.2)).flatten.filter (f · = k) = [] := by
        rw [ih, Option.getD_eq_iff, Option.map_eq_none_iff, List.find?_eq_none]
        refine .inr ⟨fun e' he' hk' => hn.1 (List.mem_map.2 ⟨e', he', ?_⟩), rfl⟩
        rw [hk]
        exact of_decide_eq_true hk'
      rw [hrest, List.append_nil, List.find?_cons_of_pos (by simpa using hk)]
      refine List.filter_eq_self.2 fun b hb => decide_eq_true ?_
      rw [hf e (.head _) b hb, hk]
    · have hhead : e.2.filter (f · = k) = [] := by
        refine List.filter_eq_nil_iff.2 fun b hb hbk => hk ?_
        rw [← hf e (.head _) b hb]
        exact of_decide_eq_true hbk
      rw [hhead, List.nil_append, ih, List.find?_cons_of_neg (by simpa using hk)]

end Py.Dict

namespace Dbosify

open Py (Dict)

/-! ## Signals by name -/

/-- The signals of a name, in order. -/
def named (n : String) (l : List SignalEnvelope) : List SignalEnvelope := l.filter (·.name = n)

@[simp] theorem named_nil (n : String) : named n [] = [] := rfl

@[simp] theorem named_append (n : String) (l l' : List SignalEnvelope) : named n (l ++ l') = named n l ++ named n l' :=
  List.filter_append _ _

def Message.signal? : Message → Option SignalEnvelope
  | signal e => some e
  | _ => none

/-- The signals among messages. -/
def signalsOf (ms : List Message) : List SignalEnvelope := ms.filterMap Message.signal?

@[simp] theorem signalsOf_nil : signalsOf [] = [] := rfl

@[simp] theorem signalsOf_append (ms ms' : List Message) : signalsOf (ms ++ ms') = signalsOf ms ++ signalsOf ms' :=
  List.filterMap_append

theorem signalsOf_signals (l : List SignalEnvelope) : signalsOf (l.map .signal) = l := by
  rw [signalsOf, List.filterMap_map]
  exact List.filterMap_some

/-! ## What becomes of a signal -/

/-- What `_apply_signal` does with a signal. -/
inductive Fate
  /-- It has no handler. -/
  | buffered
  /-- Its arguments do not decode. -/
  | dropped
  | started (h : Handler)
  /-- Its headers do not decode. -/
  | raised

namespace Fate

def isBuffered : Fate → Bool
  | buffered => true
  | _ => false

def isRaised : Fate → Bool
  | raised => true
  | _ => false

/-- It is done with. -/
def isHandled : Fate → Bool
  | dropped | started _ => true
  | buffered | raised => false

def handler? : Fate → Option Handler
  | started h => some h
  | _ => none

end Fate

namespace Interp

/-- What becomes of a signal that is applied now. -/
def fate (x : Execution) (env : Env) (s : Interp) (e : SignalEnvelope) : Fate :=
  match s.resolveSignal x e.name with
  | none => .buffered
  | some defn =>
    match s.decodeMessageArgs env (some defn) e.name e.args with
    | .error _ => .dropped
    | .ok (args, s) =>
      match s.decodeMessageHeaders env e.headers with
      | .error _ => .raised
      | .ok (headers, _) => .started { kind := .signal, name := e.name, args, headers }

/-- The signals buffered under a name. -/
def bufferedFor (s : Interp) (n : String) : List SignalEnvelope := (s.bufferedSignals.get? n).getD []

/-- The handlers of signals in flight, in the order they were started. -/
def liveSignals (s : Interp) : List Handler := s.inflightHandlers.values.filter (·.kind = .signal)

variable {x : Execution} {env : Env} {s s₁ s' : Interp}

theorem decodeMessageArgs_fst (env : Env) (s s' : Interp) (d : Option HandlerDefn) (n : String) (args : List Payload) :
    (s'.decodeMessageArgs env d n args).toOption.map (·.1) = (s.decodeMessageArgs env d n args).toOption.map (·.1) := by
  unfold decodeMessageArgs
  dsimp only
  split
  · cases decodeValues env.converter args (some (List.replicate args.length Hint.rawValue)) <;> rfl
  · cases decodeValues env.converter args (d.bind (·.argTypes)) <;> rfl

theorem decodeMessageHeaders_fst (env : Env) (s s' : Interp) (hs : Headers) :
    (s'.decodeMessageHeaders env hs).toOption.map (·.1) = (s.decodeMessageHeaders env hs).toOption.map (·.1) := by
  unfold decodeMessageHeaders
  dsimp only
  cases decodeHeaders env.converter hs <;> rfl

/-- The handlers that are set decide. -/
theorem fate_congr (h : s'.signalOverrides = s.signalOverrides) (e : SignalEnvelope) :
    s'.fate x env e = s.fate x env e := by
  have hres : s'.resolveSignal x e.name = s.resolveSignal x e.name := by rw [resolveSignal, h, resolveSignal]
  unfold fate
  rw [hres]
  cases s.resolveSignal x e.name with
  | none => rfl
  | some defn =>
    have hargs := decodeMessageArgs_fst env s s' (some defn) e.name e.args
    dsimp only
    cases ha : s.decodeMessageArgs env (some defn) e.name e.args with
    | error r =>
      cases ha' : s'.decodeMessageArgs env (some defn) e.name e.args with
      | error r' => rfl
      | ok a' => rw [ha, ha'] at hargs; cases hargs
    | ok a =>
      cases ha' : s'.decodeMessageArgs env (some defn) e.name e.args with
      | error r' => rw [ha, ha'] at hargs; cases hargs
      | ok a' =>
        rw [ha, ha'] at hargs
        obtain ⟨args, t⟩ := a
        obtain ⟨args', t'⟩ := a'
        cases hargs
        have hheaders := decodeMessageHeaders_fst env t t' e.headers
        dsimp only
        cases hd : t.decodeMessageHeaders env e.headers with
        | error r =>
          cases hd' : t'.decodeMessageHeaders env e.headers with
          | error r' => rfl
          | ok b' => rw [hd, hd'] at hheaders; cases hheaders
        | ok b =>
          cases hd' : t'.decodeMessageHeaders env e.headers with
          | error r' => rw [hd, hd'] at hheaders; cases hheaders
          | ok b' =>
            rw [hd, hd'] at hheaders
            obtain ⟨headers, u⟩ := b
            obtain ⟨headers', u'⟩ := b'
            cases hheaders
            rfl

/-- A signal is buffered exactly when its name has no handler. -/
theorem isBuffered_fate (e : SignalEnvelope) : (s.fate x env e).isBuffered = (s.resolveSignal x e.name).isNone := by
  unfold fate
  split
  · next h => rw [h]; rfl
  · next h =>
    rw [h]
    split
    · rfl
    · split <;> rfl

/-! ## Signals, one after another -/

theorem bufferedFor_congr (h : s'.signals = s.signals) (n : String) : s'.bufferedFor n = s.bufferedFor n := by
  have hb : s'.bufferedSignals = s.bufferedSignals := congrArg Signals.buffered h
  rw [bufferedFor, hb, bufferedFor]

theorem liveSignals_congr (h : s'.inflightHandlers.entries = s.inflightHandlers.entries) : s'.liveSignals = s.liveSignals := by
  rw [liveSignals, Dict.values, h, liveSignals, Dict.values]

theorem Silent.fresh (h : Silent s s') (hf : s.HandlersFresh) : s'.HandlersFresh := by
  intro e he
  rw [h.fields.2.1] at he
  exact (hf e he).trans_le h.2

/-- The signals `l` have been applied, and each had the fate it has in the
state before. -/
structure Hears (x : Execution) (env : Env) (l : List SignalEnvelope) (s s' : Interp) : Prop where
  overrides : s'.signalOverrides = s.signalOverrides
  flushing : s'.pendingHandlerFlush = s.pendingHandlerFlush
  buffers : ∀ n, s'.bufferedFor n = s.bufferedFor n ++ named n (l.filter fun e => (s.fate x env e).isBuffered)
  passed : ∀ e ∈ l, (s.fate x env e).isRaised = false
  fresh : s.HandlersFresh → s'.HandlersFresh
  live : s.HandlersFresh → s'.liveSignals = s.liveSignals ++ l.filterMap fun e => (s.fate x env e).handler?

namespace Hears

variable {l l' : List SignalEnvelope}

/-- No signal has been applied. -/
theorem of_signals (h : s'.signals = s.signals) (hlive : s'.liveSignals = s.liveSignals)
    (hf : s.HandlersFresh → s'.HandlersFresh) : Hears x env [] s s' where
  overrides := congrArg Signals.overrides h
  flushing := congrArg Signals.flushing h
  buffers n := by rw [bufferedFor_congr h, List.filter_nil, named_nil, List.append_nil]
  passed _ he := by cases he
  fresh := hf
  live _ := by rw [hlive, List.filterMap_nil, List.append_nil]

theorem of_quiet (h : Quiet s s') : Hears x env [] s s' :=
  .of_signals h.signals (liveSignals_congr h.fields.2.1) h.silent.fresh

theorem refl (s : Interp) : Hears x env [] s s := .of_quiet (.refl s)

theorem trans (h : Hears x env l s s₁) (h' : Hears x env l' s₁ s') : Hears x env (l ++ l') s s' := by
  have hfate : ∀ e, s₁.fate x env e = s.fate x env e := fate_congr h.overrides
  refine ⟨h'.overrides.trans h.overrides, h'.flushing.trans h.flushing, fun n => ?_, fun e he => ?_,
    fun hf => h'.fresh (h.fresh hf), fun hf => ?_⟩
  · rw [h'.buffers, h.buffers, List.filter_append, named_append, List.append_assoc]
    simp only [hfate]
  · rcases List.mem_append.1 he with he | he
    · exact h.passed e he
    · rw [← hfate]
      exact h'.passed e he
  · rw [h'.live (h.fresh hf), h.live hf, List.filterMap_append, List.append_assoc]
    simp only [hfate]

/-- Nothing happens to signals first. -/
theorem after (hq : Quiet s s₁) (h : Hears x env l s₁ s') : Hears x env l s s' := (Hears.of_quiet hq).trans h

end Hears

theorem HandlersFresh.liveSignals_spawn (h : s.HandlersFresh) (hd : Handler) :
    (s.spawnHandler hd).liveSignals = s.liveSignals ++ if hd.kind = .signal then [hd] else [] := by
  rw [liveSignals, Dict.values, h.entries_spawn, List.map_append, List.filter_append, liveSignals, Dict.values]
  by_cases hk : hd.kind = .signal <;> simp [hk]

/-- `_apply_signal` does what the fate says. -/
theorem hears_applySignal (x : Execution) (env : Env) (s : Interp) (e : SignalEnvelope) : (match s.applySignal x env e with
    | .ok s' => Hears x env [e] s s'
    | .error r => (s.fate x env e).isRaised = true ∧ Quiet s r.state) := by
  have hfate : s.fate x env e = s.fate x env e := rfl
  conv at hfate => rhs; unfold fate
  unfold applySignal
  cases hres : s.resolveSignal x e.name with
  | none =>
    rw [hres] at hfate
    have hfate : s.fate x env e = .buffered := hfate
    refine ⟨rfl, rfl, fun n => ?_, fun e' he' => ?_, fun hf => hf, fun _ => ?_⟩
    · rw [List.filter_cons, hfate, bufferedFor, Dict.get?_set]
      by_cases hn : e.name = n
      · subst hn
        simp [named, Fate.isBuffered, bufferedFor]
      · simp [named, Fate.isBuffered, bufferedFor, hn, Ne.symm hn]
    · rw [List.mem_singleton.1 he', hfate]
      rfl
    · simp [hfate, Fate.handler?, liveSignals]
  | some defn =>
    rw [hres] at hfate
    dsimp only at hfate ⊢
    have hargs : Along Quiet _ _ (s.decodeMessageArgs env (some defn) e.name e.args) := along_decodeMessageArgs
    cases ha : s.decodeMessageArgs env (some defn) e.name e.args with
    | error r =>
      rw [ha] at hfate
      have hfate : s.fate x env e = .dropped := hfate
      have hq : Hears x env [] s r.state := .of_quiet (hargs.of_error ha)
      exact { hq with
        buffers := fun n => by simp [hq.buffers n, hfate, Fate.isBuffered]
        passed := fun e' he' => by rw [List.mem_singleton.1 he', hfate]; rfl
        live := fun hf => by simp [hq.live hf, hfate, Fate.handler?] }
    | ok a =>
      obtain ⟨args, s₁⟩ := a
      rw [ha] at hfate
      dsimp only at hfate ⊢
      have hq₁ := hargs.of_ok ha
      have hheaders : Along Quiet _ _ (s₁.decodeMessageHeaders env e.headers) := along_decodeMessageHeaders
      cases hd : s₁.decodeMessageHeaders env e.headers with
      | error r =>
        rw [hd] at hfate
        exact ⟨by rw [hfate]; rfl, hq₁.trans (hheaders.of_error hd)⟩
      | ok b =>
        obtain ⟨headers, s₂⟩ := b
        rw [hd] at hfate
        dsimp only at hfate
        have hq : Hears x env [] s s₂ := .of_quiet (hq₁.trans (hheaders.of_ok hd))
        exact { hq with
          buffers := fun n => by
            have hb : (s₂.spawnHandler { kind := .signal, name := e.name, args, headers }).bufferedFor n = s₂.bufferedFor n := rfl
            simp [hb, hq.buffers n, hfate, Fate.isBuffered]
          passed := fun e' he' => by rw [List.mem_singleton.1 he', hfate]; rfl
          fresh := fun hf => (hq.fresh hf).spawn _
          live := fun hf => by simp [(hq.fresh hf).liveSignals_spawn, hq.live hf, hfate, Fate.handler?] }

/-- Signals are applied up to the first one whose headers do not decode. -/
theorem hears_applySignals (x : Execution) (env : Env) (l : List SignalEnvelope) : ∀ s : Interp, (match l.foldlM (applySignal x env) s with
    | .ok s' => Hears x env l s s'
    | .error r => Hears x env (l.takeWhile fun e => !(s.fate x env e).isRaised) s r.state) := by
  induction l with
  | nil => exact fun s => .refl s
  | cons e l ih =>
    intro s
    have happ := hears_applySignal x env s e
    rw [List.foldlM_cons]
    cases hs : s.applySignal x env e with
    | error r =>
      rw [hs] at happ
      obtain ⟨hraised, hq⟩ := happ
      have htake : (e :: l).takeWhile (fun e => !(s.fate x env e).isRaised) = [] := by
        rw [List.takeWhile_cons, hraised]
        rfl
      rw [htake]
      exact .of_quiet hq
    | ok s₁ =>
      rw [hs] at happ
      rw [ok_bind]
      have hfate : ∀ e, s₁.fate x env e = s.fate x env e := fate_congr happ.overrides
      have ih := ih s₁
      cases hl : l.foldlM (applySignal x env) s₁ with
      | ok s₂ =>
        rw [hl] at ih
        exact happ.trans ih
      | error r =>
        rw [hl] at ih
        have htake : (e :: l).takeWhile (fun e => !(s.fate x env e).isRaised) =
            [e] ++ l.takeWhile fun e => !(s₁.fate x env e).isRaised := by
          rw [List.takeWhile_cons, happ.passed e (.head _)]
          simp only [hfate]
          rfl
        rw [htake]
        exact happ.trans ih

/-! ## Rounds -/

theorem hears_applyUpdate {e : UpdateEnvelope} {args : List Value} (h : s.applyUpdate x env e args = .ok s') :
    Hears x env [] s s' := by
  unfold applyUpdate at h
  split at h
  · cases h
    exact .refl s
  · have hseen : Hears x env [] s { s with seenUpdateIds := s.seenUpdateIds ++ [e.updateId] } := .of_signals rfl rfl id
    dsimp only at h
    generalize ({ s with seenUpdateIds := s.seenUpdateIds ++ [e.updateId] } : Interp) = s₁ at hseen h
    split at h
    · cases h
      exact hseen.trans (.of_signals rfl rfl id)
    · next defn _ =>
      simp only [bind_eq_ok] at h
      obtain ⟨⟨headers, s₂⟩, hd, h⟩ := h
      have hq : Quiet s₁ (if defn.hasValidator then s₂.step (.validateUpdate e.updateId) else s₂) := by
        have hheaders : Along Quiet _ _ (s₁.decodeMessageHeaders env e.headers) := along_decodeMessageHeaders
        refine (hheaders.of_ok hd).trans ?_
        split
        · exact .step rfl _
        · exact .refl _
      have h₂ := hseen.trans (.of_quiet hq)
      dsimp only at h
      generalize (if defn.hasValidator then s₂.step (.validateUpdate e.updateId) else s₂) = s₃ at h₂ h
      split at h
      · cases h
        exact h₂.trans (.of_signals rfl rfl id)
      · cases h
        -- The handler of an update is not one of a signal.
        refine h₂.trans ⟨rfl, rfl, fun n => ?_, (fun _ he => by cases he), fun hf => HandlersFresh.spawn hf _, fun hf => ?_⟩
        · rw [List.filter_nil, named_nil, List.append_nil]
          rfl
        · rw [HandlersFresh.liveSignals_spawn (s := s₃.reply _ _) hf, if_neg (fun hk => by cases hk), List.filterMap_nil]
          rfl

theorem hears_applyQuery (e : QueryEnvelope) (args : List Value) : Hears x env [] s (s.applyQuery x env e args) := by
  have hreply : ∀ {s₁ : Interp} (r : Reply), Hears x env [] s s₁ → Hears x env [] s (s₁.reply (.queryResult e.requestId) r) :=
    fun r h => h.trans (.of_signals rfl rfl id)
  unfold applyQuery
  dsimp only
  split
  · exact hreply _ (.refl s)
  · have hheaders : Along Quiet _ _ (s.decodeMessageHeaders env e.headers) := along_decodeMessageHeaders
    split
    · next r he => exact hreply _ (.of_quiet (hheaders.of_error he))
    · next a s₁ he =>
      have h₁ : Hears x env [] s s₁ := .of_quiet (hheaders.of_ok he)
      split
      · split <;> exact hreply _ h₁
      · exact hreply _ h₁

/-- A message applies the signal it is, if it is one. -/
theorem hears_inbox {m : Option Message} (h : s.deliverInbox x env m = .ok s') :
    Hears x env (m.bind Message.signal?).toList s s' := by
  unfold deliverInbox at h
  cases m with
  | none =>
    cases h
    exact .refl s
  | some m =>
    have hadv : Quiet s _ := frame_advanceTime s m.sentAt
    cases m with
    | signal e =>
      have happ := hears_applySignal x env (s.advanceTime e.sentAt) e
      dsimp only at h
      rw [show (Message.signal e).sentAt = e.sentAt from rfl] at h
      rw [h] at happ
      exact happ.after hadv
    | update e =>
      simp only [bind_eq_ok] at h
      obtain ⟨⟨args, s₁⟩, ha, h⟩ := h
      have hargs : Quiet (s.advanceTime e.sentAt) s₁ := along_decodeMessageArgs.of_ok ha
      exact ((hears_applyUpdate h).after hargs).after hadv
    | query e =>
      simp only [bind_eq_ok, Except.ok.injEq] at h
      obtain ⟨⟨args, s₁⟩, ha, rfl⟩ := h
      have hargs : Quiet (s.advanceTime e.sentAt) s₁ := along_decodeMessageArgs.of_ok ha
      exact ((hears_applyQuery e args).after hargs).after hadv
    | activityResult i c t => exact .of_quiet (hadv.trans ((along_activityResult fun _ _ _ => trivial).of_ok h))
    | activityHeartbeat i ds t => exact .of_quiet (hadv.trans ((along_activityHeartbeat fun _ _ _ => trivial).of_ok h))
    | cancel reason t =>
      cases h
      refine .after hadv (.of_quiet ?_)
      unfold applyCancel
      split
      · exact .refl _
      · dsimp only
        split <;> exact ⟨rfl, le_rfl⟩
    | rehydrateStop t =>
      cases h
      exact .of_quiet (hadv.trans ⟨rfl, le_rfl⟩)
    | unknown k t =>
      cases h
      exact .of_quiet hadv
    | malformed =>
      cases h
      exact .refl s

/-- The message a round delivers through a waiter. -/
def reportedBy (done : Done) (w : Waiter) : Option Message :=
  if w.kind = .inbox then
    match done w.task with
    | some (.message m) => m
    | _ => none
  else none

theorem hears_deliverWaiter {done : Done} {w : Waiter} (h : s.deliverWaiter x env done w = .ok s') :
    Hears x env ((reportedBy done w).bind Message.signal?).toList s s' := by
  have hother : ∀ {s₂ : Interp}, w.kind ≠ .inbox → Quiet s s₂ →
      Hears x env ((reportedBy done w).bind Message.signal?).toList s s₂ := by
    intro s₂ hk hq
    rw [reportedBy, if_neg hk]
    exact .of_quiet hq
  unfold deliverWaiter at h
  split at h
  · next hd =>
    cases h
    rw [reportedBy, hd]
    split <;> exact .refl s
  · next r hd =>
    simp only [bind_eq_ok] at h
    obtain ⟨s₁, hr, h⟩ := h
    have hq : Quiet s s₁ := (along_removeWaiter w).of_ok hr
    unfold deliverEvent at h
    split at h
    · next hk =>
      rw [reportedBy, if_pos hk, hd]
      split at h
      · exact (hears_inbox h).after hq
      · exact absurd h raise_ne_ok
      · exact absurd h raise_ne_ok
    · next hk =>
      cases h
      exact hother (by simp [hk]) (hq.trans (frame_deliverTimer s₁ _))
    · next hk => exact hother (by simp [hk]) (hq.trans ((along_activityEvent trivial).of_ok h))
    · next hk => exact hother (by simp [hk]) (hq.trans ((along_queuedActivityEvent trivial).of_ok h))
    · next hk => exact hother (by simp [hk]) (hq.trans ((along_parkTimeout trivial).of_ok h))
    · next hk => exact hother (by simp [hk]) (hq.trans ((along_heartbeatCheck trivial).of_ok h))
    · next hk => exact hother (by simp [hk]) (hq.trans (along_childEvent.of_ok h))

/-- **A round applies the signals it delivers**, in order. -/
theorem hears_round {done : Done} (h : s.round x env done = .ok s') : Hears x env (signalsOf (s.reported done)) s s' := by
  have key : ∀ (l : List Waiter) {s₁ : Interp}, l.foldlM (deliverWaiter x env done) s₁ = .ok s' →
      Hears x env (signalsOf (l.filterMap (reportedBy done))) s₁ s' := by
    intro l
    induction l with
    | nil =>
      intro s₁ h
      cases h
      exact .refl _
    | cons w l ih =>
      intro s₁ h
      rw [List.foldlM_cons, bind_eq_ok] at h
      obtain ⟨s₂, h₁, h₂⟩ := h
      have hl : signalsOf ((w :: l).filterMap (reportedBy done)) =
          ((reportedBy done w).bind Message.signal?).toList ++ signalsOf (l.filterMap (reportedBy done)) := by
        rw [List.filterMap_cons]
        cases reportedBy done w with
        | none => rfl
        | some m =>
          rw [signalsOf, List.filterMap_cons, Option.bind_some]
          cases m.signal? <;> rfl
      rw [hl]
      exact (hears_deliverWaiter h₁).trans (ih h₂)
  exact (key s.waiters h).after (.step rfl s)

/-! ## Passes -/

/-- The released signals a pass applies: up to one whose headers do not
decode. -/
def taken (x : Execution) (env : Env) (s : Interp) : List SignalEnvelope :=
  s.pendingHandlerFlush.takeWhile fun e => !(s.fate x env e).isRaised

/-- The released signals a pass does not come to. -/
def cutOff (x : Execution) (env : Env) (s : Interp) : List SignalEnvelope :=
  s.pendingHandlerFlush.dropWhile fun e => !(s.fate x env e).isRaised

theorem hears_flushSignals (x : Execution) (env : Env) (s : Interp) : (match s.flushPendingHandlerSignals x env with
    | .ok a => Hears x env (s.taken x env) { s with pendingHandlerFlush := [] } a.2 ∧ s.cutOff x env = []
    | .error r => Hears x env (s.taken x env) { s with pendingHandlerFlush := [] } r.state) := by
  have hfate : ∀ e, ({ s with pendingHandlerFlush := [] } : Interp).fate x env e = s.fate x env e := fate_congr rfl
  have happ := hears_applySignals x env s.pendingHandlerFlush { s with pendingHandlerFlush := [] }
  unfold flushPendingHandlerSignals
  by_cases hp : s.pendingHandlerFlush = []
  · rw [if_pos (by rw [hp]; rfl)]
    refine ⟨?_, by rw [cutOff, hp]; rfl⟩
    rw [taken, hp]
    refine .of_signals ?_ rfl id
    rw [signals, hp]
    rfl
  · rw [if_neg (by simpa using hp)]
    dsimp only
    cases hl : s.pendingHandlerFlush.foldlM (applySignal x env) { s with pendingHandlerFlush := [] } with
    | error r =>
      rw [hl] at happ
      simp only [hfate] at happ
      exact happ
    | ok s₁ =>
      rw [hl] at happ
      have hall : ∀ e ∈ s.pendingHandlerFlush, (!(s.fate x env e).isRaised) = true := by
        intro e he
        rw [← hfate, happ.passed e he]
        rfl
      refine ⟨?_, List.dropWhile_eq_nil_iff.2 hall⟩
      rw [taken, List.takeWhile_eq_self_iff.2 hall]
      exact happ

theorem hears_flushOutbox (x : Execution) (env : Env) (s : Interp) : (match s.flushOutbox env with
    | .ok s' => Hears x env [] s s'
    | .error r => Hears x env [] s r.state) := by
  have key : ∀ (l : List (EventKey × Reply)) {s₁ : Interp}, Hears x env [] s s₁ → (match l.foldlM (flushReply env) s₁ with
      | .ok s' => Hears x env [] s s'
      | .error r => Hears x env [] s r.state) := by
    intro l
    induction l with
    | nil => exact fun h => h
    | cons e l ih =>
      intro s₁ h
      have hemit : ∀ {s₂ : Interp} (a : Coop.Act Op), Hears x env [] s s₂ → Hears x env [] s (s₂.emit a) :=
        fun a h₂ => h₂.trans (.of_signals rfl rfl id)
      rw [List.foldlM_cons, flushReply]
      cases e.2.body with
      | inr f => exact ih (hemit _ h)
      | inl v =>
        dsimp only
        cases encodeValue env.converter v with
        | ok p => exact ih (hemit _ (hemit .await h))
        | error c => exact hemit .await h
  exact key s.outbox (.of_signals rfl rfl id)

theorem hears_settle (x : Execution) (env : Env) (s : Interp) (d : Bool) : (match s.settle x env d with
    | .ok a => Hears x env [] s a.2
    | .error r => Hears x env [] s r.state) := by
  have hout := hears_flushOutbox x env s
  have hflush : (match (do
        let s ← s.flushOutbox env
        if s.leaves x d then .ok (.close, s) else .ok (.wait, (s.ensureInboxWaiter x).suspend) : M (Turn × Interp)) with
      | .ok a => Hears x env [] s a.2
      | .error r => Hears x env [] s r.state) := by
    cases hf : s.flushOutbox env with
    | error r =>
      rw [hf] at hout
      exact hout
    | ok s₁ =>
      rw [hf] at hout
      rw [ok_bind]
      cases s₁.leaves x d with
      | true => exact hout
      | false => exact hout.trans (.of_quiet (Quiet.trans (frame_ensureInboxWaiter x s₁) (Frame.suspend _)))
  unfold settle
  cases s.outcome with
  | none => exact hflush
  | some o =>
    cases o with
    | taskFailure e => exact .refl s
    | ok | continueAsNew | cancelled | failure => exact hflush

/-- **A pass applies the signals that user code released**, in the order it
released them. -/
theorem hears_pass (x : Execution) (env : Env) (s : Interp) (d : Bool) (code : Code) : (match s.pass x env d code with
    | .ok a => Hears x env ((s.drainOutsideTask x code).taken x env)
        { s.drainOutsideTask x code with pendingHandlerFlush := [] } a.2 ∧ (s.drainOutsideTask x code).cutOff x env = []
    | .error r => Hears x env ((s.drainOutsideTask x code).taken x env)
        { s.drainOutsideTask x code with pendingHandlerFlush := [] } r.state) := by
  unfold pass
  generalize s.drainOutsideTask x code = σ
  have hsweep : Quiet σ _ := frame_sweepCancellations trivial env σ
  have hoverrides : (σ.sweepCancellations env).signalOverrides = σ.signalOverrides := congrArg Signals.overrides hsweep.signals
  have hpending : (σ.sweepCancellations env).pendingHandlerFlush = σ.pendingHandlerFlush :=
    congrArg Signals.flushing hsweep.signals
  have hfate : ∀ e, (σ.sweepCancellations env).fate x env e = σ.fate x env e := fate_congr hoverrides
  have htaken : (σ.sweepCancellations env).taken x env = σ.taken x env := by simp only [taken, hpending, hfate]
  have hcut : (σ.sweepCancellations env).cutOff x env = σ.cutOff x env := by simp only [cutOff, hpending, hfate]
  have hempty : Hears x env [] { σ with pendingHandlerFlush := [] } { σ.sweepCancellations env with pendingHandlerFlush := [] } := by
    refine .of_signals ?_ (liveSignals_congr hsweep.fields.2.1) fun hf => hsweep.silent.fresh hf
    rw [signals, signals, hoverrides]
    exact congrArg (fun b => (⟨σ.signalOverrides, b, []⟩ : Signals)) (congrArg Signals.buffered hsweep.signals)
  have hflush := hears_flushSignals x env (σ.sweepCancellations env)
  rw [htaken, hcut] at hflush
  unfold afterDrain
  dsimp only
  cases hf : (σ.sweepCancellations env).flushPendingHandlerSignals x env with
  | error r =>
    rw [hf] at hflush
    exact hempty.trans hflush
  | ok a =>
    rw [hf] at hflush
    obtain ⟨flushed, s₁⟩ := a
    have h₁ := hempty.trans hflush.1
    rw [ok_bind]
    dsimp only
    have hcommands := quietly_processCommands x env s₁.commands false { s₁ with commands := [] }
    have h₂ : Hears x env ([] ++ σ.taken x env ++ []) { σ with pendingHandlerFlush := [] } { s₁ with commands := [] } :=
      h₁.trans (.of_signals rfl rfl id)
    rw [List.append_nil] at h₂
    cases hc : processCommands x env s₁.commands false { s₁ with commands := [] } with
    | error r =>
      rw [hc] at hcommands
      simpa using h₂.trans (.of_quiet hcommands)
    | ok b =>
      rw [hc] at hcommands
      obtain ⟨progressed, s₂⟩ := b
      have h₃ := h₂.trans (.of_quiet hcommands)
      rw [ok_bind]
      dsimp only
      split
      · next a ha =>
        split at ha
        · cases ha
          exact ⟨by simpa using h₃, hflush.2⟩
        · have hsettle := hears_settle x env s₂ d
          rw [ha] at hsettle
          exact ⟨by simpa using h₃.trans hsettle, hflush.2⟩
      · next r hr =>
        split at hr
        · cases hr
        · have hsettle := hears_settle x env s₂ d
          rw [hr] at hsettle
          simpa using h₃.trans hsettle

/-! ## Registrations -/

/-- The buffer in order: what is buffered or released of a name is what waits
of it, a name that has a handler has nothing buffered, and each signal is filed
under its own name. -/
structure Orderly (x : Execution) (waiting : String → List SignalEnvelope) (s : Interp) : Prop where
  whole : ∀ n, named n s.pendingHandlerFlush ++ s.bufferedFor n = waiting n
  apart : ∀ n, named n s.pendingHandlerFlush = [] ∨ s.bufferedFor n = []
  served : ∀ n, (s.resolveSignal x n).isSome = true → s.bufferedFor n = []
  filed : ∀ n, ∀ e ∈ s.bufferedFor n, e.name = n

variable {waiting : String → List SignalEnvelope}

theorem resolveSignal_congr (h : s'.signalOverrides = s.signalOverrides) (n : String) :
    s'.resolveSignal x n = s.resolveSignal x n := by rw [resolveSignal, h, resolveSignal]

theorem Orderly.of_signals (h : s.Orderly x waiting) (hs : s'.signals = s.signals) : s'.Orderly x waiting := by
  have hover : s'.signalOverrides = s.signalOverrides := congrArg Signals.overrides hs
  have hflush : s'.pendingHandlerFlush = s.pendingHandlerFlush := congrArg Signals.flushing hs
  have hbuf := bufferedFor_congr hs
  exact ⟨fun n => by rw [hflush, hbuf, h.whole], fun n => by rw [hflush, hbuf]; exact h.apart n,
    fun n hn => by rw [hbuf]; exact h.served n (resolveSignal_congr hover n ▸ hn),
    fun n => by rw [hbuf]; exact h.filed n⟩

theorem Orderly.named_self (h : s.Orderly x waiting) (n : String) : named n (s.bufferedFor n) = s.bufferedFor n :=
  List.filter_eq_self.2 fun e he => decide_eq_true (h.filed n e he)

theorem Orderly.named_other (h : s.Orderly x waiting) {n m : String} (hnm : m ≠ n) : named n (s.bufferedFor m) = [] :=
  List.filter_eq_nil_iff.2 fun e he hn => hnm ((h.filed m e he).symm.trans (of_decide_eq_true hn))

/-- Of what is forwarded, the part of a name is what is buffered under it. -/
theorem Orderly.named_buffered (h : s.Orderly x waiting) (n : String) : named n s.buffered = s.bufferedFor n := by
  refine Dict.filter_flatten_values (fun e he b hb => h.filed e.1 b ?_) n
  rw [bufferedFor, Dict.mem_entries_iff.1 he]
  exact hb

/-- Unsetting a handler gives no name one. -/
theorem resolve_unset {overrides : Dict (Option String) (Option HandlerDefn)} {defns : Dict (Option String) HandlerDefn}
    (k : Option String) {n : String} (h : (resolve (overrides.set k none) defns n).isSome = true) :
    (resolve overrides defns n).isSome = true := by
  unfold resolve at h ⊢
  rw [Dict.get?_set, Dict.get?_set] at h
  cases k with
  | none =>
    simp only [if_true, reduceCtorEq, if_false] at h
    generalize overrides.get? (some n) = a at h ⊢
    generalize overrides.get? none = b
    rcases a with _ | _ | d
    · rcases b with _ | _ | d'
      · exact h
      · exact h
      · simp
    · rcases b with _ | _ | d'
      · exact h
      · exact h
      · rfl
    · rfl
  | some m =>
    by_cases hm : n = m
    · subst hm
      simp only [reduceCtorEq, if_false, if_true] at h
      rcases overrides.get? (some n) with _ | _ | d
      · exact Option.isSome_or.trans (by rw [h, Bool.or_true])
      · exact h
      · rfl
    · simp only [reduceCtorEq, if_false, Option.some.injEq, hm] at h
      exact h

/-- A dynamic handler releases the whole buffer. -/
theorem Orderly.releaseAll (h : s.Orderly x waiting) (hf : s'.pendingHandlerFlush = s.pendingHandlerFlush ++ s.buffered)
    (hb : s'.bufferedSignals = .empty) : s'.Orderly x waiting := by
  have hbuf : ∀ n, s'.bufferedFor n = [] := by
    intro n
    rw [bufferedFor, hb]
    rfl
  refine ⟨fun n => ?_, fun n => .inr (hbuf n), fun n _ => hbuf n, fun n e he => ?_⟩
  · rw [hf, hbuf, named_append, h.named_buffered, List.append_nil, h.whole]
  · rw [hbuf] at he
    cases he

/-- The handler of a name releases what is buffered under it. -/
theorem Orderly.releaseNamed {m : String} {d : HandlerDefn} (h : s.Orderly x waiting)
    (ho : s'.signalOverrides = s.signalOverrides.set (some m) (some d))
    (hf : s'.pendingHandlerFlush = s.pendingHandlerFlush ++ s.bufferedFor m)
    (hb : s'.bufferedSignals = s.bufferedSignals.pop m) : s'.Orderly x waiting := by
  have hself : s'.bufferedFor m = [] := by
    rw [bufferedFor, hb, Dict.get?_pop_self]
    rfl
  have hother : ∀ n, n ≠ m → s'.bufferedFor n = s.bufferedFor n := by
    intro n hn
    rw [bufferedFor, hb, Dict.get?_pop_other _ hn, bufferedFor]
  have hflush : ∀ n, n ≠ m → named n s'.pendingHandlerFlush = named n s.pendingHandlerFlush := by
    intro n hn
    rw [hf, named_append, h.named_other (Ne.symm hn), List.append_nil]
  refine ⟨fun n => ?_, fun n => ?_, fun n hres => ?_, fun n e he => ?_⟩
  · by_cases hn : n = m
    · subst hn
      rw [hf, hself, named_append, h.named_self, List.append_nil, h.whole]
    · rw [hflush n hn, hother n hn, h.whole]
  · by_cases hn : n = m
    · exact .inr (hn ▸ hself)
    · rw [hflush n hn, hother n hn]
      exact h.apart n
  · by_cases hn : n = m
    · exact hn ▸ hself
    · have hsame : s'.resolveSignal x n = s.resolveSignal x n := by
        simp only [resolveSignal, ho, resolve, Dict.get?_set, reduceCtorEq, if_false, Option.some.injEq, hn]
      rw [hother n hn]
      exact h.served n (hsame ▸ hres)
  · by_cases hn : n = m
    · rw [hn, hself] at he
      cases he
    · rw [hother n hn] at he
      exact h.filed n e he

/-- **A registration releases what it finds in order.** -/
theorem Orderly.setHandler (h : s.Orderly x waiting) (c : HandlerCategory) (k : Option String) (d : Option HandlerDefn) :
    (M.state (s.setHandler c k d)).Orderly x waiting := by
  unfold Interp.setHandler assertNotReadOnly
  split
  · exact h
  · rw [ok_bind]
    cases c with
    | query | update => exact h.of_signals rfl
    | signal =>
      cases d with
      | none => exact ⟨h.whole, h.apart, fun n hn => h.served n (resolve_unset k hn), h.filed⟩
      | some d =>
        cases k with
        | none => exact h.releaseAll rfl rfl
        | some m => exact h.releaseNamed rfl rfl rfl

theorem Ends.signals (h : Ends s s') : s'.signals = s.signals := by
  obtain ⟨_, _, _, _, rfl⟩ := h
  rfl

theorem Orderly.userOp (h : s.Orderly x waiting) (o : UserOp) : (M.state (o.run x s)).Orderly x waiting := by
  cases o with
  | setHandler c n d => exact h.setHandler c n d
  | startHandler t => exact h.of_signals (ends_startHandler x s t).signals
  | handlerEnds t e => exact h.of_signals (ends_handlerEnds x s t e).signals
  | _ => exact h.of_signals (quiet_userOp s (fun _ _ _ => by simp) (fun _ => by simp) (fun _ _ => by simp)).signals

/-- A drain ends handlers, and starts none. -/
theorem entries_userOp (o : UserOp) :
    (M.state (o.run x s)).inflightHandlers.entries.Sublist s.inflightHandlers.entries := by
  cases he : o.ending x s with
  | none => rw [(ending_none he).fields.2.1]
  | some te =>
    obtain ⟨t, e⟩ := te
    rw [ending_run he]
    have hpop : (s.inflightHandlers.pop t).entries.Sublist s.inflightHandlers.entries := List.filter_sublist
    cases hg : s.inflightHandlers.get? t with
    | none => simp only [handlerEnds, hg, List.Sublist.refl]
    | some hd =>
      cases hu : hd.updateId with
      | none =>
        rw [(handlerEnds_other hg hu).fields.2.1]
        exact hpop
      | some u =>
        rw [(handlerEnds_update hg hu).fields.2.1]
        cases replyOf e <;> exact hpop

/-- What a drain leaves. -/
theorem orderly_drain (h : s.Orderly x waiting) (hf : s.HandlersFresh) (code : Code) :
    (s.drainOutsideTask x code).Orderly x waiting ∧ (s.drainOutsideTask x code).HandlersFresh ∧
      (s.drainOutsideTask x code).liveSignals.Sublist s.liveSignals := by
  have hnext : (s.drainOutsideTask x code).nextTask = s.nextTask := congrArg Kept.nextTask (kept_drain _ code)
  obtain ⟨ho, hsub⟩ := Code.drain_induct (x := x)
    (P := fun s' => s'.Orderly x waiting ∧ s'.inflightHandlers.entries.Sublist s.inflightHandlers.entries)
    (fun o h => ⟨h.1.userOp o, (entries_userOp o).trans h.2⟩) code
    (s := { s.suspend with ready := [] }) ⟨h.of_signals rfl, List.Sublist.refl _⟩
  refine ⟨ho, fun e he => ?_, (hsub.map _).filter _⟩
  rw [hnext]
  exact hf e (hsub.subset he)

/-! ## What is handled, and what goes on waiting -/

/-- The signals of `l` that are done with when they are applied. -/
def handledOf (x : Execution) (env : Env) (s : Interp) (l : List SignalEnvelope) : List SignalEnvelope :=
  l.filter fun e => (s.fate x env e).isHandled

theorem named_filter_eq {n : String} {l : List SignalEnvelope} {p : SignalEnvelope → Bool}
    (h : ∀ e ∈ l, e.name = n → p e = true) : named n (l.filter p) = named n l := by
  rw [named, List.filter_filter, named]
  refine List.filter_congr fun e he => ?_
  by_cases hn : e.name = n
  · simp [hn, h e he hn]
  · simp [hn]

theorem named_filter_nil {n : String} {l : List SignalEnvelope} {p : SignalEnvelope → Bool}
    (h : ∀ e ∈ l, e.name = n → p e = false) : named n (l.filter p) = [] := by
  rw [named, List.filter_filter, List.filter_eq_nil_iff]
  intro e he hp
  simp only [Bool.and_eq_true, decide_eq_true_eq] at hp
  rw [h e he hp.1] at hp
  cases hp.2

/-- A name that has a handler: all is handled, and nothing buffered. -/
theorem Hears.resolved {l : List SignalEnvelope} (h : Hears x env l s s') {n : String}
    (hn : (s.resolveSignal x n).isSome = true) (hb : s.bufferedFor n = []) :
    s'.bufferedFor n = [] ∧ named n (s.handledOf x env l) = named n l := by
  have hbuffered : ∀ e, e.name = n → (s.fate x env e).isBuffered = false := by
    intro e he
    rw [isBuffered_fate, he, ← Option.not_isSome, hn]
    rfl
  refine ⟨?_, named_filter_eq fun e he hen => ?_⟩
  · rw [h.buffers, hb, List.nil_append]
    exact named_filter_nil fun e _ hen => hbuffered e hen
  · have hpassed := h.passed e he
    have hbuf := hbuffered e hen
    generalize s.fate x env e = f at hpassed hbuf ⊢
    cases f with
    | buffered => cases hbuf
    | raised => cases hpassed
    | dropped | started => rfl

/-- A name that has none: all is buffered. -/
theorem Hears.unresolved {l : List SignalEnvelope} (h : Hears x env l s s') {n : String}
    (hn : ¬ (s.resolveSignal x n).isSome = true) :
    s'.bufferedFor n = s.bufferedFor n ++ named n l ∧ named n (s.handledOf x env l) = [] := by
  have hbuffered : ∀ e, e.name = n → (s.fate x env e).isBuffered = true := by
    intro e he
    rw [isBuffered_fate, he, ← Option.not_isSome]
    simpa using hn
  refine ⟨?_, named_filter_nil fun e _ hen => ?_⟩
  · rw [h.buffers, named_filter_eq fun e _ hen => hbuffered e hen]
  · have hbuf := hbuffered e hen
    generalize s.fate x env e = f at hbuf ⊢
    cases f with
    | buffered => rfl
    | raised | dropped | started => cases hbuf

/-- The buffer stays in order while signals are applied. -/
theorem Hears.orderly {l : List SignalEnvelope} (h : Hears x env l s s')
    (hserved : ∀ n, (s.resolveSignal x n).isSome = true → s.bufferedFor n = [])
    (hfiled : ∀ n, ∀ e ∈ s.bufferedFor n, e.name = n) (hp : s.pendingHandlerFlush = []) :
    s'.pendingHandlerFlush = [] ∧ s'.Orderly x s'.bufferedFor := by
  have hpending := h.flushing.trans hp
  refine ⟨hpending, fun n => by rw [hpending, named_nil, List.nil_append], fun n => .inl (by rw [hpending, named_nil]),
    fun n hn => ?_, fun n e he => ?_⟩
  · rw [resolveSignal_congr h.overrides] at hn
    exact (h.resolved hn (hserved n hn)).1
  · rw [h.buffers, List.mem_append] at he
    rcases he with he | he
    · exact hfiled n e he
    · exact of_decide_eq_true (List.mem_filter.1 he).2

/-- **A pass handles what waits of a name, or goes on keeping it**, in order. -/
theorem Orderly.pass {σ : Interp} (h : σ.Orderly x waiting)
    (hs : Hears x env (σ.taken x env) { σ with pendingHandlerFlush := [] } s') :
    (s'.pendingHandlerFlush = [] ∧ s'.Orderly x s'.bufferedFor) ∧ ∀ n,
      waiting n = named n (σ.handledOf x env (σ.taken x env)) ++ s'.bufferedFor n ++ named n (σ.cutOff x env) := by
  refine ⟨hs.orderly h.served h.filed rfl, fun n => ?_⟩
  have hhandled : ({ σ with pendingHandlerFlush := [] } : Interp).handledOf x env (σ.taken x env) =
      σ.handledOf x env (σ.taken x env) := by
    have hfate : ∀ e, ({ σ with pendingHandlerFlush := [] } : Interp).fate x env e = σ.fate x env e := fate_congr rfl
    simp only [handledOf, hfate]
  have hsplit : named n σ.pendingHandlerFlush = named n (σ.taken x env) ++ named n (σ.cutOff x env) := by
    rw [← named_append, taken, cutOff, List.takeWhile_append_dropWhile]
  rw [← h.whole n, hsplit, ← hhandled]
  by_cases hn : (σ.resolveSignal x n).isSome = true
  · obtain ⟨hb, hh⟩ := hs.resolved hn (h.served n hn)
    rw [hb, hh, h.served n hn, List.append_nil, List.append_nil]
  · obtain ⟨hb, hh⟩ := hs.unresolved hn
    rw [hb, hh, List.nil_append]
    rcases h.apart n with hp | hbuf
    · rw [hsplit, List.append_eq_nil_iff] at hp
      rw [hp.1, hp.2]
      simp [bufferedFor]
    · have hbuf' : ({ σ with pendingHandlerFlush := [] } : Interp).bufferedFor n = [] := hbuf
      rw [hbuf, hbuf', List.nil_append, List.append_nil]

/-- **So does a round**, with what it delivers. -/
theorem Orderly.round {l : List SignalEnvelope} (h : s.Orderly x s.bufferedFor) (hp : s.pendingHandlerFlush = [])
    (hs : Hears x env l s s') : (s'.pendingHandlerFlush = [] ∧ s'.Orderly x s'.bufferedFor) ∧
      ∀ n, s.bufferedFor n ++ named n l = named n (s.handledOf x env l) ++ s'.bufferedFor n := by
  refine ⟨hs.orderly h.served h.filed hp, fun n => ?_⟩
  by_cases hn : (s.resolveSignal x n).isSome = true
  · obtain ⟨hb, hh⟩ := hs.resolved hn (h.served n hn)
    rw [hb, hh, h.served n hn, List.nil_append, List.append_nil]
  · obtain ⟨hb, hh⟩ := hs.unresolved hn
    rw [hb, hh, List.nil_append]

/-! ## Runs -/

/-- The signals of `l` with what becomes of them. -/
def fates (x : Execution) (env : Env) (s : Interp) (l : List SignalEnvelope) : List (SignalEnvelope × Fate) :=
  l.map fun e => (e, s.fate x env e)

end Interp

/-- The signals that were done with. -/
def handledIn (l : List (SignalEnvelope × Fate)) : List SignalEnvelope := (l.filter (·.2.isHandled)).map (·.1)

/-- The handlers that were started. -/
def startedIn (l : List (SignalEnvelope × Fate)) : List Handler := l.filterMap (·.2.handler?)

theorem handledIn_append (l l' : List (SignalEnvelope × Fate)) : handledIn (l ++ l') = handledIn l ++ handledIn l' := by
  rw [handledIn, List.filter_append, List.map_append]
  rfl

theorem startedIn_append (l l' : List (SignalEnvelope × Fate)) : startedIn (l ++ l') = startedIn l ++ startedIn l' :=
  List.filterMap_append

theorem handledIn_fates (x : Execution) (env : Env) (s : Interp) (l : List SignalEnvelope) :
    handledIn (s.fates x env l) = s.handledOf x env l := by
  rw [handledIn, Interp.fates, List.filter_map, List.map_map]
  exact List.map_id _

theorem startedIn_fates (x : Execution) (env : Env) (s : Interp) (l : List SignalEnvelope) :
    startedIn (s.fates x env l) = l.filterMap fun e => (s.fate x env e).handler? := by
  rw [startedIn, Interp.fates, List.filterMap_map]
  rfl

/-- What becomes of the signals a pass applies. -/
def Interp.passFates (x : Execution) (env : Env) (code : Code) (s : Interp) : List (SignalEnvelope × Fate) :=
  (s.drainOutsideTask x code).fates x env ((s.drainOutsideTask x code).taken x env)

/-- The runs of a chain, with what became of its signals: for each pass and
each round, those it applied. The second list has the released signals that a
pass did not come to because it raised. -/
inductive Heard (x : Execution) : List (List (SignalEnvelope × Fate)) → List SignalEnvelope → Chain → Prop
  | start (startTime : Seconds) (memo : Dict String Value) : Heard x [] [] (.start startTime memo)
  | arrives {log : List (List (SignalEnvelope × Fate))} {cut : List SignalEnvelope} {c : Chain} (m : Message)
      (hl : Heard x log cut c) (h : c.stage.isHandedOver = false) : Heard x log cut { c with mail := c.mail.arrive m }
  | takes {log : List (List (SignalEnvelope × Fate))} {cut : List SignalEnvelope} {c : Chain} (hl : Heard x log cut c)
      (ha : c.stage.recvAlive = true) (hr : c.interp.receives = true) (hh : c.mail.held = []) :
      Heard x log cut { c with mail := c.mail.take }
  | pass {log : List (List (SignalEnvelope × Fate))} {c : Chain} {s : Interp} {t : Turn} {p : Phase} (env : Env)
      (deadlinePassed : Bool) (code : Code) (hl : Heard x log [] c) (hc : c.stage = .running .draining)
      (h : c.interp.pass x env deadlinePassed code = .ok (t, s)) (hp : t.phase = p) (hn : p = .draining ∨ p = .waiting) :
      Heard x (log ++ [c.interp.passFates x env code]) [] { c with stage := .running p, interp := s }
  | passCloses {log : List (List (SignalEnvelope × Fate))} {c : Chain} {s : Interp} {can : ContinueAsNew} (env : Env)
      (deadlinePassed : Bool) (code : Code) (hl : Heard x log [] c) (hc : c.stage = .running .draining)
      (h : c.interp.pass x env deadlinePassed code = .ok (.close, s)) (ho : s.outcome = some (.continueAsNew can)) :
      Heard x (log ++ [c.interp.passFates x env code]) [] { c with stage := .closing, interp := s }
  | passRaises {log : List (List (SignalEnvelope × Fate))} {c : Chain} {r : Raised} {can : ContinueAsNew} (env : Env)
      (deadlinePassed : Bool) (code : Code) (hl : Heard x log [] c) (hc : c.stage = .running .draining)
      (h : c.interp.pass x env deadlinePassed code = .error r) (ho : r.state.outcome = some (.continueAsNew can)) :
      Heard x (log ++ [c.interp.passFates x env code]) ((c.interp.drainOutsideTask x code).cutOff x env)
        { c with stage := .closing, interp := r.state }
  | round {log : List (List (SignalEnvelope × Fate))} {c : Chain} {s : Interp} (env : Env) (done : Done)
      (hl : Heard x log [] c) (hc : c.stage = .running .waiting) (hf : c.interp.Fits done)
      (hm : ∀ w ∈ c.interp.waiters, w.kind = .inbox → ∀ r, done w.task = some r → r = .message c.mail.held.head?)
      (h : c.interp.round x env done = .ok s) :
      Heard x (log ++ [c.interp.fates x env (signalsOf (c.interp.reported done))]) [] { c with
        stage := .running .draining
        interp := s
        mail := if c.interp.reportsRecv done then c.mail.deliver else c.mail }
  /-- A step of the close. -/
  | closes {log : List (List (SignalEnvelope × Fate))} {cut : List SignalEnvelope} {c c' : Chain} (hl : Heard x log cut c)
      (hs : CarryStep x c c') (hc : ∀ p, c.stage ≠ .running p) : Heard x log cut c'

variable {x : Execution} {log : List (List (SignalEnvelope × Fate))} {cut : List SignalEnvelope} {c c' : Chain}

theorem CarryStep.carries (hs : CarryStep x c c') (h : Carries x c) : Carries x c' := by
  obtain ⟨t, m, hr⟩ := h
  exact ⟨t, m, hr.tail hs⟩

theorem Heard.carries (h : Heard x log cut c) : Carries x c := by
  induction h with
  | start t m => exact ⟨t, m, .refl _⟩
  | arrives m _ ho ih => exact (CarryStep.arrives m ho).carries ih
  | takes _ ha hr hh ih => exact (CarryStep.takes ha hr hh).carries ih
  | pass env d code _ hc h hp hn ih => exact (CarryStep.pass env d code hc h hp hn).carries ih
  | passCloses env d code _ hc h ho ih => exact (CarryStep.passCloses env d code hc h ho).carries ih
  | passRaises env d code _ hc h ho ih => exact (CarryStep.passRaises env d code hc h ho).carries ih
  | round env done _ hc hf hm h ih => exact (CarryStep.round env done hc hf hm h).carries ih
  | closes _ hs _ ih => exact hs.carries ih

theorem CarryStep.stays_closed (hs : CarryStep x c c') (hc : ∀ p, c.stage ≠ .running p) (p : Phase) : c'.stage ≠ .running p :=
  (hs.quiet hc).1 p

/-- As long as the loop runs, no pass has raised. -/
theorem Heard.cut_nil (h : Heard x log cut c) {p : Phase} (hc : c.stage = .running p) : cut = [] := by
  induction h generalizing p with
  | start | pass | passCloses | round => rfl
  | arrives _ _ _ ih | takes _ _ _ _ ih => exact ih hc
  | passRaises => cases hc
  | closes _ hs hc' => exact absurd hc (hs.stays_closed hc' p)

/-- Every run has a log. -/
theorem Carries.heard (h : Carries x c) : ∃ log cut, Heard x log cut c := by
  obtain ⟨t, m, hr⟩ := h
  induction hr with
  | refl => exact ⟨[], [], .start t m⟩
  | tail _ hs ih =>
    obtain ⟨log, cut, hl⟩ := ih
    have hnil : ∀ {p}, _ = Stage.running p → Heard x log [] _ := fun hc => hl.cut_nil hc ▸ hl
    cases hs with
    | arrives m ho => exact ⟨_, _, hl.arrives m ho⟩
    | takes ha hr hh => exact ⟨_, _, hl.takes ha hr hh⟩
    | pass env d code hc h hp hn => exact ⟨_, _, .pass env d code (hnil hc) hc h hp hn⟩
    | passCloses env d code hc h ho => exact ⟨_, _, .passCloses env d code (hnil hc) hc h ho⟩
    | passRaises env d code hc h ho => exact ⟨_, _, .passRaises env d code (hnil hc) hc h ho⟩
    | round env done hc hf hm h => exact ⟨_, _, .round env done (hnil hc) hc hf hm h⟩
    | startsNext env hr hc ho h => exact ⟨_, _, hl.closes (.startsNext env hr hc ho h) fun p => by simp [hc]⟩
    | tearsDown hc => exact ⟨_, _, hl.closes (.tearsDown hc) fun p => by simp [hc]⟩
    | forwardsSignal hc => exact ⟨_, _, hl.closes (.forwardsSignal hc) fun p => by simp [hc]⟩
    | signalsForwarded hc => exact ⟨_, _, hl.closes (.signalsForwarded hc) fun p => by simp [hc]⟩
    | forwardsCancel env hc => exact ⟨_, _, hl.closes (.forwardsCancel env hc) fun p => by simp [hc]⟩
    | receives hc hh hi => exact ⟨_, _, hl.closes (.receives hc hh hi) fun p => by simp [hc]⟩
    | sends hc hh hm => exact ⟨_, _, hl.closes (.sends hc hh hm) fun p => by simp [hc]⟩
    | drops hc hh hm => exact ⟨_, _, hl.closes (.drops hc hh hm) fun p => by simp [hc]⟩
    | seesEmpty hc hh hi => exact ⟨_, _, hl.closes (.seesEmpty hc hh hi) fun p => by simp [hc]⟩

/-! ## The books -/

/-- What a run keeps of a name, to be handled or sent on. -/
def Chain.Keeps (c : Chain) (n : String) (kept : List SignalEnvelope) : Prop :=
  match c.stage with
  | .running _ | .closing | .tearing _ => kept = c.interp.bufferedFor n
  | .buffered _ rest => kept = named n (signalsOf c.next) ++ named n rest ∧ c.mail.forwarded = []
  | .cancel _ => kept = named n (signalsOf c.next) ∧ c.mail.forwarded = []
  | .receiving _ | .handedOver _ => named n (signalsOf c.next) = kept ++ named n (signalsOf c.mail.forwarded)

/-- What arrived of a name: what was handled, what is kept, what a pass that
raised did not come to, and what the mailbox shows, in that order. -/
def Chain.Booked (log : List (SignalEnvelope × Fate)) (cut : List SignalEnvelope) (c : Chain) : Prop :=
  ∀ n, ∃ kept, c.Keeps n kept ∧ named n (signalsOf c.mail.arrived) = named n (handledIn log) ++ kept ++ named n cut ++
    named n (signalsOf (c.mail.lost ++ c.mail.forwarded ++ c.mail.held ++ c.mail.inbox))

/-- The handlers of signals in flight: those the last pass or round started
are the last. -/
def Chain.Live (log : List (List (SignalEnvelope × Fate))) (c : Chain) : Prop :=
  ∃ earlier, c.interp.liveSignals = earlier ++ startedIn (log.getLast?.getD []) ∧
    earlier.Sublist (startedIn log.dropLast.flatten)

/-- The buffer of a run between its passes. -/
def Interp.InOrder (x : Execution) (s : Interp) : Prop := s.pendingHandlerFlush = [] ∧ s.Orderly x s.bufferedFor

theorem Interp.InOrder.of_signals {s s' : Interp} (h : s.InOrder x) (hs : s'.signals = s.signals) : s'.InOrder x := by
  have ho := h.2.of_signals hs
  have hp : s'.pendingHandlerFlush = s.pendingHandlerFlush := congrArg Signals.flushing hs
  refine ⟨hp.trans h.1, { ho with whole := fun n => ?_ }⟩
  rw [hp, h.1]
  rfl

theorem signalsOf_runScoped {m : Message} (h : m.runScoped = true) : signalsOf [m] = [] := by
  cases m <;> first | rfl | cases h

theorem signalsOf_carriedCancel (env : Env) (s : Interp) : signalsOf (s.carriedCancel env) = [] := by
  unfold Interp.carriedCancel
  split <;> rfl

/-- A message comes after what is booked. -/
theorem Chain.Booked.arrives {l : List (SignalEnvelope × Fate)} (h : c.Booked l cut) (m : Message) :
    Chain.Booked l cut { c with mail := c.mail.arrive m } := by
  intro n
  obtain ⟨kept, hk, hb⟩ := h n
  refine ⟨kept, hk, ?_⟩
  simp only [Mail.Ledger.arrive, signalsOf_append, named_append, ← List.append_assoc]
  rw [hb]
  simp only [signalsOf_append, named_append, ← List.append_assoc]

/-- The receive task takes what is next in the books. -/
theorem Chain.Booked.takes {l : List (SignalEnvelope × Fate)} (h : c.Booked l cut) (hh : c.mail.held = []) :
    Chain.Booked l cut { c with mail := c.mail.take } := by
  intro n
  obtain ⟨kept, hk, hb⟩ := h n
  have hforwarded : c.mail.take.forwarded = c.mail.forwarded := by
    unfold Mail.Ledger.take
    split <;> rfl
  refine ⟨kept, by unfold Chain.Keeps; simp only [hforwarded]; exact hk, ?_⟩
  unfold Mail.Ledger.take
  split
  · exact hb
  · next m rest hi =>
    rw [hb, hi, hh]
    simp

/-- A step of the close keeps the books. -/
theorem CarryStep.booked {l : List (SignalEnvelope × Fate)} (hs : CarryStep x c c') (hc : ∀ p, c.stage ≠ .running p)
    (hcol : c.stage.recvAlive = true → c.Collects) (ho : c.stage.recvAlive = true → c.interp.InOrder x)
    (h : c.Booked l cut) : c'.Booked l cut := by
  intro n
  obtain ⟨kept, hk, hb⟩ := h n
  unfold Chain.Keeps at hk
  cases hs with
  | arrives m _ => exact h.arrives m n
  | takes _ _ hh => exact h.takes hh n
  | pass _ _ _ hc' | passCloses _ _ _ hc' | passRaises _ _ _ hc' | round _ _ hc' => exact absurd hc' (hc _)
  | startsNext env hr hc' ho' hb' =>
    rw [hc'] at hk
    refine ⟨kept, ?_, hb⟩
    have hswept := Interp.Quiet.trans (Interp.frame_cancelInFlight trivial env c.interp)
      (Interp.frame_sweepChildrenOnClose env _)
    have hq : Interp.Quiet c.interp _ := hswept.trans (Interp.along_beginContinueAsNew.of_ok hb')
    exact hk.trans (Interp.bufferedFor_congr hq.signals n).symm
  | tearsDown hc' =>
    rw [hc'] at hk ho hcol
    obtain ⟨hnext, hf, -, hl⟩ := hcol rfl
    refine ⟨kept, ⟨?_, hf⟩, ?_⟩
    · show kept = named n (signalsOf c.next) ++ named n c.interp.buffered
      rw [hnext, hk, (ho rfl).2.named_buffered]
      rfl
    · rw [show (c.tornDown _).mail = c.mail.lose from rfl]
      simp only [Mail.Ledger.lose, hb, hf, hl, List.nil_append, List.append_nil]
  | forwardsSignal hc' =>
    rw [hc'] at hk
    refine ⟨kept, ⟨?_, hk.2⟩, hb⟩
    rw [hk.1]
    simp [Chain.send, signalsOf, Message.signal?, named, List.filter_cons]
    split <;> simp
  | signalsForwarded hc' =>
    rw [hc'] at hk
    exact ⟨kept, ⟨by simpa using hk.1, hk.2⟩, hb⟩
  | forwardsCancel env hc' =>
    rw [hc'] at hk
    obtain ⟨hnext, hmail⟩ := send_foldl (c.interp.carriedCancel env) c _
    refine ⟨kept, ?_, ?_⟩
    · show named n (signalsOf (List.foldl _ c _).next) = _
      rw [hnext, signalsOf_append, signalsOf_carriedCancel, List.append_nil, hk.1]
      show _ = _ ++ named n (signalsOf (List.foldl _ c _).mail.forwarded)
      rw [hmail, hk.2]
      simp
    · show named n (signalsOf (List.foldl _ c _).mail.arrived) = _
      rw [hmail]
      exact hb
  | receives hc' hh hi =>
    rw [hc'] at hk
    refine ⟨kept, ?_, ?_⟩
    · simp only [Chain.Keeps, hc', Mail.Ledger.take, hi]
      exact hk
    · simp only [Mail.Ledger.take, hi]
      rw [hb, hi, hh]
      simp
  | sends hc' hh hm =>
    rw [hc'] at hk
    refine ⟨kept, ?_, ?_⟩
    · simp only [Chain.Keeps, Chain.send, hc', Mail.Ledger.forward, hh, signalsOf_append, named_append, hk, List.append_assoc]
    · simp only [Mail.Ledger.forward, hh]
      rw [hb, hh]
      simp
  | drops hc' hh hm =>
    rw [hc'] at hk
    refine ⟨kept, ?_, ?_⟩
    · simp only [Chain.Keeps, hc', Mail.Ledger.drop, hh]
      exact hk
    · simp only [Mail.Ledger.drop, hh]
      rw [hb, hh]
      simp only [signalsOf_append, signalsOf_runScoped hm, signalsOf_nil]
  | seesEmpty hc' =>
    rw [hc'] at hk
    exact ⟨kept, hk, hb⟩

/-- A receive task that a round reports holds what the round delivers. -/
theorem Carries.reported_eq (h : Carries x c) (hc : c.stage = .running .waiting) {done : Done}
    (hm : ∀ w ∈ c.interp.waiters, w.kind = .inbox → ∀ r, done w.task = some r → r = .message c.mail.held.head?) :
    c.interp.reported done = if c.interp.reportsRecv done then c.mail.held else [] := by
  have hdel := h.delivers hc hm
  split at hdel
  · next hr =>
    rw [if_pos hr]
    exact (List.append_cancel_left hdel).symm
  · next hr =>
    rw [if_neg hr]
    exact List.append_cancel_left (hdel.symm.trans (List.append_nil _).symm)

theorem Chain.Live.sublist (h : c.Live log) : c.interp.liveSignals.Sublist (startedIn log.flatten) := by
  obtain ⟨earlier, hl, hsub⟩ := h
  rcases List.eq_nil_or_concat log with rfl | ⟨front, last, rfl⟩
  · rw [hl]
    simpa [startedIn] using hsub
  · rw [List.concat_eq_append] at hl hsub ⊢
    rw [List.getLast?_concat] at hl
    rw [List.dropLast_concat] at hsub
    rw [hl, List.flatten_append, startedIn_append, List.flatten_singleton]
    exact hsub.append (List.Sublist.refl _)

/-- What holds of the signals of a chain. -/
structure Chain.Heeds (x : Execution) (log : List (List (SignalEnvelope × Fate))) (cut : List SignalEnvelope) (c : Chain) :
    Prop where
  fresh : c.interp.HandlersFresh
  live : c.Live log
  order : c.stage.recvAlive = true → c.interp.InOrder x
  booked : c.Booked log.flatten cut

theorem booked_append {l l' : List (SignalEnvelope × Fate)} (h : ∀ n, ∃ kept, c.Keeps n kept ∧
    named n (signalsOf c.mail.arrived) = named n (handledIn l) ++ named n (handledIn l') ++ kept ++ named n cut ++
      named n (signalsOf (c.mail.lost ++ c.mail.forwarded ++ c.mail.held ++ c.mail.inbox))) : c.Booked (l ++ l') cut := by
  intro n
  rw [handledIn_append, named_append]
  exact h n

/-- A pass keeps what holds of the signals, whether it raises or not. -/
theorem Chain.Heeds.pass {env : Env} {code : Code} {s : Interp} {g : Stage} (h : c.Heeds x log [])
    (hc : c.stage = .running .draining) (hg : g.recvAlive = true)
    (hs : Interp.Hears x env ((c.interp.drainOutsideTask x code).taken x env)
      { c.interp.drainOutsideTask x code with pendingHandlerFlush := [] } s) :
    Chain.Heeds x (log ++ [c.interp.passFates x env code]) ((c.interp.drainOutsideTask x code).cutOff x env)
      { c with stage := g, interp := s } := by
  obtain ⟨hdrained, hfresh, hsub⟩ := Interp.orderly_drain (h.order (by rw [hc]; rfl)).2 h.fresh code
  obtain ⟨horder, hsplit⟩ := hdrained.pass hs
  refine ⟨hs.fresh hfresh, ⟨(c.interp.drainOutsideTask x code).liveSignals, ?_, ?_⟩, fun _ => horder, ?_⟩
  · have hfate : ∀ e, ({ c.interp.drainOutsideTask x code with pendingHandlerFlush := [] } : Interp).fate x env e =
        (c.interp.drainOutsideTask x code).fate x env e := Interp.fate_congr rfl
    rw [List.getLast?_concat, Option.getD_some, Interp.passFates, startedIn_fates]
    refine (hs.live hfresh).trans ?_
    simp only [hfate]
    rfl
  · rw [List.dropLast_concat]
    exact hsub.trans h.live.sublist
  · rw [List.flatten_append, List.flatten_singleton]
    refine booked_append fun n => ⟨s.bufferedFor n, ?_, ?_⟩
    · unfold Chain.Keeps
      cases g <;> first | rfl | cases hg
    · obtain ⟨kept, hk, hb⟩ := h.booked n
      rw [Chain.Keeps, hc] at hk
      dsimp only at hk ⊢
      rw [hb, hk, hsplit n, Interp.passFates, handledIn_fates, named_nil, List.append_nil]
      simp only [List.append_assoc]

/-- So does a round. -/
theorem Chain.Heeds.round {env : Env} {done : Done} {s : Interp} (h : c.Heeds x log []) (hcar : Carries x c)
    (hc : c.stage = .running .waiting)
    (hm : ∀ w ∈ c.interp.waiters, w.kind = .inbox → ∀ r, done w.task = some r → r = .message c.mail.held.head?)
    (hs : c.interp.round x env done = .ok s) :
    Chain.Heeds x (log ++ [c.interp.fates x env (signalsOf (c.interp.reported done))]) [] { c with
      stage := .running .draining
      interp := s
      mail := if c.interp.reportsRecv done then c.mail.deliver else c.mail } := by
  have hhears := Interp.hears_round hs
  obtain ⟨hp, ho⟩ := h.order (by rw [hc]; rfl)
  obtain ⟨horder, hsplit⟩ := ho.round hp hhears
  refine ⟨hhears.fresh h.fresh, ⟨c.interp.liveSignals, ?_, ?_⟩, fun _ => horder, ?_⟩
  · rw [List.getLast?_concat, Option.getD_some, startedIn_fates]
    exact hhears.live h.fresh
  · rw [List.dropLast_concat]
    exact h.live.sublist
  · rw [List.flatten_append, List.flatten_singleton]
    refine booked_append fun n => ⟨s.bufferedFor n, rfl, ?_⟩
    obtain ⟨kept, hk, hb⟩ := h.booked n
    rw [Chain.Keeps, hc] at hk
    dsimp only at hk ⊢
    obtain ⟨-, hf, -, hl⟩ := hcar.collects (by rw [hc]; rfl)
    rw [handledIn_fates, hcar.reported_eq hc hm, List.append_assoc (named n (handledIn log.flatten)), List.append_assoc]
    have hsplit := hsplit n
    rw [hcar.reported_eq hc hm] at hsplit
    rw [← hsplit]
    split
    · simp only [Mail.Ledger.deliver]
      rw [hb, hk, hf, hl]
      simp
    · rw [hb, hk, hf, hl]
      simp

/-- The receive task is not started again. -/
theorem CarryStep.alive_before (hs : CarryStep x c c') (ha : c'.stage.recvAlive = true) : c.stage.recvAlive = true := by
  cases hs with
  | arrives | takes => exact ha
  | pass _ _ _ hc | passCloses _ _ _ hc | passRaises _ _ _ hc | round _ _ hc | startsNext _ _ hc => rw [hc]; rfl
  | tearsDown | forwardsSignal | signalsForwarded | forwardsCancel | seesEmpty => cases ha
  | receives hc | sends hc | drops hc => simp only [Chain.send, hc, Stage.recvAlive, Bool.false_eq_true] at ha

theorem Heard.heeds (h : Heard x log cut c) : c.Heeds x log cut := by
  induction h with
  | start t m =>
    refine ⟨(fun e he => by cases he), ⟨[], rfl, List.Sublist.refl _⟩, fun _ => ⟨rfl, ?_⟩, fun n => ⟨[], rfl, rfl⟩⟩
    exact ⟨fun n => rfl, fun n => .inl rfl, fun n _ => rfl, fun n e he => by cases he⟩
  | arrives m hl ho ih => exact ⟨ih.fresh, ih.live, ih.order, ih.booked.arrives m⟩
  | takes hl ha hr hh ih => exact ⟨ih.fresh, ih.live, ih.order, ih.booked.takes hh⟩
  | @pass _ c _ _ p env d code hl hc h hp hn ih =>
    have hs := Interp.hears_pass x env c.interp d code
    rw [h] at hs
    have hpass := ih.pass (g := .running p) hc rfl hs.1
    rwa [hs.2] at hpass
  | @passCloses _ c _ _ env d code hl hc h ho ih =>
    have hs := Interp.hears_pass x env c.interp d code
    rw [h] at hs
    have hpass := ih.pass (g := .closing) hc rfl hs.1
    rwa [hs.2] at hpass
  | @passRaises _ c _ _ env d code hl hc h ho ih =>
    have hs := Interp.hears_pass x env c.interp d code
    rw [h] at hs
    exact ih.pass hc rfl hs
  | round env done hl hc hf hm h ih => exact ih.round hl.carries hc hm h
  | @closes _ _ c c' hl hs hc ih =>
    have hbooked := hs.booked hc (fun ha => hl.carries.collects ha) ih.order ih.booked
    obtain ⟨-, hq⟩ := hs.quiet hc
    have hsilent : Interp.Silent c.interp c'.interp := by
      rcases hq with hq | ⟨newRun, -, rfl⟩
      · exact hq.silent
      · exact ⟨rfl, le_rfl⟩
    refine ⟨hsilent.fresh ih.fresh, ?_, fun ha => ?_, hbooked⟩
    · obtain ⟨earlier, hlive, hsub⟩ := ih.live
      exact ⟨earlier, (Interp.liveSignals_congr hsilent.fields.2.1).trans hlive, hsub⟩
    · rcases hq with hq | ⟨newRun, -, rfl⟩
      · exact (ih.order (hs.alive_before ha)).of_signals hq.signals
      · cases ha

/-! ## What is sent to the next run -/

/-- The next run gets signals of the buffer, then the request to cancel, then
what was forwarded of the inbox. -/
def Chain.Sends (c : Chain) : Prop :=
  match c.stage with
  | .running _ | .closing | .tearing _ => True
  | .buffered _ _ | .cancel _ => ∃ l : List SignalEnvelope, c.next = l.map .signal ∧ c.mail.forwarded = []
  | .receiving _ | .handedOver _ =>
    ∃ (l : List SignalEnvelope) (env : Env), c.next = l.map .signal ++ c.interp.carriedCancel env ++ c.mail.forwarded

theorem CarryStep.sends_inOrder (hs : CarryStep x c c') (hcol : c.stage.recvAlive = true → c.Collects) (h : c.Sends) :
    c'.Sends := by
  unfold Chain.Sends at h ⊢
  cases hs with
  | arrives m _ => exact h
  | takes ha _ _ =>
    cases hc : c.stage with
    | running | closing | tearing => trivial
    | buffered | cancel | receiving | handedOver => rw [hc] at ha; cases ha
  | pass | passCloses | passRaises | round | startsNext => trivial
  | tearsDown hc =>
    obtain ⟨hnext, hf, -, -⟩ := hcol (by rw [hc]; rfl)
    exact ⟨[], hnext, hf⟩
  | @forwardsSignal _ e rest hc =>
    rw [hc] at h
    obtain ⟨l, hn, hf⟩ := h
    exact ⟨l ++ [e], by simp [Chain.send, hn], hf⟩
  | signalsForwarded hc =>
    rw [hc] at h
    exact h
  | forwardsCancel env hc =>
    rw [hc] at h
    obtain ⟨l, hn, hf⟩ := h
    obtain ⟨hnext, hmail⟩ := send_foldl (c.interp.carriedCancel env) c _
    have hsame : ∀ (ms : List Message) (d : Chain) (n : String),
        (ms.foldl (fun c m => c.send n m) d).interp.carriedCancel env = d.interp.carriedCancel env := by
      intro ms
      induction ms with
      | nil => intro d n; rfl
      | cons m ms ih => intro d n; exact ih _ n
    refine ⟨l, env, ?_⟩
    dsimp only
    rw [hnext, hmail, hf, List.append_nil, hsame, hn]
  | receives hc hh hi =>
    rw [hc] at h
    obtain ⟨l, env, hn⟩ := h
    simp only [hc, Mail.Ledger.take, hi]
    exact ⟨l, env, hn⟩
  | sends hc hh _ =>
    rw [hc] at h
    obtain ⟨l, env, hn⟩ := h
    simp only [Chain.send, hc, Mail.Ledger.forward, hh]
    exact ⟨l, env, by rw [hn, List.append_assoc]; rfl⟩
  | drops hc hh _ =>
    rw [hc] at h
    obtain ⟨l, env, hn⟩ := h
    simp only [hc, Mail.Ledger.drop, hh]
    exact ⟨l, env, hn⟩
  | seesEmpty hc =>
    rw [hc] at h
    exact h

theorem CarryStep.sequential (hs : CarryStep x c c') (h : c.mail.Sequential) : c'.mail.Sequential := by
  cases hs with
  | arrives m => exact h.arrive m
  | takes | receives => exact h.take
  | pass | passCloses | passRaises | startsNext | forwardsSignal | signalsForwarded | seesEmpty => exact h
  | round env done =>
    dsimp only
    split
    · exact h.deliver
    · exact h
  | tearsDown => exact h.lose
  | forwardsCancel env =>
    dsimp only
    rw [(send_foldl _ _ _).2]
    exact h
  | sends => exact h.forward
  | drops => exact h.drop

theorem Stage.not_handedOver {g : Stage} (h : g.recvAlive = true) : g.isHandedOver = false := by
  cases g <;> first | rfl | cases h

theorem Carries.inOrder (h : Carries x c) : c.Sends ∧ c.mail.Sequential ∧
    (c.stage.isHandedOver = true → c.mail.held = [] ∧ c.mail.inbox = []) := by
  obtain ⟨t, m, hr⟩ := h
  induction hr with
  | refl => exact ⟨trivial, List.Sublist.refl _, fun h => by cases h⟩
  | tail hr hs ih =>
    obtain ⟨hsends, hseq, -⟩ := ih
    refine ⟨hs.sends_inOrder (fun ha => Carries.collects ⟨t, m, hr⟩ ha) hsends, hs.sequential hseq, fun ho => ?_⟩
    cases hs with
    | arrives _ hne => rw [hne] at ho; cases ho
    | takes ha => rw [Stage.not_handedOver ha] at ho; cases ho
    | pass | passCloses | passRaises | round | startsNext | tearsDown | forwardsSignal | signalsForwarded
    | forwardsCancel => cases ho
    | receives hc | sends hc | drops hc => simp only [Chain.send, hc, Stage.isHandedOver, Bool.false_eq_true] at ho
    | seesEmpty _ hh hi => exact ⟨hh, hi⟩

/-! ## The order of signals -/

/-- A message that carries a signal of this name. -/
def signalNamed (n : String) : Message := .signal { name := n, args := [⟨"1"⟩] }

/-- Three signals arrive that have no handler. -/
def threeArrive : List Input :=
  [.drain [], .round .calm [(0, .message (some (signalNamed "a")))],
   .drain [], .round .calm [(1, .message (some (signalNamed "b")))],
   .drain [], .round .calm [(2, .message (some (signalNamed "a")))]]

/-- A world in which nothing decodes. -/
def Env.garbled : Env := { Env.calm with converter := { Converter.lenient with decode := fun _ _ => .error "" } }

end Dbosify
