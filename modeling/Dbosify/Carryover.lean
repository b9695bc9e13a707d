/-
Continue-as-new and the inbox: a run, its receive task, and the senders.

Senders put messages into run `n`'s inbox at any moment. The receive task
takes one at any moment it is alive: while user code runs, while the sweeps
run, while the next run is enqueued, until its own teardown is over. A round
delivers what it took. `_forward_inbox_to` then takes what is left and sends
it on.

The books balance on every run (`Carries.balanced`), so a message that
matters is missing at the end exactly when the receive task still held one at
its teardown (`carryover_iff`).
-/
import Dbosify.Close
import Dbosify.Mailbox

namespace Dbosify

/-- Where a run that is to continue as new is. -/
inductive Stage
  /-- In the loop. -/
  | running (p : Phase)
  /-- In the `finally` block, up to the enqueue of the next run. -/
  | closing
  /-- The next run exists; the waiters are cancelled and gathered. -/
  | tearing (newRun : String)
  /-- The buffered signals still to be forwarded. -/
  | buffered (newRun : String) (rest : List SignalEnvelope)
  | cancel (newRun : String)
  /-- In the `recv(0)` loop. -/
  | receiving (newRun : String)
  /-- The loop saw the inbox empty. -/
  | handedOver (newRun : String)

/-- Whether the receive task may still run. -/
def Stage.recvAlive : Stage → Bool
  | running _ | closing | tearing _ => true
  | buffered _ _ | cancel _ | receiving _ | handedOver _ => false

def Stage.isHandedOver : Stage → Bool
  | handedOver _ => true
  | _ => false

/-- A run, its inbox, and what it has sent to the next run's. -/
structure Chain where
  stage : Stage
  interp : Interp
  mail : Mail.Ledger Message := {}
  next : List Message := []

namespace Interp

/-- The receive task is on the list. -/
def receives (s : Interp) : Bool := s.waiters.any (·.kind = .inbox)

/-- A round reports the receive task done. -/
def reportsRecv (s : Interp) (done : Done) : Bool := s.waiters.any fun w => w.kind = .inbox && (done w.task).isSome

/-- The messages a round delivers. -/
def reported (s : Interp) (done : Done) : List Message :=
  s.waiters.filterMap fun w =>
    if w.kind = .inbox then
      match done w.task with
      | some (.message m) => m
      | _ => none
    else none

/-- `_buffered_signals`, in the order they are forwarded. -/
def buffered (s : Interp) : List SignalEnvelope := s.bufferedSignals.values.flatten

/-- The request to cancel that follows the chain. -/
def carriedCancel (env : Env) (s : Interp) : List Message :=
  if s.cancelRequested then [.cancel (s.cancelReason.getD "") (some env.now)] else []

end Interp

/-- What a send to the next run adds to the history. -/
def Chain.send (c : Chain) (newRun : String) (m : Message) : Chain :=
  { c with interp := c.interp.step (.send newRun m), next := c.next ++ [m] }

/-- The gather has returned: what the receive task holds goes with it. -/
def Chain.tornDown (c : Chain) (newRun : String) : Chain :=
  { c with stage := .buffered newRun c.interp.buffered, interp := c.interp.tearDown, mail := c.mail.lose }

/-- One step of the run, of its receive task, or of a sender. -/
inductive CarryStep (x : Execution) : Chain → Chain → Prop
  | arrives {c : Chain} (m : Message) (h : c.stage.isHandedOver = false) :
      CarryStep x c { c with mail := c.mail.arrive m }
  /-- The receive task consumes a message. -/
  | takes {c : Chain} (ha : c.stage.recvAlive = true) (hr : c.interp.receives = true) (hh : c.mail.held = []) :
      CarryStep x c { c with mail := c.mail.take }
  | pass {c : Chain} {s : Interp} {t : Turn} {p : Phase} (env : Env) (deadlinePassed : Bool) (code : Code)
      (hc : c.stage = .running .draining) (h : c.interp.pass x env deadlinePassed code = .ok (t, s))
      (hp : t.phase = p) (hl : p = .draining ∨ p = .waiting) : CarryStep x c { c with stage := .running p, interp := s }
  /-- The outcome is in, and it is a continue-as-new. -/
  | passCloses {c : Chain} {s : Interp} {can : ContinueAsNew} (env : Env) (deadlinePassed : Bool) (code : Code)
      (hc : c.stage = .running .draining) (h : c.interp.pass x env deadlinePassed code = .ok (.close, s))
      (ho : s.outcome = some (.continueAsNew can)) : CarryStep x c { c with stage := .closing, interp := s }
  /-- The same, but the pass that set it raised. -/
  | passRaises {c : Chain} {r : Raised} {can : ContinueAsNew} (env : Env) (deadlinePassed : Bool) (code : Code)
      (hc : c.stage = .running .draining) (h : c.interp.pass x env deadlinePassed code = .error r)
      (ho : r.state.outcome = some (.continueAsNew can)) : CarryStep x c { c with stage := .closing, interp := r.state }
  /-- A round. One that raises ends a run without an outcome. -/
  | round {c : Chain} {s : Interp} (env : Env) (done : Done) (hc : c.stage = .running .waiting)
      (hf : c.interp.Fits done)
      (hm : ∀ w ∈ c.interp.waiters, w.kind = .inbox → ∀ r, done w.task = some r → r = .message c.mail.held.head?)
      (h : c.interp.round x env done = .ok s) :
      CarryStep x c { c with
        stage := .running .draining
        interp := s
        mail := if c.interp.reportsRecv done then c.mail.deliver else c.mail }
  /-- The sweeps, and the enqueue of the next run. -/
  | startsNext {c : Chain} {s : Interp} {can : ContinueAsNew} {newRun : String} (env : Env) (hr : x.replayMode = none)
      (hc : c.stage = .closing) (ho : c.interp.outcome = some (.continueAsNew can))
      (h : ((c.interp.cancelInFlight env).sweepChildrenOnClose env).beginContinueAsNew x env can = .ok (newRun, s)) :
      CarryStep x c { c with stage := .tearing newRun, interp := s }
  | tearsDown {c : Chain} {newRun : String} (hc : c.stage = .tearing newRun) : CarryStep x c (c.tornDown newRun)
  | forwardsSignal {c : Chain} {newRun : String} {e : SignalEnvelope} {rest : List SignalEnvelope}
      (hc : c.stage = .buffered newRun (e :: rest)) :
      CarryStep x c { c.send newRun (.signal e) with stage := .buffered newRun rest }
  | signalsForwarded {c : Chain} {newRun : String} (hc : c.stage = .buffered newRun []) :
      CarryStep x c { c with stage := .cancel newRun, interp := { c.interp with bufferedSignals := .empty } }
  | forwardsCancel {c : Chain} {newRun : String} (env : Env) (hc : c.stage = .cancel newRun) :
      CarryStep x c { (c.interp.carriedCancel env).foldl (fun c m => c.send newRun m) c with stage := .receiving newRun }
  | receives {c : Chain} {newRun : String} {m : Message} {rest : List Message} (hc : c.stage = .receiving newRun)
      (hh : c.mail.held = []) (hi : c.mail.inbox = m :: rest) :
      CarryStep x c { c with interp := c.interp.step (.recv 0), mail := c.mail.take }
  | sends {c : Chain} {newRun : String} {m : Message} (hc : c.stage = .receiving newRun) (hh : c.mail.held = [m])
      (hm : m.runScoped = false) : CarryStep x c { c.send newRun m with mail := c.mail.forward }
  /-- A message for this run's own activities. -/
  | drops {c : Chain} {newRun : String} {m : Message} (hc : c.stage = .receiving newRun) (hh : c.mail.held = [m])
      (hm : m.runScoped = true) : CarryStep x c { c with mail := c.mail.drop }
  | seesEmpty {c : Chain} {newRun : String} (hc : c.stage = .receiving newRun) (hh : c.mail.held = [])
      (hi : c.mail.inbox = []) :
      CarryStep x c { c with stage := .handedOver newRun, interp := c.interp.step (.recv 0) }

/-- Steps, one after another. -/
inductive CarryRun (x : Execution) : Chain → Chain → Prop
  | refl (c : Chain) : CarryRun x c c
  | tail {a b c : Chain} : CarryRun x a b → CarryStep x b c → CarryRun x a c

/-- The chain at the start of run `n`. -/
def Chain.start (startTime : Seconds) (memo : Py.Dict String Value) : Chain :=
  { stage := .running .draining, interp := .start startTime memo }

/-- The chains the runs of an execution reach. -/
def Carries (x : Execution) (c : Chain) : Prop := ∃ t m, CarryRun x (.start t m) c

/-! ## Up to the teardown -/

/-- Before the teardown nothing is sent on, and nothing lost. -/
def Chain.Collects (c : Chain) : Prop :=
  c.next = [] ∧ c.mail.forwarded = [] ∧ c.mail.dropped = [] ∧ c.mail.lost = []

/-- The messages a run is to keep. -/
def Message.kept (m : Message) : Bool := !m.runScoped

variable {x : Execution} {a b c c₀ : Chain}

theorem CarryStep.balanced (hs : CarryStep x a b) (h : a.mail.Balanced) : b.mail.Balanced := by
  cases hs with
  | arrives m => exact h.arrive m
  | takes | receives => exact h.take
  | pass | passCloses | passRaises | startsNext | forwardsSignal | signalsForwarded | seesEmpty => exact h
  | round env done =>
    dsimp only
    split
    · exact h.deliver
    · exact h
  | tearsDown => exact h.lose
  | forwardsCancel env =>
    have key : ∀ (l : List Message) (c : Chain) (n : String), (l.foldl (fun c m => c.send n m) c).mail = c.mail := by
      intro l
      induction l with
      | nil => intro c n; rfl
      | cons m l ih => intro c n; exact ih _ n
    rw [key]
    exact h
  | sends => exact h.forward
  | drops => exact h.drop

/-- **The books balance on every run.** -/
theorem CarryRun.balanced (hr : CarryRun x a b) (h : a.mail.Balanced) : b.mail.Balanced := by
  induction hr with
  | refl => exact h
  | tail _ hs ih => exact hs.balanced ih

theorem Carries.balanced (h : Carries x c) : c.mail.Balanced := by
  obtain ⟨t, m, hr⟩ := h
  exact hr.balanced Mail.Ledger.balanced_empty

theorem CarryStep.collects (hs : CarryStep x a b) (h : a.stage.recvAlive = true → a.Collects)
    (hb : b.stage.recvAlive = true) : b.Collects := by
  unfold Chain.Collects at *
  cases hs with
  | arrives m => exact h hb
  | takes ha =>
    unfold Mail.Ledger.take
    dsimp only
    split <;> exact h ha
  | pass env d code hc | passCloses env d code hc | passRaises env d code hc => exact h (by rw [hc]; rfl)
  | round env done hc =>
    dsimp only
    split <;> exact h (by rw [hc]; rfl)
  | startsNext env _ hc => exact h (by rw [hc]; rfl)
  | tearsDown | forwardsSignal | signalsForwarded | forwardsCancel | seesEmpty => cases hb
  | receives hc | sends hc | drops hc => simp only [Chain.send, hc, Stage.recvAlive, Bool.false_eq_true] at hb

theorem Carries.collects (h : Carries x c) (hc : c.stage.recvAlive = true) : c.Collects := by
  obtain ⟨t, m, hr⟩ := h
  revert hc
  induction hr with
  | refl => intro _; exact ⟨rfl, rfl, rfl, rfl⟩
  | tail _ hs ih => exact hs.collects ih

/-! ## From the teardown on -/

/-- What has been sent on since the teardown of `c₀`, and what is still to
be. -/
def Chain.Forwards (c₀ c : Chain) : Prop :=
  c.mail.lost = c₀.mail.held ∧ c.mail.dropped.filter Message.kept = [] ∧
    match c.stage with
    | .buffered _ rest =>
      c.next ++ rest.map .signal = c₀.interp.buffered.map .signal ∧ c.mail.forwarded = [] ∧ c.mail.held = [] ∧
        ∀ env, c.interp.carriedCancel env = c₀.interp.carriedCancel env
    | .cancel _ =>
      c.next = c₀.interp.buffered.map .signal ∧ c.mail.forwarded = [] ∧ c.mail.held = [] ∧
        ∀ env, c.interp.carriedCancel env = c₀.interp.carriedCancel env
    | .receiving _ =>
      ∃ env, c.next = c₀.interp.buffered.map .signal ++ c₀.interp.carriedCancel env ++ c.mail.forwarded
    | .handedOver _ =>
      (∃ env, c.next = c₀.interp.buffered.map .signal ++ c₀.interp.carriedCancel env ++ c.mail.forwarded) ∧
        c.mail.held = [] ∧ c.mail.inbox = []
    | .running _ | .closing | .tearing _ => False

theorem forwards_tornDown (h : c₀.Collects) (newRun : String) : c₀.Forwards (c₀.tornDown newRun) := by
  obtain ⟨hn, hf, hd, hl⟩ := h
  refine ⟨?_, ?_, ?_, hf, rfl, ?_⟩
  · simp [Chain.tornDown, Mail.Ledger.lose, hl]
  · simp [Chain.tornDown, Mail.Ledger.lose, hd]
  · simp [Chain.tornDown, hn]
  · intro env
    unfold Chain.tornDown Interp.tearDown Interp.awaitIf
    dsimp only
    split <;> rfl

theorem send_foldl (l : List Message) : ∀ (c : Chain) (n : String), (l.foldl (fun c m => c.send n m) c).next = c.next ++ l ∧
    (l.foldl (fun c m => c.send n m) c).mail = c.mail := by
  induction l with
  | nil => intro c n; simp
  | cons m l ih =>
    intro c n
    obtain ⟨h₁, h₂⟩ := ih (c.send n m) n
    rw [List.foldl_cons, h₁, h₂]
    exact ⟨by simp [Chain.send], rfl⟩

theorem CarryStep.forwards (hs : CarryStep x a b) (h : c₀.Forwards a) : c₀.Forwards b := by
  obtain ⟨hl, hd, h⟩ := h
  cases hs with
  | arrives m hne =>
    refine ⟨hl, hd, ?_⟩
    dsimp only
    cases hc : a.stage with
    | handedOver => rw [hc] at hne; cases hne
    | _ => rw [hc] at h; exact h
  | takes ha =>
    cases hc : a.stage with
    | running | closing | tearing => rw [hc] at h; exact h.elim
    | buffered | cancel | receiving | handedOver => rw [hc] at ha; cases ha
  | pass env d code hc | passCloses env d code hc | passRaises env d code hc | round env done hc | startsNext env _ hc
  | tearsDown hc =>
    rw [hc] at h
    exact h.elim
  | forwardsSignal hc =>
    rw [hc] at h
    obtain ⟨hn, hf, hh, hcan⟩ := h
    refine ⟨hl, hd, ?_, hf, hh, hcan⟩
    simpa [Chain.send] using hn
  | signalsForwarded hc =>
    rw [hc] at h
    obtain ⟨hn, hf, hh, hcan⟩ := h
    exact ⟨hl, hd, by simpa using hn, hf, hh, hcan⟩
  | forwardsCancel env hc =>
    rw [hc] at h
    obtain ⟨hn, hf, hh, hcan⟩ := h
    obtain ⟨h₁, h₂⟩ := send_foldl (a.interp.carriedCancel env) a _
    refine ⟨by rw [h₂]; exact hl, by rw [h₂]; exact hd, env, ?_⟩
    dsimp only
    rw [h₁, h₂, hn, hf, hcan, List.append_nil]
  | receives hc hh hi =>
    rw [hc] at h
    obtain ⟨env, hn⟩ := h
    simp only [Chain.Forwards, Mail.Ledger.take, hi, hc]
    exact ⟨hl, hd, env, hn⟩
  | sends hc hh hm =>
    rw [hc] at h
    obtain ⟨env, hn⟩ := h
    simp only [Chain.Forwards, Mail.Ledger.forward, Chain.send, hh, hc]
    exact ⟨hl, hd, env, by rw [hn, List.append_assoc]⟩
  | drops hc hh hm =>
    rw [hc] at h
    obtain ⟨env, hn⟩ := h
    simp only [Chain.Forwards, Mail.Ledger.drop, hh, hc]
    refine ⟨hl, ?_, env, hn⟩
    simp [List.filter_append, hd, Message.kept, hm]
  | seesEmpty hc hh hi =>
    rw [hc] at h
    exact ⟨hl, hd, h, hh, hi⟩

theorem CarryRun.forwards (hr : CarryRun x a b) (h : c₀.Forwards a) : c₀.Forwards b := by
  induction hr with
  | refl => exact h
  | tail _ hs ih => exact hs.forwards ih

/-! ## The hand-over -/

/-- No message is lost: each that matters is applied or buffered by this run
or sent to the next, once, and the next run gets what was buffered, the
request to cancel, and what was left. -/
def Chain.LosesNothing (c₀ c : Chain) : Prop :=
  (c.mail.arrived.filter Message.kept).Perm ((c.mail.delivered ++ c.mail.forwarded).filter Message.kept) ∧
    ∃ env, c.next = c₀.interp.buffered.map .signal ++ c₀.interp.carriedCancel env ++ c.mail.forwarded

/-- The receive task has consumed a message that matters, and no round has
delivered it. -/
def Chain.holdsMessage (c : Chain) : Bool := c.mail.held.any Message.kept

/-- **When continue-as-new loses no message**: exactly when the receive task
holds none at its teardown. -/
theorem carryover_iff {newRun : String} (h₀ : Carries x c₀) (ht : c₀.stage = .tearing newRun)
    (h : CarryRun x (c₀.tornDown newRun) c) (hc : c.stage = .handedOver newRun) :
    c₀.LosesNothing c ↔ c₀.holdsMessage = false := by
  have hb : c.mail.Balanced := h.balanced h₀.balanced.lose
  obtain ⟨hl, hd, hf⟩ := h.forwards (forwards_tornDown (h₀.collects (by rw [ht]; rfl)) newRun)
  rw [hc] at hf
  obtain ⟨hn, hh, hi⟩ := hf
  rw [Chain.LosesNothing, Mail.Ledger.kept_iff hb hi hh hd, hl, Chain.holdsMessage]
  simp only [hn, and_true, List.filter_eq_nil_iff, Bool.not_eq_true, List.any_eq_false]

/-! ## What a round delivers -/

theorem CarryStep.reachable (hs : CarryStep x a b) (h : ∀ p, a.stage = .running p → Reachable x ⟨p, a.interp⟩) :
    ∀ p, b.stage = .running p → Reachable x ⟨p, b.interp⟩ := by
  intro p hp
  cases hs with
  | arrives | takes => exact h p hp
  | pass env d code hc hs ht =>
    cases hp
    exact ht ▸ (h _ hc).step (.pass env d code hs)
  | round env done hc hf _ hs =>
    cases hp
    exact (h _ hc).step (.round env done hf hs)
  | passCloses | passRaises | startsNext | tearsDown | forwardsSignal | signalsForwarded | forwardsCancel | seesEmpty =>
    cases hp
  | receives hc | sends hc | drops hc => simp only [Chain.send, hc, reduceCtorEq] at hp

/-- The run of a chain is a run. -/
theorem Carries.reachable (h : Carries x c) {p : Phase} (hc : c.stage = .running p) : Reachable x ⟨p, c.interp⟩ := by
  obtain ⟨t, m, hr⟩ := h
  have : ∀ p, c.stage = .running p → Reachable x ⟨p, c.interp⟩ := by
    clear hc
    induction hr with
    | refl => intro p hp; cases hp; exact .start t m
    | tail _ hs ih => exact hs.reachable ih
  exact this p hc

theorem CarryStep.holdsOne (hs : CarryStep x a b) (h : a.mail.held.length ≤ 1) : b.mail.held.length ≤ 1 := by
  have htake : a.mail.held = [] → a.mail.take.held.length ≤ 1 := by
    intro hh
    unfold Mail.Ledger.take
    split <;> simp [hh]
  cases hs with
  | takes _ _ hh => exact htake hh
  | receives _ hh => exact htake hh
  | round => dsimp only; split <;> simp [Mail.Ledger.deliver, h]
  | tearsDown => simp [Chain.tornDown, Mail.Ledger.lose]
  | forwardsCancel env => dsimp only; rw [(send_foldl _ _ _).2]; exact h
  | sends _ hh => simp [Mail.Ledger.forward, hh]
  | drops _ hh => simp [Mail.Ledger.drop, hh]
  | arrives | pass | passCloses | passRaises | startsNext | forwardsSignal | signalsForwarded | seesEmpty => exact h

theorem Carries.holdsOne (h : Carries x c) : c.mail.held.length ≤ 1 := by
  obtain ⟨t, m, hr⟩ := h
  induction hr with
  | refl => simp [Chain.start]
  | tail _ hs ih => exact hs.holdsOne ih

/-- One receive task at most: what a round reports is what it says. -/
theorem reported_of_mem {s : Interp} {done : Done} {w : Waiter} {m : Option Message}
    (hi : s.waiters.Pairwise fun a b => a.kind = .inbox → b.kind ≠ .inbox) (hw : w ∈ s.waiters) (hk : w.kind = .inbox)
    (hd : done w.task = some (.message m)) : s.reported done = m.toList := by
  unfold Interp.reported
  revert hi hw
  induction s.waiters with
  | nil => intro _ hw; cases hw
  | cons v l ih =>
    intro hi hw
    rw [List.pairwise_cons] at hi
    rcases List.mem_cons.1 hw with rfl | hw
    · have hrest : (l.filterMap fun w => if w.kind = .inbox then
          match done w.task with
          | some (.message m) => m
          | _ => none
          else none) = [] := by
        rw [List.filterMap_eq_nil_iff]
        intro u hu
        rw [if_neg (hi.1 u hu hk)]
      rw [List.filterMap_cons, hrest]
      simp only [hk, if_true, hd]
      cases m <;> rfl
    · have hv : v.kind ≠ .inbox := fun hv => hi.1 w hw hv hk
      rw [List.filterMap_cons]
      simp only [hv, if_false]
      exact ih hi.2 hw

/-- **A round delivers what the receive task took**, once. -/
theorem Carries.delivers (h : Carries x c) (hc : c.stage = .running .waiting) {done : Done}
    (hm : ∀ w ∈ c.interp.waiters, w.kind = .inbox → ∀ r, done w.task = some r → r = .message c.mail.held.head?) :
    (if c.interp.reportsRecv done then c.mail.deliver else c.mail).delivered =
      c.mail.delivered ++ c.interp.reported done := by
  have hinbox := ((h.reachable hc).waits (by simp)).inv.inbox
  split
  · next hr =>
    obtain ⟨w, hw, hwk⟩ := List.any_eq_true.1 hr
    simp only [Bool.and_eq_true, decide_eq_true_eq] at hwk
    obtain ⟨r, hd⟩ := Option.isSome_iff_exists.1 hwk.2
    rw [hm w hw hwk.1 r hd] at hd
    have hone : c.mail.held.head?.toList = c.mail.held := by
      have := h.holdsOne
      match hh : c.mail.held with
      | [] => rfl
      | [_] => rfl
      | _ :: _ :: _ => rw [hh] at this; simp at this
    rw [reported_of_mem hinbox hw hwk.1 hd, hone]
    rfl
  · next hr =>
    have : c.interp.reported done = [] := by
      unfold Interp.reported
      rw [List.filterMap_eq_nil_iff]
      intro w hw
      split
      · next hk =>
        cases hd : done w.task with
        | none => rfl
        | some r => exact absurd (List.any_eq_true.2 ⟨w, hw, by simp [hk, hd]⟩) hr
      · rfl
    rw [this, List.append_nil]

/-! ## The hand-over goes through -/

theorem CarryRun.trans (h : CarryRun x a b) (h' : CarryRun x b c) : CarryRun x a c := by
  induction h' with
  | refl => exact h
  | tail _ hs ih => exact ih.tail hs

/-- What two chains share that a hand-over does not touch. -/
def Chain.SameBooks (a b : Chain) : Prop := b.mail.arrived = a.mail.arrived ∧ b.mail.delivered = a.mail.delivered

theorem receiving_completes {n : String} (l : List Message) : ∀ {a : Chain}, a.stage = .receiving n → a.mail.held = [] →
    a.mail.inbox = l → ∃ b, CarryRun x a b ∧ b.stage = .handedOver n ∧ a.SameBooks b ∧
      b.mail.forwarded = a.mail.forwarded ++ l.filter Message.kept := by
  induction l with
  | nil =>
    intro a hs hh hi
    exact ⟨_, (CarryRun.refl a).tail (.seesEmpty hs hh hi), rfl, ⟨rfl, rfl⟩, by simp⟩
  | cons m rest ih =>
    intro a hs hh hi
    have htake : a.mail.take = { a.mail with inbox := rest, held := [m] } := by simp [Mail.Ledger.take, hi, hh]
    have h₁ := (CarryRun.refl a).tail (CarryStep.receives (x := x) hs hh hi)
    rw [htake] at h₁
    cases hm : m.runScoped with
    | false =>
      have h₂ := h₁.tail (CarryStep.sends (x := x) (m := m) hs rfl hm)
      obtain ⟨b, hb, hst, hbooks, hf⟩ := ih (a := { ({ a with
          interp := a.interp.step (.recv 0), mail := { a.mail with inbox := rest, held := [m] } } : Chain).send n m with
        mail := Mail.Ledger.forward { a.mail with inbox := rest, held := [m] } }) hs rfl rfl
      refine ⟨b, h₂.trans hb, hst, hbooks, ?_⟩
      rw [hf]
      simp [Mail.Ledger.forward, Message.kept, hm]
    | true =>
      have h₂ := h₁.tail (CarryStep.drops (x := x) (m := m) hs rfl hm)
      obtain ⟨b, hb, hst, hbooks, hf⟩ := ih (a := { a with
        interp := a.interp.step (.recv 0)
        mail := Mail.Ledger.drop { a.mail with inbox := rest, held := [m] } }) hs rfl rfl
      refine ⟨b, h₂.trans hb, hst, hbooks, ?_⟩
      rw [hf]
      simp [Mail.Ledger.drop, Message.kept, hm]

/-- **A hand-over that nothing disturbs goes through**, and sends on what the
inbox holds. -/
theorem buffered_completes {n : String} (rest : List SignalEnvelope) : ∀ {a : Chain}, a.stage = .buffered n rest →
    a.mail.held = [] → ∃ b, CarryRun x a b ∧ b.stage = .handedOver n ∧ a.SameBooks b ∧
      b.mail.forwarded = a.mail.forwarded ++ a.mail.inbox.filter Message.kept := by
  induction rest with
  | nil =>
    intro a hs hh
    have h₁ := ((CarryRun.refl a).tail (CarryStep.signalsForwarded (x := x) hs)).tail
      (.forwardsCancel .calm (show _ = Stage.cancel n from rfl))
    have hmail := (send_foldl (Interp.carriedCancel .calm { a.interp with bufferedSignals := .empty })
      { a with stage := .cancel n, interp := { a.interp with bufferedSignals := .empty } } n).2
    obtain ⟨b, hb, hst, hbooks, hf⟩ := receiving_completes (x := x) (n := n) a.mail.inbox
      (a := { (Interp.carriedCancel .calm { a.interp with bufferedSignals := .empty }).foldl (fun c m => c.send n m)
        { a with stage := .cancel n, interp := { a.interp with bufferedSignals := .empty } } with
        stage := .receiving n }) rfl (by dsimp only; rw [hmail]; exact hh) (by dsimp only; rw [hmail])
    unfold Chain.SameBooks at hbooks
    dsimp only at hbooks hf
    rw [hmail] at hbooks hf
    exact ⟨b, h₁.trans hb, hst, hbooks, hf⟩
  | cons e rest ih =>
    intro a hs hh
    obtain ⟨b, hb, hst, hbooks, hf⟩ := ih (a := { a.send n (.signal e) with stage := .buffered n rest }) rfl hh
    exact ⟨b, ((CarryRun.refl a).tail (.forwardsSignal hs)).trans hb, hst, hbooks, hf⟩

/-! ## Two runs -/

/-- A timer fires, and the run continues as new while its receive task is
out. -/
theorem plain_continues : ∃ (s₁ s₂ s₃ s₄ : Interp) (can : ContinueAsNew) (n : String),
    (Interp.start 0).pass .plain .calm false (.asks [.createTimer 1]) = .ok (.wait, s₁) ∧
    s₁.fits [(0, .slept)] = true ∧
    s₁.waiters.all (fun w => !(w.kind = .inbox ∧ w.task = 0)) = true ∧
    s₁.round .plain .calm (.of [(0, .slept)]) = .ok s₂ ∧ s₂.receives = true ∧
    s₂.pass .plain .calm false (.asks [.primaryEnds (.continueAsNew {})]) = .ok (.close, s₃) ∧ s₃.receives = true ∧
    s₃.outcome = some (.continueAsNew can) ∧
    ((s₃.cancelInFlight .calm).sweepChildrenOnClose .calm).beginContinueAsNew .plain .calm can = .ok (n, s₄) := by
  have h : M.holds ((Interp.start 0).pass .plain .calm false (.asks [.createTimer 1])) (fun r₁ =>
      r₁.1.isWait && r₁.2.fits [(0, .slept)] && r₁.2.waiters.all (fun w => !(w.kind = .inbox ∧ w.task = 0)) &&
      M.holds (r₁.2.round .plain .calm (.of [(0, .slept)])) fun s₂ => s₂.receives &&
      M.holds (s₂.pass .plain .calm false (.asks [.primaryEnds (.continueAsNew {})])) fun r₃ =>
      r₃.1.isClose && r₃.2.receives && (r₃.2.outcome.bind Outcome.continuing).any fun can =>
      M.holds (((r₃.2.cancelInFlight .calm).sweepChildrenOnClose .calm).beginContinueAsNew .plain .calm can)
        fun _ => true) = true := by
    decide +kernel
  simp only [M.holds_iff, Bool.and_eq_true, Option.any_eq_true, Option.bind_eq_some_iff, Outcome.continuing_eq_some,
    Turn.isWait_iff, Turn.isClose_iff] at h
  obtain ⟨⟨t₁, s₁⟩, h₁, ⟨⟨rfl, hf⟩, hi⟩, s₂, h₂, hr, ⟨t₃, s₃⟩, h₃, ⟨rfl, hr'⟩, can, ⟨o, ho, rfl⟩, ⟨n, s₄⟩, h₄, -⟩ := h
  exact ⟨s₁, s₂, s₃, s₄, can, n, h₁, hf, hi, h₂, hr, h₃, hr', ho, h₄⟩

/-- The message of the runs below. -/
def goSignal : Message := .signal { name := "go", args := [] }

/-- The chain at its teardown: the message that arrived after the last round
was taken, or is still in the inbox. -/
theorem plain_tears (taken : Bool) : ∃ c₀ n, Carries .plain c₀ ∧ c₀.stage = .tearing n ∧
    c₀.mail.arrived = [goSignal] ∧ c₀.mail.delivered = [] ∧
    c₀.mail.held = (if taken then [goSignal] else []) ∧ c₀.mail.inbox = (if taken then [] else [goSignal]) := by
  obtain ⟨s₁, s₂, s₃, s₄, can, n, h₁, hf, hi, h₂, hr, h₃, -, ho, h₄⟩ := plain_continues
  let c₁ : Chain := { stage := .running .waiting, interp := s₁ }
  let c₂ : Chain := { stage := .running .draining, interp := s₂ }
  have hm : ∀ w ∈ s₁.waiters, w.kind = .inbox → ∀ r, Done.of [(0, .slept)] w.task = some r → r = .message none := by
    intro w hw hk r hd
    have hne := List.all_eq_true.1 hi w hw
    simp only [hk, true_and, Bool.not_eq_true', decide_eq_false_iff_not] at hne
    simp [Done.of, eq_comm, hne] at hd
  have hrep : s₁.reportsRecv (.of [(0, .slept)]) = false := by
    rw [Interp.reportsRecv, ← Bool.not_eq_true, List.any_eq_true]
    rintro ⟨w, hw, hwk⟩
    simp only [Bool.and_eq_true, decide_eq_true_eq] at hwk
    obtain ⟨r, hd⟩ := Option.isSome_iff_exists.1 hwk.2
    have hne := List.all_eq_true.1 hi w hw
    simp only [hwk.1, true_and, Bool.not_eq_true', decide_eq_false_iff_not] at hne
    simp [Done.of, eq_comm, hne] at hd
  have run₂ : CarryRun .plain (.start 0 .empty) c₂ := by
    refine .tail (.tail (.refl _) (.pass .calm false _ rfl h₁ rfl (.inr rfl))) ?_
    have := CarryStep.round (c := c₁) .calm _ rfl (Interp.fits_of hf) hm h₂
    rwa [if_neg (by simp [c₁, hrep])] at this
  have run₃ := run₂.tail (.arrives goSignal rfl)
  have close : ∀ {c : Chain}, CarryRun .plain (.start 0 .empty) c → c.stage = .running .draining → c.interp = s₂ →
      Carries .plain { c with stage := .tearing n, interp := s₄ } := by
    intro c hc hst hint
    exact ⟨0, .empty, (hc.tail (.passCloses .calm false _ hst (by rw [hint]; exact h₃) ho)).tail
      (.startsNext .calm rfl rfl ho h₄)⟩
  cases taken with
  | true => exact ⟨_, n, close (run₃.tail (.takes rfl hr rfl)) rfl rfl, rfl, rfl, rfl, rfl, rfl⟩
  | false => exact ⟨_, n, close run₃ rfl rfl, rfl, rfl, rfl, rfl, rfl⟩

/-- A signal that the receive task takes after the last round is in no
place. -/
theorem lateReceive_loses : ∃ (x : Execution) (c₀ c : Chain) (n : String), Carries x c₀ ∧ c₀.stage = .tearing n ∧
    CarryRun x (c₀.tornDown n) c ∧ c.stage = .handedOver n ∧ ¬ c₀.LosesNothing c := by
  obtain ⟨c₀, n, h₀, ht, ha, hd, -, hi⟩ := plain_tears true
  obtain ⟨c, hr, hst, ⟨ha', hd'⟩, hf⟩ := buffered_completes (x := .plain) (n := n) _ (a := c₀.tornDown n) rfl rfl
  refine ⟨.plain, c₀, c, n, h₀, ht, hr, hst, ?_⟩
  rintro ⟨hp, -⟩
  have hf₀ : c₀.mail.forwarded = [] := (h₀.collects (by rw [ht]; rfl)).2.1
  rw [ha', hd', hf] at hp
  simp only [Chain.tornDown, Mail.Ledger.lose, ha, hd, hf₀, hi] at hp
  exact absurd hp.length_eq (by decide)

/-- Left in the inbox, it is sent on. -/
theorem leftInInbox_forwarded : ∃ (c₀ c : Chain) (n : String), CarryRun .plain (c₀.tornDown n) c ∧
    c.stage = .handedOver n ∧ c₀.LosesNothing c := by
  obtain ⟨c₀, n, h₀, ht, -, -, hh, -⟩ := plain_tears false
  obtain ⟨c, hr, hst, -⟩ := buffered_completes (x := .plain) (n := n) _ (a := c₀.tornDown n) rfl rfl
  exact ⟨c₀, c, n, hr, hst, (carryover_iff h₀ ht hr hst).2 (by rw [Chain.holdsMessage, hh]; rfl)⟩

end Dbosify
