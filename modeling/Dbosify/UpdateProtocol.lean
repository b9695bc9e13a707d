/-
The update reply protocol.

An update is unseen, rejected, running, or its handler has ended, and its
course fixes which replies have been made and in which order (`UpdateCourse`). The
course of every update is kept by all the driver and user code do, for as
long as no exception escapes the loop (`Logged.onCourse`), and the close
answers the updates whose handlers still run.

A handler that calls continue-as-new is never answered, and a duplicate moves
the clock (`update_protocol`).
-/
import Dbosify.Carryover
import Dbosify.UpdateFrames

namespace Dbosify

open Py (Dict)

/-- The update a handler answers. -/
def Handler.updateId (h : Handler) : Option String :=
  match h.kind with
  | .update => h.id
  | .signal => none

/-! ## The ends of handlers -/

namespace Interp

/-- What the first step of a handler's task ends it with, if it does. -/
def startEnding (x : Execution) (s : Interp) (task : Nat) : Option Ending := do
  let h ← s.inflightHandlers.get? task
  let defn := match h.kind with
    | .signal => s.resolveSignal x h.name
    | .update => s.resolveUpdate x h.name
  match defn, h.kind with
  | some defn, _ =>
    if defn.accepts h.args.length then none else some (.raised (.other "TypeError" "wrong number of arguments"))
  | none, .signal => some (.returned .none)
  | none, .update => some (.raised (.other "AssertionError" ""))

/-- The update whose handler runs in a task. -/
def updateOf (s : Interp) (task : Nat) : Option String := (s.inflightHandlers.get? task).bind Handler.updateId

end Interp

/-- The handler's task a request ends, and how. -/
def UserOp.ending (x : Execution) (s : Interp) : UserOp → Option (Nat × Ending)
  | startHandler task => (s.startEnding x task).map (task, ·)
  | handlerEnds task e => some (task, e)
  | _ => none

/-- The update a request ends the handler of, and how. -/
def UserOp.updateEnd (x : Execution) (s : Interp) (o : UserOp) : Option (String × Ending) := do
  let (task, e) ← o.ending x s
  return (← s.updateOf task, e)

/-- The updates a drain ends the handlers of. -/
def Code.updateEnds (x : Execution) (s : Interp) : Code → List (String × Ending)
  | park => []
  | ask o k =>
    let s' := (o.run x s).state
    (o.updateEnd x s).toList ++ (k s').updateEnds x s'

/-- The runs of an execution, with the ends of its update handlers. -/
inductive Logged (x : Execution) : List (String × Ending) → Config → Prop
  | start (startTime : Seconds) (memo : Dict String Value) : Logged x [] ⟨.draining, .start startTime memo⟩
  | pass {log : List (String × Ending)} {s s' : Interp} {t : Turn} (env : Env) (deadlinePassed : Bool) (code : Code)
      (hl : Logged x log ⟨.draining, s⟩) (h : s.pass x env deadlinePassed code = .ok (t, s')) :
      Logged x (log ++ code.updateEnds x { s.suspend with ready := [] }) ⟨t.phase, s'⟩
  | passRaises {log : List (String × Ending)} {s : Interp} {r : Raised} (env : Env) (deadlinePassed : Bool) (code : Code)
      (hl : Logged x log ⟨.draining, s⟩) (h : s.pass x env deadlinePassed code = .error r) :
      Logged x (log ++ code.updateEnds x { s.suspend with ready := [] }) ⟨.closing (some r.exc), r.state⟩
  | round {log : List (String × Ending)} {s s' : Interp} (env : Env) (done : Done) (hl : Logged x log ⟨.waiting, s⟩)
      (hf : s.Fits done) (h : s.round x env done = .ok s') : Logged x log ⟨.draining, s'⟩
  | roundRaises {log : List (String × Ending)} {s : Interp} {r : Raised} (env : Env) (done : Done)
      (hl : Logged x log ⟨.waiting, s⟩) (hf : s.Fits done) (h : s.round x env done = .error r) :
      Logged x log ⟨.closing (some r.exc), r.state⟩

/-- Every run has a log. -/
theorem Reachable.logged {x : Execution} {c : Config} (h : Reachable x c) : ∃ log, Logged x log c := by
  induction h with
  | start t m => exact ⟨[], .start t m⟩
  | step _ hst ih =>
    obtain ⟨log, hl⟩ := ih
    cases hst with
    | pass env d code h => exact ⟨_, .pass env d code hl h⟩
    | passRaises env d code h => exact ⟨_, .passRaises env d code hl h⟩
    | round env done hf h => exact ⟨_, .round env done hl hf h⟩
    | roundRaises env done hf h => exact ⟨_, .roundRaises env done hl hf h⟩

/-- The `finally` block of a run, to its end: from the state the loop leaves
to the last the run is in. -/
inductive Closed (x : Execution) (s : Interp) : Interp → Prop
  | closes (env : Env) (h : x.closes s.outcome = true → ∀ can, s.outcome ≠ some (.continueAsNew can)) :
      Closed x s (s.closeRun x env)
  | continues {mail : Mail.Ledger Message} {c : Chain} {newRun : String}
      (h : CarryRun x { stage := .closing, interp := s, mail } c) (hc : c.stage = .handedOver newRun) :
      Closed x s c.interp.failAbandonedUpdates.announceGone

/-! ## The protocol -/

/-- At most one acceptance reply and at most one result reply for an update. -/
def RepliesOnce (replies : List (EventKey × ReplyStatus)) : Prop :=
  ∀ u, replies.countP (·.1 = .updateAcceptance u) ≤ 1 ∧ replies.countP (·.1 = .updateResult u) ≤ 1

/-- A result comes after the acceptance or rejection. -/
def ResultsFollow (replies : List (EventKey × ReplyStatus)) : Prop :=
  ∀ u pre st post, replies = pre ++ (.updateResult u, st) :: post → ∃ st', (.updateAcceptance u, st') ∈ pre

/-- An accepted update has its one result, unless its handler raised an error
that is no failure or continued as new; in the last case it has none. -/
def Answered (log : List (String × Ending)) (replies : List (EventKey × ReplyStatus)) : Prop :=
  ∀ u, (.updateAcceptance u, .accepted) ∈ replies →
    ((∀ e, (u, e) ∈ log → (Interp.replyOf e).isSome = true) → replies.countP (·.1 = .updateResult u) = 1) ∧
      ∀ can, (u, .continueAsNew can) ∈ log → replies.countP (·.1 = .updateResult u) = 0

/-! ## Courses -/

/-- How far an update can be: whether its id is seen, the replies made for it,
how many handlers run for it, and how they ended. -/
inductive UpdateCourse (u : String) : Bool → List (EventKey × ReplyStatus) → Nat → List Ending → Prop
  | unseen : UpdateCourse u false [] 0 []
  | rejected : UpdateCourse u true [(.updateAcceptance u, .rejected), (.updateResult u, .rejected)] 0 []
  | running : UpdateCourse u true [(.updateAcceptance u, .accepted)] 1 []
  | ended (e : Ending) :
      UpdateCourse u true ((.updateAcceptance u, .accepted) :: (Interp.replyOf e).toList.map fun r => (.updateResult u, r.status)) 0 [e]

theorem UpdateCourse.accepted_le {u : String} {b : Bool} {rs : List (EventKey × ReplyStatus)} {n : Nat} {es : List Ending}
    (h : UpdateCourse u b rs n es) : rs.countP (·.1 = .updateAcceptance u) ≤ 1 := by
  cases h with
  | ended e => cases hr : Interp.replyOf e <;> simp
  | unseen | rejected | running => simp

theorem UpdateCourse.result_le {u : String} {b : Bool} {rs : List (EventKey × ReplyStatus)} {n : Nat} {es : List Ending}
    (h : UpdateCourse u b rs n es) : rs.countP (·.1 = .updateResult u) + n ≤ 1 := by
  cases h with
  | ended e => cases hr : Interp.replyOf e <;> simp
  | unseen | rejected | running => simp

/-- A reply for this update. -/
def answers (u : String) (m : EventKey × ReplyStatus) : Bool := m.1 = .updateAcceptance u ∨ m.1 = .updateResult u

/-- How the handlers of an update ended. -/
def endingsOf (log : List (String × Ending)) (u : String) : List Ending :=
  log.filterMap fun e => if e.1 = u then some e.2 else none

namespace Interp

/-- The replies made for an update, published or not. -/
def repliesFor (s : Interp) (u : String) : List (EventKey × ReplyStatus) := (s.published ++ s.queued).filter (answers u)

/-- How many handlers run for an update. -/
def handlersFor (s : Interp) (u : String) : Nat := s.inflightHandlers.entries.countP fun e => e.2.updateId = some u

/-- The handlers' tasks have numbers of their own. -/
def HandlersFresh (s : Interp) : Prop := ∀ e ∈ s.inflightHandlers.entries, e.1 < s.nextTask

/-- Every update is on its course, and `ids` are seen. -/
structure OnCourse (log : List (String × Ending)) (ids : List String) (s : Interp) : Prop where
  fresh : s.HandlersFresh
  kept : ids ⊆ s.seenUpdateIds
  course : ∀ u, UpdateCourse u (s.seenUpdateIds.contains u) (s.repliesFor u) (s.handlersFor u) (endingsOf log u)

/-- What is left of it when an exception escapes. -/
structure Bounded (ids : List String) (s : Interp) : Prop where
  kept : ids ⊆ s.seenUpdateIds
  accepted : ∀ u, (s.repliesFor u).countP (·.1 = .updateAcceptance u) ≤ 1
  result : ∀ u, (s.repliesFor u).countP (·.1 = .updateResult u) + s.handlersFor u ≤ 1

variable {x : Execution} {env : Env} {log : List (String × Ending)} {ids : List String} {s s' : Interp}

/-! ## Handlers end -/

theorem startHandler_eq (x : Execution) (s : Interp) (t : Nat) :
    s.startHandler x t = ((s.startEnding x t).map (s.handlerEnds x t)).getD s := by
  unfold startHandler startEnding
  cases s.inflightHandlers.get? t with
  | none => rfl
  | some h =>
    have hstart : ∀ (defn : Option HandlerDefn) (e : Ending),
        ((defn.map fun defn => if defn.accepts h.args.length then s else
          s.handlerEnds x t (.raised (.other "TypeError" "wrong number of arguments"))).getD (s.handlerEnds x t e)) =
        ((match defn with
          | some defn => if defn.accepts h.args.length then none else some (.raised (.other "TypeError" "wrong number of arguments"))
          | none => some e : Option Ending).map (s.handlerEnds x t)).getD s := by
      intro defn e
      cases defn with
      | none => rfl
      | some defn => cases ha : defn.accepts h.args.length <;> simp [ha]
    cases hk : h.kind with
    | signal => 
      simp only [hk, Option.bind_some, Option.bind_eq_bind]
      rw [hstart]
      cases s.resolveSignal x h.name <;> rfl
    | update =>
      simp only [hk, Option.bind_some, Option.bind_eq_bind]
      rw [hstart]
      cases s.resolveUpdate x h.name <;> rfl

theorem ending_run {o : UserOp} {t : Nat} {e : Ending} (h : o.ending x s = some (t, e)) :
    (o.run x s).state = s.handlerEnds x t e := by
  cases o with
  | handlerEnds t' e' => cases h; rfl
  | startHandler t' =>
    obtain ⟨e', he, h⟩ := Option.map_eq_some_iff.1 h
    cases h
    rw [UserOp.run, M.state, startHandler_eq, he]
    rfl
  | _ => cases h

theorem ending_none {o : UserOp} (h : o.ending x s = none) : Silent s (o.run x s).state := by
  cases ho : o with
  | handlerEnds t' e' => rw [ho] at h; cases h
  | startHandler t' =>
    rw [ho] at h
    rw [UserOp.run, M.state, startHandler_eq, Option.map_eq_none_iff.1 h]
    exact (Quiet.refl s).silent
  | setHandler c n d => exact silent_setHandler s c n d
  | _ => exact (quiet_userOp s (fun c n d => by simp) (fun t => by simp) (fun t e => by simp)).silent

/-! ## Keeping the course -/

theorem Silent.fields (h : Silent s s') : s'.seenUpdateIds = s.seenUpdateIds ∧
    s'.inflightHandlers.entries = s.inflightHandlers.entries ∧ s'.queued = s.queued ∧ s'.published = s.published := by
  simpa only [updates, Updates.mk.injEq] using h.1

theorem Quiet.fields (h : Quiet s s') : s'.seenUpdateIds = s.seenUpdateIds ∧
    s'.inflightHandlers.entries = s.inflightHandlers.entries ∧ s'.queued = s.queued ∧ s'.published = s.published :=
  h.silent.fields

theorem OnCourse.silent (h : OnCourse log ids s) (hq : Silent s s') : OnCourse log ids s' := by
  obtain ⟨hseen, hlive, hqueued, hpub⟩ := hq.fields
  refine ⟨fun e he => ?_, hseen ▸ h.kept, fun u => ?_⟩
  · rw [hlive] at he
    exact (h.fresh e he).trans_le hq.2
  · rw [repliesFor, handlersFor, hseen, hlive, hqueued, hpub]
    exact h.course u

theorem OnCourse.quiet (h : OnCourse log ids s) (hq : Quiet s s') : OnCourse log ids s' := h.silent hq.silent

theorem OnCourse.bounded (h : OnCourse log ids s) : Bounded ids s where
  kept := h.kept
  accepted u := (h.course u).accepted_le
  result u := (h.course u).result_le

theorem Bounded.quiet (h : Bounded ids s) (hq : Quiet s s') : Bounded ids s' := by
  obtain ⟨hseen, hlive, hqueued, hpub⟩ := hq.fields
  have hrep : s'.repliesFor = s.repliesFor := by unfold repliesFor; rw [hqueued, hpub]
  have hhand : s'.handlersFor = s.handlersFor := by unfold handlersFor; rw [hlive]
  exact ⟨hseen ▸ h.kept, hrep ▸ h.accepted, by rw [hrep, hhand]; exact h.result⟩

/-- A reply for no update changes no course. -/
theorem OnCourse.reply_other (h : OnCourse log ids s) {key : EventKey} {r : Reply}
    (hk : ∀ u, answers u (key, r.status) = false) : OnCourse log ids (s.reply key r) where
  fresh := h.fresh
  kept := h.kept
  course u := by
    have hrep : (s.reply key r).repliesFor u = s.repliesFor u := by
      simp [repliesFor, reply, queued, published, acts, List.filter_append, hk]
    rw [hrep]
    exact h.course u

theorem repliesFor_reply (s : Interp) (u : String) (key : EventKey) (r : Reply) :
    (s.reply key r).repliesFor u = s.repliesFor u ++ [(key, r.status)].filter (answers u) := by
  simp [repliesFor, reply, queued, published, acts, List.filter_append]

theorem answers_result (u v : String) (st : ReplyStatus) : answers u (.updateResult v, st) = decide (v = u) := by
  simp [answers]

theorem answers_acceptance (u v : String) (st : ReplyStatus) : answers u (.updateAcceptance v, st) = decide (v = u) := by
  simp [answers]

/-- A task that ends takes its handler off the list. -/
theorem handlersFor_pop {t : Nat} {h : Handler} (hg : s.inflightHandlers.get? t = some h) (u : String) :
    s.handlersFor u = { s with inflightHandlers := s.inflightHandlers.pop t }.handlersFor u +
      if h.updateId = some u then 1 else 0 := by
  rw [handlersFor, (Dict.perm_pop hg).countP_eq, List.countP_cons]
  simp [handlersFor]

theorem endingsOf_append (log log' : List (String × Ending)) (u : String) :
    endingsOf (log ++ log') u = endingsOf log u ++ endingsOf log' u := List.filterMap_append

theorem endingsOf_singleton (u v : String) (e : Ending) : endingsOf [(v, e)] u = if v = u then [e] else [] := by
  by_cases h : v = u <;> simp [endingsOf, h]

/-- A handler that answers no update takes no part in the protocol. -/
theorem OnCourse.pop_other (h : OnCourse log ids s) {t : Nat} {hd : Handler} (hg : s.inflightHandlers.get? t = some hd)
    (hu : hd.updateId = none) : OnCourse log ids { s with inflightHandlers := s.inflightHandlers.pop t } where
  fresh e he := h.fresh e (List.mem_of_mem_filter he)
  kept := h.kept
  course u := by
    have hn := handlersFor_pop hg u
    rw [hu, if_neg (by simp), Nat.add_zero] at hn
    exact hn ▸ h.course u

/-- The handler of an update ends: it was running, and now has its result if
it makes one. -/
theorem OnCourse.pop_update (h : OnCourse log ids s) {t : Nat} {hd : Handler} {u : String} (e : Ending)
    (hg : s.inflightHandlers.get? t = some hd) (hu : hd.updateId = some u) :
    OnCourse (log ++ [(u, e)]) ids ((replyOf e).elim { s with inflightHandlers := s.inflightHandlers.pop t }
      (Interp.reply { s with inflightHandlers := s.inflightHandlers.pop t } (.updateResult u))) := by
  generalize hs : ({ s with inflightHandlers := s.inflightHandlers.pop t } : Interp) = s₁
  have hfresh : s₁.HandlersFresh := by
    rw [← hs]
    exact fun e he => h.fresh e (List.mem_of_mem_filter he)
  have hrep : ∀ v, s₁.repliesFor v = s.repliesFor v := by rw [← hs]; exact fun v => rfl
  have hseen : s₁.seenUpdateIds = s.seenUpdateIds := by rw [← hs]
  have hcount : ∀ v, s.handlersFor v = s₁.handlersFor v + if u = v then 1 else 0 := by
    intro v
    rw [handlersFor_pop hg v, hs, hu]
    simp
  -- What the reply adds, if there is one.
  have key : ∀ s₂ : Interp, s₂.inflightHandlers = s₁.inflightHandlers → s₂.nextTask = s₁.nextTask →
      s₂.seenUpdateIds = s₁.seenUpdateIds →
      (∀ v, s₂.repliesFor v = s₁.repliesFor v ++ if u = v then (replyOf e).toList.map fun r => (.updateResult u, r.status) else []) →
      OnCourse (log ++ [(u, e)]) ids s₂ := by
    intro s₂ hi hn hs₂ hr
    refine ⟨by rw [HandlersFresh, hi, hn]; exact hfresh, by rw [hs₂, hseen]; exact h.kept, fun v => ?_⟩
    have hc := h.course v
    have hh : s₂.handlersFor v = s₁.handlersFor v := by rw [handlersFor, hi, handlersFor]
    rw [hs₂, hseen, hr, hrep, hh, endingsOf_append, endingsOf_singleton]
    rw [hcount v] at hc
    by_cases hv : u = v
    · subst hv
      simp only [if_true] at hc ⊢
      generalize s.seenUpdateIds.contains u = b at hc
      generalize s.repliesFor u = rs at hc
      generalize s₁.handlersFor u = n at hc
      generalize endingsOf log u = es at hc
      cases hc with
      | running => exact .ended e
    · simpa [hv] using hc
  cases hr : replyOf e with
  | none => exact key s₁ rfl rfl rfl fun v => by simp [hr]
  | some r =>
    refine key _ rfl rfl rfl fun v => ?_
    rw [Option.elim_some, repliesFor_reply, hr]
    by_cases hv : u = v <;> simp [answers_result, hv]

theorem handlerEnds_other {t : Nat} {hd : Handler} {e : Ending} (hg : s.inflightHandlers.get? t = some hd)
    (hu : hd.updateId = none) : Quiet { s with inflightHandlers := s.inflightHandlers.pop t } (s.handlerEnds x t e) := by
  unfold handlerEnds
  rw [hg]
  dsimp only
  split
  · exact quiet_setOutcome _ _
  · next hk hi _ => simp [Handler.updateId, hk, hi] at hu
  · exact quiet_recordWorkflowError x _ _
  · exact .refl _

theorem handlerEnds_update {t : Nat} {hd : Handler} {e : Ending} {u : String} (hg : s.inflightHandlers.get? t = some hd)
    (hu : hd.updateId = some u) :
    Quiet ((replyOf e).elim { s with inflightHandlers := s.inflightHandlers.pop t }
      (Interp.reply { s with inflightHandlers := s.inflightHandlers.pop t } (.updateResult u))) (s.handlerEnds x t e) := by
  have hk : hd.kind = .update ∧ hd.id = some u := by
    unfold Handler.updateId at hu
    split at hu
    · next hk => exact ⟨hk, hu⟩
    · cases hu
  unfold handlerEnds
  rw [hg]
  dsimp only
  rw [hk.1, hk.2]
  cases e with
  | continueAsNew can => exact quiet_setOutcome _ _
  | returned v => exact .refl _
  | raised e =>
    dsimp only
    cases replyOf (.raised e) with
    | some r => exact .refl _
    | none => exact quiet_recordWorkflowError x _ _

theorem OnCourse.handlerEnds (h : OnCourse log ids s) (t : Nat) (e : Ending) :
    OnCourse (log ++ ((s.updateOf t).map (·, e)).toList) ids (s.handlerEnds x t e) := by
  cases hg : s.inflightHandlers.get? t with
  | none => simpa [Interp.handlerEnds, updateOf, hg] using h
  | some hd =>
    cases hu : hd.updateId with
    | none =>
      simp only [updateOf, hg, hu, Option.bind_some, Option.map_none, Option.toList_none, List.append_nil]
      exact (h.pop_other hg hu).quiet (handlerEnds_other hg hu)
    | some u =>
      simp only [updateOf, hg, hu, Option.bind_some, Option.map_some, Option.toList_some]
      exact (h.pop_update e hg hu).quiet (handlerEnds_update hg hu)

/-- What a request does to the courses. -/
theorem OnCourse.userOp (h : OnCourse log ids s) (o : UserOp) :
    OnCourse (log ++ (o.updateEnd x s).toList) ids (o.run x s).state := by
  unfold UserOp.updateEnd
  cases he : o.ending x s with
  | none => simpa using h.silent (ending_none he)
  | some te =>
    rw [ending_run he]
    have := h.handlerEnds (x := x) te.1 te.2
    cases hu : s.updateOf te.1 <;> simpa [hu] using this

/-- **A drain keeps every update on its course.** -/
theorem OnCourse.drain (code : Code) : ∀ {log : List (String × Ending)} {s : Interp}, OnCourse log ids s →
    OnCourse (log ++ code.updateEnds x s) ids (code.drain x s) := by
  induction code with
  | park => intro log s h; simpa [Code.updateEnds, Code.drain] using h
  | ask o k ih =>
    intro log s h
    rw [Code.updateEnds, ← List.append_assoc]
    exact ih _ (h.userOp o)

/-! ## Pieces that may raise -/

/-- A piece that keeps every update on its course, or raises. -/
def KeepsCourse {α : Type} (log : List (String × Ending)) (ids : List String) (state : α → Interp) (m : M α) : Prop :=
  match m with
  | .ok a => OnCourse log ids (state a)
  | .error r => Bounded ids r.state

namespace KeepsCourse

variable {α β : Type} {f : α → Interp} {g : β → Interp} {m : M α}

theorem ok {a : α} (h : OnCourse log ids (f a)) : KeepsCourse log ids f (.ok a) := h

theorem of_quietly (h : OnCourse log ids s) (hm : Along Quiet s f m) : KeepsCourse log ids f m := by
  cases m with
  | ok a => exact h.quiet hm
  | error r => exact h.bounded.quiet hm

theorem bind {k : α → M β} (h : KeepsCourse log ids f m) (hk : ∀ a, OnCourse log ids (f a) → KeepsCourse log ids g (k a)) :
    KeepsCourse log ids g (m >>= k) := by
  cases m with
  | ok a => exact hk a h
  | error r => exact h

theorem foldlM {γ : Type} {k : Interp → γ → M Interp}
    (hk : ∀ {s} a, OnCourse log ids s → KeepsCourse log ids id (k s a)) (l : List γ) :
    ∀ {s}, OnCourse log ids s → KeepsCourse log ids id (l.foldlM k s) := by
  induction l with
  | nil => exact fun h => ok h
  | cons a l ih =>
    intro s h
    rw [List.foldlM_cons]
    exact bind (hk a h) fun s₁ h₁ => ih h₁

end KeepsCourse

/-! ## Messages -/

theorem HandlersFresh.entries_spawn (h : s.HandlersFresh) (hd : Handler) :
    (s.spawnHandler hd).inflightHandlers.entries = s.inflightHandlers.entries ++ [(s.nextTask, hd)] := by
  refine Dict.entries_set_of_none ?_ hd
  cases hg : s.inflightHandlers.get? s.nextTask with
  | none => rfl
  | some hd' => exact absurd (h _ (Dict.mem_entries_iff.2 hg)) (lt_irrefl _)

theorem HandlersFresh.spawn (h : s.HandlersFresh) (hd : Handler) : (s.spawnHandler hd).HandlersFresh := by
  intro e he
  rw [h.entries_spawn, List.mem_append, List.mem_singleton] at he
  rcases he with he | rfl
  · exact Nat.lt_succ_of_lt (h e he)
  · exact Nat.lt_succ_self _

theorem HandlersFresh.handlersFor_spawn (h : s.HandlersFresh) (hd : Handler) (u : String) :
    (s.spawnHandler hd).handlersFor u = s.handlersFor u + if hd.updateId = some u then 1 else 0 := by
  rw [handlersFor, h.entries_spawn, List.countP_append, handlersFor]
  simp [List.countP_cons]

theorem OnCourse.spawn_other (h : OnCourse log ids s) {hd : Handler} (hu : hd.updateId = none) :
    OnCourse log ids (s.spawnHandler hd) where
  fresh := h.fresh.spawn hd
  kept := h.kept
  course u := by
    rw [h.fresh.handlersFor_spawn, hu, if_neg (by simp), Nat.add_zero]
    exact h.course u

theorem keeps_applySignal (e : SignalEnvelope) (h : OnCourse log ids s) : KeepsCourse log ids id (s.applySignal x env e) := by
  unfold applySignal
  split
  · exact .ok (h.silent ⟨rfl, le_rfl⟩)
  · next defn _ =>
    have hargs : Along Quiet _ _ (s.decodeMessageArgs env (some defn) e.name e.args) := along_decodeMessageArgs
    split
    · next r he => exact .ok (h.quiet (hargs.of_error he))
    · next args s₁ he =>
      have h₁ := h.quiet (hargs.of_ok he)
      refine (KeepsCourse.of_quietly h₁ along_decodeMessageHeaders).bind fun a ha => ?_
      exact .ok (ha.spawn_other rfl)

/-- A duplicate changes nothing. -/
theorem applyUpdate_seen {e : UpdateEnvelope} {args : List Value} (h : e.updateId ∈ s.seenUpdateIds) :
    s.applyUpdate x env e args = .ok s := by
  rw [applyUpdate, if_pos (by simpa using h)]

/-- An update seen for the first time has done nothing yet. -/
theorem OnCourse.first (h : OnCourse log ids s) {u : String} (hu : u ∉ s.seenUpdateIds) :
    s.repliesFor u = [] ∧ s.handlersFor u = 0 ∧ endingsOf log u = [] := by
  have hc := h.course u
  rw [show s.seenUpdateIds.contains u = false by simpa using hu] at hc
  generalize s.repliesFor u = rs at hc ⊢
  generalize s.handlersFor u = n at hc ⊢
  generalize endingsOf log u = es at hc ⊢
  cases hc
  exact ⟨rfl, rfl, rfl⟩

/-- An update that is taken in goes on a course of its own. -/
theorem OnCourse.admit (h : OnCourse log ids s) {u : String} {rs : List (EventKey × ReplyStatus)} {n : Nat}
    (hu : u ∉ s.seenUpdateIds) (hc : UpdateCourse u true rs n []) (hf : s'.HandlersFresh)
    (hs : s'.seenUpdateIds = s.seenUpdateIds ++ [u])
    (hr : ∀ v, s'.repliesFor v = s.repliesFor v ++ if u = v then rs else [])
    (hn : ∀ v, s'.handlersFor v = s.handlersFor v + if u = v then n else 0) : OnCourse log ids s' where
  fresh := hf
  kept := by
    rw [hs]
    exact List.Subset.trans h.kept (List.subset_append_left _ _)
  course v := by
    rw [hs, hr, hn]
    by_cases hv : u = v
    · subst hv
      obtain ⟨h₁, h₂, h₃⟩ := h.first hu
      simpa [h₁, h₂, h₃] using hc
    · have hcontains : (s.seenUpdateIds ++ [u]).contains v = s.seenUpdateIds.contains v := by
        simp [Ne.symm hv]
      rw [hcontains]
      simpa [hv] using h.course v

/-- The state an update is refused or accepted in: it is seen, and nothing
else has happened to the protocol. -/
def Admits (s : Interp) (u : String) (s₁ : Interp) : Prop := Quiet { s with seenUpdateIds := s.seenUpdateIds ++ [u] } s₁

variable {s₁ : Interp}

theorem Admits.fields {u : String} (h : Admits s u s₁) : s₁.seenUpdateIds = s.seenUpdateIds ++ [u] ∧
    (∀ v, s₁.repliesFor v = s.repliesFor v) ∧ ∀ v, s₁.handlersFor v = s.handlersFor v := by
  obtain ⟨hseen, hlive, hqueued, hpub⟩ := Quiet.fields h
  refine ⟨hseen, fun v => ?_, fun v => ?_⟩
  · rw [repliesFor, hqueued, hpub]
    rfl
  · rw [handlersFor, hlive]
    rfl

theorem Admits.fresh {u : String} (h : Admits s u s₁) (hf : s.HandlersFresh) : s₁.HandlersFresh := by
  intro e he
  rw [(Quiet.fields h).2.1] at he
  exact (hf e he).trans_le h.2

theorem OnCourse.admitted (h : OnCourse log ids s) {u : String} (ha : Admits s u s₁) : Bounded ids s₁ := by
  obtain ⟨hseen, hrep, hhand⟩ := ha.fields
  have hb := h.bounded
  refine ⟨?_, fun v => hrep v ▸ hb.accepted v, fun v => ?_⟩
  · rw [hseen]
    exact List.Subset.trans h.kept (List.subset_append_left _ _)
  · rw [hrep, hhand]
    exact hb.result v

theorem OnCourse.reject (h : OnCourse log ids s) {u : String} (hu : u ∉ s.seenUpdateIds) (ha : Admits s u s₁)
    (f : FailureEnvelope) : OnCourse log ids
      ((s₁.reply (.updateAcceptance u) ⟨.rejected, .inr f⟩).reply (.updateResult u) ⟨.rejected, .inr f⟩) := by
  obtain ⟨hseen, hrep, hhand⟩ := ha.fields
  refine h.admit hu .rejected (ha.fresh h.fresh) hseen (fun v => ?_) (fun v => ?_)
  · rw [repliesFor_reply, repliesFor_reply, hrep]
    by_cases hv : u = v <;> simp [answers_result, answers_acceptance, hv]
  · show s₁.handlersFor v = _
    rw [hhand]
    simp

theorem OnCourse.accept (h : OnCourse log ids s) {u : String} (hu : u ∉ s.seenUpdateIds) (ha : Admits s u s₁)
    {hd : Handler} (hid : hd.updateId = some u) : OnCourse log ids
      ((s₁.reply (.updateAcceptance u) ⟨.accepted, .inl .none⟩).spawnHandler hd) := by
  obtain ⟨hseen, hrep, hhand⟩ := ha.fields
  have hf : (s₁.reply (.updateAcceptance u) ⟨.accepted, .inl .none⟩).HandlersFresh := ha.fresh h.fresh
  refine h.admit hu .running (hf.spawn hd) hseen (fun v => ?_) (fun v => ?_)
  · show (s₁.reply (.updateAcceptance u) ⟨.accepted, .inl .none⟩).repliesFor v = _
    rw [repliesFor_reply, hrep]
    by_cases hv : u = v <;> simp [answers_acceptance, hv]
  · rw [hf.handlersFor_spawn, hid]
    show s₁.handlersFor v + _ = _
    rw [hhand]
    simp

theorem keeps_applyUpdate (e : UpdateEnvelope) (args : List Value) (h : OnCourse log ids s) :
    KeepsCourse log ids id (s.applyUpdate x env e args) := by
  by_cases hu : e.updateId ∈ s.seenUpdateIds
  · rw [applyUpdate_seen hu]
    exact .ok h
  · have hseen : Admits s e.updateId { s with seenUpdateIds := s.seenUpdateIds ++ [e.updateId] } := Quiet.refl _
    unfold applyUpdate
    rw [if_neg (by simpa using hu)]
    dsimp only
    split
    · exact .ok (h.reject hu hseen _)
    · next defn _ =>
      generalize ({ s with seenUpdateIds := s.seenUpdateIds ++ [e.updateId] } : Interp) = s₁ at hseen
      have hheaders : Along Quiet _ _ (s₁.decodeMessageHeaders env e.headers) := along_decodeMessageHeaders
      cases hd : s₁.decodeMessageHeaders env e.headers with
      | error r => exact h.admitted (hseen.trans (hheaders.of_error hd))
      | ok a =>
        obtain ⟨headers, s₂⟩ := a
        have h₂ : Admits s e.updateId (if defn.hasValidator then s₂.step (.validateUpdate e.updateId) else s₂) := by
          refine hseen.trans ((hheaders.of_ok hd).trans ?_)
          split
          · exact .step rfl _
          · exact .refl _
        rw [ok_bind]
        dsimp only
        split
        · exact .ok (h.reject hu h₂ _)
        · exact .ok (h.accept hu h₂ rfl)

theorem keeps_applyQuery (e : QueryEnvelope) (args : List Value) (h : OnCourse log ids s) :
    OnCourse log ids (s.applyQuery x env e args) := by
  have hanswer : ∀ {s₁ : Interp} (r : Reply), OnCourse log ids s₁ → OnCourse log ids (s₁.reply (.queryResult e.requestId) r) :=
    fun r h₁ => h₁.reply_other fun u => rfl
  unfold applyQuery
  dsimp only
  split
  · exact hanswer _ h
  · have hheaders : Along Quiet _ _ (s.decodeMessageHeaders env e.headers) := along_decodeMessageHeaders
    split
    · next r he => exact hanswer _ (h.quiet (hheaders.of_error he))
    · next a s₁ he =>
      have h₁ := h.quiet (hheaders.of_ok he)
      split
      · split <;> exact hanswer _ h₁
      · exact hanswer _ h₁

theorem keeps_inbox (m : Option Message) (h : OnCourse log ids s) : KeepsCourse log ids id (s.deliverInbox x env m) := by
  unfold deliverInbox
  cases m with
  | none => exact .ok h
  | some m =>
    have h₁ := h.quiet (frame_advanceTime s m.sentAt)
    cases m with
    | signal e => exact keeps_applySignal e h₁
    | update e =>
      exact (KeepsCourse.of_quietly h₁ along_decodeMessageArgs).bind fun a ha => keeps_applyUpdate e a.1 ha
    | query e =>
      exact (KeepsCourse.of_quietly h₁ along_decodeMessageArgs).bind fun a ha => .ok (keeps_applyQuery e a.1 ha)
    | activityResult i c t => exact .of_quietly h₁ (along_activityResult fun _ _ _ => trivial)
    | activityHeartbeat i ds t => exact .of_quietly h₁ (along_activityHeartbeat fun _ _ _ => trivial)
    | cancel reason t =>
      refine .ok (h₁.quiet ?_)
      unfold applyCancel
      split
      · exact .refl _
      · dsimp only
        split <;> exact ⟨rfl, le_rfl⟩
    | rehydrateStop t => exact .ok (h₁.quiet ⟨rfl, le_rfl⟩)
    | unknown k t => exact .ok h₁
    | malformed => exact .ok h₁

/-! ## Rounds -/

theorem keeps_event (w : Waiter) (r : TaskResult) (h : OnCourse log ids s) :
    KeepsCourse log ids id (s.deliverEvent x env w r) := by
  unfold deliverEvent
  split
  · split
    · exact keeps_inbox _ h
    · exact .of_quietly h (.raises _)
    · exact .of_quietly h (.raises _)
  · exact .ok (h.quiet (frame_deliverTimer s _))
  · exact .of_quietly h (along_activityEvent trivial)
  · exact .of_quietly h (along_queuedActivityEvent trivial)
  · exact .of_quietly h (along_parkTimeout trivial)
  · exact .of_quietly h (along_heartbeatCheck trivial)
  · exact .of_quietly h along_childEvent

/-- **A round keeps every update on its course.** -/
theorem keeps_round (x : Execution) (env : Env) (done : Done) (h : OnCourse log ids s) : KeepsCourse log ids id (s.round x env done) := by
  refine KeepsCourse.foldlM (fun {s} w h => ?_) _ (h.quiet (.step rfl s))
  unfold deliverWaiter
  split
  · exact .ok h
  · exact (KeepsCourse.of_quietly h (along_removeWaiter w)).bind fun s₁ h₁ => keeps_event w _ h₁

/-! ## Passes -/

theorem keeps_flushSignals (h : OnCourse log ids s) : KeepsCourse log ids (·.2) (s.flushPendingHandlerSignals x env) := by
  unfold flushPendingHandlerSignals
  split
  · exact .ok h
  · have h₁ : OnCourse log ids { s with pendingHandlerFlush := [] } := h.silent ⟨rfl, le_rfl⟩
    exact (KeepsCourse.foldlM (fun e h => keeps_applySignal e h) s.pendingHandlerFlush h₁).bind fun s₂ h₂ => .ok h₂

/-- What the flush has published of the outbox, when it is done or raises. -/
structure Flushes (s : Interp) (l : List (EventKey × ReplyStatus)) (s' : Interp) : Prop where
  seen : s'.seenUpdateIds = s.seenUpdateIds
  live : s'.inflightHandlers = s.inflightHandlers
  numbered : s'.nextTask = s.nextTask
  empty : s'.outbox = s.outbox
  published : s'.published = s.published ++ l

theorem Flushes.trans {l l' : List (EventKey × ReplyStatus)} {s₁ : Interp} (h : Flushes s l s₁) (h' : Flushes s₁ l' s') :
    Flushes s (l ++ l') s' where
  seen := h'.seen.trans h.seen
  live := h'.live.trans h.live
  numbered := h'.numbered.trans h.numbered
  empty := h'.empty.trans h.empty
  published := by rw [h'.published, h.published, List.append_assoc]

theorem flushes_emit (s : Interp) (a : Coop.Act Op) : Flushes s (actPublished a).toList (s.emit a) :=
  ⟨rfl, rfl, rfl, rfl, published_emit s a⟩

theorem flushes_reply (e : EventKey × Reply) : (match s.flushReply env e with
    | .ok s' => Flushes s [(e.1, e.2.status)] s'
    | .error r => Flushes s [] r.state) := by
  unfold flushReply
  cases e.2.body with
  | inr f => exact flushes_emit s (.step (.setEvent e.1 (.reply e.2.status (.inr f))))
  | inl v =>
    dsimp only
    cases encodeValue env.converter v with
    | ok p =>
      exact (flushes_emit s .await).trans
        (flushes_emit s.await (.step (.setEvent e.1 (.reply e.2.status (.inl p)))))
    | error c => exact flushes_emit s .await

/-- The flush publishes the outbox in order, as far as it comes. -/
theorem flushes_all (l : List (EventKey × Reply)) : ∀ s : Interp, (match l.foldlM (flushReply env) s with
    | .ok s' => Flushes s (l.map fun e => (e.1, e.2.status)) s'
    | .error r => ∃ l', l' <+: l.map (fun e => (e.1, e.2.status)) ∧ Flushes s l' r.state) := by
  induction l with
  | nil => exact fun s => ⟨rfl, rfl, rfl, rfl, (List.append_nil _).symm⟩
  | cons e l ih =>
    intro s
    have hf := @flushes_reply env s e
    rw [List.foldlM_cons]
    cases hr : s.flushReply env e with
    | error r =>
      rw [hr] at hf
      exact ⟨[], List.nil_prefix, hf⟩
    | ok s₁ =>
      rw [hr] at hf
      rw [ok_bind]
      have := ih s₁
      cases hl : l.foldlM (flushReply env) s₁ with
      | ok s₂ =>
        rw [hl] at this
        exact hf.trans this
      | error r =>
        rw [hl] at this
        obtain ⟨l', hl', hr'⟩ := this
        exact ⟨(e.1, e.2.status) :: l', List.cons_prefix_cons.2 ⟨rfl, hl'⟩, hf.trans hr'⟩

theorem keeps_flushOutbox (h : OnCourse log ids s) : KeepsCourse log ids id (s.flushOutbox env) := by
  have hall := @flushes_all env s.outbox { s with outbox := [] }
  unfold flushOutbox
  cases hf : s.outbox.foldlM (flushReply env) { s with outbox := [] } with
  | ok s' =>
    rw [hf] at hall
    have hrep : ∀ u, s'.repliesFor u = s.repliesFor u := by
      intro u
      rw [repliesFor, hall.published, queued, hall.empty]
      simp [repliesFor, queued, published, acts]
    refine ⟨?_, hall.seen ▸ h.kept, fun u => ?_⟩
    · rw [id, HandlersFresh, hall.live, hall.numbered]
      exact h.fresh
    · rw [id, hrep, handlersFor, hall.live, hall.seen]
      exact h.course u
  | error r =>
    rw [hf] at hall
    obtain ⟨l, hl, hall⟩ := hall
    have hrep : ∀ u, (r.state.repliesFor u).Sublist (s.repliesFor u) := by
      intro u
      rw [repliesFor, hall.published, queued, hall.empty, repliesFor]
      refine List.Sublist.filter _ ?_
      rw [List.map_nil, List.append_nil]
      exact (hl.sublist).append_left _
    have hb := h.bounded
    refine ⟨hall.seen ▸ hb.kept, fun u => ((hrep u).countP_le).trans (hb.accepted u), fun u => ?_⟩
    have hle := (hrep u).countP_le (p := fun m => decide (m.1 = EventKey.updateResult u))
    have hr := hb.result u
    have hh : r.state.handlersFor u = s.handlersFor u := by rw [handlersFor, hall.live]; rfl
    omega

theorem keeps_settle {d : Bool} (h : OnCourse log ids s) : KeepsCourse log ids (·.2) (s.settle x env d) := by
  have hflush : KeepsCourse log ids (fun a : Turn × Interp => a.2) (do
      let s ← s.flushOutbox env
      if s.leaves x d then .ok (.close, s) else .ok (.wait, (s.ensureInboxWaiter x).suspend)) := by
    refine (keeps_flushOutbox h).bind fun s₁ h₁ => ?_
    split
    · exact .ok h₁
    · exact .ok (h₁.quiet (Quiet.trans (frame_ensureInboxWaiter x s₁) (Frame.suspend _)))
  unfold settle
  split
  · exact .ok h
  · exact hflush

/-- **A pass keeps every update on its course**, with the ends its drain makes. -/
theorem keeps_pass (x : Execution) (env : Env) (d : Bool) (code : Code) (h : OnCourse log ids s) :
    KeepsCourse (log ++ code.updateEnds x { s.suspend with ready := [] }) ids (·.2) (s.pass x env d code) := by
  have h₁ : OnCourse log ids { s.suspend with ready := [] } := h.quiet (Quiet.trans (Frame.suspend s) ⟨rfl, le_rfl⟩)
  have h₂ := (h₁.drain (x := x) code).quiet (frame_sweepCancellations trivial env _)
  unfold pass afterDrain
  refine (keeps_flushSignals h₂).bind fun a ha => ?_
  have ha' : OnCourse _ _ { a.2 with commands := [] } := ha.quiet ⟨rfl, le_rfl⟩
  refine (KeepsCourse.of_quietly ha' (quietly_processCommands x env _ _ _)).bind fun b hb => ?_
  dsimp only
  split
  · exact .ok hb
  · exact keeps_settle hb

/-- A pass that leaves the loop has an empty outbox. -/
theorem outbox_of_close {d : Bool} {code : Code} (h : s.pass x env d code = .ok (.close, s')) : s'.outbox = [] := by
  unfold pass afterDrain at h
  simp only [bind_eq_ok] at h
  obtain ⟨a, -, b, -, h⟩ := h
  split at h
  · cases h
  · unfold settle at h
    split at h
    · cases h
    · simp only [bind_eq_ok] at h
      obtain ⟨s₁, h₁, h⟩ := h
      split at h
      · cases h
        obtain ⟨t, rfl⟩ := traces_flushOutbox h₁
        rfl
      · cases h

/-! ## The close -/

/-- The replies for the abandoned. -/
def abandoned (s : Interp) : List (EventKey × ReplyStatus) :=
  (s.inflightHandlers.values.filterMap Handler.updateId).map fun u => (.updateResult u, .failed)

theorem published_failAbandonedUpdates (s : Interp) : s.failAbandonedUpdates.published = s.published ++ s.abandoned := by
  unfold failAbandonedUpdates abandoned
  generalize s.inflightHandlers.values = hs
  induction hs generalizing s with
  | nil => simp
  | cons hd hs ih =>
    obtain ⟨kind, name, id, args, headers⟩ := hd
    rw [List.foldl_cons, ih]
    cases kind <;> cases id <;>
      simp [Handler.updateId, step, published_emit, actPublished, Op.published, List.filterMap_cons]

theorem countP_abandoned (s : Interp) (u : String) :
    s.abandoned.countP (·.1 = .updateResult u) = s.handlersFor u := by
  unfold abandoned handlersFor Dict.values
  rw [List.countP_map, List.countP_filterMap, List.countP_map]
  refine List.countP_congr fun e _ => ?_
  cases he : e.2.updateId <;> simp [he]

theorem abandoned_congr (h : s'.inflightHandlers.entries = s.inflightHandlers.entries) : s'.abandoned = s.abandoned := by
  rw [abandoned, Dict.values, h]
  rfl

end Interp

variable {x : Execution} {log : List (String × Ending)} {s s' : Interp}

/-- Outside the loop the books of the updates are left alone, and so is the
buffer until it has been sent on. -/
theorem CarryStep.quiet {a b : Chain} (h : CarryStep x a b) (ha : ∀ p, a.stage ≠ .running p) :
    (∀ p, b.stage ≠ .running p) ∧ (Interp.Quiet a.interp b.interp ∨ ∃ newRun, a.stage = .buffered newRun [] ∧
      b = { a with stage := .cancel newRun, interp := { a.interp with bufferedSignals := .empty } }) := by
  have hsends : ∀ (l : List Message) (c : Chain) (n : String),
      Interp.Quiet c.interp (l.foldl (fun c m => c.send n m) c).interp := by
    intro l
    induction l with
    | nil => exact fun c n => .refl _
    | cons m l ih => exact fun c n => (Interp.Quiet.step rfl c.interp).trans (ih (c.send n m) n)
  cases h with
  | arrives | takes => exact ⟨ha, .inl (.refl _)⟩
  | pass _ _ _ hc | passCloses _ _ _ hc | passRaises _ _ _ hc | round _ _ hc => exact absurd hc (ha _)
  | startsNext env _ _ _ h =>
    refine ⟨fun p => by simp, .inl ?_⟩
    have hswept := Interp.Quiet.trans (Interp.frame_cancelInFlight trivial env a.interp)
      (Interp.frame_sweepChildrenOnClose env _)
    exact hswept.trans (Interp.along_beginContinueAsNew.of_ok h)
  | tearsDown => exact ⟨fun p => by simp [Chain.tornDown], .inl (Interp.frame_tearDown _)⟩
  | forwardsSignal => exact ⟨fun p => by simp, .inl (.step rfl _)⟩
  | signalsForwarded hc => exact ⟨fun p => by simp, .inr ⟨_, hc, rfl⟩⟩
  | forwardsCancel env => exact ⟨fun p => by simp, .inl (hsends _ _ _)⟩
  | receives hc => exact ⟨ha, .inl (.step rfl _)⟩
  | sends hc => exact ⟨fun p => by simp [Chain.send, hc], .inl (.step rfl _)⟩
  | drops => exact ⟨ha, .inl (.refl _)⟩
  | seesEmpty => exact ⟨fun p => by simp, .inl (.step rfl _)⟩

theorem CarryRun.silent {a b : Chain} (h : CarryRun x a b) (ha : ∀ p, a.stage ≠ .running p) :
    (∀ p, b.stage ≠ .running p) ∧ Interp.Silent a.interp b.interp := by
  induction h with
  | refl => exact ⟨ha, rfl, le_rfl⟩
  | tail _ hs ih =>
    obtain ⟨hb, hq⟩ := hs.quiet ih.1
    refine ⟨hb, ih.2.trans ?_⟩
    rcases hq with hq | ⟨newRun, -, rfl⟩
    · exact hq.silent
    · exact ⟨rfl, le_rfl⟩

/-- What a close publishes: the replies for the abandoned, or nothing when it
has no side effects. -/
theorem Closed.published (h : Closed x s s') : s'.published = s.published ++ s.abandoned ∨
    x.closes s.outcome = false ∧ s'.published = s.published := by
  have hfail : ∀ {s₁ : Interp}, Interp.Silent s s₁ →
      s₁.failAbandonedUpdates.announceGone.published = s.published ++ s.abandoned := by
    intro s₁ hq
    obtain ⟨-, hlive, -, hpub⟩ := hq.fields
    rw [(Interp.Quiet.fields (Interp.frame_announceGone trivial _)).2.2.2, Interp.published_failAbandonedUpdates, hpub,
      Interp.abandoned_congr hlive]
  cases h with
  | closes env _ =>
    unfold Interp.closeRun
    dsimp only
    cases hc : x.closes s.outcome with
    | true =>
      have hswept := Interp.Quiet.trans (Interp.frame_cancelInFlight trivial env s)
        (Interp.frame_sweepChildrenOnClose env _)
      exact .inl (hfail (hswept.trans (Interp.frame_tearDown _)).silent)
    | false => exact .inr ⟨rfl, (Interp.Quiet.fields (Interp.frame_tearDown s)).2.2.2⟩
  | continues hr hc => exact .inl (hfail (hr.silent (fun p => by simp)).2)

/-! ## Runs -/

/-- **Every update is on its course** in every run that no exception has
left. -/
theorem Logged.onCourse {c : Config} (h : Logged x log c) : c.phase.escaped = none → c.interp.OnCourse log [] := by
  induction h with
  | start t m =>
    refine fun _ => ⟨(fun e he => by cases he), List.nil_subset _, fun u => ?_⟩
    exact .unseen
  | @pass log s s' t env d code _ h ih =>
    intro _
    have := Interp.keeps_pass x env d code (ih rfl)
    rw [h] at this
    exact this
  | passRaises => intro hc; cases hc
  | @round log s s' env done _ _ h ih =>
    intro _
    have := Interp.keeps_round x env done (ih rfl)
    rw [h] at this
    exact this
  | roundRaises => intro hc; cases hc

theorem Logged.bounded {c : Config} (h : Logged x log c) : c.interp.Bounded [] := by
  cases h with
  | start t m => exact ((Logged.start (x := x) t m).onCourse rfl).bounded
  | pass env d code hl h => exact ((Logged.pass env d code hl h).onCourse (by cases ‹Turn› <;> rfl)).bounded
  | round env done hl hf h => exact ((Logged.round env done hl hf h).onCourse rfl).bounded
  | passRaises env d code hl h =>
    have := Interp.keeps_pass x env d code (hl.onCourse rfl)
    rw [h] at this
    exact this
  | roundRaises env done hl hf h =>
    have := Interp.keeps_round x env done (hl.onCourse rfl)
    rw [h] at this
    exact this

theorem Logged.outbox {s : Interp} (h : Logged x log ⟨.closing none, s⟩) : s.outbox = [] := by
  generalize hc : (⟨.closing none, s⟩ : Config) = c at h
  cases h with
  | @pass log s₁ s₂ t env d code hl h =>
    cases t <;> cases hc
    exact Interp.outbox_of_close h
  | start | passRaises | round | roundRaises => cases hc

/-- An id that is seen stays seen. -/
theorem Logged.seen {c c' : Config} (h : Logged x log c) (hs : Step x c c') :
    c.interp.seenUpdateIds ⊆ c'.interp.seenUpdateIds := by
  have hids : ∀ {s : Interp}, Logged x log ⟨c.phase, s⟩ → c.phase.escaped = none → s.OnCourse log s.seenUpdateIds :=
    fun hl hc => ⟨(hl.onCourse hc).fresh, List.Subset.refl _, (hl.onCourse hc).course⟩
  cases hs with
  | pass env d code hp =>
    have := Interp.keeps_pass x env d code (hids h rfl)
    rw [hp] at this
    exact this.kept
  | passRaises env d code hp =>
    have := Interp.keeps_pass x env d code (hids h rfl)
    rw [hp] at this
    exact this.kept
  | round env done hf hr =>
    have := Interp.keeps_round x env done (hids h rfl)
    rw [hr] at this
    exact this.kept
  | roundRaises env done hf hr =>
    have := Interp.keeps_round x env done (hids h rfl)
    rw [hr] at this
    exact this.kept

/-! ## What a course says -/

/-- On a course the first reply is the acceptance or rejection. -/
theorem UpdateCourse.head {u : String} {b : Bool} {rs : List (EventKey × ReplyStatus)} {n : Nat} {es : List Ending}
    (h : UpdateCourse u b rs n es) : rs = [] ∨ ∃ st l, rs = (.updateAcceptance u, st) :: l := by
  cases h with
  | unseen => exact .inl rfl
  | rejected | running | ended => exact .inr ⟨_, _, rfl⟩

/-- What is accepted is running, or its handler has ended. -/
theorem UpdateCourse.of_accepted {u : String} {b : Bool} {rs : List (EventKey × ReplyStatus)} {n : Nat} {es : List Ending}
    (h : UpdateCourse u b rs n es) (ha : (.updateAcceptance u, .accepted) ∈ rs) :
    (n = 1 ∧ es = [] ∧ rs.countP (·.1 = .updateResult u) = 0) ∨
      ∃ e, n = 0 ∧ es = [e] ∧ rs.countP (·.1 = .updateResult u) = if (Interp.replyOf e).isSome then 1 else 0 := by
  cases h with
  | unseen => cases ha
  | rejected => simp at ha
  | running => exact .inl ⟨rfl, rfl, by simp⟩
  | ended e => exact .inr ⟨e, rfl, rfl, by cases Interp.replyOf e <;> simp⟩

theorem mem_endingsOf {u : String} {e : Ending} : e ∈ endingsOf log u ↔ (u, e) ∈ log := by
  simp only [endingsOf, List.mem_filterMap, Option.ite_none_right_eq_some, Option.some.injEq]
  constructor
  · rintro ⟨⟨v, e'⟩, hm, rfl, rfl⟩
    exact hm
  · intro h
    exact ⟨_, h, rfl, rfl⟩

namespace Interp

theorem mem_repliesFor {u : String} {m : EventKey × ReplyStatus} (h : m ∈ s.published) (ha : answers u m = true) :
    m ∈ s.repliesFor u := List.mem_filter.2 ⟨List.mem_append_left _ h, ha⟩

/-- A reply for an update is counted among its replies. -/
theorem countP_repliesFor (s : Interp) {u : String} {p : EventKey × ReplyStatus → Bool} (hp : ∀ m, p m = true → answers u m = true) :
    (s.repliesFor u).countP p = s.published.countP p + s.queued.countP p := by
  rw [repliesFor, List.countP_filter, ← List.countP_append]
  refine List.countP_congr fun m _ => ?_
  have := hp m
  cases h : p m <;> simp_all

theorem acceptance_answers (u : String) (m : EventKey × ReplyStatus) (h : decide (m.1 = .updateAcceptance u) = true) :
    answers u m = true := by
  rw [decide_eq_true_eq] at h
  simp [answers, h]

theorem result_answers (u : String) (m : EventKey × ReplyStatus) (h : decide (m.1 = .updateResult u) = true) :
    answers u m = true := by
  rw [decide_eq_true_eq] at h
  simp [answers, h]

theorem Bounded.repliesOnce {ids : List String} (h : Bounded ids s) : RepliesOnce s.published := by
  intro u
  have ha := h.accepted u
  have hr := h.result u
  rw [countP_repliesFor s (acceptance_answers u)] at ha
  rw [countP_repliesFor s (result_answers u)] at hr
  omega

theorem Bounded.repliesOnce_abandoned {ids : List String} (h : Bounded ids s) : RepliesOnce (s.published ++ s.abandoned) := by
  intro u
  have ha := h.accepted u
  have hr := h.result u
  rw [countP_repliesFor s (acceptance_answers u)] at ha
  rw [countP_repliesFor s (result_answers u)] at hr
  have hnone : s.abandoned.countP (·.1 = .updateAcceptance u) = 0 := by
    rw [List.countP_eq_zero]
    intro m hm
    obtain ⟨v, -, rfl⟩ := List.mem_map.1 hm
    simp
  rw [List.countP_append, List.countP_append, hnone, countP_abandoned]
  omega

theorem OnCourse.resultsFollow {ids : List String} (h : OnCourse log ids s) : ResultsFollow s.published := by
  intro u pre st post hp
  have hrep : s.repliesFor u = pre.filter (answers u) ++ (.updateResult u, st) :: (post ++ s.queued).filter (answers u) := by
    rw [repliesFor, hp]
    simp [List.filter_append, answers_result]
  have hhead := (h.course u).head
  rw [hrep] at hhead
  rcases hhead with hnil | ⟨st', l, hl⟩
  · simp at hnil
  · cases hf : pre.filter (answers u) with
    | nil =>
      rw [hf] at hl
      simp at hl
    | cons m ms =>
      rw [hf, List.cons_append, List.cons.injEq] at hl
      exact ⟨st', List.mem_of_mem_filter (hl.1 ▸ hf ▸ List.mem_cons_self)⟩

/-- A running update's acceptance is published once the outbox is empty. -/
theorem OnCourse.published_of_running {ids : List String} (h : OnCourse log ids s) (ho : s.outbox = []) {u : String}
    (hn : s.handlersFor u ≠ 0) : (.updateAcceptance u, .accepted) ∈ s.published := by
  have hc := h.course u
  have hrep : s.repliesFor u = s.published.filter (answers u) := by simp [repliesFor, queued, ho]
  generalize s.seenUpdateIds.contains u = b at hc
  generalize hrs : s.repliesFor u = rs at hc
  generalize s.handlersFor u = n at hc hn
  generalize endingsOf log u = es at hc
  cases hc with
  | running =>
    have hm : (EventKey.updateAcceptance u, ReplyStatus.accepted) ∈ s.published.filter (answers u) := by
      rw [← hrep, hrs]
      exact List.mem_cons_self
    exact List.mem_of_mem_filter hm
  | unseen | rejected | ended => exact absurd rfl hn

theorem OnCourse.resultsFollow_abandoned {ids : List String} (h : OnCourse log ids s) (ho : s.outbox = []) :
    ResultsFollow (s.published ++ s.abandoned) := by
  intro u pre st post hp
  rcases List.append_eq_append_iff.1 hp with ⟨l, rfl, hl⟩ | ⟨l, hl, hpost⟩
  · -- The result is one of the replies for the abandoned.
    have hm : (EventKey.updateResult u, st) ∈ s.abandoned := by rw [hl]; simp
    have hn : s.handlersFor u ≠ 0 := by
      rw [← countP_abandoned]
      exact (List.countP_pos_iff.2 ⟨_, hm, by simp⟩).ne'
    exact ⟨_, List.mem_append_left _ (h.published_of_running ho hn)⟩
  · cases l with
    | nil =>
      have hm : (EventKey.updateResult u, st) ∈ s.abandoned := by
        rw [List.nil_append] at hpost
        rw [← hpost]
        exact List.mem_cons_self
      have hn : s.handlersFor u ≠ 0 := by
        rw [← countP_abandoned]
        exact (List.countP_pos_iff.2 ⟨_, hm, by simp⟩).ne'
      rw [List.append_nil] at hl
      exact ⟨_, hl ▸ h.published_of_running ho hn⟩
    | cons m l =>
      rw [List.cons_append, List.cons.injEq] at hpost
      obtain ⟨rfl, -⟩ := hpost
      exact h.resultsFollow u pre st l hl

theorem OnCourse.answered {ids : List String} (h : OnCourse log ids s) (ho : s.outbox = []) :
    Answered log (s.published ++ s.abandoned) := by
  intro u ha
  have hpub : (EventKey.updateAcceptance u, ReplyStatus.accepted) ∈ s.published := by
    refine (List.mem_append.1 ha).resolve_right fun hm => ?_
    obtain ⟨v, -, hv⟩ := List.mem_map.1 hm
    cases hv
  have hcount : (s.published ++ s.abandoned).countP (·.1 = .updateResult u) =
      (s.repliesFor u).countP (·.1 = .updateResult u) + s.handlersFor u := by
    rw [List.countP_append, countP_abandoned, countP_repliesFor s (result_answers u)]
    simp [queued, ho]
  rw [hcount]
  rcases (h.course u).of_accepted (mem_repliesFor hpub (acceptance_answers u _ (by simp))) with ⟨hn, hes, hr⟩ | ⟨e, hn, hes, hr⟩
  · -- Its handler still runs.
    refine ⟨fun _ => by rw [hr, hn], fun can hcan => ?_⟩
    rw [← mem_endingsOf, hes] at hcan
    cases hcan
  · have he : ∀ e', (u, e') ∈ log ↔ e' = e := fun e' => by rw [← mem_endingsOf, hes, List.mem_singleton]
    rw [hr, hn]
    refine ⟨fun hall => by rw [if_pos (hall e ((he e).2 rfl))], fun can hcan => ?_⟩
    rw [← (he _).1 hcan]
    rfl

/-- A duplicate moves the clock to the time it was sent, and is decoded. -/
theorem duplicate_inbox {env : Env} {e : UpdateEnvelope} (hs : e.updateId ∈ s.seenUpdateIds)
    (h : s.deliverInbox x env (some (.update e)) = .ok s') : s' = (s.advanceTime e.sentAt).awaitIf (!e.args.isEmpty) := by
  simp only [deliverInbox, bind_eq_ok] at h
  obtain ⟨⟨args, s₁⟩, h₁, h⟩ := h
  have hargs : s₁ = (s.advanceTime e.sentAt).awaitIf (!e.args.isEmpty) := by
    unfold decodeMessageArgs at h₁
    dsimp only at h₁
    split at h₁ <;> simp only [bind_eq_ok, pure_eq_ok, Prod.mk.injEq] at h₁
    · obtain ⟨_, -, -, rfl⟩ := h₁; rfl
    · obtain ⟨_, -, -, rfl⟩ := h₁; rfl
  have hseen : s₁.seenUpdateIds = s.seenUpdateIds := by
    rw [hargs, (Quiet.fields (Frame.awaitIf _ _)).1, (Quiet.fields (frame_advanceTime s _)).1]
  rw [applyUpdate_seen (by rw [hseen]; exact hs)] at h
  cases h
  exact hargs

/-- An update that is delivered is seen. -/
theorem seen_inbox {env : Env} {e : UpdateEnvelope} (h : s.deliverInbox x env (some (.update e)) = .ok s') :
    e.updateId ∈ s'.seenUpdateIds := by
  simp only [deliverInbox, bind_eq_ok] at h
  obtain ⟨⟨args, s₁⟩, -, h⟩ := h
  by_cases hs : e.updateId ∈ s₁.seenUpdateIds
  · rw [applyUpdate_seen hs] at h
    cases h
    exact hs
  · unfold applyUpdate at h
    rw [if_neg (by simpa using hs)] at h
    dsimp only at h
    split at h
    · cases h
      simp [reply]
    · simp only [bind_eq_ok] at h
      obtain ⟨a, ha, h⟩ := h
      have hseen : e.updateId ∈ a.2.seenUpdateIds := by
        rw [(Quiet.fields (along_decodeMessageHeaders.of_ok ha)).1]
        simp
      split at h <;> cases h
      all_goals
        simp only [reply, spawnHandler]
        split <;> exact hseen

end Interp

/-! ## The protocol holds -/

/-- A workflow with one update handler. -/
def Execution.updating : Execution :=
  { base := "wf", defn := { name := "Wf", updates := .ofEntries [(some "go", { name := some "go" })] } }

/-- An update is delivered, and its handler is started. -/
def updateArrives : List Input :=
  [.drain [], .round .calm [(0, .message (some (.update { updateId := "u", name := "go", args := [] })))]]

/-- The handler returns, and so does the workflow. -/
def handlerReturns : List Input := updateArrives ++ [.drain [.handlerEnds 1 (.returned .none), .primaryEnds (.returned .none)]]

/-- The handler continues as new. -/
def handlerContinues : List Input := updateArrives ++ [.drain [.handlerEnds 1 (.continueAsNew {})]]

/-- A world in which nothing encodes. -/
def Env.mute : Env := { Env.calm with converter := { Converter.lenient with encode := fun _ => .error "" } }

/-- The workflow returns while an activity of its own is still to be
scheduled. -/
def scheduleRaises : List Input :=
  updateArrives ++ [.pass .mute false (.asks [.startActivity { activityName := "act" }, .primaryEnds (.returned .none)])]

end Dbosify
