/-
What a waiting run waits for.

Everything that is pending when a run waits has a task on the list that can
end it: a timer its sleep, a child its result, an activity its attempt, its
backoff, its queued result, or the timers of its park (`waiting_attended`).
Within a pass that holds of all but what the commands still to come are for,
and within a round of all but what the event at hand ends.
-/
import Dbosify.AttemptLaw
import Dbosify.TimerOrder

namespace Dbosify

open Py (Dict)

/-! ## What is needed -/

/-- The kinds of task a pending activity needs on the list, one of each group:
parked, a timer for each limit of the park. -/
def ActivityExec.needs (e : ActivityExec) : List (List WaiterKind) :=
  if e.asyncPending then
    (if e.startToClose.isSome || e.scheduleToClose.isSome then [[.actS2c]] else []) ++
      if e.heartbeatTimeout.isSome then [[.actHb]] else []
  else [[.activity, .qActivity]]

theorem ActivityExec.needs_attempt {e : ActivityExec} (h : e.asyncPending = false) :
    e.needs = [[.activity, .qActivity]] := if_neg (by rw [h]; exact Bool.false_ne_true)

theorem ActivityExec.needs_parked {e : ActivityExec} (h : e.asyncPending = true) :
    e.needs = (if e.startToClose.isSome || e.scheduleToClose.isSome then [[.actS2c]] else []) ++
      if e.heartbeatTimeout.isSome then [[.actHb]] else [] := if_pos h

/-- No task stands for a child that is not started; only its command does. -/
def ChildExec.needs (c : ChildExec) : List (List WaiterKind) := if c.started then [[.child]] else [[]]

namespace Command

def seq : Command → Nat
  | timer k | activity k | child k | send k | patch k => k
  | attributes => 0

end Command

/-- The command whose work a task stands for. -/
def Waiter.command? (w : Waiter) : Option Command :=
  match w.kind with
  | .inbox => none
  | .timer => some (.timer w.seq)
  | .activity | .qActivity | .actS2c | .actHb => some (.activity w.seq)
  | .child => some (.child w.seq)

/-- What is pending, and the tasks on the list. -/
structure Outstanding where
  waiters : List Waiter
  timers : Dict Nat Seconds
  activities : Dict Nat ActivityExec
  children : Dict Nat ChildExec
  sends : Dict Nat PendingSend
  patches : Dict Nat String

def Interp.outstanding (s : Interp) : Outstanding :=
  ⟨s.waiters, s.pendingTimers, s.pendingActivities, s.pendingChildren, s.pendingSends, s.pendingPatches⟩

theorem Interp.timers_outstanding (s : Interp) : s.outstanding.timers = s.pendingTimers := rfl

theorem Interp.activities_outstanding (s : Interp) : s.outstanding.activities = s.pendingActivities := rfl

theorem Interp.children_outstanding (s : Interp) : s.outstanding.children = s.pendingChildren := rfl

theorem Interp.sends_outstanding (s : Interp) : s.outstanding.sends = s.pendingSends := rfl

namespace Outstanding

/-- What must be on the list for what `c` asked for, while it is pending. A
send and a patch have no task: their command does them on the spot. -/
def needs (o : Outstanding) : Command → List (List WaiterKind)
  | .timer k => if (o.timers.get? k).isSome then [[.timer]] else []
  | .activity k => ((o.activities.get? k).map ActivityExec.needs).getD []
  | .child k => ((o.children.get? k).map ChildExec.needs).getD []
  | .send k => if (o.sends.get? k).isSome then [[]] else []
  | .patch k => if (o.patches.get? k).isSome then [[]] else []
  | .attributes => []

section

variable (o : Outstanding) (k : Nat)

theorem needs_timer : o.needs (.timer k) = if (o.timers.get? k).isSome then [[.timer]] else [] := rfl

theorem needs_activity : o.needs (.activity k) = ((o.activities.get? k).map ActivityExec.needs).getD [] := rfl

theorem needs_child : o.needs (.child k) = ((o.children.get? k).map ChildExec.needs).getD [] := rfl

theorem needs_send : o.needs (.send k) = if (o.sends.get? k).isSome then [[]] else [] := rfl

theorem needs_patch : o.needs (.patch k) = if (o.patches.get? k).isSome then [[]] else [] := rfl

end

/-- What `c` asked for is not pending, or has its tasks on the list. -/
def Attends (o : Outstanding) (c : Command) : Prop :=
  ∀ kinds ∈ o.needs c, ∃ w ∈ o.waiters, w.kind ∈ kinds ∧ w.seq = c.seq

def launch (o : Outstanding) (w : Waiter) : Outstanding := { o with waiters := o.waiters ++ [w] }

def modify (o : Outstanding) (k : Nat) (f : ActivityExec → ActivityExec) : Outstanding :=
  { o with activities := o.activities.modify k f }

theorem activities_modify (o : Outstanding) (k : Nat) (f : ActivityExec → ActivityExec) :
    (o.modify k f).activities = o.activities.modify k f := rfl

def retain (o : Outstanding) (p : Waiter → Bool) : Outstanding := { o with waiters := o.waiters.filter p }

variable {o o₁ o' : Outstanding} {c d : Command} {k : Nat} {f : ActivityExec → ActivityExec}

/-- What `c` needs on the list stands for `c`. -/
theorem command?_of_needs {w : Waiter} {g : List WaiterKind} (hg : g ∈ o.needs c) (hk : w.kind ∈ g)
    (hs : w.seq = c.seq) : w.command? = some c := by
  cases c with
  | timer k =>
    rw [needs_timer] at hg
    split at hg
    · rw [List.mem_singleton.1 hg, List.mem_singleton] at hk
      simp only [Waiter.command?, hk, hs, Command.seq]
    · cases hg
  | activity k =>
    have hactivity : w.kind ∈ [WaiterKind.activity, .qActivity, .actS2c, .actHb] := by
      rw [needs_activity] at hg
      cases he : o.activities.get? k with
      | none => rw [he] at hg; cases hg
      | some e =>
        simp only [he, Option.map_some, Option.getD_some, ActivityExec.needs] at hg
        split at hg
        · rcases List.mem_append.1 hg with hg | hg
          · split at hg
            · rw [List.mem_singleton.1 hg, List.mem_singleton] at hk
              simp [hk]
            · cases hg
          · split at hg
            · rw [List.mem_singleton.1 hg, List.mem_singleton] at hk
              simp [hk]
            · cases hg
        · rw [List.mem_singleton.1 hg] at hk
          exact List.mem_append_left [WaiterKind.actS2c, .actHb] hk
    cases hw : w.kind <;> simp [hw] at hactivity <;> simp only [Waiter.command?, hw, hs, Command.seq]
  | child k =>
    rw [needs_child] at hg
    cases he : o.children.get? k with
    | none => rw [he] at hg; cases hg
    | some e =>
      simp only [he, Option.map_some, Option.getD_some, ChildExec.needs] at hg
      split at hg
      · rw [List.mem_singleton.1 hg, List.mem_singleton] at hk
        simp only [Waiter.command?, hk, hs, Command.seq]
      · rw [List.mem_singleton.1 hg] at hk
        cases hk
  | send k | patch k =>
    simp only [needs_send, needs_patch] at hg
    split at hg
    · rw [List.mem_singleton.1 hg] at hk
      cases hk
    · cases hg
  | attributes => cases hg

/-- What stands for `c` stays, and `c` needs nothing new. -/
theorem Attends.frame (h : o.Attends c) (hn : o'.needs c ⊆ o.needs c)
    (hw : ∀ w ∈ o.waiters, w.command? = some c → w ∈ o'.waiters) : o'.Attends c := by
  intro g hg
  obtain ⟨w, hmem, hk, hs⟩ := h g (hn hg)
  exact ⟨w, hw w hmem (command?_of_needs (hn hg) hk hs), hk, hs⟩

theorem attends_of_nil (h : o.needs c = []) : o.Attends c := by
  intro g hg
  rw [h] at hg
  cases hg

theorem needs_timer_none (h : o.timers.get? k = none) : o.needs (.timer k) = [] := by
  simp only [needs_timer, h, Option.isSome_none, Bool.false_eq_true, if_false]

theorem needs_activity_none (h : o.activities.get? k = none) : o.needs (.activity k) = [] := by
  simp only [needs_activity, h, Option.map_none, Option.getD_none]

theorem needs_child_none (h : o.children.get? k = none) : o.needs (.child k) = [] := by
  simp only [needs_child, h, Option.map_none, Option.getD_none]

theorem needs_send_none (h : o.sends.get? k = none) : o.needs (.send k) = [] := by
  simp only [needs_send, h, Option.isSome_none, Bool.false_eq_true, if_false]

theorem needs_patch_none (h : o.patches.get? k = none) : o.needs (.patch k) = [] := by
  simp only [needs_patch, h, Option.isSome_none, Bool.false_eq_true, if_false]

/-! ## Frames -/

/-- What was attended still is. -/
def Keeps (o o' : Outstanding) : Prop := ∀ d, o.Attends d → o'.Attends d

/-- What was attended still is, but for what `c` asked for. -/
def Around (c : Command) (o o' : Outstanding) : Prop := ∀ d, d ≠ c → o.Attends d → o'.Attends d

/-- What was attended still is, and what `c` asked for now is. -/
structure Tends (c : Command) (o o' : Outstanding) : Prop where
  around : Around c o o'
  own : o'.Attends c

theorem Keeps.refl (o : Outstanding) : Keeps o o := fun _ h => h

theorem Keeps.trans (h : Keeps o o₁) (h' : Keeps o₁ o') : Keeps o o' := fun d hd => h' d (h d hd)

theorem Keeps.around (h : Keeps o o') : Around c o o' := fun d _ => h d

theorem Around.trans (h : Around c o o₁) (h' : Around c o₁ o') : Around c o o' := fun d hd ha => h' d hd (h d hd ha)

theorem Around.tends (h : Around c o o₁) (h' : Tends c o₁ o') : Tends c o o' := ⟨h.trans h'.around, h'.own⟩

/-- What `c` asked for is not pending. -/
theorem Tends.absent (h : o.needs c = []) : Tends c o o := ⟨(Keeps.refl o).around, attends_of_nil h⟩

theorem Tends.keeps (h : Tends c o o') : Keeps o o' := by
  intro d hd
  by_cases hc : d = c
  · exact hc ▸ h.own
  · exact h.around d hc hd

theorem keeps_launch (o : Outstanding) (w : Waiter) : Keeps o (o.launch w) :=
  fun _ h => h.frame (List.Subset.refl _) fun _ hw _ => List.mem_append_left _ hw

/-- Only tasks for `c` are taken off. -/
theorem around_retain {p : Waiter → Bool} (h : ∀ w, p w = false → w.command? = some c) : Around c o (o.retain p) := by
  intro d hd ha
  refine ha.frame (List.Subset.refl _) fun w hw hs => List.mem_filter.2 ⟨hw, ?_⟩
  by_contra hp
  exact hd (Option.some.inj (hs.symm.trans (h w (Bool.eq_false_iff.2 hp))))

/-- Nothing but the entry of `c` differs. -/
structure Touches (c : Command) (o o' : Outstanding) : Prop where
  waiters : o'.waiters = o.waiters
  timers : ∀ k, .timer k ≠ c → o'.timers.get? k = o.timers.get? k
  activities : ∀ k, .activity k ≠ c → o'.activities.get? k = o.activities.get? k
  children : ∀ k, .child k ≠ c → o'.children.get? k = o.children.get? k
  sends : ∀ k, .send k ≠ c → o'.sends.get? k = o.sends.get? k
  patches : ∀ k, .patch k ≠ c → o'.patches.get? k = o.patches.get? k

namespace Touches

theorem needs (h : Touches c o o') (hd : d ≠ c) : o'.needs d = o.needs d := by
  cases d with
  | timer k => simp only [needs_timer, h.timers k hd]
  | activity k => simp only [needs_activity, h.activities k hd]
  | child k => simp only [needs_child, h.children k hd]
  | send k => simp only [needs_send, h.sends k hd]
  | patch k => simp only [needs_patch, h.patches k hd]
  | attributes => rfl

theorem around (h : Touches c o o') : Around c o o' :=
  fun _ hd ha => ha.frame (h.needs hd ▸ List.Subset.refl _) fun _ hw _ => h.waiters ▸ hw

/-- The entry of `c` is dropped. -/
theorem drops (h : Touches c o o') (hc : o'.needs c = []) : Tends c o o' := ⟨h.around, attends_of_nil hc⟩

/-- The entry of `c` needs what it did. -/
theorem keeps (h : Touches c o o') (hc : o'.needs c = o.needs c) : Keeps o o' := by
  intro d ha
  refine ha.frame ?_ fun _ hw _ => h.waiters ▸ hw
  by_cases hd : d = c
  · rw [hd, hc]
    exact List.Subset.refl _
  · rw [h.needs hd]
    exact List.Subset.refl _

end Touches

section

variable (o : Outstanding) {k : Nat}

theorem touches_timer {m : Dict Nat Seconds} (h : ∀ j, j ≠ k → m.get? j = o.timers.get? j) :
    Touches (.timer k) o { o with timers := m } :=
  ⟨rfl, fun j hj => h j (mt (congrArg Command.timer) hj), fun _ _ => rfl, fun _ _ => rfl, fun _ _ => rfl, fun _ _ => rfl⟩

theorem touches_activity {m : Dict Nat ActivityExec} (h : ∀ j, j ≠ k → m.get? j = o.activities.get? j) :
    Touches (.activity k) o { o with activities := m } :=
  ⟨rfl, fun _ _ => rfl, fun j hj => h j (mt (congrArg Command.activity) hj), fun _ _ => rfl, fun _ _ => rfl, fun _ _ => rfl⟩

theorem touches_child {m : Dict Nat ChildExec} (h : ∀ j, j ≠ k → m.get? j = o.children.get? j) :
    Touches (.child k) o { o with children := m } :=
  ⟨rfl, fun _ _ => rfl, fun _ _ => rfl, fun j hj => h j (mt (congrArg Command.child) hj), fun _ _ => rfl, fun _ _ => rfl⟩

theorem touches_send {m : Dict Nat PendingSend} (h : ∀ j, j ≠ k → m.get? j = o.sends.get? j) :
    Touches (.send k) o { o with sends := m } :=
  ⟨rfl, fun _ _ => rfl, fun _ _ => rfl, fun _ _ => rfl, fun j hj => h j (mt (congrArg Command.send) hj), fun _ _ => rfl⟩

theorem touches_patch {m : Dict Nat String} (h : ∀ j, j ≠ k → m.get? j = o.patches.get? j) :
    Touches (.patch k) o { o with patches := m } :=
  ⟨rfl, fun _ _ => rfl, fun _ _ => rfl, fun _ _ => rfl, fun _ _ => rfl, fun j hj => h j (mt (congrArg Command.patch) hj)⟩

end

theorem touches_modify (o : Outstanding) (k : Nat) (f : ActivityExec → ActivityExec) :
    Touches (.activity k) o (o.modify k f) := touches_activity o fun _ hj => Dict.get?_modify_other _ _ hj

theorem around_modify (o : Outstanding) (k : Nat) (f : ActivityExec → ActivityExec) :
    Around (.activity k) o (o.modify k f) := (touches_modify o k f).around

theorem needs_modify {e : ActivityExec} (he : o.activities.get? k = some e) :
    (o.modify k f).needs (.activity k) = (f e).needs := by
  simp only [needs_activity, activities_modify, Dict.get?_modify_self, he, Option.map_some, Option.getD_some]

/-- A change of an exec that needs what it did. -/
theorem keeps_modify (o : Outstanding) (k : Nat) (hf : ∀ e, (f e).needs = e.needs) : Keeps o (o.modify k f) := by
  refine (touches_modify o k f).keeps ?_
  simp only [needs_activity, activities_modify, Dict.get?_modify_self, Option.map_map]
  rw [show ActivityExec.needs ∘ f = ActivityExec.needs from funext hf]

end Outstanding

open Outstanding

theorem Traces.outstanding {s s' : Interp} (h : Traces s s') : s'.outstanding = s.outstanding := by
  obtain ⟨t, rfl⟩ := h
  rfl

namespace Interp

variable {x : Execution} {env : Env} {s s' t : Interp} {k : Nat} {e : ActivityExec}

theorem outstanding_advanceTime (s : Interp) (t : Option Seconds) : (s.advanceTime t).outstanding = s.outstanding := by
  unfold advanceTime
  split
  · split <;> rfl
  · rfl

theorem outstanding_resolveActivity {o : ActivityOutcome} (h : s.resolveActivity k e o = .ok s') :
    s'.outstanding = s.outstanding := by
  unfold resolveActivity at h
  split at h
  · exact absurd h raise_ne_ok
  · cases h; rfl

theorem outstanding_resolveOwnQueue (x : Execution) (env : Env) (s : Interp) :
    (s.resolveOwnQueue x env).outstanding = s.outstanding := by
  unfold resolveOwnQueue
  split <;> rfl

theorem around_setActivity (s : Interp) (k : Nat) (f : ActivityExec → ActivityExec) :
    Around (.activity k) s.outstanding (s.setActivity k f).outstanding := around_modify _ k f

theorem keeps_setActivity (s : Interp) (k : Nat) {f : ActivityExec → ActivityExec} (hf : ∀ e, (f e).needs = e.needs) :
    Keeps s.outstanding (s.setActivity k f).outstanding := keeps_modify _ k hf

/-! ### Entries that go -/

theorem tends_popActivity (s : Interp) (k : Nat) : Tends (.activity k) s.outstanding (s.popActivity k).outstanding := by
  refine (touches_activity s.outstanding fun _ hj => Dict.get?_pop_other _ hj).drops ?_
  exact needs_activity_none (Dict.get?_pop_self _ k)

theorem tends_popTimer (s : Interp) (k : Nat) :
    Tends (.timer k) s.outstanding { s with pendingTimers := s.pendingTimers.pop k }.outstanding := by
  refine (touches_timer s.outstanding fun _ hj => Dict.get?_pop_other _ hj).drops ?_
  exact needs_timer_none (Dict.get?_pop_self _ k)

theorem tends_popChild (s : Interp) (k : Nat) :
    Tends (.child k) s.outstanding { s with pendingChildren := s.pendingChildren.pop k }.outstanding := by
  refine (touches_child s.outstanding fun _ hj => Dict.get?_pop_other _ hj).drops ?_
  exact needs_child_none (Dict.get?_pop_self _ k)

theorem tends_popSend (s : Interp) (k : Nat) :
    Tends (.send k) s.outstanding { s with pendingSends := s.pendingSends.pop k }.outstanding := by
  refine (touches_send s.outstanding fun _ hj => Dict.get?_pop_other _ hj).drops ?_
  exact needs_send_none (Dict.get?_pop_self _ k)

theorem tends_popPatch (s : Interp) (k : Nat) :
    Tends (.patch k) s.outstanding { s with pendingPatches := s.pendingPatches.pop k }.outstanding := by
  refine (touches_patch s.outstanding fun _ hj => Dict.get?_pop_other _ hj).drops ?_
  exact needs_patch_none (Dict.get?_pop_self _ k)

/-! ## Activities -/

/-- The attempt, backoff or queued result of an exec that is not parked. -/
theorem tends_launchMain {f : ActivityExec → ActivityExec} {kind : WaiterKind} (op : Op)
    (he : s.pendingActivities.get? k = some e) (hp : (f e).asyncPending = false)
    (hk : kind = .activity ∨ kind = .qActivity) :
    Tends (.activity k) s.outstanding ((s.setActivity k f).launchWaiter kind k op).outstanding where
  around := (around_modify _ k f).trans (keeps_launch _ _).around
  own := by
    intro g hg
    have hneeds : (s.outstanding.modify k f).needs (.activity k) = (f e).needs := needs_modify he
    change g ∈ (s.outstanding.modify k f).needs (.activity k) at hg
    rw [hneeds, ActivityExec.needs_attempt hp, List.mem_singleton] at hg
    subst hg
    refine ⟨_, List.mem_append_right _ List.mem_cons_self, ?_, rfl⟩
    rcases hk with rfl | rfl
    · exact List.mem_cons_self
    · exact List.mem_cons_of_mem _ List.mem_cons_self

theorem tends_launchAttempt {e' : ActivityExec} (he : s.pendingActivities.get? k = some e) (hp : e.asyncPending = false)
    (h : s.launchAttempt x k e' = .ok s') : Tends (.activity k) s.outstanding s'.outstanding := by
  simp only [launchAttempt, bind_eq_ok] at h
  obtain ⟨_, -, h⟩ := h
  cases h
  exact tends_launchMain (f := .launched) _ he hp (.inl rfl)

theorem tends_failActivity {e' : ActivityExec} {f : FailureEnvelope} {st : Option RetryState}
    (h : s.failActivity env k e' f st = .ok s') : Tends (.activity k) s.outstanding s'.outstanding := by
  simp only [failActivity, bind_eq_ok] at h
  obtain ⟨cause, -, h⟩ := h
  rw [outstanding_resolveActivity h]
  exact tends_popActivity _ k

theorem tends_retryOrFail {e' : ActivityExec} {f : FailureEnvelope} (he : s.pendingActivities.get? k = some e)
    (hp : e.asyncPending = false) (h : s.retryOrFail env k e' f = .ok s') :
    Tends (.activity k) s.outstanding s'.outstanding := by
  simp only [retryOrFail, bind_eq_ok] at h
  obtain ⟨⟨delay, st⟩, -, h⟩ := h
  cases delay with
  | some d =>
    cases h
    exact tends_launchMain (f := .backOff d) _ he hp (.inl rfl)
  | none => exact tends_failActivity h

/-- Some task of this kind is on the list, for `k`. -/
def Listens (s : Interp) (kind : WaiterKind) (k : Nat) : Prop := ∃ w ∈ s.waiters, w.kind = kind ∧ w.seq = k

theorem needs_of_get? (he : s.pendingActivities.get? k = some e) : s.outstanding.needs (.activity k) = e.needs := by
  rw [needs_activity, activities_outstanding, he, Option.map_some, Option.getD_some]

/-- What a parked activity needs. -/
theorem attends_parked {e' : ActivityExec} (he : s.pendingActivities.get? k = some e') (hn : e'.needs = e.park.needs)
    (hd : (e.startToClose.isSome || e.scheduleToClose.isSome) = true → s.Listens .actS2c k)
    (hh : e.heartbeatTimeout.isSome = true → s.Listens .actHb k) : s.outstanding.Attends (.activity k) := by
  have hlisten : ∀ {kind : WaiterKind} {g : List WaiterKind}, g ∈ [[kind]] → s.Listens kind k →
      ∃ w ∈ s.waiters, w.kind ∈ g ∧ w.seq = k := by
    rintro kind g hg ⟨w, hmem, hkind, hseq⟩
    exact ⟨w, hmem, by rw [List.mem_singleton.1 hg, hkind]; exact List.mem_cons_self, hseq⟩
  intro g hg
  rw [needs_of_get? he, hn, ActivityExec.needs_parked rfl] at hg
  rcases List.mem_append.1 hg with hg | hg
  · split at hg
    · next hlimit => exact hlisten hg (hd hlimit)
    · cases hg
  · split at hg
    · next hwindow => exact hlisten hg (hh hwindow)
    · cases hg

/-- A timer of a park is armed, its exec needing what it did. -/
theorem armed_timer {f : ActivityExec → ActivityExec} (hf : ∀ e, (f e).needs = e.needs) (kind : WaiterKind) (op : Op)
    (he : s.pendingActivities.get? k = some e) :
    Keeps s.outstanding ((s.setActivity k f).launchWaiter kind k op).outstanding ∧
      ((s.setActivity k f).launchWaiter kind k op).pendingActivities.get? k = some (f e) ∧
      ((s.setActivity k f).launchWaiter kind k op).Listens kind k := by
  exact ⟨(keeps_setActivity s k hf).trans (keeps_launch _ _), get?_setActivity he f, _,
    List.mem_append_right _ List.mem_cons_self, rfl, rfl⟩

/-- The heartbeat window of a park is armed, its deadline being so already. -/
theorem tends_armHeartbeat {e' : ActivityExec} (he : s.pendingActivities.get? k = some e')
    (hn : e'.needs = e.park.needs)
    (hd : (e.startToClose.isSome || e.scheduleToClose.isSome) = true → s.Listens .actS2c k) :
    Tends (.activity k) s.outstanding (s.armHeartbeat k e.heartbeatTimeout).outstanding := by
  unfold armHeartbeat
  split
  · next hb hhb =>
    obtain ⟨hk, he₁, hw⟩ := armed_timer (f := .heartbeat false) (fun _ => rfl) .actHb (.sleep hb) he
    refine ⟨hk.around, attends_parked he₁ hn (fun hlimit => ?_) fun _ => hw⟩
    obtain ⟨w, hmem, hw⟩ := hd hlimit
    exact ⟨w, List.mem_append_left _ hmem, hw⟩
  · next hhb =>
    refine ⟨(Keeps.refl _).around, attends_parked he hn hd fun hwindow => ?_⟩
    rw [hhb] at hwindow
    cases hwindow

/-- A park arms a timer for each limit it has. -/
theorem tends_park (he : s.pendingActivities.get? k = some e) (a b : Seconds) :
    Tends (.activity k) s.outstanding (s.parkActivity k e a b).outstanding := by
  have hpark := around_setActivity s k .park
  have he₁ := get?_setActivity he .park
  unfold parkActivity
  dsimp only
  generalize hd : effectiveDeadline _ _ = d
  have hlimit : (e.startToClose.isSome || e.scheduleToClose.isSome) = d.1.isSome := by
    rw [← hd, effectiveDeadline_isSome, Option.isSome_map, Option.isSome_map]
  unfold armDeadline
  split
  · next v hv =>
    obtain ⟨hk, he₂, hw⟩ := armed_timer (f := .parkFor d.2.timeoutType (max (1 / 20) v)) (fun _ => rfl) .actS2c
      (.sleep (max (1 / 20) v)) he₁
    exact (hpark.trans hk.around).tends (tends_armHeartbeat he₂ rfl fun _ => hw)
  · next hv =>
    refine hpark.tends (tends_armHeartbeat he₁ rfl fun h => ?_)
    rw [hlimit, hv] at h
    cases h

theorem tends_failAsync {e' : ActivityExec} {f : FailureEnvelope} (he : s.pendingActivities.get? k = some e)
    (h : s.failAsyncAttempt env k e' f = .ok s') : Tends (.activity k) s.outstanding s'.outstanding :=
  (around_setActivity s k .unpark).tends (tends_retryOrFail (get?_setActivity he .unpark) rfl h)

theorem around_retireParkedTimers (s : Interp) (k : Nat) :
    Around (.activity k) s.outstanding (s.retireParkedTimers k).outstanding := by
  refine around_retain (o := s.outstanding) fun w hw => ?_
  obtain ⟨hkind, rfl⟩ := not_not.1 (of_decide_eq_false hw)
  rcases hkind with hkind | hkind <;> simp only [Waiter.command?, hkind]

/-! ## Events -/

theorem get?_advanceTime (he : s.pendingActivities.get? k = some e) (b : Option Seconds) :
    (s.advanceTime b).pendingActivities.get? k = some e := by
  rw [← he]
  exact congrArg (fun o : Outstanding => o.activities.get? k) (outstanding_advanceTime s b)

/-- Moving the clock first changes nothing. -/
theorem tends_advanced {c : Command} {b : Option Seconds} {o : Outstanding}
    (h : Tends c (s.advanceTime b).outstanding o) : Tends c s.outstanding o := by
  rwa [outstanding_advanceTime] at h

theorem tends_activityEvent {r : TaskResult} (he : s.pendingActivities.get? k = some e) (hp : e.asyncPending = false)
    (h : s.deliverActivityEvent x env k r = .ok s') : Tends (.activity k) s.outstanding s'.outstanding := by
  unfold deliverActivityEvent at h
  rw [he] at h
  dsimp only at h
  split at h
  · cases h
    exact tends_popActivity s k
  · split at h
    · -- The backoff is over: its wait is charged, and the next attempt is launched.
      have he₁ := get?_advanceTime he (some (s.timeSeconds + e.pendingWaitSeconds))
      have he₂ := get?_setActivity he₁ .nextAttempt
      exact tends_advanced ((around_setActivity _ k .nextAttempt).tends (tends_launchAttempt he₂ hp h))
    · split at h
      · cases h
        exact tends_advanced (tends_park (get?_advanceTime he _) _ _)
      · rw [outstanding_resolveActivity h]
        exact tends_advanced (tends_popActivity _ k)
      · simp only [bind_eq_ok] at h
        obtain ⟨c, -, h⟩ := h
        split at h
        · cases h
          exact tends_advanced (tends_popActivity _ k)
        · exact tends_advanced (tends_retryOrFail (get?_advanceTime he _) hp h)
      · exact absurd h raise_ne_ok
      · exact absurd h raise_ne_ok

theorem tends_queuedEvent {r : TaskResult} (h : s.deliverQueuedActivityEvent env k r = .ok s') :
    Tends (.activity k) s.outstanding s'.outstanding := by
  unfold deliverQueuedActivityEvent at h
  split at h
  · cases h
    exact tends_popActivity s k
  · split at h
    · cases h
      exact tends_popActivity s k
    · split at h
      · rw [outstanding_resolveActivity h]
        exact tends_advanced (tends_popActivity _ k)
      · simp only [bind_eq_ok] at h
        obtain ⟨c, -, h⟩ := h
        split at h
        · cases h
          exact tends_advanced (tends_popActivity _ k)
        · exact tends_advanced ((tends_popActivity _ k).around.tends (tends_failActivity h))
      · exact absurd h raise_ne_ok
      · exact absurd h raise_ne_ok
      · exact absurd h raise_ne_ok

theorem tends_parkedTimeout {ty : TimeoutType} (he : s.pendingActivities.get? k = some e) (hp : e.asyncPending = true)
    (h : s.asyncParkedTimeout env k ty = .ok s') : Tends (.activity k) s.outstanding s'.outstanding := by
  unfold asyncParkedTimeout at h
  rw [he] at h
  dsimp only at h
  rw [if_neg (not_not.2 hp)] at h
  exact (around_retireParkedTimers s k).tends (tends_failAsync he h)

theorem tends_parkEnd (he : s.pendingActivities.get? k = some e) (hp : e.asyncPending = true)
    (h : s.deliverParkTimeout env k = .ok s') : Tends (.activity k) s.outstanding s'.outstanding := by
  unfold deliverParkTimeout at h
  rw [he] at h
  have he₁ := get?_advanceTime he (some (s.timeSeconds + e.pendingWaitSeconds))
  have he₂ := get?_setActivity he₁ .charged
  exact tends_advanced ((around_setActivity _ k .charged).tends (tends_parkedTimeout he₂ hp h))

/-- A heartbeat check that finds a heartbeat opens the next window, the
deadline's timer being on the list still. -/
theorem tends_heartbeatCheck (he : s.pendingActivities.get? k = some e) (hp : e.asyncPending = true)
    (hd : (e.startToClose.isSome || e.scheduleToClose.isSome) = true → s.Listens .actS2c k)
    (h : s.asyncHeartbeatCheck env k = .ok s') : Tends (.activity k) s.outstanding s'.outstanding := by
  unfold asyncHeartbeatCheck at h
  rw [he] at h
  dsimp only at h
  rw [if_neg (not_not.2 hp)] at h
  split at h
  · exact tends_parkedTimeout he hp h
  · have hpark : e.needs = e.park.needs := by
      rw [ActivityExec.needs_parked hp]
      rfl
    have hnext := tends_armHeartbeat he hpark hd
    unfold armHeartbeat at hnext
    split at h
    · next hb hhb =>
      cases h
      rw [hhb] at hnext
      exact hnext
    · exact absurd h raise_ne_ok

theorem tends_deliverTimer (s : Interp) (k : Nat) : Tends (.timer k) s.outstanding (s.deliverTimer k).outstanding := by
  unfold deliverTimer
  split
  · next hk =>
    exact .absent (needs_timer_none hk)
  · next v hk =>
    change Tends _ _ (({ s with pendingTimers := s.pendingTimers.pop k } : Interp).advanceTime (some v)).outstanding
    rw [outstanding_advanceTime]
    exact tends_popTimer s k

theorem tends_childEvent {r : TaskResult} (h : s.deliverChildEvent env k r = .ok s') :
    Tends (.child k) s.outstanding s'.outstanding := by
  have hadvance : ∀ b : Option Seconds, Tends (.child k) s.outstanding
      (({ s with pendingChildren := s.pendingChildren.pop k } : Interp).advanceTime b).outstanding := fun b => by
    rw [outstanding_advanceTime]
    exact tends_popChild s k
  unfold deliverChildEvent at h
  split at h
  · next hk =>
    cases h
    exact .absent (needs_child_none hk)
  · dsimp only at h
    split at h
    · cases h
      exact tends_popChild s k
    · split at h
      · cases h
        exact hadvance _
      · simp only [bind_eq_ok] at h
        obtain ⟨cause, -, h⟩ := h
        cases h
        exact hadvance _
      · exact absurd h raise_ne_ok
      · exact absurd h raise_ne_ok

/-! ## Messages -/

theorem outstanding_applySignal {m : SignalEnvelope} (h : s.applySignal x env m = .ok s') :
    s'.outstanding = s.outstanding := by
  unfold applySignal at h
  split at h
  · cases h
    rfl
  · split at h
    · next r hr =>
      cases h
      rw [decodeMessageArgs_error hr]
      exact (traces_awaitIf s _).outstanding
    · next args s₁ hr =>
      simp only [bind_eq_ok, Except.ok.injEq] at h
      obtain ⟨⟨hd, s₂⟩, h₂, rfl⟩ := h
      exact ((traces_decodeMessageArgs hr).trans (traces_decodeMessageHeaders h₂)).outstanding

theorem outstanding_applyUpdate {m : UpdateEnvelope} {args : List Value} (h : s.applyUpdate x env m args = .ok s') :
    s'.outstanding = s.outstanding := by
  unfold applyUpdate at h
  split at h
  · cases h
    rfl
  · dsimp only at h
    split at h
    · cases h
      rfl
    · simp only [bind_eq_ok] at h
      obtain ⟨⟨hd, s₁⟩, h₁, h⟩ := h
      have hseen : s₁.outstanding = s.outstanding := (traces_decodeMessageHeaders h₁).outstanding
      have hvalidated : ∀ b : Bool, (if b = true then s₁.step (.validateUpdate m.updateId) else s₁).outstanding =
          s.outstanding := by
        intro b
        split
        · exact hseen
        · exact hseen
      split at h
      · cases h
        exact hvalidated _
      · cases h
        exact hvalidated _

theorem outstanding_applyQuery {m : QueryEnvelope} {args : List Value} :
    (s.applyQuery x env m args).outstanding = s.outstanding := by
  unfold applyQuery
  dsimp only
  split
  · rfl
  · split
    · next r hr =>
      change r.state.outstanding = _
      rw [decodeMessageHeaders_error hr]
      exact (traces_awaitIf s _).outstanding
    · next hd s₁ hr =>
      have hdecoded := (traces_decodeMessageHeaders hr).outstanding
      split
      · split <;> exact hdecoded
      · exact hdecoded

/-- The result of a parked activity retires its timers, and ends the park. -/
theorem keeps_activityResult {i : String} {c : Completion} (h : s.applyActivityResult x env i c = .ok s') :
    Keeps s.outstanding s'.outstanding := by
  unfold applyActivityResult at h
  split at h
  · cases h
    exact .refl _
  · next k e hfind =>
    have he : s.pendingActivities.get? k = some e := (asyncPendingById_some hfind).1
    have hretire := around_retireParkedTimers s k
    dsimp only at h
    split at h
    · cases h
      exact (hretire.tends (tends_popActivity _ k)).keeps
    · simp only [bind_eq_ok] at h
      obtain ⟨v, -, h⟩ := h
      rw [outstanding_resolveActivity h]
      exact (hretire.tends (tends_popActivity _ k)).keeps
    · exact (hretire.tends (tends_failAsync he h)).keeps

theorem keeps_activityHeartbeat {i : String} {ds : List Payload} (h : s.applyActivityHeartbeat env i ds = .ok s') :
    Keeps s.outstanding s'.outstanding := by
  unfold applyActivityHeartbeat at h
  split at h
  · cases h
    exact .refl _
  · next k e hfind =>
    simp only [bind_eq_ok, Except.ok.injEq] at h
    obtain ⟨v, -, rfl⟩ := h
    rw [(traces_awaitIf _ _).outstanding]
    exact keeps_setActivity s k (f := .heartbeat true) fun _ => rfl

theorem keeps_deliverInbox {m : Option Message} (h : s.deliverInbox x env m = .ok s') :
    Keeps s.outstanding s'.outstanding := by
  have hsame : ∀ {t : Interp}, t.outstanding = s.outstanding → Keeps s.outstanding t.outstanding := fun ht =>
    ht ▸ Keeps.refl _
  unfold deliverInbox at h
  split at h
  · cases h
    exact .refl _
  · next m =>
    have hadvance : (s.advanceTime m.sentAt).outstanding = s.outstanding := outstanding_advanceTime s _
    dsimp only at h
    split at h
    · exact hsame ((outstanding_applySignal h).trans hadvance)
    · simp only [bind_eq_ok] at h
      obtain ⟨⟨args, s₂⟩, h₂, h⟩ := h
      exact hsame ((outstanding_applyUpdate h).trans ((traces_decodeMessageArgs h₂).outstanding.trans hadvance))
    · simp only [bind_eq_ok, Except.ok.injEq] at h
      obtain ⟨⟨args, s₂⟩, h₂, rfl⟩ := h
      exact hsame (outstanding_applyQuery.trans ((traces_decodeMessageArgs h₂).outstanding.trans hadvance))
    · exact hadvance ▸ keeps_activityResult h
    · exact hadvance ▸ keeps_activityHeartbeat h
    · cases h
      refine hsame (Eq.trans ?_ hadvance)
      unfold applyCancel
      split
      · rfl
      · dsimp only
        split <;> rfl
    · cases h
      exact hsame hadvance
    · cases h
      exact hsame hadvance
    · cases h
      exact hsame hadvance

/-! ## A round -/

/-- **One event.** Where all is attended but what its own task stood for, all
is attended afterwards. -/
theorem attends_event {w : Waiter} {r : TaskResult} (hw : Warranted x s.slots.acts w)
    (hrest : ∀ d, w.command? ≠ some d → s.outstanding.Attends d)
    (hdead : w.kind = .actHb → ∀ e, s.pendingActivities.get? w.seq = some e →
      (e.startToClose.isSome || e.scheduleToClose.isSome) = true → s.Listens .actS2c w.seq)
    (h : s.deliverEvent x env w r = .ok s') (d : Command) : s'.outstanding.Attends d := by
  have hfinish : ∀ {c}, w.command? = some c → Tends c s.outstanding s'.outstanding → s'.outstanding.Attends d := by
    intro c hc ht
    by_cases hd : d = c
    · exact hd ▸ ht.own
    · exact ht.around d hd (hrest d fun h => hd (Option.some.inj (h.symm.trans hc)))
  unfold deliverEvent at h
  split at h
  · next hk =>
    split at h
    · exact keeps_deliverInbox h d (hrest d fun hc => by simp [Waiter.command?, hk] at hc)
    · exact absurd h raise_ne_ok
    · exact absurd h raise_ne_ok
  · next hk =>
    cases h
    exact hfinish (by simp only [Waiter.command?, hk]) (tends_deliverTimer s _)
  · next hk =>
    obtain ⟨e, he, hp⟩ := hw.main (by simp [Waiter.isMain, hk])
    exact hfinish (by simp only [Waiter.command?, hk]) (tends_activityEvent he hp h)
  · next hk => exact hfinish (by simp only [Waiter.command?, hk]) (tends_queuedEvent h)
  · next hk =>
    obtain ⟨e, he, hp, -⟩ := hw.park (by simp [Waiter.isPark, hk])
    exact hfinish (by simp only [Waiter.command?, hk]) (tends_parkEnd he hp h)
  · next hk =>
    obtain ⟨e, he, hp, -⟩ := hw.park (by simp [Waiter.isPark, hk])
    exact hfinish (by simp only [Waiter.command?, hk]) (tends_heartbeatCheck he hp (hdead hk e he) h)
  · next hk => exact hfinish (by simp only [Waiter.command?, hk]) (tends_childEvent h)

/-- Everything is attended. -/
def AllAttended (s : Interp) : Prop := ∀ d, s.outstanding.Attends d

/-- One turn of the loop that takes its waiter off the list. -/
theorem attended_turn (hp : s.Processing x []) (ha : s.AllAttended) {w : Waiter} {r : TaskResult} (hw : w ∈ s.waiters)
    {s₁ : Interp} (hr : s.removeWaiter w = .ok s₁) (h : s₁.deliverEvent x env w r = .ok s') : s'.AllAttended := by
  have hslots : s₁.slots = s.slots.drop w.task := slots_removeWaiter hr
  have hacts : s₁.pendingActivities = s.pendingActivities := congrArg Slots.acts hslots
  have hstays : ∀ v ∈ s.waiters, v ≠ w → v ∈ s₁.waiters := fun v hv hne => by
    have hmem : v ∈ (s.slots.drop w.task).waiters :=
      hp.inv.mem_drop.2 ⟨hv, fun ht => hne (List.inj_on_of_nodup_map hp.inv.tasks hv hw ht)⟩
    rw [← hslots] at hmem
    exact hmem
  have hneeds : ∀ d, s₁.outstanding.needs d = s.outstanding.needs d := fun d => by
    unfold removeWaiter at hr
    split at hr
    · cases hr
      cases d <;> rfl
    · exact absurd hr raise_ne_ok
  refine attends_event (by rw [hslots]; exact hp.inv.warranted w hw) (fun d hd => ?_) (fun hk e he hlimit => ?_) h
  · refine (ha d).frame (hneeds d ▸ List.Subset.refl _) fun v hv hc => hstays v hv ?_
    rintro rfl
    exact hd hc
  · -- The check of a park finds the park's deadline on the list.
    rw [hacts] at he
    obtain ⟨e', he', hparked, -⟩ := (hp.inv.warranted w hw).park (by simp [Waiter.isPark, hk])
    obtain rfl : e' = e := Option.some.inj (he'.symm.trans he)
    have hneed : [WaiterKind.actS2c] ∈ s.outstanding.needs (.activity w.seq) := by
      rw [needs_of_get? he, ActivityExec.needs_parked hparked, if_pos hlimit]
      exact List.mem_append_left _ List.mem_cons_self
    obtain ⟨v, hv, hkind, hseq⟩ := ha _ _ hneed
    have hkind : v.kind = .actS2c := List.mem_singleton.1 hkind
    refine ⟨v, hstays v hv ?_, hkind, hseq⟩
    rintro rfl
    rw [hkind] at hk
    cases hk

theorem attended_deliver {done : Done} {s₀ : Interp} (h₀ : s₀.Processing x []) : ∀ (ws : List Waiter) {s : Interp},
    ws ⊆ s₀.waiters → s.Processing x [] → Since s₀ s → s.AllAttended →
    ws.foldlM (deliverWaiter x env done) s = .ok s' → s'.AllAttended := by
  intro ws
  induction ws with
  | nil =>
    intro s _ _ _ ha h
    cases h
    exact ha
  | cons w ws ih =>
    intro s hsub hp hsince ha h
    rw [List.foldlM_cons, bind_eq_ok] at h
    obtain ⟨s₁, h₁, h⟩ := h
    have hw := hsub List.mem_cons_self
    obtain ⟨hp₁, hsince₁⟩ := deliverWaiter_processing h₀ hp hsince hw h₁
    refine ih (fun v hv => hsub (List.mem_cons_of_mem _ hv)) hp₁ hsince₁ ?_ h
    cases hr : done w.task with
    | none =>
      simp only [deliverWaiter, hr] at h₁
      cases h₁
      exact ha
    | some r =>
      simp only [deliverWaiter, hr, bind_eq_ok] at h₁
      obtain ⟨s₂, h₂, h₁⟩ := h₁
      exact attended_turn hp ha (hsince.removed h₀ hw h₂) h₂ h₁

/-! ## The drain -/

/-- All is attended, but for what the commands still to come are for. -/
def AttendedBut (s : Interp) (cs : List Command) : Prop := ∀ d, d ∈ cs ∨ s.outstanding.Attends d

theorem AttendedBut.keeps {cs : List Command} (h : s.AttendedBut cs) (hk : Keeps s.outstanding s'.outstanding)
    {cs' : List Command} (hc : cs ⊆ cs') : s'.AttendedBut cs' :=
  fun d => (h d).imp (fun hd => hc hd) (hk d)

/-- Something is asked for. -/
theorem AttendedBut.asks {c : Command} (h : s.AttendedBut s.commands) (ha : Around c s.outstanding s'.outstanding)
    (hc : s'.commands = s.commands ++ [c]) : s'.AttendedBut s'.commands := by
  intro d
  rw [hc]
  by_cases hd : d = c
  · exact .inl (List.mem_append_right _ (hd ▸ List.mem_cons_self))
  · exact (h d).imp (fun hd => List.mem_append_left _ hd) (ha d hd)

theorem touches_modifyChild (s : Interp) (k : Nat) (f : ChildExec → ChildExec) :
    Touches (.child k) s.outstanding { s with pendingChildren := s.pendingChildren.modify k f }.outstanding :=
  touches_child s.outstanding fun _ hj => Dict.get?_modify_other _ _ hj

/-- A change of a child that needs what it did. -/
theorem keeps_modifyChild (s : Interp) (k : Nat) {f : ChildExec → ChildExec} (hf : ∀ c, (f c).needs = c.needs) :
    Keeps s.outstanding { s with pendingChildren := s.pendingChildren.modify k f }.outstanding := by
  refine (touches_modifyChild s k f).keeps ?_
  simp only [needs_child, children_outstanding, Dict.get?_modify_self, Option.map_map]
  rw [show ChildExec.needs ∘ f = ChildExec.needs from funext hf]

theorem keeps_modifySend (s : Interp) (k : Nat) (f : PendingSend → PendingSend) :
    Keeps s.outstanding { s with pendingSends := s.pendingSends.modify k f }.outstanding := by
  refine (touches_send s.outstanding fun _ hj => Dict.get?_modify_other _ _ hj).keeps ?_
  simp only [needs_send, sends_outstanding, Dict.get?_modify_self, Option.isSome_map]
  rfl

theorem asks_startActivity (h : s.AttendedBut s.commands) (a : StartActivity) :
    (M.state (s.startActivity x a)).AttendedBut (M.state (s.startActivity x a)).commands := by
  have hqueue : ({ s with
      activitySeq := s.activitySeq + 1
      pendingActivities := s.pendingActivities.set (s.activitySeq + 1)
        ({ s with activitySeq := s.activitySeq + 1 }.newExec a (s.activitySeq + 1))
      commands := s.commands ++ [.activity (s.activitySeq + 1)] } : Interp).AttendedBut
        (s.commands ++ [.activity (s.activitySeq + 1)]) :=
    h.asks
      (touches_activity s.outstanding fun _ hj => Dict.get?_set_other _ _ hj).around rfl
  unfold startActivity assertNotReadOnly attemptStepFor
  split
  · exact h
  · simp only [ok_bind]
    split
    · split
      · simp only [ok_bind]
        split
        · exact h
        · split
          · exact h
          · exact hqueue
      · exact h
    · split
      · exact h
      · split
        · exact h
        · exact hqueue

theorem asks_cancelActivityFuture (h : s.AttendedBut s.commands) (k : Nat) :
    (s.cancelActivityFuture k).AttendedBut (s.cancelActivityFuture k).commands := by
  unfold cancelActivityFuture
  split
  · exact h
  · split
    · exact h
    · exact h.keeps (keeps_setActivity s k (f := .cancelFuture) fun _ => rfl) (List.Subset.refl _)

theorem asks_requestActivityCancel (h : s.AttendedBut s.commands) (k : Nat) :
    (s.requestActivityCancel k).AttendedBut (s.requestActivityCancel k).commands := by
  unfold requestActivityCancel
  split
  · exact h
  · split
    · have hask : (s.setActivity k .askCancel).AttendedBut s.commands :=
        h.keeps (keeps_setActivity s k (f := .askCancel) fun _ => rfl) (List.Subset.refl _)
      dsimp only
      split
      · exact hask
      · exact hask
    · exact asks_cancelActivityFuture h k

/-- A timer is cancelled with its task. -/
theorem keeps_cancelTimer (s : Interp) (k : Nat) : Keeps s.outstanding (s.cancelTimer k).outstanding := by
  unfold cancelTimer
  split
  · exact .refl _
  · have hretire : Around (.timer k) s.outstanding
        ({ s with waiters := s.waiters.filter fun w => ¬ (w.kind = .timer ∧ w.seq = k) } : Interp).outstanding := by
      refine around_retain (o := s.outstanding) fun w hw => ?_
      obtain ⟨hkind, rfl⟩ := not_not.1 (of_decide_eq_false hw)
      simp only [Waiter.command?, hkind]
    exact (hretire.tends (tends_popTimer _ k)).keeps

/-- One request of user code. -/
theorem asks_userOp (h : s.AttendedBut s.commands) (o : UserOp) :
    (M.state (o.run x s)).AttendedBut (M.state (o.run x s)).commands := by
  have hends : ∀ {t : Interp}, Ends s t → t.AttendedBut t.commands := by
    rintro t ⟨_, _, _, _, rfl⟩
    exact h
  cases o <;> simp only [UserOp.run]
  case startActivity a => exact asks_startActivity h a
  case requestActivityCancel k => exact asks_requestActivityCancel h k
  case cancelActivityAwait k => exact asks_cancelActivityFuture h k
  case cancelTimer k =>
    have hcommands : (s.cancelTimer k).commands = s.commands := by
      unfold cancelTimer
      split <;> rfl
    change (s.cancelTimer k).AttendedBut (s.cancelTimer k).commands
    rw [hcommands]
    exact h.keeps (keeps_cancelTimer s k) (List.Subset.refl _)
  case createTimer d =>
    unfold createTimer assertNotReadOnly
    split
    · exact h
    · simp only [ok_bind]
      split
      · exact h
      · exact h.asks
          (touches_timer s.outstanding fun _ hj => Dict.get?_set_other _ _ hj).around rfl
  case startChildWorkflow c =>
    unfold startChildWorkflow assertNotReadOnly
    split
    · exact h
    · simp only [ok_bind]
      split
      · exact h
      · exact h.asks
          (touches_child s.outstanding fun _ hj => Dict.get?_set_other _ _ hj).around rfl
  case cancelChildStart k =>
    exact h.keeps (keeps_modifyChild s k (f := fun c => { c with startCancelled := true }) fun _ => rfl)
      (List.Subset.refl _)
  case cancelChildResult k =>
    unfold cancelChildResult
    split
    · exact h
    · split
      · exact h
      · exact h.keeps (keeps_modifyChild s k (f := fun c => { c with resultCancelled := true }) fun _ => rfl)
          (List.Subset.refl _)
  case sendToWorkflow target envelope chain =>
    unfold sendToWorkflow assertNotReadOnly
    split
    · exact h
    · exact h.asks
        (touches_send s.outstanding fun _ hj => Dict.get?_set_other _ _ hj).around rfl
  case cancelSend k => exact h.keeps (keeps_modifySend s k _) (List.Subset.refl _)
  case upsertMemo u =>
    unfold upsertMemo assertNotReadOnly
    split
    · exact h
    · exact h.keeps (Keeps.refl _) (List.subset_append_left _ _)
  case patched i =>
    unfold patch assertNotReadOnly
    split
    · exact h
    · simp only [ok_bind]
      split
      · exact h
      · split
        · exact h.asks
            (touches_patch s.outstanding fun _ hj => Dict.get?_set_other _ _ hj).around rfl
        · exact h
  case setHandler c n d =>
    unfold setHandler assertNotReadOnly
    split
    · exact h
    · simp only [ok_bind]
      split
      · exact h
      · exact h
      · split
        · exact h
        · split <;> exact h
  case startHandler k => exact hends (ends_startHandler x s k)
  case handlerEnds k e => exact hends (ends_handlerEnds x s k e)
  case primaryEnds e => exact hends (ends_primaryEnds x s e)
  case abort e => exact hends (ends_recordWorkflowError x s e)

theorem asks_drain (h : s.AttendedBut s.commands) (code : Code) :
    (s.drainOutsideTask x code).AttendedBut (s.drainOutsideTask x code).commands :=
  Code.drain_induct (P := fun s => s.AttendedBut s.commands) (fun o hs => asks_userOp hs o) code h

/-! ## The sweep and the commands -/

/-- A cancelled activity is dropped with its tasks. -/
theorem keeps_sweepActivity (env : Env) (s : Interp) (k : Nat) :
    Keeps s.outstanding (s.sweepActivity env k).outstanding := by
  cases he : s.pendingActivities.get? k with
  | none =>
    rw [sweepActivity_none he]
    exact .refl _
  | some e =>
    obtain ⟨l, hl⟩ := sweepActivity_eq env s k he
    rw [hl]
    have hretire : Around (.activity k) s.outstanding
        ({ s with waiters := s.waiters.filter fun w => !w.ofActivity k } : Interp).outstanding := by
      refine around_retain (o := s.outstanding) fun w hw => ?_
      obtain ⟨hkind, rfl⟩ : w.kind.isActivity = true ∧ w.seq = k := by simpa [Waiter.ofActivity] using hw
      cases hk : w.kind <;> simp [hk, WaiterKind.isActivity] at hkind <;> simp only [Waiter.command?, hk]
    exact (hretire.tends (tends_popActivity _ k)).keeps

/-- A child whose result nobody awaits is dropped with its task. -/
theorem keeps_sweepChild (env : Env) (s : Interp) (k : Nat) : Keeps s.outstanding (s.sweepChild env k).outstanding := by
  have hretire : Around (.child k) s.outstanding
      ({ s with waiters := s.waiters.filter fun w => ¬ (w.kind = .child ∧ w.seq = k) } : Interp).outstanding := by
    refine around_retain (o := s.outstanding) fun w hw => ?_
    obtain ⟨hkind, rfl⟩ := not_not.1 (of_decide_eq_false hw)
    simp only [Waiter.command?, hkind]
  have hdrop := (hretire.tends (tends_popChild _ k)).keeps
  unfold sweepChild
  split
  · exact .refl _
  · dsimp only
    split
    · rw [(traces_sendCancel env _ _).outstanding]
      exact hdrop
    · exact hdrop

theorem keeps_sweepCancellations (env : Env) (s : Interp) :
    Keeps s.outstanding (s.sweepCancellations env).outstanding := by
  have hfold : ∀ {g : Interp → Nat → Interp}, (∀ s k, Keeps s.outstanding (g s k).outstanding) →
      ∀ (l : List Nat) (s : Interp), Keeps s.outstanding (l.foldl g s).outstanding := by
    intro g hg l
    induction l with
    | nil => exact fun _ => .refl _
    | cons k l ih => exact fun s => (hg s k).trans (ih (g s k))
  have hwait : ∀ s k, Keeps s.outstanding (sweepWait env s k).outstanding := fun s k => by
    rw [(traces_sweepWait env s k).outstanding]
    exact .refl _
  unfold sweepCancellations
  dsimp only
  refine Keeps.trans ?_ (hfold (keeps_sweepChild env) _ _)
  refine Keeps.trans ?_ (hfold (keeps_sweepActivity env) _ _)
  exact hfold hwait _ { s with queuedWaitCancelSeqs := [] }

theorem outstanding_flush {b : Bool} (h : s.flushPendingHandlerSignals x env = .ok (b, s')) :
    s'.outstanding = s.outstanding := by
  unfold flushPendingHandlerSignals at h
  split at h
  · cases h
    rfl
  · simp only [bind_eq_ok, Except.ok.injEq, Prod.mk.injEq] at h
    obtain ⟨s₁, h₁, -, rfl⟩ := h
    exact foldlM_induct (P := fun _ t => t.outstanding = s.outstanding) h₁ rfl fun hP hf =>
      (outstanding_applySignal hf).trans hP

theorem tends_processTimer {b : Bool} (h : s.processTimer x k = .ok (b, s')) :
    Tends (.timer k) s.outstanding s'.outstanding := by
  unfold processTimer at h
  split at h
  · next hk =>
    cases h
    exact .absent (needs_timer_none hk)
  · next v hk =>
    dsimp only at h
    split at h
    · cases h
      exact tends_popTimer s k
    · simp only [bind_eq_ok, Except.ok.injEq, Prod.mk.injEq] at h
      obtain ⟨s₁, h₁, -, rfl⟩ := h
      have hsame := (traces_checkReplayHorizon h₁).outstanding
      refine ⟨hsame ▸ (keeps_launch s₁.outstanding _).around, fun g hg => ?_⟩
      have hneeds : s₁.outstanding.needs (.timer k) = [[.timer]] := by
        rw [hsame]
        simp only [needs_timer, timers_outstanding, hk, Option.isSome_some, if_true]
      change g ∈ s₁.outstanding.needs (.timer k) at hg
      rw [hneeds, List.mem_singleton] at hg
      subst hg
      exact ⟨_, List.mem_append_right _ List.mem_cons_self, List.mem_cons_self, rfl⟩

theorem tends_launchQueued {e : ActivityExec} {q : String} (he : s.pendingActivities.get? k = some e)
    (hp : e.asyncPending = false) (h : s.launchQueuedActivity x env k e q = .ok s') :
    Tends (.activity k) s.outstanding s'.outstanding := by
  have hrefused : ∀ (s₁ s₂ : Interp) (o : ActivityOutcome), s₁.outstanding = s.outstanding →
      ((if e.futureCancelled then .ok (s₁.popActivity k) else (s₁.popActivity k).resolveActivity k e o) : M Interp) =
        .ok s₂ → Tends (.activity k) s.outstanding s₂.outstanding := by
    intro s₁ s₂ o hs₁ hok
    rw [← hs₁]
    split at hok
    · cases hok
      exact tends_popActivity s₁ k
    · rw [outstanding_resolveActivity hok]
      exact tends_popActivity s₁ k
  unfold launchQueuedActivity at h
  dsimp only at h
  split at h
  · exact hrefused s.await s' _ rfl h
  · split at h
    · exact hrefused (s.await.step _) s' _ rfl h
    · have hlaunch := tends_launchMain (s := s.await.step (.enqueue (activityDbosId x.workflowId k)))
        (f := .dispatched (activityDbosId x.workflowId k)) (.activityResult (activityDbosId x.workflowId k)) he hp
        (.inr (rfl : WaiterKind.qActivity = _))
      cases h
      split
      · rw [(traces_signalQueuedActivityCancel env _ e _).outstanding]
        exact hlaunch
      · exact hlaunch

theorem tends_processActivity {cs : List Command} (hpr : s.Processing x (.activity k :: cs))
    (h : s.processActivity x env k = .ok s') : Tends (.activity k) s.outstanding s'.outstanding := by
  unfold processActivity at h
  split at h
  · next hk =>
    cases h
    exact .absent (needs_activity_none hk)
  · next e he =>
    simp only [bind_eq_ok] at h
    obtain ⟨⟨⟨ps, hds⟩, s₁⟩, h₁, s₂, h₂, h⟩ := h
    have hp : e.asyncPending = false := (hpr.inv.queued List.mem_cons_self).2.2 e he
    have hencoded : s₂.outstanding = (s.setActivity k (.encoded ps hds)).outstanding := by
      rw [(traces_checkReplayHorizon h₂).outstanding]
      have hset : (s₁.setActivity k (.encoded ps hds)).outstanding = (s.setActivity k (.encoded ps hds)).outstanding :=
        congrArg (fun o : Outstanding => o.modify k (.encoded ps hds)) (traces_encodeCall h₁).outstanding
      split
      · exact (outstanding_resolveOwnQueue x env _).trans hset
      · exact hset
    have he₂ : s₂.pendingActivities.get? k = some (e.encoded ps hds) := by
      refine (congrArg (fun o : Outstanding => o.activities.get? k) hencoded).trans ?_
      change (s.pendingActivities.modify k _).get? k = _
      rw [Dict.get?_modify_self, he, Option.map_some]
    have haround : Around (.activity k) s.outstanding s₂.outstanding := hencoded ▸ around_modify s.outstanding k _
    refine haround.tends ?_
    split at h
    · exact tends_launchAttempt he₂ hp h
    · split at h
      · exact tends_launchAttempt he₂ hp h
      · exact tends_launchQueued he₂ hp h

theorem outstanding_enqueueChild (x : Execution) (env : Env) (s : Interp) (c : ChildExec) :
    (enqueued (s.enqueueChild x env c)).outstanding = s.outstanding := by
  rcases traces_enqueueChild x env s c with h | h
  · exact h.outstanding
  · rw [h.outstanding]
    have hown := outstanding_resolveOwnQueue x env (s.step (.childExists c.childId))
    unfold recordChild
    dsimp only
    split
    · exact hown
    · exact hown

theorem tends_startChild (k : Nat) (c : ChildExec) :
    Tends (.child k) s.outstanding (s.startChild x env k c).outstanding := by
  have hsame := outstanding_enqueueChild x env s c
  unfold startChild
  split
  · next f s₁ h₁ =>
    rw [h₁] at hsame
    have hdrop := tends_popChild s₁ k
    rw [show s₁.outstanding = s.outstanding from hsame] at hdrop
    dsimp only
    split
    · exact hdrop
    · exact hdrop
  · next s₁ h₁ =>
    rw [h₁] at hsame
    have hmark := (touches_modifyChild s₁ k fun c => { c with started := true }).around
    rw [show s₁.outstanding = s.outstanding from hsame] at hmark
    have hlaunch : ∀ t : Interp, t.outstanding =
        { s₁ with pendingChildren := s₁.pendingChildren.modify k fun c => { c with started := true } }.outstanding →
        Tends (.child k) s.outstanding (t.launchWaiter .child k (.childResult c.childId)).outstanding := by
      intro t ht
      refine ⟨hmark.trans (ht ▸ (keeps_launch t.outstanding _).around), fun g hg => ?_⟩
      change g ∈ t.outstanding.needs (.child k) at hg
      rw [ht] at hg
      simp only [needs_child, children_outstanding, Dict.get?_modify_self, Option.map_map] at hg
      cases hk : s₁.pendingChildren.get? k with
      | none =>
        rw [hk] at hg
        cases hg
      | some c' =>
        rw [hk, Option.map_some, Option.getD_some] at hg
        rw [List.mem_singleton.1 (show g ∈ [[WaiterKind.child]] from hg)]
        exact ⟨_, List.mem_append_right _ List.mem_cons_self, List.mem_cons_self, rfl⟩
    dsimp only
    split
    · exact hlaunch _ rfl
    · exact hlaunch _ rfl

theorem tends_processSend (h : s.processSend x env k = .ok s') : Tends (.send k) s.outstanding s'.outstanding := by
  simp only [processSend, bind_eq_ok] at h
  obtain ⟨s₁, h₁, h⟩ := h
  split at h
  · exact absurd h raise_ne_ok
  · next p hp =>
    simp only [bind_eq_ok] at h
    obtain ⟨⟨m, s₂⟩, h₂, h⟩ := h
    have hdrop : Tends (.send k) s.outstanding s₂.outstanding := by
      rw [← (traces_checkReplayHorizon h₁).outstanding, (traces_encodeOutgoing h₂).outstanding]
      exact tends_popSend s₁ k
    have hchain : ∀ b : Bool, Tends (.send k) s.outstanding
        (if b = true then s₂.resolveCurrentRun env p.target else s₂).outstanding := by
      intro b
      split
      · rw [(traces_resolveCurrentRun env s₂ _).outstanding]
        exact hdrop
      · exact hdrop
    dsimp only at h
    split at h
    · cases h
      exact hchain _
    · cases h
      exact hchain _

theorem tends_processPatch (h : s.processPatch x k = .ok s') : Tends (.patch k) s.outstanding s'.outstanding := by
  unfold processPatch at h
  split at h
  · exact absurd h raise_ne_ok
  · simp only [bind_eq_ok, Except.ok.injEq] at h
    obtain ⟨s₁, h₁, rfl⟩ := h
    change Tends _ _ s₁.outstanding
    rw [(traces_checkReplayHorizon h₁).outstanding]
    exact tends_popPatch s k

/-- **One command** does what it is for, or launches the task that will. -/
theorem tends_command {cs : List Command} {c : Command} (hpr : s.Processing x (c :: cs)) {b : Bool}
    (h : s.processCommand x env c = .ok (b, s')) : Tends c s.outstanding s'.outstanding := by
  cases c with
  | timer k => exact tends_processTimer h
  | activity k =>
    simp only [processCommand, except_map_eq_ok] at h
    obtain ⟨s₁, h₁, heq⟩ := h
    cases heq
    exact tends_processActivity hpr h₁
  | child k =>
    simp only [processCommand, bind_eq_ok] at h
    obtain ⟨s₁, h₁, h⟩ := h
    split at h
    · exact absurd h raise_ne_ok
    · cases h
      rw [← (traces_checkReplayHorizon h₁).outstanding]
      exact tends_startChild k _
  | send k =>
    simp only [processCommand, except_map_eq_ok] at h
    obtain ⟨s₁, h₁, heq⟩ := h
    cases heq
    exact tends_processSend h₁
  | attributes =>
    simp only [processCommand, except_map_eq_ok, processAttributes, bind_eq_ok] at h
    obtain ⟨s₁, ⟨ps, -, s₂, h₂, h₁⟩, heq⟩ := h
    cases heq
    cases h₁
    have hsame : (s₂.step .updateAttributes).outstanding = s.outstanding := (traces_checkReplayHorizon h₂).outstanding
    rw [hsame]
    exact .absent rfl
  | patch k =>
    simp only [processCommand, except_map_eq_ok] at h
    obtain ⟨s₁, h₁, heq⟩ := h
    cases heq
    exact tends_processPatch h₁

theorem attended_commands (cs : List Command) : ∀ {s : Interp} {p b : Bool}, s.Processing x cs → s.AttendedBut cs →
    processCommands x env cs p s = .ok (b, s') → s'.AllAttended := by
  induction cs with
  | nil =>
    intro s p b _ ha h
    cases h
    exact fun d => (ha d).resolve_left List.not_mem_nil
  | cons c cs ih =>
    intro s p b hpr ha h
    simp only [processCommands, bind_eq_ok] at h
    obtain ⟨⟨b₁, s₁⟩, h₁, h⟩ := h
    have ht := tends_command hpr h₁
    refine ih (processing_command hpr h₁) (fun d => ?_) h
    by_cases hd : d = c
    · exact .inr (hd ▸ ht.own)
    · exact (ha d).imp (fun hm => (List.mem_cons.1 hm).resolve_left hd) (ht.around d hd)

/-! ## A pass -/

theorem attended_settle (ha : s.AllAttended) {late : Bool} {turn : Turn} (h : s.settle x env late = .ok (turn, s')) :
    s'.AllAttended ∧ (turn = .wait → ∃ w ∈ s'.waiters, w.kind = .inbox) := by
  unfold settle at h
  split at h
  · cases h
    exact ⟨ha, fun hwait => by cases hwait⟩
  · simp only [bind_eq_ok] at h
    obtain ⟨s₁, h₁, h⟩ := h
    have hsame : s₁.outstanding = s.outstanding := (traces_flushOutbox h₁).outstanding
    have ha₁ : s₁.AllAttended := fun d => hsame ▸ ha d
    split at h
    · cases h
      exact ⟨ha₁, fun hwait => by cases hwait⟩
    · cases h
      change (s₁.ensureInboxWaiter x).AllAttended ∧ (_ → ∃ w ∈ (s₁.ensureInboxWaiter x).waiters, w.kind = .inbox)
      unfold ensureInboxWaiter
      split
      · next hany =>
        obtain ⟨w, hw, hk⟩ := List.any_eq_true.1 hany
        exact ⟨ha₁, fun _ => ⟨w, hw, of_decide_eq_true hk⟩⟩
      · exact ⟨fun d => keeps_launch s₁.outstanding _ d (ha₁ d),
          fun _ => ⟨_, List.mem_append_right _ List.mem_cons_self, rfl⟩⟩

/-- **A pass** attends to all that its drain has asked for. -/
theorem attended_pass (hw : s.Waits x) (ha : s.AttendedBut s.commands) {late : Bool} {code : Code} {turn : Turn}
    (h : s.pass x env late code = .ok (turn, s')) :
    s'.AllAttended ∧ (turn = .wait → ∃ w ∈ s'.waiters, w.kind = .inbox) := by
  simp only [pass, afterDrain, bind_eq_ok] at h
  obtain ⟨⟨b, s₁⟩, h₁, ⟨p, s₂⟩, h₂, h⟩ := h
  have hcommands : s₁.commands = (s.drainOutsideTask x code).commands :=
    (commands_flushSignals h₁).trans (commands_sweepCancellations env _)
  have hsw := swept_flush (swept_sweepCancellations env (waits_drain hw code)) h₁
  have hbut : ({ s₁ with commands := [] } : Interp).AttendedBut s₁.commands := by
    rw [hcommands]
    refine (asks_drain ha code).keeps ?_ (List.Subset.refl _)
    change Keeps _ s₁.outstanding
    rw [outstanding_flush h₁]
    exact keeps_sweepCancellations env _
  have ha₂ := attended_commands s₁.commands (processing_begin hsw) hbut h₂
  split at h
  · cases h
    exact ⟨ha₂, fun hwait => by cases hwait⟩
  · exact attended_settle ha₂ h

/-- What is attended in each phase. -/
def AttendedIn : Phase → Interp → Prop
  | .draining, s => s.AttendedBut s.commands
  | .waiting, s => s.AllAttended ∧ ∃ w ∈ s.waiters, w.kind = .inbox
  | _, _ => True

end Interp

open Interp

/-- **No wake-up is lost.** In every state a run waits in, the inbox has its
task, and so does everything that is pending: each timer, each started child,
each activity its attempt, backoff or queued result, or the timers of its
park. Nothing is left to send, to start or to mark. -/
theorem waiting_attended {x : Execution} {c : Config} (h : Reachable x c) (hc : c.phase = .waiting) :
    (∃ w ∈ c.interp.waiters, w.kind = .inbox) ∧ ∀ d, c.interp.outstanding.Attends d := by
  have hboth : c.interp.WaitsIn x c.phase ∧ c.interp.AttendedIn c.phase := by
    refine h.invariant (P := fun p s => s.WaitsIn x p ∧ s.AttendedIn p) (fun t m => ⟨waits_start t m, fun d => .inr ?_⟩)
      ?_ ?_ (by simp [hc])
    · exact attends_of_nil (by cases d <;> rfl)
    · rintro s s' turn env late code ⟨hw, ha⟩ hs
      have hpr := processing_pass hw hs
      obtain ⟨hall, hinbox⟩ := attended_pass hw ha hs
      cases turn with
      | again => exact ⟨(processing_idle hpr).waits, fun d => .inr (hall d)⟩
      | wait => exact ⟨hpr, hall, hinbox rfl⟩
      | close => exact ⟨trivial, trivial⟩
      | taskFailure e => exact ⟨trivial, trivial⟩
    · rintro s s' env done ⟨hw, ha, -⟩ - hs
      have hp₀ : (s.step .asyncioWait).Processing x [] := hw.of_eq (slots_step s _)
      have hpr := deliver_processing hp₀ hs
      have hall := attended_deliver hp₀ _ (List.Subset.refl _) hp₀ (.refl _) ha hs
      exact ⟨(processing_idle hpr).waits, fun d => .inr (hall d)⟩
  rw [hc] at hboth
  exact ⟨hboth.2.2, hboth.2.1⟩

/-- A timer, a child, and an activity that is parked with a deadline and a
heartbeat window. -/
def busyRun : List Input :=
  [.drain [.startActivity
      { activityName := "act", startToCloseTimeout := some ⟨1000000⟩, heartbeatTimeout := some ⟨1000000⟩ },
      .createTimer 5, .startChildWorkflow { typeName := "Child" }],
    .drain [], .round .calm [(0, .attempt (.asyncPending 0 0))], .drain []]

/-- It waits for all four of them. -/
theorem busyRun_attended : ∃ s, Reachable .plain ⟨.waiting, s⟩ ∧ s.Listens .timer 1 ∧ s.Listens .child 1 ∧
    s.Listens .actS2c 1 ∧ s.Listens .actHb 1 := by
  have hrun : ((Execution.plain.run 0 busyRun).phase.isWaiting &&
      decide ([WaiterKind.timer] ∈ (Execution.plain.run 0 busyRun).interp.outstanding.needs (.timer 1)) &&
      decide ([WaiterKind.child] ∈ (Execution.plain.run 0 busyRun).interp.outstanding.needs (.child 1)) &&
      decide ([WaiterKind.actS2c] ∈ (Execution.plain.run 0 busyRun).interp.outstanding.needs (.activity 1)) &&
      decide ([WaiterKind.actHb] ∈ (Execution.plain.run 0 busyRun).interp.outstanding.needs (.activity 1))) = true := by
    decide +kernel
  simp only [Bool.and_eq_true, decide_eq_true_eq] at hrun
  obtain ⟨⟨⟨⟨hphase, htimer⟩, hchild⟩, hdeadline⟩, hheartbeat⟩ := hrun
  have hreach := Execution.run_reachable .plain 0 busyRun
  generalize Execution.plain.run 0 busyRun = c at *
  obtain ⟨phase, s⟩ := c
  obtain rfl : phase = .waiting := Phase.isWaiting_iff.1 hphase
  obtain ⟨-, hattends⟩ := waiting_attended hreach rfl
  have hlistens : ∀ {kind : WaiterKind} {d : Command}, [kind] ∈ s.outstanding.needs d → s.Listens kind d.seq := by
    intro kind d hneed
    obtain ⟨w, hw, hkind, hseq⟩ := hattends d _ hneed
    exact ⟨w, hw, List.mem_singleton.1 hkind, hseq⟩
  exact ⟨s, hreach, hlistens htimer, hlistens hchild, hlistens hdeadline, hlistens hheartbeat⟩

end Dbosify
