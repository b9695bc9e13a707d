/-
The waiters, and what they wait for.

A waiter is launched for something: a pending activity's attempt or backoff,
its park, its queued result, a timer, a child, the inbox. `Warranted` says
what the state must hold for each kind, and `WaiterInv` that every waiter of
the list is warranted, by one activity at most.

Everything here is about `Slots`, the fields that matter; the rest of the
state may change freely. One lemma for each kind of write.
-/
import Dbosify.Frames
import Mathlib.Data.List.Pairwise

namespace Dbosify

open Py (Dict)

/-- The part of the state the waiters answer to, and the commands that will
launch more of them. -/
structure Slots where
  waiters : List Waiter
  nextTask : Nat
  acts : Dict Nat ActivityExec
  activitySeq : Nat
  cancelled : List Nat
  commands : List Command

def Interp.slots (s : Interp) : Slots :=
  ⟨s.waiters, s.nextTask, s.pendingActivities, s.activitySeq, s.cancelledActivitySeqs, s.commands⟩

namespace Slots

/-- A waiter is launched. -/
def launch (σ : Slots) (kind : WaiterKind) (seq : Nat) (op : Op) : Slots :=
  { σ with waiters := σ.waiters ++ [{ kind, seq, task := σ.nextTask, op }], nextTask := σ.nextTask + 1 }

/-- An exec changes. -/
def modify (σ : Slots) (k : Nat) (f : ActivityExec → ActivityExec) : Slots :=
  { σ with acts := σ.acts.modify k f }

/-- An exec is dropped. -/
def pop (σ : Slots) (k : Nat) : Slots := { σ with acts := σ.acts.pop k }

/-- Some waiters are retired. -/
def retain (σ : Slots) (p : Waiter → Bool) : Slots := { σ with waiters := σ.waiters.filter p }

/-- The waiter whose task this is goes off the list. -/
def drop (σ : Slots) (t : Nat) : Slots := { σ with waiters := σ.waiters.eraseP (·.task = t) }

/-- No waiter of the activity `k`. -/
def Lone (σ : Slots) (k : Nat) : Prop := ∀ w ∈ σ.waiters, w.ofActivity k = false

end Slots

/-! ## What each helper does to the slots -/

namespace Interp

variable (s : Interp)

@[simp] theorem slots_emit (a : Coop.Act Op) : (s.emit a).slots = s.slots := rfl
@[simp] theorem slots_await : s.await.slots = s.slots := rfl
@[simp] theorem slots_step (o : Op) : (s.step o).slots = s.slots := rfl
@[simp] theorem slots_suspend : s.suspend.slots = s.slots := rfl
@[simp] theorem slots_wake (r : Ready) : (s.wake r).slots = s.slots := rfl
@[simp] theorem slots_reply (k : EventKey) (r : Reply) : (s.reply k r).slots = s.slots := rfl
@[simp] theorem slots_popActivity (k : Nat) : (s.popActivity k).slots = s.slots.pop k := rfl
@[simp] theorem slots_setActivity (k : Nat) (f : ActivityExec → ActivityExec) :
    (s.setActivity k f).slots = s.slots.modify k f := rfl
@[simp] theorem slots_launchWaiter (kind : WaiterKind) (seq : Nat) (op : Op) :
    (s.launchWaiter kind seq op).slots = s.slots.launch kind seq op := rfl

@[simp] theorem slots_awaitIf (b : Bool) : (s.awaitIf b).slots = s.slots := by
  cases b <;> rfl

@[simp] theorem slots_advanceTime (t : Option Seconds) : (s.advanceTime t).slots = s.slots := by
  unfold advanceTime
  split
  · split <;> rfl
  · rfl

@[simp] theorem slots_retireParkedTimers (k : Nat) :
    (s.retireParkedTimers k).slots =
      s.slots.retain fun w => ¬ ((w.kind = .actS2c ∨ w.kind = .actHb) ∧ w.seq = k) := rfl

theorem slots_removeWaiter {s s' : Interp} {w : Waiter} (h : s.removeWaiter w = .ok s') :
    s'.slots = s.slots.drop w.task := by
  unfold removeWaiter at h
  split at h
  · cases h; rfl
  · exact absurd h raise_ne_ok

end Interp

/-! ## Warrants -/

/-- What the state holds for a waiter. -/
def Warranted (x : Execution) (acts : Dict Nat ActivityExec) (w : Waiter) : Prop :=
  match w.kind with
  | .inbox => ∃ t, w.op = .recv t
  | .timer => ∃ d, w.op = .sleep d
  | .child => ∃ c, w.op = .childResult c
  | .activity => ∃ e, acts.get? w.seq = some e ∧ e.asyncPending = false ∧ x.registered e.activityName = true ∧
      (if e.inBackoff then w.op = .sleep e.pendingWaitSeconds else ∃ n d t, w.op = .attempt w.seq n d t)
  | .qActivity => ∃ e, acts.get? w.seq = some e ∧ e.asyncPending = false ∧ ∃ d, w.op = .activityResult d
  | .actS2c => ∃ e, acts.get? w.seq = some e ∧ e.asyncPending = true ∧ x.registered e.activityName = true ∧
      w.op = .sleep e.pendingWaitSeconds
  | .actHb => ∃ e, acts.get? w.seq = some e ∧ e.asyncPending = true ∧ x.registered e.activityName = true ∧
      e.heartbeatTimeout.isSome = true ∧ ∃ d, w.op = .sleep d

/-- The waiters an activity has one of. -/
def Waiter.isMain (w : Waiter) : Bool := w.kind = .activity ∨ w.kind = .qActivity

/-- The waiters of a park. -/
def Waiter.isPark (w : Waiter) : Bool := w.kind = .actS2c ∨ w.kind = .actHb

theorem Waiter.ofActivity_iff {w : Waiter} {k : Nat} :
    w.ofActivity k = true ↔ (w.isMain = true ∨ w.isPark = true) ∧ w.seq = k := by
  cases hk : w.kind <;> simp [ofActivity, WaiterKind.isActivity, isMain, isPark, hk]

/-- Only the execs of its own activity matter to a waiter. -/
theorem Warranted.frame {x : Execution} {acts acts' : Dict Nat ActivityExec} {w : Waiter}
    (h : Warranted x acts w) (hk : w.kind.isActivity = true → acts'.get? w.seq = acts.get? w.seq) :
    Warranted x acts' w := by
  unfold Warranted at h ⊢
  cases hw : w.kind <;> simp only [hw] at h ⊢
  case inbox | timer | child => exact h
  all_goals rw [hk (by rw [hw]; rfl)]; exact h

/-- A change of an exec that no warrant reads. -/
theorem Warranted.modify_same {x : Execution} {acts : Dict Nat ActivityExec} {w : Waiter} {k : Nat}
    {f : ActivityExec → ActivityExec} (h : Warranted x acts w)
    (hf : ∀ e, (f e).asyncPending = e.asyncPending ∧ (f e).inBackoff = e.inBackoff ∧
      (f e).pendingWaitSeconds = e.pendingWaitSeconds ∧ (f e).activityName = e.activityName ∧
      (f e).heartbeatTimeout = e.heartbeatTimeout) : Warranted x (acts.modify k f) w := by
  by_cases hk : w.seq = k
  · subst hk
    unfold Warranted at h ⊢
    cases hw : w.kind <;> simp only [hw] at h ⊢
    case inbox | timer | child => exact h
    all_goals
      obtain ⟨e, he, hrest⟩ := h
      obtain ⟨h₁, h₂, h₃, h₄, h₅⟩ := hf e
      refine ⟨f e, by rw [Dict.get?_modify_self, he]; rfl, ?_⟩
      simpa only [h₁, h₂, h₃, h₄, h₅] using hrest
  · exact h.frame fun _ => Dict.get?_modify_other _ _ hk

theorem Warranted.main {x : Execution} {acts : Dict Nat ActivityExec} {w : Waiter} (h : Warranted x acts w)
    (hm : w.isMain = true) : ∃ e, acts.get? w.seq = some e ∧ e.asyncPending = false := by
  unfold Warranted at h
  cases hw : w.kind <;> simp [Waiter.isMain, hw] at hm <;> simp only [hw] at h
  all_goals obtain ⟨e, he, hp, -⟩ := h; exact ⟨e, he, hp⟩

theorem Warranted.park {x : Execution} {acts : Dict Nat ActivityExec} {w : Waiter} (h : Warranted x acts w)
    (hp : w.isPark = true) :
    ∃ e, acts.get? w.seq = some e ∧ e.asyncPending = true ∧ x.registered e.activityName = true := by
  unfold Warranted at h
  cases hw : w.kind <;> simp [Waiter.isPark, hw] at hp <;> simp only [hw] at h
  all_goals obtain ⟨e, he, ha, hr, -⟩ := h; exact ⟨e, he, ha, hr⟩

/-! ## The invariant -/

/-- The activities whose command is still to come. -/
def activitySeqs (cs : List Command) : List Nat :=
  cs.filterMap fun
    | .activity k => some k
    | _ => none

/-- Every waiter is warranted, and no two by the same thing. `cs` are the
activities whose command is still to come: they have no waiter yet. -/
structure WaiterInv (x : Execution) (σ : Slots) (cs : List Nat) : Prop where
  tasks : (σ.waiters.map (·.task)).Nodup
  bound : ∀ w ∈ σ.waiters, w.task < σ.nextTask
  warranted : ∀ w ∈ σ.waiters, Warranted x σ.acts w
  single : σ.waiters.Pairwise fun a b => a.isMain = true → b.isMain = true → a.seq ≠ b.seq
  inbox : σ.waiters.Pairwise fun a b => a.kind = .inbox → b.kind ≠ .inbox
  seqs : ∀ {k e}, σ.acts.get? k = some e → k ≤ σ.activitySeq
  cancelled : ∀ {k e}, σ.acts.get? k = some e → e.futureCancelled = true → k ∈ σ.cancelled
  /-- A park is the park of an attempt, whose name was known. -/
  parked : ∀ {k e}, σ.acts.get? k = some e → e.asyncPending = true → x.registered e.activityName = true
  distinct : cs.Nodup
  queued : ∀ {k}, k ∈ cs → k ≤ σ.activitySeq ∧ σ.Lone k ∧ ∀ e, σ.acts.get? k = some e → e.asyncPending = false

/-- With distinct tasks, erasing the first with a task erases the one. -/
theorem mem_eraseP_task {l : List Waiter} {t : Nat} {v : Waiter} (hn : (l.map (·.task)).Nodup) :
    v ∈ l.eraseP (·.task = t) ↔ v ∈ l ∧ v.task ≠ t := by
  induction l with
  | nil => simp
  | cons w l ih =>
    rw [List.map_cons, List.nodup_cons] at hn
    by_cases hw : w.task = t
    · rw [List.eraseP_cons_of_pos (by simpa using hw), List.mem_cons]
      constructor
      · intro hv
        exact ⟨.inr hv, fun he => hn.1 (by rw [hw, ← he]; exact List.mem_map_of_mem hv)⟩
      · rintro ⟨rfl | hv, hne⟩
        · exact absurd hw hne
        · exact hv
    · rw [List.eraseP_cons_of_neg (by simpa using hw), List.mem_cons, ih hn.2, List.mem_cons]
      constructor
      · rintro (rfl | ⟨hv, hne⟩)
        · exact ⟨.inl rfl, hw⟩
        · exact ⟨.inr hv, hne⟩
      · rintro ⟨rfl | hv, hne⟩
        · exact .inl rfl
        · exact .inr ⟨hv, hne⟩

namespace WaiterInv

variable {x : Execution} {σ : Slots} {cs : List Nat}

theorem launch (h : WaiterInv x σ cs) {kind : WaiterKind} {seq : Nat} {op : Op}
    (hw : Warranted x σ.acts ⟨kind, seq, σ.nextTask, op⟩)
    (hm : (Waiter.mk kind seq σ.nextTask op).isMain = true → σ.Lone seq)
    (hc : kind.isActivity = true → seq ∉ cs)
    (hi : kind = .inbox → ∀ w ∈ σ.waiters, w.kind ≠ .inbox := by intro h; cases h) : WaiterInv x (σ.launch kind seq op) cs where
  tasks := by
    simp only [Slots.launch, List.map_append, List.map_cons, List.map_nil]
    rw [List.nodup_append]
    refine ⟨h.tasks, by simp, ?_⟩
    intro a ha b hb hab
    simp only [List.mem_singleton] at hb
    obtain ⟨w, hw, rfl⟩ := List.mem_map.1 ha
    exact absurd (h.bound w hw) (by omega)
  bound := by
    intro w hw
    simp only [Slots.launch, List.mem_append, List.mem_singleton] at hw ⊢
    rcases hw with hw | rfl
    · exact (h.bound w hw).trans (Nat.lt_succ_self _)
    · exact Nat.lt_succ_self _
  warranted := by
    intro w hm
    simp only [Slots.launch, List.mem_append, List.mem_singleton] at hm ⊢
    rcases hm with hm | rfl
    · exact h.warranted w hm
    · exact hw
  single := by
    simp only [Slots.launch, List.pairwise_append, List.pairwise_cons, List.Pairwise.nil, List.mem_singleton]
    refine ⟨h.single, by simp, ?_⟩
    rintro a ha b rfl hma hmb hab
    have := hm hmb a ha
    rw [← Bool.not_eq_true, Waiter.ofActivity_iff] at this
    exact this ⟨.inl hma, hab⟩
  inbox := by
    simp only [Slots.launch, List.pairwise_append, List.pairwise_cons, List.Pairwise.nil, List.mem_singleton]
    refine ⟨h.inbox, by simp, ?_⟩
    rintro a ha b rfl hka hkb
    exact hi hkb a ha hka
  seqs := h.seqs
  cancelled := h.cancelled
  parked := h.parked
  distinct := h.distinct
  queued := by
    intro k hk
    obtain ⟨hb, hl, he⟩ := h.queued hk
    refine ⟨hb, ?_, he⟩
    intro w hw
    simp only [Slots.launch, List.mem_append, List.mem_singleton] at hw
    rcases hw with hw | rfl
    · exact hl w hw
    · by_contra hcon
      rw [Bool.not_eq_false, Waiter.ofActivity, Bool.and_eq_true, decide_eq_true_eq] at hcon
      obtain ⟨hkind, rfl⟩ := hcon
      exact hc hkind hk

/-- Fewer waiters. -/
theorem sublist (h : WaiterInv x σ cs) {ws : List Waiter} (hs : ws.Sublist σ.waiters) :
    WaiterInv x { σ with waiters := ws } cs where
  tasks := h.tasks.sublist (hs.map _)
  bound := fun w hw => h.bound w (hs.subset hw)
  warranted := fun w hw => h.warranted w (hs.subset hw)
  single := h.single.sublist hs
  inbox := h.inbox.sublist hs
  seqs := h.seqs
  cancelled := h.cancelled
  parked := h.parked
  distinct := h.distinct
  queued := fun hk => ⟨(h.queued hk).1, fun w hw => (h.queued hk).2.1 w (hs.subset hw), (h.queued hk).2.2⟩

theorem retain (h : WaiterInv x σ cs) (p : Waiter → Bool) : WaiterInv x (σ.retain p) cs :=
  h.sublist List.filter_sublist

theorem drop (h : WaiterInv x σ cs) (t : Nat) : WaiterInv x (σ.drop t) cs :=
  h.sublist List.eraseP_sublist

/-- An exec changes, and the waiters of its activity stay warranted. -/
theorem modify (h : WaiterInv x σ cs) {k : Nat} {f : ActivityExec → ActivityExec}
    (hw : ∀ w ∈ σ.waiters, w.ofActivity k = true → Warranted x (σ.acts.modify k f) w)
    (hc : ∀ e, (f e).futureCancelled = true → e.futureCancelled = true)
    (hp : ∀ e, σ.acts.get? k = some e → (f e).asyncPending = true → x.registered (f e).activityName = true)
    (hq : k ∈ cs → ∀ e, e.asyncPending = false → (f e).asyncPending = false) :
    WaiterInv x (σ.modify k f) cs where
  tasks := h.tasks
  bound := h.bound
  warranted := by
    intro w hm
    by_cases hk : w.ofActivity k = true
    · exact hw w hm hk
    · refine (h.warranted w hm).frame fun ha => Dict.get?_modify_other _ _ fun he => hk ?_
      simp [Waiter.ofActivity, ha, he]
  single := h.single
  inbox := h.inbox
  seqs := by
    intro j e he
    simp only [Slots.modify, Dict.get?_modify] at he
    split at he
    · obtain ⟨e', he', -⟩ := Option.map_eq_some_iff.1 he
      exact h.seqs he'
    · exact h.seqs he
  cancelled := by
    intro j e he hf
    simp only [Slots.modify, Dict.get?_modify] at he
    split at he
    · obtain ⟨e', he', rfl⟩ := Option.map_eq_some_iff.1 he
      exact h.cancelled he' (hc _ hf)
    · exact h.cancelled he hf
  parked := by
    intro j e he ha
    simp only [Slots.modify, Dict.get?_modify] at he
    split at he
    · next hj =>
      obtain ⟨e', he', rfl⟩ := Option.map_eq_some_iff.1 he
      exact hp e' (hj ▸ he') ha
    · exact h.parked he ha
  distinct := h.distinct
  queued := by
    intro j hj
    obtain ⟨hb, hl, ha⟩ := h.queued hj
    refine ⟨hb, hl, ?_⟩
    intro e he
    simp only [Slots.modify, Dict.get?_modify] at he
    split at he
    · next hjk =>
      obtain ⟨e', he', rfl⟩ := Option.map_eq_some_iff.1 he
      exact hq (hjk ▸ hj) _ (ha _ he')
    · exact ha _ he

/-- An exec without waiters changes. -/
theorem modify_lone (h : WaiterInv x σ cs) {k : Nat} {f : ActivityExec → ActivityExec} (hl : σ.Lone k)
    (hc : ∀ e, (f e).futureCancelled = true → e.futureCancelled = true)
    (hp : ∀ e, σ.acts.get? k = some e → (f e).asyncPending = true → x.registered (f e).activityName = true)
    (hq : k ∈ cs → ∀ e, e.asyncPending = false → (f e).asyncPending = false) :
    WaiterInv x (σ.modify k f) cs :=
  h.modify (fun w hw hk => absurd hk (by simp [hl w hw])) hc hp hq

/-- An exec without waiters is dropped. -/
theorem pop (h : WaiterInv x σ cs) {k : Nat} (hl : σ.Lone k) : WaiterInv x (σ.pop k) cs where
  tasks := h.tasks
  bound := h.bound
  warranted := by
    intro w hm
    refine (h.warranted w hm).frame fun ha => Dict.get?_pop_other _ fun he => ?_
    have := hl w hm
    simp [Waiter.ofActivity, ha, he] at this
  single := h.single
  inbox := h.inbox
  seqs := fun he => h.seqs (Dict.get?_pop_some.1 he).2
  cancelled := fun he => h.cancelled (Dict.get?_pop_some.1 he).2
  parked := fun he => h.parked (Dict.get?_pop_some.1 he).2
  distinct := h.distinct
  queued := fun hk => ⟨(h.queued hk).1, (h.queued hk).2.1, fun e he => (h.queued hk).2.2 e (Dict.get?_pop_some.1 he).2⟩

/-- The queue itself is not read. -/
theorem requeue (h : WaiterInv x σ cs) (l : List Command) : WaiterInv x { σ with commands := l } cs :=
  ⟨h.tasks, h.bound, h.warranted, h.single, h.inbox, h.seqs, h.cancelled, h.parked, h.distinct, h.queued⟩

/-- Fewer commands to come. -/
theorem tail {k : Nat} (h : WaiterInv x σ (k :: cs)) : WaiterInv x σ cs :=
  { h with
    distinct := (List.nodup_cons.1 h.distinct).2
    queued := fun hj => h.queued (List.mem_cons_of_mem _ hj) }

theorem nil (h : WaiterInv x σ cs) : WaiterInv x σ [] :=
  { h with distinct := List.nodup_nil, queued := fun hk => absurd hk List.not_mem_nil }

/-! ## When an activity has no waiter -/

/-- Two attempts of one activity are one waiter. -/
theorem single_eq (h : WaiterInv x σ cs) {v w : Waiter} (hv : v ∈ σ.waiters) (hw : w ∈ σ.waiters)
    (hmv : v.isMain = true) (hmw : w.isMain = true) (hs : v.seq = w.seq) : v = w := by
  have : Std.Symm fun a b : Waiter => a.isMain = true → b.isMain = true → a.seq ≠ b.seq :=
    ⟨fun _ _ hr h₁ h₂ he => hr h₂ h₁ he.symm⟩
  by_contra hne
  exact h.single.forall hv hw hne hmv hmw hs

/-- Taking a waiter off the list takes its task off. -/
theorem mem_drop (h : WaiterInv x σ cs) {t : Nat} {v : Waiter} :
    v ∈ (σ.drop t).waiters ↔ v ∈ σ.waiters ∧ v.task ≠ t := by
  rw [Slots.drop, mem_eraseP_task h.tasks]

/-- Off the list, an attempt leaves its activity without waiters. -/
theorem lone_of_drop (h : WaiterInv x σ cs) {w : Waiter} (hw : w ∈ σ.waiters) (hm : w.isMain = true) :
    (σ.drop w.task).Lone w.seq := by
  intro v hv
  obtain ⟨hv, hne⟩ := h.mem_drop.1 hv
  by_contra hcon
  rw [Bool.not_eq_false, Waiter.ofActivity_iff] at hcon
  obtain ⟨hkind | hkind, hseq⟩ := hcon
  · exact hne (by rw [h.single_eq hv hw hkind hm hseq])
  · obtain ⟨e, he, hp, -⟩ := (h.warranted v hv).park hkind
    obtain ⟨e', he', hp'⟩ := (h.warranted w hw).main hm
    rw [hseq, he'] at he
    cases he
    rw [hp] at hp'
    cases hp'

/-- A parked activity whose timers are retired has no waiter left. -/
theorem lone_of_retire (h : WaiterInv x σ cs) {k : Nat} {e : ActivityExec} (he : σ.acts.get? k = some e)
    (hp : e.asyncPending = true) :
    (σ.retain fun w => ¬ ((w.kind = .actS2c ∨ w.kind = .actHb) ∧ w.seq = k)).Lone k := by
  intro w hw
  obtain ⟨hmem, hnot⟩ := List.mem_filter.1 hw
  by_contra hcon
  rw [Bool.not_eq_false, Waiter.ofActivity_iff] at hcon
  obtain ⟨hkind | hkind, hseq⟩ := hcon
  · obtain ⟨e', he', hp'⟩ := (h.warranted w hmem).main hkind
    rw [hseq, he] at he'
    cases he'
    rw [hp] at hp'
    cases hp'
  · rw [decide_eq_true_eq] at hnot
    exact hnot ⟨by simpa [Waiter.isPark] using hkind, hseq⟩

end WaiterInv

namespace Slots.Lone

variable {σ : Slots} {k : Nat}

theorem modify (h : σ.Lone k) (j : Nat) (f : ActivityExec → ActivityExec) : (σ.modify j f).Lone k := h

theorem pop (h : σ.Lone k) (j : Nat) : (σ.pop j).Lone k := h

end Slots.Lone

end Dbosify
