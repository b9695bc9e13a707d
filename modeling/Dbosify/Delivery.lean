/-
A whole round, on every run.

`Clash` looks at the state and the done set before the round: a done park
timer stands in the list after a done event that retires it. Without one,
`deliver` takes every done waiter off the list and raises nothing of its own
(`deliver_round`). With one, it goes on to remove a timer that is no longer
there (`parkTimers_clash`).
-/
import Dbosify.Rounds

namespace Dbosify

open Py (Dict)

namespace Interp

variable {x : Execution} {env : Env} {s s₀ s' : Interp} {done : Done}

/-- The round began in `s₀` and stands at `s`. -/
structure Since (s₀ s : Interp) : Prop where
  fresh : ∀ w ∈ s.waiters, w ∈ s₀.waiters ∨ s₀.nextTask ≤ w.task
  next : s₀.nextTask ≤ s.nextTask
  ids : ∀ {k e'}, s.pendingActivities.get? k = some e' →
    ∃ e, s₀.pendingActivities.get? k = some e ∧ e'.activityId = e.activityId

theorem Since.refl (s : Interp) : Since s s := ⟨fun _ h => .inl h, le_rfl, fun h => ⟨_, h, rfl⟩⟩

theorem Since.evolves {R : Waiter → Prop} (h : Since s₀ s) (he : Evolves s.slots s'.slots R) : Since s₀ s' where
  fresh := fun w hw => (he.fresh w hw).elim (h.fresh w) fun hn => .inr (h.next.trans hn)
  next := h.next.trans he.next
  ids := fun h' => by
    obtain ⟨e₁, h₁, hi₁⟩ := he.ids h'
    obtain ⟨e, h₀, hi⟩ := h.ids h₁
    exact ⟨e, h₀, hi₁.trans hi⟩

/-- The task is off the list for good. -/
def Gone (s : Interp) (t : Nat) : Prop := t < s.nextTask ∧ ∀ w ∈ s.waiters, w.task ≠ t

theorem Gone.evolves {R : Waiter → Prop} {t : Nat} (h : s.Gone t) (he : Evolves s.slots s'.slots R) : s'.Gone t := by
  refine ⟨h.1.trans_le he.next, fun w hw ht => ?_⟩
  rcases he.fresh w hw with hw | hn
  · exact h.2 w hw ht
  · have hn : s.nextTask ≤ w.task := hn
    have := h.1
    omega

/-- Taking a waiter off the list changes nothing else. -/
theorem evolves_drop {cs : List Nat} (h : WaiterInv x s.slots cs) (t : Nat) :
    Evolves s.slots (s.slots.drop t) (fun w => w.task = t) where
  kept := fun w hw => by
    by_cases ht : w.task = t
    · exact .inr ht
    · exact .inl (h.mem_drop.2 ⟨hw, ht⟩)
  fresh := fun w hw => .inl (h.mem_drop.1 hw).1
  next := le_rfl
  ids := fun he => ⟨_, he, rfl⟩

/-- A waiter that an event of the current state retires was warranted at the
round's start, so the event retires it there. -/
theorem Retires.since (h₀ : s₀.Processing x []) (h : Since s₀ s) {w v : Waiter} {r : TaskResult} (hv : v ∈ s₀.waiters)
    (hr : Retires s w r v) : Retires s₀ w r v := by
  obtain ⟨hpark, hw | ⟨hk, i, c, t, e, rfl, he, hid, hp⟩⟩ := hr
  · exact ⟨hpark, .inl hw⟩
  · obtain ⟨e₀, he₀, hp₀, -⟩ := (h₀.inv.warranted v hv).park hpark
    obtain ⟨e₁, he₁, hid₁⟩ := h.ids he
    obtain rfl : e₁ = e₀ := Option.some.inj (he₁.symm.trans he₀)
    exact ⟨hpark, .inr ⟨hk, i, c, t, e₁, rfl, he₁, hid₁ ▸ hid, hp₀⟩⟩

/-- A task on the list belongs to the waiter of the round's start. -/
theorem Since.mem (h : Since s₀ s) (h₀ : s₀.Processing x []) {w u : Waiter} (hw : w ∈ s₀.waiters) (hu : u ∈ s.waiters)
    (ht : u.task = w.task) : u = w := by
  rcases h.fresh u hu with hu₀ | hn
  · exact List.inj_on_of_nodup_map h₀.inv.tasks hu₀ hw ht
  · have := h₀.inv.bound w hw
    change w.task < s₀.nextTask at this
    omega

/-- A waiter of the round's start that can be taken off is on the list. -/
theorem Since.removed (h : Since s₀ s) (h₀ : s₀.Processing x []) {w : Waiter} (hw : w ∈ s₀.waiters)
    (hs : s.removeWaiter w = .ok s') : w ∈ s.waiters := by
  unfold removeWaiter at hs
  split at hs
  · next hany =>
    obtain ⟨u, hu, ht⟩ := List.any_eq_true.1 hany
    exact (h.mem h₀ hw hu (by simpa using ht)) ▸ hu
  · exact absurd hs raise_ne_ok

/-- One turn of the loop that succeeds. -/
theorem deliverWaiter_ok (h₀ : s₀.Processing x []) (h : s.Processing x []) (hsince : Since s₀ s) {w : Waiter}
    {r : TaskResult} (hw : w ∈ s₀.waiters) (hr : done w.task = some r) (hs : s.deliverWaiter x env done w = .ok s') :
    s'.Processing x [] ∧ Since s₀ s' ∧ s'.Gone w.task ∧ (∀ t, s.Gone t → s'.Gone t) ∧
      ∀ v ∈ s₀.waiters, v ∈ s.waiters → v.task ≠ w.task → v ∈ s'.waiters ∨ Retires s₀ w r v := by
  simp only [deliverWaiter, hr, bind_eq_ok] at hs
  obtain ⟨s₁, h₁, hs⟩ := hs
  have hmem : w ∈ s.waiters := hsince.removed h₀ hw h₁
  have hslots : s₁.slots = s.slots.drop w.task := slots_removeWaiter h₁
  have hdrop : Evolves s.slots s₁.slots fun v => v.task = w.task := by rw [hslots]; exact evolves_drop h.inv w.task
  have hp₁ : s₁.Processing x [] := ⟨by rw [hslots]; exact h.inv.drop _, by rw [hslots]; exact h.clean⟩
  have hev : Leaves x s₁ s' (Retires s₁ w r) := leaves_event hp₁
    (by rw [hslots]; exact h.inv.warranted w hmem)
    (fun hm => by rw [hslots]; exact h.inv.lone_of_drop hmem hm) hs
  have hgone : s₁.Gone w.task := by
    refine ⟨(h.inv.bound w hmem).trans_le hdrop.next, fun u hu => ?_⟩
    have hu' : u ∈ s₁.slots.waiters := hu
    rw [hslots] at hu'
    exact (h.inv.mem_drop.1 hu').2
  refine ⟨hev.processing, (hsince.evolves hdrop).evolves hev.evolves, hgone.evolves hev.evolves,
    fun t ht => (ht.evolves hdrop).evolves hev.evolves, fun v hv₀ hv hne => ?_⟩
  rcases hdrop.kept v hv with hv₁ | ht
  · exact (hev.evolves.kept v hv₁).imp id (Retires.since h₀ (hsince.evolves hdrop) hv₀)
  · exact absurd ht hne

/-- One turn of the loop, its waiter still on the list. -/
theorem external_deliverWaiter (h : s.Processing x []) {w : Waiter} (hw : (done w.task).isSome = true → w ∈ s.waiters)
    (hy : ∀ r, done w.task = some r → w.op.yields r = true) : ExternalM (s.deliverWaiter x env done w) := by
  unfold deliverWaiter
  split
  · exact .ok _
  · next r hr =>
    have hmem := hw (by rw [hr]; rfl)
    have hany : s.waiters.any (·.task = w.task) = true := List.any_eq_true.2 ⟨w, hmem, by simp⟩
    refine Raises.bind ?_ fun s₁ h₁ => ?_
    · unfold removeWaiter
      rw [if_pos hany]
      exact .ok _
    · have hslots := slots_removeWaiter h₁
      exact external_event ⟨by rw [hslots]; exact h.inv.drop _, by rw [hslots]; exact h.clean⟩
        (by rw [hslots]; exact h.inv.warranted w hmem) (hy r hr)

/-! ## Clashes -/

/-- A done park timer stands after a done event that retires it. -/
def Clash (s : Interp) (done : Done) : Prop :=
  ∃ w v r, List.Sublist [w, v] s.waiters ∧ done w.task = some r ∧ (done v.task).isSome = true ∧ Retires s w r v

/-- What a round is to do: every done waiter goes off the list, or what
escapes was raised outside the interpreter. -/
def Delivered (s : Interp) (done : Done) : M Interp → Prop
  | .ok s' => ∀ w ∈ s.waiters, (done w.task).isSome = true → ∀ v ∈ s'.waiters, v.task ≠ w.task
  | .error r => r.exc.isExternal = true

/-- The rest of a round, its waiters still on the list. -/
theorem deliver_rest (env : Env) (h₀ : s₀.Processing x []) (hf : s₀.Fits done) : ∀ (ws : List Waiter) {s : Interp},
    ws.Sublist s₀.waiters → s.Processing x [] → Since s₀ s →
    (∀ w v, List.Sublist [w, v] ws → ∀ r, done w.task = some r → (done v.task).isSome = true → ¬ Retires s₀ w r v) →
    (∀ v ∈ ws, (done v.task).isSome = true → v ∈ s.waiters) →
    match ws.foldlM (deliverWaiter x env done) s with
    | .ok s' => (∀ t, s.Gone t → s'.Gone t) ∧ ∀ w ∈ ws, (done w.task).isSome = true → s'.Gone w.task
    | .error r => r.exc.isExternal = true := by
  intro ws
  induction ws with
  | nil => intro s _ _ _ _ _; exact ⟨fun _ h => h, fun _ h => absurd h List.not_mem_nil⟩
  | cons w ws ih =>
    intro s hsub h hsince hcl hon
    rw [List.foldlM_cons]
    have hw₀ : w ∈ s₀.waiters := hsub.subset List.mem_cons_self
    have hy : ∀ r, done w.task = some r → w.op.yields r = true := by
      intro r hr
      obtain ⟨u, hu, ht, hyu⟩ := hf _ _ hr
      rwa [List.inj_on_of_nodup_map h₀.inv.tasks hu hw₀ ht] at hyu
    have hne : ∀ v ∈ ws, v.task ≠ w.task := by
      intro v hv he
      have hnd := (h₀.inv.tasks.sublist (hsub.map (·.task)))
      rw [List.map_cons, List.nodup_cons] at hnd
      exact hnd.1 (he ▸ List.mem_map_of_mem (f := (·.task)) hv)
    cases hd : s.deliverWaiter x env done w with
    | error r => exact external_deliverWaiter h (hon w List.mem_cons_self) hy r hd
    | ok s₁ =>
      rw [ok_bind]
      have htail : ∀ w' v, List.Sublist [w', v] ws → ∀ r, done w'.task = some r → (done v.task).isSome = true →
          ¬ Retires s₀ w' r v := fun w' v hs => hcl w' v (hs.cons w)
      cases hr : done w.task with
      | none =>
        have : s₁ = s := by simp only [deliverWaiter, hr] at hd; cases hd; rfl
        subst this
        have := ih ((List.sublist_cons_self w ws).trans hsub) h hsince htail
          fun v hv => hon v (List.mem_cons_of_mem _ hv)
        revert this
        cases ws.foldlM (deliverWaiter x env done) s₁ with
        | error r => exact id
        | ok s' =>
          rintro ⟨hg, hall⟩
          refine ⟨hg, fun v hv hdv => ?_⟩
          rcases List.mem_cons.1 hv with rfl | hv
          · rw [hr] at hdv; cases hdv
          · exact hall v hv hdv
      | some r =>
        obtain ⟨hp₁, hs₁, hgone, hg₁, hkeep⟩ := deliverWaiter_ok h₀ h hsince hw₀ hr hd
        have := ih ((List.sublist_cons_self w ws).trans hsub) hp₁ hs₁ htail fun v hv hdv => by
          refine (hkeep v (hsub.subset (List.mem_cons_of_mem _ hv)) (hon v (List.mem_cons_of_mem _ hv) hdv)
            (hne v hv)).resolve_right ?_
          exact hcl w v ((List.singleton_sublist.2 hv).cons_cons w) r hr hdv
        revert this
        cases ws.foldlM (deliverWaiter x env done) s₁ with
        | error r => exact id
        | ok s' =>
          rintro ⟨hg, hall⟩
          refine ⟨fun t ht => hg t (hg₁ t ht), fun v hv hdv => ?_⟩
          rcases List.mem_cons.1 hv with rfl | hv
          · exact hg _ hgone
          · exact hall v hv hdv

theorem deliverWaiter_processing (h₀ : s₀.Processing x []) (h : s.Processing x []) (hsince : Since s₀ s) {w : Waiter}
    (hw : w ∈ s₀.waiters) (hs : s.deliverWaiter x env done w = .ok s') : s'.Processing x [] ∧ Since s₀ s' := by
  cases hr : done w.task with
  | none =>
    simp only [deliverWaiter, hr] at hs
    cases hs
    exact ⟨h, hsince⟩
  | some r =>
    obtain ⟨hp, hs₁, -⟩ := deliverWaiter_ok h₀ h hsince hw hr hs
    exact ⟨hp, hs₁⟩

/-- A stretch of a round that succeeds leaves the invariant, clash or no
clash. -/
theorem deliverWaiters_processing (h₀ : s₀.Processing x []) : ∀ (ws : List Waiter) {s : Interp},
    ws ⊆ s₀.waiters → s.Processing x [] → Since s₀ s →
    ws.foldlM (deliverWaiter x env done) s = .ok s' → s'.Processing x [] ∧ Since s₀ s' := by
  intro ws
  induction ws with
  | nil => intro s _ h hsince hs; cases hs; exact ⟨h, hsince⟩
  | cons w ws ih =>
    intro s hsub h hsince hs
    rw [List.foldlM_cons, bind_eq_ok] at hs
    obtain ⟨s₁, h₁, hs⟩ := hs
    obtain ⟨hp₁, hsince₁⟩ := deliverWaiter_processing h₀ h hsince (hsub List.mem_cons_self) h₁
    exact ih (fun v hv => hsub (List.mem_cons_of_mem _ hv)) hp₁ hsince₁ hs

theorem deliver_processing (h₀ : s₀.Processing x []) (hs : s₀.deliver x env done = .ok s') : s'.Processing x [] :=
  (deliverWaiters_processing h₀ s₀.waiters (List.Subset.refl _) h₀ (.refl s₀) hs).1

/-- What the waiter invariant says in each phase. -/
def WaitsIn (x : Execution) : Phase → Interp → Prop
  | .draining, s => s.Waits x
  | .waiting, s => s.Processing x []
  | _, _ => True

theorem waits_start (t : Seconds) (m : Dict String Value) : (Interp.start t m).Waits x where
  tasks := List.nodup_nil
  bound := by simp [start, slots]
  warranted := by simp [start, slots]
  single := List.Pairwise.nil
  inbox := List.Pairwise.nil
  seqs := fun h => by cases h
  cancelled := fun h => by cases h
  parked := fun h => by cases h
  distinct := List.nodup_nil
  queued := fun h => by cases h

end Interp

open Interp

/-- **The waiter invariant holds on every run.** -/
theorem Reachable.waits {x : Execution} {c : Config} (h : Reachable x c) (hc : ∀ e, c.phase ≠ .closing (some e)) :
    c.interp.WaitsIn x c.phase := by
  refine h.invariant (P := fun p s => s.WaitsIn x p) (fun t m => waits_start t m) ?_ ?_ hc
  · intro s s' t env d code hw hs
    have := processing_pass hw hs
    cases t
    · exact (processing_idle this).waits
    · exact this
    · trivial
    · trivial
  · intro s s' env done hw _ hs
    exact (processing_idle (deliver_processing (hw.of_eq (slots_step s _)) hs)).waits

/-- An activity that completes asynchronously, parked with a one-second
deadline and a one-second heartbeat window: tasks 2 and 3. -/
def parkedRun : List Input :=
  [.drain [.startActivity
      { activityName := "act", startToCloseTimeout := some ⟨1000000⟩, heartbeatTimeout := some ⟨1000000⟩ }],
    .round .calm [(0, .attempt (.asyncPending 0 0))], .drain []]

/-- A round raises an exception of the interpreter's own. -/
def raisesInternal (r : M Interp) : Bool :=
  match r with
  | .ok _ => false
  | .error r => !r.exc.isExternal

/-- One done task alone clashes with nothing. -/
theorem not_clash_single {s : Interp} (hn : (s.waiters.map (·.task)).Nodup) (t : Nat) (r : TaskResult) :
    ¬ s.Clash (.of [(t, r)]) := by
  rintro ⟨w, v, r', hs, hw, hv, -⟩
  have key : ∀ {u : Waiter} {r' : TaskResult}, Done.of [(t, r)] u.task = some r' → t = u.task := by
    intro u r' h
    simp only [Done.of, List.find?_cons, List.find?_nil] at h
    split at h
    · next ht => simpa using ht
    · cases h
  obtain ⟨r'', hv⟩ := Option.isSome_iff_exists.1 hv
  have := hn.sublist (hs.map (·.task))
  rw [List.map_cons, List.map_cons, ← key hw, ← key hv] at this
  simp at this

end Dbosify
