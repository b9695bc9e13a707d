/-
The markers of activities.

That an activity is cancelled, or that its park will never be completed, is
set as an event of the run, under a key made of the activity's id. An event
stays set, and an id may be used again once the activity that had it is gone:
a later activity under the same id then finds the marker of the earlier one.
In every run in which no activity is scheduled under an id whose marker it
would read, every marker an activity reads was set for that activity
(`markers_own`).
-/
import Dbosify.ActivityFrames

namespace Dbosify

open Py (Dict)

/-! ## Keys -/

theorem EventKey.render_activityCancel {a b : String} :
    (activityCancel a).render = (activityCancel b).render ↔ a = b := by
  constructor
  · intro h
    have h := congrArg String.toList h
    simp only [render, String.toList_append] at h
    exact String.toList_inj.1 (List.append_cancel_left (List.append_cancel_right h))
  · rintro rfl
    rfl

theorem EventKey.render_asyncActivityGone {a b : String} :
    (asyncActivityGone a).render = (asyncActivityGone b).render ↔ a = b := by
  constructor
  · intro h
    have h := congrArg String.toList h
    simp only [render, String.toList_append] at h
    exact String.toList_inj.1 (List.append_cancel_left (List.append_cancel_right h))
  · rintro rfl
    rfl

/-- The two kinds of key differ in their last letter. -/
theorem EventKey.render_cancel_ne_gone (a b : String) : (activityCancel a).render ≠ (asyncActivityGone b).render := by
  intro h
  have h := congrArg (fun s : String => s.toList.reverse) h
  simp [render, String.toList_append] at h

/-- What an activity, or who completes it from outside, finds set: `queued`
says whether it runs on another worker. -/
def ActivityExec.Reads (e : ActivityExec) (queued : Prop) (key : EventKey) : Prop :=
  key.render = (EventKey.asyncActivityGone e.activityId).render ∨
    queued ∧ key.render = (EventKey.activityCancel e.activityId).render

theorem ActivityExec.Reads.imp {e e' : ActivityExec} {queued queued' : Prop} {key : EventKey} (h : e'.Reads queued' key)
    (hid : e'.activityId = e.activityId) (hq : queued' → queued) : e.Reads queued key := by
  rw [Reads, hid] at h
  exact h.imp id fun h => ⟨hq h.1, h.2⟩

theorem ActivityExec.mem_markers {e : ActivityExec} {key : EventKey} :
    key ∈ e.markers ↔ key = .activityCancel e.activityId ∨ key = .asyncActivityGone e.activityId := by
  simp [markers]

/-- Of the markers, an activity reads those under its own id. -/
theorem ActivityExec.Reads.id {e : ActivityExec} {queued : Prop} {key : EventKey} {a : String} (h : e.Reads queued key)
    (hk : key = .activityCancel a ∨ key = .asyncActivityGone a) : a = e.activityId := by
  rcases hk with rfl | rfl
  · rcases h with h | ⟨-, h⟩
    · exact absurd h (EventKey.render_cancel_ne_gone _ _)
    · exact EventKey.render_activityCancel.1 h
  · rcases h with h | ⟨-, h⟩
    · exact EventKey.render_asyncActivityGone.1 h
    · exact absurd h.symm (EventKey.render_cancel_ne_gone _ _)

/-- The flag an act sets. -/
def actFlag : Coop.Act Op → Option EventKey
  | .step (.setEvent key .flag) => some key
  | _ => none

theorem actFlag_plain {a : Coop.Act Op} (ha : actPlain a = true) : actFlag a = none := by
  cases a with
  | step o =>
    cases o with
    | setEvent key v => cases v <;> first | rfl | cases ha
    | _ => rfl
  | _ => rfl

namespace Interp

/-! ## What is set, and for whom -/

/-- The flags set so far, in order. -/
def flags (s : Interp) : List EventKey := s.acts.filterMap actFlag

/-- The activity a marker is set for: the pending one under its id. -/
def owner (s : Interp) (key : EventKey) : Option Nat :=
  (s.pendingActivities.entries.find? fun e => key ∈ e.2.markers).map (·.1)

/-- The markers set between `s` and `s'`, each with the activity it is set
for. -/
def recorded (s s' : Interp) : List (Option Nat × EventKey) :=
  (s'.flags.drop s.flags.length).map fun key => (s.owner key, key)

/-- An activity that goes to a queue that is not the own one. -/
def LeavesFor (env : Env) (s : Interp) (e : ActivityExec) : Prop :=
  ∃ q, e.taskQueue = some q ∧ some q ≠ s.ownQueue env

/-- No activity is scheduled under an id whose marker it would read. -/
def Unmarked (env : Env) (s : Interp) : Prop :=
  ∀ k e, .activity k ∈ s.commands → s.pendingActivities.get? k = some e → ∀ key ∈ s.flags,
    ¬ e.Reads (s.LeavesFor env e) key

variable {x : Execution} {env : Env} {s s' σ : Interp}

theorem flags_emit (s : Interp) (a : Coop.Act Op) : (s.emit a).flags = s.flags ++ (actFlag a).toList := by
  rw [flags, acts_emit, List.filterMap_append]
  rfl

/-! ## How markers come about -/

/-- Of the pending activities only markers are set, and only if `marks`; none
is added or renamed; those in `gone` may go to a queue. -/
structure Marks (env : Env) (gone : Nat → Prop) (marks : Prop) (s s' : Interp) : Prop where
  flags : ∃ l, s'.flags = s.flags ++ l ∧ ∀ key ∈ l, marks ∧ ∃ k e, s.pendingActivities.get? k = some e ∧ key ∈ e.markers
  kept : ∀ {k e'}, s'.pendingActivities.get? k = some e' → ∃ e, s.pendingActivities.get? k = some e ∧
    e'.activityId = e.activityId ∧ e'.taskQueue = e.taskQueue ∧ (e'.queuedDbosId = e.queuedDbosId ∨ gone k)
  ownQueue : s'.ownQueue env = s.ownQueue env

namespace Marks

variable {gone : Nat → Prop} {marks : Prop}

/-- The activities are left alone, and no flag is set. -/
theorem same (hf : s'.flags = s.flags) (hp : s'.pendingActivities = s.pendingActivities)
    (hq : s'.ownQueue env = s.ownQueue env) : Marks env gone marks s s' where
  flags := ⟨[], by rw [hf, List.append_nil], fun _ h => by cases h⟩
  kept he := ⟨_, hp ▸ he, rfl, rfl, .inl rfl⟩
  ownQueue := hq

theorem trans {t : Interp} (h : Marks env gone marks s t) (h' : Marks env gone marks t s') : Marks env gone marks s s' where
  flags := by
    obtain ⟨l, hl, hm⟩ := h.flags
    obtain ⟨l', hl', hm'⟩ := h'.flags
    refine ⟨l ++ l', by rw [hl', hl, List.append_assoc], fun key hk => ?_⟩
    rcases List.mem_append.1 hk with hk | hk
    · exact hm key hk
    · obtain ⟨hmarks, k, e, he, hkey⟩ := hm' key hk
      obtain ⟨e₀, he₀, hid, -⟩ := h.kept he
      refine ⟨hmarks, k, e₀, he₀, ?_⟩
      rwa [ActivityExec.markers, hid] at hkey
  kept he := by
    obtain ⟨e₁, h₁, hid₁, hq₁, hd₁⟩ := h'.kept he
    obtain ⟨e₀, h₀, hid₀, hq₀, hd₀⟩ := h.kept h₁
    refine ⟨e₀, h₀, hid₁.trans hid₀, hq₁.trans hq₀, ?_⟩
    rcases hd₁ with hd₁ | hg
    · exact hd₀.imp hd₁.trans id
    · exact .inr hg
  ownQueue := h'.ownQueue.trans h.ownQueue

theorem emit {a : Coop.Act Op} (ha : actFlag a = none) (s : Interp) : Marks env gone marks s (s.emit a) :=
  .same (by rw [flags_emit, ha, Option.toList_none, List.append_nil]) rfl rfl

/-- An exec changes, but for its name and its queue. -/
theorem modify {k : Nat} {f : ActivityExec → ActivityExec}
    (hf : ∀ e, (f e).activityId = e.activityId ∧ (f e).taskQueue = e.taskQueue ∧
      ((f e).queuedDbosId = e.queuedDbosId ∨ gone k)) (s : Interp) : Marks env gone marks s (s.setActivity k f) where
  flags := ⟨[], (List.append_nil _).symm, fun _ h => by cases h⟩
  kept {j e'} he := by
    change (s.pendingActivities.modify k f).get? j = some e' at he
    rw [Dict.get?_modify] at he
    split at he
    · next hj =>
      obtain ⟨e, he₀, rfl⟩ := Option.map_eq_some_iff.1 he
      exact ⟨e, he₀, hj ▸ hf e⟩
    · exact ⟨_, he, rfl, rfl, .inl rfl⟩
  ownQueue := rfl

end Marks

instance {gone : Nat → Prop} {marks : Prop} : ActivityFrame ⟨fun _ => True, gone, marks⟩ (Marks env gone marks) where
  refl s := .same rfl rfl rfl
  trans := .trans
  act ha s := .emit (actFlag_plain ha) s
  other h _ := .same (congrArg (fun c : Core => c.acts.filterMap actFlag) h) (congrArg Core.pendingActivities h)
    (congrArg (fun c : Core => if c.ownQueue.1 then c.ownQueue.2 else env.ownQueue) h)
  modify _ hf s := .modify (fun e => ⟨congrArg Prod.fst (hf e), congrArg (fun t => t.2.1) (hf e),
    .inl (congrArg (fun t => t.2.2) (hf e))⟩) s
  pop s k :=
    { flags := ⟨[], (List.append_nil _).symm, fun _ h => by cases h⟩
      kept := fun he => ⟨_, (Dict.get?_pop_some.1 he).2, rfl, rfl, .inl rfl⟩
      ownQueue := rfl }
  resolve _ _ _ := .same rfl rfl rfl
  attempt _ s _ _ _ := .emit rfl s
  dispatch {k} _ hq s d := .modify (f := .dispatched d) (fun e => ⟨rfl, rfl, .inr hq⟩) s
  mark {s k e key} hm he hkey :=
    { flags := ⟨[key], flags_emit s _, fun key' h => ⟨hm, k, e, he, by rwa [List.mem_singleton.1 h]⟩⟩
      kept := fun he => ⟨_, he, rfl, rfl, .inl rfl⟩
      ownQueue := rfl }

instance {gone : Nat → Prop} {marks : Prop} : QueueFrame env (Marks env gone marks) where
  ownQueue x s := by
    unfold resolveOwnQueue
    split
    · exact Frame.refl s
    · next hr =>
      refine Marks.trans (t := s.step (.status x.workflowId)) (.emit rfl s) (.same rfl rfl ?_)
      change (if true then env.ownQueue else _) = if s.ownQueueResolved then _ else env.ownQueue
      rw [if_neg hr, if_pos rfl]

instance {gone : Nat → Prop} {marks : Prop} : MessageFrame (Marks env gone marks) where
  message h := .same (congrArg (fun c : ActivityCore => c.acts.filterMap actFlag) h)
    (congrArg ActivityCore.pendingActivities h)
    (congrArg (fun c : ActivityCore => if c.ownQueue.1 then c.ownQueue.2 else env.ownQueue) h)
  publish s _ _ _ := .emit rfl s

/-- A round sets no marker. -/
theorem marks_round (x : Execution) (env : Env) (done : Done) (s : Interp) :
    Along (Marks env (fun _ => False) False) s id (s.round x env done) := along_round fun _ => trivial

/-- What follows a drain. -/
theorem marks_afterDrain (x : Execution) (env : Env) (d : Bool) (σ : Interp) :
    Along (Marks env (fun k => .activity k ∈ σ.commands ∧ ∃ e, σ.pendingActivities.get? k = some e ∧ σ.LeavesFor env e)
      True) σ (·.2) (σ.afterDrain x env d) := by
  refine along_afterDrain trivial (fun t => .same rfl rfl rfl) (fun _ _ => trivial) fun {t k e q} ht hc he htask hq => ?_
  obtain ⟨e₀, he₀, -, hqueue, -⟩ := ht.kept he
  exact ⟨hc, e₀, he₀, q, hqueue ▸ htask, ht.ownQueue ▸ hq⟩

/-- The close. -/
theorem marks_closeRun (x : Execution) (env : Env) (s : Interp) : Marks env (fun _ => False) True s (s.closeRun x env) :=
  frame_closeRun trivial x env s

/-! ## Drains -/

/-- The pending activities have ids of their own. -/
def DistinctIds (s : Interp) : Prop :=
  ∀ k k' e e', s.pendingActivities.get? k = some e → s.pendingActivities.get? k' = some e' →
    e.activityId = e'.activityId → k = k'

theorem DistinctIds.kept (h : s.DistinctIds) (hk : ∀ {k e'}, s'.pendingActivities.get? k = some e' →
    ∃ e, s.pendingActivities.get? k = some e ∧ e'.activityId = e.activityId) : s'.DistinctIds := by
  intro k k' e e' he he' hid
  obtain ⟨e₀, h₀, hid₀⟩ := hk he
  obtain ⟨e₁, h₁, hid₁⟩ := hk he'
  exact h k k' e₀ e₁ h₀ h₁ (hid₀.symm.trans (hid.trans hid₁))

/-- What a drain makes of the pending activities of `s`: each is one of them
still, or a new one whose command is queued. -/
structure Grown (s s' : Interp) : Prop where
  distinct : s'.DistinctIds
  old : ∀ {k e'}, s'.pendingActivities.get? k = some e' →
    (∃ e, s.pendingActivities.get? k = some e ∧ e'.tag = e.tag) ∨ .activity k ∈ s'.commands ∧ e'.queuedDbosId = none

theorem Grown.same {t : Interp} (h : Grown s t) (hp : s'.pendingActivities = t.pendingActivities)
    (hc : t.commands ⊆ s'.commands) : Grown s s' where
  distinct := h.distinct.kept fun he => ⟨_, hp ▸ he, rfl⟩
  old he := (h.old (hp ▸ he)).imp id fun hn => ⟨hc hn.1, hn.2⟩

theorem Grown.request {t : Interp} (h : Grown s t) (hr : Request t s') : Grown s s' := by
  cases hr with
  | other _ hp _ hc => exact h.same hp (hc ▸ List.subset_append_left _ _)
  | refused hp _ hc => exact h.same hp (hc ▸ List.Subset.refl _)
  | @start e hid hnew hp _ hc =>
    refine ⟨fun k k' e₁ e₂ h₁ h₂ heq => ?_, fun {k e'} he => ?_⟩
    · rw [hp, Dict.get?_set] at h₁ h₂
      split at h₁ <;> split at h₂
      · next hk hk' => rw [hk, hk']
      · cases h₁
        exact absurd heq.symm (hid e₂ (Dict.mem_values_get?.2 ⟨_, h₂⟩))
      · cases h₂
        exact absurd heq (hid e₁ (Dict.mem_values_get?.2 ⟨_, h₁⟩))
      · exact h.distinct k k' e₁ e₂ h₁ h₂ heq
    · rw [hp, Dict.get?_set] at he
      split at he
      · next hk =>
        cases he
        rw [hc, hk]
        exact .inr ⟨List.mem_append_right _ List.mem_cons_self, hnew⟩
      · rw [hc]
        exact (h.old he).imp id fun hn => ⟨List.mem_append_left _ hn.1, hn.2⟩
  | @change j f hf hp _ hc =>
    have htag : ∀ e, (f e).tag = e.tag := by
      rcases hf with rfl | rfl <;> exact fun _ => rfl
    have hback : ∀ {k e'}, s'.pendingActivities.get? k = some e' →
        ∃ e, t.pendingActivities.get? k = some e ∧ e'.tag = e.tag := by
      intro k e' he
      rw [hp, Dict.get?_modify] at he
      split at he
      · obtain ⟨e, he₀, rfl⟩ := Option.map_eq_some_iff.1 he
        exact ⟨e, he₀, htag e⟩
      · exact ⟨_, he, rfl⟩
    refine ⟨h.distinct.kept fun he => ?_, fun {k e'} he => ?_⟩
    · obtain ⟨e, he, ht⟩ := hback he
      exact ⟨e, he, congrArg Prod.fst ht⟩
    · obtain ⟨e, he, ht⟩ := hback he
      rw [hc]
      rcases h.old he with ⟨e₀, h₀, ht₀⟩ | ⟨hn, hq⟩
      · exact .inl ⟨e₀, h₀, ht.trans ht₀⟩
      · exact .inr ⟨hn, (congrArg (fun t => t.2.2) ht).trans hq⟩

theorem grown_drain (h : s.DistinctIds) (code : Code) : Grown s (s.drainOutsideTask x code) :=
  Code.drain_induct (P := Grown s) (fun o hg => hg.request (Request.userOp _ o)) code
    ⟨h, fun he => .inl ⟨_, he, rfl⟩⟩

theorem flags_drain (s : Interp) (code : Code) : (s.drainOutsideTask x code).flags = s.flags := by
  rw [flags, acts_drain]
  rfl

/-! ## Whom the markers are for -/

/-- The markers an activity reads are its own, also where those in `gone` go
to a queue. -/
def OwnMarkers (gone : Nat → Prop) (log : List (Option Nat × EventKey)) (s : Interp) : Prop :=
  ∀ b e, s.pendingActivities.get? b = some e → ∀ m ∈ log,
    e.Reads (e.queuedDbosId.isSome = true ∨ gone b) m.2 → m.1 = some b

/-- The log has the markers that are set, and of these every activity reads
only its own. -/
structure Accounted (log : List (Option Nat × EventKey)) (s : Interp) : Prop where
  keys : log.map (·.2) = s.flags
  distinct : s.DistinctIds
  own : OwnMarkers (fun _ => False) log s

variable {log : List (Option Nat × EventKey)}

theorem owner_eq (hd : s.DistinctIds) {k : Nat} {e : ActivityExec} {key : EventKey}
    (he : s.pendingActivities.get? k = some e) (hk : key ∈ e.markers) : s.owner key = some k := by
  have hmem : ∀ {e₁ : ActivityExec}, key ∈ e₁.markers → e₁.activityId = e.activityId := by
    intro e₁ hk₁
    rw [ActivityExec.mem_markers] at hk hk₁
    rcases hk with rfl | rfl <;> simpa [eq_comm] using hk₁
  have hsome : (s.pendingActivities.entries.find? fun p => key ∈ p.2.markers).isSome = true :=
    List.find?_isSome.2 ⟨(k, e), Dict.mem_entries_iff.2 he, decide_eq_true hk⟩
  obtain ⟨⟨k₁, e₁⟩, hfind⟩ := Option.isSome_iff_exists.1 hsome
  have he₁ : s.pendingActivities.get? k₁ = some e₁ := Dict.mem_entries_iff.1 (List.mem_of_find?_eq_some hfind)
  have hk₁ : key ∈ e₁.markers := by simpa using List.find?_some hfind
  rw [owner, hfind, hd k₁ k e₁ e he₁ he (hmem hk₁)]
  rfl

/-- Markers are set for pending activities, and each is accounted to its own. -/
theorem Accounted.marks {gone : Nat → Prop} {marks : Prop} (hk : log.map (·.2) = s.flags) (hd : s.DistinctIds)
    (ho : OwnMarkers gone log s) (hm : Marks env gone marks s s') : Accounted (log ++ s.recorded s') s' := by
  obtain ⟨l, hl, hkeys⟩ := hm.flags
  have hrec : s.recorded s' = l.map fun key => (s.owner key, key) := by rw [recorded, hl, List.drop_left]
  refine ⟨?_, hd.kept fun he => ?_, fun b e' he' m hmem hreads => ?_⟩
  · rw [hrec, List.map_append, hk, hl, List.map_map]
    exact congrArg (s.flags ++ ·) (List.map_id l)
  · obtain ⟨e, he, hid, -⟩ := hm.kept he
    exact ⟨e, he, hid⟩
  · obtain ⟨e, he, hid, -, hq⟩ := hm.kept he'
    rcases List.mem_append.1 hmem with hmem | hmem
    · refine ho b e he m hmem (hreads.imp hid fun h => ?_)
      rcases hq with hq | hg
      · exact .inl (hq ▸ h.resolve_right id)
      · exact .inr hg
    · rw [hrec] at hmem
      obtain ⟨key, hkey, rfl⟩ := List.mem_map.1 hmem
      obtain ⟨-, k, e₁, he₁, hk₁⟩ := hkeys key hkey
      have hids : e₁.activityId = e.activityId := (hreads.id (ActivityExec.mem_markers.1 hk₁)).trans hid
      obtain rfl : k = b := hd k b e₁ e he₁ he hids
      exact owner_eq hd he₁ hk₁

/-- What a drain schedules reads no marker that is set. -/
theorem Accounted.drain (h : Accounted log s) {code : Code} (hu : (s.drainOutsideTask x code).Unmarked env) :
    OwnMarkers (fun k => .activity k ∈ (s.drainOutsideTask x code).commands ∧
      ∃ e, (s.drainOutsideTask x code).pendingActivities.get? k = some e ∧ (s.drainOutsideTask x code).LeavesFor env e)
      log (s.drainOutsideTask x code) := by
  have hg := grown_drain (x := x) h.distinct code
  have hf := flags_drain (x := x) s code
  generalize s.drainOutsideTask x code = σ at hu hg hf ⊢
  intro b e' he' m hm hreads
  have hflag : m.2 ∈ σ.flags := by
    rw [hf, ← h.keys]
    exact List.mem_map_of_mem hm
  by_cases hq : e'.queuedDbosId.isSome = true
  · rcases hg.old he' with ⟨e, he, ht⟩ | ⟨-, hnone⟩
    · have hqueued : e'.queuedDbosId = e.queuedDbosId := congrArg (fun t => t.2.2) ht
      exact h.own b e he m hm (hreads.imp (congrArg Prod.fst ht) fun _ => .inl (hqueued ▸ hq))
    · rw [hnone] at hq
      cases hq
  · by_cases hc : .activity b ∈ σ.commands
    · refine absurd (hreads.imp rfl fun hor => ?_) (hu b e' hc he' m.2 hflag)
      obtain ⟨-, e₁, he₁, hleaves⟩ := hor.resolve_left hq
      cases he'.symm.trans he₁
      exact hleaves
    · rcases hg.old he' with ⟨e, he, ht⟩ | ⟨hc', -⟩
      · exact h.own b e he m hm (hreads.imp (congrArg Prod.fst ht) fun hor => absurd (hor.resolve_left hq).1 hc)
      · exact absurd hc' hc

end Interp

/-! ## Runs -/

open Interp

/-- The runs of an execution, with the markers set so far and whom each was
set for. What a drain leaves meets `P`; a run that has left the loop may
close. -/
inductive MarkerRun (x : Execution) (P : Env → Interp → Prop) : List (Option Nat × EventKey) → Config → Prop
  | start (startTime : Seconds) (memo : Dict String Value) : MarkerRun x P [] ⟨.draining, .start startTime memo⟩
  | pass {log : List (Option Nat × EventKey)} {s s' : Interp} {t : Turn} (env : Env) (deadlinePassed : Bool)
      (code : Code) (hl : MarkerRun x P log ⟨.draining, s⟩) (hp : P env (s.drainOutsideTask x code))
      (h : s.pass x env deadlinePassed code = .ok (t, s')) :
      MarkerRun x P (log ++ (s.drainOutsideTask x code).recorded s') ⟨t.phase, s'⟩
  | passRaises {log : List (Option Nat × EventKey)} {s : Interp} {r : Raised} (env : Env) (deadlinePassed : Bool)
      (code : Code) (hl : MarkerRun x P log ⟨.draining, s⟩) (hp : P env (s.drainOutsideTask x code))
      (h : s.pass x env deadlinePassed code = .error r) :
      MarkerRun x P (log ++ (s.drainOutsideTask x code).recorded r.state) ⟨.closing (some r.exc), r.state⟩
  | round {log : List (Option Nat × EventKey)} {s s' : Interp} (env : Env) (done : Done)
      (hl : MarkerRun x P log ⟨.waiting, s⟩) (hf : s.Fits done) (h : s.round x env done = .ok s') :
      MarkerRun x P (log ++ s.recorded s') ⟨.draining, s'⟩
  | roundRaises {log : List (Option Nat × EventKey)} {s : Interp} {r : Raised} (env : Env) (done : Done)
      (hl : MarkerRun x P log ⟨.waiting, s⟩) (hf : s.Fits done) (h : s.round x env done = .error r) :
      MarkerRun x P (log ++ s.recorded r.state) ⟨.closing (some r.exc), r.state⟩
  | close {log : List (Option Nat × EventKey)} {s : Interp} {e : Option Exc} (env : Env)
      (hl : MarkerRun x P log ⟨.closing e, s⟩) :
      MarkerRun x P (log ++ s.recorded (s.closeRun x env)) ⟨.closing e, s.closeRun x env⟩

variable {x : Execution} {log : List (Option Nat × EventKey)} {c : Config}

theorem MarkerRun.accounted (h : MarkerRun x Unmarked log c) : Accounted log c.interp := by
  induction h with
  | start t m => exact ⟨rfl, (fun k k' e e' he => by cases he), fun b e he => by cases he⟩
  | @pass log s s' t env d code _ hp h ih =>
    have hk : log.map (·.2) = (s.drainOutsideTask x code).flags := ih.keys.trans (flags_drain s code).symm
    exact .marks hk (grown_drain ih.distinct code).distinct (ih.drain hp) ((marks_afterDrain x env d _).of_ok h)
  | @passRaises log s r env d code _ hp h ih =>
    have hk : log.map (·.2) = (s.drainOutsideTask x code).flags := ih.keys.trans (flags_drain s code).symm
    exact .marks hk (grown_drain ih.distinct code).distinct (ih.drain hp) ((marks_afterDrain x env d _).of_error h)
  | round env done _ _ h ih => exact .marks ih.keys ih.distinct ih.own ((marks_round x env done _).of_ok h)
  | roundRaises env done _ _ h ih => exact .marks ih.keys ih.distinct ih.own ((marks_round x env done _).of_error h)
  | close env _ ih => exact .marks ih.keys ih.distinct ih.own (marks_closeRun x env _)

/-- **Markers do not leak between activities**, in every run that schedules no
activity under an id whose marker it would read: the log has all the markers
that are set, and each one a pending activity reads, or who completes it from
outside, was set for that activity. -/
theorem markers_own (h : MarkerRun x Unmarked log c) : log.map (·.2) = c.interp.flags ∧
    ∀ b e, c.interp.pendingActivities.get? b = some e → ∀ a key, (a, key) ∈ log →
      e.Reads (e.queuedDbosId.isSome = true) key → a = some b :=
  ⟨h.accounted.keys, fun b e he _ _ hm hr => h.accounted.own b e he _ hm (hr.imp rfl .inl)⟩

/-! ### Two runs -/

/-- Each input fits where the run is, and what each drain leaves passes the
check. -/
def Config.follows (x : Execution) (check : Interp → Bool) : Config → List Input → Bool
  | _, [] => true
  | ⟨.draining, s⟩, .pass env d code :: is =>
    check (s.drainOutsideTask x code) && (Config.next x ⟨.draining, s⟩ (.pass env d code)).follows x check is
  | ⟨.waiting, s⟩, .round env done :: is =>
    s.fits done && (Config.next x ⟨.waiting, s⟩ (.round env done)).follows x check is
  | _, _ :: _ => false

/-- The markers a run sets, after those of the log, and where it leads. -/
def Config.marked (x : Execution) : List (Option Nat × EventKey) → Config → List Input →
    List (Option Nat × EventKey) × Config
  | log, c, [] => (log, c)
  | log, c, .pass env d code :: is =>
    marked x (log ++ (c.interp.drainOutsideTask x code).recorded (c.next x (.pass env d code)).interp)
      (c.next x (.pass env d code)) is
  | log, c, .round env done :: is =>
    marked x (log ++ c.interp.recorded (c.next x (.round env done)).interp) (c.next x (.round env done)) is

theorem MarkerRun.follows {P : Env → Interp → Prop} {check : Interp → Bool} (hcheck : ∀ env s, check s = true → P env s)
    (is : List Input) : ∀ {log : List (Option Nat × EventKey)} {c : Config}, MarkerRun x P log c →
      c.follows x check is = true → MarkerRun x P (c.marked x log is).1 (c.marked x log is).2 := by
  induction is with
  | nil => exact fun h _ => h
  | cons i is ih =>
    intro log c h hf
    obtain ⟨p, s⟩ := c
    cases i with
    | pass env d code =>
      cases p <;> simp only [Config.follows, Bool.and_eq_true, Bool.false_eq_true] at hf
      obtain ⟨hc, hf⟩ := hf
      refine ih ?_ hf
      simp only [Config.next]
      split
      · next t s' hs => exact .pass env d code h (hcheck env _ hc) hs
      · next r hr => exact .passRaises env d code h (hcheck env _ hc) hr
    | round env done =>
      cases p <;> simp only [Config.follows, Bool.and_eq_true, Bool.false_eq_true] at hf
      obtain ⟨hfits, hf⟩ := hf
      refine ih ?_ hf
      simp only [Config.next, if_pos hfits]
      split
      · next s' hs => exact .round env _ h (fits_of hfits) hs
      · next r hr => exact .roundRaises env _ h (fits_of hfits) hr

/-- No pending activity has an id of which a marker is set. -/
def Interp.unmarked (s : Interp) : Bool :=
  s.flags.all fun
    | .activityCancel a | .asyncActivityGone a => s.pendingActivities.values.all (·.activityId ≠ a)
    | _ => false

theorem Interp.unmarked_of {s : Interp} (h : s.unmarked = true) (env : Env) : s.Unmarked env := by
  intro k e _ he key hkey hr
  have hmem : e ∈ s.pendingActivities.values := Dict.mem_values_get?.2 ⟨k, he⟩
  have hall := List.all_eq_true.1 h key hkey
  cases key with
  | activityCancel a =>
    have := List.all_eq_true.1 hall e hmem
    exact absurd (hr.id (.inl rfl)).symm (by simpa using this)
  | asyncActivityGone a =>
    have := List.all_eq_true.1 hall e hmem
    exact absurd (hr.id (.inr rfl)).symm (by simpa using this)
  | _ => cases hall

/-- User code that runs an activity under an id on the queue `q`. -/
def queueActivity (activityId : String) : Code :=
  .asks [.startActivity { activityName := "act", activityId := some activityId, taskQueue := some "q" }]

/-- An activity is queued under the id `a` and cancelled; then another one is
queued. -/
def cancelThenQueue (activityId : String) : List Input :=
  [.pass .calm false (queueActivity "a"), .round .calm [(1, .message none)],
    .pass .calm false (.asks [.cancelActivityAwait 1]), .round .calm [(2, .message none)],
    .pass .calm false (queueActivity activityId)]

/-- With an id of its own, the second activity reads no marker. -/
theorem cancelThenQueue_ownId : ∃ log c, MarkerRun .plain Unmarked log c ∧ log = [(some 1, .activityCancel "a")] ∧
    ∃ e, c.interp.pendingActivities.get? 2 = some e ∧ ∀ a key, (a, key) ∈ log →
      e.Reads (e.queuedDbosId.isSome = true) key → a = some 2 := by
  have hf : Config.follows .plain Interp.unmarked ⟨.draining, .start 0⟩ (cancelThenQueue "b") = true := by decide +kernel
  have hrun := (MarkerRun.start (P := Unmarked) (x := .plain) 0 .empty).follows (fun env s h => Interp.unmarked_of h env) _ hf
  have hlog : (Config.marked .plain [] ⟨.draining, .start 0⟩ (cancelThenQueue "b")).1 = [(some 1, .activityCancel "a")] := by
    decide +kernel
  have hp : ((Config.marked .plain [] ⟨.draining, .start 0⟩ (cancelThenQueue "b")).2.interp.pendingActivities.get? 2).isSome
      = true := by decide +kernel
  obtain ⟨e, he⟩ := Option.isSome_iff_exists.1 hp
  exact ⟨_, _, hrun, hlog, e, he, (markers_own hrun).2 2 e he⟩

/-- Under the same id, it finds itself cancelled by the marker of the first. -/
theorem cancelThenQueue_sameId : ∃ log c, MarkerRun .plain (fun _ _ => True) log c ∧
    ∃ e, c.interp.pendingActivities.get? 2 = some e ∧ ∃ key, (some 1, key) ∈ log ∧
      e.Reads (e.queuedDbosId.isSome = true) key := by
  have hf : Config.follows .plain (fun _ => true) ⟨.draining, .start 0⟩ (cancelThenQueue "a") = true := by decide +kernel
  have hrun := (MarkerRun.start (P := fun _ _ => True) (x := .plain) 0 .empty).follows (fun _ _ _ => trivial) _ hf
  have hlog : (Config.marked .plain [] ⟨.draining, .start 0⟩ (cancelThenQueue "a")).1 = [(some 1, .activityCancel "a")] := by
    decide +kernel
  have hp : ((Config.marked .plain [] ⟨.draining, .start 0⟩ (cancelThenQueue "a")).2.interp.pendingActivities.get? 2).map
      (fun e => (e.activityId, e.queuedDbosId.isSome)) = some ("a", true) := by decide +kernel
  obtain ⟨e, he, heq⟩ := Option.map_eq_some_iff.1 hp
  obtain ⟨hid, hq⟩ := Prod.mk.inj heq
  refine ⟨_, _, hrun, e, he, .activityCancel "a", hlog ▸ List.mem_cons_self, .inr ⟨hq, ?_⟩⟩
  rw [hid]

end Dbosify
