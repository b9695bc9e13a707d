/-
`workflow.patched` across a crash.

`patched` compares the recorded horizon with the number of operations
numbered so far; its marker is numbered later, by the commands the drain
queued. Whatever runs ahead of the marker may be on record at a crash when
the marker is not, and then the recovered execution takes the other branch.
When the marker is the first operation after the drain the two agree at every
crash point (`patched_stable`).
-/
import Dbosify.FunctionIds
import Dbosify.Recording

namespace Dbosify

open Coop (Act Claim Recordable claims horizon firstOp)

/-! ## Going on -/

namespace Interp

variable {x : Execution} {env : Env} {s s₁ s' : Interp} {p : Coop.Profile}

/-- The driver goes on from `s` to `s'`. -/
def Continues (s s' : Interp) : Prop := ∃ t rest, s'.history = s.past ++ (s.trace ++ t) :: rest

theorem Continues.refl (s : Interp) : s.Continues s := ⟨[], [], by rw [List.append_nil]; rfl⟩

theorem Continues.trans (h : s.Continues s₁) (h' : s₁.Continues s') : s.Continues s' := by
  obtain ⟨t, rest, h⟩ := h
  obtain ⟨u, rest', h'⟩ := h'
  rcases List.eq_nil_or_concat rest with rfl | ⟨init, l, rfl⟩
  · obtain ⟨hp, ht⟩ := List.append_singleton_inj.1 h
    exact ⟨t ++ u, rest', by rw [h', hp, ht, List.append_assoc]⟩
  · rw [List.concat_eq_append, ← List.cons_append, ← List.append_assoc] at h
    obtain ⟨hp, ht⟩ := List.append_singleton_inj.1 h
    exact ⟨t, init ++ (l ++ u) :: rest', by rw [h', hp, ht]; simp⟩

theorem Adds.continues (h : Adds s s' p) : s.Continues s' := by
  obtain ⟨t, ht, -⟩ := h
  exact ⟨t, [], ht⟩

theorem Awaits.continues (h : Awaits s s') : s.Continues s' := by
  obtain ⟨p, h, -⟩ := h
  exact h.continues

theorem continues_suspend (s : Interp) : s.Continues s.suspend :=
  ⟨[], [[]], by rw [history, List.append_nil]; simp [suspend]⟩

theorem continues_unsuspended {d b : Bool} {r : Turn × Interp} (h : s.endPass x env d b = .ok r) :
    (unsuspended r).Continues r.2 := by
  obtain ⟨t, s'⟩ := r
  cases t with
  | again | close | taskFailure => exact .refl s'
  | wait =>
    have hs : ∃ s₁ : Interp, s' = s₁.suspend := by
      unfold endPass settle at h
      simp only [bind_eq_ok] at h
      obtain ⟨⟨p, s₁⟩, -, h⟩ := h
      dsimp only at h
      split at h
      · cases h
      · split at h
        · cases h
        · simp only [bind_eq_ok] at h
          obtain ⟨s₂, -, h⟩ := h
          split at h <;> cases h
          exact ⟨_, rfl⟩
    obtain ⟨s₁, rfl⟩ := hs
    have hu : (unsuspended (.wait, s₁.suspend)).history = s₁.history := by simp [unsuspended, history, suspend]
    obtain ⟨hp, ht⟩ := List.append_singleton_inj.1 hu
    obtain ⟨t, rest, h⟩ := continues_suspend s₁
    exact ⟨t, rest, by rw [hp, ht]; exact h⟩

/-- A pass goes on from its drain. -/
theorem continues_pass (x : Execution) (env : Env) (s : Interp) (d : Bool) (code : Code) : match s.pass x env d code with
    | .ok r => (s.drainOutsideTask x code).Continues r.2
    | .error r => (s.drainOutsideTask x code).Continues r.state := by
  rw [pass_eq]
  have hb := awaits_beginPass x env s code
  cases hm : s.beginPass x env code with
  | error r => rw [hm] at hb; exact Awaits.continues hb
  | ok r =>
    rw [hm] at hb
    have he : Does r.2 (.all (passTurns x env d r.1 r.2)) unsuspended (r.2.endPass x env d r.1) := does_endPass
    rw [ok_bind]
    cases hn : r.2.endPass x env d r.1 with
    | error r' =>
      rw [hn] at he
      obtain ⟨q, ha, -⟩ := he
      exact (Awaits.continues hb).trans ha.continues
    | ok r' =>
      rw [hn] at he
      exact ((Awaits.continues hb).trans (Adds.continues he)).trans (continues_unsuspended hn)

theorem continues_round (x : Execution) (env : Env) (s : Interp) (done : Done) : match s.round x env done with
    | .ok s' => s.Continues s'
    | .error r => s.Continues r.state := by
  have h : Does (s.step .asyncioWait) (.all (eventTurns x env done s.waiters (s.step .asyncioWait))) id
      (s.round x env done) := does_events s.waiters _
  have hs := (Adds.step s .asyncioWait).continues
  cases hm : s.round x env done with
  | ok s' => rw [hm] at h; exact hs.trans (Adds.continues h)
  | error r =>
    rw [hm] at h
    obtain ⟨q, ha, -⟩ := h
    exact hs.trans ha.continues

theorem continues_drain (s : Interp) (code : Code) : s.Continues (s.drainOutsideTask x code) := by
  obtain ⟨hp, ht⟩ := history_drainOutsideTask (x := x) s code
  obtain ⟨t, rest, h⟩ := continues_suspend s
  exact ⟨t, rest, by rw [← h, history, hp, ht]; rfl⟩

end Interp

open Interp

variable {x : Execution}

theorem Config.continues_next (c : Config) (i : Input) : c.interp.Continues (c.next x i).interp := by
  obtain ⟨p, s⟩ := c
  cases i with
  | pass env d code =>
    cases p with
    | draining =>
      have h := continues_pass x env s d code
      simp only [next]
      cases hm : s.pass x env d code with
      | ok r => rw [hm] at h; exact (continues_drain s code).trans h
      | error r => rw [hm] at h; exact (continues_drain s code).trans h
    | waiting | closing | failed => exact .refl s
  | round env done =>
    cases p with
    | waiting =>
      have h := continues_round x env s (.of done)
      simp only [next]
      split
      · cases hm : s.round x env (.of done) with
        | ok s' => rw [hm] at h; exact h
        | error r => rw [hm] at h; exact h
      · exact .refl s
    | draining | closing | failed => exact .refl s

theorem Execution.run_append (x : Execution) (t : Seconds) (a b : List Input) :
    x.run t (a ++ b) = b.foldl (Config.next x) (x.run t a) := List.foldl_append

theorem Execution.continues_run (x : Execution) (t : Seconds) (a b : List Input) :
    (x.run t a).interp.Continues (x.run t (a ++ b)).interp := by
  rw [x.run_append]
  generalize x.run t a = c
  induction b generalizing c with
  | nil => exact .refl _
  | cons i b ih => exact (c.continues_next i).trans (ih _)

/-! ## A crash -/

/-- Where a crash finds the driver on its way to `z`: past the stretches
`done`, in the last act of `current`. -/
structure Crash (z : Interp) where
  done : List (List (Act Op))
  current : List (Act Op)
  rest : List (Act Op)
  later : List (List (Act Op))
  eq : z.history = done ++ (current ++ rest) :: later

/-- The crash in the act `k` of stretch `j`. -/
def Crash.cut (z : Interp) (j k : Nat) (h : j < z.history.length) : Crash z where
  done := z.history.take j
  current := (z.history.get ⟨j, h⟩).take k
  rest := (z.history.get ⟨j, h⟩).drop k
  later := z.history.drop (j + 1)
  eq := by
    rw [List.take_append_drop, List.get_eq_getElem, ← List.drop_eq_getElem_cons h, List.take_append_drop]

/-- Every operation numbered by then. -/
def Crash.claims {z : Interp} (c : Crash z) (x : Execution) : List (Claim Op) :=
  Coop.claims x.suspends 0 (c.done ++ [c.current])

/-- The ids of the patch markers on record. -/
def patchesIn (recorded : Claim Op → Bool) (cs : List (Claim Op)) : List String :=
  (cs.filter recorded).filterMap fun c =>
    match c.op with
    | .patch id => some id
    | _ => none

/-- The execution that recovers from a crash: `execute` reads the horizon and
the patch ids off what is on record. Its own awaits may suspend otherwise. -/
def Execution.recovering (x : Execution) {z : Interp} (c : Crash z) (recorded : Claim Op → Bool)
    (suspends : Nat → Nat → Bool) : Execution :=
  x.again suspends (horizon recorded (c.claims x)) (patchesIn recorded (c.claims x))

/-! ## Markers -/

/-- The ids a drain asks `patched` about for the first time. -/
def Code.newPatches (x : Execution) (s : Interp) : Code → List String
  | park => []
  | ask o k =>
    let s' := (o.run x s).state
    let new :=
      match o with
      | .patched id => if s.readOnly || (s.patchesMemoized.get? id).isSome then [] else [id]
      | _ => []
    new ++ (k s').newPatches x s'

/-- The act that writes the marker of `id`. -/
def isMarker (id : String) : Act Op → Bool
  | .step (.patch i) => i = id
  | _ => false

/-- Whenever a drain asks `patched` something new, the first operation after
the drain is the marker. -/
def MarkersFirst (x : Execution) (t : Seconds) (inputs : List Input) (z : Interp) : Prop :=
  ∀ pre env d code post, inputs = pre ++ .pass env d code :: post → (x.run t pre).phase = .draining →
    ∀ id ∈ code.newPatches x { (x.run t pre).interp.suspend with ready := [] },
      (firstOp (z.acts.drop (x.run t pre).interp.acts.length)).all (isMarker id) = true

/-! ## Agreement -/

theorem functionId_of_trace_nil {s : Interp} (x : Execution) (h : s.trace = []) :
    s.functionId x = (s.past.map fun t => (Coop.ops t).length).sum := by
  rw [functionId, h]
  rfl

/-- A new id alone is decided by the horizon and the record. -/
theorem patch_congr {y : Execution} {s : Interp} {id : String}
    (h : s.readOnly = false → s.patchesMemoized.get? id = none →
      (!s.isReplaying y || y.patchesRecorded.contains id) = (!s.isReplaying x || x.patchesRecorded.contains id)) :
    s.patch y id = s.patch x id := by
  unfold patch assertNotReadOnly
  split
  · rfl
  · next hr =>
    split
    · rfl
    · next hm => rw [h (by simpa using hr) (by simpa using hm)]

theorem patch_again {σ : Nat → Nat → Bool} {H : Nat} {P : List String} {s : Interp} {id : String}
    (hH : x.replayHorizon = 0) (ht : s.trace = [])
    (h : id ∈ (if s.readOnly || (s.patchesMemoized.get? id).isSome then [] else [id]) →
      (s.past.map fun t => (Coop.ops t).length).sum < H → P.contains id = true) :
    s.patch (x.again σ H P) id = s.patch x id := by
  refine patch_congr fun hr hm => ?_
  have h := h (by simp [hr, hm])
  have hx : s.isReplaying x = false := by simp [isReplaying, hH]
  rw [hx, Bool.not_false, Bool.true_or]
  change (!decide (s.functionId (x.again σ H P) < H) || P.contains id) = true
  rw [functionId_of_trace_nil _ ht]
  by_cases hN : (s.past.map fun t => (Coop.ops t).length).sum < H
  · rw [h hN, Bool.or_true]
  · simp [hN]

theorem userOp_again {σ : Nat → Nat → Bool} {H : Nat} {P : List String} {s : Interp} {o : UserOp}
    (h : ∀ id, o = .patched id → s.patch (x.again σ H P) id = s.patch x id) :
    o.run (x.again σ H P) s = o.run x s := by
  cases o with
  | patched id => exact h id rfl
  | _ => rfl

/-- A drain goes the same way when what it asks anew is behind the horizon or
on record. -/
theorem drain_again {σ : Nat → Nat → Bool} {H : Nat} {P : List String} (hH : x.replayHorizon = 0) (code : Code) :
    ∀ {s : Interp}, s.trace = [] →
    (∀ id ∈ code.newPatches x s, (s.past.map fun t => (Coop.ops t).length).sum < H → P.contains id = true) →
    code.drain (x.again σ H P) s = code.drain x s := by
  induction code with
  | park => intro s _ _; rfl
  | ask o k ih =>
    intro s ht h
    have ho : o.run (x.again σ H P) s = o.run x s := by
      refine userOp_again fun id hid => patch_again hH ht fun hm => h id ?_
      subst hid
      exact List.mem_append_left _ hm
    have hk := kept_userOp (x := x) s o
    simp only [Code.drain, ho]
    refine ih _ ((congrArg Kept.trace hk).trans ht) fun id hid => ?_
    rw [show (M.state (o.run x s)).past = s.past from congrArg Kept.past hk]
    exact h id (List.mem_append_right _ hid)

/-- **`patched` is stable across a crash** when every marker is the first
operation after the drain that asks for it: the recovered execution goes the
way of the original, at every crash point and for everything that can be on
record there. -/
theorem patched_stable {t : Seconds} {inputs : List Input} {z : Interp} {recorded : Claim Op → Bool}
    (hm : x.replayMode = none) (hH : x.replayHorizon = 0) (hz : (x.run t inputs).interp.Continues z) (c : Crash z)
    (hr : Recordable recorded 0 c.done c.current) (σ : Nat → Nat → Bool) (hf : MarkersFirst x t inputs z) :
    ∀ pre, pre <+: inputs → (x.recovering c recorded σ).run t pre = x.run t pre := by
  intro pre
  induction pre using List.reverseRecOn with
  | nil => intro _; rfl
  | append_singleton pre i ih =>
    intro hpre
    obtain ⟨post, rfl⟩ := hpre
    rw [Execution.run_append, Execution.run_append, ih ⟨i :: post, by simp⟩, List.foldl_cons, List.foldl_cons,
      List.foldl_nil, List.foldl_nil]
    have hnext : (x.run t (pre ++ [i])).interp.Continues z := (x.continues_run t _ post).trans hz
    rw [Execution.run_append] at hnext
    change (Config.next x (x.run t pre) i).interp.Continues z at hnext
    have hf := fun env d code (hi : i = .pass env d code) => hf pre env d code post (by simp [hi])
    generalize x.run t pre = cfg at hnext hf
    obtain ⟨ph, s⟩ := cfg
    cases i with
    | round env done => cases ph <;> rfl
    | pass env d code =>
      cases ph with
      | waiting | closing | failed => rfl
      | draining =>
        have hdrain : s.drainOutsideTask (x.recovering c recorded σ) code = s.drainOutsideTask x code := by
          refine drain_again hH code rfl fun id hid hN => ?_
          -- The history from the drain on.
          have hgo : (s.drainOutsideTask x code).Continues z := by
            refine Continues.trans ?_ hnext
            have h := continues_pass x env s d code
            simp only [Config.next]
            cases hp : s.pass x env d code with
            | ok r => rw [hp] at h; exact h
            | error r => rw [hp] at h; exact h
          obtain ⟨u, rest, hu⟩ := hgo
          rw [(history_drainOutsideTask s code).1] at hu
          have hacts : z.acts.drop s.acts.length = ((Interp.trace (s.drainOutsideTask x code) ++ u) :: rest).flatten := by
            have hflat : ∀ s : Interp, s.acts = s.history.flatten := by intro s; simp [acts, history]
            rw [hflat z, hu, List.flatten_append, hflat s, List.drop_left]
          have hmark := hf env d code rfl rfl id hid
          rw [hacts] at hmark
          have hrec := Coop.mark_recorded (σ := x.suspends) (o := Op.patch id) (hu.symm.trans c.eq) hr (by
            intro a ha
            rw [ha, Option.all_some] at hmark
            unfold isMarker at hmark
            split at hmark
            · simp only [decide_eq_true_eq] at hmark; rw [hmark]
            · cases hmark) hN
          obtain ⟨k, hk, hkr, hko⟩ := hrec
          have hin : id ∈ patchesIn recorded (c.claims x) :=
            List.mem_filterMap.2 ⟨k, List.mem_filter.2 ⟨hk, hkr⟩, by rw [hko]⟩
          simpa using hin
        simp only [Config.next, Interp.pass]
        rw [hdrain]
        unfold Execution.recovering
        rw [afterDrain_again hm]

/-- No marker. -/
def unmarked : Op → Bool
  | .patch _ => false
  | _ => true

/-- A history whose steps are no markers can be on record without its
markers. -/
theorem recordable_unmarked {done : List (List (Act Op))} {current : List (Act Op)}
    (hd : done.all (·.all (·.called.all unmarked)) = true) (hc : current.all (·.called.all unmarked) = true) (n : Nat) :
    Recordable (fun c => unmarked c.op) n done current := by
  have key : ∀ {l t u : List (Act Op)} {o : Op}, l.all (·.called.all unmarked) = true → l = t ++ .step o :: u →
      unmarked o = true := by
    intro l t u o h hl
    exact List.all_eq_true.1 h (.step o) (by simp [hl])
  induction done generalizing n with
  | nil => intro t o u ht _; exact key hc ht
  | cons s done ih =>
    rw [List.all_cons, Bool.and_eq_true] at hd
    exact ⟨fun t o u ht => key hd.1 ht, ih hd.2 _⟩

/-- An activity, then a patch. -/
def activityThenPatch : List Input := [.drain [.startActivity { activityName := "act" }, .patched "p"]]

/-- A crash with the attempt on record, and the marker not yet written: the
recovered execution takes the other branch. -/
theorem activityThenPatch_unstable : ∃ (x : Execution) (t : Seconds) (inputs : List Input) (z : Interp) (c : Crash z)
    (recorded : Claim Op → Bool) (σ : Nat → Nat → Bool) (id : String), x.replayMode = none ∧ x.replayHorizon = 0 ∧
      (x.run t inputs).interp.Continues z ∧ Recordable recorded 0 c.done c.current ∧
      ((x.recovering c recorded σ).run t inputs).interp.patchesMemoized.get? id = some false ∧
      (x.run t inputs).interp.patchesMemoized.get? id = some true :=
  ⟨.plain, 0, activityThenPatch, (Execution.plain.run 0 activityThenPatch).interp, .cut _ 1 3 (by decide +kernel),
    fun c => unmarked c.op, fun _ _ => false, "p", rfl, rfl, .refl _,
    recordable_unmarked (by decide +kernel) (by decide +kernel) 0, by decide +kernel, by decide +kernel⟩

/-- The patch, then the activity. -/
def patchThenActivity : List Input := [.drain [.patched "p", .startActivity { activityName := "act" }]]

/-- A crash with everything on record leaves the branch as it was. -/
theorem patchThenActivity_stable : ∃ c : Crash (Execution.plain.run 0 patchThenActivity).interp,
    (Execution.plain.recovering c (fun _ => true) fun _ _ => true).run 0 patchThenActivity =
      Execution.plain.run 0 patchThenActivity ∧
    0 < (Execution.plain.recovering c (fun _ => true) fun _ _ => true).replayHorizon := by
  refine ⟨.cut _ 1 5 (by decide +kernel), patched_stable rfl rfl (.refl _) _ ?_ _ ?_ _ (List.prefix_refl _),
    by decide +kernel⟩
  · have key : ∀ (l : List (List (Act Op))) (current : List (Act Op)) (n : Nat),
        Recordable (fun _ => true) n l current := by
      intro l current
      induction l with
      | nil => intro n t o u _ _; rfl
      | cons s l ih => intro n; exact ⟨fun _ _ _ _ => rfl, ih _⟩
    exact key _ _ _
  · intro pre env d code post he _
    cases pre with
    | nil =>
      injection he with he _
      injection he with _ hd hc
      subst hc
      decide +kernel
    | cons i pre => simp [patchThenActivity] at he

end Dbosify
