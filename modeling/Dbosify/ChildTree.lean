/-
What terminating a child's tree does.

`_terminate_child_tree` walks the children that runs have recorded, depth
first, with the workflow ids it has visited. The walk performs what the
recorded policies owe (`Owed`) and nothing else that touches a run; where its
fuel covers the ids that can be reached, it performs all of it.
-/
import Dbosify.Close

namespace Dbosify

/-- `s'` is `s`, these operations later. -/
def Performs (s s' : Interp) (l : List Op) : Prop := s' = { s with trace := s.trace ++ l.map .step }

namespace Performs

variable {s s₁ s₂ : Interp} {l l' : List Op}

theorem refl (s : Interp) : Performs s s [] := by simp [Performs]

theorem trans (h : Performs s s₁ l) (h' : Performs s₁ s₂ l') : Performs s s₂ (l ++ l') := by
  rw [Performs] at h h' ⊢
  rw [h', h]
  simp

theorem step (h : Performs s s₁ l) (o : Op) : Performs s (s₁.step o) (l ++ [o]) :=
  h.trans (by simp [Performs, Interp.step, Interp.emit])

theorem unique (h : Performs s s₁ l) (h' : Performs s s₁ l') : l = l' := by
  rw [Performs] at h h'
  have htrace : s.trace ++ l.map .step = s.trace ++ l'.map .step := congrArg Interp.trace (h.symm.trans h')
  exact List.map_injective_iff.2 (fun a b hab => by cases hab; rfl) (List.append_cancel_left htrace)

end Performs

/-- Whether the operation does something to another run. -/
def Op.touches : Op → Bool
  | .cancelWorkflow _ | .send _ _ => true
  | _ => false

/-- Each probe round of a chain lookup. -/
def probeOps (env : Env) (workflowId : String) : List Op :=
  (List.range (env.probeRounds workflowId)).map (.statusList workflowId)

theorem performs_resolveCurrentRun (env : Env) (s : Interp) (i : String) :
    Performs s (s.resolveCurrentRun env i) (probeOps env i) := by
  have key : ∀ (l : List Nat) (s : Interp),
      Performs s (l.foldl (fun s n => s.step (.statusList i n)) s) (l.map (.statusList i)) := by
    intro l
    induction l with
    | nil => exact .refl
    | cons n l ih => intro s; exact ((Performs.refl s).step _).trans (ih _)
  exact key _ s

theorem probeOps_touches {env : Env} {i : String} {o : Op} (h : o ∈ probeOps env i) : o.touches = false := by
  obtain ⟨n, -, rfl⟩ := List.mem_map.1 h
  rfl

/-! ## What is owed -/

/-- Whether the current run of a chain is open. -/
def Env.open (env : Env) (id : String) : Bool := env.running (env.currentRun id)

/-- The children the current run of a chain has recorded. -/
def Env.childrenOf (env : Env) (id : String) : List (String × ParentClosePolicy) := env.recordedChildren (env.currentRun id)

/-- The policies that terminate. -/
def ParentClosePolicy.terminates : ParentClosePolicy → Bool
  | .terminate | .unspecified => true
  | _ => false

/-- A cancel request, sent at this moment. -/
def Env.cancelOp (env : Env) (target : String) : Op := .send target (.cancel "" (some env.now))

/-- What terminating a workflow owes it and its tree: its current run, where
that is open, is cancelled, each child it recorded for a cancel request is
sent one, and each it recorded for termination is owed the same. -/
inductive Owed (env : Env) : String → Op → Prop
  | cancel {id : String} (h : env.open id = true) : Owed env id (.cancelWorkflow (env.currentRun id))
  | request {id child : String} (h : env.open id = true) (hc : (child, .requestCancel) ∈ env.childrenOf id) :
      Owed env id (env.cancelOp child)
  | inside {id child : String} {policy : ParentClosePolicy} {o : Op} (h : env.open id = true)
      (hc : (child, policy) ∈ env.childrenOf id) (hp : policy.terminates = true) (ho : Owed env child o) : Owed env id o

namespace Interp

variable {env : Env}

/-- One child in the fold of `_terminate_child_tree`. -/
def walkChild (env : Env) (n : Nat) (r : List String × Interp) (child : String × ParentClosePolicy) : List String × Interp :=
  match child.2 with
  | .abandon => r
  | .requestCancel => (r.1, r.2.step (.send child.1 (.cancel "" (some env.now))))
  | .terminate | .unspecified => terminateChildTree env n child.1 r

/-- The walk comes to an id: seen before; new, and closed; new, and open. -/
theorem terminateChildTree_succ (env : Env) (n : Nat) (id : String) (v : List String) (s : Interp) :
    (id ∈ v ∧ terminateChildTree env (n + 1) id (v, s) = (v, s)) ∨
    (id ∉ v ∧ env.open id = false ∧ ∃ s', Performs s s' (probeOps env id ++ [.status (env.currentRun id)]) ∧
      terminateChildTree env (n + 1) id (v, s) = (v ++ [id], s')) ∨
    (id ∉ v ∧ env.open id = true ∧ ∃ s',
      Performs s s' (probeOps env id ++ [.status (env.currentRun id)] ++ [.cancelWorkflow (env.currentRun id)] ++
        [.getEvent (env.currentRun id)]) ∧
      terminateChildTree env (n + 1) id (v, s) = (env.childrenOf id).foldl (walkChild env n) (v ++ [id], s')) := by
  have hstatus : Performs s ((s.resolveCurrentRun env id).step (.status (env.currentRun id)))
      (probeOps env id ++ [.status (env.currentRun id)]) := (performs_resolveCurrentRun env s id).step _
  by_cases hv : id ∈ v
  · exact .inl ⟨hv, by simp [terminateChildTree, hv]⟩
  · cases ho : env.open id with
    | false =>
      rw [Env.open] at ho
      exact .inr (.inl ⟨hv, rfl, _, hstatus, by simp [terminateChildTree, hv, ho]⟩)
    | true =>
      rw [Env.open] at ho
      refine .inr (.inr ⟨hv, rfl, _, (hstatus.step _).step _, ?_⟩)
      simp only [terminateChildTree, List.contains_eq_mem, hv, decide_false, Bool.false_eq_true, if_false, ho,
        not_true_eq_false]
      rfl

/-- What a stretch of the walk has added. -/
structure Walked (env : Env) (P : Op → Prop) (v v' : List String) (s s' : Interp) (l : List Op) : Prop where
  performs : Performs s s' l
  visited : v ⊆ v'
  owed : ∀ o ∈ l, o.touches = true → P o

theorem Walked.refl (P : Op → Prop) (v : List String) (s : Interp) : Walked env P v v s s [] where
  performs := .refl s
  visited := List.Subset.refl v
  owed o h := by cases h

theorem Walked.trans {P : Op → Prop} {v₁ v₂ v₃ : List String} {s₁ s₂ s₃ : Interp} {l l' : List Op}
    (h : Walked env P v₁ v₂ s₁ s₂ l) (h' : Walked env P v₂ v₃ s₂ s₃ l') : Walked env P v₁ v₃ s₁ s₃ (l ++ l') where
  performs := h.performs.trans h'.performs
  visited := List.Subset.trans h.visited h'.visited
  owed o ho := by
    rcases List.mem_append.1 ho with ho | ho
    · exact h.owed o ho
    · exact h'.owed o ho

/-- The children of an open workflow, one after the other. -/
theorem walkChildren_owed {n : Nat} {id : String} (hopen : env.open id = true)
    (ih : ∀ (i : String) (v : List String) (s : Interp), ∃ l, Walked env (Owed env i) v (terminateChildTree env n i (v, s)).1 s
      (terminateChildTree env n i (v, s)).2 l) (cs : List (String × ParentClosePolicy))
    (hcs : ∀ c ∈ cs, c ∈ env.childrenOf id) (v : List String) (s : Interp) :
    ∃ l, Walked env (Owed env id) v (cs.foldl (walkChild env n) (v, s)).1 s (cs.foldl (walkChild env n) (v, s)).2 l ∧
      ∀ child, (child, ParentClosePolicy.requestCancel) ∈ cs → env.cancelOp child ∈ l := by
  induction cs generalizing v s with
  | nil => exact ⟨[], .refl _ v s, fun child h => by cases h⟩
  | cons c cs ihcs =>
    obtain ⟨child, policy⟩ := c
    have hc : (child, policy) ∈ env.childrenOf id := hcs _ (.head _)
    obtain ⟨l₁, hw₁, hreq₁⟩ : ∃ l₁, Walked env (Owed env id) v (walkChild env n (v, s) (child, policy)).1 s
        (walkChild env n (v, s) (child, policy)).2 l₁ ∧ (policy = .requestCancel → env.cancelOp child ∈ l₁) := by
      cases policy with
      | abandon => exact ⟨[], .refl _ v s, fun h => by cases h⟩
      | requestCancel =>
        refine ⟨[env.cancelOp child], ⟨(Performs.refl s).step _, List.Subset.refl v, fun o ho _ => ?_⟩, fun _ => .head _⟩
        obtain rfl := List.mem_singleton.1 ho
        exact .request hopen hc
      | terminate | unspecified =>
        obtain ⟨l, hw⟩ := ih child v s
        exact ⟨l, ⟨hw.performs, hw.visited, fun o ho ht => .inside hopen hc rfl (hw.owed o ho ht)⟩, fun h => by cases h⟩
    obtain ⟨l₂, hw₂, hreq₂⟩ := ihcs (fun c hc => hcs c (.tail _ hc)) (walkChild env n (v, s) (child, policy)).1
      (walkChild env n (v, s) (child, policy)).2
    refine ⟨l₁ ++ l₂, hw₁.trans hw₂, fun child' h => ?_⟩
    rcases List.mem_cons.1 h with h | h
    · cases h
      exact List.mem_append_left _ (hreq₁ rfl)
    · exact List.mem_append_right _ (hreq₂ child' h)

/-- The walk comes to an open workflow it has not seen. -/
theorem terminateChildTree_open {n : Nat} {id : String} {v : List String} (hv : id ∉ v) (hopen : env.open id = true)
    (ih : ∀ (i : String) (v : List String) (s : Interp), ∃ l, Walked env (Owed env i) v (terminateChildTree env n i (v, s)).1 s
      (terminateChildTree env n i (v, s)).2 l) (s : Interp) :
    ∃ l, Walked env (Owed env id) v (terminateChildTree env (n + 1) id (v, s)).1 s
        (terminateChildTree env (n + 1) id (v, s)).2 l ∧ .cancelWorkflow (env.currentRun id) ∈ l ∧
      ∀ child, (child, ParentClosePolicy.requestCancel) ∈ env.childrenOf id → env.cancelOp child ∈ l := by
  rcases terminateChildTree_succ env n id v s with ⟨hseen, -⟩ | ⟨-, hclosed, -⟩ | ⟨-, -, s', hp, he⟩
  · exact absurd hseen hv
  · rw [hopen] at hclosed
    cases hclosed
  · rw [he]
    obtain ⟨l, hw, hreq⟩ := walkChildren_owed hopen ih _ (fun _ h => h) (v ++ [id]) s'
    refine ⟨_, ⟨hp.trans hw.performs, List.Subset.trans (List.subset_append_left v _) hw.visited, fun o ho ht => ?_⟩,
      by simp, fun child hc => List.mem_append_right _ (hreq child hc)⟩
    simp only [List.mem_append, List.mem_singleton] at ho
    rcases ho with (((ho | rfl) | rfl) | rfl) | ho
    · rw [probeOps_touches ho] at ht
      cases ht
    · cases ht
    · exact .cancel hopen
    · cases ht
    · exact hw.owed o ho ht

/-- The walk touches no run but as is owed. -/
theorem terminateChildTree_owed (n : Nat) (id : String) (v : List String) (s : Interp) :
    ∃ l, Walked env (Owed env id) v (terminateChildTree env n id (v, s)).1 s (terminateChildTree env n id (v, s)).2 l := by
  induction n generalizing id v s with
  | zero => exact ⟨[], .refl _ v s⟩
  | succ n ih =>
    rcases terminateChildTree_succ env n id v s with ⟨-, he⟩ | ⟨-, -, s', hp, he⟩ | ⟨hv, hopen, -⟩
    · rw [he]
      exact ⟨[], .refl _ v s⟩
    · rw [he]
      refine ⟨_, hp, List.subset_append_left v _, fun o ho ht => ?_⟩
      rcases List.mem_append.1 ho with ho | ho
      · rw [probeOps_touches ho] at ht
        cases ht
      · obtain rfl := List.mem_singleton.1 ho
        cases ht
    · obtain ⟨l, hw, -⟩ := terminateChildTree_open hv hopen ih s
      exact ⟨l, hw⟩

/-- A walk that starts at an open workflow cancels it, and sends what its own
children are to be sent. -/
theorem terminateChildTree_first (n : Nat) {id : String} (hopen : env.open id = true) (s : Interp) :
    ∃ l, Performs s (terminateChildTree env (n + 1) id ([], s)).2 l ∧ (∀ o ∈ l, o.touches = true → Owed env id o) ∧
      .cancelWorkflow (env.currentRun id) ∈ l ∧
      ∀ child, (child, ParentClosePolicy.requestCancel) ∈ env.childrenOf id → env.cancelOp child ∈ l := by
  obtain ⟨l, hw, hcancel, hreq⟩ := terminateChildTree_open (List.not_mem_nil) hopen (terminateChildTree_owed n) s
  exact ⟨l, hw.performs, hw.owed, hcancel, hreq⟩

/-! ## The walk leaves nothing out -/

/-- An id the walk has seen: if it is open, its run is cancelled, its requests
are sent, and the children it terminates are seen as well. -/
def Discharged (env : Env) (v : List String) (l : List Op) (id : String) : Prop :=
  env.open id = true → .cancelWorkflow (env.currentRun id) ∈ l ∧
    ∀ c ∈ env.childrenOf id, (c.2 = .requestCancel → env.cancelOp c.1 ∈ l) ∧ (c.2.terminates = true → c.1 ∈ v)

theorem Discharged.mono {v v' : List String} {l l' : List Op} {id : String} (h : Discharged env v l id) (hv : v ⊆ v')
    (hl : l ⊆ l') : Discharged env v' l' id := fun ho =>
  ⟨hl (h ho).1, fun c hc => ⟨fun hp => hl (((h ho).2 c hc).1 hp), fun hp => hv (((h ho).2 c hc).2 hp)⟩⟩

/-- The ids the walk may come to, and how many of them it has not seen. -/
def unseen (reach v : List String) : Nat := (reach.filter (· ∉ v)).length

theorem unseen_mono {reach v v' : List String} (h : v ⊆ v') : unseen reach v' ≤ unseen reach v := by
  refine (List.monotone_filter_right reach fun i hi => ?_).length_le
  simp only [decide_eq_true_eq] at hi ⊢
  exact fun hv => hi (h hv)

theorem unseen_lt {reach v : List String} {id : String} (hr : id ∈ reach) (hv : id ∉ v) :
    unseen reach (v ++ [id]) < unseen reach v := by
  have hsub : (reach.filter (· ∉ v ++ [id])).Sublist (reach.filter (· ∉ v)) := by
    refine List.monotone_filter_right reach fun i hi => ?_
    simp only [decide_eq_true_eq, List.mem_append, not_or] at hi ⊢
    exact hi.1
  refine lt_of_le_of_ne hsub.length_le fun he => ?_
  have hin : id ∈ reach.filter (· ∉ v ++ [id]) := by
    rw [hsub.eq_of_length he]
    simp [hr, hv]
  simp at hin

/-- The children of a workflow, one after the other, where the fuel covers the
ids not seen. -/
theorem walkChildren_discharged {n : Nat} {reach : List String}
    (ih : ∀ (i : String) (v : List String) (s : Interp), i ∈ reach → unseen reach v < n →
      ∃ l, Walked env (fun _ => True) v (terminateChildTree env n i (v, s)).1 s (terminateChildTree env n i (v, s)).2 l ∧
        i ∈ (terminateChildTree env n i (v, s)).1 ∧ ∀ m ∈ (terminateChildTree env n i (v, s)).1, m ∉ v →
          Discharged env (terminateChildTree env n i (v, s)).1 l m)
    (cs : List (String × ParentClosePolicy)) (hcs : ∀ c ∈ cs, c.1 ∈ reach) (v : List String) (s : Interp)
    (hfuel : unseen reach v < n) :
    ∃ l, Walked env (fun _ => True) v (cs.foldl (walkChild env n) (v, s)).1 s (cs.foldl (walkChild env n) (v, s)).2 l ∧
      (∀ c ∈ cs, (c.2 = .requestCancel → env.cancelOp c.1 ∈ l) ∧
        (c.2.terminates = true → c.1 ∈ (cs.foldl (walkChild env n) (v, s)).1)) ∧
      ∀ m ∈ (cs.foldl (walkChild env n) (v, s)).1, m ∉ v → Discharged env (cs.foldl (walkChild env n) (v, s)).1 l m := by
  induction cs generalizing v s with
  | nil => exact ⟨[], .refl _ v s, fun c h => absurd h List.not_mem_nil, fun m hm hv => absurd hm hv⟩
  | cons c cs ihcs =>
    obtain ⟨l₁, hw₁, hc₁, hd₁⟩ : ∃ l₁, Walked env (fun _ => True) v (walkChild env n (v, s) c).1 s (walkChild env n (v, s) c).2 l₁ ∧
        ((c.2 = .requestCancel → env.cancelOp c.1 ∈ l₁) ∧ (c.2.terminates = true → c.1 ∈ (walkChild env n (v, s) c).1)) ∧
        ∀ m ∈ (walkChild env n (v, s) c).1, m ∉ v → Discharged env (walkChild env n (v, s) c).1 l₁ m := by
      obtain ⟨child, policy⟩ := c
      cases policy with
      | abandon => exact ⟨[], .refl _ v s, ⟨(fun h => by cases h), (fun h => by cases h)⟩, fun m hm hv => absurd hm hv⟩
      | requestCancel =>
        exact ⟨[env.cancelOp child], ⟨(Performs.refl s).step _, List.Subset.refl v, fun _ _ _ => trivial⟩,
          ⟨fun _ => .head _, (fun h => by cases h)⟩, fun m hm hv => absurd hm hv⟩
      | terminate | unspecified =>
        obtain ⟨l, hw, hin, hd⟩ := ih child v s (hcs _ (.head _)) hfuel
        exact ⟨l, hw, ⟨(fun h => by cases h), fun _ => hin⟩, hd⟩
    obtain ⟨l₂, hw₂, hc₂, hd₂⟩ := ihcs (fun c hc => hcs c (.tail _ hc)) (walkChild env n (v, s) c).1
      (walkChild env n (v, s) c).2 (lt_of_le_of_lt (unseen_mono hw₁.visited) hfuel)
    refine ⟨l₁ ++ l₂, hw₁.trans hw₂, fun c' h => ?_, fun m hm hv => ?_⟩
    · rcases List.mem_cons.1 h with rfl | h
      · exact ⟨fun hp => List.mem_append_left _ (hc₁.1 hp), fun hp => hw₂.visited (hc₁.2 hp)⟩
      · exact ⟨fun hp => List.mem_append_right _ ((hc₂ c' h).1 hp), (hc₂ c' h).2⟩
    · by_cases hm₁ : m ∈ (walkChild env n (v, s) c).1
      · exact (hd₁ m hm₁ hv).mono hw₂.visited (List.subset_append_left _ _)
      · exact (hd₂ m hm hm₁).mono (List.Subset.refl _) (List.subset_append_right _ _)

/-- The walk sees the id it is sent to, and leaves every id it sees
discharged. -/
theorem terminateChildTree_discharged {reach : List String}
    (hreach : ∀ i ∈ reach, ∀ c ∈ env.childrenOf i, c.1 ∈ reach) (n : Nat) (id : String) (v : List String) (s : Interp)
    (hid : id ∈ reach) (hfuel : unseen reach v < n) :
    ∃ l, Walked env (fun _ => True) v (terminateChildTree env n id (v, s)).1 s (terminateChildTree env n id (v, s)).2 l ∧
      id ∈ (terminateChildTree env n id (v, s)).1 ∧ ∀ m ∈ (terminateChildTree env n id (v, s)).1, m ∉ v →
        Discharged env (terminateChildTree env n id (v, s)).1 l m := by
  induction n generalizing id v s with
  | zero => exact absurd hfuel (by omega)
  | succ n ih =>
    rcases terminateChildTree_succ env n id v s with ⟨hv, he⟩ | ⟨hv, hclosed, s', hp, he⟩ | ⟨hv, hopen, s', hp, he⟩
    · rw [he]
      exact ⟨[], .refl _ v s, hv, fun m hm hm' => absurd hm hm'⟩
    · rw [he]
      refine ⟨_, ⟨hp, List.subset_append_left v _, fun _ _ _ => trivial⟩, by simp, fun m hm hm' => ?_⟩
      rcases List.mem_append.1 hm with hm | hm
      · exact absurd hm hm'
      · obtain rfl := List.mem_singleton.1 hm
        exact fun ho => by rw [hclosed] at ho; cases ho
    · rw [he]
      have hlt := unseen_lt hid hv
      obtain ⟨l, hw, hc, hd⟩ := walkChildren_discharged (fun i v s hi hf => ih i v s hi hf) _ (hreach id hid) (v ++ [id]) s'
        (by omega)
      refine ⟨_, ⟨hp.trans hw.performs, List.Subset.trans (List.subset_append_left v _) hw.visited,
        fun _ _ _ => trivial⟩, hw.visited (by simp), fun m hm hm' => ?_⟩
      by_cases hmid : m = id
      · subst hmid
        exact fun _ => ⟨by simp, fun c hmem => ⟨fun hpol => List.mem_append_right _ ((hc c hmem).1 hpol), (hc c hmem).2⟩⟩
      · exact (hd m hm (by simp [hm', hmid])).mono (List.Subset.refl _) (List.subset_append_right _ _)

/-- All that is owed is performed. -/
theorem terminateChildTree_performs {reach : List String}
    (hreach : ∀ i ∈ reach, ∀ c ∈ env.childrenOf i, c.1 ∈ reach) {n : Nat} {id : String} (hid : id ∈ reach)
    (hfuel : reach.length < n) (s : Interp) :
    ∃ l, Performs s (terminateChildTree env n id ([], s)).2 l ∧ ∀ o, Owed env id o → o ∈ l := by
  obtain ⟨l, hw, hin, hd⟩ := terminateChildTree_discharged hreach n id [] s hid (by simpa [unseen] using hfuel)
  have key : ∀ i o, i ∈ (terminateChildTree env n id ([], s)).1 → Owed env i o → o ∈ l := by
    intro i o hi ho
    induction ho with
    | cancel h => exact (hd _ hi (by simp) h).1
    | request h hc => exact ((hd _ hi (by simp) h).2 _ hc).1 rfl
    | inside h hc hp _ ih => exact ih (((hd _ hi (by simp) h).2 _ hc).2 hp)
  exact ⟨l, hw.performs, fun o ho => key id o hin ho⟩

end Interp

end Dbosify
