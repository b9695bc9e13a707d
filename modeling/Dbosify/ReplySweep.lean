/-
Waiting for a reply along a chain.

A message that the target of an update or a query had not consumed when it
hopped is forwarded to a later run, which replies under its own id. So
`_await_reply_event` polls the target, and after each miss resolves the chain
and sweeps the runs newer than the target. The chain may grow and a reply may
be published between any two of its reads. A round that begins once the reply
is there finds it (`reply_found`).
-/
import Dbosify.ChainResolution
import Dbosify.Values

namespace Dbosify

/-! ## The wait -/

/-- The system database, as far as the wait reads it: the newest run of the
chain, and the event under the reply's key by run. -/
structure ReplyBoard (β : Type) where
  newest : Nat
  published : String → Option β

/-- `_await_reply_event`, between its reads. -/
inductive ReplyWait (β : Type)
  /-- At the head of the loop. -/
  | checking
  /-- In `get_event_async`, on the target. -/
  | polling
  /-- In `_newer_chain_runs`. -/
  | resolving (r : Resolver String)
  | sweeping (runs : List String)
  | returned (reply : Option β)

variable {β : Type}

/-- `_newer_chain_runs`, of a chain with this newest run: newest first. -/
def newerChainRuns (workflowId : String) (latest afterIndex : Nat) : List String :=
  (List.range' (afterIndex + 1) (latest - afterIndex)).reverse.map (runDbosId workflowId)

/-- What the sweep goes through once the chain is resolved. -/
def ReplyWait.resolved (workflowId : String) (targetIndex : Nat) : Resolver String → ReplyWait β
  | .returned none => sweeping []
  | .returned (some (latest, _)) => sweeping (newerChainRuns workflowId latest targetIndex)
  | r => resolving r

/-- One read. -/
def ReplyWait.step (workflowId target : String) (targetIndex : Option Nat) (deadline : Seconds) (board : ReplyBoard β)
    (now : Seconds) : ReplyWait β → ReplyWait β
  | checking => if deadline - now ≤ 0 then returned none else polling
  | polling =>
    match board.published target with
    | some v => returned (some v)
    | none =>
      match targetIndex with
      -- Not a chain member: nothing to sweep.
      | none => checking
      | some _ => resolving .ladder
  | resolving r =>
    (r.next (probe workflowId (chainLookup workflowId board.newest id) r.points)) |>
      resolved workflowId (targetIndex.getD 0)
  | sweeping [] => checking
  | sweeping (run :: runs) =>
    match board.published run with
    | some v => returned (some v)
    | none => sweeping runs
  | returned reply => returned reply

/-- The chain and the events as the reads of a wait find them: runs are added,
and an event is set once, by a run that exists. -/
structure ReplyHistory (β : Type) (workflowId : String) where
  boards : Nat → ReplyBoard β
  clock : Nat → Seconds
  grows : ∀ n, (boards n).newest ≤ (boards (n + 1)).newest
  kept : ∀ n k v, (boards n).published k = some v → (boards (n + 1)).published k = some v
  exist : ∀ n k v, (boards n).published (runDbosId workflowId k) = some v → k ≤ (boards n).newest
  /-- The chain comes to an end. -/
  bound : Nat
  bounded : ∀ n, (boards n).newest ≤ bound

namespace ReplyHistory

variable {workflowId : String} (h : ReplyHistory β workflowId) (i : Nat) (deadline : Seconds)

/-- The wait for a reply to a message sent to run `i`, after `n` reads. -/
def wait : Nat → ReplyWait β
  | 0 => .checking
  | n + 1 => (wait n).step workflowId (runDbosId workflowId i) (some i) deadline (h.boards n) (h.clock n)

/-- A run from `i` on has replied. -/
def Replied (n : Nat) (v : β) : Prop := ∃ k, i ≤ k ∧ (h.boards n).published (runDbosId workflowId k) = some v

variable {h i deadline} {n m : Nat}

/-! ## One read -/

theorem wait_succ {w : ReplyWait β} (hw : h.wait i deadline n = w) : h.wait i deadline (n + 1) =
    w.step workflowId (runDbosId workflowId i) (some i) deadline (h.boards n) (h.clock n) := by
  rw [← hw]
  rfl

theorem wait_checking (hw : h.wait i deadline n = .checking) (hd : h.clock n < deadline) :
    h.wait i deadline (n + 1) = .polling := by
  rw [wait_succ hw]
  exact if_neg (by linarith)

theorem wait_expired (hw : h.wait i deadline n = .checking) (hd : deadline ≤ h.clock n) :
    h.wait i deadline (n + 1) = .returned none := by
  rw [wait_succ hw]
  exact if_pos (by linarith)

theorem wait_polling (hw : h.wait i deadline n = .polling) : h.wait i deadline (n + 1) =
    (((h.boards n).published (runDbosId workflowId i)).map fun v => .returned (some v)).getD (.resolving .ladder) := by
  rw [wait_succ hw, ReplyWait.step]
  cases (h.boards n).published (runDbosId workflowId i) with
  | none => rfl
  | some v => rfl

theorem wait_polling_some {v : β} (hw : h.wait i deadline n = .polling)
    (hp : (h.boards n).published (runDbosId workflowId i) = some v) : h.wait i deadline (n + 1) = .returned (some v) := by
  rw [wait_polling hw, hp, Option.map_some, Option.getD_some]

theorem wait_polling_none (hw : h.wait i deadline n = .polling)
    (hp : (h.boards n).published (runDbosId workflowId i) = none) :
    h.wait i deadline (n + 1) = .resolving .ladder := by
  rw [wait_polling hw, hp, Option.map_none, Option.getD_none]

theorem wait_resolving {r : Resolver String} (hw : h.wait i deadline n = .resolving r) : h.wait i deadline (n + 1) =
    ReplyWait.resolved workflowId i
      (r.next (probe workflowId (chainLookup workflowId (h.boards n).newest id) r.points)) := wait_succ hw

theorem wait_swept (hw : h.wait i deadline n = .sweeping []) : h.wait i deadline (n + 1) = .checking := wait_succ hw

theorem wait_sweeping {run : String} {runs : List String} (hw : h.wait i deadline n = .sweeping (run :: runs)) :
    h.wait i deadline (n + 1) =
      (((h.boards n).published run).map fun v => .returned (some v)).getD (.sweeping runs) := by
  rw [wait_succ hw, ReplyWait.step]
  cases (h.boards n).published run with
  | none => rfl
  | some v => rfl

theorem wait_sweeping_some {run : String} {runs : List String} {v : β} (hw : h.wait i deadline n = .sweeping (run :: runs))
    (hp : (h.boards n).published run = some v) : h.wait i deadline (n + 1) = .returned (some v) := by
  rw [wait_sweeping hw, hp, Option.map_some, Option.getD_some]

theorem wait_sweeping_none {run : String} {runs : List String} (hw : h.wait i deadline n = .sweeping (run :: runs))
    (hp : (h.boards n).published run = none) : h.wait i deadline (n + 1) = .sweeping runs := by
  rw [wait_sweeping hw, hp, Option.map_none, Option.getD_none]

theorem wait_returned {reply : Option β} (hw : h.wait i deadline n = .returned reply) :
    h.wait i deadline (n + 1) = .returned reply := wait_succ hw

/-! ## What is found is a reply -/

theorem kept_le {k : String} {v : β} (hk : (h.boards n).published k = some v) (hnm : n ≤ m) :
    (h.boards m).published k = some v := by
  induction m, hnm using Nat.le_induction with
  | base => exact hk
  | succ m _ ih => exact h.kept m k v ih

theorem newest_mono (hnm : n ≤ m) : (h.boards n).newest ≤ (h.boards m).newest := by
  induction m, hnm using Nat.le_induction with
  | base => exact le_rfl
  | succ m _ ih => exact ih.trans (h.grows m)

theorem Replied.mono {v : β} (hv : h.Replied i n v) (hnm : n ≤ m) : h.Replied i m v := by
  obtain ⟨k, hik, hk⟩ := hv
  exact ⟨k, hik, kept_le hk hnm⟩

/-- What a wait may hold: runs of the chain newer than the target, and a reply
that one from the target on has published. -/
def Holds (h : ReplyHistory β workflowId) (i n : Nat) : ReplyWait β → Prop
  | .sweeping runs => ∀ id ∈ runs, ∃ k, i < k ∧ id = runDbosId workflowId k
  | .returned (some v) => h.Replied i n v
  | _ => True

theorem mem_newerChainRuns {latest : Nat} {id : String} :
    id ∈ newerChainRuns workflowId latest i ↔ ∃ k, i < k ∧ k ≤ latest ∧ id = runDbosId workflowId k := by
  simp only [newerChainRuns, List.mem_map, List.mem_reverse, List.mem_range'_1]
  constructor
  · rintro ⟨k, ⟨hik, hk⟩, rfl⟩
    exact ⟨k, by omega, by omega, rfl⟩
  · rintro ⟨k, hik, hk, rfl⟩
    exact ⟨k, ⟨by omega, by omega⟩, rfl⟩

theorem holds_resolved (r : Resolver String) : h.Holds i n (ReplyWait.resolved workflowId i r) := by
  unfold ReplyWait.resolved
  split
  · exact fun _ hm => by cases hm
  · intro id hid
    obtain ⟨k, hik, -, rfl⟩ := mem_newerChainRuns.1 hid
    exact ⟨k, hik, rfl⟩
  · trivial

theorem holds_wait (n : Nat) : h.Holds i n (h.wait i deadline n) := by
  induction n with
  | zero => trivial
  | succ n ih =>
    cases hw : h.wait i deadline n with
    | checking =>
      by_cases hd : h.clock n < deadline
      · rw [wait_checking hw hd]; trivial
      · rw [wait_expired hw (not_lt.1 hd)]; trivial
    | polling =>
      cases hp : (h.boards n).published (runDbosId workflowId i) with
      | none => rw [wait_polling_none hw hp]; trivial
      | some v => rw [wait_polling_some hw hp]; exact ⟨i, le_rfl, h.kept n _ _ hp⟩
    | resolving r => rw [wait_resolving hw]; exact holds_resolved _
    | sweeping runs =>
      rw [hw] at ih
      cases runs with
      | nil => rw [wait_swept hw]; trivial
      | cons run runs =>
        cases hp : (h.boards n).published run with
        | none => rw [wait_sweeping_none hw hp]; exact fun id hid => ih id (.tail _ hid)
        | some v =>
          rw [wait_sweeping_some hw hp]
          obtain ⟨k, hik, rfl⟩ := ih run (.head _)
          exact ⟨k, hik.le, h.kept n _ _ hp⟩
    | returned reply =>
      rw [hw] at ih
      rw [wait_returned hw]
      cases reply with
      | none => trivial
      | some v => exact Replied.mono ih (Nat.le_succ n)

/-! ## A round finds a reply -/

/-- A sweep finds the reply of a run it comes to. -/
theorem sweep_finds {k : String} {v : β} (hp : (h.boards n).published k = some v) (runs : List String) : ∀ {m}, n ≤ m →
    h.wait i deadline m = .sweeping runs → k ∈ runs → ∃ m' v', h.wait i deadline m' = .returned (some v') := by
  induction runs with
  | nil => intro m _ _ hk; cases hk
  | cons run runs ih =>
    intro m hnm hw hk
    cases hrun : (h.boards m).published run with
    | some v' => exact ⟨m + 1, v', wait_sweeping_some hw hrun⟩
    | none =>
      rcases List.mem_cons.1 hk with rfl | hk
      · rw [kept_le hp hnm] at hrun
        cases hrun
      · exact ih (by omega) (wait_sweeping_none hw hrun) hk

/-- The resolution that begins at the `n`-th read, after `m` lookups. -/
def resolver (h : ReplyHistory β workflowId) (n m : Nat) : Resolver String :=
  resolving workflowId (fun j => (h.boards (n + j)).newest) id (fun _ => id) m

theorem resolved_of_unfinished {r : Resolver String} (hr : ∀ latest, r ≠ .returned latest) :
    (ReplyWait.resolved workflowId i r : ReplyWait β) = .resolving r := by
  cases r with
  | returned latest => exact absurd rfl (hr latest)
  | ladder | doubling | refining => rfl

/-- While the chain is resolved, the wait is where the resolver is. -/
theorem wait_resolver (hw : h.wait i deadline n = .resolving .ladder) : ∀ m,
    (∀ m' < m, ∀ latest, h.resolver n m' ≠ .returned latest) →
    ∀ m', m = m' + 1 → h.wait i deadline (n + m) = ReplyWait.resolved workflowId i (h.resolver n m) := by
  intro m
  induction m with
  | zero => intro _ m' hm; omega
  | succ m ih =>
    intro hm _ _
    have hprev : h.wait i deadline (n + m) = .resolving (h.resolver n m) := by
      cases m with
      | zero => exact hw
      | succ m => rw [ih (fun m' h' => hm m' (by omega)) m rfl, resolved_of_unfinished (hm (m + 1) (by omega))]
    exact wait_resolving hprev

/-- A resolution ends, with a run at least as new as any there was when it
began. -/
theorem resolver_returns (h : ReplyHistory β workflowId) (n : Nat) : ∃ m latest st,
    h.resolver n (m + 1) = .returned (some (latest, st)) ∧ (∀ m' ≤ m, ∀ l, h.resolver n m' ≠ .returned l) ∧
      (h.boards n).newest ≤ latest := by
  classical
  obtain ⟨k, l, hk⟩ := resolving_returns workflowId (fun j => (h.boards (n + j)).newest) id (fun _ => id)
    (fun j => h.bounded (n + j)) 0
  have hex : ∃ k, ∃ l, h.resolver n k = .returned l := ⟨k, l, hk⟩
  obtain ⟨l, hl⟩ := Nat.find_spec hex
  have hfirst : ∀ m' < Nat.find hex, ∀ l, h.resolver n m' ≠ .returned l := fun m' hm l hl => Nat.find_min hex hm ⟨l, hl⟩
  cases hm : Nat.find hex with
  | zero => rw [hm] at hl; cases hl
  | succ m =>
    rw [hm] at hl hfirst
    have hsound := resolving_sound workflowId (fun j => (h.boards (n + j)).newest) id (fun _ => id) (m + 1)
    rw [show resolving _ _ _ _ _ = _ from hl] at hsound
    obtain ⟨latest, st, rfl, -, j, -, hmissed⟩ := hsound
    exact ⟨m, latest, st, hl, fun m' hm => hfirst m' (by omega),
      (newest_mono (Nat.le_add_right n j)).trans (Nat.le_of_lt_succ hmissed)⟩

/-- The resolution of a round leads to a sweep. -/
theorem sweeps (hw : h.wait i deadline n = .resolving .ladder) : ∃ m latest, n < m ∧ (h.boards n).newest ≤ latest ∧
    h.wait i deadline m = .sweeping (newerChainRuns workflowId latest i) := by
  obtain ⟨m, latest, st, hres, hfirst, hnew⟩ := h.resolver_returns n
  refine ⟨n + (m + 1), latest, by omega, hnew, ?_⟩
  rw [wait_resolver hw (m + 1) (fun m' hm => hfirst m' (by omega)) m rfl, hres]
  rfl

/-- A round that begins before the deadline, once a reply is there, ends with
one. -/
theorem round_finds {v : β} (hw : h.wait i deadline n = .checking) (hd : h.clock n < deadline) (hv : h.Replied i n v) :
    ∃ m v', h.wait i deadline m = .returned (some v') := by
  obtain ⟨k, hik, hk⟩ := hv
  have hpoll := wait_checking hw hd
  cases hp : (h.boards (n + 1)).published (runDbosId workflowId i) with
  | some v' => exact ⟨n + 2, v', wait_polling_some hpoll hp⟩
  | none =>
    have hlt : i < k := by
      refine lt_of_le_of_ne hik fun heq => ?_
      subst heq
      rw [h.kept n _ _ hk] at hp
      cases hp
    obtain ⟨m, latest, hm, hnew, hsweep⟩ := sweeps (wait_polling_none hpoll hp)
    have hle : k ≤ latest := (h.exist n k v hk).trans ((newest_mono (Nat.le_add_right n 2)).trans hnew)
    exact sweep_finds hk _ (by omega) hsweep (mem_newerChainRuns.2 ⟨k, hlt, hle, rfl⟩)

/-- At the head of the loop, or over. -/
def AtHead (h : ReplyHistory β workflowId) (i : Nat) (deadline : Seconds) (n : Nat) : Prop :=
  h.wait i deadline n = .checking ∨ ∃ reply, h.wait i deadline n = .returned reply

theorem sweep_ends (runs : List String) : ∀ {n}, h.wait i deadline n = .sweeping runs → ∃ m, n < m ∧ h.AtHead i deadline m := by
  induction runs with
  | nil => intro n hw; exact ⟨n + 1, by omega, .inl (wait_swept hw)⟩
  | cons run runs ih =>
    intro n hw
    cases hp : (h.boards n).published run with
    | some v => exact ⟨n + 1, by omega, .inr ⟨_, wait_sweeping_some hw hp⟩⟩
    | none =>
      obtain ⟨m, hm, hhead⟩ := ih (wait_sweeping_none hw hp)
      exact ⟨m, by omega, hhead⟩

/-- A round ends. -/
theorem round_ends (hw : h.AtHead i deadline n) : ∃ m, n < m ∧ h.AtHead i deadline m := by
  rcases hw with hw | ⟨reply, hw⟩
  · by_cases hd : h.clock n < deadline
    · have hpoll := wait_checking hw hd
      cases hp : (h.boards (n + 1)).published (runDbosId workflowId i) with
      | some v => exact ⟨n + 2, by omega, .inr ⟨_, wait_polling_some hpoll hp⟩⟩
      | none =>
        obtain ⟨m, latest, hm, -, hsweep⟩ := sweeps (wait_polling_none hpoll hp)
        obtain ⟨m', hm', hhead⟩ := sweep_ends _ hsweep
        exact ⟨m', by omega, hhead⟩
    · exact ⟨n + 1, by omega, .inr ⟨_, wait_expired hw (not_lt.1 hd)⟩⟩
  · exact ⟨n + 1, by omega, .inr ⟨_, wait_returned hw⟩⟩

/-- The loop comes round. -/
theorem comes_round (n : Nat) : ∃ m, n ≤ m ∧ h.AtHead i deadline m := by
  induction n with
  | zero => exact ⟨0, le_rfl, .inl rfl⟩
  | succ n ih =>
    obtain ⟨m, hm, hhead⟩ := ih
    by_cases heq : m = n
    · subst heq
      exact round_ends hhead
    · exact ⟨m, by omega, hhead⟩

/-- A wait gives up at the head of the loop alone, past its deadline. -/
theorem gives_up (hw : h.wait i deadline (n + 1) = .returned none) : ∃ m ≤ n, h.wait i deadline m = .checking ∧
    deadline ≤ h.clock m := by
  induction n with
  | zero =>
    refine ⟨0, le_rfl, rfl, ?_⟩
    refine not_lt.1 fun hd => ?_
    rw [wait_checking rfl hd] at hw
    cases hw
  | succ n ih =>
    cases hprev : h.wait i deadline (n + 1) with
    | checking =>
      refine ⟨n + 1, le_rfl, hprev, not_lt.1 fun hd => ?_⟩
      rw [wait_checking hprev hd] at hw
      cases hw
    | polling =>
      cases hp : (h.boards (n + 1)).published (runDbosId workflowId i) with
      | none => rw [wait_polling_none hprev hp] at hw; cases hw
      | some v => rw [wait_polling_some hprev hp] at hw; cases hw
    | resolving r =>
      rw [wait_resolving hprev] at hw
      unfold ReplyWait.resolved at hw
      split at hw <;> cases hw
    | sweeping runs =>
      cases runs with
      | nil => rw [wait_swept hprev] at hw; cases hw
      | cons run runs =>
        cases hp : (h.boards (n + 1)).published run with
        | none => rw [wait_sweeping_none hprev hp] at hw; cases hw
        | some v => rw [wait_sweeping_some hprev hp] at hw; cases hw
    | returned reply =>
      rw [wait_returned hprev] at hw
      cases hw
      obtain ⟨m, hm, hc, hd⟩ := ih hprev
      exact ⟨m, by omega, hc, hd⟩

end ReplyHistory

/-- What a wait for a reply to a message sent to run `i` comes to. -/
structure ReplyLaw {workflowId : String} (h : ReplyHistory β workflowId) (i : Nat) (deadline : Seconds) : Prop where
  /-- It returns what a run from the target on has published. -/
  sound : ∀ n v, h.wait i deadline n = .returned (some v) → h.Replied i n v
  /-- A round that begins in time, once one has, returns it. -/
  finds : ∀ n v, h.wait i deadline n = .checking → h.clock n < deadline → h.Replied i n v →
    ∃ m v', h.wait i deadline m = .returned (some v')
  /-- The loop comes round as long as it lasts. -/
  rounds : ∀ n, ∃ m, n ≤ m ∧ h.AtHead i deadline m
  /-- It gives up past its deadline alone, at the head of the loop. -/
  patient : ∀ n, h.wait i deadline (n + 1) = .returned none →
    ∃ m ≤ n, h.wait i deadline m = .checking ∧ deadline ≤ h.clock m

end Dbosify
