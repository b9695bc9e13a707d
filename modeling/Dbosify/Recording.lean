/-
What a crash leaves of a numbered history.

A driver's history is a list of stretches, numbered one after the other. A
crash finds it in one of them. An operation is recorded once it completes, so
every step the driver has got past is on record; the last act may be, and any
operation that runs in a task may be.

What recovery reads of the record is the highest number on it (`horizon`).
A step that is the first operation from some point on is on record whenever
the horizon lies past that point (`mark_recorded`).
-/
import Mathlib.Algebra.GroupWithZero.Nat
import Dbosify.EventLoop

namespace Coop

variable {ω : Type}

/-! ## Numbering a history -/

/-- An operation in its place: its stretch, and where it stands there. -/
structure Claim (ω : Type) where
  stretch : Nat
  place : Nat
  op : ω

/-- The same act, its operation in its place. -/
def Act.tag (n p : Nat) : Act ω → Act (Claim ω)
  | .await => .await
  | .step o => .step ⟨n, p, o⟩
  | .launch o => .launch ⟨n, p, o⟩
  | .spawn o => .spawn ⟨n, p, o⟩
  | .look => .look

/-- Stretch `n`, from place `p` on. -/
def tagged (n p : Nat) : List (Act ω) → List (Act (Claim ω))
  | [] => []
  | a :: t => a.tag n p :: tagged n (p + 1) t

/-- The operations of a stretch. -/
def ops (t : List (Act ω)) : List ω := calls t ++ spawns t

/-- The operations of a history in the order they are numbered; its first
stretch is stretch `n`. -/
def claims (σ : Nat → Nat → Bool) (n : Nat) : List (List (Act ω)) → List (Claim ω)
  | [] => []
  | t :: h => assign (σ n) (tagged n 0 t) ++ claims σ (n + 1) h

/-- Whether an act's operation is numbered. -/
def Act.numbers (a : Act ω) : Bool := a.called.isSome || a.spawned.isSome

/-- The first act with an operation. -/
def firstOp (t : List (Act ω)) : Option (Act ω) := t.find? Act.numbers

/-! ## The record -/

/-- The highest number on record. -/
def horizon (recorded : Claim ω → Bool) (cs : List (Claim ω)) : Nat := (cs.reverse.dropWhile (!recorded ·)).length

/-- What can be on record when the driver, past the stretches `done`, is in
the last act of `current`: each step it has got past is. -/
def Recordable (recorded : Claim ω → Bool) (n : Nat) : List (List (Act ω)) → List (Act ω) → Prop
  | [], current => ∀ t o u, current = t ++ .step o :: u → u ≠ [] → recorded ⟨n, t.length, o⟩ = true
  | s :: done, current =>
    (∀ t o u, s = t ++ .step o :: u → recorded ⟨n, t.length, o⟩ = true) ∧ Recordable recorded (n + 1) done current

/-! ## Counting -/

theorem Loop.act_perm (l : Loop ω) (y : Bool) (a : Act ω) :
    ((l.act y a).claimed ++ (l.act y a).waiting).Perm
      (l.claimed ++ l.waiting ++ (a.called.toList ++ a.spawned.toList)) := by
  cases a <;> cases y <;> simp [Loop.act, Loop.suspend, Act.called, Act.spawned]
  all_goals exact List.Perm.append_left _ (List.perm_append_singleton _ _).symm

theorem ops_cons_perm (a : Act ω) (t : List (Act ω)) :
    (ops (a :: t)).Perm (a.called.toList ++ a.spawned.toList ++ ops t) := by
  rw [ops, calls_cons, spawns_cons, ops, List.append_assoc, List.append_assoc]
  exact List.Perm.append_left _ (List.perm_append_comm_assoc _ _ _)

theorem Loop.run_perm (t : List (Act ω)) : ∀ (σ : Nat → Bool) (l : Loop ω),
    ((Loop.run σ l t).claimed ++ (Loop.run σ l t).waiting).Perm (l.claimed ++ l.waiting ++ ops t) := by
  induction t with
  | nil => intro σ l; simp [Loop.run, ops, calls, spawns]
  | cons a t ih =>
    intro σ l
    refine (ih _ _).trans ?_
    refine ((l.act_perm _ a).append_right _).trans ?_
    rw [List.append_assoc]
    exact List.Perm.append_left _ (ops_cons_perm a t).symm

/-- A stretch's operations are numbered once each. -/
theorem assign_perm (σ : Nat → Bool) (t : List (Act ω)) : (assign σ t).Perm (ops t) := by
  simpa [assign, Loop.suspend] using Loop.run_perm t σ {}

theorem length_ops_tagged (t : List (Act ω)) : ∀ n p, (ops (tagged n p t)).length = (ops t).length := by
  induction t with
  | nil => intro n p; rfl
  | cons a t ih =>
    intro n p
    rw [tagged, (ops_cons_perm _ _).length_eq, (ops_cons_perm _ _).length_eq]
    cases a <;> simp [Act.tag, Act.called, Act.spawned, ih]

theorem length_claims (σ : Nat → Nat → Bool) (h : List (List (Act ω))) : ∀ n,
    (claims σ n h).length = (h.map fun t => (ops t).length).sum := by
  induction h with
  | nil => intro n; rfl
  | cons t h ih => intro n; simp [claims, ih, (assign_perm _ _).length_eq, length_ops_tagged]

theorem claims_append (σ : Nat → Nat → Bool) (g h : List (List (Act ω))) : ∀ n,
    claims σ n (g ++ h) = claims σ n g ++ claims σ (n + g.length) h := by
  induction g with
  | nil => intro n; rfl
  | cons t g ih =>
    intro n
    simp [claims, ih, Nat.add_assoc, Nat.add_comm 1]

theorem length_ops_append (t u : List (Act ω)) : (ops t).length ≤ (ops (t ++ u)).length := by
  simp only [ops, calls, spawns, List.filterMap_append, List.length_append]
  omega

/-- A stretch none of whose acts has an operation. -/
theorem ops_tagged_nil {t : List (Act ω)} (h : ∀ a ∈ t, a.numbers = false) : ∀ n p, ops (tagged n p t) = [] := by
  intro n p
  rw [← List.length_eq_zero_iff, length_ops_tagged, List.length_eq_zero_iff]
  simp only [Act.numbers, Bool.or_eq_false_iff, Option.isSome_eq_false_iff, Option.isNone_iff_eq_none] at h
  simp only [ops, calls, spawns, List.append_eq_nil_iff, List.filterMap_eq_nil_iff]
  exact ⟨fun a ha => (h a ha).1, fun a ha => (h a ha).2⟩

theorem assign_tagged_nil {σ : Nat → Bool} {t : List (Act ω)} (h : firstOp t = none) {n : Nat} :
    assign σ (tagged n 0 t) = [] := by
  have hnum : ∀ a ∈ t, a.numbers = false := by simpa [firstOp] using h
  exact List.Perm.eq_nil ((assign_perm _ _).trans (.of_eq (ops_tagged_nil hnum n 0)))

/-- A step is among the operations of its stretch, in its place. -/
theorem mem_ops_tagged (n : Nat) (o : ω) (u : List (Act ω)) (t : List (Act ω)) : ∀ p,
    ⟨n, p + t.length, o⟩ ∈ ops (tagged n p (t ++ .step o :: u)) := by
  induction t with
  | nil =>
    intro p
    exact (ops_cons_perm _ _).mem_iff.2 (by simp [Act.tag, Act.called])
  | cons a t ih =>
    intro p
    refine (ops_cons_perm _ _).mem_iff.2 (List.mem_append_right _ ?_)
    rw [List.length_cons, show p + (t.length + 1) = p + 1 + t.length by omega]
    exact ih (p + 1)

/-- A step alone among acts without operations. -/
theorem ops_tagged_single {t : List (Act ω)} (h : ∀ a ∈ t, a.numbers = false) (n : Nat) (o : ω) : ∀ p,
    ops (tagged n p (t ++ [.step o])) = [⟨n, p + t.length, o⟩] := by
  intro p
  have hl : (ops (tagged n p (t ++ [.step o]))).length = 1 := by
    rw [length_ops_tagged]
    simp only [Act.numbers, Bool.or_eq_false_iff, Option.isSome_eq_false_iff, Option.isNone_iff_eq_none] at h
    have hc : calls t = [] := List.filterMap_eq_nil_iff.2 fun a ha => (h a ha).1
    have hs : spawns t = [] := List.filterMap_eq_nil_iff.2 fun a ha => (h a ha).2
    unfold calls at hc
    unfold spawns at hs
    simp [ops, calls, spawns, List.filterMap_append, hc, hs, Act.called, Act.spawned]
  have hm := mem_ops_tagged n o [] t p
  obtain ⟨c, hc⟩ := List.length_eq_one_iff.1 hl
  rw [hc, List.mem_singleton] at hm
  rw [hc, ← hm]

/-! ## What the horizon says -/

theorem horizon_le {recorded : Claim ω → Bool} {a b : List (Claim ω)} (h : ∀ c ∈ b, recorded c = false) :
    horizon recorded (a ++ b) ≤ a.length := by
  rw [horizon, List.reverse_append, List.dropWhile_append_of_pos fun c hc => by simp [h c (List.mem_reverse.1 hc)]]
  exact (List.dropWhile_sublist _).length_le.trans_eq List.length_reverse

/-- A horizon past `a` has something on record behind it. -/
theorem exists_of_horizon {recorded : Claim ω → Bool} {a b : List (Claim ω)}
    (h : a.length < horizon recorded (a ++ b)) : ∃ c ∈ b, recorded c = true := by
  refine Classical.byContradiction fun hn => ?_
  simp only [not_exists, not_and, Bool.not_eq_true] at hn
  exact absurd (horizon_le (a := a) hn) (by omega)

/-- The horizon lies past a number exactly when something numbered later is on
record. -/
theorem lt_horizon_iff {recorded : Claim ω → Bool} {a b : List (Claim ω)} :
    a.length < horizon recorded (a ++ b) ↔ ∃ c ∈ b, recorded c = true := by
  refine ⟨exists_of_horizon, ?_⟩
  rintro ⟨c, hc, hr⟩
  obtain ⟨u, v, rfl⟩ := List.append_of_mem hc
  have hsuffix : ∀ l : List (Claim ω), (c :: u.reverse ++ a.reverse) <:+
      (l ++ (c :: u.reverse ++ a.reverse)).dropWhile (!recorded ·) := by
    intro l
    induction l with
    | nil => simp [hr]
    | cons d l ih =>
      change _ <:+ (d :: (l ++ (c :: u.reverse ++ a.reverse))).dropWhile (!recorded ·)
      rw [List.dropWhile_cons]
      split
      · exact ih
      · exact List.suffix_append (d :: l) _
  have hlen := (hsuffix v.reverse).length_le
  have hrev : (a ++ (u ++ c :: v)).reverse = v.reverse ++ (c :: u.reverse ++ a.reverse) := by simp
  rw [horizon, hrev]
  simp only [List.length_append, List.length_cons, List.length_reverse] at hlen ⊢
  omega

/-- Everything can be on record. -/
theorem recordable_all (done : List (List (Act ω))) (current : List (Act ω)) : ∀ n,
    Recordable (fun _ => true) n done current := by
  induction done with
  | nil => exact fun n t o u _ _ => rfl
  | cons s done ih => exact fun n => ⟨fun _ _ _ _ => rfl, ih _⟩

theorem Recordable.drop {recorded : Claim ω → Bool} {current : List (Act ω)} {h : List (List (Act ω))}
    (g : List (List (Act ω))) : ∀ {n}, Recordable recorded n (g ++ h) current → Recordable recorded (n + g.length) h current := by
  induction g with
  | nil => intro n hr; exact hr
  | cons t g ih =>
    intro n hr
    have := ih hr.2
    rwa [List.length_cons, Nat.add_comm g.length, ← Nat.add_assoc]

/-- With anything on record, the first step is. -/
theorem Recordable.first {recorded : Claim ω → Bool} {σ : Nat → Nat → Bool} {o : ω} {current : List (Act ω)}
    (done : List (List (Act ω))) : ∀ {n}, Recordable recorded n done current →
    (∃ c ∈ claims σ n (done ++ [current]), recorded c = true) →
    firstOp (done ++ [current]).flatten = some (.step o) →
    ∃ c ∈ claims σ n (done ++ [current]), recorded c = true ∧ c.op = o := by
  induction done with
  | nil =>
    intro n hr ⟨c, hc, hrec⟩ hf
    simp only [List.nil_append, List.flatten_cons, List.flatten_nil, List.append_nil, claims] at hf hc ⊢
    obtain ⟨-, t, u, rfl, ht⟩ := List.find?_eq_some_iff_append.1 hf
    simp only [Bool.not_eq_true'] at ht
    -- The step is behind the driver, or it is the last act and the only operation.
    cases u with
    | cons a u =>
      refine ⟨⟨n, t.length, o⟩, (assign_perm _ _).mem_iff.2 ?_, hr t o (a :: u) rfl (List.cons_ne_nil _ _), rfl⟩
      simpa using mem_ops_tagged n o (a :: u) t 0
    | nil =>
      refine ⟨c, hc, hrec, ?_⟩
      rw [(assign_perm _ _).mem_iff, ops_tagged_single ht, List.mem_singleton] at hc
      rw [hc]
  | cons s done ih =>
    intro n hr ⟨c, hc, hrec⟩ hf
    simp only [List.cons_append, List.flatten_cons, claims] at hf hc ⊢
    cases hs : firstOp s with
    | some a =>
      unfold firstOp at hf hs
      rw [List.find?_append, hs, Option.some_or, Option.some.injEq] at hf
      obtain ⟨-, t, u, rfl, -⟩ := List.find?_eq_some_iff_append.1 (hf ▸ hs)
      refine ⟨⟨n, t.length, o⟩, List.mem_append_left _ ((assign_perm _ _).mem_iff.2 ?_), hr.1 t o u rfl, rfl⟩
      simpa using mem_ops_tagged n o u t 0
    | none =>
      rw [assign_tagged_nil hs, List.nil_append] at hc ⊢
      unfold firstOp at hf hs
      rw [List.find?_append, hs, Option.none_or] at hf
      exact ih hr.2 ⟨c, hc, hrec⟩ hf

/-- Nothing is numbered in stretches without operations. -/
theorem claims_nil {σ : Nat → Nat → Bool} (h : List (List (Act ω))) : ∀ n, firstOp h.flatten = none → claims σ n h = [] := by
  induction h with
  | nil => intro n _; rfl
  | cons t h ih =>
    intro n hf
    rw [firstOp, List.flatten_cons, List.find?_append, Option.or_eq_none_iff] at hf
    rw [claims, assign_tagged_nil hf.1, ih _ hf.2, List.nil_append]

/-- The same, behind the stretches `pre`. -/
theorem Recordable.behind {recorded : Claim ω → Bool} {σ : Nat → Nat → Bool} {o : ω} {pre h later : List (List (Act ω))}
    {current rest : List (Act ω)} (hr : Recordable recorded 0 (pre ++ h) current)
    (hf : ∀ a, firstOp (h ++ (current ++ rest) :: later).flatten = some a → a = .step o)
    (hp : (pre.map fun t => (ops t).length).sum < horizon recorded (claims σ 0 (pre ++ h ++ [current]))) :
    ∃ c ∈ claims σ 0 (pre ++ h ++ [current]), recorded c = true ∧ c.op = o := by
  rw [List.append_assoc, claims_append, ← length_claims σ pre 0] at hp
  rw [List.append_assoc, claims_append]
  have hrec := exists_of_horizon hp
  cases ha : firstOp (h ++ [current]).flatten with
  | none =>
    obtain ⟨c, hc, -⟩ := hrec
    rw [claims_nil _ _ ha] at hc
    cases hc
  | some a =>
    have ha' : firstOp (h ++ (current ++ rest) :: later).flatten = some a := by
      unfold firstOp at ha ⊢
      simp only [List.flatten_append, List.flatten_cons, List.flatten_nil, List.append_nil] at ha ⊢
      rw [← List.append_assoc, ← List.append_assoc, List.find?_append, List.find?_append, ha]
      rfl
    rw [hf a ha'] at ha
    obtain ⟨c, hc, hrc, ho⟩ := (hr.drop pre).first h hrec ha
    exact ⟨c, List.mem_append_right _ hc, hrc, ho⟩

/-- **A step that is the first operation from some point on is on record
when the horizon lies past that point.** -/
theorem mark_recorded {recorded : Claim ω → Bool} {σ : Nat → Nat → Bool} {o : ω}
    {pre post done later : List (List (Act ω))} {current rest : List (Act ω)}
    (hh : pre ++ post = done ++ (current ++ rest) :: later) (hr : Recordable recorded 0 done current)
    (hf : ∀ a, firstOp post.flatten = some a → a = .step o)
    (hp : (pre.map fun t => (ops t).length).sum < horizon recorded (claims σ 0 (done ++ [current]))) :
    ∃ c ∈ claims σ 0 (done ++ [current]), recorded c = true ∧ c.op = o := by
  rcases List.append_eq_append_iff.1 hh with ⟨h, rfl, rfl⟩ | ⟨h, rfl, hpost⟩
  · exact hr.behind hf hp
  · cases h with
    | nil =>
      rw [List.append_nil] at hp
      rw [List.nil_append] at hpost
      subst hpost
      simpa using Recordable.behind (h := []) (by simpa using hr) (by simpa using hf) (by simpa using hp)
    | cons t h =>
      -- The crash comes before the point: nothing past it has been numbered.
      exfalso
      rw [List.cons_append, List.cons.injEq] at hpost
      obtain ⟨rfl, -⟩ := hpost
      have hle : horizon recorded (claims σ 0 (done ++ [current])) ≤ (claims σ 0 (done ++ [current])).length := by
        simpa using horizon_le (a := claims σ 0 (done ++ [current])) (b := []) (by simp)
      rw [length_claims] at hle
      have := length_ops_append current rest
      simp only [List.map_append, List.map_cons, List.map_nil, List.sum_append, List.sum_cons, List.sum_nil] at hp hle
      omega

/-! ## A teardown -/

/-- The operations of a stretch that tears its tasks down in the middle, after
`t` and before `u`. A task that has not begun by then is never numbered. -/
def tornDown (σ : Nat → Bool) (n : Nat) (t u : List (Act ω)) : List (Claim ω) :=
  (Loop.run σ {} (tagged n 0 t)).claimed ++ calls (tagged n t.length u)

theorem tagged_append (n : Nat) (t u : List (Act ω)) : ∀ p, tagged n p (t ++ u) = tagged n p t ++ tagged n (p + t.length) u := by
  induction t with
  | nil => intro p; simp [tagged]
  | cons a t ih =>
    intro p
    rw [List.cons_append, tagged, ih, tagged, List.cons_append, List.length_cons, show p + 1 + t.length = p + (t.length + 1) by omega]

theorem length_tagged (n : Nat) (t : List (Act ω)) : ∀ p, (tagged n p t).length = t.length := by
  induction t with
  | nil => intro p; rfl
  | cons a t ih => intro p; simp [tagged, ih]

theorem calls_append (t u : List (Act ω)) : calls (t ++ u) = calls t ++ calls u := List.filterMap_append

/-- The operations of the calls, whatever their places. -/
theorem calls_tagged (n : Nat) (t : List (Act ω)) : ∀ p, (calls (tagged n p t)).map (·.op) = calls t := by
  induction t with
  | nil => intro p; rfl
  | cons a t ih =>
    intro p
    rw [tagged, calls_cons, calls_cons, List.map_append, ih]
    cases a <;> rfl

theorem spawns_tagged (n : Nat) (t : List (Act ω)) : ∀ p, (spawns (tagged n p t)).map (·.op) = spawns t := by
  induction t with
  | nil => intro p; rfl
  | cons a t ih =>
    intro p
    rw [tagged, spawns_cons, spawns_cons, List.map_append, ih]
    cases a <;> rfl

/-- The loop, without the places. -/
def Loop.untag (l : Loop (Claim ω)) : Loop ω := ⟨l.claimed.map (·.op), l.waiting.map (·.op)⟩

theorem Loop.untag_act (l : Loop (Claim ω)) (y : Bool) (a : Act ω) (n p : Nat) :
    (l.act y (a.tag n p)).untag = l.untag.act y a := by
  cases a <;> cases y <;> simp [Act.tag, Loop.act, Loop.suspend, Loop.untag]

theorem Loop.untag_run (n : Nat) (t : List (Act ω)) : ∀ (σ : Nat → Bool) (p : Nat) (l : Loop (Claim ω)),
    (Loop.run σ l (tagged n p t)).untag = Loop.run σ l.untag t := by
  induction t with
  | nil => intro σ p l; rfl
  | cons a t ih => intro σ p l; rw [tagged, Loop.run, Loop.run, ih, Loop.untag_act]

theorem length_claimed_tagged (σ : Nat → Bool) (n : Nat) (t : List (Act ω)) :
    (Loop.run σ {} (tagged n 0 t)).claimed.length = (Loop.run σ {} t).claimed.length := by
  have h := congrArg (fun l => l.claimed.length) (Loop.untag_run n t σ 0 {})
  simpa [Loop.untag] using h

/-- An operation numbered is one of those called or spawned. -/
theorem mem_of_mem_tornDown {σ : Nat → Bool} {n : Nat} {t u : List (Act ω)} {c : Claim ω} (h : c ∈ tornDown σ n t u) :
    c.op ∈ calls (t ++ u) ∨ c.op ∈ spawns t := by
  rw [calls_append]
  rcases List.mem_append.1 h with h | h
  · have hops : c ∈ ops (tagged n 0 t) := by
      have hp := (Loop.run_perm (tagged n 0 t) σ {}).mem_iff.1 (List.mem_append_left _ h)
      simpa using hp
    rcases List.mem_append.1 hops with h | h
    · refine .inl (List.mem_append_left _ ?_)
      rw [← calls_tagged n t 0]
      exact List.mem_map_of_mem h
    · refine .inr ?_
      rw [← spawns_tagged n t 0]
      exact List.mem_map_of_mem h
  · refine .inl (List.mem_append_right _ ?_)
    rw [← calls_tagged n u t.length]
    exact List.mem_map_of_mem h

/-- Every step is numbered, in its place. -/
theorem mem_tornDown_of_step {σ : Nat → Bool} {n : Nat} {t u a b : List (Act ω)} {o : ω} (h : t ++ u = a ++ .step o :: b) :
    ⟨n, a.length, o⟩ ∈ tornDown σ n t u := by
  rcases List.append_eq_append_iff.1 h with ⟨a', rfl, rfl⟩ | ⟨b', rfl, hb⟩
  · refine List.mem_append_right _ (List.mem_filterMap.2 ⟨.step ⟨n, t.length + a'.length, o⟩, ?_, by simp [Act.called]⟩)
    rw [tagged_append]
    exact List.mem_append_right _ (.head _)
  · cases b' with
    | nil =>
      rw [List.nil_append] at hb
      subst hb
      exact List.mem_append_right _ (List.mem_filterMap.2 ⟨.step ⟨n, a.length, o⟩, by simp [tagged, Act.tag], rfl⟩)
    | cons c b' =>
      rw [List.cons_append, List.cons.injEq] at hb
      obtain ⟨rfl, -⟩ := hb
      refine List.mem_append_left _ ?_
      rw [tagged_append, tagged, Loop.run_append, Loop.run]
      refine (Loop.run_claimed_prefix _ _ _).subset ?_
      cases σ (0 + (tagged n 0 a).length) <;> simp [Act.tag, Loop.act, Loop.suspend]

/-- Where nothing is called any more, nothing more is numbered. -/
theorem tornDown_of_calls {σ : Nat → Bool} {n : Nat} {t u : List (Act ω)} (h : calls u = []) :
    tornDown σ n t u = (Loop.run σ {} (tagged n 0 t)).claimed := by
  have hu : calls (tagged n t.length u) = [] := by
    rw [← List.map_eq_nil_iff (f := (·.op)), calls_tagged, h]
  rw [tornDown, hu, List.append_nil]

/-- A step right before the teardown is numbered next. -/
theorem tornDown_step (σ : Nat → Bool) (n : Nat) (t : List (Act ω)) (o : ω) (v u : List (Act ω)) : ∃ rest,
    tornDown σ n (t ++ .step o :: v) u = (Loop.run σ {} (tagged n 0 t)).claimed ++ ⟨n, t.length, o⟩ :: rest := by
  have hstep : ∀ (y : Bool) (l : Loop (Claim ω)) (c : Claim ω), l.claimed ++ [c] <+: (l.act y (.step c)).claimed := by
    intro y l c
    cases y <;> simp [Loop.act, Loop.suspend]
  obtain ⟨r, hr⟩ := (hstep (σ (0 + (tagged n 0 t).length)) (Loop.run σ {} (tagged n 0 t)) ⟨n, 0 + t.length, o⟩).trans
    (Loop.run_claimed_prefix (tagged n (0 + t.length + 1) v) (fun k => σ (k + 1 + (tagged n 0 t).length)) _)
  refine ⟨r ++ calls (tagged n (t ++ .step o :: v).length u), ?_⟩
  rw [tornDown, tagged_append, Loop.run_append, tagged, Loop.run, Act.tag, ← hr]
  simp

/-- What is called first after the teardown is numbered next. -/
theorem tornDown_call (σ : Nat → Bool) (n : Nat) (t : List (Act ω)) (o : ω) {v : List (Act ω)} (hv : calls v = [])
    (u : List (Act ω)) : ∃ rest, tornDown σ n t (v ++ .step o :: u) =
      (Loop.run σ {} (tagged n 0 t)).claimed ++ ⟨n, t.length + v.length, o⟩ :: rest := by
  have hnil : calls (tagged n t.length v) = [] := by
    rw [← List.map_eq_nil_iff (f := (·.op)), calls_tagged, hv]
  refine ⟨calls (tagged n (t.length + v.length + 1) u), ?_⟩
  rw [tornDown, tagged_append, calls_append, hnil, List.nil_append, tagged, calls_cons]
  rfl

/-! ## What is on record -/

/-- An operation numbered is one of those called or spawned in some stretch. -/
theorem mem_of_mem_claims {σ : Nat → Nat → Bool} {c : Claim ω} (h : List (List (Act ω))) : ∀ {n}, c ∈ claims σ n h →
    ∃ t ∈ h, c.op ∈ calls t ∨ c.op ∈ spawns t := by
  induction h with
  | nil => intro n hc; cases hc
  | cons t h ih =>
    intro n hc
    rcases List.mem_append.1 hc with hc | hc
    · refine ⟨t, .head _, ?_⟩
      rcases List.mem_append.1 ((assign_perm _ _).mem_iff.1 hc) with hc | hc
      · refine .inl ?_
        rw [← calls_tagged n t 0]
        exact List.mem_map_of_mem hc
      · refine .inr ?_
        rw [← spawns_tagged n t 0]
        exact List.mem_map_of_mem hc
    · obtain ⟨u, hu, ho⟩ := ih hc
      exact ⟨u, .tail _ hu, ho⟩

/-- A step the driver has got past is on record. -/
theorem Recordable.step {recorded : Claim ω → Bool} {σ : Nat → Nat → Bool} {o : ω} {t : List (Act ω)}
    {h : List (List (Act ω))} {current : List (Act ω)} (g : List (List (Act ω))) : ∀ {n},
    Recordable recorded n (g ++ h) current → t ∈ g → .step o ∈ t → ∃ c ∈ claims σ n g, recorded c = true ∧ c.op = o := by
  induction g with
  | nil => intro n _ ht; cases ht
  | cons s g ih =>
    intro n hr ht ha
    rcases List.mem_cons.1 ht with rfl | ht
    · obtain ⟨u, v, rfl⟩ := List.append_of_mem ha
      refine ⟨⟨n, u.length, o⟩, List.mem_append_left _ ((assign_perm _ _).mem_iff.2 ?_), hr.1 u o v rfl, rfl⟩
      simpa using mem_ops_tagged n o v u 0
    · obtain ⟨c, hc, hrc, ho⟩ := ih hr.2 ht ha
      exact ⟨c, List.mem_append_right _ hc, hrc, ho⟩

end Coop
