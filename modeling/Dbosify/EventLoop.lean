/-
Numbering operations on a cooperative event loop.

A driver coroutine performs a list of actions. An operation it calls itself
claims the next number at the call (`step`, `launch`); one it hands to a new
task claims the next number when that task first runs, which is when the
driver next suspends (`spawn`). An `await` may suspend the driver or not:
which ones do is an oracle, one answer for each action.

`order_eq_iff`: the numbering is the same for every oracle exactly when no
task is spawned ahead of an await that is itself ahead of a call
(`Late`). Without such a triple every call is numbered before every task.

Whether a list is late is read off the `Profile`s of its pieces, which
multiply as the pieces are appended.
-/
import Mathlib.Data.List.Nodup
import Mathlib.Data.List.Infix

namespace Coop

/-- What a driver does, in order. -/
inductive Act (ω : Type)
  /-- An await that claims nothing. -/
  | await
  /-- A call that claims a number and is awaited on the spot. -/
  | step (o : ω)
  /-- A call that claims a number and then runs in a task of its own. -/
  | launch (o : ω)
  /-- A task whose operation claims its number when the task first runs. -/
  | spawn (o : ω)
  /-- The driver reads how many numbers are claimed. -/
  | look

namespace Act

variable {ω : Type}

/-- Whether the driver may suspend here. -/
def mayYield : Act ω → Bool
  | .await | .step _ => true
  | .launch _ | .spawn _ | .look => false

/-- The operation numbered at the call. -/
def called : Act ω → Option ω
  | .step o | .launch o => some o
  | .await | .spawn _ | .look => none

/-- The operation numbered when its task first runs. -/
def spawned : Act ω → Option ω
  | .spawn o => some o
  | .await | .step _ | .launch _ | .look => none

end Act

variable {ω : Type}

/-- The operations numbered at their calls. -/
def calls (t : List (Act ω)) : List ω := t.filterMap Act.called

/-- The operations handed to tasks. -/
def spawns (t : List (Act ω)) : List ω := t.filterMap Act.spawned

/-- The loop: the operations numbered so far, in order, and those whose
tasks have not run yet. -/
structure Loop (ω : Type) where
  claimed : List ω := []
  waiting : List ω := []

/-- The driver suspends: every waiting task runs up to its first await. -/
def Loop.suspend (l : Loop ω) : Loop ω := ⟨l.claimed ++ l.waiting, []⟩

def Loop.act (yields : Bool) (l : Loop ω) : Act ω → Loop ω
  | .await => if yields then l.suspend else l
  | .step o =>
    let l' : Loop ω := ⟨l.claimed ++ [o], l.waiting⟩
    if yields then l'.suspend else l'
  | .launch o => ⟨l.claimed ++ [o], l.waiting⟩
  | .spawn o => ⟨l.claimed, l.waiting ++ [o]⟩
  | .look => l

/-- Perform `t`, the `n`-th action suspending as `σ n` says. -/
def Loop.run (σ : Nat → Bool) (l : Loop ω) : List (Act ω) → Loop ω
  | [] => l
  | a :: t => Loop.run (fun n => σ (n + 1)) (l.act (σ 0) a) t

/-- The numbering of `t`'s operations, once the driver yields at its end. -/
def assign (σ : Nat → Bool) (t : List (Act ω)) : List ω :=
  (Loop.run σ {} t).suspend.claimed

/-- A task spawned, then an await, then a call. -/
def Late (t : List (Act ω)) : Prop :=
  ∃ o a b, List.Sublist [.spawn o, a, b] t ∧ a.mayYield = true ∧ b.called.isSome = true

/-- An await, then a call. -/
def Behind (t : List (Act ω)) : Prop :=
  ∃ a b, List.Sublist [a, b] t ∧ a.mayYield = true ∧ b.called.isSome = true

/-! ## Without a late call -/

theorem calls_cons (a : Act ω) (t : List (Act ω)) : calls (a :: t) = a.called.toList ++ calls t := by
  cases a <;> rfl

theorem spawns_cons (a : Act ω) (t : List (Act ω)) :
    spawns (a :: t) = a.spawned.toList ++ spawns t := by
  cases a <;> rfl

theorem Late.cons {a : Act ω} {t : List (Act ω)} (h : Late t) : Late (a :: t) := by
  obtain ⟨o, b, c, hs, hb, hc⟩ := h
  exact ⟨o, b, c, hs.cons a, hb, hc⟩

theorem Behind.cons {a : Act ω} {t : List (Act ω)} (h : Behind t) : Behind (a :: t) := by
  obtain ⟨b, c, hs, hb, hc⟩ := h
  exact ⟨b, c, hs.cons a, hb, hc⟩

theorem Late.of_behind {o : ω} {t : List (Act ω)} (h : Behind t) : Late (.spawn o :: t) := by
  obtain ⟨b, c, hs, hb, hc⟩ := h
  exact ⟨o, b, c, hs.cons_cons _, hb, hc⟩

/-- An await with no call behind it: nothing after it is numbered at a call. -/
theorem calls_nil_of_not_behind {a : Act ω} {t : List (Act ω)} (h : ¬ Behind (a :: t))
    (ha : a.mayYield = true) : calls t = [] := by
  rw [calls, List.filterMap_eq_nil_iff]
  intro b hb
  rw [← Option.not_isSome_iff_eq_none]
  intro hc
  exact h ⟨a, b, (List.singleton_sublist.2 hb).cons_cons a, ha, hc⟩

/-- With nothing late, calls are numbered in order, then tasks in order. -/
theorem run_of_not_late (t : List (Act ω)) : ∀ (σ : Nat → Bool) (l : Loop ω), ¬ Late t →
    (l.waiting = [] ∨ ¬ Behind t) →
    (Loop.run σ l t).suspend.claimed = l.claimed ++ calls t ++ (l.waiting ++ spawns t) := by
  induction t with
  | nil => intro σ l _ _; simp [Loop.run, Loop.suspend, calls, spawns]
  | cons a t ih =>
    intro σ l hlate hw
    have hlate' : ¬ Late t := fun h => hlate h.cons
    have hw' : l.waiting = [] ∨ ¬ Behind t := hw.imp id fun h h' => h h'.cons
    rw [Loop.run, calls_cons, spawns_cons]
    cases a with
    | look => simpa [Loop.act, Act.called, Act.spawned] using ih _ l hlate' hw'
    | launch o =>
      simpa [Loop.act, Act.called, Act.spawned] using ih (fun n => σ (n + 1)) ⟨l.claimed ++ [o], l.waiting⟩ hlate' hw'
    | spawn o =>
      have hb : ¬ Behind t := fun h => hlate (.of_behind h)
      simpa [Loop.act, Act.called, Act.spawned] using
        ih (fun n => σ (n + 1)) ⟨l.claimed, l.waiting ++ [o]⟩ hlate' (.inr hb)
    | await =>
      simp only [Loop.act, Act.called, Act.spawned, Option.toList_none, List.nil_append]
      split
      · rw [ih _ l.suspend hlate' (.inl rfl)]
        rcases hw with hw | hw
        · simp [Loop.suspend, hw]
        · simp [Loop.suspend, calls_nil_of_not_behind hw rfl]
      · exact ih _ l hlate' hw'
    | step o =>
      simp only [Loop.act, Act.called, Act.spawned, Option.toList_some, Option.toList_none, List.nil_append]
      split
      · rw [ih _ _ hlate' (.inl rfl)]
        rcases hw with hw | hw
        · simp [Loop.suspend, hw]
        · simp [Loop.suspend, calls_nil_of_not_behind hw rfl]
      · simpa using ih (fun n => σ (n + 1)) ⟨l.claimed ++ [o], l.waiting⟩ hlate' hw'

theorem assign_of_not_late {t : List (Act ω)} (h : ¬ Late t) (σ : Nat → Bool) :
    assign σ t = calls t ++ spawns t := by
  simpa [assign] using run_of_not_late t σ {} h (.inl rfl)

/-! ## With one -/

/-- When nothing suspends, tasks are numbered last. -/
theorem assign_never (t : List (Act ω)) : assign (fun _ => false) t = calls t ++ spawns t := by
  have key : ∀ (t : List (Act ω)) (l : Loop ω),
      (Loop.run (fun _ => false) l t).suspend.claimed = l.claimed ++ calls t ++ (l.waiting ++ spawns t) := by
    intro t
    induction t with
    | nil => intro l; simp [Loop.run, Loop.suspend, calls, spawns]
    | cons a t ih =>
      intro l
      rw [Loop.run, calls_cons, spawns_cons, ih]
      cases a <;> simp [Loop.act, Act.called, Act.spawned]
  simpa [assign] using key t {}

theorem Loop.act_claimed_prefix (l : Loop ω) (y : Bool) (a : Act ω) : l.claimed <+: (l.act y a).claimed := by
  cases a <;> cases y <;> simp [Loop.act, Loop.suspend, List.append_assoc]

theorem Loop.run_claimed_prefix (t : List (Act ω)) : ∀ (σ : Nat → Bool) (l : Loop ω),
    l.claimed <+: (Loop.run σ l t).claimed := by
  induction t with
  | nil => intro σ l; exact List.prefix_rfl
  | cons a t ih => intro σ l; exact (l.act_claimed_prefix (σ 0) a).trans (ih _ _)

theorem Loop.run_append (t u : List (Act ω)) : ∀ (σ : Nat → Bool) (l : Loop ω),
    Loop.run σ l (t ++ u) = Loop.run (fun n => σ (n + t.length)) (Loop.run σ l t) u := by
  induction t with
  | nil => intro σ l; rfl
  | cons a t ih =>
    intro σ l
    simp only [List.cons_append, Loop.run, ih, List.length_cons]
    congr 1

/-- An operation waits until it is claimed. -/
theorem Loop.run_keeps {o : ω} (t : List (Act ω)) : ∀ (σ : Nat → Bool) (l : Loop ω),
    o ∈ l.claimed ++ l.waiting → o ∈ (Loop.run σ l t).claimed ++ (Loop.run σ l t).waiting := by
  induction t with
  | nil => intro σ l h; exact h
  | cons a t ih =>
    intro σ l h
    refine ih _ _ ?_
    simp only [List.mem_append] at h ⊢
    cases a <;> cases σ 0 <;> simp only [Loop.act, Loop.suspend, if_true, Bool.false_eq_true, if_false,
      List.mem_append, List.mem_singleton, List.not_mem_nil, or_false] <;> tauto

/-- The driver always suspends when it may. -/
theorem Loop.act_yield_claims {o : ω} {l : Loop ω} {a : Act ω} (ha : a.mayYield = true)
    (h : o ∈ l.claimed ++ l.waiting) : o ∈ (l.act true a).claimed := by
  simp only [List.mem_append] at h
  cases a <;> simp only [Act.mayYield, Bool.false_eq_true] at ha <;>
    simp only [Loop.act, Loop.suspend, if_true, List.mem_append, List.mem_singleton] <;> tauto

/-- A late call, with every await suspending, is numbered after the task
that was spawned before it. -/
theorem assign_always_of_late {t : List (Act ω)} (h : Late t) :
    ∃ o p, o ∈ spawns t ∧ p ∈ calls t ∧ List.Sublist [o, p] (assign (fun _ => true) t) := by
  obtain ⟨o, a, b, hs, ha, hb⟩ := h
  obtain ⟨p, hp⟩ := Option.isSome_iff_exists.1 hb
  obtain ⟨t₁, r₁, rfl, hm₁, hs₁⟩ := List.cons_sublist_iff.1 hs
  obtain ⟨t₂, r₂, rfl, hm₂, hs₂⟩ := List.cons_sublist_iff.1 hs₁
  obtain ⟨t₃, r₃, rfl, hm₃, -⟩ := List.cons_sublist_iff.1 hs₂
  refine ⟨o, p, List.mem_filterMap.2 ⟨_, List.mem_append_left _ hm₁, rfl⟩,
    List.mem_filterMap.2 ⟨b, by simp [hm₃], hp⟩, ?_⟩
  -- The task is spawned in `t₁`, has run by the end of `t₂`, and the call is in `t₃`.
  let l₁ := Loop.run (fun _ => true) {} t₁
  let l₂ := Loop.run (fun _ => true) l₁ t₂
  let l₃ := Loop.run (fun _ => true) l₂ t₃
  have h₁ : o ∈ l₁.claimed ++ l₁.waiting := by
    obtain ⟨u, v, rfl⟩ := List.append_of_mem hm₁
    simp only [l₁, Loop.run_append, Loop.run]
    exact Loop.run_keeps v _ _ (by simp [Loop.act])
  have h₂ : o ∈ l₂.claimed := by
    obtain ⟨u, v, rfl⟩ := List.append_of_mem hm₂
    simp only [l₂, Loop.run_append, Loop.run]
    refine (Loop.run_claimed_prefix v _ _).subset ?_
    exact Loop.act_yield_claims ha (Loop.run_keeps u _ _ h₁)
  have h₃ : List.Sublist [o, p] l₃.claimed := by
    obtain ⟨u, v, rfl⟩ := List.append_of_mem hm₃
    simp only [l₃, Loop.run_append, Loop.run]
    refine List.Sublist.trans ?_ (Loop.run_claimed_prefix v _ _).sublist
    have ho := (Loop.run_claimed_prefix u (fun _ => true) l₂).subset h₂
    have : List.Sublist ([o] ++ [p]) ((Loop.run (fun _ => true) l₂ u).claimed ++ [p]) :=
      (List.singleton_sublist.2 ho).append (List.Sublist.refl _)
    cases b <;> simp only [Act.called, Option.some.injEq, reduceCtorEq] at hp <;> subst hp <;>
      simp only [Loop.act, Loop.suspend, if_true]
    · exact this.trans (List.sublist_append_left _ _)
    · exact this
  have hfin : assign (fun _ => true) (t₁ ++ (t₂ ++ (t₃ ++ r₃))) =
      (Loop.run (fun _ => true) l₃ r₃).suspend.claimed := by
    simp only [assign, Loop.run_append, l₁, l₂, l₃]
  rw [hfin]
  exact h₃.trans ((Loop.run_claimed_prefix r₃ _ _).sublist.trans (List.sublist_append_left _ _))

/-- In a list without repetitions two elements stand in one order only. -/
theorem not_sublist_both {l : List ω} (hn : l.Nodup) {o p : ω} (h : List.Sublist [o, p] l) :
    ¬ List.Sublist [p, o] l := by
  intro h'
  induction l with
  | nil => cases h
  | cons x l ih =>
    rw [List.nodup_cons] at hn
    cases h with
    | cons _ h =>
      cases h' with
      | cons _ h' => exact ih hn.2 h h'
      | cons_cons _ _ => exact hn.1 (h.subset (by simp))
    | cons_cons _ h =>
      cases h' with
      | cons _ h' => exact hn.1 (h'.subset (by simp))
      | cons_cons _ h' => exact hn.1 (h'.subset (by simp))

/-- **When the numbering does not depend on the scheduler**: exactly when no
task is spawned ahead of an await that is ahead of a call. -/
theorem assign_eq_iff {t : List (Act ω)} (hn : (calls t ++ spawns t).Nodup) :
    (∀ σ τ, assign σ t = assign τ t) ↔ ¬ Late t := by
  constructor
  · intro h hlate
    obtain ⟨o, p, ho, hp, hs⟩ := assign_always_of_late hlate
    rw [h (fun _ => true) (fun _ => false), assign_never] at hs
    have : List.Sublist ([p] ++ [o]) (calls t ++ spawns t) :=
      (List.singleton_sublist.2 hp).append (List.singleton_sublist.2 ho)
    exact not_sublist_both hn hs this
  · intro h σ τ
    rw [assign_of_not_late h, assign_of_not_late h]

/-! ## Positions -/

/-- The same act, its operation known by a number. -/
def Act.label (n : Nat) : Act ω → Act Nat
  | .await => .await
  | .step _ => .step n
  | .launch _ => .launch n
  | .spawn _ => .spawn n
  | .look => .look

/-- Each act labelled by its position, counted from `n`. -/
def numbered (n : Nat) : List (Act ω) → List (Act Nat)
  | [] => []
  | a :: t => a.label n :: numbered (n + 1) t

/-- The order in which the operations of `t` are numbered: their positions. -/
def order (σ : Nat → Bool) (t : List (Act ω)) : List Nat := assign σ (numbered 0 t)

theorem Act.label_mayYield (a : Act ω) (n : Nat) : (a.label n).mayYield = a.mayYield := by cases a <;> rfl

theorem Act.label_called (a : Act ω) (n : Nat) : (a.label n).called.isSome = a.called.isSome := by cases a <;> rfl

theorem le_of_mem_numbered {o : Nat} (t : List (Act ω)) : ∀ n, o ∈ calls (numbered n t) ++ spawns (numbered n t) → n ≤ o := by
  induction t with
  | nil => intro n h; cases h
  | cons a t ih =>
    intro n h
    rw [numbered, calls_cons, spawns_cons] at h
    simp only [List.mem_append, Option.mem_toList] at h ih
    have key : (a.label n).called = some o ∨ (a.label n).spawned = some o → n = o := by
      cases a <;> simp [Act.label, Act.called, Act.spawned]
    rcases h with (h | h) | (h | h)
    · exact (key (.inl h)).le
    · have := ih (n + 1) (.inl h); omega
    · exact (key (.inr h)).le
    · have := ih (n + 1) (.inr h); omega

theorem nodup_numbered (t : List (Act ω)) : ∀ n, (calls (numbered n t) ++ spawns (numbered n t)).Nodup := by
  induction t with
  | nil => intro n; exact List.nodup_nil
  | cons a t ih =>
    intro n
    have hn : n ∉ calls (numbered (n + 1) t) ++ spawns (numbered (n + 1) t) := fun h => by
      have := le_of_mem_numbered t _ h
      omega
    rw [numbered, calls_cons, spawns_cons]
    cases a with
    | await | look => simpa [Act.label, Act.called, Act.spawned] using ih (n + 1)
    | step o | launch o =>
      simp only [Act.label, Act.called, Act.spawned, Option.toList_some, Option.toList_none, List.nil_append,
        List.cons_append, List.nodup_cons]
      exact ⟨hn, ih _⟩
    | spawn o =>
      simp only [Act.label, Act.called, Act.spawned, Option.toList_some, Option.toList_none, List.nil_append,
        List.singleton_append]
      exact (List.perm_middle).nodup_iff.2 (List.nodup_cons.2 ⟨hn, ih _⟩)

/-! ## Profiles -/

/-- What the order of numbering can depend on, in a stretch of acts. -/
structure Profile where
  /-- A task is spawned. -/
  spawns : Bool := false
  /-- The driver may suspend. -/
  yields : Bool := false
  /-- An operation is called. -/
  claims : Bool := false
  /-- The driver may suspend after a task is spawned. -/
  opens : Bool := false
  /-- An operation is called after the driver may have suspended. -/
  behind : Bool := false
  late : Bool := false
deriving DecidableEq, Repr

namespace Profile

/-- Nothing of the kind. -/
def quiet : Profile := {}

/-- One stretch, then another. -/
def seq (p q : Profile) : Profile where
  spawns := p.spawns || q.spawns
  yields := p.yields || q.yields
  claims := p.claims || q.claims
  opens := p.opens || q.opens || (p.spawns && q.yields)
  behind := p.behind || q.behind || (p.yields && q.claims)
  late := p.late || q.late || (p.spawns && q.behind) || (p.opens && q.claims)

/-- A stretch that does at most as much. -/
structure Le (p q : Profile) : Prop where
  spawns : p.spawns = true → q.spawns = true
  yields : p.yields = true → q.yields = true
  claims : p.claims = true → q.claims = true
  opens : p.opens = true → q.opens = true
  behind : p.behind = true → q.behind = true
  late : p.late = true → q.late = true

@[simp] theorem quiet_seq (p : Profile) : quiet.seq p = p := by
  simp [quiet, seq]

@[simp] theorem seq_quiet (p : Profile) : p.seq quiet = p := by
  simp [quiet, seq]

theorem seq_assoc (p q r : Profile) : (p.seq q).seq r = p.seq (q.seq r) := by
  simp only [seq, mk.injEq, Bool.or_assoc, true_and]
  refine ⟨?_, ?_, ?_⟩ <;> grind

theorem Le.refl (p : Profile) : p.Le p := ⟨id, id, id, id, id, id⟩

theorem Le.trans {p q r : Profile} (h : p.Le q) (h' : q.Le r) : p.Le r :=
  ⟨h'.spawns ∘ h.spawns, h'.yields ∘ h.yields, h'.claims ∘ h.claims, h'.opens ∘ h.opens, h'.behind ∘ h.behind,
    h'.late ∘ h.late⟩

theorem le_seq (p q : Profile) : p.Le (p.seq q) := by
  constructor <;> simp +contextual [seq]

theorem Le.seq {p p' q q' : Profile} (h : p.Le p') (hq : q.Le q') : (p.seq q).Le (p'.seq q') := by
  constructor <;> simp only [Profile.seq, Bool.or_eq_true, Bool.and_eq_true]
  · exact Or.imp h.spawns hq.spawns
  · exact Or.imp h.yields hq.yields
  · exact Or.imp h.claims hq.claims
  · exact Or.imp (Or.imp h.opens hq.opens) (And.imp h.spawns hq.yields)
  · exact Or.imp (Or.imp h.behind hq.behind) (And.imp h.yields hq.claims)
  · exact Or.imp (Or.imp (Or.imp h.late hq.late) (And.imp h.spawns hq.behind)) (And.imp h.opens hq.claims)

end Profile

/-- The profile of one act. -/
def Act.profile : Act ω → Profile
  | .await => { yields := true }
  | .step _ => { claims := true, yields := true }
  | .launch _ => { claims := true }
  | .spawn _ => { spawns := true }
  | .look => .quiet

/-- The profile of a stretch. -/
def profile : List (Act ω) → Profile
  | [] => .quiet
  | a :: t => a.profile.seq (profile t)

theorem profile_append (t u : List (Act ω)) : profile (t ++ u) = (profile t).seq (profile u) := by
  induction t with
  | nil => simp [profile]
  | cons a t ih => rw [List.cons_append, profile, profile, ih, Profile.seq_assoc]

theorem profile_singleton (a : Act ω) : profile [a] = a.profile := by simp [profile]

theorem profile_numbered (t : List (Act ω)) : ∀ n, profile (numbered n t) = profile t := by
  induction t with
  | nil => intro n; rfl
  | cons a t ih =>
    intro n
    rw [numbered, profile, profile, ih]
    cases a <;> rfl

theorem profile_claims {t : List (Act ω)} : (profile t).claims = true ↔ ∃ b ∈ t, b.called.isSome = true := by
  induction t with
  | nil => simp [profile, Profile.quiet]
  | cons a t ih => cases a <;> simp [profile, Profile.seq, Act.profile, Act.called, Profile.quiet, ih]

theorem profile_yields {t : List (Act ω)} : (profile t).yields = true ↔ ∃ a ∈ t, a.mayYield = true := by
  induction t with
  | nil => simp [profile, Profile.quiet]
  | cons a t ih => cases a <;> simp [profile, Profile.seq, Act.profile, Act.mayYield, Profile.quiet, ih]

theorem profile_spawns {t : List (Act ω)} : (profile t).spawns = true ↔ ∃ a ∈ t, a.spawned.isSome = true := by
  induction t with
  | nil => simp [profile, Profile.quiet]
  | cons a t ih => cases a <;> simp [profile, Profile.seq, Act.profile, Act.spawned, Profile.quiet, ih]

/-- A stretch that spawns nothing is not late, whatever it does. -/
theorem profile_of_no_spawn {t : List (Act ω)} (h : (profile t).spawns = false) :
    (profile t).opens = false ∧ (profile t).late = false := by
  induction t with
  | nil => exact ⟨rfl, rfl⟩
  | cons a t ih =>
    cases a <;> simp_all [profile, Profile.seq, Act.profile, Profile.quiet]

theorem behind_cons {a : Act ω} {t : List (Act ω)} :
    Behind (a :: t) ↔ Behind t ∨ a.mayYield = true ∧ ∃ b ∈ t, b.called.isSome = true := by
  constructor
  · rintro ⟨b, c, hs, hb, hc⟩
    cases hs with
    | cons _ hs => exact .inl ⟨b, c, hs, hb, hc⟩
    | cons_cons _ hs => exact .inr ⟨hb, c, List.singleton_sublist.1 hs, hc⟩
  · rintro (h | ⟨ha, b, hm, hb⟩)
    · exact h.cons
    · exact ⟨a, b, (List.singleton_sublist.2 hm).cons_cons a, ha, hb⟩

theorem late_cons {a : Act ω} {t : List (Act ω)} : Late (a :: t) ↔ Late t ∨ a.spawned.isSome = true ∧ Behind t := by
  constructor
  · rintro ⟨o, b, c, hs, hb, hc⟩
    cases hs with
    | cons _ hs => exact .inl ⟨o, b, c, hs, hb, hc⟩
    | cons_cons _ hs => exact .inr ⟨rfl, b, c, hs, hb, hc⟩
  · rintro (h | ⟨ha, h⟩)
    · exact h.cons
    · cases a <;> simp only [Act.spawned, Option.isSome_none, Bool.false_eq_true] at ha
      exact .of_behind h

theorem profile_behind {t : List (Act ω)} : (profile t).behind = true ↔ Behind t := by
  induction t with
  | nil => simp [profile, Profile.quiet, Behind]
  | cons a t ih =>
    rw [behind_cons, ← ih, ← profile_claims]
    cases a <;> simp [profile, Profile.seq, Act.profile, Act.mayYield, Profile.quiet]

/-- **A stretch is late exactly when its profile says so.** -/
theorem profile_late {t : List (Act ω)} : (profile t).late = true ↔ Late t := by
  induction t with
  | nil => simp [profile, Profile.quiet, Late]
  | cons a t ih =>
    rw [late_cons, ← ih, ← profile_behind]
    cases a <;> simp [profile, Profile.seq, Act.profile, Act.spawned, Profile.quiet]

/-- **When the order does not depend on the scheduler.** -/
theorem order_eq_iff {t : List (Act ω)} : (∀ σ τ, order σ t = order τ t) ↔ ¬ Late t := by
  rw [← profile_late, ← profile_numbered t 0, profile_late]
  exact assign_eq_iff (nodup_numbered t 0)

/-! ## Turns of a loop -/

/-- One turn spawns a task, and behind it the driver may suspend and then
call: in one later turn, or in two. -/
def Crossed (ps : List Profile) : Prop :=
  (∃ p q, List.Sublist [p, q] ps ∧ p.spawns = true ∧ q.behind = true) ∨
    ∃ p q r, List.Sublist [p, q, r] ps ∧ p.spawns = true ∧ q.yields = true ∧ r.claims = true

/-- The profile of the turns, one after the other. -/
def Profile.all (ps : List Profile) : Profile := ps.foldr Profile.seq .quiet

theorem Profile.all_claims (ps : List Profile) : (all ps).claims = true ↔ ∃ p ∈ ps, p.claims = true := by
  induction ps with
  | nil => simp [all, quiet]
  | cons p ps ih => simp [all, seq] at ih ⊢; simp [ih]

theorem Profile.all_behind (ps : List Profile) : (all ps).behind = true ↔
    (∃ p ∈ ps, p.behind = true) ∨ ∃ p q, List.Sublist [p, q] ps ∧ p.yields = true ∧ q.claims = true := by
  induction ps with
  | nil => simp [all, quiet]
  | cons p ps ih =>
    have hc := all_claims ps
    simp only [all, List.foldr_cons, seq, Bool.or_eq_true, Bool.and_eq_true] at ih hc ⊢
    rw [ih, hc]
    constructor
    · rintro ((hp | (⟨q, hq, hb⟩ | ⟨q, r, hs, hq, hr⟩)) | ⟨hp, q, hq, hc⟩)
      · exact .inl ⟨p, List.mem_cons_self, hp⟩
      · exact .inl ⟨q, List.mem_cons_of_mem _ hq, hb⟩
      · exact .inr ⟨q, r, hs.cons p, hq, hr⟩
      · exact .inr ⟨p, q, (List.singleton_sublist.2 hq).cons_cons p, hp, hc⟩
    · rintro (⟨q, hq, hb⟩ | ⟨q, r, hs, hq, hr⟩)
      · rcases List.mem_cons.1 hq with rfl | hq
        · exact .inl (.inl hb)
        · exact .inl (.inr (.inl ⟨q, hq, hb⟩))
      · cases hs with
        | cons _ hs => exact .inl (.inr (.inr ⟨q, r, hs, hq, hr⟩))
        | cons_cons _ hs => exact .inr ⟨hq, r, List.singleton_sublist.1 hs, hr⟩

/-- Turns none of which suspends behind a task of its own: late exactly when
crossed. -/
theorem Profile.all_late {ps : List Profile} (h : ∀ p ∈ ps, p.opens = false ∧ p.late = false) :
    (all ps).late = true ↔ Crossed ps := by
  induction ps with
  | nil => simp [all, quiet, Crossed]
  | cons p ps ih =>
    obtain ⟨ho, hl⟩ := h p List.mem_cons_self
    have ih := ih fun q hq => h q (List.mem_cons_of_mem _ hq)
    have hb := all_behind ps
    simp only [all, List.foldr_cons, seq, ho, hl, Bool.or_eq_true, Bool.and_eq_true, Bool.false_eq_true, false_or,
      false_and, or_false] at ih hb ⊢
    rw [ih, hb]
    constructor
    · rintro ((⟨q, r, hs, hq, hr⟩ | ⟨q, r, u, hs, hq, hr, hu⟩) | ⟨hp, ⟨q, hq, hb⟩ | ⟨q, r, hs, hq, hr⟩⟩)
      · exact .inl ⟨q, r, hs.cons p, hq, hr⟩
      · exact .inr ⟨q, r, u, hs.cons p, hq, hr, hu⟩
      · exact .inl ⟨p, q, (List.singleton_sublist.2 hq).cons_cons p, hp, hb⟩
      · exact .inr ⟨p, q, r, hs.cons_cons p, hp, hq, hr⟩
    · rintro (⟨q, r, hs, hq, hr⟩ | ⟨q, r, u, hs, hq, hr, hu⟩)
      · cases hs with
        | cons _ hs => exact .inl (.inl ⟨q, r, hs, hq, hr⟩)
        | cons_cons _ hs => exact .inr ⟨hq, .inl ⟨r, List.singleton_sublist.1 hs, hr⟩⟩
      · cases hs with
        | cons _ hs => exact .inl (.inr ⟨q, r, u, hs, hq, hr, hu⟩)
        | cons_cons _ hs => exact .inr ⟨hq, .inr ⟨r, u, hs, hr, hu⟩⟩

end Coop
