/-
Records that point on.

Under each key a table holds, once something has ended there, the key of what
goes on from it, or a value. Records are written once. A follower looks at one
record at a time, waits while there is none, and goes where the record points.
Whatever is written between its looks, it decides the value that its first key
leads to (`decided_leads`), and it does so after as many looks as there are
records on the way (`follow_decides`).
-/
import Mathlib.Order.Monotone.Basic

namespace Redirects

variable {κ α : Type}

/-- Under each key the next one, or a value. -/
abbrev Table (κ α : Type) := κ → Option (κ ⊕ α)

/-- Records are written once. -/
def Table.Extends (t t' : Table κ α) : Prop := ∀ k r, t k = some r → t' k = some r

/-- The record under `k` is the last of `n + 1` records on the way to `a`. -/
inductive Leads (t : Table κ α) : Nat → κ → α → Prop
  | value {k : κ} {a : α} : t k = some (.inr a) → Leads t 0 k a
  | next {n : Nat} {k k' : κ} {a : α} : t k = some (.inl k') → Leads t n k' a → Leads t (n + 1) k a

/-- What looks at the records. -/
inductive Follower (κ α : Type)
  | looking (k : κ)
  | decided (a : α)

/-- One look. -/
def Follower.look (t : Table κ α) : Follower κ α → Follower κ α
  | decided a => decided a
  | looking k =>
    match t k with
    | none => looking k
    | some (.inr a) => decided a
    | some (.inl k') => looking k'

/-- A follower from `k` on, after `n` looks at the table as it is then. -/
def follow (t : Nat → Table κ α) (k : κ) : Nat → Follower κ α
  | 0 => .looking k
  | n + 1 => (follow t k n).look (t n)

variable {t t' : Table κ α} {k : κ} {a b : α} {n m : Nat}

theorem Follower.look_none (h : t k = none) : (looking k : Follower κ α).look t = looking k := by simp only [look, h]

theorem Follower.look_value (h : t k = some (.inr a)) : (looking k : Follower κ α).look t = decided a := by
  simp only [look, h]

theorem Follower.look_next {k' : κ} (h : t k = some (.inl k')) : (looking k : Follower κ α).look t = looking k' := by
  simp only [look, h]

theorem Table.Extends.refl (t : Table κ α) : t.Extends t := fun _ _ h => h

theorem Table.Extends.trans {t'' : Table κ α} (h : t.Extends t') (h' : t'.Extends t'') : t.Extends t'' :=
  fun k r hk => h' k r (h k r hk)

namespace Leads

theorem mono (ht : t.Extends t') (h : Leads t n k a) : Leads t' n k a := by
  induction h with
  | value hk => exact value (ht _ _ hk)
  | next hk _ ih => exact next (ht _ _ hk) ih

/-- A key leads to one value. -/
theorem unique (h : Leads t n k a) (h' : Leads t m k b) : a = b := by
  induction h generalizing m with
  | value hk =>
    cases h' with
    | value hk' => rw [hk] at hk'; cases hk'; rfl
    | next hk' _ => rw [hk] at hk'; cases hk'
  | next hk _ ih =>
    cases h' with
    | value hk' => rw [hk] at hk'; cases hk'
    | next hk' hl => rw [hk] at hk'; cases hk'; exact ih hl

end Leads

/-! ## Following -/

/-- What a follower leads to. -/
def Follower.LeadsTo (t : Table κ α) (a : α) : Follower κ α → Prop
  | looking k => ∃ n, Leads t n k a
  | decided b => b = a

/-- A look stays on the way. -/
theorem Follower.leadsTo_of_look (ht : t.Extends t') {f : Follower κ α} (h : (f.look t).LeadsTo t' a) :
    f.LeadsTo t' a := by
  cases f with
  | decided b => exact h
  | looking k =>
    cases hk : t k with
    | none => rwa [look_none hk] at h
    | some r =>
      cases r with
      | inr b =>
        rw [look_value hk] at h
        cases h
        exact ⟨0, .value (ht _ _ hk)⟩
      | inl k' =>
        rw [look_next hk] at h
        obtain ⟨n, hn⟩ := h
        exact ⟨n + 1, .next (ht _ _ hk) hn⟩

variable {tables : Nat → Table κ α}

theorem extends_le (ht : ∀ n, (tables n).Extends (tables (n + 1))) (h : n ≤ m) : (tables n).Extends (tables m) := by
  induction m, h using Nat.le_induction with
  | base => exact .refl _
  | succ m _ ih => exact ih.trans (ht m)

/-- What a follower decides is what its first key leads to. -/
theorem decided_leads (ht : ∀ n, (tables n).Extends (tables (n + 1))) (h : follow tables k n = .decided a) :
    ∃ d, Leads (tables n) d k a := by
  have key : ∀ j, j ≤ n → (follow tables k j).LeadsTo (tables n) a → (follow tables k 0).LeadsTo (tables n) a := by
    intro j
    induction j with
    | zero => exact fun _ h => h
    | succ j ih => exact fun hj h => ih (by omega) (Follower.leadsTo_of_look (extends_le ht (by omega)) h)
  exact key n le_rfl (by rw [h]; rfl)

/-- At most `d` looks from deciding `a`. -/
def Follower.Within (t : Table κ α) (a : α) (d : Nat) : Follower κ α → Prop
  | looking k => ∃ n < d, Leads t n k a
  | decided b => b = a

/-- A look at less does not stray. -/
theorem Follower.Within.look (ht : t.Extends t') {d : Nat} {f : Follower κ α} (h : f.Within t' a d) :
    (f.look t).Within t' a d := by
  cases f with
  | decided b => exact h
  | looking k =>
    obtain ⟨n, hn, hl⟩ := h
    cases hk : t k with
    | none =>
      rw [look_none hk]
      exact ⟨n, hn, hl⟩
    | some r =>
      cases r with
      | inr b =>
        rw [look_value hk]
        have hb : Leads t' 0 k b := .value (ht _ _ hk)
        exact hb.unique hl
      | inl k' =>
        rw [look_next hk]
        cases hl with
        | value hv => rw [ht _ _ hk] at hv; cases hv
        | next hk' hl' =>
          rw [ht _ _ hk] at hk'
          cases hk'
          exact ⟨_, by omega, hl'⟩

/-- With all the records there, a look is progress. -/
theorem Follower.Within.advance (ht : t.Extends t') {d : Nat} {f : Follower κ α} (h : f.Within t a (d + 1)) :
    (f.look t).Within t' a d := by
  cases f with
  | decided b => exact h
  | looking k =>
    obtain ⟨n, hn, hl⟩ := h
    cases hl with
    | value hk => rw [look_value hk]; rfl
    | next hk hl' =>
      rw [look_next hk]
      exact ⟨_, by omega, hl'.mono ht⟩

/-- Once the records on the way are there, a follower takes at most as many
looks as they are, wherever it has got to. -/
theorem follow_decides (ht : ∀ n, (tables n).Extends (tables (n + 1))) {d : Nat} (h : Leads (tables n) d k a) :
    follow tables k (n + d + 1) = .decided a := by
  have hreach : ∀ j, j ≤ n → (follow tables k j).Within (tables n) a (d + 1) := by
    intro j
    induction j with
    | zero => exact fun _ => ⟨d, by omega, h⟩
    | succ j ih => exact fun hj => (ih (by omega)).look (extends_le ht (by omega))
  have hadvance : ∀ i, i ≤ d + 1 → (follow tables k (n + i)).Within (tables (n + i)) a (d + 1 - i) := by
    intro i
    induction i with
    | zero => exact fun _ => hreach n le_rfl
    | succ i ih =>
      intro hi
      have hw := ih (by omega)
      rw [show d + 1 - i = d + 1 - (i + 1) + 1 by omega] at hw
      exact hw.advance (ht _)
  have hend := hadvance (d + 1) le_rfl
  rw [Nat.sub_self] at hend
  cases hf : follow tables k (n + (d + 1)) with
  | looking k' =>
    rw [hf] at hend
    obtain ⟨m, hm, -⟩ := hend
    omega
  | decided b =>
    rw [hf] at hend
    exact congrArg Follower.decided hend

end Redirects
