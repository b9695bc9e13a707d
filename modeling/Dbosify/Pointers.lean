/-
Chains of pointers.

Each node points to another one, or to none. From a node of a finite graph
the pointers either come back to a node they have passed, or form a list that
visits every node they lead to once (`path_iff`).
-/
import Mathlib.Data.Set.Card
import Mathlib.Data.Set.Finite.List
import Mathlib.Logic.Relation
import Mathlib.Order.WellFounded

namespace Pointer

variable {α : Type} (next : α → Option α)

/-- One pointer. -/
def Step (a b : α) : Prop := next a = some b

/-- The pointers from `a` lead to `b`. -/
def Leads (a b : α) : Prop := Relation.ReflTransGen (Step next) a b

/-- The pointers from `a` come back to a node they have passed. -/
def Returns (a : α) : Prop := ∃ b, Leads next a b ∧ Relation.TransGen (Step next) b b

/-- The nodes on the way from `a` to where the pointers end. -/
inductive Path : α → List α → Prop
  | last {a : α} (h : next a = none) : Path a [a]
  | cons {a b : α} {l : List α} (h : next a = some b) (hl : Path b l) : Path a (a :: l)

variable {next} {a b : α} {l l' : List α}

theorem Leads.of_step (h : next a = some b) {d : α} : Leads next a d ↔ d = a ∨ Leads next b d := by
  constructor
  · intro hd
    rcases hd.cases_head with rfl | ⟨b', hb', hd⟩
    · exact .inl rfl
    · cases h.symm.trans hb'
      exact .inr hd
  · rintro (rfl | hd)
    · exact .refl
    · exact .head h hd

theorem Leads.of_none (h : next a = none) {d : α} : Leads next a d ↔ d = a := by
  constructor
  · intro hd
    rcases hd.cases_head with rfl | ⟨b, hb, -⟩
    · rfl
    · cases h.symm.trans hb
  · rintro rfl
    exact .refl

namespace Path

theorem unique (h : Path next a l) : Path next a l' → l' = l := by
  induction h generalizing l' with
  | last h =>
    intro h'
    cases h' with
    | last => rfl
    | cons h₂ => cases h.symm.trans h₂
  | cons h _ ih =>
    intro h'
    cases h' with
    | last h₂ => cases h₂.symm.trans h
    | cons h₂ hl₂ =>
      cases h.symm.trans h₂
      rw [ih hl₂]

/-- A path has the nodes its first one leads to. -/
theorem mem_iff (h : Path next a l) : b ∈ l ↔ Leads next a b := by
  induction h with
  | last h => rw [Leads.of_none h, List.mem_singleton]
  | cons h _ ih => rw [Leads.of_step h, List.mem_cons, ih]

/-- From each node on it, the rest of the path. -/
theorem rest (h : Path next a l) (hb : b ∈ l) : ∃ l', Path next b l' ∧ l'.length ≤ l.length := by
  induction h with
  | last h =>
    rw [List.mem_singleton.1 hb]
    exact ⟨_, .last h, Nat.le_refl _⟩
  | cons h hl ih =>
    rcases List.mem_cons.1 hb with rfl | hb
    · exact ⟨_, .cons h hl, Nat.le_refl _⟩
    · obtain ⟨l', hl', hle⟩ := ih hb
      exact ⟨l', hl', Nat.le_succ_of_le hle⟩

/-- The pointers do not come back to where they start. -/
theorem notMem_tail (h : next a = some b) (hl : Path next b l) : a ∉ l := by
  intro ha
  obtain ⟨l', hl', hle⟩ := hl.rest ha
  rw [(Path.cons h hl).unique hl'] at hle
  simp only [List.length_cons] at hle
  omega

theorem nodup (h : Path next a l) : l.Nodup := by
  induction h with
  | last => exact List.nodup_singleton _
  | cons h hl ih => exact List.nodup_cons.2 ⟨notMem_tail h hl, ih⟩

theorem not_returns (h : Path next a l) : ¬ Returns next a := by
  rintro ⟨b, hb, hcycle⟩
  obtain ⟨l', hl', -⟩ := h.rest (h.mem_iff.2 hb)
  obtain ⟨d, hd, hback⟩ := Relation.TransGen.head'_iff.1 hcycle
  cases hl' with
  | last hnone => cases hnone.symm.trans hd
  | cons hsome hl =>
    cases hsome.symm.trans hd
    exact notMem_tail hsome hl (hl.mem_iff.2 hback)

/-- A path is as long as there are nodes its first one leads to. -/
theorem length_eq (h : Path next a l) : {b | Leads next a b}.ncard = l.length := by
  classical
  have hset : {b | Leads next a b} = (l.toFinset : Set α) := by
    ext b
    simp [h.mem_iff]
  rw [hset, Set.ncard_coe_finset, List.toFinset_card_of_nodup h.nodup]

end Path

/-- **The pointers from a node of a finite graph end**, or come back. -/
theorem path_iff [Finite α] : (∃ l, Path next a l) ↔ ¬ Returns next a := by
  constructor
  · rintro ⟨l, hl⟩
    exact hl.not_returns
  · intro h
    -- Induction along the pointers: no node they lead to is on a cycle.
    let Later : {b // Leads next a b} → {b // Leads next a b} → Prop := fun b d => Relation.TransGen (Step next) d.1 b.1
    have : IsTrans _ Later := ⟨fun _ _ _ hb hd => hd.trans hb⟩
    have : Std.Irrefl Later := ⟨fun b hb => h ⟨b.1, b.2, hb⟩⟩
    have hwf : WellFounded Later := Finite.wellFounded_of_trans_of_irrefl Later
    have key (b : {b // Leads next a b}) : ∃ l, Path next b.1 l := by
      induction b using hwf.induction with
      | _ b ih =>
        cases hb : next b.1 with
        | none => exact ⟨_, .last hb⟩
        | some d =>
          obtain ⟨l, hl⟩ := ih ⟨d, b.2.tail hb⟩ (.single hb)
          exact ⟨_, .cons hb hl⟩
    exact key ⟨a, .refl⟩

end Pointer
