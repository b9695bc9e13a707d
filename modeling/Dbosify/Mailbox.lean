/-
The books of a mailbox: every message that ever arrived, and where it is now.

A consumer takes messages from the inbox into its hands; from there they are
delivered, forwarded, dropped or lost. The books balance after every such
move (`Balanced`), so nothing is lost exactly when nothing is in the `lost`
column (`kept_iff`), and what is forwarded keeps the order it came in
(`outgoing`).
-/
import Mathlib.Data.List.Perm.Basic

namespace Mail

/-- Where the messages are. -/
structure Ledger (μ : Type) where
  arrived : List μ := []
  inbox : List μ := []
  /-- Taken from the inbox, and not yet dealt with. -/
  held : List μ := []
  delivered : List μ := []
  forwarded : List μ := []
  dropped : List μ := []
  lost : List μ := []

namespace Ledger

variable {μ : Type}

/-! ## Moves -/

def arrive (l : Ledger μ) (m : μ) : Ledger μ := { l with arrived := l.arrived ++ [m], inbox := l.inbox ++ [m] }

/-- The oldest message is taken from the inbox. -/
def take (l : Ledger μ) : Ledger μ :=
  match l.inbox with
  | [] => l
  | m :: rest => { l with inbox := rest, held := l.held ++ [m] }

/-- What is held is delivered. -/
def deliver (l : Ledger μ) : Ledger μ := { l with held := [], delivered := l.delivered ++ l.held }

/-- What is held is lost. -/
def lose (l : Ledger μ) : Ledger μ := { l with held := [], lost := l.lost ++ l.held }

/-- The oldest held message is sent on. -/
def forward (l : Ledger μ) : Ledger μ :=
  match l.held with
  | [] => l
  | m :: rest => { l with held := rest, forwarded := l.forwarded ++ [m] }

/-- The oldest held message goes no further. -/
def drop (l : Ledger μ) : Ledger μ :=
  match l.held with
  | [] => l
  | m :: rest => { l with held := rest, dropped := l.dropped ++ [m] }

/-! ## The balance -/

/-- Every message that arrived is in one place. -/
def Balanced (l : Ledger μ) : Prop :=
  l.arrived.Perm (l.delivered ++ l.forwarded ++ l.dropped ++ l.lost ++ l.held ++ l.inbox)

variable {l : Ledger μ}

theorem balanced_empty : (({} : Ledger μ)).Balanced := List.Perm.refl _

theorem Balanced.arrive (h : l.Balanced) (m : μ) : (l.arrive m).Balanced := by
  unfold Balanced at h ⊢
  simp only [Ledger.arrive]
  rw [← List.append_assoc]
  exact h.append_right [m]

theorem Balanced.take (h : l.Balanced) : l.take.Balanced := by
  unfold Ledger.take
  split
  · exact h
  · next m rest hi =>
    unfold Balanced at h ⊢
    simpa [hi] using h

theorem Balanced.deliver (h : l.Balanced) : l.deliver.Balanced := by
  unfold Balanced at h ⊢
  refine h.trans ?_
  simp only [Ledger.deliver, List.append_nil]
  refine List.Perm.append_right _ ?_
  rw [List.append_assoc l.delivered, List.append_assoc l.delivered, List.append_assoc l.delivered,
    List.append_assoc l.delivered, List.append_assoc l.delivered, List.append_assoc l.delivered]
  refine List.Perm.append_left _ ?_
  exact List.perm_append_comm.trans (by simp)

theorem Balanced.lose (h : l.Balanced) : l.lose.Balanced := by
  unfold Balanced at h ⊢
  simpa [Ledger.lose] using h

/-- The head of what is held may go to the end of an earlier column. -/
theorem perm_move (a b : List μ) (m : μ) (c : List μ) : (a ++ b ++ m :: c).Perm (a ++ [m] ++ b ++ c) := by
  rw [List.append_assoc, List.append_assoc, List.append_assoc]
  refine List.Perm.append_left a ?_
  simp

theorem Balanced.forward (h : l.Balanced) : l.forward.Balanced := by
  unfold Ledger.forward
  split
  · exact h
  · next m rest hh =>
    unfold Balanced at h ⊢
    refine h.trans ?_
    have := perm_move (l.delivered ++ l.forwarded) (l.dropped ++ l.lost) m (rest ++ l.inbox)
    simpa [hh] using this

theorem Balanced.drop (h : l.Balanced) : l.drop.Balanced := by
  unfold Ledger.drop
  split
  · exact h
  · next m rest hh =>
    unfold Balanced at h ⊢
    refine h.trans ?_
    have := perm_move (l.delivered ++ l.forwarded ++ l.dropped) l.lost m (rest ++ l.inbox)
    simpa [hh] using this

/-- **Nothing is lost exactly when the column says so**: with the inbox empty
and nobody holding anything, the messages that matter are each delivered or
forwarded, once. -/
theorem kept_iff (h : l.Balanced) {p : μ → Bool} (hi : l.inbox = []) (hh : l.held = [])
    (hd : l.dropped.filter p = []) :
    (l.arrived.filter p).Perm ((l.delivered ++ l.forwarded).filter p) ↔ l.lost.filter p = [] := by
  have hb := h.filter p
  simp only [hi, hh, List.append_nil, List.filter_append, hd] at hb
  rw [List.filter_append]
  constructor
  · intro hk
    have := (hk.symm.trans hb).length_eq
    simp only [List.length_append] at this
    exact List.eq_nil_of_length_eq_zero (by omega)
  · intro hl
    rw [hl, List.append_nil] at hb
    exact hb

/-! ## Order -/

/-- What was sent on and what is still to be, in order. -/
def outgoing (p : μ → Bool) (l : Ledger μ) : List μ := (l.forwarded ++ l.held ++ l.inbox).filter p

theorem outgoing_arrive (p : μ → Bool) (l : Ledger μ) (m : μ) :
    (l.arrive m).outgoing p = l.outgoing p ++ [m].filter p := by
  simp [outgoing, arrive]

theorem outgoing_take (p : μ → Bool) (l : Ledger μ) : l.take.outgoing p = l.outgoing p := by
  unfold take
  split
  · rfl
  · next m rest h => simp [outgoing, h]

theorem outgoing_forward (p : μ → Bool) (l : Ledger μ) : l.forward.outgoing p = l.outgoing p := by
  unfold forward
  split
  · rfl
  · next m rest h => simp [outgoing, h]

theorem outgoing_drop {p : μ → Bool} {m : μ} {rest : List μ} (h : l.held = m :: rest) (hm : p m = false) :
    l.drop.outgoing p = l.outgoing p := by
  simp [outgoing, drop, h, hm]

/-- What was sent on and what is still to be came in that order. -/
def Sequential (l : Ledger μ) : Prop := (l.forwarded ++ l.held ++ l.inbox).Sublist l.arrived

variable {l : Ledger μ}

theorem Sequential.arrive (h : l.Sequential) (m : μ) : (l.arrive m).Sequential := by
  unfold Sequential at h ⊢
  simp only [Ledger.arrive]
  rw [← List.append_assoc]
  exact h.append (List.Sublist.refl [m])

theorem Sequential.take (h : l.Sequential) : l.take.Sequential := by
  unfold Ledger.take
  split
  · exact h
  · next m rest hi =>
    unfold Sequential at h ⊢
    simpa [hi] using h

/-- What is held may go elsewhere. -/
theorem Sequential.without_held (h : l.Sequential) {l' : Ledger μ} (ha : l'.arrived = l.arrived)
    (hf : l'.forwarded = l.forwarded) (hh : l'.held.Sublist l.held) (hi : l'.inbox = l.inbox) : l'.Sequential := by
  unfold Sequential at h ⊢
  rw [ha, hf, hi]
  exact (((List.Sublist.refl _).append hh).append (List.Sublist.refl _)).trans h

theorem Sequential.deliver (h : l.Sequential) : l.deliver.Sequential :=
  h.without_held rfl rfl (List.nil_sublist _) rfl

theorem Sequential.lose (h : l.Sequential) : l.lose.Sequential := h.without_held rfl rfl (List.nil_sublist _) rfl

theorem Sequential.drop (h : l.Sequential) : l.drop.Sequential := by
  unfold Ledger.drop
  split
  · exact h
  · next m rest hh => exact h.without_held rfl rfl (by rw [hh]; exact List.sublist_cons_self m rest) rfl

theorem Sequential.forward (h : l.Sequential) : l.forward.Sequential := by
  unfold Ledger.forward
  split
  · exact h
  · next m rest hh =>
    unfold Sequential at h ⊢
    simpa [hh] using h

end Ledger

end Mail
