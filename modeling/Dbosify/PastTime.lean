/-
What a sequence of events says of its past.

`Since p q`: an event met `p`, and none has met `q` from then on. `Once p`: an
event met `p`. A condition on an event also sees the events before it. An
event is added at the end, so each is decided by the last event and by what
held before (`since_snoc`, `once_snoc`).
-/
import Mathlib.Init

namespace PastTime

variable {ε : Type}

/-- An event met `p`, and none met `q` after it. -/
def Since (p q : List ε → ε → Prop) (es : List ε) : Prop :=
  ∃ a e b, es = a ++ e :: b ∧ p a e ∧ ∀ b₁ e' b₂, b = b₁ ++ e' :: b₂ → ¬ q (a ++ e :: b₁) e'

/-- An event met `p`. -/
def Once (p : List ε → ε → Prop) : List ε → Prop := Since p fun _ _ => False

variable {p q : List ε → ε → Prop} {es : List ε} {e : ε}

theorem not_since_nil : ¬ Since p q [] := by
  rintro ⟨a, e, b, h, -⟩
  exact absurd h (by simp)

theorem since_snoc : Since p q (es ++ [e]) ↔ p es e ∨ Since p q es ∧ ¬ q es e := by
  constructor
  · rintro ⟨a, f, b, h, hp, hq⟩
    rcases List.eq_nil_or_concat b with rfl | ⟨b', g, rfl⟩
    · obtain ⟨rfl, hf⟩ := List.append_inj' h rfl
      cases hf
      exact .inl hp
    · rw [List.concat_eq_append, ← List.cons_append, ← List.append_assoc] at h
      obtain ⟨rfl, hg⟩ := List.append_inj' h rfl
      cases hg
      refine .inr ⟨⟨a, f, b', rfl, hp, fun b₁ e' b₂ hb => ?_⟩, ?_⟩
      · exact hq b₁ e' (b₂ ++ [e]) (by rw [List.concat_eq_append, hb]; simp)
      · exact hq b' e [] (List.concat_eq_append ..)
  · rintro (hp | ⟨⟨a, f, b, rfl, hp, hq⟩, hne⟩)
    · exact ⟨es, e, [], rfl, hp, fun b₁ e' b₂ hb => absurd hb (by simp)⟩
    · refine ⟨a, f, b ++ [e], by simp, hp, fun b₁ e' b₂ hb => ?_⟩
      rcases List.eq_nil_or_concat b₂ with rfl | ⟨b', g, rfl⟩
      · obtain ⟨rfl, he⟩ := List.append_inj' hb rfl
        cases he
        exact hne
      · rw [List.concat_eq_append, ← List.cons_append, ← List.append_assoc] at hb
        obtain ⟨rfl, -⟩ := List.append_inj' hb rfl
        exact hq b₁ e' b' rfl

theorem not_once_nil : ¬ Once p [] := not_since_nil

theorem once_snoc : Once p (es ++ [e]) ↔ p es e ∨ Once p es := by
  rw [Once, since_snoc, not_false_eq_true, and_true]

/-- Induction on the events, the last one first. -/
theorem snoc_induction {P : List ε → Prop} (nil : P []) (snoc : ∀ es e, P es → P (es ++ [e])) (es : List ε) : P es := by
  induction h : es.length generalizing es with
  | zero => rw [List.length_eq_zero_iff.1 h]; exact nil
  | succ n ih =>
    rcases List.eq_nil_or_concat es with rfl | ⟨es', e, rfl⟩
    · exact nil
    · rw [List.concat_eq_append] at h ⊢
      exact snoc es' e (ih es' (by simpa using h))

end PastTime
