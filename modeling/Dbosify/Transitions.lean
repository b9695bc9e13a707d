/-
Runs of a partial step function, each step under a condition of its own.
-/
import Mathlib.Init

namespace Transitions

variable {σ ε : Type}

/-- The states the runs from `s₀` reach whose steps all meet `P`, in the state
they are taken in. -/
inductive Reached (step : σ → ε → Option σ) (P : σ → ε → Prop) (s₀ : σ) : σ → Prop
  | refl : Reached step P s₀ s₀
  | next {s s' : σ} {e : ε} : Reached step P s₀ s → P s e → step s e = some s' → Reached step P s₀ s'

namespace Reached

variable {step : σ → ε → Option σ} {P Q : σ → ε → Prop} {s₀ s s₁ : σ}

/-- What holds at the start and survives each step that meets the condition
holds throughout. -/
theorem invariant {I : σ → Prop} (h : Reached step P s₀ s) (h₀ : I s₀)
    (hs : ∀ {a b e}, I a → P a e → step a e = some b → I b) : I s := by
  induction h with
  | refl => exact h₀
  | next _ hp hst ih => exact hs ih hp hst

theorem mono (hpq : ∀ s e, P s e → Q s e) (h : Reached step P s₀ s) : Reached step Q s₀ s := by
  induction h with
  | refl => exact refl
  | next _ hp hst ih => exact ih.next (hpq _ _ hp) hst

/-- A run of listed events. -/
def run (step : σ → ε → Option σ) (s : σ) : List ε → Option σ
  | [] => some s
  | e :: es => (step s e).bind fun s' => run step s' es

/-- Whether each step of a run meets a condition. -/
def Meets (step : σ → ε → Option σ) (P : σ → ε → Prop) : σ → List ε → Prop
  | _, [] => True
  | s, e :: es => P s e ∧ ∀ s', step s e = some s' → Meets step P s' es

theorem of_run {es : List ε} (h : Reached step P s₀ s) (hr : run step s es = some s₁) (hm : Meets step P s es) :
    Reached step P s₀ s₁ := by
  induction es generalizing s with
  | nil => simp only [run, Option.some.injEq] at hr; rwa [← hr]
  | cons e es ih =>
    simp only [run, Option.bind_eq_some_iff] at hr
    obtain ⟨s', hs, hr⟩ := hr
    exact ih (h.next hm.1 hs) hr (hm.2 s' hs)

theorem Meets.of_forall (h : ∀ s e, P s e) (s : σ) (es : List ε) : Meets step P s es := by
  induction es generalizing s with
  | nil => trivial
  | cons e es ih => exact ⟨h s e, fun s' _ => ih s'⟩

end Reached

end Transitions
