/-
Futures with a done callback, on an event loop.

A callback is added to futures, to one of them perhaps more than once. When a
future is done, the callbacks on it are scheduled, behind those scheduled
before; on a future that is done already a callback is scheduled as it is
added. So the calls come in the order in which the futures were done, as often
as the callback was added (`calls`).
-/
import Mathlib.Data.List.Basic
import Mathlib.Data.List.Perm.Basic

namespace Futures

variable {F : Type} [DecidableEq F]

/-- Futures by their identities: those that are done, in the order they
became so, the callback where it is still added, and its scheduled calls. -/
structure Watch (F : Type) where
  done : List F := []
  added : List F := []
  ready : List F := []

namespace Watch

variable (w : Watch F)

/-- `f.add_done_callback`. -/
def add (f : F) : Watch F :=
  if f ∈ w.done then { w with ready := w.ready ++ [f] } else { w with added := w.added ++ [f] }

/-- The callback is added to each. -/
def of (done fs : List F) : Watch F := fs.foldl add { done }

/-- A future that is not done becomes so. -/
def complete (f : F) : Watch F :=
  if f ∈ w.done then w
  else
    { done := w.done ++ [f]
      added := w.added.filter (· ≠ f)
      ready := w.ready ++ w.added.filter (· = f) }

/-- `f.remove_done_callback`: what is scheduled stays so. -/
def remove (f : F) : Watch F := { w with added := w.added.filter (· ≠ f) }

end Watch

/-- The calls of the callback, where `done` are done as it is added to `fs`,
and `later` after that. -/
def calls (fs done later : List F) : List F := fs.filter (· ∈ done) ++ later.flatMap fun f => fs.filter (· = f)

variable {fs done later : List F} {w : Watch F} {f : F}

theorem calls_nil : calls fs done [] = fs.filter (· ∈ done) := List.append_nil _

theorem calls_snoc : calls fs done (later ++ [f]) = calls fs done later ++ fs.filter (· = f) := by
  simp only [calls, List.flatMap_append, List.flatMap_cons, List.flatMap_nil, List.append_nil, List.append_assoc]

theorem mem_calls {g : F} (h : g ∈ calls fs done later) : g ∈ fs ∧ g ∈ done ++ later := by
  simp only [calls, List.mem_append, List.mem_filter, decide_eq_true_eq, List.mem_flatMap] at h ⊢
  rcases h with ⟨hg, hd⟩ | ⟨f, hf, hg, rfl⟩
  · exact ⟨hg, .inl hd⟩
  · exact ⟨hg, .inr hf⟩

namespace Watch

theorem foldl_add (fs : List F) : ∀ w : Watch F, fs.foldl add w =
    { w with added := w.added ++ fs.filter (· ∉ w.done), ready := w.ready ++ fs.filter (· ∈ w.done) } := by
  induction fs with
  | nil => simp
  | cons f fs ih =>
    intro w
    rw [List.foldl_cons, ih]
    unfold add
    split
    · next h => simp [h]
    · next h => simp [h]

theorem of_eq (done fs : List F) :
    of done fs = { done, added := fs.filter (· ∉ done), ready := fs.filter (· ∈ done) } := by
  rw [of, foldl_add]
  simp

theorem foldl_remove (fs : List F) : ∀ w : Watch F, fs.foldl remove w = { w with added := w.added.filter (· ∉ fs) } := by
  induction fs with
  | nil => simp
  | cons f fs ih =>
    intro w
    rw [List.foldl_cons, ih, remove, List.filter_filter]
    simp only [List.mem_cons, not_or, Bool.decide_and, Bool.and_comm, ne_eq]

/-- The callback is still added to those of `fs` that are not done. -/
def Watches (fs : List F) (w : Watch F) : Prop := w.added = fs.filter (· ∉ w.done)

theorem watches_of (done fs : List F) : (of done fs).Watches fs := by
  rw [of_eq]
  rfl

theorem Watches.complete (h : w.Watches fs) (f : F) : (w.complete f).Watches fs := by
  unfold Watch.complete
  split
  · exact h
  · rw [Watches] at h
    simp only [Watches, h, List.filter_filter, List.mem_append, List.mem_singleton, not_or, Bool.decide_and,
      Bool.and_comm, ne_eq]

/-- What is scheduled when a future is done. -/
theorem Watches.scheduled (h : w.Watches fs) (hf : f ∉ w.done) : w.added.filter (· = f) = fs.filter (· = f) := by
  rw [h, List.filter_filter]
  refine List.filter_congr fun g _ => ?_
  by_cases hg : g = f
  · subst hg; simp [hf]
  · simp [hg]

end Watch

end Futures
