/-
`serialize_failure` on the exceptions of a program, which are linked by
`__cause__` and `__context__` to a graph.

The serializer calls itself on the cause of an exception and keeps no note of
where it has been. Given a stack it returns an envelope exactly when the
causes it goes on to never come back, the stack has room for them, and their
details encode (`serialize_failure_returns_iff`); where they come back, every
stack overflows.
-/
import Dbosify.FailureTrace
import Dbosify.Pointers

namespace Dbosify

open Pointer

/-! ## Graphs -/

/-- An exception object: its class with its fields, its message (`str(exc)`,
of a foreign one), its traceback as printed, and the exceptions it is linked
to. -/
structure ExceptionObject (ι : Type) where
  cls : ExcFields
  message : String
  traceback : Option String := none
  cause : Option ι := none
  context : Option ι := none
  suppressContext : Bool := false

/-- The exceptions `serialize_failure` can come to. -/
def ExceptionGraph (ι : Type) : Type := ι → ExceptionObject ι

variable {ι : Type}

/-- The exception the serializer goes on to: `raise ... from` wins, else the
context unless it is suppressed. -/
def ExceptionObject.serializedCause (x : ExceptionObject ι) : Option ι :=
  match x.cause with
  | some e => some e
  | none => if x.suppressContext then none else x.context

/-- `RecursionError`, a `RuntimeError`. -/
def stackOverflow : Exc := .runtimeError "maximum recursion depth exceeded"

namespace ExceptionGraph

variable (c : SyncConverter) (g : ExceptionGraph ι)

/-- Where the serializer goes on to from each exception. -/
def causes (i : ι) : Option ι := (g i).serializedCause

/-- `payloads.serialize_failure`, on a stack with room for `frames` calls of
it. -/
def serializeFailure : Nat → ι → Except Exc TracedEnvelope
  | 0, _ => .error stackOverflow
  | frames + 1, i => do
    let info ← encodeClass c (g i).cls
    match g.causes i with
    | some e => do
      let cause ← serializeFailure frames e
      .ok { info, message := (g i).message, stackTrace := (g i).traceback.getD "", cause := some cause }
    | none => .ok { info, message := (g i).message, stackTrace := (g i).traceback.getD "" }

/-- The class-specific fields of the exception encode. -/
def Encodes (i : ι) : Prop := ∃ info, encodeClass c (g i).cls = .ok info

variable {c g} {i : ι} {frames : Nat}

/-! ## Where it returns -/

theorem serializeFailure_last (h : g.causes i = none) :
    (∃ e, g.serializeFailure c (frames + 1) i = .ok e) ↔ g.Encodes c i := by
  simp only [serializeFailure, h, bind_eq_ok]
  constructor
  · rintro ⟨e, info, hi, -⟩
    exact ⟨info, hi⟩
  · rintro ⟨info, hi⟩
    exact ⟨_, info, hi, rfl⟩

theorem serializeFailure_cause {j : ι} (h : g.causes i = some j) :
    (∃ e, g.serializeFailure c (frames + 1) i = .ok e) ↔
      g.Encodes c i ∧ ∃ e, g.serializeFailure c frames j = .ok e := by
  simp only [serializeFailure, h, bind_eq_ok]
  constructor
  · rintro ⟨e, info, hi, e', he, -⟩
    exact ⟨⟨info, hi⟩, e', he⟩
  · rintro ⟨⟨info, hi⟩, e', he⟩
    exact ⟨_, info, hi, e', he, rfl⟩

/-- It returns from a path of causes that fits on the stack. -/
theorem serializeFailure_isOk : ∀ (frames : Nat) (i : ι), (∃ e, g.serializeFailure c frames i = .ok e) ↔
    ∃ l, Path g.causes i l ∧ l.length ≤ frames ∧ ∀ j ∈ l, g.Encodes c j
  | 0, i => by
    refine iff_of_false (fun ⟨e, he⟩ => by cases he) ?_
    rintro ⟨l, hl, hlen, -⟩
    cases hl with
    | last | cons => simp at hlen
  | frames + 1, i => by
    cases hc : g.causes i with
    | none =>
      rw [serializeFailure_last hc]
      constructor
      · intro he
        exact ⟨[i], .last hc, by simp, by simpa using he⟩
      · rintro ⟨l, hl, -, he⟩
        exact he i (hl.mem_iff.2 .refl)
    | some j =>
      rw [serializeFailure_cause hc, serializeFailure_isOk frames j]
      constructor
      · rintro ⟨hi, l, hl, hlen, he⟩
        exact ⟨i :: l, .cons hc hl, by simpa using hlen, by simpa using ⟨hi, he⟩⟩
      · rintro ⟨l, hl, hlen, he⟩
        cases hl with
        | last hnone => cases hnone.symm.trans hc
        | cons hsome hl =>
          cases hsome.symm.trans hc
          simp only [List.length_cons, List.mem_cons, forall_eq_or_imp] at hlen he
          exact ⟨he.1, _, hl, by omega, he.2⟩

/-- **When `serialize_failure` returns an envelope**: the causes it goes on to
do not come back, the stack has room for as many calls as there are exceptions
among them, and the details of these encode. -/
theorem serialize_failure_returns_iff {n : Nat} (c : SyncConverter) (g : ExceptionGraph (Fin n)) (frames : Nat)
    (i : Fin n) : (∃ e, g.serializeFailure c frames i = .ok e) ↔
      ¬ Returns g.causes i ∧ {j | Leads g.causes i j}.ncard ≤ frames ∧ ∀ j, Leads g.causes i j → g.Encodes c j := by
  rw [serializeFailure_isOk, ← path_iff]
  constructor
  · rintro ⟨l, hl, hlen, he⟩
    exact ⟨⟨l, hl⟩, hl.length_eq ▸ hlen, fun j hj => he j (hl.mem_iff.2 hj)⟩
  · rintro ⟨⟨l, hl⟩, hlen, he⟩
    exact ⟨l, hl, hl.length_eq ▸ hlen, fun j hj => he j (hl.mem_iff.1 hj)⟩

/-! ## Where it does not -/

/-- Where the details encode, the stack is all that can run out. -/
theorem serializeFailure_overflows : ∀ (frames : Nat) {i : ι}, (∀ j, Leads g.causes i j → g.Encodes c j) →
    (∃ e, g.serializeFailure c frames i = .ok e) ∨ g.serializeFailure c frames i = .error stackOverflow
  | 0, i, _ => .inr rfl
  | frames + 1, i, h => by
    obtain ⟨info, hi⟩ := h i .refl
    cases hc : g.causes i with
    | none => exact .inl ((serializeFailure_last hc).2 ⟨info, hi⟩)
    | some j =>
      rcases serializeFailure_overflows frames fun d hd => h d ((Leads.of_step hc).2 (.inr hd)) with he | he
      · exact .inl ((serializeFailure_cause hc).2 ⟨⟨info, hi⟩, he⟩)
      · exact .inr (by simp only [serializeFailure, hi, hc, he, ok_bind, error_bind])

/-- **Causes that come back exhaust every stack.** -/
theorem serializeFailure_cycle (hr : Returns g.causes i) (he : ∀ j, Leads g.causes i j → g.Encodes c j) (frames : Nat) :
    g.serializeFailure c frames i = .error stackOverflow := by
  refine (serializeFailure_overflows frames he).resolve_left fun h => ?_
  obtain ⟨l, hl, -⟩ := (serializeFailure_isOk frames i).1 h
  exact hl.not_returns hr

/-! ## Graphs without cycles -/

/-- The exception with its causes, `depth` of them. -/
def unfold (g : ExceptionGraph ι) : Nat → ι → TracedException
  | 0, i => { cls := (g i).cls, message := (g i).message, traceback := (g i).traceback }
  | depth + 1, i =>
    { cls := (g i).cls, message := (g i).message, traceback := (g i).traceback, cause := (g.causes i).map (unfold g depth) }

/-- On a path that fits on the stack, it does what the serializer of exception
trees does. -/
theorem serializeFailure_unfold {l : List ι} (h : Path g.causes i l) : ∀ {frames : Nat}, l.length ≤ frames →
    g.serializeFailure c frames i = (g.unfold frames i).serializeFailure c := by
  induction h with
  | @last i h =>
    intro frames hf
    obtain ⟨frames, rfl⟩ := Nat.exists_eq_succ_of_ne_zero (Nat.pos_iff_ne_zero.1 hf)
    simp only [serializeFailure, unfold, h, Option.map_none]
    rfl
  | @cons i j l h _ ih =>
    intro frames hf
    obtain ⟨frames, rfl⟩ := Nat.exists_eq_succ_of_ne_zero (Nat.pos_iff_ne_zero.1 (Nat.le_trans (Nat.succ_pos _) hf))
    simp only [serializeFailure, unfold, h, Option.map_some]
    rw [ih (Nat.le_of_succ_le_succ hf)]
    rfl

/-! ## A cycle -/

/-- An error `a`, wrapped with `raise b from a`, and `b` caught in turn for a
`raise a from b`. -/
def rewrapped : ExceptionGraph (Fin 2)
  | 0 => { cls := .applicationError none [] false none .unspecified, message := "a", cause := some 1, context := some 1,
           suppressContext := true }
  | 1 => { cls := .foreign "B", message := "b", cause := some 0, suppressContext := true }

theorem rewrapped_returns : Returns rewrapped.causes 0 := ⟨0, .refl, .head (b := 1) rfl (.single rfl)⟩

/-- The stack of a thousand calls overflows, and so does any other. -/
theorem rewrapped_overflows : rewrapped.serializeFailure echoConverter 1000 0 = .error stackOverflow ∧
    ¬ ∃ frames e, rewrapped.serializeFailure echoConverter frames 0 = .ok e := by
  have hencodes : ∀ j, Leads rewrapped.causes 0 j → rewrapped.Encodes echoConverter j
    | 0, _ => ⟨_, rfl⟩
    | 1, _ => ⟨_, rfl⟩
  refine ⟨serializeFailure_cycle rewrapped_returns hencodes 1000, ?_⟩
  rintro ⟨frames, e, he⟩
  rw [serializeFailure_cycle rewrapped_returns hencodes frames] at he
  cases he

end ExceptionGraph

end Dbosify
