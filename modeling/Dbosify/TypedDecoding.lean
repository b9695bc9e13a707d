/-
Which values a type hint restores.

`value_to_type` goes by the JSON form alone: a union's first alternative that
takes it decides (`accepts_iff` says what is taken), whatever alternative the
value was of.
-/
import Mathlib.Data.List.Forall2
import Dbosify.TypeHints

namespace Dbosify.Typed

open Py (Json)

theorem exists_forall₂ {α β : Type} {R : α → β → Prop} {as : List α} :
    (∃ bs, List.Forall₂ R as bs) ↔ ∀ a ∈ as, ∃ b, R a b := by
  induction as with
  | nil => simp
  | cons a as ih =>
    rw [List.forall_mem_cons, ← ih]
    constructor
    · rintro ⟨bs, hbs⟩
      cases hbs with
      | cons hab hrest => exact ⟨⟨_, hab⟩, _, hrest⟩
    · rintro ⟨⟨b, hab⟩, bs, hrest⟩
      exact ⟨b :: bs, .cons hab hrest⟩

theorem mapError_eq_ok {ε ε' α : Type} {x : Except ε α} {f : ε → ε'} {a : α} : x.mapError f = .ok a ↔ x = .ok a := by
  cases x with
  | error e => simp [Except.mapError]
  | ok b => simp [Except.mapError]

variable {F D : Type} {s : Scalars F D} {classes : Classes F D}

/-! ## What each function returns -/

theorem firstOf_eq_ok {union : TypeHint} {hs : List TypeHint} {j : Json F} {w : PyValue F D} :
    firstOf s classes union hs j = .ok w ↔
      ∃ as a bs, hs = as ++ a :: bs ∧ (∀ b ∈ as, ∀ u, valueToType s classes b j ≠ .ok u) ∧
        valueToType s classes a j = .ok w := by
  induction hs with
  | nil =>
    rw [firstOf]
    simp
  | cons h hs ih =>
    rw [firstOf]
    cases hv : valueToType s classes h j with
    | ok v =>
      constructor
      · intro hw
        exact ⟨[], h, hs, rfl, fun _ hb => absurd hb List.not_mem_nil, hv.trans hw⟩
      · rintro ⟨as, a, bs, heq, hnone, hw⟩
        cases as with
        | nil =>
          cases heq
          exact hv.symm.trans hw
        | cons b as =>
          cases heq
          exact absurd hv (hnone _ List.mem_cons_self v)
    | error e =>
      dsimp only
      rw [ih]
      constructor
      · rintro ⟨as, a, bs, rfl, hnone, hw⟩
        refine ⟨h :: as, a, bs, rfl, List.forall_mem_cons.2 ⟨fun u hu => ?_, hnone⟩, hw⟩
        rw [hv] at hu
        cases hu
      · rintro ⟨as, a, bs, heq, hnone, hw⟩
        cases as with
        | nil =>
          cases heq
          rw [hv] at hw
          cases hw
        | cons b as =>
          cases heq
          exact ⟨as, a, bs, rfl, fun b hb => hnone b (List.mem_cons_of_mem _ hb), hw⟩

theorem exists_firstOf {union : TypeHint} {hs : List TypeHint} {j : Json F} :
    (∃ w, firstOf s classes union hs j = .ok w) ↔ ∃ a ∈ hs, ∃ w, valueToType s classes a j = .ok w := by
  induction hs with
  | nil =>
    rw [firstOf]
    simp
  | cons h hs ih =>
    rw [firstOf]
    cases hv : valueToType s classes h j with
    | ok v => exact ⟨fun _ => ⟨h, List.mem_cons_self, v, hv⟩, fun _ => ⟨v, rfl⟩⟩
    | error e =>
      dsimp only
      rw [ih]
      simp [hv]

theorem convertItems_eq_ok {hint h : TypeHint} {i : Nat} {js : List (Json F)} {ws : List (PyValue F D)} :
    convertItems s classes hint h i js = .ok ws ↔ List.Forall₂ (fun j w => valueToType s classes h j = .ok w) js ws := by
  induction js generalizing i ws with
  | nil =>
    rw [convertItems, List.forall₂_nil_left_iff, Except.ok.injEq]
    exact eq_comm
  | cons j js ih =>
    simp only [convertItems, bind_eq_ok, mapError_eq_ok, ih, List.forall₂_cons_left_iff, Except.ok.injEq]
    constructor
    · rintro ⟨v, hv, vs, hvs, heq⟩
      exact ⟨v, vs, hv, hvs, heq.symm⟩
    · rintro ⟨v, vs, hv, hvs, heq⟩
      exact ⟨v, hv, vs, hvs, heq.symm⟩

theorem convertTuple_eq_ok {all hs : List TypeHint} {i : Nat} {js : List (Json F)} {ws : List (PyValue F D)} :
    convertTuple s classes all hs i js = .ok ws ↔
      js.length ≤ hs.length ∧ List.Forall₂ (fun p w => valueToType s classes p.1 p.2 = .ok w) (hs.zip js) ws := by
  induction js generalizing hs i ws with
  | nil =>
    rw [convertTuple, List.zip_nil_right, List.forall₂_nil_left_iff, Except.ok.injEq]
    simp [eq_comm]
  | cons j js ih =>
    cases hs with
    | nil =>
      rw [convertTuple]
      simp
    | cons h hs =>
      simp only [convertTuple, bind_eq_ok, mapError_eq_ok, ih, List.zip_cons_cons, List.forall₂_cons_left_iff,
        Except.ok.injEq, List.length_cons, Nat.succ_le_succ_iff]
      constructor
      · rintro ⟨v, hv, vs, ⟨hlen, hvs⟩, heq⟩
        exact ⟨hlen, v, vs, hv, hvs, heq.symm⟩
      · rintro ⟨hlen, v, vs, hv, hvs, heq⟩
        exact ⟨v, hv, vs, ⟨hlen, hvs⟩, heq.symm⟩

theorem convertValues_eq_ok {hint h : TypeHint} {es : List (String × Json F)} {ws : List (String × PyValue F D)} :
    convertValues s classes hint h es = .ok ws ↔
      List.Forall₂ (fun e w => w.1 = e.1 ∧ valueToType s classes h e.2 = .ok w.2) es ws := by
  induction es generalizing ws with
  | nil =>
    rw [convertValues, List.forall₂_nil_left_iff, Except.ok.injEq]
    exact eq_comm
  | cons e es ih =>
    obtain ⟨k, j⟩ := e
    simp only [convertValues, bind_eq_ok, mapError_eq_ok, ih, List.forall₂_cons_left_iff, Except.ok.injEq]
    constructor
    · rintro ⟨v, hv, vs, hvs, rfl⟩
      exact ⟨(k, v), vs, ⟨rfl, hv⟩, hvs, rfl⟩
    · rintro ⟨⟨k', v⟩, vs, ⟨rfl, hv⟩, hvs, rfl⟩
      exact ⟨v, hv, vs, hvs, rfl⟩

/-- What a field is read as: converted if it is there. -/
def Reads (s : Scalars F D) (classes : Classes F D) (es : List (String × Json F)) (f : Field F D)
    (value : Option (PyValue F D)) : Prop :=
  match es.lookup f.name with
  | some j => ∃ w, valueToType s classes f.hint j = .ok w ∧ value = some w
  | none => value = none

theorem convertFields_eq_ok {cls : String} {fs : List (Field F D)} {es : List (String × Json F)}
    {ws : List (Field F D × Option (PyValue F D))} :
    convertFields s classes cls fs es = .ok ws ↔
      List.Forall₂ (fun f w => w.1 = f ∧ Reads s classes es f w.2) fs ws := by
  induction fs generalizing ws with
  | nil =>
    rw [convertFields, List.forall₂_nil_left_iff, Except.ok.injEq]
    exact eq_comm
  | cons f fs ih =>
    rw [convertFields, List.forall₂_cons_left_iff]
    split
    · next j hj =>
      simp only [bind_eq_ok, mapError_eq_ok, ih, Except.ok.injEq, Reads, hj]
      constructor
      · rintro ⟨v, hv, vs, hvs, rfl⟩
        exact ⟨(f, some v), vs, ⟨rfl, v, hv, rfl⟩, hvs, rfl⟩
      · rintro ⟨⟨f', _⟩, vs, ⟨rfl, v, hv, rfl⟩, hvs, rfl⟩
        exact ⟨v, hv, vs, hvs, rfl⟩
    · next hj =>
      simp only [bind_eq_ok, ih, Except.ok.injEq, Reads, hj]
      constructor
      · rintro ⟨vs, hvs, rfl⟩
        exact ⟨(f, none), vs, ⟨rfl, rfl⟩, hvs, rfl⟩
      · rintro ⟨⟨f', _⟩, vs, ⟨rfl, rfl⟩, hvs, rfl⟩
        exact ⟨vs, hvs, rfl⟩

/-- A call gives no value to a field outside `__init__`, and one to each field
in it that has no default. -/
theorem construct_eq_ok {cls : String} {vs : List (Field F D × Option (PyValue F D))} {w : PyValue F D} :
    construct cls vs = .ok w ↔
      (∀ p ∈ vs, p.2.isSome = true → p.1.init = true) ∧
        (∀ p ∈ vs, p.2 = none → p.1.init = true → p.1.default.isSome = true) ∧
        w = .object cls (vs.filterMap fun p => (p.2.or p.1.default).map fun v => (p.1.name, v)) := by
  rw [construct]
  split
  · next p hp =>
    have hmem := List.mem_of_find?_eq_some hp
    have hbad := List.find?_some hp
    simp only [Bool.and_eq_true, Bool.not_eq_true'] at hbad
    refine ⟨fun h => (by cases h), fun h => ?_⟩
    rw [h.1 p hmem hbad.2] at hbad
    cases hbad.1
  · next hgiven =>
    simp only [List.find?_eq_none, Bool.and_eq_true, Bool.not_eq_true', not_and] at hgiven
    split
    · next p hp =>
      have hmem := List.mem_of_find?_eq_some hp
      have hbad := List.find?_some hp
      simp only [Bool.and_eq_true, Option.isNone_iff_eq_none] at hbad
      refine ⟨fun h => (by cases h), fun h => ?_⟩
      have hsome := h.2.1 p hmem hbad.1.2 hbad.1.1
      rw [hbad.2] at hsome
      cases hsome
    · next hmissing =>
      simp only [List.find?_eq_none, Bool.and_eq_true, Option.isNone_iff_eq_none, not_and] at hmissing
      rw [Except.ok.injEq]
      constructor
      · rintro rfl
        refine ⟨fun p hp hv => ?_, fun p hp hv hi => ?_, rfl⟩
        · cases hi : p.1.init with
          | true => rfl
          | false => exact absurd hv (hgiven p hp hi)
        · cases hd : p.1.default with
          | some d => rfl
          | none => exact absurd hd (hmissing p hp ⟨hi, hv⟩)
      · exact fun h => h.2.2.symm

/-! ## What each hint makes -/

theorem valueToType_union {hs : List TypeHint} {j : Json F} {w : PyValue F D} :
    valueToType s classes (.union hs) j = .ok w ↔
      ∃ as a bs, hs = as ++ a :: bs ∧ (∀ b ∈ as, ∀ u, valueToType s classes b j ≠ .ok u) ∧
        valueToType s classes a j = .ok w := by
  rw [valueToType_firstOf, firstOf_eq_ok]

theorem valueToType_list {h : TypeHint} {j : Json F} {w : PyValue F D} :
    valueToType s classes (.list h) j = .ok w ↔
      ∃ js ws, iterate j = some js ∧ List.Forall₂ (fun i u => valueToType s classes h i = .ok u) js ws ∧ w = .list ws := by
  rw [valueToType]
  split
  · next js hj =>
    simp only [except_map_eq_ok, convertItems_eq_ok, hj, Option.some.injEq]
    constructor
    · rintro ⟨ws, hws, rfl⟩
      exact ⟨js, ws, rfl, hws, rfl⟩
    · rintro ⟨_, ws, rfl, hws, rfl⟩
      exact ⟨ws, hws, rfl⟩
  · next hj => simp [hj]

theorem valueToType_tupleOf {h : TypeHint} {j : Json F} {w : PyValue F D} :
    valueToType s classes (.tupleOf h) j = .ok w ↔
      ∃ js ws, iterate j = some js ∧ List.Forall₂ (fun i u => valueToType s classes h i = .ok u) js ws ∧ w = .tuple ws := by
  rw [valueToType]
  split
  · next js hj =>
    simp only [except_map_eq_ok, convertItems_eq_ok, hj, Option.some.injEq]
    constructor
    · rintro ⟨ws, hws, rfl⟩
      exact ⟨js, ws, rfl, hws, rfl⟩
    · rintro ⟨_, ws, rfl, hws, rfl⟩
      exact ⟨ws, hws, rfl⟩
  · next hj => simp [hj]

theorem valueToType_unit {j : Json F} {w : PyValue F D} :
    valueToType s classes (.tuple []) j = .ok w ↔ ∃ js, iterate j = some js ∧ w = .tuple (rawItems js) := by
  rw [valueToType]
  split
  · next js hj => simp [hj, eq_comm]
  · next hj => simp [hj]

theorem valueToType_tuple {hs : List TypeHint} (hne : hs ≠ []) {j : Json F} {w : PyValue F D} :
    valueToType s classes (.tuple hs) j = .ok w ↔
      ∃ js ws, iterate j = some js ∧ js.length ≤ hs.length ∧
        List.Forall₂ (fun p u => valueToType s classes p.1 p.2 = .ok u) (hs.zip js) ws ∧ w = .tuple ws := by
  obtain ⟨h, hs, rfl⟩ := List.exists_cons_of_ne_nil hne
  rw [valueToType]
  split
  · next js hj =>
    simp only [except_map_eq_ok, convertTuple_eq_ok, hj, Option.some.injEq]
    constructor
    · rintro ⟨ws, ⟨hlen, hws⟩, rfl⟩
      exact ⟨js, ws, rfl, hlen, hws, rfl⟩
    · rintro ⟨_, ws, rfl, hlen, hws, rfl⟩
      exact ⟨ws, ⟨hlen, hws⟩, rfl⟩
  · next hj => simp [hj]

theorem valueToType_dict_raw {j : Json F} {w : PyValue F D} :
    valueToType s classes (.dict .bareNone) j = .ok w ↔ ∃ es, j = .obj es ∧ w = .dict (rawEntries es) := by
  cases j with
  | obj es =>
    rw [valueToType]
    simp [eq_comm]
  | null | bool | int | float | str | arr => simp [valueToType]

theorem valueToType_dict {h : TypeHint} (hne : h ≠ .bareNone) {j : Json F} {w : PyValue F D} :
    valueToType s classes (.dict h) j = .ok w ↔
      ∃ es ws, j = .obj es ∧ List.Forall₂ (fun e u => u.1 = e.1 ∧ valueToType s classes h e.2 = .ok u.2) es ws ∧
        w = .dict ws := by
  cases j with
  | obj es =>
    rw [valueToType]
    swap
    · exact hne
    simp only [except_map_eq_ok, convertValues_eq_ok, Json.obj.injEq]
    constructor
    · rintro ⟨ws, hws, rfl⟩
      exact ⟨es, ws, rfl, hws, rfl⟩
    · rintro ⟨_, ws, rfl, hws, rfl⟩
      exact ⟨ws, hws, rfl⟩
  | null | bool | int | float | str | arr => simp [valueToType]

theorem valueToType_dataclass {c : String} {j : Json F} {w : PyValue F D} :
    valueToType s classes (.dataclass c) j = .ok w ↔
      ∃ es vs, j = .obj es ∧ List.Forall₂ (fun f u => u.1 = f ∧ Reads s classes es f u.2) (classes.fields c) vs ∧
        construct c vs = .ok w := by
  cases j with
  | obj es =>
    rw [valueToType]
    simp only [bind_eq_ok, convertFields_eq_ok, Json.obj.injEq]
    constructor
    · rintro ⟨vs, hvs, hw⟩
      exact ⟨es, vs, rfl, hvs, hw⟩
    · rintro ⟨_, vs, rfl, hvs, hw⟩
      exact ⟨vs, hvs, hw⟩
  | null | bool | int | float | str | arr => simp [valueToType]

/-! ## What a hint takes -/

/-- The JSON that a hint takes. An `int` or a `float` takes every number and
`bool`; a sequence takes whatever can be gone through, a tuple also with fewer
items than hints; a dataclass ignores what it has no field for. -/
inductive Accepts (s : Scalars F D) (classes : Classes F D) : TypeHint → Json F → Prop
  | none : Accepts s classes .none .null
  | bool (b : Bool) : Accepts s classes .bool (.bool b)
  | int_bool (b : Bool) : Accepts s classes .int (.bool b)
  | int (n : Int) : Accepts s classes .int (.int n)
  | int_float {x : F} (hx : (s.truncate x).isSome = true) : Accepts s classes .int (.float x)
  | float_bool {b : Bool} (hb : (s.ofInt (if b then 1 else 0)).isSome = true) : Accepts s classes .float (.bool b)
  | float_int {n : Int} (hn : (s.ofInt n).isSome = true) : Accepts s classes .float (.int n)
  | float (x : F) : Accepts s classes .float (.float x)
  | str (t : String) : Accepts s classes .str (.str t)
  | datetime {t : String} (ht : (s.fromisoformat t).isSome = true) : Accepts s classes .datetime (.str t)
  | union {hs : List TypeHint} {a : TypeHint} {j : Json F} (ha : a ∈ hs) (hj : Accepts s classes a j) :
      Accepts s classes (.union hs) j
  | list {h : TypeHint} {j : Json F} {js : List (Json F)} (hj : iterate j = some js)
      (hjs : ∀ i ∈ js, Accepts s classes h i) : Accepts s classes (.list h) j
  | tupleOf {h : TypeHint} {j : Json F} {js : List (Json F)} (hj : iterate j = some js)
      (hjs : ∀ i ∈ js, Accepts s classes h i) : Accepts s classes (.tupleOf h) j
  | unit {j : Json F} {js : List (Json F)} (hj : iterate j = some js) : Accepts s classes (.tuple []) j
  | tuple {hs : List TypeHint} {j : Json F} {js : List (Json F)} (hne : hs ≠ []) (hj : iterate j = some js)
      (hlen : js.length ≤ hs.length) (hjs : ∀ p ∈ hs.zip js, Accepts s classes p.1 p.2) : Accepts s classes (.tuple hs) j
  | dict_raw (es : List (String × Json F)) : Accepts s classes (.dict .bareNone) (.obj es)
  | dict {h : TypeHint} {es : List (String × Json F)} (hne : h ≠ .bareNone) (hes : ∀ e ∈ es, Accepts s classes h e.2) :
      Accepts s classes (.dict h) (.obj es)
  | dataclass {c : String} {es : List (String × Json F)}
      (hinit : ∀ f ∈ classes.fields c, ∀ j, es.lookup f.name = some j → f.init = true)
      (hgiven : ∀ f ∈ classes.fields c, ∀ j, es.lookup f.name = some j → Accepts s classes f.hint j)
      (hmissing : ∀ f ∈ classes.fields c, es.lookup f.name = none → f.init = true → f.default.isSome = true) :
      Accepts s classes (.dataclass c) (.obj es)

/-- By the depth of the JSON, and for the same depth by the hint. -/
theorem hint_json_induct {P : TypeHint → Json F → Prop}
    (step : ∀ h j, (∀ h' j', depth j' < depth j ∨ depth j' ≤ depth j ∧ sizeOf h' < sizeOf h → P h' j') → P h j)
    (h : TypeHint) (j : Json F) : P h j :=
  step h j fun h' j' _ => hint_json_induct step h' j'
termination_by (depth j, sizeOf h)
decreasing_by
  simp only [Prod.lex_def]
  omega

theorem exists_construct {c : String} {vs : List (Field F D × Option (PyValue F D))} :
    (∃ w, construct c vs = .ok w) ↔
      (∀ p ∈ vs, p.2.isSome = true → p.1.init = true) ∧
        ∀ p ∈ vs, p.2 = none → p.1.init = true → p.1.default.isSome = true := by
  simp only [construct_eq_ok]
  exact ⟨fun ⟨_, hi, hm, _⟩ => ⟨hi, hm⟩, fun ⟨hi, hm⟩ => ⟨_, hi, hm, rfl⟩⟩

/-- A class is built from the fields that are there. -/
theorem exists_fields {es : List (String × Json F)} {fs : List (Field F D)} :
    (∃ vs : List (Field F D × Option (PyValue F D)),
      List.Forall₂ (fun f u => u.1 = f ∧ Reads s classes es f u.2) fs vs ∧
        (∀ p ∈ vs, p.2.isSome = true → p.1.init = true) ∧
        ∀ p ∈ vs, p.2 = none → p.1.init = true → p.1.default.isSome = true) ↔
      (∀ f ∈ fs, ∀ j, es.lookup f.name = some j → f.init = true) ∧
        (∀ f ∈ fs, ∀ j, es.lookup f.name = some j → ∃ w, valueToType s classes f.hint j = .ok w) ∧
        ∀ f ∈ fs, es.lookup f.name = none → f.init = true → f.default.isSome = true := by
  induction fs with
  | nil => simp
  | cons f fs ih =>
    simp only [List.forall_mem_cons, List.forall₂_cons_left_iff] at ih ⊢
    cases hj : es.lookup f.name with
    | none =>
      simp only [Reads, hj] at ih ⊢
      constructor
      · rintro ⟨_, ⟨⟨f', _⟩, vs, ⟨rfl, rfl⟩, hvs, rfl⟩, hi, hm⟩
        rw [List.forall_mem_cons] at hi hm
        obtain ⟨hi', hg', hm'⟩ := ih.1 ⟨vs, hvs, hi.2, hm.2⟩
        exact ⟨⟨fun _ h => by simp at h, hi'⟩, ⟨fun _ h => by simp at h, hg'⟩, fun _ => hm.1 rfl, hm'⟩
      · rintro ⟨⟨-, hi⟩, ⟨-, hg⟩, hmf, hm⟩
        obtain ⟨vs, hvs, hi', hm'⟩ := ih.2 ⟨hi, hg, hm⟩
        exact ⟨_, ⟨(f, none), vs, ⟨rfl, rfl⟩, hvs, rfl⟩, List.forall_mem_cons.2 ⟨fun h => by simp at h, hi'⟩,
          List.forall_mem_cons.2 ⟨fun _ => hmf trivial, hm'⟩⟩
    | some j =>
      simp only [Reads, hj] at ih ⊢
      constructor
      · rintro ⟨_, ⟨⟨f', _⟩, vs, ⟨rfl, w, hw, rfl⟩, hvs, rfl⟩, hi, hm⟩
        rw [List.forall_mem_cons] at hi hm
        obtain ⟨hi', hg', hm'⟩ := ih.1 ⟨vs, hvs, hi.2, hm.2⟩
        refine ⟨⟨fun _ _ => hi.1 rfl, hi'⟩, ⟨fun i h => ?_, hg'⟩, fun h => by simp at h, hm'⟩
        cases h
        exact ⟨w, hw⟩
      · rintro ⟨⟨hif, hi⟩, ⟨hgf, hg⟩, -, hm⟩
        obtain ⟨vs, hvs, hi', hm'⟩ := ih.2 ⟨hi, hg, hm⟩
        obtain ⟨w, hw⟩ := hgf j rfl
        exact ⟨_, ⟨(f, some w), vs, ⟨rfl, w, hw, rfl⟩, hvs, rfl⟩, List.forall_mem_cons.2 ⟨fun _ => hif j rfl, hi'⟩,
          List.forall_mem_cons.2 ⟨fun h => by simp at h, hm'⟩⟩

theorem exists_toInt {j : Json F} : (∃ w, toInt s j = .ok (w : PyValue F D)) ↔ Accepts s classes .int j := by
  constructor
  · rintro ⟨w, hw⟩
    cases j with
    | bool b => exact .int_bool b
    | int n => exact .int n
    | float x =>
      refine .int_float ?_
      rw [toInt] at hw
      cases hx : s.truncate x with
      | none =>
        rw [hx] at hw
        cases hw
      | some n => rfl
    | null | str | arr | obj => cases hw
  · intro h
    cases h with
    | int_bool b => exact ⟨_, rfl⟩
    | int n => exact ⟨_, rfl⟩
    | int_float hx =>
      obtain ⟨n, hn⟩ := Option.isSome_iff_exists.1 hx
      exact ⟨.int n, by rw [toInt, hn]⟩

theorem exists_toFloatOf {n : Int} : (∃ w, toFloatOf s n = .ok (w : PyValue F D)) ↔ (s.ofInt n).isSome = true := by
  rw [toFloatOf]
  cases s.ofInt n with
  | none => simp
  | some x => simp

theorem exists_toFloat {j : Json F} : (∃ w, toFloat s j = .ok (w : PyValue F D)) ↔ Accepts s classes .float j := by
  constructor
  · rintro ⟨w, hw⟩
    cases j with
    | bool b => exact .float_bool (exists_toFloatOf.1 ⟨w, hw⟩)
    | int n => exact .float_int (exists_toFloatOf.1 ⟨w, hw⟩)
    | float x => exact .float x
    | null | str | arr | obj => cases hw
  · intro h
    cases h with
    | float_bool hb => exact exists_toFloatOf.2 hb
    | float_int hn => exact exists_toFloatOf.2 hn
    | float x => exact ⟨_, rfl⟩

theorem exists_toDatetime {j : Json F} : (∃ w, toDatetime s j = .ok (w : PyValue F D)) ↔ Accepts s classes .datetime j := by
  constructor
  · rintro ⟨w, hw⟩
    cases j with
    | str t =>
      refine .datetime ?_
      rw [toDatetime] at hw
      cases ht : s.fromisoformat t with
      | none =>
        rw [ht] at hw
        cases hw
      | some d => rfl
    | null | bool | int | float | arr | obj => cases hw
  · intro h
    cases h with
    | datetime ht =>
      obtain ⟨d, hd⟩ := Option.isSome_iff_exists.1 ht
      exact ⟨.datetime d, by rw [toDatetime, hd]⟩

/-- **A hint does not raise on exactly the JSON it takes.** -/
theorem accepts_iff (h : TypeHint) (j : Json F) :
    (∃ w, valueToType s classes h j = .ok w) ↔ Accepts s classes h j := by
  induction h, j using hint_json_induct with
  | step h j ih =>
  cases h with
  | none =>
    constructor
    · rintro ⟨w, hw⟩
      cases j with
      | null => exact .none
      | bool | int | float | str | arr | obj => simp [valueToType] at hw
    · rintro ⟨⟩
      exact ⟨.none, by rw [valueToType]⟩
  | bareNone =>
    constructor
    · rintro ⟨w, hw⟩
      simp [valueToType] at hw
    · rintro ⟨⟩
  | bool =>
    constructor
    · rintro ⟨w, hw⟩
      cases j with
      | bool b => exact .bool b
      | null | int | float | str | arr | obj => simp [valueToType] at hw
    · intro h
      cases h with
      | bool b => exact ⟨.bool b, by rw [valueToType]⟩
  | int =>
    simp only [valueToType]
    exact exists_toInt
  | float =>
    simp only [valueToType]
    exact exists_toFloat
  | str =>
    constructor
    · rintro ⟨w, hw⟩
      cases j with
      | str t => exact .str t
      | null | bool | int | float | arr | obj => simp [valueToType] at hw
    · intro h
      cases h with
      | str t => exact ⟨.str t, by rw [valueToType]⟩
  | datetime =>
    simp only [valueToType]
    exact exists_toDatetime
  | union hs =>
    have iha : ∀ a ∈ hs, (∃ w, valueToType s classes a j = .ok w) ↔ Accepts s classes a j := fun a ha =>
      ih a j (.inr ⟨Nat.le_refl _, by
        have := List.sizeOf_lt_of_mem ha
        simp only [TypeHint.union.sizeOf_spec]
        omega⟩)
    rw [valueToType, exists_firstOf]
    constructor
    · rintro ⟨a, ha, hw⟩
      exact .union ha ((iha a ha).1 hw)
    · intro h
      cases h with
      | union ha hj => exact ⟨_, ha, (iha _ ha).2 hj⟩
  | list h =>
    have ihi : ∀ {js}, iterate j = some js → ∀ i ∈ js,
        ((∃ w, valueToType s classes h i = .ok w) ↔ Accepts s classes h i) := fun hj i hi =>
      ih h i (.inr ⟨Nat.le_trans (depth_le_items hi) (depth_iterate hj), by
        simp only [TypeHint.list.sizeOf_spec]
        omega⟩)
    constructor
    · rintro ⟨w, hw⟩
      obtain ⟨js, ws, hj, hws, -⟩ := valueToType_list.1 hw
      exact .list hj fun i hi => (ihi hj i hi).1 (exists_forall₂.1 ⟨ws, hws⟩ i hi)
    · intro h
      cases h with
      | list hj hjs =>
        obtain ⟨ws, hws⟩ := exists_forall₂.2 fun i hi => (ihi hj i hi).2 (hjs i hi)
        exact ⟨_, valueToType_list.2 ⟨_, ws, hj, hws, rfl⟩⟩
  | tuple hs =>
    by_cases hne : hs = []
    · subst hne
      constructor
      · rintro ⟨w, hw⟩
        obtain ⟨js, hj, -⟩ := valueToType_unit.1 hw
        exact .unit hj
      · intro h
        cases h with
        | unit hj => exact ⟨_, valueToType_unit.2 ⟨_, hj, rfl⟩⟩
        | tuple hne => exact absurd rfl hne
    · have ihp : ∀ {js}, iterate j = some js → ∀ p ∈ hs.zip js,
          ((∃ w, valueToType s classes p.1 p.2 = .ok w) ↔ Accepts s classes p.1 p.2) := fun hj p hp =>
        ih p.1 p.2 (.inr ⟨Nat.le_trans (depth_le_items (List.of_mem_zip hp).2) (depth_iterate hj), by
          have := List.sizeOf_lt_of_mem (List.of_mem_zip hp).1
          simp only [TypeHint.tuple.sizeOf_spec]
          omega⟩)
      constructor
      · rintro ⟨w, hw⟩
        obtain ⟨js, ws, hj, hlen, hws, -⟩ := (valueToType_tuple hne).1 hw
        exact .tuple hne hj hlen fun p hp => (ihp hj p hp).1 (exists_forall₂.1 ⟨ws, hws⟩ p hp)
      · intro h
        cases h with
        | unit => exact absurd rfl hne
        | tuple _ hj hlen hjs =>
          obtain ⟨ws, hws⟩ := exists_forall₂.2 fun p hp => (ihp hj p hp).2 (hjs p hp)
          exact ⟨_, (valueToType_tuple hne).2 ⟨_, ws, hj, hlen, hws, rfl⟩⟩
  | tupleOf h =>
    have ihi : ∀ {js}, iterate j = some js → ∀ i ∈ js,
        ((∃ w, valueToType s classes h i = .ok w) ↔ Accepts s classes h i) := fun hj i hi =>
      ih h i (.inr ⟨Nat.le_trans (depth_le_items hi) (depth_iterate hj), by
        simp only [TypeHint.tupleOf.sizeOf_spec]
        omega⟩)
    constructor
    · rintro ⟨w, hw⟩
      obtain ⟨js, ws, hj, hws, -⟩ := valueToType_tupleOf.1 hw
      exact .tupleOf hj fun i hi => (ihi hj i hi).1 (exists_forall₂.1 ⟨ws, hws⟩ i hi)
    · intro h
      cases h with
      | tupleOf hj hjs =>
        obtain ⟨ws, hws⟩ := exists_forall₂.2 fun i hi => (ihi hj i hi).2 (hjs i hi)
        exact ⟨_, valueToType_tupleOf.2 ⟨_, ws, hj, hws, rfl⟩⟩
  | dict h =>
    by_cases hne : h = .bareNone
    · subst hne
      constructor
      · rintro ⟨w, hw⟩
        obtain ⟨es, rfl, -⟩ := valueToType_dict_raw.1 hw
        exact .dict_raw es
      · intro h
        cases h with
        | dict_raw es => exact ⟨_, valueToType_dict_raw.2 ⟨es, rfl, rfl⟩⟩
        | dict hne => exact absurd rfl hne
    · have ihe : ∀ {es}, j = .obj es → ∀ e ∈ es,
          ((∃ w, valueToType s classes h e.2 = .ok w) ↔ Accepts s classes h e.2) := fun hj e he =>
        ih h e.2 (.inl (hj ▸ Nat.lt_succ_of_le (depth_le_entries he)))
      constructor
      · rintro ⟨w, hw⟩
        obtain ⟨es, ws, rfl, hws, -⟩ := (valueToType_dict hne).1 hw
        refine .dict hne fun e he => (ihe rfl e he).1 ?_
        obtain ⟨u, -, hu⟩ := exists_forall₂.1 ⟨ws, hws⟩ e he
        exact ⟨u.2, hu⟩
      · intro h
        cases h with
        | dict_raw => exact absurd rfl hne
        | dict _ hes =>
          have hone : ∀ e : String × Json F, (∃ w, valueToType s classes h e.2 = .ok w) →
              ∃ w : String × PyValue F D, w.1 = e.1 ∧ valueToType s classes h e.2 = .ok w.2 := by
            rintro e ⟨u, hu⟩
            exact ⟨(e.1, u), rfl, hu⟩
          obtain ⟨ws, hws⟩ := exists_forall₂.2 fun e he => hone e ((ihe rfl e he).2 (hes e he))
          exact ⟨_, (valueToType_dict hne).2 ⟨_, ws, rfl, hws, rfl⟩⟩
  | dataclass c =>
    have ihf : ∀ {es}, j = .obj es → ∀ f ∈ classes.fields c, ∀ i, es.lookup f.name = some i →
        ((∃ w, valueToType s classes f.hint i = .ok w) ↔ Accepts s classes f.hint i) := fun hj f _ i hi =>
      ih f.hint i (.inl (hj ▸ Nat.lt_succ_of_le (depth_le_entries (mem_of_lookup hi))))
    constructor
    · rintro ⟨w, hw⟩
      obtain ⟨es, vs, rfl, hvs, hc⟩ := valueToType_dataclass.1 hw
      obtain ⟨hi, hg, hm⟩ := exists_fields.1 ⟨vs, hvs, exists_construct.1 ⟨w, hc⟩⟩
      exact .dataclass hi (fun f hf i hl => (ihf rfl f hf i hl).1 (hg f hf i hl)) hm
    · intro h
      cases h with
      | dataclass hi hg hm =>
        obtain ⟨vs, hvs, hc⟩ := exists_fields.2 ⟨hi, fun f hf i hl => (ihf rfl f hf i hl).2 (hg f hf i hl), hm⟩
        obtain ⟨w, hw⟩ := exists_construct.2 hc
        exact ⟨w, valueToType_dataclass.2 ⟨_, vs, rfl, hvs, hw⟩⟩

end Dbosify.Typed
