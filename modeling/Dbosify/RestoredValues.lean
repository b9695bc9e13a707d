/-
Which values come back from their payload with their type hint.

The payload of a value says nothing of its types, and an alternative of a union
takes every JSON form it can make something of. So a value is restored exactly
where, at each union above it, the first alternative that takes its JSON form
is one that restores it (`Restores`).
-/
import Dbosify.TypedDecoding

namespace Dbosify.Typed

open Py (Json)

variable {F D : Type} {s : Scalars F D} {classes : Classes F D}

/-! ## Values up to the order of dicts -/

mutual

/-- The keys of all its dicts in order. -/
def sorted : PyValue F D → PyValue F D
  | .list vs => .list (sortedItems vs)
  | .tuple vs => .tuple (sortedItems vs)
  | .dict es => .dict (Keyed.sort Prod.fst (sortedEntries es))
  | .object c es => .object c (sortedEntries es)
  | v => v

def sortedItems : List (PyValue F D) → List (PyValue F D)
  | [] => []
  | v :: vs => sorted v :: sortedItems vs

def sortedEntries : List (String × PyValue F D) → List (String × PyValue F D)
  | [] => []
  | (k, v) :: es => (k, sorted v) :: sortedEntries es

end

/-- Equal, and of the same type at every position: dicts do not care for the
order of their entries. -/
def Same (v w : PyValue F D) : Prop := sorted v = sorted w

/-- A value as its JSON is read: its dicts, and its objects' dicts, in the order
of their keys. -/
def wire (s : Scalars F D) (v : PyValue F D) : Json F := (toJson s v).sorted

theorem sortedItems_eq (vs : List (PyValue F D)) : sortedItems vs = vs.map sorted := by
  induction vs with
  | nil => rfl
  | cons v vs ih => exact congrArg (sorted v :: ·) ih

theorem sortedEntries_eq (es : List (String × PyValue F D)) : sortedEntries es = es.map fun e => (e.1, sorted e.2) := by
  induction es with
  | nil => rfl
  | cons e es ih => exact congrArg ((e.1, sorted e.2) :: ·) ih

theorem jsonItems_eq (vs : List (PyValue F D)) : jsonItems s vs = vs.map (toJson s) := by
  induction vs with
  | nil => rfl
  | cons v vs ih => exact congrArg (toJson s v :: ·) ih

theorem jsonEntries_eq (es : List (String × PyValue F D)) : jsonEntries s es = es.map fun e => (e.1, toJson s e.2) := by
  induction es with
  | nil => rfl
  | cons e es ih => exact congrArg ((e.1, toJson s e.2) :: ·) ih

theorem rawItems_eq (js : List (Json F)) : (rawItems js : List (PyValue F D)) = js.map raw := by
  induction js with
  | nil => rfl
  | cons j js ih => exact congrArg (raw j :: ·) ih

theorem rawEntries_eq (es : List (String × Json F)) :
    (rawEntries es : List (String × PyValue F D)) = es.map fun e => (e.1, raw e.2) := by
  induction es with
  | nil => rfl
  | cons e es ih => exact congrArg ((e.1, raw e.2) :: ·) ih

@[simp] theorem sorted_none : sorted (.none : PyValue F D) = .none := rfl

@[simp] theorem sorted_bool (b : Bool) : sorted (.bool b : PyValue F D) = .bool b := rfl

@[simp] theorem sorted_int (n : Int) : sorted (.int n : PyValue F D) = .int n := rfl

@[simp] theorem sorted_float (x : F) : sorted (.float x : PyValue F D) = .float x := rfl

@[simp] theorem sorted_str (t : String) : sorted (.str t : PyValue F D) = .str t := rfl

@[simp] theorem sorted_datetime (d : D) : sorted (.datetime d : PyValue F D) = .datetime d := rfl

/-- The keys are in the order, whatever is at them. -/
theorem sort_entries {α β : Type} (f : α → β) (es : List (String × α)) :
    Keyed.sort Prod.fst (es.map fun e => (e.1, f e.2)) = (Keyed.sort Prod.fst es).map fun e => (e.1, f e.2) :=
  (Keyed.sort_map (fun e : String × α => (rfl : (e.1, f e.2).fst = e.fst)) es).symm

theorem sort_sort_entries {α β : Type} (f : α → β) (es : List (String × α)) :
    Keyed.sort Prod.fst ((Keyed.sort Prod.fst es).map fun e => (e.1, f e.2)) =
      (Keyed.sort Prod.fst es).map fun e => (e.1, f e.2) := by
  rw [sort_entries, Keyed.sort_sort]

theorem sorted_list (vs : List (PyValue F D)) : sorted (.list vs) = .list (vs.map sorted) :=
  congrArg PyValue.list (sortedItems_eq vs)

theorem sorted_tuple (vs : List (PyValue F D)) : sorted (.tuple vs) = .tuple (vs.map sorted) :=
  congrArg PyValue.tuple (sortedItems_eq vs)

theorem sorted_dict (es : List (String × PyValue F D)) :
    sorted (.dict es) = .dict ((Keyed.sort Prod.fst es).map fun e => (e.1, sorted e.2)) := by
  change PyValue.dict (Keyed.sort Prod.fst (sortedEntries es)) = _
  rw [sortedEntries_eq, sort_entries]

theorem sorted_object (c : String) (es : List (String × PyValue F D)) :
    sorted (.object c es) = .object c (es.map fun e => (e.1, sorted e.2)) :=
  congrArg (PyValue.object c) (sortedEntries_eq es)

theorem wire_list (vs : List (PyValue F D)) : wire s (.list vs) = .arr (vs.map (wire s)) := by
  change Json.arr (Json.sortedItems (jsonItems s vs)) = _
  rw [Json.sortedItems_eq, jsonItems_eq, List.map_map]
  rfl

theorem wire_tuple (vs : List (PyValue F D)) : wire s (.tuple vs) = .arr (vs.map (wire s)) := by
  change Json.arr (Json.sortedItems (jsonItems s vs)) = _
  rw [Json.sortedItems_eq, jsonItems_eq, List.map_map]
  rfl

/-- A dict as it is read. -/
def wireEntries (s : Scalars F D) (es : List (String × PyValue F D)) : List (String × Json F) :=
  (Keyed.sort Prod.fst es).map fun e => (e.1, wire s e.2)

theorem sorted_jsonEntries (es : List (String × PyValue F D)) :
    Keyed.sort Prod.fst (Json.sortedEntries (jsonEntries s es)) = wireEntries s es := by
  rw [Json.sortedEntries_eq, jsonEntries_eq, List.map_map]
  exact sort_entries (wire s) es

theorem wire_dict (es : List (String × PyValue F D)) : wire s (.dict es) = .obj (wireEntries s es) :=
  congrArg Json.obj (sorted_jsonEntries es)

theorem wire_object (c : String) (es : List (String × PyValue F D)) :
    wire s (.object c es) = .obj (wireEntries s es) :=
  congrArg Json.obj (sorted_jsonEntries es)

theorem mem_sort {es : List (String × PyValue F D)} {e : String × PyValue F D} :
    e ∈ Keyed.sort Prod.fst es ↔ e ∈ es := (Keyed.sort_perm es).mem_iff

theorem sizeOf_entry_lt {es : List (String × PyValue F D)} {e : String × PyValue F D} (h : e ∈ es) :
    sizeOf e.2 < sizeOf es := by
  have := List.sizeOf_lt_of_mem h
  obtain ⟨k, v⟩ := e
  simp only [Prod.mk.sizeOf_spec] at this ⊢
  omega

/-- By the size of the value. -/
theorem value_induct {P : PyValue F D → Prop} (step : ∀ v, (∀ u, sizeOf u < sizeOf v → P u) → P v) (v : PyValue F D) :
    P v :=
  step v fun u _ => value_induct step u
termination_by sizeOf v

@[simp] theorem sorted_sorted (v : PyValue F D) : sorted (sorted v) = sorted v := by
  induction v using value_induct with
  | step v ih =>
  cases v with
  | list vs =>
    rw [sorted_list, sorted_list, List.map_map]
    refine congrArg PyValue.list (List.map_congr_left fun v hv => ih v ?_)
    have := List.sizeOf_lt_of_mem hv
    simp only [PyValue.list.sizeOf_spec]
    omega
  | tuple vs =>
    rw [sorted_tuple, sorted_tuple, List.map_map]
    refine congrArg PyValue.tuple (List.map_congr_left fun v hv => ih v ?_)
    have := List.sizeOf_lt_of_mem hv
    simp only [PyValue.tuple.sizeOf_spec]
    omega
  | dict es =>
    rw [sorted_dict, sorted_dict, sort_sort_entries, List.map_map]
    refine congrArg PyValue.dict (List.map_congr_left fun e he => congrArg (e.1, ·) (ih e.2 ?_))
    have := sizeOf_entry_lt (mem_sort.1 he)
    simp only [PyValue.dict.sizeOf_spec]
    omega
  | object c es =>
    rw [sorted_object, sorted_object, List.map_map]
    refine congrArg (PyValue.object c) (List.map_congr_left fun e he => congrArg (e.1, ·) (ih e.2 ?_))
    have := sizeOf_entry_lt he
    simp only [PyValue.object.sizeOf_spec]
    omega
  | none | bool | int | float | str | datetime => rfl

/-! ## Through the payload -/

/-- A value there can be: a dict has no key twice, an object the fields of its
class. -/
inductive Legal (classes : Classes F D) : PyValue F D → Prop
  | none : Legal classes .none
  | bool (b : Bool) : Legal classes (.bool b)
  | int (n : Int) : Legal classes (.int n)
  | float (x : F) : Legal classes (.float x)
  | str (t : String) : Legal classes (.str t)
  | datetime (d : D) : Legal classes (.datetime d)
  | list {vs : List (PyValue F D)} (hvs : ∀ v ∈ vs, Legal classes v) : Legal classes (.list vs)
  | tuple {vs : List (PyValue F D)} (hvs : ∀ v ∈ vs, Legal classes v) : Legal classes (.tuple vs)
  | dict {es : List (String × PyValue F D)} (hn : (es.map Prod.fst).Nodup) (hes : ∀ e ∈ es, Legal classes e.2) :
      Legal classes (.dict es)
  | object {c : String} {es : List (String × PyValue F D)}
      (hn : es.map Prod.fst = (classes.fields c).map Field.name) (hes : ∀ e ∈ es, Legal classes e.2) :
      Legal classes (.object c es)

theorem shortItems_iff {vs : List (PyValue F D)} : shortItems vs = true ↔ ∀ v ∈ vs, shortInts v = true := by
  induction vs with
  | nil => simp [shortItems]
  | cons v vs ih => rw [shortItems, Bool.and_eq_true, ih, List.forall_mem_cons]

theorem shortEntries_iff {es : List (String × PyValue F D)} : shortEntries es = true ↔ ∀ e ∈ es, shortInts e.2 = true := by
  induction es with
  | nil => simp [shortEntries]
  | cons e es ih => rw [shortEntries, Bool.and_eq_true, ih, List.forall_mem_cons]

theorem properItems_json {vs : List (PyValue F D)} (h : ∀ v ∈ vs, (toJson s v).Proper) :
    Json.ProperItems (jsonItems s vs) := by
  rw [jsonItems_eq, Json.properItems_iff]
  intro j hj
  obtain ⟨v, hv, rfl⟩ := List.mem_map.1 hj
  exact h v hv

theorem properEntries_json {es : List (String × PyValue F D)} (hn : (es.map Prod.fst).Nodup)
    (h : ∀ e ∈ es, (toJson s e.2).Proper) : (Json.obj (jsonEntries s es)).Proper := by
  rw [jsonEntries_eq]
  refine ⟨?_, Json.properEntries_iff.2 fun e he => ?_⟩
  · rw [List.map_map]
    exact hn
  · obtain ⟨x, hx, rfl⟩ := List.mem_map.1 he
    exact h x hx

theorem Legal.proper {v : PyValue F D} (hv : Legal classes v) (hi : shortInts v = true) : (toJson s v).Proper := by
  induction hv with
  | none | bool | float | str | datetime => trivial
  | int n =>
    rw [shortInts, decide_eq_true_eq] at hi
    rw [toJson, Json.Proper]
    exact hi
  | list _ ih => exact properItems_json fun v hv => ih v hv (shortItems_iff.1 hi v hv)
  | tuple _ ih => exact properItems_json fun v hv => ih v hv (shortItems_iff.1 hi v hv)
  | dict hn _ ih => exact properEntries_json hn fun e he => ih e he (shortEntries_iff.1 hi e he)
  | object hn _ ih =>
    refine properEntries_json ?_ fun e he => ih e he (shortEntries_iff.1 hi e he)
    rw [hn]
    exact classes.nodup _

/-- What comes back is made of the JSON alone. -/
theorem throughPayload_eq {h : TypeHint} {v : PyValue F D} (hv : Legal classes v) :
    throughPayload s classes h v =
      if shortInts v then (convertTo s classes h (wire s v)).mapError .convert else .error .longInt := by
  rw [throughPayload, toPayload]
  split
  · next hi => rw [ok_bind, fromPayload, Json.loads_dumps _ (hv.proper hi), wire]
  · rfl

/-! ## Without a hint -/

/-- A value that JSON has itself. -/
inductive Plain : PyValue F D → Prop
  | none : Plain .none
  | bool (b : Bool) : Plain (.bool b)
  | int (n : Int) : Plain (.int n)
  | float (x : F) : Plain (.float x)
  | str (t : String) : Plain (.str t)
  | list {vs : List (PyValue F D)} (hvs : ∀ v ∈ vs, Plain v) : Plain (.list vs)
  | dict {es : List (String × PyValue F D)} (hes : ∀ e ∈ es, Plain e.2) : Plain (.dict es)

theorem raw_wire {v : PyValue F D} (h : Plain v) : raw (wire s v) = sorted v := by
  induction h with
  | none | bool | int | float | str => rfl
  | list _ ih =>
    rw [wire_list, raw, rawItems_eq, List.map_map, sorted_list]
    exact congrArg PyValue.list (List.map_congr_left ih)
  | dict _ ih =>
    rw [wire_dict, raw, rawEntries_eq, wireEntries, List.map_map, sorted_dict]
    exact congrArg PyValue.dict (List.map_congr_left fun e he => congrArg (e.1, ·) (ih e (mem_sort.1 he)))

theorem plain_of_raw {v : PyValue F D} : Same (raw (wire s v)) v → Plain v := by
  induction v using value_induct with
  | step v ih =>
  intro h
  cases v with
  | none => exact .none
  | bool b => exact .bool b
  | int n => exact .int n
  | float x => exact .float x
  | str t => exact .str t
  | datetime d => simp [Same, wire, toJson, Json.sorted, raw, sorted] at h
  | list vs =>
    rw [Same, wire_list, raw, rawItems_eq, sorted_list, sorted_list, List.map_map, List.map_map, PyValue.list.injEq,
      List.map_inj_left] at h
    refine .list fun v hv => ih v ?_ (h v hv)
    have := List.sizeOf_lt_of_mem hv
    simp only [PyValue.list.sizeOf_spec]
    omega
  | tuple vs => simp [Same, wire_tuple, raw, sorted] at h
  | dict es =>
    rw [Same, wire_dict, raw, rawEntries_eq, wireEntries, List.map_map, sorted_dict, sorted_dict] at h
    have hsort := sort_sort_entries (fun v => (raw (wire s v) : PyValue F D)) es
    simp only [Function.comp_def, hsort, List.map_map, PyValue.dict.injEq, List.map_inj_left, Prod.mk.injEq, true_and] at h
    refine .dict fun e he => ih e.2 ?_ (h e (mem_sort.2 he))
    have := sizeOf_entry_lt he
    simp only [PyValue.dict.sizeOf_spec]
    omega
  | object c es => simp [Same, wire_object, raw, sorted] at h

/-! ## Objects -/

theorem lookup_of_mem {α : Type} {es : List (String × α)} (hn : (es.map Prod.fst).Nodup) {e : String × α} (he : e ∈ es) :
    es.lookup e.1 = some e.2 := by
  induction es with
  | nil => cases he
  | cons x es ih =>
    rw [List.map_cons, List.nodup_cons] at hn
    rw [List.lookup_cons]
    rcases List.mem_cons.1 he with rfl | he
    · rw [beq_self_eq_true]
    · have hne : (e.1 == x.1) = false := by
        rw [beq_eq_false_iff_ne]
        exact fun heq => hn.1 (heq ▸ List.mem_map_of_mem he)
      rw [hne]
      exact ih hn.2 he

theorem lookup_wireEntries {es : List (String × PyValue F D)} (hn : (es.map Prod.fst).Nodup)
    {e : String × PyValue F D} (he : e ∈ es) : (wireEntries s es).lookup e.1 = some (wire s e.2) := by
  have hkeys : (wireEntries s es).map Prod.fst = (Keyed.sort Prod.fst es).map Prod.fst := by
    rw [wireEntries, List.map_map]
    rfl
  have hsorted : ((wireEntries s es).map Prod.fst).Nodup := by
    rw [hkeys]
    exact ((Keyed.sort_perm es).map Prod.fst).nodup_iff.2 hn
  have hmem : (e.1, wire s e.2) ∈ wireEntries s es :=
    List.mem_map.2 ⟨e, mem_sort.2 he, rfl⟩
  exact lookup_of_mem hsorted hmem

/-- The fields of a class beside those of an object of it. -/
theorem name_of_zip {fs : List (Field F D)} {es : List (String × PyValue F D)}
    (hn : es.map Prod.fst = fs.map Field.name) : ∀ p ∈ fs.zip es, p.2.1 = p.1.name := by
  induction fs generalizing es with
  | nil => simp
  | cons f fs ih =>
    cases es with
    | nil => cases hn
    | cons e es =>
      rw [List.map_cons, List.map_cons, List.cons.injEq] at hn
      rw [List.zip_cons_cons, List.forall_mem_cons]
      exact ⟨hn.1, ih hn.2⟩

/-- Every field of an object is there to be read. -/
theorem reads_iff {ws : List (String × Json F)} {fs : List (Field F D)} {es : List (String × PyValue F D)}
    (hlen : es.length = fs.length) (hw : ∀ p ∈ fs.zip es, ws.lookup p.1.name = some (wire s p.2.2))
    {vs : List (Field F D × Option (PyValue F D))} :
    List.Forall₂ (fun f u => u.1 = f ∧ Reads s classes ws f u.2) fs vs ↔
      List.Forall₂ (fun p u => u.1 = p.1 ∧ ∃ w, valueToType s classes p.1.hint (wire s p.2.2) = .ok w ∧ u.2 = some w)
        (fs.zip es) vs := by
  induction fs generalizing es vs with
  | nil => simp
  | cons f fs ih =>
    cases es with
    | nil => cases hlen
    | cons e es =>
      rw [List.zip_cons_cons, List.forall_mem_cons] at hw
      simp only [List.zip_cons_cons, List.forall₂_cons_left_iff, ih (Nat.succ.inj hlen) hw.2]
      simp only [Reads, hw.1]

theorem mem_of_forall₂ {α β : Type} {R : α → β → Prop} {as : List α} {bs : List β} (h : List.Forall₂ R as bs) :
    (∀ a ∈ as, ∃ b ∈ bs, R a b) ∧ ∀ b ∈ bs, ∃ a ∈ as, R a b := by
  induction h with
  | nil => simp
  | @cons a b as bs hab _ ih =>
    refine ⟨List.forall_mem_cons.2 ⟨⟨b, List.mem_cons_self, hab⟩, fun a ha => ?_⟩,
      List.forall_mem_cons.2 ⟨⟨a, List.mem_cons_self, hab⟩, fun b hb => ?_⟩⟩
    · obtain ⟨b, hb, h⟩ := ih.1 a ha
      exact ⟨b, List.mem_cons_of_mem _ hb, h⟩
    · obtain ⟨a, ha, h⟩ := ih.2 b hb
      exact ⟨a, List.mem_cons_of_mem _ ha, h⟩

/-- The fields given, as `__init__` takes them. -/
theorem given_iff {ps : List (Field F D × String × PyValue F D)} {us : List (String × PyValue F D)} :
    (∃ vs : List (Field F D × Option (PyValue F D)),
      List.Forall₂
        (fun p u => u.1 = p.1 ∧ ∃ w, valueToType s classes p.1.hint (wire s p.2.2) = .ok w ∧ u.2 = some w) ps vs ∧
        us = vs.filterMap fun p => (p.2.or p.1.default).map fun v => (p.1.name, v)) ↔
      List.Forall₂ (fun p u => u.1 = p.1.name ∧ valueToType s classes p.1.hint (wire s p.2.2) = .ok u.2) ps us := by
  induction ps generalizing us with
  | nil => simp
  | cons p ps ih =>
    simp only [List.forall₂_cons_left_iff, ← ih]
    constructor
    · rintro ⟨_, ⟨⟨f, _⟩, vs, ⟨rfl, w, hw, rfl⟩, hvs, rfl⟩, rfl⟩
      exact ⟨(p.1.name, w), _, ⟨rfl, hw⟩, ⟨vs, hvs, rfl⟩, rfl⟩
    · rintro ⟨⟨k, w⟩, _, ⟨rfl, hw⟩, ⟨vs, hvs, rfl⟩, rfl⟩
      exact ⟨_, ⟨(p.1, some w), vs, ⟨rfl, w, hw, rfl⟩, hvs, rfl⟩, rfl⟩

/-- An object read with its class: each field with its hint, all of them
`__init__`'s. -/
theorem valueToType_object {c c' : String} {es : List (String × PyValue F D)}
    (hn : es.map Prod.fst = (classes.fields c).map Field.name) {w : PyValue F D} :
    valueToType s classes (.dataclass c) (wire s (.object c' es)) = .ok w ↔
      (∀ f ∈ classes.fields c, f.init = true) ∧
        ∃ us, List.Forall₂ (fun p u => u.1 = p.1.name ∧ valueToType s classes p.1.hint (wire s p.2.2) = .ok u.2)
          ((classes.fields c).zip es) us ∧ w = .object c us := by
  have hlen : es.length = (classes.fields c).length := by simpa using congrArg List.length hn
  have hnodup : (es.map Prod.fst).Nodup := hn ▸ classes.nodup c
  have hname := name_of_zip hn
  have hw : ∀ p ∈ (classes.fields c).zip es, (wireEntries s es).lookup p.1.name = some (wire s p.2.2) := fun p hp =>
    hname p hp ▸ lookup_wireEntries hnodup (List.of_mem_zip hp).2
  have hfst : ((classes.fields c).zip es).map Prod.fst = classes.fields c := List.map_fst_zip (Nat.le_of_eq hlen.symm)
  rw [valueToType_dataclass]
  constructor
  · rintro ⟨ws, vs, hj, hvs, hc⟩
    rw [wire_object, Json.obj.injEq] at hj
    subst hj
    rw [reads_iff hlen hw] at hvs
    obtain ⟨hinit, -, rfl⟩ := construct_eq_ok.1 hc
    refine ⟨fun f hf => ?_, _, given_iff.1 ⟨vs, hvs, rfl⟩, rfl⟩
    rw [← hfst] at hf
    obtain ⟨p, hp, rfl⟩ := List.mem_map.1 hf
    obtain ⟨u, hu, hu', v, -, hv⟩ := (mem_of_forall₂ hvs).1 p hp
    rw [← hu']
    exact hinit u hu (by rw [hv]; rfl)
  · rintro ⟨hinit, us, hus, rfl⟩
    obtain ⟨vs, hvs, rfl⟩ := given_iff.2 hus
    refine ⟨_, vs, wire_object c' es, (reads_iff hlen hw).2 hvs, construct_eq_ok.2 ⟨fun u hu _ => ?_, fun u hu ho => ?_, rfl⟩⟩
    · obtain ⟨p, hp, hf, -⟩ := (mem_of_forall₂ hvs).2 u hu
      exact hf ▸ hinit p.1 (List.of_mem_zip hp).1
    · obtain ⟨p, -, -, v, -, hv⟩ := (mem_of_forall₂ hvs).2 u hu
      rw [hv] at ho
      cases ho

/-! ## What is restored -/

/-- The values that a hint restores. At a union the alternatives before the one
that restores the value do not take its JSON form. -/
inductive Restores (s : Scalars F D) (classes : Classes F D) : TypeHint → PyValue F D → Prop
  | none : Restores s classes .none .none
  | bool (b : Bool) : Restores s classes .bool (.bool b)
  | int (n : Int) : Restores s classes .int (.int n)
  | float (x : F) : Restores s classes .float (.float x)
  | str (t : String) : Restores s classes .str (.str t)
  | datetime (d : D) : Restores s classes .datetime (.datetime d)
  | union {as bs : List TypeHint} {a : TypeHint} {v : PyValue F D} (has : ∀ b ∈ as, ¬ Accepts s classes b (wire s v))
      (ha : Restores s classes a v) : Restores s classes (.union (as ++ a :: bs)) v
  | list {h : TypeHint} {vs : List (PyValue F D)} (hvs : ∀ v ∈ vs, Restores s classes h v) :
      Restores s classes (.list h) (.list vs)
  | tupleOf {h : TypeHint} {vs : List (PyValue F D)} (hvs : ∀ v ∈ vs, Restores s classes h v) :
      Restores s classes (.tupleOf h) (.tuple vs)
  | unit {vs : List (PyValue F D)} (hvs : ∀ v ∈ vs, Plain v) : Restores s classes (.tuple []) (.tuple vs)
  | tuple {hs : List TypeHint} {vs : List (PyValue F D)} (hne : hs ≠ []) (hlen : vs.length ≤ hs.length)
      (hvs : ∀ p ∈ hs.zip vs, Restores s classes p.1 p.2) : Restores s classes (.tuple hs) (.tuple vs)
  | dict_raw {es : List (String × PyValue F D)} (hes : ∀ e ∈ es, Plain e.2) :
      Restores s classes (.dict .bareNone) (.dict es)
  | dict {h : TypeHint} {es : List (String × PyValue F D)} (hne : h ≠ .bareNone)
      (hes : ∀ e ∈ es, Restores s classes h e.2) : Restores s classes (.dict h) (.dict es)
  | dataclass {c : String} {es : List (String × PyValue F D)} (hinit : ∀ f ∈ classes.fields c, f.init = true)
      (hes : ∀ p ∈ (classes.fields c).zip es, Restores s classes p.1.hint p.2.2) :
      Restores s classes (.dataclass c) (.object c es)

theorem forall₂_map {α β : Type} {R : α → β → Prop} {f : α → β} {as : List α} (h : ∀ a ∈ as, R a (f a)) :
    List.Forall₂ R as (as.map f) := by
  rw [List.forall₂_map_right_iff, List.forall₂_same]
  exact h

theorem map_sorted_zip {α : Type} {as : List α} {vs : List (PyValue F D)} (hlen : vs.length ≤ as.length) :
    vs.map sorted = (as.zip vs).map fun p => sorted p.2 := by
  conv_lhs => rw [← List.map_snd_zip hlen]
  rw [List.map_map]
  rfl

theorem map_sorted_fields {c : String} {es : List (String × PyValue F D)}
    (hn : es.map Prod.fst = (classes.fields c).map Field.name) :
    (es.map fun e => (e.1, sorted e.2)) = ((classes.fields c).zip es).map fun p => (p.2.1, sorted p.2.2) := by
  have hlen : es.length ≤ (classes.fields c).length := Nat.le_of_eq (by simpa using congrArg List.length hn)
  conv_lhs => rw [← List.map_snd_zip hlen]
  rw [List.map_map]
  rfl

/-- **What is restored comes back as it was.** -/
theorem Restores.decodes {h : TypeHint} {v : PyValue F D} (hr : Restores s classes h v) (hv : Legal classes v) :
    valueToType s classes h (wire s v) = .ok (sorted v) := by
  induction hr with
  | none | bool | int | float | str => simp [wire, toJson, Json.sorted, valueToType, toInt, toFloat, sorted]
  | datetime d => simp [wire, toJson, Json.sorted, valueToType, toDatetime, s.fromisoformat_isoformat, sorted]
  | union has _ ih =>
    exact valueToType_union.2 ⟨_, _, _, rfl, fun b hb u hu => has b hb ((accepts_iff b _).1 ⟨u, hu⟩), ih hv⟩
  | list _ ih =>
    cases hv with
    | list hvs =>
      rw [wire_list, sorted_list]
      refine valueToType_list.2 ⟨_, _, rfl, ?_, rfl⟩
      rw [List.forall₂_map_left_iff]
      exact forall₂_map fun v hv => ih v hv (hvs v hv)
  | tupleOf _ ih =>
    cases hv with
    | tuple hvs =>
      rw [wire_tuple, sorted_tuple]
      refine valueToType_tupleOf.2 ⟨_, _, rfl, ?_, rfl⟩
      rw [List.forall₂_map_left_iff]
      exact forall₂_map fun v hv => ih v hv (hvs v hv)
  | unit hplain =>
    rw [wire_tuple, sorted_tuple]
    refine valueToType_unit.2 ⟨_, rfl, ?_⟩
    rw [rawItems_eq, List.map_map]
    exact congrArg PyValue.tuple (List.map_congr_left fun v hv => (raw_wire (hplain v hv)).symm)
  | @tuple hs vs hne hlen _ ih =>
    cases hv with
    | tuple hvs =>
      rw [wire_tuple, sorted_tuple]
      refine (valueToType_tuple hne).2 ⟨_, _, rfl, by rwa [List.length_map], ?_, rfl⟩
      rw [map_sorted_zip hlen, List.zip_map_right, List.forall₂_map_left_iff]
      exact forall₂_map fun p hp => ih p hp (hvs p.2 (List.of_mem_zip hp).2)
  | dict_raw hplain =>
    rw [wire_dict, sorted_dict]
    refine valueToType_dict_raw.2 ⟨_, rfl, ?_⟩
    rw [rawEntries_eq, wireEntries, List.map_map]
    exact congrArg PyValue.dict (List.map_congr_left fun e he =>
      congrArg (e.1, ·) (raw_wire (hplain e (mem_sort.1 he))).symm)
  | dict hne _ ih =>
    cases hv with
    | dict _ hes =>
      rw [wire_dict, sorted_dict]
      refine (valueToType_dict hne).2 ⟨_, _, rfl, ?_, rfl⟩
      rw [wireEntries, List.forall₂_map_left_iff]
      exact forall₂_map fun e he => ⟨rfl, ih e (mem_sort.1 he) (hes e (mem_sort.1 he))⟩
  | @dataclass c es hinit _ ih =>
    cases hv with
    | object hn hes =>
      rw [sorted_object, map_sorted_fields hn]
      refine (valueToType_object hn).2 ⟨hinit, _, ?_, rfl⟩
      exact forall₂_map fun p hp => ⟨name_of_zip hn p hp, ih p hp (hes p.2 (List.of_mem_zip hp).2)⟩

theorem forall₂_of_map_eq {α β γ : Type} {R : α → β → Prop} {f : α → γ} {g : β → γ} {as : List α} {bs : List β}
    (h : List.Forall₂ R as bs) (heq : bs.map g = as.map f) : ∀ a ∈ as, ∃ b, R a b ∧ g b = f a := by
  induction h with
  | nil => simp
  | @cons a b as bs hab _ ih =>
    rw [List.map_cons, List.map_cons, List.cons.injEq] at heq
    exact List.forall_mem_cons.2 ⟨⟨b, hab, heq.1⟩, ih heq.2⟩

/-- What is the same as a value is made as it is. -/
theorem Same.shape {w v : PyValue F D} (h : Same w v) :
    match w with
    | .list ws => ∃ vs, v = .list vs ∧ ws.map sorted = vs.map sorted
    | .tuple ws => ∃ vs, v = .tuple vs ∧ ws.map sorted = vs.map sorted
    | .dict ws => ∃ es, v = .dict es ∧
        (Keyed.sort Prod.fst ws).map (fun e => (e.1, sorted e.2)) = (Keyed.sort Prod.fst es).map fun e => (e.1, sorted e.2)
    | .object c ws => ∃ es, v = .object c es ∧ (ws.map fun e => (e.1, sorted e.2)) = es.map fun e => (e.1, sorted e.2)
    | w => v = w := by
  cases w with
  | list ws =>
    cases v with
    | list vs =>
      rw [Same, sorted_list, sorted_list, PyValue.list.injEq] at h
      exact ⟨vs, rfl, h⟩
    | none | bool | int | float | str | datetime | tuple | dict | object => simp [Same, sorted] at h
  | tuple ws =>
    cases v with
    | tuple vs =>
      rw [Same, sorted_tuple, sorted_tuple, PyValue.tuple.injEq] at h
      exact ⟨vs, rfl, h⟩
    | none | bool | int | float | str | datetime | list | dict | object => simp [Same, sorted] at h
  | dict ws =>
    cases v with
    | dict es =>
      rw [Same, sorted_dict, sorted_dict, PyValue.dict.injEq] at h
      exact ⟨es, rfl, h⟩
    | none | bool | int | float | str | datetime | list | tuple | object => simp [Same, sorted] at h
  | object c ws =>
    cases v with
    | object c' es =>
      rw [Same, sorted_object, sorted_object, PyValue.object.injEq] at h
      obtain ⟨rfl, hes⟩ := h
      exact ⟨es, rfl, hes⟩
    | none | bool | int | float | str | datetime | list | tuple | dict => simp [Same, sorted] at h
  | none | bool | int | float | str | datetime =>
    unfold Same at h
    cases v <;> simp [sorted_list, sorted_tuple, sorted_dict, sorted_object] at h ⊢ <;> exact h.symm

/-- The keys of what was read are in order already. -/
theorem sort_read {es : List (String × PyValue F D)} {ws : List (String × PyValue F D)}
    (h : ws.map Prod.fst = (Keyed.sort Prod.fst es).map Prod.fst) : Keyed.sort Prod.fst ws = ws := by
  refine Keyed.sort_of_sorted ?_
  have hsorted : ((Keyed.sort Prod.fst es).map Prod.fst).Pairwise (· ≤ ·) := List.pairwise_map.2 (Keyed.sort_sorted es)
  rw [← h] at hsorted
  exact List.pairwise_map.1 hsorted

theorem keys_of_forall₂ {es ws : List (String × PyValue F D)} {R : String × PyValue F D → String × PyValue F D → Prop}
    (h : List.Forall₂ (fun e u => u.1 = e.1 ∧ R e u) es ws) : ws.map Prod.fst = es.map Prod.fst := by
  induction h with
  | nil => rfl
  | cons hu _ ih => rw [List.map_cons, List.map_cons, hu.1, ih]

theorem int_of_toInt {j : Json F} {w : PyValue F D} (h : toInt s j = .ok w) : ∃ n, w = .int n := by
  cases j with
  | bool b => exact ⟨_, (Except.ok.inj h).symm⟩
  | int n => exact ⟨_, (Except.ok.inj h).symm⟩
  | float x =>
    rw [toInt] at h
    split at h
    · exact ⟨_, (Except.ok.inj h).symm⟩
    · cases h
  | null | str | arr | obj => cases h

theorem float_of_toFloatOf {n : Int} {w : PyValue F D} (h : toFloatOf s n = .ok w) : ∃ x, w = .float x := by
  rw [toFloatOf] at h
  split at h
  · exact ⟨_, (Except.ok.inj h).symm⟩
  · cases h

theorem float_of_toFloat {j : Json F} {w : PyValue F D} (h : toFloat s j = .ok w) : ∃ x, w = .float x := by
  cases j with
  | bool b => exact float_of_toFloatOf h
  | int n => exact float_of_toFloatOf h
  | float x => exact ⟨_, (Except.ok.inj h).symm⟩
  | null | str | arr | obj => cases h

theorem datetime_of_toDatetime {j : Json F} {w : PyValue F D} (h : toDatetime s j = .ok w) : ∃ d, w = .datetime d := by
  cases j with
  | str t =>
    rw [toDatetime] at h
    split at h
    · exact ⟨_, (Except.ok.inj h).symm⟩
    · cases h
  | null | bool | int | float | arr | obj => cases h

theorem depth_wire_entry {es : List (String × PyValue F D)} {e : String × PyValue F D} (he : e ∈ es) :
    depth (wire s e.2) < depth (.obj (wireEntries s es)) := by
  have hmem : (e.1, wire s e.2) ∈ wireEntries s es := List.mem_map.2 ⟨e, mem_sort.2 he, rfl⟩
  exact Nat.lt_succ_of_le (depth_le_entries hmem)

/-- **What comes back as it was is restored.** -/
theorem restores_of_same (h : TypeHint) (j : Json F) : ∀ {v w : PyValue F D}, wire s v = j → Legal classes v →
    valueToType s classes h j = .ok w → Same w v → Restores s classes h v := by
  induction h, j using hint_json_induct with
  | step h j ih =>
  intro v w hj hv hw hs
  cases h with
  | none =>
    have hnone : w = .none := by cases j <;> simp_all [valueToType]
    subst hnone
    rw [hs.shape]
    exact .none
  | bareNone => simp [valueToType] at hw
  | bool =>
    cases j with
    | bool b =>
      rw [valueToType] at hw
      cases hw
      rw [hs.shape]
      exact .bool b
    | null | int | float | str | arr | obj => simp [valueToType] at hw
  | int =>
    rw [valueToType] at hw
    obtain ⟨n, rfl⟩ := int_of_toInt hw
    rw [hs.shape]
    exact .int n
  | float =>
    rw [valueToType] at hw
    obtain ⟨x, rfl⟩ := float_of_toFloat hw
    rw [hs.shape]
    exact .float x
  | str =>
    cases j with
    | str t =>
      rw [valueToType] at hw
      cases hw
      rw [hs.shape]
      exact .str t
    | null | bool | int | float | arr | obj => simp [valueToType] at hw
  | datetime =>
    rw [valueToType] at hw
    obtain ⟨d, rfl⟩ := datetime_of_toDatetime hw
    rw [hs.shape]
    exact .datetime d
  | union hints =>
    obtain ⟨as, a, bs, rfl, has, hw⟩ := valueToType_union.1 hw
    have ha : a ∈ as ++ a :: bs := List.mem_append_right _ List.mem_cons_self
    have hsize := List.sizeOf_lt_of_mem ha
    refine .union (fun b hb hacc => ?_) (ih a j (.inr ⟨Nat.le_refl _, ?_⟩) hj hv hw hs)
    · rw [hj] at hacc
      obtain ⟨u, hu⟩ := (accepts_iff b j).2 hacc
      exact has b hb u hu
    · simp only [TypeHint.union.sizeOf_spec]
      omega
  | list h =>
    obtain ⟨js, ws, hi, hws, rfl⟩ := valueToType_list.1 hw
    obtain ⟨vs, rfl, hmap⟩ := hs.shape
    rw [wire_list] at hj
    subst hj
    cases hi
    rw [List.forall₂_map_left_iff] at hws
    cases hv with
    | list hvs =>
      refine .list fun v hv => ?_
      obtain ⟨u, hu, hsame⟩ := forall₂_of_map_eq hws hmap v hv
      have hdepth := depth_le_items (List.mem_map_of_mem (f := wire s) hv)
      exact ih h (wire s v) (.inl (Nat.lt_succ_of_le hdepth)) rfl (hvs v hv) hu hsame
  | tupleOf h =>
    obtain ⟨js, ws, hi, hws, rfl⟩ := valueToType_tupleOf.1 hw
    obtain ⟨vs, rfl, hmap⟩ := hs.shape
    rw [wire_tuple] at hj
    subst hj
    cases hi
    rw [List.forall₂_map_left_iff] at hws
    cases hv with
    | tuple hvs =>
      refine .tupleOf fun v hv => ?_
      obtain ⟨u, hu, hsame⟩ := forall₂_of_map_eq hws hmap v hv
      have hdepth := depth_le_items (List.mem_map_of_mem (f := wire s) hv)
      exact ih h (wire s v) (.inl (Nat.lt_succ_of_le hdepth)) rfl (hvs v hv) hu hsame
  | tuple hints =>
    by_cases hne : hints = []
    · subst hne
      obtain ⟨js, hi, rfl⟩ := valueToType_unit.1 hw
      obtain ⟨vs, rfl, hmap⟩ := hs.shape
      rw [wire_tuple] at hj
      subst hj
      cases hi
      rw [rawItems_eq, List.map_map, List.map_map, List.map_inj_left] at hmap
      exact .unit fun v hv => plain_of_raw (hmap v hv)
    · obtain ⟨js, ws, hi, hlen, hws, rfl⟩ := (valueToType_tuple hne).1 hw
      obtain ⟨vs, rfl, hmap⟩ := hs.shape
      rw [wire_tuple] at hj
      subst hj
      cases hi
      rw [List.length_map] at hlen
      rw [List.zip_map_right, List.forall₂_map_left_iff] at hws
      rw [map_sorted_zip hlen] at hmap
      cases hv with
      | tuple hvs =>
        refine .tuple hne hlen fun p hp => ?_
        obtain ⟨u, hu, hsame⟩ := forall₂_of_map_eq hws hmap p hp
        have hmem := (List.of_mem_zip hp).2
        have hdepth := depth_le_items (List.mem_map_of_mem (f := wire s) hmem)
        exact ih p.1 (wire s p.2) (.inl (Nat.lt_succ_of_le hdepth)) rfl (hvs p.2 hmem) hu hsame
  | dict h =>
    by_cases hne : h = .bareNone
    · subst hne
      obtain ⟨js, rfl, rfl⟩ := valueToType_dict_raw.1 hw
      obtain ⟨es, rfl, hmap⟩ := hs.shape
      rw [wire_dict, Json.obj.injEq] at hj
      subst hj
      have hsort := sort_sort_entries (fun v => (raw (wire s v) : PyValue F D)) es
      simp only [rawEntries_eq, wireEntries, List.map_map, Function.comp_def, hsort, List.map_inj_left, Prod.mk.injEq,
        true_and] at hmap
      exact .dict_raw fun e he => plain_of_raw (hmap e (mem_sort.2 he))
    · obtain ⟨js, ws, rfl, hws, rfl⟩ := (valueToType_dict hne).1 hw
      obtain ⟨es, rfl, hmap⟩ := hs.shape
      rw [wire_dict, Json.obj.injEq] at hj
      subst hj
      rw [wireEntries, List.forall₂_map_left_iff] at hws
      rw [sort_read (keys_of_forall₂ hws)] at hmap
      cases hv with
      | dict _ hes =>
        refine .dict hne fun e he => ?_
        obtain ⟨u, ⟨-, hu⟩, hsame⟩ := forall₂_of_map_eq hws hmap e (mem_sort.2 he)
        exact ih h (wire s e.2) (.inl (depth_wire_entry he)) rfl (hes e he) hu (Prod.mk.inj hsame).2
  | dataclass c =>
    obtain ⟨js, vs, rfl, -, hc⟩ := valueToType_dataclass.1 hw
    obtain ⟨-, -, rfl⟩ := construct_eq_ok.1 hc
    obtain ⟨es, rfl, -⟩ := hs.shape
    cases hv with
    | object hn hes =>
      rw [← hj] at hw
      obtain ⟨hinit, us, hus, heq⟩ := (valueToType_object hn).1 hw
      rw [heq] at hs
      obtain ⟨_, hes', hmap⟩ := hs.shape
      cases hes'
      rw [map_sorted_fields hn] at hmap
      refine .dataclass hinit fun p hp => ?_
      obtain ⟨u, ⟨-, hu⟩, hsame⟩ := forall₂_of_map_eq hus hmap p hp
      have hmem := (List.of_mem_zip hp).2
      have hdepth := depth_wire_entry (s := s) hmem
      rw [← wire_object c, hj] at hdepth
      exact ih p.1.hint (wire s p.2.2) (.inl hdepth) rfl (hes p.2 hmem) hu (Prod.mk.inj hsame).2

/-! ## There and back -/

/-- The values there can be. -/
def Value (classes : Classes F D) : Type := { v : PyValue F D // Legal classes v }

theorem convertTo_of_ne {h : TypeHint} (hne : h ≠ .bareNone) (j : Json F) :
    convertTo s classes h j = valueToType s classes h j := by
  cases h <;> first | rfl | exact absurd rfl hne

theorem convertTo_same_iff {h : TypeHint} {v : PyValue F D} (hv : Legal classes v) :
    (∃ w, convertTo s classes h (wire s v) = .ok w ∧ Same w v) ↔
      Restores s classes h v ∨ h = .bareNone ∧ Plain v := by
  by_cases hne : h = .bareNone
  · subst hne
    constructor
    · rintro ⟨w, hw, hs⟩
      cases hw
      exact .inr ⟨rfl, plain_of_raw hs⟩
    · rintro (hr | ⟨-, hp⟩)
      · cases hr
      · exact ⟨_, rfl, by rw [raw_wire hp, Same, sorted_sorted]⟩
  · rw [convertTo_of_ne hne]
    constructor
    · rintro ⟨w, hw, hs⟩
      exact .inl (restores_of_same h _ rfl hv hw hs)
    · rintro (hr | ⟨heq, -⟩)
      · exact ⟨_, hr.decodes hv, sorted_sorted v⟩
      · exact absurd heq hne

/-- The values of a hint. -/
inductive Inhabits (classes : Classes F D) : TypeHint → PyValue F D → Prop
  | none : Inhabits classes .none .none
  | bareNone : Inhabits classes .bareNone .none
  | bool (b : Bool) : Inhabits classes .bool (.bool b)
  | int (n : Int) : Inhabits classes .int (.int n)
  | float (x : F) : Inhabits classes .float (.float x)
  | str (t : String) : Inhabits classes .str (.str t)
  | datetime (d : D) : Inhabits classes .datetime (.datetime d)
  | union {hs : List TypeHint} {a : TypeHint} {v : PyValue F D} (ha : a ∈ hs) (hv : Inhabits classes a v) :
      Inhabits classes (.union hs) v
  | list {h : TypeHint} {vs : List (PyValue F D)} (hvs : ∀ v ∈ vs, Inhabits classes h v) :
      Inhabits classes (.list h) (.list vs)
  | tupleOf {h : TypeHint} {vs : List (PyValue F D)} (hvs : ∀ v ∈ vs, Inhabits classes h v) :
      Inhabits classes (.tupleOf h) (.tuple vs)
  | tuple {hs : List TypeHint} {vs : List (PyValue F D)} (hlen : vs.length = hs.length)
      (hvs : ∀ p ∈ hs.zip vs, Inhabits classes p.1 p.2) : Inhabits classes (.tuple hs) (.tuple vs)
  | dict {h : TypeHint} {es : List (String × PyValue F D)} (hes : ∀ e ∈ es, Inhabits classes h e.2) :
      Inhabits classes (.dict h) (.dict es)
  | dataclass {c : String} {es : List (String × PyValue F D)}
      (hes : ∀ p ∈ (classes.fields c).zip es, Inhabits classes p.1.hint p.2.2) :
      Inhabits classes (.dataclass c) (.object c es)

/-- A hint whose JSON says which of its values it is: no union but `Optional`,
and a bare `None` only where it is no hint. -/
inductive Definite : TypeHint → Prop
  | none : Definite .none
  | bool : Definite .bool
  | int : Definite .int
  | float : Definite .float
  | str : Definite .str
  | datetime : Definite .datetime
  | optional {h : TypeHint} (hh : Definite h) : Definite (.union [h, .none])
  | list {h : TypeHint} (hh : Definite h) : Definite (.list h)
  | tupleOf {h : TypeHint} (hh : Definite h) : Definite (.tupleOf h)
  | tuple {hs : List TypeHint} (hhs : ∀ h ∈ hs, Definite h) : Definite (.tuple hs)
  | dict_raw : Definite (.dict .bareNone)
  | dict {h : TypeHint} (hh : Definite h) : Definite (.dict h)
  | dataclass (c : String) : Definite (.dataclass c)

theorem Restores.head {a : TypeHint} {bs : List TypeHint} {v : PyValue F D} (ha : Restores s classes a v) :
    Restores s classes (.union (a :: bs)) v :=
  (Restores.union (fun _ hb => absurd hb List.not_mem_nil) ha : Restores s classes (.union ([] ++ a :: bs)) v)

theorem Restores.later {h : TypeHint} {hs : List TypeHint} {v : PyValue F D} (hr : Restores s classes (.union hs) v)
    (hh : ¬ Accepts s classes h (wire s v)) : Restores s classes (.union (h :: hs)) v := by
  cases hr with
  | @union as bs a _ has ha =>
    have hcons : Restores s classes (.union ((h :: as) ++ a :: bs)) v := .union (List.forall_mem_cons.2 ⟨hh, has⟩) ha
    exact hcons

theorem Definite.ne {h : TypeHint} (hd : Definite h) : h ≠ .bareNone := by
  rintro rfl
  cases hd

/-- A hint that takes `null` reads it as `None`. -/
theorem Definite.restores_none {h : TypeHint} (hd : Definite h) (hn : Accepts s classes h .null) :
    Restores s classes h .none := by
  induction hd with
  | none => exact .none
  | @optional h _ ih =>
    by_cases ha : Accepts s classes h .null
    · exact (ih ha).head
    · exact Restores.none.head.later ha
  | list | tupleOf =>
    cases hn
    next hj => cases hj
  | tuple =>
    cases hn
    · next hj => cases hj
    · next hj => cases hj
  | bool | int | float | str | datetime | dict_raw | dict | dataclass => cases hn

/-- **Where no hint is ambiguous, every value of one is restored.** -/
theorem Inhabits.restores (hc : ∀ c, ∀ f ∈ classes.fields c, f.init = true ∧ Definite f.hint) {h : TypeHint}
    {v : PyValue F D} (hv : Inhabits classes h v) (hd : Definite h) : Restores s classes h v := by
  induction hv with
  | none => exact .none
  | bareNone => cases hd
  | bool b => exact .bool b
  | int n => exact .int n
  | float x => exact .float x
  | str t => exact .str t
  | datetime d => exact .datetime d
  | @union hs a v ha hv ih =>
    cases hd with
    | @optional h hh =>
      rcases List.mem_cons.1 ha with rfl | ha
      · exact (ih hh).head
      · rw [List.mem_singleton] at ha
        subst ha
        cases hv
        exact hh.optional.restores_none (.union (List.mem_cons_of_mem _ List.mem_cons_self) .none)
  | list _ ih =>
    cases hd with
    | list hh => exact .list fun v hv => ih v hv hh
  | tupleOf _ ih =>
    cases hd with
    | tupleOf hh => exact .tupleOf fun v hv => ih v hv hh
  | @tuple hs vs hlen _ ih =>
    cases hd with
    | tuple hhs =>
      by_cases hne : hs = []
      · subst hne
        rw [List.length_eq_zero_iff.1 hlen]
        exact .unit fun _ hv => absurd hv List.not_mem_nil
      · exact .tuple hne (Nat.le_of_eq hlen) fun p hp => ih p hp (hhs p.1 (List.of_mem_zip hp).1)
  | dict hes ih =>
    cases hd with
    | dict_raw =>
      refine .dict_raw fun e he => ?_
      obtain ⟨k, v⟩ := e
      cases hes _ he
      exact .none
    | dict hh => exact .dict hh.ne fun e he => ih e he hh
  | @dataclass c es _ ih =>
    exact .dataclass (fun f hf => (hc c f hf).1) fun p hp => ih p hp (hc c p.1 (List.of_mem_zip hp).1).2

/-- The float 1.5, and the first of January. -/
def Scalars.single : Scalars Unit Unit where
  toFloatText := Py.FloatText.single
  ofInt _ := none
  truncate _ := some 1
  isoformat _ := "2024-01-01T00:00:00"
  fromisoformat t := if t = "2024-01-01T00:00:00" then some () else none
  fromisoformat_isoformat _ := if_pos rfl

/-- No dataclass. -/
def Classes.empty : Classes Unit Unit where
  fields _ := []
  nodup _ := List.nodup_nil

end Dbosify.Typed
