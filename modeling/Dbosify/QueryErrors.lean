/-
How a query fails. The parser raises its own error for what it does not
support; but a bound with an offset is compared with one without (`mixes`), and
an `int` of too many digits is not converted (`MeetsLongInt`).

What one clause does to a filter is said once (`applyClause_spec`), and what
the fold of them does follows for every row of clauses (`foldlM_spec`).
-/
import Dbosify.QueryReading

namespace Dbosify

variable {F : Type} {w : QueryWorld F}

/-! ## The parser's own error -/

def Exc.Own (e : Exc) : Prop := ∃ message, e = .visibilityQueryError message

theorem own_reject {α : Type} {message : String} {e : Exc} (h : (reject message : Except Exc α) = .error e) :
    e.Own := by
  cases h
  exact ⟨_, rfl⟩

theorem own_failQuery {α : Type} {message : String} {e : Exc} (h : (failQuery message : Except Exc α) = .error e) :
    e.Own := own_reject h

theorem own_of_parseItems {ts : List (Token F)} {e : Exc} (h : parseItems w ts = .error e) : e.Own := by
  fun_induction parseItems w ts with
  | case1 => exact own_failQuery h
  | case2 => cases h
  | case3 => exact own_failQuery h
  | case4 item hne x hl ts ih => exact ih (except_map_eq_error.1 h)
  | case5 => exact own_failQuery h
  | case6 => cases h
  | case7 => exact own_failQuery h

theorem own_of_parseField {ts : List (Token F)} {e : Exc} (h : parseField w ts = .error e) : e.Own := by
  unfold parseField at h
  split at h
  · split at h
    · exact own_failQuery h
    · cases h
  · exact own_failQuery h
  · exact own_failQuery h

theorem own_of_parseOp {field : String} {ts : List (Token F)} {e : Exc} (h : parseOp w field ts = .error e) : e.Own := by
  unfold parseOp at h
  split at h
  · exact own_failQuery h
  · cases h
  · split at h
    · cases h
    · split at h
      · cases h
      · exact own_failQuery h

theorem own_of_parseValue {field : String} {op : QueryOp} {ts : List (Token F)} {e : Exc}
    (h : parseValue w field op ts = .error e) : e.Own := by
  unfold parseValue at h
  split at h
  · exact own_failQuery h
  · split at h
    · split at h
      · exact own_of_parseItems (except_map_eq_error.1 h)
      · exact own_failQuery h
    · split at h
      · exact own_failQuery h
      · cases h
      · cases h
      · cases h
      · exact own_failQuery h

theorem own_of_parseClause {ts : List (Token F)} {e : Exc} (h : parseClause w ts = .error e) : e.Own := by
  rcases bind_eq_error.1 h with h | ⟨p, -, h⟩
  · exact own_of_parseField h
  · rcases bind_eq_error.1 h with h | ⟨p', -, h⟩
    · exact own_of_parseOp h
    · rcases bind_eq_error.1 h with h | ⟨p'', -, h⟩
      · exact own_of_parseValue h
      · cases h

theorem own_of_groupEnding {ts : List (Token F)} {e : Exc} (h : groupEnding ts = .broken e) : e.Own := by
  simp only [groupEnding] at h
  split at h
  · next q _ => cases hg : q.groupBy <;> rw [hg] at h <;> cases h
  · next e' he =>
    cases h
    unfold parseGroupBy at he
    split at he
    · split at he
      · exact own_failQuery he
      · split at he
        · split at he
          · split at he
            · cases he
            · exact own_failQuery he
          · split at he
            · cases he
            · exact own_failQuery he
          · exact own_failQuery he
        · exact own_failQuery he
    · exact own_failQuery he

/-- What cannot be read is refused in the parser's own way; there is always
fuel to read the rest. -/
theorem own_of_read {toks : List (Token F)} {e : Exc} (h : (read w toks).ending = .broken e) : e.Own := by
  induction hn : toks.length using Nat.strong_induction_on generalizing toks with
  | h n ih =>
  cases hc : parseClause w toks with
  | error e' =>
    cases toks with
    | nil => cases h
    | cons tok toks =>
      by_cases hg : keyword "GROUP" tok = true
      · rw [read_group hg] at h
        exact own_of_groupEnding h
      · rw [read_error hg hc] at h
        cases h
        exact own_of_parseClause hc
  | ok p =>
    obtain ⟨c, rest⟩ := p
    have hlen := parseClause_length hc
    rw [read_clause hc] at h
    cases rest with
    | nil => cases h
    | cons conj rest =>
      rw [List.length_cons] at hlen
      rw [readAfter] at h
      split at h
      · split at h
        · cases h
          exact ⟨_, rfl⟩
        · exact ih _ (by omega) h rfl
      · split at h
        · exact ih _ (by rw [List.length_cons]; omega) h rfl
        · split at h
          · cases h
            exact ⟨_, rfl⟩
          · cases h
            exact ⟨_, rfl⟩

/-! ## Documented clauses -/

/-- The datetime a value stands for. -/
def QueryValue.moment (w : QueryWorld F) : QueryValue F → Option PyDatetime
  | .scalar (.str s) => w.fromIso s
  | _ => none

def QueryValue.isScalar : QueryValue F → Bool
  | .scalar _ => true
  | .list _ => false

/-- The field has the operator, and the value is one of the field's. -/
def Clause.documented (w : QueryWorld F) (c : Clause F) : Bool :=
  match systemField c.field with
  | some .workflowType => c.op ∈ [.eq, .ne, .isIn]
  | some .workflowId => c.op ∈ [.eq, .startsWith] && c.value.isScalar
  | some .executionStatus =>
    c.op ∈ [.eq, .isIn] && c.value.items.all fun x => (statusByName (asciiLower (x.text w))).isSome
  | some .startTime | some .closeTime => c.op ∈ [.gt, .ge, .lt, .le, .eq] && (c.value.moment w).isSome
  | none => c.op = .eq && c.value.isScalar

inductive Side | lower | upper
deriving DecidableEq

/-- The sides of a time an operator bounds. -/
def QueryOp.bounds : QueryOp → List Side
  | gt | ge => [.lower]
  | lt | le => [.upper]
  | eq => [.lower, .upper]
  | _ => []

/-- Whether a datetime has an offset. -/
def PyDatetime.aware (d : PyDatetime) : Bool := d.utcoffset.isSome

/-- Whether the bound the clause puts on this side of this time is aware, if it
puts one there. -/
def Clause.awareness (w : QueryWorld F) (f : SystemField) (side : Side) (c : Clause F) : Option Bool :=
  if systemField c.field = some f ∧ side ∈ c.op.bounds then (c.value.moment w).map PyDatetime.aware else none

/-- One of two clauses puts an aware bound where the other puts a naive one. -/
def Clause.Clash (w : QueryWorld F) (b c : Clause F) : Prop :=
  ∃ f ∈ [SystemField.startTime, .closeTime], ∃ side ∈ [Side.lower, .upper], ∃ x,
    b.awareness w f side = some x ∧ c.awareness w f side = some !x

/-- A clause bounds a time from the side where an earlier one did, but one of
the two bounds is aware and the other naive; and all before is documented. -/
def Mixes (w : QueryWorld F) (cs : List (Clause F)) : Prop :=
  ∃ front c rest, cs = front ++ c :: rest ∧ (∀ b ∈ front, b.documented w = true) ∧ c.documented w = true ∧
    ∃ b ∈ front, b.Clash w c

theorem not_mixes_nil : ¬ Mixes w [] := by
  rintro ⟨front, c, rest, h, -⟩
  simp at h

theorem mixes_concat {cs : List (Clause F)} {c : Clause F} :
    Mixes w (cs ++ [c]) ↔
      Mixes w cs ∨ (∀ b ∈ cs, b.documented w = true) ∧ c.documented w = true ∧ ∃ b ∈ cs, b.Clash w c := by
  constructor
  · rintro ⟨front, d, rest, h, hfront, hd, hb⟩
    rcases List.eq_nil_or_concat rest with rfl | ⟨rest, c', rfl⟩
    · obtain ⟨rfl, he⟩ := List.append_inj' h rfl
      cases he
      exact .inr ⟨hfront, hd, hb⟩
    · rw [List.concat_eq_append, ← List.cons_append, ← List.append_assoc] at h
      obtain ⟨rfl, -⟩ := List.append_inj' h rfl
      exact .inl ⟨front, d, rest, rfl, hfront, hd, hb⟩
  · rintro (⟨front, d, rest, rfl, hfront, hd, hb⟩ | ⟨hcs, hc, hb⟩)
    · exact ⟨front, d, rest ++ [c], by simp, hfront, hd, hb⟩
    · exact ⟨cs, c, [], rfl, hcs, hc, hb⟩

/-! ## The bounds of a filter -/

/-- The bound of a pair on a side. -/
def onSide {α : Type} (p : α × α) : Side → α
  | .lower => p.1
  | .upper => p.2

/-- The bounds of a time field. -/
def VisibilityQuery.limits (q : VisibilityQuery F) : SystemField → Option PyDatetime × Option PyDatetime
  | .startTime => (q.startTimeLo, q.startTimeHi)
  | .closeTime => (q.closeTimeLo, q.closeTimeHi)
  | _ => (none, none)

def VisibilityQuery.withLimits (q : VisibilityQuery F) (f : SystemField) (p : Option PyDatetime × Option PyDatetime) :
    VisibilityQuery F :=
  if f = .startTime then { q with startTimeLo := p.1, startTimeHi := p.2 }
  else { q with closeTimeLo := p.1, closeTimeHi := p.2 }

/-- A pair with another bound on a side. -/
def putOn {α : Type} (p : α × α) (side : Side) (x : α) : α × α :=
  match side with
  | .lower => (x, p.2)
  | .upper => (p.1, x)

def timeFields : List SystemField := [.startTime, .closeTime]

theorem limits_withLimits {f g : SystemField} (hf : f ∈ timeFields) (hg : g ∈ timeFields) (q : VisibilityQuery F)
    (p : Option PyDatetime × Option PyDatetime) : (q.withLimits f p).limits g = if g = f then p else q.limits g := by
  simp only [timeFields, List.mem_cons, List.not_mem_nil, or_false] at hf hg
  rcases hf with rfl | rfl <;> rcases hg with rfl | rfl <;> rfl

/-- The bounds of the filter are of the clauses' kinds. -/
def Kinds (w : QueryWorld F) (cs : List (Clause F)) (q : VisibilityQuery F) : Prop :=
  ∀ f ∈ timeFields, ∀ side x, (onSide (q.limits f) side).map PyDatetime.aware = some x ↔
    ∃ b ∈ cs, b.awareness w f side = some x

theorem kinds_empty : Kinds w [] ({} : VisibilityQuery F) := by
  intro f hf side x
  simp only [timeFields, List.mem_cons, List.not_mem_nil, or_false] at hf
  rcases hf with rfl | rfl <;> cases side <;> simp [onSide, VisibilityQuery.limits]

theorem Clause.awareness_of_ne {f : SystemField} {c : Clause F} (hf : systemField c.field ≠ some f) (side : Side) :
    c.awareness w f side = none := if_neg fun h => hf h.1

/-- A clause of another field bounds no time. -/
theorem Kinds.keep {cs : List (Clause F)} {q q' : VisibilityQuery F} {c : Clause F} (hk : Kinds w cs q)
    (hq : ∀ f, q'.limits f = q.limits f) (hc : ∀ f ∈ timeFields, systemField c.field ≠ some f) :
    Kinds w (cs ++ [c]) q' := by
  intro f hf side x
  rw [hq, hk f hf side x]
  simp [or_and_right, exists_or, Clause.awareness_of_ne (hc f hf)]

theorem Clause.not_clash_of_ne {b c : Clause F} (hc : ∀ f ∈ timeFields, systemField c.field ≠ some f) :
    ¬ b.Clash w c := by
  rintro ⟨f, hf, side, -, x, -, hx⟩
  rw [Clause.awareness_of_ne (hc f hf)] at hx
  cases hx

/-- A datetime is compared with those of its kind. -/
theorem before_spec (c d : PyDatetime) :
    c.aware = !d.aware ∧ (∃ m, c.before d = .error (.typeError m)) ∨
      c.aware = d.aware ∧ ∃ b, c.before d = .ok b := by
  obtain ⟨x, cOffset⟩ := c
  obtain ⟨y, dOffset⟩ := d
  cases cOffset <;> cases dOffset <;> simp [PyDatetime.before, PyDatetime.aware]

/-- `tighten_lo` or `tighten_hi`. -/
def tightenOn (d : PyDatetime) (cur : Option PyDatetime) : Side → Except Exc (Option PyDatetime)
  | .lower => tightenLo cur d
  | .upper => tightenHi cur d

theorem tightenOn_spec (d : PyDatetime) (cur : Option PyDatetime) (side : Side) :
    cur.map PyDatetime.aware = some (!d.aware) ∧ (∃ m, tightenOn d cur side = .error (.typeError m)) ∨
      cur.map PyDatetime.aware ≠ some (!d.aware) ∧
        ∃ r, tightenOn d cur side = .ok r ∧ r.map PyDatetime.aware = some d.aware := by
  cases cur with
  | none => cases side <;> exact .inr ⟨by simp, _, rfl, rfl⟩
  | some c =>
    -- Whichever of the two bounds is kept, it is of the kind of both.
    have hpick (b : Bool) (hk : c.aware = d.aware) :
        (some (if b then d else c)).map PyDatetime.aware = some d.aware := by cases b <;> simp [hk]
    cases side with
    | lower =>
      rcases before_spec c d with ⟨hk, m, hm⟩ | ⟨hk, b, hb⟩
      · exact .inl ⟨by simp [hk], m, by simp [tightenOn, tightenLo, hm, Except.map]⟩
      · exact .inr ⟨by simp [hk], _, by rw [tightenOn, tightenLo, hb]; rfl, hpick b hk⟩
    | upper =>
      rcases before_spec d c with ⟨hk, m, hm⟩ | ⟨hk, b, hb⟩
      · exact .inl ⟨by simp [hk], m, by simp [tightenOn, tightenHi, hm, Except.map]⟩
      · exact .inr ⟨by simp [hk], _, by rw [tightenOn, tightenHi, hb]; rfl, hpick b hk.symm⟩

/-- What a datetime does to the bounds of its field: the operator bounds no
time; or a bound it is compared with is of the other kind; or each side it
bounds is of its kind, and the other side is kept. -/
theorem tighten_spec (field : String) (op : QueryOp) (d : PyDatetime) (p : Option PyDatetime × Option PyDatetime) :
    op.bounds = [] ∧ (∃ e, tighten field op d p = .error e ∧ e.Own) ∨
      (∃ side ∈ op.bounds, (onSide p side).map PyDatetime.aware = some (!d.aware)) ∧
        (∃ m, tighten field op d p = .error (.typeError m)) ∨
      op.bounds ≠ [] ∧ (∀ side ∈ op.bounds, (onSide p side).map PyDatetime.aware ≠ some (!d.aware)) ∧
        ∃ r, tighten field op d p = .ok r ∧
          ∀ side, (onSide r side).map PyDatetime.aware =
            if side ∈ op.bounds then some d.aware else (onSide p side).map PyDatetime.aware := by
  obtain ⟨lo, hi⟩ := p
  have hone (side : Side) (ht : tighten field op d (lo, hi) =
      (tightenOn d (onSide (lo, hi) side) side).map (putOn (lo, hi) side)) (hop : op.bounds = [side]) :
      (∃ side ∈ op.bounds, (onSide (lo, hi) side).map PyDatetime.aware = some (!d.aware)) ∧
          (∃ m, tighten field op d (lo, hi) = .error (.typeError m)) ∨
        op.bounds ≠ [] ∧
          (∀ side ∈ op.bounds, (onSide (lo, hi) side).map PyDatetime.aware ≠ some (!d.aware)) ∧
          ∃ r, tighten field op d (lo, hi) = .ok r ∧
            ∀ side, (onSide r side).map PyDatetime.aware =
              if side ∈ op.bounds then some d.aware else (onSide (lo, hi) side).map PyDatetime.aware := by
    rw [hop, ht]
    rcases tightenOn_spec d (onSide (lo, hi) side) side with ⟨hk, m, hm⟩ | ⟨hk, r, hr, hkr⟩
    · exact .inl ⟨⟨side, by simp, hk⟩, m, by rw [hm]; rfl⟩
    · refine .inr ⟨by simp, by simpa using hk, _, by rw [hr]; rfl, fun side' => ?_⟩
      cases side <;> cases side' <;> simp [onSide, putOn, hkr]
  cases op with
  | gt | ge => exact .inr (hone .lower rfl rfl)
  | lt | le => exact .inr (hone .upper rfl rfl)
  | eq =>
    refine .inr ?_
    have hlo := tightenOn_spec d lo .lower
    have hhi := tightenOn_spec d hi .upper
    simp only [tightenOn] at hlo hhi
    rcases hlo with ⟨hk, m, hm⟩ | ⟨hk, r, hr, hkr⟩
    · exact .inl ⟨⟨.lower, by simp [QueryOp.bounds], hk⟩, m, by rw [tighten, hm]; rfl⟩
    · rcases hhi with ⟨hk', m, hm⟩ | ⟨hk', r', hr', hkr'⟩
      · exact .inl ⟨⟨.upper, by simp [QueryOp.bounds], hk'⟩, m, by rw [tighten, hr, hm]; rfl⟩
      · refine .inr ⟨by simp [QueryOp.bounds], ?_, (r, r'), by rw [tighten, hr, hr']; rfl, fun side => ?_⟩
        · simp only [QueryOp.bounds, List.forall_mem_cons]
          exact ⟨hk, hk', by simp⟩
        · cases side <;> simp [onSide, QueryOp.bounds, hkr, hkr']
  | ne | isIn | startsWith => exact .inl ⟨rfl, _, rfl, _, rfl⟩

/-! ## What a clause does -/

def SystemField.timeName (f : SystemField) : String := if f = .startTime then "StartTime" else "CloseTime"

/-- A clause of a time field. -/
theorem applyClause_time {f : SystemField} (hf : f ∈ timeFields) {c : Clause F} (hc : systemField c.field = some f)
    {x : Scalar F} (hv : c.value = .scalar x) (q : VisibilityQuery F) :
    applyClause w q c = (do
      let dt ← parseQueryDatetime w f.timeName x
      let p ← tighten f.timeName c.op dt (q.limits f)
      .ok (q.withLimits f p)) := by
  simp only [timeFields, List.mem_cons, List.not_mem_nil, or_false] at hf
  rcases hf with rfl | rfl
  · simp only [applyClause, hc, hv]
    rfl
  · simp only [applyClause, hc, hv]
    rfl

theorem applyClause_time_list {f : SystemField} (hf : f ∈ timeFields) {c : Clause F}
    (hc : systemField c.field = some f) {xs : List (Scalar F)} (hv : c.value = .list xs) (q : VisibilityQuery F) :
    ∃ e, applyClause w q c = .error e ∧ e.Own := by
  simp only [timeFields, List.mem_cons, List.not_mem_nil, or_false] at hf
  rcases hf with rfl | rfl
  · simp only [applyClause, hc, hv]
    exact ⟨_, rfl, _, rfl⟩
  · simp only [applyClause, hc, hv]
    exact ⟨_, rfl, _, rfl⟩

theorem documented_time {f : SystemField} (hf : f ∈ timeFields) {c : Clause F} (hc : systemField c.field = some f) :
    c.documented w = true ↔ c.op.bounds ≠ [] ∧ ∃ d, c.value.moment w = some d := by
  have hop : c.op ∈ [QueryOp.gt, .ge, .lt, .le, .eq] ↔ c.op.bounds ≠ [] := by
    cases c.op <;> simp [QueryOp.bounds]
  simp only [timeFields, List.mem_cons, List.not_mem_nil, or_false] at hf
  rcases hf with rfl | rfl
  · simp only [Clause.documented, hc, Bool.and_eq_true, decide_eq_true_eq, hop, Option.isSome_iff_exists]
  · simp only [Clause.documented, hc, Bool.and_eq_true, decide_eq_true_eq, hop, Option.isSome_iff_exists]

/-- What a clause does to a filter: it is refused, unless it is documented;
or it clashes; or its bounds are added. -/
inductive Applied (w : QueryWorld F) (cs : List (Clause F)) (c : Clause F) :
    Except Exc (VisibilityQuery F) → Prop
  | refused {e : Exc} (hd : ¬ c.documented w = true) (he : e.Own) : Applied w cs c (.error e)
  | clash {m : String} (hd : c.documented w = true) (hb : ∃ b ∈ cs, b.Clash w c) :
    Applied w cs c (.error (.typeError m))
  | added {q : VisibilityQuery F} (hd : c.documented w = true) (hb : ¬ ∃ b ∈ cs, b.Clash w c)
    (hk : Kinds w (cs ++ [c]) q) : Applied w cs c (.ok q)

/-- A clause of a time field, after the clauses that made the filter. -/
theorem applied_time {f : SystemField} (hf : f ∈ timeFields) {c : Clause F} (hc : systemField c.field = some f)
    {cs : List (Clause F)} {q : VisibilityQuery F} (hk : Kinds w cs q) : Applied w cs c (applyClause w q c) := by
  cases hv : c.value with
  | list xs =>
    obtain ⟨e, he, hown⟩ := applyClause_time_list (w := w) hf hc hv q
    rw [he]
    refine .refused (fun hd => ?_) hown
    obtain ⟨d, hd⟩ := ((documented_time hf hc).1 hd).2
    rw [hv] at hd
    cases hd
  | scalar x =>
    rw [applyClause_time hf hc hv]
    have hmoment : c.value.moment w = none → ∃ e, parseQueryDatetime w f.timeName x = .error e ∧ e.Own := by
      intro hm
      rw [hv] at hm
      cases x with
      | str s =>
        have hm : w.fromIso s = none := hm
        exact ⟨_, by simp only [parseQueryDatetime, hm]; rfl, _, rfl⟩
      | _ => exact ⟨_, rfl, _, rfl⟩
    cases hm : c.value.moment w with
    | none =>
      obtain ⟨e, he, hown⟩ := hmoment hm
      rw [he]
      refine .refused (fun hd => ?_) hown
      obtain ⟨d, hd⟩ := ((documented_time hf hc).1 hd).2
      rw [hm] at hd
      cases hd
    | some d =>
      have hparse : parseQueryDatetime w f.timeName x = .ok d := by
        rw [hv] at hm
        cases x with
        | str s =>
          have hm : w.fromIso s = some d := hm
          simp only [parseQueryDatetime, hm]
        | _ => cases hm
      have haware (g : SystemField) (side : Side) :
          c.awareness w g side = if g = f ∧ side ∈ c.op.bounds then some d.aware else none := by
        rw [Clause.awareness, hm, hc]
        simp only [Option.some.injEq, Option.map_some, eq_comm (a := f)]
      -- The filter's bound is of the other kind exactly where an earlier clause's is.
      have hclash : (∃ side ∈ c.op.bounds, (onSide (q.limits f) side).map PyDatetime.aware = some (!d.aware)) ↔
          ∃ b ∈ cs, b.Clash w c := by
        constructor
        · intro ⟨side, hside, hkind⟩
          obtain ⟨b, hb, hbk⟩ := (hk f hf side _).1 hkind
          exact ⟨b, hb, f, hf, side, by cases side <;> simp, _, hbk, by rw [haware, if_pos ⟨rfl, hside⟩]; simp⟩
        · rintro ⟨b, hb, g, hg, side, -, y, hbk, hck⟩
          rw [haware] at hck
          split at hck
          · next h =>
            obtain ⟨rfl, hside⟩ := h
            refine ⟨side, hside, (hk g hg side _).2 ⟨b, hb, ?_⟩⟩
            rw [hbk, Option.some.inj hck, Bool.not_not]
          · cases hck
      rw [hparse, ok_bind]
      rcases tighten_spec f.timeName c.op d (q.limits f) with
        ⟨hop, e, he, hown⟩ | ⟨hex, m, he⟩ | ⟨hop, hall, r, hr, hkr⟩
      · rw [he]
        exact .refused (fun hd => ((documented_time hf hc).1 hd).1 hop) hown
      · rw [he]
        refine .clash ((documented_time hf hc).2 ⟨fun h => ?_, d, hm⟩) (hclash.1 hex)
        obtain ⟨side, hside, -⟩ := hex
        rw [h] at hside
        cases hside
      · rw [hr, ok_bind]
        refine .added ((documented_time hf hc).2 ⟨hop, d, hm⟩) (fun h => ?_) fun g hg side x => ?_
        · obtain ⟨side, hside, hkind⟩ := hclash.2 h
          exact hall side hside hkind
        · rw [limits_withLimits hf hg]
          simp only [List.mem_append, List.mem_singleton, or_and_right, exists_or, exists_eq_left, ← hk g hg side x,
            haware]
          by_cases hgf : g = f
          · subst hgf
            rw [if_pos rfl, hkr]
            by_cases hside : side ∈ c.op.bounds
            · simp only [hside, if_true, and_self]
              constructor
              · exact .inr
              · rintro (h | h)
                · -- An earlier bound of the other kind would have clashed.
                  by_contra hne
                  refine hall side hside ?_
                  rw [h]
                  cases x <;> cases hd : d.aware <;> simp_all
                · exact h
            · simp [hside]
          · simp [hgf]

/-- Statuses are parsed if each is known. -/
theorem parseStatuses_spec (xs : List (Scalar F)) :
    (xs.all (fun x => (statusByName (asciiLower (x.text w))).isSome) = true ∧ ∃ l, parseStatuses w xs = .ok l) ∨
      xs.all (fun x => (statusByName (asciiLower (x.text w))).isSome) = false ∧
        ∃ e, parseStatuses w xs = .error e ∧ e.Own := by
  induction xs with
  | nil => exact .inl ⟨rfl, _, rfl⟩
  | cons x xs ih =>
    simp only [parseStatuses] at ih
    simp only [parseStatuses, List.mapM_cons, List.all_cons]
    cases statusByName (asciiLower (x.text w)) with
    | none => exact .inr ⟨rfl, _, rfl, _, rfl⟩
    | some s =>
      rcases ih with ⟨hall, l, hl⟩ | ⟨hall, e, he, hown⟩
      · exact .inl ⟨by rw [hall]; rfl, s :: l, by rw [ok_bind, hl]; rfl⟩
      · exact .inr ⟨by rw [hall]; rfl, e, by rw [ok_bind, he]; rfl, hown⟩

/-- **What a clause does**, after the clauses that made the filter. -/
theorem applied {cs : List (Clause F)} {q : VisibilityQuery F} (hk : Kinds w cs q) (c : Clause F) :
    Applied w cs c (applyClause w q c) := by
  by_cases hf : ∃ f ∈ timeFields, systemField c.field = some f
  · obtain ⟨f, hf, hc⟩ := hf
    exact applied_time hf hc hk
  · have hother : ∀ f ∈ timeFields, systemField c.field ≠ some f := fun g hg hc => hf ⟨g, hg, hc⟩
    have hkeep {q' : VisibilityQuery F} (hd : c.documented w = true) (hq : ∀ f, q'.limits f = q.limits f) :
        Applied w cs c (.ok q') :=
      .added hd (fun ⟨b, _, hb⟩ => Clause.not_clash_of_ne hother hb) (hk.keep hq hother)
    cases hs : systemField c.field with
    | none =>
      simp only [applyClause, hs]
      split
      · next ho => exact .refused (by simp [Clause.documented, hs, ho]) ⟨_, rfl⟩
      · next ho =>
        cases hv : c.value with
        | list xs => exact .refused (by simp [Clause.documented, hs, hv, QueryValue.isScalar]) ⟨_, rfl⟩
        | scalar x =>
          refine hkeep ?_ fun f => by cases f <;> rfl
          simpa [Clause.documented, hs, hv, QueryValue.isScalar] using ho
    | some f =>
      cases f with
      | workflowType =>
        simp only [applyClause, hs]
        cases ho : c.op with
        | eq | isIn | ne =>
          exact hkeep (by simp [Clause.documented, hs, ho]) fun f => by cases f <;> rfl
        | _ => exact .refused (by simp [Clause.documented, hs, ho]) ⟨_, rfl⟩
      | workflowId =>
        simp only [applyClause, hs]
        cases hv : c.value with
        | list xs => exact .refused (by simp [Clause.documented, hs, hv, QueryValue.isScalar]) ⟨_, rfl⟩
        | scalar x =>
          cases ho : c.op with
          | eq | startsWith =>
            exact hkeep (by simp [Clause.documented, hs, ho, hv, QueryValue.isScalar]) fun f => by cases f <;> rfl
          | _ => exact .refused (by simp [Clause.documented, hs, ho]) ⟨_, rfl⟩
      | executionStatus =>
        simp only [applyClause, hs]
        cases ho : c.op with
        | eq | isIn =>
          rcases parseStatuses_spec (w := w) c.value.items with ⟨hall, l, hl⟩ | ⟨hall, e, he, hown⟩
          · simp only [hl, ok_bind]
            exact hkeep (by simp [Clause.documented, hs, ho, hall]) fun f => by cases f <;> rfl
          · simp only [he, error_bind]
            exact .refused (by simp [Clause.documented, hs, hall]) hown
        | _ => exact .refused (by simp [Clause.documented, hs, ho]) ⟨_, rfl⟩
      | startTime => exact absurd hs (hother _ (by simp [timeFields]))
      | closeTime => exact absurd hs (hother _ (by simp [timeFields]))

/-! ## What a row of clauses does -/

/-- What the clauses do to the empty filter: one is not documented, or two of
them clash first, or all bounds are added. -/
inductive Folded (w : QueryWorld F) (cs : List (Clause F)) : Except Exc (VisibilityQuery F) → Prop
  | refused {e : Exc} (hd : ¬ ∀ c ∈ cs, c.documented w = true) (hm : ¬ Mixes w cs) (he : e.Own) :
    Folded w cs (.error e)
  | clash {m : String} (hm : Mixes w cs) : Folded w cs (.error (.typeError m))
  | added {q : VisibilityQuery F} (hd : ∀ c ∈ cs, c.documented w = true) (hm : ¬ Mixes w cs) (hk : Kinds w cs q) :
    Folded w cs (.ok q)

/-- **What a row of clauses does**: the first that does not fit decides. -/
theorem folded (cs : List (Clause F)) : Folded w cs (cs.foldlM (applyClause w) {}) := by
  induction cs using List.reverseRecOn with
  | nil => exact .added (by simp) not_mixes_nil kinds_empty
  | append_singleton cs c ih =>
    rw [List.foldlM_append]
    simp only [List.foldlM_cons, List.foldlM_nil, bind_pure]
    have hall : (∀ b ∈ cs ++ [c], b.documented w = true) ↔
        (∀ b ∈ cs, b.documented w = true) ∧ c.documented w = true := by
      simp [or_imp, forall_and]
    generalize cs.foldlM (applyClause w) {} = p at ih
    cases ih with
    | refused hd hm he =>
      refine .refused (fun h => hd (hall.1 h).1) (fun h => ?_) he
      rcases mixes_concat.1 h with h | ⟨h, -⟩
      · exact hm h
      · exact hd h
    | clash hm => exact .clash (mixes_concat.2 (.inl hm))
    | @added q hd hm hk =>
      rw [ok_bind]
      have hc := applied hk c
      generalize applyClause w q c = p at hc
      cases hc with
      | refused hc he =>
        refine .refused (fun h => hc (hall.1 h).2) (fun h => ?_) he
        rcases mixes_concat.1 h with h | ⟨-, h, -⟩
        · exact hm h
        · exact hc h
      | clash hc hb => exact .clash (mixes_concat.2 (.inr ⟨hd, hc, hb⟩))
      | added hc hb hk =>
        refine .added (hall.2 ⟨hd, hc⟩) (fun h => ?_) hk
        rcases mixes_concat.1 h with h | ⟨-, -, h⟩
        · exact hm h
        · exact hb h

/-! ## Integers too long -/

/-- The text starts with more digits than an `int` may have, and no fraction
makes them a `float`. -/
def LongInt (s : List Char) : Prop :=
  Py.intMaxStrDigits < ((signOf s).2.takeWhile isDecimalChar).length ∧
    scanFraction ((signOf s).2.dropWhile isDecimalChar) = none

/-- The tokenizer comes to such an integer. -/
inductive MeetsLongInt (w : QueryWorld F) : List Char → Prop
  | here {c : Char} {cs : List Char} (hc : Py.isSpaceChar c = false) (h : LongInt (c :: cs)) : MeetsLongInt w (c :: cs)
  | space {c : Char} {cs : List Char} (hc : Py.isSpaceChar c = true) (h : MeetsLongInt w cs) : MeetsLongInt w (c :: cs)
  | token {c : Char} {cs rest : List Char} {t : Token F} (hc : Py.isSpaceChar c = false)
    (hn : nextToken w (c :: cs) = .ok (t, rest)) (h : MeetsLongInt w rest) : MeetsLongInt w (c :: cs)

/-- A long integer starts with a sign or a digit. -/
theorem LongInt.head {c : Char} {cs : List Char} (h : LongInt (c :: cs)) : c = '-' ∨ isDecimalChar c = true := by
  by_cases hc : c = '-'
  · exact .inl hc
  · refine .inr (by_contra fun hd => ?_)
    have hs : signOf (c :: cs) = (false, c :: cs) := by
      unfold signOf
      split
      · next he => exact absurd (List.head_eq_of_cons_eq he) hc
      · rfl
    have hlen := h.1
    rw [hs] at hlen
    simp only [List.takeWhile_cons, hd, Bool.false_eq_true, if_false, List.length_nil, not_lt_zero] at hlen

theorem scanNumber_longInt {s : List Char} (h : LongInt s) :
    ∃ m rest, scanNumber w s = some (.error (.valueError m), rest) := by
  have hlen := h.1
  simp only [scanNumber, h.2]
  generalize (signOf s).2.takeWhile isDecimalChar = digits at hlen
  have hne : digits.isEmpty = false := by
    cases digits with
    | nil => rw [List.length_nil] at hlen; omega
    | cons => rfl
  rw [if_neg (by simp [hne])]
  cases hi : Py.int digits with
  | error m => exact ⟨m, _, rfl⟩
  | ok n =>
    have := (Py.int_isOk.1 ⟨n, hi⟩).2
    omega

theorem nextToken_longInt {c : Char} {cs : List Char} (h : LongInt (c :: cs)) :
    ∃ m, nextToken w (c :: cs) = .error (.valueError m) := by
  have hhead := h.head
  have hplain {l : List Char} (hm : '-' ∉ l) (hd : l.all (fun x => !isDecimalChar x) = true) : c ∉ l := by
    rcases hhead with rfl | hc
    · exact hm
    · intro hmem
      have := List.all_eq_true.1 hd c hmem
      rw [hc] at this
      cases this
  have hq : ¬ (c = apostrophe ∨ c = doubleQuote) := by
    rcases hhead with rfl | hc
    · decide
    · exact not_isQuote_of_decimal hc
  have hop : c ∉ ['<', '>', '!', '='] := hplain (by decide) (by decide)
  have hpunct : (punctuation c : Option (Token F)) = none := by
    have : c ∉ ['(', ')', ','] := hplain (by decide) (by decide)
    unfold punctuation
    split <;> simp_all
  obtain ⟨m, rest, hnum⟩ := scanNumber_longInt (w := w) h
  refine ⟨m, ?_⟩
  simp only [nextToken, if_neg hq, scanOp_eq_none hop, hpunct, hnum]
  rfl

/-- Only a long integer keeps a number from being scanned. -/
theorem longInt_of_scanNumber {s rest : List Char} {e : Exc} (h : scanNumber w s = some (.error e, rest)) :
    LongInt s ∧ ∃ m, e = .valueError m := by
  simp only [scanNumber] at h
  split at h
  · cases h
  · split at h
    · cases h
    · next hf =>
      cases hi : Py.int ((signOf s).2.takeWhile isDecimalChar) with
      | ok n => rw [hi] at h; cases h
      | error m =>
        rw [hi] at h
        cases h
        have hdecimal : (Py.digitsValue 0 ((signOf s).2.takeWhile isDecimalChar)).isSome = true := by
          rw [Py.digitsValue_isSome, List.all_eq_true]
          intro x hx
          have hx : isDecimalChar x = true := List.mem_takeWhile_imp hx
          exact hx
        refine ⟨⟨?_, hf⟩, m, rfl⟩
        by_contra hlen
        obtain ⟨n, hn⟩ := Py.int_isOk.2 ⟨hdecimal, not_lt.1 hlen⟩
        rw [hi] at hn
        cases hn

theorem nextToken_error {c : Char} {cs : List Char} {e : Exc} (h : nextToken w (c :: cs) = .error e) :
    e.Own ∨ LongInt (c :: cs) ∧ ∃ m, e = .valueError m := by
  simp only [nextToken] at h
  split at h
  · split at h
    · cases h
    · exact .inl (own_reject h)
  · split at h
    · cases h
    · split at h
      · cases h
      · split at h
        · next value rest hnum =>
          cases value with
          | ok x => cases h
          | error e' =>
            cases h
            exact .inr (longInt_of_scanNumber hnum)
        · split at h
          · cases h
          · exact .inl (own_reject h)

/-- **How a text fails to be tokenized**: it comes to a long integer, or no
token starts somewhere. -/
theorem tokenizeAll_error_spec {s : List Char} {e : Exc} (h : tokenizeAll w s = .error e) :
    e.Own ∨ MeetsLongInt w s ∧ ∃ m, e = .valueError m := by
  induction hn : s.length using Nat.strong_induction_on generalizing s with
  | h n ih =>
  cases s with
  | nil => cases h
  | cons c cs =>
    rw [List.length_cons] at hn
    cases hc : Py.isSpaceChar c with
    | true =>
      rw [tokenizeAll_space hc] at h
      rcases ih _ (by omega) h rfl with hown | ⟨hm, hv⟩
      · exact .inl hown
      · exact .inr ⟨.space hc hm, hv⟩
    | false =>
      cases ht : nextToken w (c :: cs) with
      | error e' =>
        rw [tokenizeAll_error hc ht] at h
        cases h
        rcases nextToken_error ht with hown | ⟨hl, hv⟩
        · exact .inl hown
        · exact .inr ⟨.here hc hl, hv⟩
      | ok p =>
        obtain ⟨t, rest⟩ := p
        have hlen := nextToken_length ht
        rw [List.length_cons] at hlen
        rw [tokenizeAll_token hc ht, except_map_eq_error] at h
        rcases ih _ (by omega) h rfl with hown | ⟨hm, hv⟩
        · exact .inl hown
        · exact .inr ⟨.token hc ht hm, hv⟩

theorem tokenizeAll_longInt {s : List Char} (h : MeetsLongInt w s) :
    ∃ m, tokenizeAll w s = .error (.valueError m) := by
  induction h with
  | here hc h =>
    obtain ⟨m, hm⟩ := nextToken_longInt (w := w) h
    exact ⟨m, tokenizeAll_error hc hm⟩
  | space hc h ih =>
    obtain ⟨m, hm⟩ := ih
    exact ⟨m, by rw [tokenizeAll_space hc, hm]⟩
  | token hc hn h ih =>
    obtain ⟨m, hm⟩ := ih
    exact ⟨m, by rw [tokenizeAll_token hc hn, hm]; rfl⟩

/-! ## How a query fails -/

theorem Exc.not_own_valueError (m : String) : ¬ (Exc.valueError m).Own := by
  rintro ⟨_, h⟩
  cases h

theorem Exc.not_own_typeError (m : String) : ¬ (Exc.typeError m).Own := by
  rintro ⟨_, h⟩
  cases h

/-- How the parser ends on the tokens. -/
theorem parseFrom_outcome (toks : List (Token F)) :
    (Mixes w (read w toks).clauses ∧ ∃ m, parseFrom w toks.length {} toks = .error (.typeError m)) ∨
      ¬ Mixes w (read w toks).clauses ∧
        ((∃ v, parseFrom w toks.length {} toks = .ok v) ∨
          ∃ e, parseFrom w toks.length {} toks = .error e ∧ e.Own) := by
  rw [parseFrom_eq_read, Reading.apply]
  cases hr : (read w toks).clauses.foldlM (applyClause w) {} with
  | error e =>
    have hf := folded (w := w) (read w toks).clauses
    rw [hr] at hf
    cases hf with
    | refused _ hm he => exact .inr ⟨hm, .inr ⟨e, rfl, he⟩⟩
    | clash hm => exact .inl ⟨hm, _, rfl⟩
  | ok q =>
    have hf := folded (w := w) (read w toks).clauses
    rw [hr] at hf
    cases hf with
    | added _ hm _ =>
      refine .inr ⟨hm, ?_⟩
      rw [ok_bind]
      cases he : (read w toks).ending with
      | complete => exact .inl ⟨_, rfl⟩
      | grouped field => exact .inl ⟨_, rfl⟩
      | broken e => exact .inr ⟨e, rfl, own_of_read he⟩

/-- A world with two texts of datetimes, one naive and one aware. -/
def isoWorld : QueryWorld Unit where
  float _ := ()
  floatStr _ := "nan"
  fromIso s :=
    if s = "2026-01-01" then some ⟨63902908800000000, none⟩
    else if s = "2026-01-02T00:00:00Z" then some ⟨63902995200000000, some 0⟩
    else none
  localInstant := id

end Dbosify
