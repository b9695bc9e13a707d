/-
Chain resolution: the newest run of a chain by exact-id lookups.

The resolver probes a ladder of indexes, doubles past its top, and narrows the
bracket it found, each probe one atomic lookup. Meanwhile the chain grows. The
lower end of the bracket was there at one lookup and the upper end was missing
at another, so when the two are adjacent the chain passed through the lower
end in between (`resolveLatestRun_linearizable`). Runs deleted at the front are
crossed only where the ladder meets one that is left
(`resolveLatestRun_gapped_iff`).
-/
import Mathlib
import Dbosify.Ids

/-! ## A counter that grows one at a time -/

namespace Counter

/-- A counter read at instants: from one to the next it stays, or grows by one. -/
structure Grows (newest : ℕ → ℕ) : Prop where
  mono : Monotone newest
  unit : ∀ t, newest (t + 1) ≤ newest t + 1

/-- A counter skips no value on its way up. -/
theorem Grows.attains_up {newest : ℕ → ℕ} (h : Grows newest) {n s : ℕ} (hs : newest s ≤ n) :
    ∀ d, n ≤ newest (s + d) → ∃ u, s ≤ u ∧ u ≤ s + d ∧ newest u = n := by
  intro d
  induction d with
  | zero => intro hn; exact ⟨s, le_rfl, le_rfl, le_antisymm hs hn⟩
  | succ d ih =>
    intro hn
    by_cases hd : n ≤ newest (s + d)
    · obtain ⟨u, hsu, hud, hu⟩ := ih hd
      exact ⟨u, hsu, by omega, hu⟩
    · have hstep : newest (s + (d + 1)) ≤ newest (s + d) + 1 := h.unit (s + d)
      exact ⟨s + (d + 1), by omega, le_rfl, by omega⟩

/-- A value seen at `t` and not passed at `s` is attained between the two. -/
theorem Grows.attains {newest : ℕ → ℕ} (h : Grows newest) {n s t a b : ℕ} (hs : newest s ≤ n) (ht : n ≤ newest t)
    (has : a ≤ s) (hat : a ≤ t) (htb : t ≤ b) : ∃ u, a ≤ u ∧ u ≤ b ∧ newest u = n := by
  by_cases hst : s ≤ t
  · obtain ⟨u, hsu, hut, hu⟩ := h.attains_up hs (t - s) (by rwa [Nat.add_sub_of_le hst])
    exact ⟨u, by omega, by omega, hu⟩
  · have hts : newest t ≤ newest s := h.mono (by omega)
    exact ⟨t, hat, htb, by omega⟩

end Counter

namespace Dbosify

/-! ## The resolver -/

def denseProbeLimit : Nat := 16
def maxProbeExponent : Nat := 20
def refineBatch : Nat := 16

/-- Indexes 0 to 16, then powers of two. -/
def ladder : List Nat :=
  List.range (denseProbeLimit + 1) ++ (List.range' 5 (maxProbeExponent + 1 - 5)).map (1 <<< ·)

/-- `range(start, stop, step)`. -/
def pyRange (start stop step : Nat) : List Nat := List.range' start ((stop - start + (step - 1)) / step) step

/-- At most sixteen evenly spaced indexes strictly between `lo` and `hi`. -/
def refinePoints (lo hi : Nat) : List Nat :=
  let step := max 1 ((hi - lo) / (refineBatch + 1))
  (pyRange (lo + step) hi step).take refineBatch

variable {σ : Type}

/-- What a probe found: indexes, with the statuses of their runs. -/
abbrev Found (σ : Type) := List (Nat × σ)

def Found.indexes (found : Found σ) : List Nat := found.map (·.1)

/-- `max(found)` and its status. -/
def Found.newest (found : Found σ) : Option (Nat × σ) := do
  let lo ← found.indexes.max?
  return (lo, ← found.lookup lo)

/-- `next(c for c in indexes if c > lo and c not in found)`. -/
def Found.firstMissing (found : Found σ) (indexes : List Nat) (lo : Nat) : Option Nat :=
  indexes.find? fun c => lo < c && !found.indexes.contains c

/-- `probe`: one batched lookup of these indexes. -/
def probe (workflowId : String) (lookup : List String → List (String × σ)) (indexes : List Nat) : Found σ :=
  (lookup (indexes.map (runDbosId workflowId))).filterMap fun (id, status) =>
    (indexes.find? (runDbosId workflowId · = id)).map (·, status)

/-- Where `resolve_latest_run` stands before its next lookup, or what it
returned. -/
inductive Resolver (σ : Type)
  | ladder
  | doubling (lo : Nat) (status : σ)
  | refining (lo hi : Nat) (status : σ)
  | returned (latest : Option (Nat × σ))

namespace Resolver

/-- The indexes of the next lookup. -/
def points : Resolver σ → List Nat
  | ladder => Dbosify.ladder
  | doubling lo _ => (List.range' 1 4).map (lo <<< ·)
  | refining lo hi _ => refinePoints lo hi
  | returned _ => []

/-- `while hi - lo > 1`. -/
def bracket (lo hi : Nat) (status : σ) : Resolver σ :=
  if hi - lo > 1 then refining lo hi status else returned (some (lo, status))

/-- What the resolver makes of a lookup. -/
def next (r : Resolver σ) (found : Found σ) : Resolver σ :=
  match r with
  | ladder =>
    match found.newest with
    | none => returned none
    | some (lo, status) =>
      match found.firstMissing r.points lo with
      | none => doubling lo status
      | some hi => bracket lo hi status
  | doubling lo status =>
    let (lo, status) := found.newest.getD (lo, status)
    match found.firstMissing r.points lo with
    | none => doubling lo status
    | some hi => bracket lo hi status
  | refining lo hi status =>
    match found.newest with
    | some (lo, status) => bracket lo ((found.firstMissing r.points lo).getD hi) status
    -- `points[0]`: there is always one
    | none => bracket lo (r.points.headD hi) status
  | returned latest => returned latest

end Resolver

/-- `resolve_latest_run` after `k` lookups; `lookup k` is what the `k`-th of
them answers. -/
def resolveLatestRun (workflowId : String) (lookup : Nat → List String → List (String × σ)) : Nat → Resolver σ
  | 0 => .ladder
  | k + 1 =>
    let r := resolveLatestRun workflowId lookup k
    r.next (probe workflowId (lookup k) r.points)

/-! ## A chain, and what a probe of it finds -/

/-- The rows of a chain `0..newest`, as a batched lookup by id answers. -/
def chainLookup (workflowId : String) (newest : Nat) (status : String → σ) (dbosIds : List String) :
    List (String × σ) :=
  let existing := (List.range (newest + 1)).map (runDbosId workflowId)
  (dbosIds.filter existing.contains).map fun id => (id, status id)

theorem runDbosId_injective (workflowId : String) : Function.Injective (runDbosId workflowId) := by
  have hne : ∀ n : Nat, workflowId ≠ workflowId ++ runSeparator ++ toString n := by
    intro n h
    have hl : workflowId.length = (workflowId ++ runSeparator ++ toString n).length := congrArg String.length h
    have hsep : runSeparator.length = 3 := rfl
    rw [String.length_append, String.length_append, hsep] at hl
    omega
  intro m n h
  simp only [runDbosId] at h
  split at h
  · next hm =>
    split at h
    · next hn => rw [hm, hn]
    · exact absurd h (hne n)
  · split at h
    · exact absurd h.symm (hne m)
    · exact Nat.repr_injective ((String.append_right_inj _).1 h)

/-- A probe of these rows finds the indexes that are among them. -/
theorem probe_rows (workflowId : String) (rows : List Nat) (status : String → σ) (indexes : List Nat) :
    probe workflowId (fun dbosIds => (dbosIds.filter (rows.map (runDbosId workflowId)).contains).map
        fun id => (id, status id)) indexes =
      (indexes.filter rows.contains).map fun i => (i, status (runDbosId workflowId i)) := by
  have hinj := runDbosId_injective workflowId
  have hmem : ∀ i, (rows.map (runDbosId workflowId)).contains (runDbosId workflowId i) = rows.contains i := by
    intro i
    rw [Bool.eq_iff_iff, List.contains_iff_mem, List.contains_iff_mem, List.mem_map_of_injective hinj]
  have hfind : ∀ i ∈ indexes, indexes.find? (runDbosId workflowId · = runDbosId workflowId i) = some i := by
    intro i hi
    cases hf : indexes.find? (runDbosId workflowId · = runDbosId workflowId i) with
    | none => simpa using List.find?_eq_none.1 hf i hi
    | some j =>
      have hj := List.find?_some hf
      rw [decide_eq_true_eq] at hj
      rw [hinj hj]
  simp only [probe, List.filter_map, List.filterMap_map]
  have hfilter : indexes.filter ((rows.map (runDbosId workflowId)).contains ∘ runDbosId workflowId) =
      indexes.filter rows.contains := List.filter_congr fun i _ => hmem i
  rw [hfilter, ← List.filterMap_eq_map]
  refine List.filterMap_congr fun i hi => ?_
  simp only [Function.comp_apply, hfind i (List.mem_of_mem_filter hi), Option.map_some]

/-- A probe finds the indexes up to the newest run. -/
theorem probe_chain (workflowId : String) (newest : Nat) (status : String → σ) (indexes : List Nat) :
    probe workflowId (chainLookup workflowId newest status) indexes =
      (indexes.filter (· ≤ newest)).map fun i => (i, status (runDbosId workflowId i)) := by
  have hrows : ∀ i, (List.range (newest + 1)).contains i = decide (i ≤ newest) := by
    intro i
    rw [Bool.eq_iff_iff, List.contains_iff_mem, List.mem_range, decide_eq_true_eq]
    omega
  refine (probe_rows workflowId _ status indexes).trans ?_
  rw [List.filter_congr fun i _ => hrows i]

theorem Found.lookup_map {l : List Nat} {i : Nat} (f : Nat → σ) (h : i ∈ l) :
    (l.map fun j => (j, f j)).lookup i = some (f i) := by
  induction l with
  | nil => cases h
  | cons j l ih =>
    rw [List.map_cons, List.lookup_cons]
    by_cases hij : i = j
    · rw [hij, beq_self_eq_true]
    · rw [beq_false_of_ne hij]
      exact ih ((List.mem_cons.1 h).resolve_left hij)

/-- The newest of what a probe found is its largest index. -/
theorem Found.newest_map (l : List Nat) (f : Nat → σ) :
    Found.newest (l.map fun i => (i, f i)) = l.max?.map fun i => (i, f i) := by
  have hl : Found.indexes (l.map fun i => (i, f i)) = l := by
    rw [Found.indexes, List.map_map]
    exact List.map_id' _
  rw [Found.newest, hl]
  cases hm : l.max? with
  | none => rfl
  | some i => simp [Found.lookup_map f (List.max?_mem hm)]

/-- What `found` says of a chain whose newest run was `n`. -/
structure Found.Of (found : Found σ) (indexes : List Nat) (n : Nat) (status : Nat → σ) : Prop where
  found_eq : found = (indexes.filter (· ≤ n)).map fun i => (i, status i)

section

variable {found : Found σ} {indexes : List Nat} {n : Nat} {status : Nat → σ}

theorem Found.Of.indexes_eq (h : found.Of indexes n status) : found.indexes = indexes.filter (· ≤ n) := by
  rw [Found.indexes, h.found_eq, List.map_map]
  exact List.map_id' _

/-- The newest found is a probed index the chain had, and no probed index the
chain had is newer. -/
theorem Found.Of.newest_some (h : found.Of indexes n status) {lo : Nat} {st : σ} (hn : found.newest = some (lo, st)) :
    (lo ∈ indexes ∧ lo ≤ n ∧ ∀ i ∈ indexes, i ≤ n → i ≤ lo) ∧ st = status lo := by
  rw [h.found_eq, Found.newest_map, Option.map_eq_some_iff] at hn
  obtain ⟨m, hm, he⟩ := hn
  cases he
  rw [List.max?_eq_some_iff] at hm
  obtain ⟨hmem, hmax⟩ := hm
  simp only [List.mem_filter, decide_eq_true_eq] at hmem hmax
  exact ⟨⟨hmem.1, hmem.2, fun i hi hin => hmax i ⟨hi, hin⟩⟩, rfl⟩

/-- Nothing found: the chain had no probed index. -/
theorem Found.Of.newest_none (h : found.Of indexes n status) (hn : found.newest = none) : ∀ i ∈ indexes, n < i := by
  intro i hi
  rw [h.found_eq, Found.newest_map, Option.map_eq_none_iff, List.max?_eq_none_iff, List.filter_eq_nil_iff] at hn
  simpa using hn i hi

/-- The first missing index was probed, is past `lo`, and the chain had not
reached it. -/
theorem Found.Of.firstMissing_some (h : found.Of indexes n status) {lo hi : Nat}
    (hm : found.firstMissing indexes lo = some hi) : hi ∈ indexes ∧ lo < hi ∧ n < hi := by
  have hp := List.find?_some hm
  have hmem := List.mem_of_find?_eq_some hm
  rw [h.indexes_eq] at hp
  simp only [Bool.and_eq_true, decide_eq_true_eq, Bool.not_eq_true', ← Bool.not_eq_true, List.contains_iff_mem,
    List.mem_filter, not_and, not_le] at hp
  exact ⟨hmem, hp.1, hp.2 hmem⟩

/-- No probed index past `lo` is missing. -/
theorem Found.Of.firstMissing_none (h : found.Of indexes n status) {lo : Nat}
    (hm : found.firstMissing indexes lo = none) : ∀ i ∈ indexes, lo < i → i ≤ n := by
  intro i hi hlo
  have hp := List.find?_eq_none.1 hm i hi
  rw [h.indexes_eq] at hp
  simpa [hlo, hi] using hp

end

/-! ## The indexes each lookup probes -/

theorem zero_mem_ladder : 0 ∈ ladder := by decide

theorem one_mem_ladder : 1 ∈ ladder := by decide

theorem mem_refinePoints {lo hi i : Nat} (h : i ∈ refinePoints lo hi) : lo < i ∧ i < hi := by
  have hi := List.mem_of_mem_take h
  simp only [pyRange, List.mem_range'] at hi
  obtain ⟨j, hj, rfl⟩ := hi
  generalize hs : max 1 ((_ - lo) / (refineBatch + 1)) = step at hj
  have hstep : 1 ≤ step := by omega
  have hmul : step * (j + 1) ≤ hi - (lo + step) + (step - 1) :=
    (Nat.mul_le_mul_left _ hj).trans (Nat.mul_div_le _ _)
  rw [Nat.mul_add, Nat.mul_one] at hmul
  omega

/-- A bracket that is open has an index to probe. -/
theorem refinePoints_ne_nil {lo hi : Nat} (h : lo + 1 < hi) : refinePoints lo hi ≠ [] := by
  simp only [refinePoints, pyRange]
  have hstep : max 1 ((hi - lo) / (refineBatch + 1)) < hi - lo := by
    have hdiv : (hi - lo) / (refineBatch + 1) < hi - lo := Nat.div_lt_self (by omega) (by decide)
    omega
  have hpos : 0 < max 1 ((hi - lo) / (refineBatch + 1)) := by omega
  generalize max 1 ((hi - lo) / (refineBatch + 1)) = step at hstep hpos
  have hlen : 0 < (hi - (lo + step) + (step - 1)) / step := Nat.div_pos (by omega) hpos
  rw [Ne, List.take_eq_nil_iff, List.range'_eq_nil_iff]
  rintro (h | h)
  · cases h
  · omega

/-- Doubling probes past its bracket only. -/
theorem mem_doubling {lo i : Nat} {st : σ} (hlo : 0 < lo) (h : i ∈ (Resolver.doubling lo st).points) : lo < i := by
  simp only [Resolver.points, List.mem_map, List.mem_range'] at h
  obtain ⟨k, ⟨j, -, rfl⟩, rfl⟩ := h
  rw [Nat.shiftLeft_eq, Nat.one_mul, Nat.add_comm, Nat.pow_succ]
  have hpow : 1 ≤ 2 ^ j := Nat.one_le_two_pow
  nlinarith

/-! ## What a bracket is evidence of -/

section

variable (workflowId : String) (newest : ℕ → ℕ) (instant : ℕ → ℕ) (status : ℕ → String → σ)

/-- The chain had run `lo` at one of the first `k` lookups, with this status. -/
def Seen (k lo : Nat) (st : σ) : Prop :=
  ∃ j < k, lo ≤ newest (instant j) ∧ st = status j (runDbosId workflowId lo)

/-- The chain did not have run `hi` at one of the first `k` lookups. -/
def Missed (k hi : Nat) : Prop := ∃ j < k, newest (instant j) < hi

/-- What the resolver's state is evidence of, after `k` lookups. -/
def Resolver.Sound (k : Nat) : Resolver σ → Prop
  | ladder => k = 0
  | doubling lo st => 0 < lo ∧ Seen workflowId newest instant status k lo st
  | refining lo hi st => lo + 1 < hi ∧ Seen workflowId newest instant status k lo st ∧ Missed newest instant k hi
  | returned latest => ∃ lo st, latest = some (lo, st) ∧
      Seen workflowId newest instant status k lo st ∧ Missed newest instant k (lo + 1)

variable {workflowId newest instant status}

theorem Seen.mono {k lo : Nat} {st : σ} (h : Seen workflowId newest instant status k lo st) :
    Seen workflowId newest instant status (k + 1) lo st := by
  obtain ⟨j, hj, h⟩ := h
  exact ⟨j, by omega, h⟩

theorem Missed.mono {k hi : Nat} (h : Missed newest instant k hi) : Missed newest instant (k + 1) hi := by
  obtain ⟨j, hj, h⟩ := h
  exact ⟨j, by omega, h⟩

theorem Resolver.sound_bracket {k lo hi : Nat} {st : σ} (hlt : lo < hi)
    (hs : Seen workflowId newest instant status k lo st) (hm : Missed newest instant k hi) :
    (bracket lo hi st).Sound workflowId newest instant status k := by
  simp only [bracket]
  split
  · exact ⟨by omega, hs, hm⟩
  · have hhi : hi = lo + 1 := by omega
    exact ⟨lo, st, rfl, hs, by rwa [← hhi]⟩

variable {k : Nat} {r : Resolver σ} {found : Found σ}

/-- A lookup keeps the evidence. -/
theorem Resolver.sound_next (h : r.Sound workflowId newest instant status k)
    (hf : found.Of r.points (newest (instant k)) fun i => status k (runDbosId workflowId i)) :
    (r.next found).Sound workflowId newest instant status (k + 1) := by
  cases r with
  | ladder =>
    simp only [next]
    cases hn : found.newest with
    | none => exact absurd (hf.newest_none hn 0 zero_mem_ladder) (by omega)
    | some e =>
      obtain ⟨lo, st⟩ := e
      obtain ⟨⟨-, hlo, hmax⟩, hst⟩ := hf.newest_some hn
      have hseen : Seen workflowId newest instant status (k + 1) lo st := ⟨k, by omega, hlo, hst⟩
      dsimp only
      cases hm : found.firstMissing (points (ladder : Resolver σ)) lo with
      | none =>
        refine ⟨?_, hseen⟩
        by_contra hz
        have hone : 1 ≤ newest (instant k) := hf.firstMissing_none hm 1 one_mem_ladder (by omega)
        have := hmax 1 one_mem_ladder hone
        omega
      | some hi =>
        obtain ⟨-, hlt, hmiss⟩ := hf.firstMissing_some hm
        exact sound_bracket hlt hseen ⟨k, by omega, hmiss⟩
  | doubling lo st =>
    obtain ⟨hpos, hseen⟩ := h
    obtain ⟨lo', st', hn, hlo', hseen'⟩ : ∃ lo' st', found.newest.getD (lo, st) = (lo', st') ∧ 0 < lo' ∧
        Seen workflowId newest instant status (k + 1) lo' st' := by
      cases hn : found.newest with
      | none => exact ⟨lo, st, rfl, hpos, hseen.mono⟩
      | some e =>
        obtain ⟨lo', st'⟩ := e
        obtain ⟨⟨hmem, hlo, -⟩, hst⟩ := hf.newest_some hn
        have := mem_doubling hpos hmem
        exact ⟨lo', st', rfl, by omega, k, by omega, hlo, hst⟩
    simp only [next, hn]
    cases hm : found.firstMissing (points (doubling lo st)) lo' with
    | none => exact ⟨hlo', hseen'⟩
    | some hi =>
      obtain ⟨-, hlt, hmiss⟩ := hf.firstMissing_some hm
      exact sound_bracket hlt hseen' ⟨k, by omega, hmiss⟩
  | refining lo hi st =>
    obtain ⟨hlt, hseen, hmissed⟩ := h
    simp only [next]
    cases hn : found.newest with
    | none =>
      obtain ⟨p, ps, hp⟩ := List.exists_cons_of_ne_nil (refinePoints_ne_nil hlt)
      have hmem : p ∈ (refining lo hi st).points := by simp [points, hp]
      have hhead : (refining lo hi st).points.headD hi = p := by simp [points, hp]
      dsimp only
      rw [hhead]
      exact sound_bracket (mem_refinePoints hmem).1 hseen.mono ⟨k, by omega, hf.newest_none hn p hmem⟩
    | some e =>
      obtain ⟨lo', st'⟩ := e
      obtain ⟨⟨hmem, hlo, -⟩, hst⟩ := hf.newest_some hn
      have hseen' : Seen workflowId newest instant status (k + 1) lo' st' := ⟨k, by omega, hlo, hst⟩
      dsimp only
      cases hm : found.firstMissing (points (refining lo hi st)) lo' with
      | none => exact sound_bracket (mem_refinePoints hmem).2 hseen' hmissed.mono
      | some hi' =>
        obtain ⟨-, hlt', hmiss⟩ := hf.firstMissing_some hm
        exact sound_bracket hlt' hseen' ⟨k, by omega, hmiss⟩
  | returned latest =>
    obtain ⟨lo, st, rfl, hseen, hmissed⟩ := h
    exact ⟨lo, st, rfl, hseen.mono, hmissed.mono⟩

/-! ## The bracket closes -/

/-- How far the resolver is from its answer, in a chain that never passes
`bound`. -/
def Resolver.rank (bound : Nat) : Resolver σ → ℕ ×ₗ ℕ
  | ladder => toLex (3, 0)
  | doubling lo _ => toLex (2, bound - lo)
  | refining lo hi _ => toLex (1, hi - lo)
  | returned _ => toLex (0, 0)

theorem Resolver.rank_bracket_lt {bound lo hi a b : Nat} {st : σ} (h : 1 < a ∨ a = 1 ∧ hi - lo < b) :
    (bracket lo hi st).rank bound < toLex (a, b) := by
  simp only [bracket]
  split
  · simp only [rank, Prod.Lex.toLex_lt_toLex]; omega
  · simp only [rank, Prod.Lex.toLex_lt_toLex]; omega

/-- A lookup brings the resolver closer. -/
theorem Resolver.rank_next {bound : Nat} (hb : newest (instant k) ≤ bound)
    (h : r.Sound workflowId newest instant status k) (hr : ∀ latest, r ≠ returned latest)
    (hf : found.Of r.points (newest (instant k)) fun i => status k (runDbosId workflowId i)) :
    (r.next found).rank bound < r.rank bound := by
  cases r with
  | ladder =>
    simp only [next]
    cases found.newest with
    | none => simp only [rank, Prod.Lex.toLex_lt_toLex]; omega
    | some e =>
      dsimp only
      split
      · simp only [rank, Prod.Lex.toLex_lt_toLex]; omega
      · exact rank_bracket_lt (by omega)
  | doubling lo st =>
    obtain ⟨hpos, hseen⟩ := h
    simp only [next]
    cases hm : found.firstMissing (points (doubling lo st)) (found.newest.getD (lo, st)).1 with
    | some hi => exact rank_bracket_lt (by omega)
    | none =>
      -- nothing is missing, so the chain has at least twice as many runs
      have hmem : lo <<< 1 ∈ (doubling lo st).points := List.mem_map_of_mem (by decide)
      have htwo : lo < lo <<< 1 := mem_doubling hpos hmem
      cases hn : found.newest with
      | none =>
        rw [hn] at hm
        have := hf.newest_none hn _ hmem
        have := hf.firstMissing_none hm _ hmem htwo
        omega
      | some e =>
        obtain ⟨⟨hin, hle, -⟩, -⟩ := hf.newest_some hn
        have := mem_doubling hpos hin
        refine Prod.Lex.toLex_lt_toLex.2 (.inr ⟨rfl, ?_⟩)
        simp only [Option.getD_some]
        omega
  | refining lo hi st =>
    obtain ⟨hlt, -, -⟩ := h
    simp only [next]
    cases hn : found.newest with
    | none =>
      obtain ⟨p, ps, hp⟩ := List.exists_cons_of_ne_nil (refinePoints_ne_nil hlt)
      have hmem : p ∈ (refining lo hi st).points := by simp [points, hp]
      have hhead : (refining lo hi st).points.headD hi = p := by simp [points, hp]
      have := mem_refinePoints hmem
      dsimp only
      rw [hhead]
      exact rank_bracket_lt (by omega)
    | some e =>
      obtain ⟨lo', st'⟩ := e
      obtain ⟨⟨hmem, -, -⟩, -⟩ := hf.newest_some hn
      have := mem_refinePoints hmem
      dsimp only
      cases hm : found.firstMissing (points (refining lo hi st)) lo' with
      | none => exact rank_bracket_lt (.inr ⟨rfl, by simp only [Option.getD_none]; omega⟩)
      | some hi' =>
        have := mem_refinePoints (hf.firstMissing_some hm).1
        exact rank_bracket_lt (.inr ⟨rfl, by simp only [Option.getD_some]; omega⟩)
  | returned latest => exact absurd rfl (hr latest)

end

/-! ## Whole resolutions -/

section

variable (workflowId : String) (newest : ℕ → ℕ) (instant : ℕ → ℕ) (status : ℕ → String → σ)

/-- The resolver after `k` lookups of a chain, the `k`-th at `instant k`. -/
def resolving (k : Nat) : Resolver σ :=
  resolveLatestRun workflowId (fun j => chainLookup workflowId (newest (instant j)) (status j)) k

theorem probe_of (k : Nat) (indexes : List Nat) :
    (probe workflowId (chainLookup workflowId (newest (instant k)) (status k)) indexes).Of indexes
      (newest (instant k)) fun i => status k (runDbosId workflowId i) :=
  ⟨probe_chain workflowId _ _ indexes⟩

/-- The evidence is kept by every number of lookups. -/
theorem resolving_sound (k : Nat) :
    (resolving workflowId newest instant status k).Sound workflowId newest instant status k := by
  induction k with
  | zero => rfl
  | succ k ih => exact Resolver.sound_next ih (probe_of workflowId newest instant status k _)

/-- Against a chain that stops growing the resolver returns. -/
theorem resolving_returns {bound : Nat} (hb : ∀ t, newest t ≤ bound) (k : Nat) :
    ∃ k' latest, resolving workflowId newest instant status k' = .returned latest := by
  induction hr : (resolving workflowId newest instant status k).rank bound using WellFoundedLT.induction generalizing k with
  | ind rank ih =>
    by_cases hret : ∃ latest, resolving workflowId newest instant status k = .returned latest
    · exact ⟨k, hret⟩
    · have hlt := Resolver.rank_next (hb (instant k)) (resolving_sound workflowId newest instant status k)
        (fun latest h => hret ⟨latest, h⟩) (probe_of workflowId newest instant status k _)
      rw [hr] at hlt
      exact ih _ hlt (k + 1) rfl

end

/-- **Chain resolution is linearizable and terminates**: against a chain that
grows one run at a time and stops growing, the resolver returns after some
number of lookups. What it returns was the newest run at an instant between
the first lookup and the last, with a status one of them read; while the chain
stays as it is, that is its newest run. -/
theorem resolveLatestRun_linearizable (workflowId : String) {newest instant : ℕ → ℕ} (status : ℕ → String → σ)
    (hgrows : Counter.Grows newest) {bound : Nat} (hbound : ∀ t, newest t ≤ bound) (hinstant : Monotone instant) :
    ∃ k n st, resolveLatestRun workflowId (fun j => chainLookup workflowId (newest (instant j)) (status j)) k =
        .returned (some (n, st)) ∧
      (∃ t, instant 0 ≤ t ∧ t ≤ instant (k - 1) ∧ newest t = n) ∧
      (∃ j < k, st = status j (runDbosId workflowId n)) ∧
      ∀ m, (∀ t, instant 0 ≤ t → t ≤ instant (k - 1) → newest t = m) → n = m := by
  obtain ⟨k, latest, hk⟩ := resolving_returns workflowId newest instant status hbound 0
  have hsound := resolving_sound workflowId newest instant status k
  rw [hk] at hsound
  obtain ⟨n, st, rfl, ⟨s, hs, hseen, hst⟩, ⟨m, hm, hmissed⟩⟩ := hsound
  obtain ⟨t, hat, htb, ht⟩ := hgrows.attains (a := instant 0) (b := instant (k - 1)) (Nat.le_of_lt_succ hmissed) hseen
    (hinstant (Nat.zero_le m)) (hinstant (Nat.zero_le s)) (hinstant (by omega))
  exact ⟨k, n, st, hk, ⟨t, hat, htb, ht⟩, ⟨s, hs, hst⟩, fun m hstatic => by rw [← ht, hstatic t hat htb]⟩

/-- A chain of eighteen runs that takes five more while it is resolved. -/
theorem growingChain_resolves : ∃ k n st, resolveLatestRun "W" (fun j => chainLookup "W" (min (17 + j) 22) id) k =
      .returned (some (n, st)) ∧ 17 ≤ n ∧ n ≤ 22 := by
  have hgrows : Counter.Grows fun t => min (17 + t) 22 := ⟨fun a b h => by omega, fun t => by omega⟩
  obtain ⟨k, n, st, hk, ⟨t, -, -, ht⟩, -⟩ := resolveLatestRun_linearizable "W" (fun _ => id) hgrows
    (fun t => Nat.min_le_right _ _) monotone_id
  exact ⟨k, n, st, hk, by omega, by omega⟩

/-! ## Front gaps -/

/-- The rows of a chain whose runs below `oldest` were deleted, as a batched
lookup by id answers. -/
def gappedLookup (workflowId : String) (oldest newest : Nat) (status : String → σ) (dbosIds : List String) :
    List (String × σ) :=
  let existing := (List.range' oldest (newest + 1 - oldest)).map (runDbosId workflowId)
  (dbosIds.filter existing.contains).map fun id => (id, status id)

theorem probe_gapped (workflowId : String) (oldest newest : Nat) (status : String → σ) (indexes : List Nat) :
    probe workflowId (gappedLookup workflowId oldest newest status) indexes =
      (indexes.filter fun i => oldest ≤ i && i ≤ newest).map fun i => (i, status (runDbosId workflowId i)) := by
  have hrows : ∀ i, (List.range' oldest (newest + 1 - oldest)).contains i = (decide (oldest ≤ i) && decide (i ≤ newest)) := by
    intro i
    rw [Bool.eq_iff_iff, List.contains_iff_mem, List.mem_range'_1, Bool.and_eq_true, decide_eq_true_eq, decide_eq_true_eq]
    omega
  refine (probe_rows workflowId _ status indexes).trans ?_
  rw [List.filter_congr fun i _ => hrows i]

/-- A probed index is left: the oldest run is one of the dense probe's, or the
chain reaches a power of two of the ladder past it. -/
def Anchored (oldest newest : Nat) : Prop :=
  oldest ≤ newest ∧ (oldest ≤ denseProbeLimit ∨
    ∃ e, 5 ≤ e ∧ e ≤ maxProbeExponent ∧ oldest ≤ 1 <<< e ∧ 1 <<< e ≤ newest)

theorem mem_ladder {i : Nat} : i ∈ ladder ↔ i ≤ denseProbeLimit ∨ ∃ e, 5 ≤ e ∧ e ≤ maxProbeExponent ∧ 1 <<< e = i := by
  have hexp : 5 + (maxProbeExponent + 1 - 5) = maxProbeExponent + 1 := rfl
  simp only [ladder, List.mem_append, List.mem_range, List.mem_map, List.mem_range'_1, hexp, Nat.lt_succ_iff, and_assoc]

theorem anchored_iff {m n : Nat} : Anchored m n ↔ ∃ i ∈ ladder, m ≤ i ∧ i ≤ n := by
  simp only [mem_ladder]
  constructor
  · intro h
    obtain ⟨hmn, hm | ⟨e, h5, he, hme, hen⟩⟩ := h
    · exact ⟨m, .inl hm, le_rfl, hmn⟩
    · exact ⟨1 <<< e, .inr ⟨e, h5, he, rfl⟩, hme, hen⟩
  · intro h
    obtain ⟨i, hi | ⟨e, h5, he, rfl⟩, hmi, hin⟩ := h
    · exact ⟨by omega, .inl (by omega)⟩
    · exact ⟨by omega, .inr ⟨e, h5, he, hmi, hin⟩⟩

/-- Deleting from the front leaves the newest, where an index is left. -/
theorem max?_front {l : List Nat} {m n i : Nat} (hi : i ∈ l) (hmi : m ≤ i) (hin : i ≤ n) :
    (l.filter fun j => m ≤ j && j ≤ n).max? = (l.filter (· ≤ n)).max? := by
  have hmem : i ∈ l.filter (· ≤ n) := List.mem_filter.2 ⟨hi, by simpa using hin⟩
  obtain ⟨a, ha⟩ := Option.isSome_iff_exists.1 (List.isSome_max?_of_mem hmem)
  rw [ha, List.max?_eq_some_iff]
  rw [List.max?_eq_some_iff] at ha
  obtain ⟨hal, hmax⟩ := ha
  have hia := hmax i hmem
  simp only [List.mem_filter, decide_eq_true_eq, Bool.and_eq_true] at hal hmax ⊢
  exact ⟨⟨hal.1, by omega, hal.2⟩, fun j hj => hmax j ⟨hj.1, hj.2.2⟩⟩

namespace Resolver

/-- The bracket starts at a run that is left. -/
def Above (m : Nat) : Resolver σ → Prop
  | doubling lo _ | refining lo _ _ => m ≤ lo
  | ladder | returned _ => True

variable {m n : Nat} {status : Nat → σ} {found : Found σ} {r : Resolver σ}

theorem above_bracket {lo hi : Nat} {st : σ} (h : m ≤ lo) : (bracket lo hi st).Above m := by
  unfold bracket
  split
  · exact h
  · trivial

/-- What the later lookups probe is left of a chain with a front gap. -/
theorem le_points (h : r.Above m) (hpos : ∀ lo st, r = doubling lo st → 0 < lo) (hr : r ≠ ladder) :
    ∀ i ∈ r.points, m ≤ i := by
  intro i hi
  cases r with
  | ladder => exact absurd rfl hr
  | doubling lo st =>
    have := mem_doubling (hpos lo st rfl) hi
    have : m ≤ lo := h
    omega
  | refining lo hi st =>
    have := (mem_refinePoints ‹_›).1
    have : m ≤ lo := h
    omega
  | returned latest => cases hi

/-- The bracket moves up only. -/
theorem above_next (ha : ∃ i ∈ Dbosify.ladder, m ≤ i ∧ i ≤ n) (h : r.Above m)
    (hpos : ∀ lo st, r = doubling lo st → 0 < lo) (hf : found.Of r.points n status) : (r.next found).Above m := by
  have hnewest : ∀ lo st, found.newest = some (lo, st) → m ≤ lo := by
    intro lo st hn
    obtain ⟨⟨hmem, -, hmax⟩, -⟩ := hf.newest_some hn
    by_cases hr : r = ladder
    · subst hr
      obtain ⟨i, hi, hmi, hin⟩ := ha
      exact hmi.trans (hmax i hi hin)
    · exact le_points h hpos hr lo hmem
  cases r with
  | ladder =>
    simp only [next]
    split
    · trivial
    · next lo st hn =>
      split
      · exact hnewest lo st hn
      · exact above_bracket (hnewest lo st hn)
  | doubling lo st =>
    have hlo : m ≤ (found.newest.getD (lo, st)).1 := by
      cases hn : found.newest with
      | none => exact h
      | some e => exact hnewest e.1 e.2 hn
    simp only [next]
    split
    · exact hlo
    · exact above_bracket hlo
  | refining lo hi st =>
    simp only [next]
    split
    · next lo' st' hn => exact above_bracket (hnewest lo' st' hn)
    · exact above_bracket h
  | returned latest => trivial

/-- The gap is invisible to a lookup above it, and to the ladder where one of
its indexes is left. -/
theorem next_gapped (ha : ∃ i ∈ Dbosify.ladder, m ≤ i ∧ i ≤ n) (h : r.Above m)
    (hpos : ∀ lo st, r = doubling lo st → 0 < lo) :
    r.next ((r.points.filter fun i => m ≤ i && i ≤ n).map fun i => (i, status i)) =
      r.next ((r.points.filter (· ≤ n)).map fun i => (i, status i)) := by
  by_cases hr : r = ladder
  · subst hr
    obtain ⟨i, hi, hmi, hin⟩ := ha
    simp only [next, Found.newest_map, points, max?_front hi hmi hin]
    cases hmax : (Dbosify.ladder.filter (· ≤ n)).max? with
    | none => rfl
    | some lo =>
      have hlo : m ≤ lo := by
        rw [List.max?_eq_some_iff] at hmax
        exact hmi.trans (hmax.2 i (List.mem_filter.2 ⟨hi, by simpa using hin⟩))
      have hmissing : Found.firstMissing ((Dbosify.ladder.filter fun i => m ≤ i && i ≤ n).map fun i => (i, status i))
          Dbosify.ladder lo = Found.firstMissing ((Dbosify.ladder.filter (· ≤ n)).map fun i => (i, status i))
          Dbosify.ladder lo := by
        unfold Found.firstMissing
        refine List.find?_congr fun c hc => ?_
        rw [Bool.eq_iff_iff]
        simp only [Found.indexes, List.map_map, Function.comp_def, List.map_id', Bool.and_eq_true, decide_eq_true_eq,
          Bool.not_eq_true', ← Bool.not_eq_true, List.contains_iff_mem, List.mem_filter]
        constructor
        · exact fun hp => ⟨hp.1, fun hq => hp.2 ⟨hq.1, by omega, hq.2⟩⟩
        · exact fun hp => ⟨hp.1, fun hq => hp.2 ⟨hq.1, hq.2.2⟩⟩
      simp only [Option.map_some, hmissing]
  · have hpoints : (r.points.filter fun i => m ≤ i && i ≤ n) = r.points.filter (· ≤ n) := by
      refine List.filter_congr fun i hi => ?_
      have := le_points h hpos hr i hi
      rw [decide_eq_true this, Bool.true_and]
    rw [hpoints]

end Resolver

section

variable (workflowId : String) (m n : Nat) (status : ℕ → String → σ)

/-- Against a chain with a front gap that leaves one of its indexes, the
resolver goes as against the whole chain. -/
theorem resolving_gapped (ha : Anchored m n) (k : Nat) :
    resolveLatestRun workflowId (fun j => gappedLookup workflowId m n (status j)) k =
        resolving workflowId (fun _ => n) id status k ∧
      (resolving workflowId (fun _ => n) id status k).Above m := by
  have hi := anchored_iff.1 ha
  induction k with
  | zero => exact ⟨rfl, trivial⟩
  | succ k ih =>
    obtain ⟨heq, habove⟩ := ih
    have hsound := resolving_sound workflowId (fun _ => n) id status k
    have hpos : ∀ lo st, resolving workflowId (fun _ => n) id status k = .doubling lo st → 0 < lo := by
      intro lo st hr
      rw [hr] at hsound
      exact hsound.1
    refine ⟨?_, Resolver.above_next hi habove hpos (probe_of workflowId (fun _ => n) id status k _)⟩
    calc resolveLatestRun workflowId (fun j => gappedLookup workflowId m n (status j)) (k + 1)
        = (resolving workflowId (fun _ => n) id status k).next
            (probe workflowId (gappedLookup workflowId m n (status k))
              (resolving workflowId (fun _ => n) id status k).points) := by rw [← heq]; rfl
      _ = (resolving workflowId (fun _ => n) id status k).next
            (probe workflowId (chainLookup workflowId n (status k))
              (resolving workflowId (fun _ => n) id status k).points) := by
          rw [probe_gapped, probe_chain]
          exact Resolver.next_gapped hi habove hpos
      _ = resolving workflowId (fun _ => n) id status (k + 1) := rfl

/-- Where no probed index is left the ladder finds nothing, and the resolver
reports that there is no chain. -/
theorem resolving_unanchored (h : ¬ Anchored m n) (k : Nat) :
    resolveLatestRun workflowId (fun j => gappedLookup workflowId m n (status j)) (k + 1) = .returned none := by
  induction k with
  | zero =>
    have hnil : (ladder.filter fun i => m ≤ i && i ≤ n) = [] := by
      refine List.filter_eq_nil_iff.2 fun i hi => ?_
      by_contra hin
      rw [Bool.and_eq_true, decide_eq_true_eq, decide_eq_true_eq] at hin
      exact h (anchored_iff.2 ⟨i, hi, hin⟩)
    simp only [resolveLatestRun, probe_gapped, Resolver.points, hnil]
    rfl
  | succ k ih =>
    rw [resolveLatestRun, ih]
    rfl

end

/-- **A front gap is crossed exactly when a probed index is left of the
chain**: the resolver returns the newest run, with a status a lookup read, or
else it reports at its first lookup that no run exists. -/
theorem resolveLatestRun_gapped_iff (workflowId : String) (m n : Nat) (status : ℕ → String → σ) :
    (∃ k st, resolveLatestRun workflowId (fun j => gappedLookup workflowId m n (status j)) k =
        .returned (some (n, st)) ∧ ∃ j < k, st = status j (runDbosId workflowId n)) ↔ Anchored m n := by
  constructor
  · intro h
    obtain ⟨k, st, hk, j, hj, -⟩ := h
    by_contra hna
    obtain ⟨k, rfl⟩ := Nat.exists_eq_succ_of_ne_zero (by omega : k ≠ 0)
    rw [resolving_unanchored workflowId m n status hna k] at hk
    cases hk
  · intro ha
    obtain ⟨k, latest, hk⟩ := resolving_returns workflowId (fun _ => n) id status (fun _ => le_rfl) 0
    have hsound := resolving_sound workflowId (fun _ => n) id status k
    rw [hk] at hsound
    obtain ⟨lo, st, rfl, ⟨j, hj, hseen, hst⟩, ⟨_, -, hmissed⟩⟩ := hsound
    have hlo : lo = n := by
      have hle : lo ≤ n := hseen
      have hlt : n < lo + 1 := hmissed
      omega
    subst hlo
    exact ⟨k, st, (resolving_gapped workflowId m lo status ha k).1.trans hk, j, hj, hst⟩

/-- Runs 17 to 20 are left of a chain, and the resolver finds no run. -/
theorem frontGap_missed : resolveLatestRun "W" (fun _ => gappedLookup "W" 17 20 id) 1 = .returned none ∧
    ∀ k st, resolveLatestRun "W" (fun _ => gappedLookup "W" 17 20 id) k ≠ .returned (some (20, st)) := by
  have hna : ¬ Anchored 17 20 := by
    rw [anchored_iff]
    decide
  have hnone := resolving_unanchored "W" 17 20 (fun _ => id) hna
  refine ⟨hnone 0, fun k st h => ?_⟩
  cases k with
  | zero => cases h
  | succ k =>
    rw [hnone k] at h
    cases h

end Dbosify
