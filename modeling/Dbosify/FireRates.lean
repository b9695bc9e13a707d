/-
How often cron expressions fire.

One that fires at every `q`-th second of each period of the day fires as often
in every window of whole days (`fires_window`), and every `q` seconds if that
divides the period (`everySeconds`). One that fires on every `d`-th day of the
month starts again with each month, and is between half and twice as frequent as
every `d` days (`fires_days_lower`, `fires_days_upper`).
-/
import Dbosify.Cron
import Mathlib.Data.Nat.Periodic
import Mathlib.Data.Nat.Count
import Mathlib.Tactic.Ring

namespace Cron

/-! ## Counting -/

/-- The multiples of `d` below `n`. -/
theorem count_mod {d : Nat} (hd : 0 < d) (n : Nat) : Nat.count (fun k => k % d = 0) n = (n + d - 1) / d := by
  induction n with
  | zero => rw [Nat.count_zero, Nat.div_eq_of_lt (by omega)]
  | succ n ih =>
    rw [Nat.count_succ, ih, show n + 1 + d - 1 = n + d by omega, Nat.add_div_right n hd]
    have hn := Nat.div_add_mod n d
    by_cases h : n % d = 0
    · rw [if_pos h, show n + d - 1 = d - 1 + d * (n / d) by omega, Nat.add_mul_div_left _ _ hd,
        Nat.div_eq_of_lt (show d - 1 < d by omega)]
      omega
    · have hlt := Nat.mod_lt n hd
      rw [if_neg h, show n + d - 1 = n % d - 1 + d * (n / d + 1) by rw [Nat.mul_add]; omega,
        Nat.add_mul_div_left _ _ hd, Nat.div_eq_of_lt (show n % d - 1 < d by omega)]
      omega

theorem count_add_mul {p : Nat → Prop} [DecidablePred p] {k : Nat} (hp : Function.Periodic p k) (n : Nat) :
    Nat.count p (n * k) = n * Nat.count p k := by
  induction n with
  | zero => simp
  | succ n ih =>
    have hshift : ∀ t, p (n * k + t) = p t := by
      intro t
      rw [Nat.add_comm]
      exact hp.nat_mul n t
    rw [Nat.succ_mul, Nat.count_add, ih, Nat.succ_mul]
    simp only [hshift]

/-- How often an expression fires in the `k` seconds from a time on. -/
def Expr.firesIn (e : Expr) (t k : Nat) : Nat := ((Finset.Ico t (t + k)).filter e.Fires).card

/-- The expression fires, and each time the next one is `q` seconds later. -/
def Expr.EverySeconds (e : Expr) (q : Nat) : Prop :=
  (∃ t, e.Fires t) ∧ ∀ t, e.Fires t → e.Fires (t + q) ∧ ∀ u, t < u → u < t + q → ¬ e.Fires u

/-! ## Within the day -/

section

variable {e : Expr} {P q : Nat}

/-- The window is as good as so many periods. -/
theorem fires_window (hq : 0 < q) (h : ∀ t, e.Fires t ↔ t % P % q = 0) (t n : Nat) :
    e.firesIn t (n * P) = n * ((P + q - 1) / q) := by
  have hp : Function.Periodic e.Fires P := fun t => by simp only [h, Nat.add_mod_right]
  have hcount : Nat.count e.Fires P = Nat.count (fun k => k % q = 0) P := by
    rw [Nat.count_eq_card_filter_range, Nat.count_eq_card_filter_range]
    refine congrArg _ (Finset.filter_congr fun k hk => ?_)
    rw [h, Nat.mod_eq_of_lt (Finset.mem_range.1 hk)]
  rw [Expr.firesIn, Nat.filter_Ico_card_eq_of_periodic t (n * P) e.Fires (hp.nat_mul n), count_add_mul hp, hcount,
    count_mod hq]

theorem everySeconds (h : ∀ t, e.Fires t ↔ t % P % q = 0) (hdvd : q ∣ P) : e.EverySeconds q := by
  have hfires : ∀ t, e.Fires t ↔ q ∣ t := by
    intro t
    rw [h, Nat.mod_mod_of_dvd t hdvd, Nat.dvd_iff_mod_eq_zero]
  simp only [Expr.EverySeconds, hfires]
  refine ⟨⟨0, dvd_zero q⟩, fun t ht => ⟨(Nat.dvd_add_right ht).2 dvd_rfl, fun u hlt hgt hu => ?_⟩⟩
  have hle := Nat.le_of_dvd (Nat.sub_pos_of_lt hlt) (Nat.dvd_sub hu ht)
  omega

end

/-! ## Days of the month -/

section

variable {d : Nat}

/-- The days before the `n`-th that are every `d`-th of their month. -/
def countDays (d n : Nat) : Nat := Nat.count (fun n => (Gregorian.dayOfMonth n - 1) % d = 0) n

theorem countDays_add (hd : 0 < d) {m k : Nat} (hk : k ≤ Gregorian.monthLength m) :
    countDays d (Gregorian.monthStart m + k) = countDays d (Gregorian.monthStart m) + (k + d - 1) / d := by
  rw [← count_mod hd]
  induction k with
  | zero => rfl
  | succ k ih =>
    have hday : Gregorian.dayOfMonth (Gregorian.monthStart m + k) - 1 = k := by
      rw [Gregorian.dayOfMonth_add (by omega)]
      rfl
    rw [countDays, ← Nat.add_assoc, Nat.count_succ, ← countDays, ih (by omega), hday, Nat.count_succ, Nat.add_assoc]

theorem ceil_bounds (hd : 0 < d) (k : Nat) : k ≤ d * ((k + d - 1) / d) ∧ d * ((k + d - 1) / d) ≤ k + d - 1 := by
  have hdiv := Nat.div_add_mod (k + d - 1) d
  have hmod := Nat.mod_lt (k + d - 1) hd
  omega

theorem ceil_le_add (hd : 0 < d) {i j : Nat} (h : i ≤ j) : (j + d - 1) / d ≤ (i + d - 1) / d + (j - i) := by
  calc
    (j + d - 1) / d ≤ (i + d - 1 + d * (j - i)) / d := by
      refine Nat.div_le_div_right ?_
      have hle := Nat.le_mul_of_pos_left (j - i) hd
      omega
    _ = (i + d - 1) / d + (j - i) := Nat.add_mul_div_left _ _ hd

/-- Within a month: the weight `16 * d + 1` of a day is what 32 days are worth,
but for one day. -/
theorem weight_within (hd : 0 < d) {i j : Nat} (h : i ≤ j) :
    (16 * d + 1) * ((j + d - 1) / d) ≤ (16 * d + 1) * ((i + d - 1) / d) + 32 * (j - i) + (16 * d + 1) := by
  have hi := ceil_bounds hd i
  have hj := ceil_bounds hd j
  have hle := ceil_le_add hd h
  have hweight (x : Nat) : (16 * d + 1) * x = 16 * (d * x) + x := by ring
  rw [hweight, hweight]
  omega

/-- A whole month is worth its days. -/
theorem weight_month (hd : 0 < d) (hd' : d ≤ 31) (m : Nat) :
    (16 * d + 1) * ((Gregorian.monthLength m + d - 1) / d) ≤ 32 * Gregorian.monthLength m := by
  have hall : ∀ d < 32, 0 < d → ∀ k < 4, (16 * d + 1) * ((28 + k + d - 1) / d) ≤ 32 * (28 + k) := by decide
  have hge := Gregorian.monthLength_ge m
  have hle := Gregorian.monthLength_le m
  have hk := hall d (by omega) hd (Gregorian.monthLength m - 28) (by omega)
  rwa [show 28 + (Gregorian.monthLength m - 28) = Gregorian.monthLength m by omega] at hk

theorem weight_months (hd : 0 < d) (hd' : d ≤ 31) {m m' : Nat} (h : m ≤ m') :
    (16 * d + 1) * countDays d (Gregorian.monthStart m') + 32 * Gregorian.monthStart m ≤
      (16 * d + 1) * countDays d (Gregorian.monthStart m) + 32 * Gregorian.monthStart m' := by
  induction m', h using Nat.le_induction with
  | base => exact le_rfl
  | succ m' _ ih =>
    have hmonth := weight_month hd hd' m'
    rw [Gregorian.monthStart_succ, countDays_add hd le_rfl, Nat.mul_add]
    omega

theorem days_months (hd : 0 < d) {m m' : Nat} (h : m ≤ m') :
    d * countDays d (Gregorian.monthStart m) + Gregorian.monthStart m' ≤
      d * countDays d (Gregorian.monthStart m') + Gregorian.monthStart m := by
  induction m', h using Nat.le_induction with
  | base => exact le_rfl
  | succ m' _ ih =>
    have hmonth := (ceil_bounds hd (Gregorian.monthLength m')).1
    rw [Gregorian.monthStart_succ, countDays_add hd le_rfl, Nat.mul_add]
    omega

/-- A day, as an offset within its month. -/
theorem exists_offset (n : Nat) : ∃ m k, n = Gregorian.monthStart m + k ∧ k < Gregorian.monthLength m := by
  have h := Gregorian.monthStart_monthOf n
  have h' := Gregorian.lt_monthStart_monthOf n
  exact ⟨Gregorian.monthOf n, n - Gregorian.monthStart (Gregorian.monthOf n), by omega, by omega⟩

theorem month_le_of_le {m m' k k' : Nat} (h : Gregorian.monthStart m + k ≤ Gregorian.monthStart m' + k')
    (hk' : k' < Gregorian.monthLength m') : m ≤ m' := by
  by_contra hlt
  have hmono := Gregorian.monthStart_mono (show m' + 1 ≤ m by omega)
  rw [Gregorian.monthStart_succ] at hmono
  omega

theorem countDays_upper (hd : 0 < d) (hd' : d ≤ 31) (a n : Nat) :
    (16 * d + 1) * countDays d (a + n) ≤ (16 * d + 1) * countDays d a + 32 * n + 2 * (16 * d + 1) := by
  obtain ⟨m, i, ha, hi⟩ := exists_offset a
  obtain ⟨m', j, hb, hj⟩ := exists_offset (a + n)
  have hm : m ≤ m' := month_le_of_le (k := i) (by omega) hj
  rw [hb, ha, countDays_add hd hj.le, countDays_add hd hi.le, Nat.mul_add, Nat.mul_add]
  rcases hm.eq_or_lt with rfl | hlt
  · have h := weight_within hd (show i ≤ j by omega)
    omega
  · -- The rest of the first month, the months between, and the last month so far.
    have hfirst := weight_within hd hi.le
    have hbetween := weight_months hd hd' (show m + 1 ≤ m' from hlt)
    have hlast := weight_within hd (Nat.zero_le j)
    rw [Nat.zero_add, Nat.div_eq_of_lt (show d - 1 < d by omega), Nat.mul_zero] at hlast
    rw [Gregorian.monthStart_succ, countDays_add hd le_rfl, Nat.mul_add (16 * d + 1)] at hbetween
    omega

theorem countDays_lower (hd : 0 < d) (a n : Nat) : d * countDays d a + n ≤ d * countDays d (a + n) + (d - 1) := by
  obtain ⟨m, i, ha, hi⟩ := exists_offset a
  obtain ⟨m', j, hb, hj⟩ := exists_offset (a + n)
  have hm : m ≤ m' := month_le_of_le (k := i) (by omega) hj
  have hfirst := ceil_bounds hd i
  have hlast := ceil_bounds hd j
  rw [hb, ha, countDays_add hd hj.le, countDays_add hd hi.le, Nat.mul_add, Nat.mul_add]
  rcases hm.eq_or_lt with rfl | hlt
  · omega
  · have hlength := ceil_bounds hd (Gregorian.monthLength m)
    have hbetween := days_months hd (show m + 1 ≤ m' from hlt)
    rw [Gregorian.monthStart_succ, countDays_add hd le_rfl, Nat.mul_add] at hbetween
    omega

variable {e : Expr}

theorem count_add_firesIn (e : Expr) (t k : Nat) :
    Nat.count e.Fires (t + k) = Nat.count e.Fires t + e.firesIn t k := by
  rw [Nat.count_eq_card_filter_range, Nat.count_eq_card_filter_range, Expr.firesIn, Finset.range_eq_Ico,
    Finset.range_eq_Ico, ← Finset.card_union_of_disjoint, ← Finset.filter_union,
    Finset.Ico_union_Ico_eq_Ico (Nat.zero_le t) (Nat.le_add_right t k)]
  refine Finset.disjoint_filter_filter ?_
  exact Finset.Ico_disjoint_Ico_consecutive 0 t (t + k)

/-- At midnight of every `d`-th day of the month. -/
theorem count_fires_days (h : ∀ t, e.Fires t ↔ t % 86400 = 0 ∧ (Gregorian.dayOfMonth (t / 86400) - 1) % d = 0)
    (t : Nat) : Nat.count e.Fires t = countDays d ((t + 86399) / 86400) := by
  induction t with
  | zero => rfl
  | succ t ih =>
    rw [Nat.count_succ, ih]
    by_cases hmidnight : t % 86400 = 0
    · rw [show (t + 1 + 86399) / 86400 = t / 86400 + 1 by omega, show (t + 86399) / 86400 = t / 86400 by omega]
      simp only [countDays, Nat.count_succ, h, hmidnight, true_and]
    · rw [show (t + 1 + 86399) / 86400 = (t + 86399) / 86400 by omega, if_neg fun hf => hmidnight ((h t).1 hf).1]
      rfl

theorem countDays_window (h : ∀ t, e.Fires t ↔ t % 86400 = 0 ∧ (Gregorian.dayOfMonth (t / 86400) - 1) % d = 0)
    (t n : Nat) :
    countDays d ((t + 86399) / 86400 + n) = countDays d ((t + 86399) / 86400) + e.firesIn t (n * 86400) := by
  rw [← count_fires_days h, ← count_add_firesIn, count_fires_days h]
  refine congrArg _ ?_
  omega

/-- At least once in every `d` days. -/
theorem fires_days_lower (hd : 0 < d)
    (h : ∀ t, e.Fires t ↔ t % 86400 = 0 ∧ (Gregorian.dayOfMonth (t / 86400) - 1) % d = 0) (t n : Nat) :
    n ≤ d * e.firesIn t (n * 86400) + (d - 1) := by
  have hlower := countDays_lower hd ((t + 86399) / 86400) n
  rw [countDays_window h, Nat.mul_add] at hlower
  omega

/-- Not quite twice in every `d` days, but for two fires. -/
theorem fires_days_upper (hd : 0 < d) (hd' : d ≤ 31)
    (h : ∀ t, e.Fires t ↔ t % 86400 = 0 ∧ (Gregorian.dayOfMonth (t / 86400) - 1) % d = 0) (t n : Nat) :
    (16 * d + 1) * e.firesIn t (n * 86400) ≤ 32 * n + 2 * (16 * d + 1) := by
  have hupper := countDays_upper hd hd' ((t + 86399) / 86400) n
  rw [countDays_window h, Nat.mul_add] at hupper
  omega

end

end Cron
