/-
Compiled intervals (`interval_to_cron`): what is printed for an interval, and
how often it fires.

The whole seconds of an interval decide on the expression (`compiled`). One that
divides a minute, an hour or a day fires exactly so often; another one fires
about so often, unless it is above two hours and no number of days: then it
fires every hour (`interval_law_iff`).
-/
import Dbosify.FireRates
import Dbosify.ScheduleUpdate
import Mathlib.Data.Rat.Floor
import Mathlib.Tactic.Linarith
import Mathlib.Tactic.FieldSimp

namespace Dbosify

open Cron (Expr)

/-! ## The expressions -/

namespace Interval

/-- `* * * * * *`. -/
def anytime : Expr where
  second := .any
  minute := .any
  hour := .any
  dayOfMonth := .any
  month := .any
  dayOfWeek := .any

def zero : Cron.Field := .items [⟨0, 0, 1⟩]

def everySeconds (s : Nat) : Expr := { anytime with second := .items [⟨0, 59, s⟩] }

def everyMinutes (m : Nat) : Expr := { anytime with second := zero, minute := .items [⟨0, 59, m⟩] }

def hourly : Expr := { anytime with second := zero, minute := zero }

def everyHours (h : Nat) : Expr := { hourly with hour := .items [⟨0, 23, h⟩] }

def daily : Expr := { hourly with hour := zero }

def everyDays (d : Nat) : Expr := { daily with dayOfMonth := .items [⟨1, 31, d⟩] }

theorem parseField_every (d : Cron.Domain) (n : Nat) :
    Cron.parseField d ('*' :: '/' :: Nat.toDigits 10 n) = some (.items [⟨d.first, d.last, n⟩]) := by
  refine Cron.parseField_item d ?_ (by simp) (Cron.parseItem_step d (by decide) (Cron.parseRange_star d) n)
  simp [Cron.not_mem_toDigits]

theorem repr_natCast (n : Nat) : (n : Int).repr.toList = Nat.toDigits 10 n := by
  show (toString n).toList = _
  rw [Nat.toString_eq_ofList_toDigits, String.toList_ofList]

theorem parse_everySeconds (s : Nat) :
    Cron.parse ("*/" ++ toString (s : Int) ++ " * * * * *") = some (everySeconds s) := by
  refine @Cron.parse_six _ ('*' :: '/' :: Nat.toDigits 10 s) ['*'] ['*'] ['*'] ['*'] ['*'] _ ?_ ?_
    (parseField_every Cron.seconds s) (Cron.parseField_star _) (Cron.parseField_star _) (Cron.parseField_star _)
    (Cron.parseField_star _) (Cron.parseField_star _)
  · simp [repr_natCast]
  · simp [Cron.not_mem_toDigits]

theorem parse_everyMinutes (m : Nat) :
    Cron.parse ("*/" ++ toString (m : Int) ++ " * * * *") = some (everyMinutes m) := by
  refine @Cron.parse_five _ ('*' :: '/' :: Nat.toDigits 10 m) ['*'] ['*'] ['*'] ['*'] _ ?_ ?_ rfl
    (parseField_every Cron.minutes m) (Cron.parseField_star _) (Cron.parseField_star _) (Cron.parseField_star _)
    (Cron.parseField_star _)
  · simp [repr_natCast]
  · simp [Cron.not_mem_toDigits]

theorem parse_everyHours (h : Nat) : Cron.parse ("0 */" ++ toString (h : Int) ++ " * * *") = some (everyHours h) := by
  refine @Cron.parse_five _ ['0'] ('*' :: '/' :: Nat.toDigits 10 h) ['*'] ['*'] ['*'] _ ?_ ?_ rfl rfl
    (parseField_every Cron.hours h) (Cron.parseField_star _) (Cron.parseField_star _) (Cron.parseField_star _)
  · simp [repr_natCast]
  · simp [Cron.not_mem_toDigits]

theorem parse_everyDays (d : Nat) : Cron.parse ("0 0 */" ++ toString (d : Int) ++ " * *") = some (everyDays d) := by
  refine @Cron.parse_five _ ['0'] ['0'] ('*' :: '/' :: Nat.toDigits 10 d) ['*'] ['*'] _ ?_ ?_ rfl rfl rfl
     (parseField_every Cron.daysOfMonth d) (Cron.parseField_star _) (Cron.parseField_star _)
  · simp [repr_natCast]
  · simp [Cron.not_mem_toDigits]

theorem parse_hourly : Cron.parse "0 * * * *" = some hourly := by decide

theorem parse_daily : Cron.parse "0 0 * * *" = some daily := by decide

/-! ## Rounding -/

theorem roundHalfEven_near (q : ℚ) : (roundHalfEven q : ℚ) ≤ q + 1 / 2 ∧ q ≤ roundHalfEven q + 1 / 2 := by
  have hle := Int.floor_le q
  have hlt := Int.lt_floor_add_one q
  unfold roundHalfEven
  dsimp only
  split_ifs <;> push_cast <;> constructor <;> linarith

/-- The seconds an interval is rounded to. -/
def wholeSeconds (every : Timedelta) : Nat := (roundHalfEven every.totalSeconds).toNat

theorem wholeSeconds_spec {every : Timedelta} (h : 0 < every.micros) :
    roundHalfEven every.totalSeconds = wholeSeconds every ∧
      1000000 * (wholeSeconds every : Int) ≤ every.micros + 500000 ∧
      every.micros ≤ 1000000 * (wholeSeconds every : Int) + 500000 := by
  obtain ⟨hup, hdown⟩ := roundHalfEven_near every.totalSeconds
  have hmicros : every.totalSeconds * 1000000 = every.micros := by
    rw [Timedelta.totalSeconds]
    field_simp
  have hup' : 1000000 * roundHalfEven every.totalSeconds ≤ every.micros + 500000 := by
    have : (1000000 * roundHalfEven every.totalSeconds : ℚ) ≤ every.micros + 500000 := by linarith
    exact_mod_cast this
  have hdown' : every.micros ≤ 1000000 * roundHalfEven every.totalSeconds + 500000 := by
    have : (every.micros : ℚ) ≤ 1000000 * roundHalfEven every.totalSeconds + 500000 := by linarith
    exact_mod_cast this
  have hnonneg : 0 ≤ roundHalfEven every.totalSeconds := by omega
  have hself := Int.toNat_of_nonneg hnonneg
  rw [wholeSeconds, hself]
  exact ⟨rfl, hup', hdown'⟩

/-- A number of seconds, in minutes. -/
theorem minutes_spec (n : Nat) :
    ∃ m : Nat, roundHalfEven ((n : ℚ) / 60) = m ∧ 60 * m ≤ n + 30 ∧ n ≤ 60 * m + 30 := by
  obtain ⟨hup, hdown⟩ := roundHalfEven_near ((n : ℚ) / 60)
  have hsixty : (n : ℚ) / 60 * 60 = n := by field_simp
  have hup' : 60 * roundHalfEven ((n : ℚ) / 60) ≤ n + 30 := by
    have : (60 * roundHalfEven ((n : ℚ) / 60) : ℚ) ≤ n + 30 := by linarith
    exact_mod_cast this
  have hdown' : (n : Int) ≤ 60 * roundHalfEven ((n : ℚ) / 60) + 30 := by
    have : (n : ℚ) ≤ 60 * roundHalfEven ((n : ℚ) / 60) + 30 := by linarith
    exact_mod_cast this
  obtain ⟨m, hm⟩ := Int.eq_ofNat_of_zero_le (show 0 ≤ roundHalfEven ((n : ℚ) / 60) by omega)
  exact ⟨m, hm, by omega, by omega⟩

/-! ## What is printed -/

/-- The expression printed for so many seconds. -/
inductive Compiled (secs : Nat) : Expr → Prop
  | seconds (hpos : 0 < secs) (hlt : secs < 60) : Compiled secs (everySeconds secs)
  | minutes {m : Nat} (hpos : 0 < m) (hlt : m < 60) (hsecs : 60 ≤ secs) (hup : 60 * m ≤ secs + 30)
      (hdown : secs ≤ 60 * m + 30) : Compiled secs (everyMinutes m)
  | hour (h : secs = 3600) : Compiled secs hourly
  | hours {h : Nat} (hlt : 1 < h) (hgt : h < 24) (hdvd : h ∣ 24) (hsecs : secs = 3600 * h) :
      Compiled secs (everyHours h)
  | day (h : secs = 86400) : Compiled secs daily
  | days {d : Nat} (hlt : 1 < d) (h : secs = 86400 * d) : Compiled secs (everyDays (min d 31))
  /-- What is left. -/
  | approx (h : 3570 ≤ secs) (hdays : ¬ 86400 ∣ secs) (hhours : ¬ (3600 ∣ secs ∧ secs / 3600 ∣ 24)) :
      Compiled secs hourly

theorem compiled {every : Timedelta} (h : 500000 < every.micros) :
    ∃ expr e, intervalToCron every = .ok expr ∧ Cron.parse expr = some e ∧ Compiled (wholeSeconds every) e := by
  obtain ⟨hsecs, hup, hdown⟩ := wholeSeconds_spec (show 0 < every.micros by omega)
  have hpos : ¬ every.totalSeconds ≤ 0 := by
    rw [Timedelta.totalSeconds, not_le]
    have hcast : (0 : ℚ) < every.micros := by exact_mod_cast (show 0 < every.micros by omega)
    positivity
  obtain ⟨m, hm, hmup, hmdown⟩ := minutes_spec (wholeSeconds every)
  unfold intervalToCron
  rw [if_neg hpos, hsecs]
  generalize wholeSeconds every = n at *
  have hmins : (n : Int) / 60 = ((n / 60 : Nat) : Int) := (Int.natCast_ediv n 60).symm
  have hhours : (n : Int) / 3600 = ((n / 3600 : Nat) : Int) := (Int.natCast_ediv n 3600).symm
  have hdays : (n : Int) / 86400 = ((n / 86400 : Nat) : Int) := (Int.natCast_ediv n 86400).symm
  dsimp only
  by_cases hsecond : (n : Int) < 60
  · exact ⟨_, _, by rw [if_pos hsecond, if_neg (by omega)], parse_everySeconds n, .seconds (by omega) (by omega)⟩
  rw [if_neg hsecond]
  by_cases hhour : (n : Int) % 60 = 0 ∧ (n : Int) / 60 = 60
  · exact ⟨_, _, if_pos hhour, parse_hourly, .hour (by omega)⟩
  rw [if_neg hhour]
  by_cases hminutes : (n : Int) % 60 = 0 ∧ (n : Int) / 60 < 60 ∧ 60 % ((n : Int) / 60) = 0
  · have hc : Compiled n (everyMinutes (n / 60)) :=
      .minutes (by omega) (by omega) (by omega) (by omega) (by omega)
    refine ⟨_, _, if_pos hminutes, ?_, hc⟩
    rw [hmins]
    exact parse_everyMinutes _
  rw [if_neg hminutes]
  by_cases hday : (n : Int) % 3600 = 0 ∧ (n : Int) / 3600 = 24
  · exact ⟨_, _, if_pos hday, parse_daily, .day (by omega)⟩
  rw [if_neg hday]
  by_cases hhourly : (n : Int) % 3600 = 0 ∧ (n : Int) / 3600 < 24 ∧ 24 % ((n : Int) / 3600) = 0
  · refine ⟨_, _, if_pos hhourly, ?_, .hours (h := n / 3600) (by omega) (by omega) ?_ (by omega)⟩
    · rw [hhours]
      exact parse_everyHours _
    · rw [hhours] at hhourly
      exact Nat.dvd_of_mod_eq_zero (by exact_mod_cast hhourly.2.2)
  rw [if_neg hhourly]
  by_cases hwhole : (n : Int) % 86400 = 0
  · refine ⟨_, _, if_pos hwhole, ?_, .days (d := n / 86400) (by omega) (by omega)⟩
    rw [show min ((n : Int) / 86400) 31 = ((min (n / 86400) 31 : Nat) : Int) by omega]
    exact parse_everyDays _
  rw [if_neg hwhole, Int.cast_natCast, hm]
  by_cases hlt : max 1 (m : Int) < 60
  · refine ⟨_, _, by rw [if_pos hlt], ?_, .minutes (m := m) (by omega) (by omega) (by omega) hmup hmdown⟩
    rw [show max 1 (m : Int) = (m : Int) by omega]
    exact parse_everyMinutes _
  · refine ⟨_, _, by rw [if_neg hlt], parse_hourly, .approx (by omega) (by omega) fun h => ?_⟩
    obtain ⟨hthree, hdvd⟩ := h
    have hle := Nat.le_of_dvd (by omega) hdvd
    have hrem := Nat.mod_eq_zero_of_dvd hdvd
    refine hhourly ⟨by omega, by omega, ?_⟩
    rw [hhours]
    exact_mod_cast hrem

theorem Compiled.valid {secs : Nat} {e : Expr} (h : Compiled secs e) : e.Valid := by
  have hany (d : Cron.Domain) : Cron.Field.any.Valid d := trivial
  have hzero {d : Cron.Domain} (hd : d.first = 0) (hd' : 1 ≤ d.last) : zero.Valid d := by
    refine ⟨by simp, fun i hi => ?_⟩
    rw [List.mem_singleton.1 hi]
    exact ⟨hd.le, le_rfl, Nat.zero_le _, le_rfl, hd'⟩
  have hitem {d : Cron.Domain} {n : Nat} (hd : d.first ≤ d.last) (hpos : 0 < n) (hle : n ≤ d.last) :
      (Cron.Field.items [⟨d.first, d.last, n⟩]).Valid d := by
    refine ⟨by simp, fun i hi => ?_⟩
    rw [List.mem_singleton.1 hi]
    exact ⟨le_rfl, hd, le_rfl, hpos, hle⟩
  have hzero₁ : zero.Valid Cron.seconds := hzero rfl (by decide)
  have hzero₂ : zero.Valid Cron.minutes := hzero rfl (by decide)
  have hzero₃ : zero.Valid Cron.hours := hzero rfl (by decide)
  cases h with
  | seconds hpos hlt =>
    have hsecond := @hitem Cron.seconds secs (by decide) hpos (Nat.le_of_lt_succ hlt)
    exact ⟨hsecond, hany _, hany _, hany _, hany _, hany _⟩
  | @minutes m hpos hlt _ _ _ =>
    have hminute := @hitem Cron.minutes m (by decide) hpos (Nat.le_of_lt_succ hlt)
    exact ⟨hzero₁, hminute, hany _, hany _, hany _, hany _⟩
  | hour | approx => exact ⟨hzero₁, hzero₂, hany _, hany _, hany _, hany _⟩
  | @hours k hlt hgt _ _ =>
    have hhour := @hitem Cron.hours k (by decide) (by omega) (Nat.le_of_lt_succ hgt)
    exact ⟨hzero₁, hzero₂, hhour, hany _, hany _, hany _⟩
  | day => exact ⟨hzero₁, hzero₂, hzero₃, hany _, hany _, hany _⟩
  | @days d hlt _ =>
    have hday := @hitem Cron.daysOfMonth (min d 31) (by decide) (by omega) (min_le_right _ _)
    exact ⟨hzero₁, hzero₂, hzero₃, hday, hany _, hany _⟩

/-! ## When it fires -/

/-- A field that is 0. -/
theorem contains_zero (x : Nat) : zero.Contains x ↔ x = 0 := by
  simp only [zero, Cron.Field.Contains, Cron.Item.Contains, List.mem_singleton, exists_eq_left, Nat.mod_one, and_true]
  omega

theorem contains_every {k n : Nat} {x : Nat} (hx : x ≤ n) :
    (Cron.Field.items [⟨0, n, k⟩]).Contains x ↔ x % k = 0 := by
  simp only [Cron.Field.Contains, Cron.Item.Contains, List.mem_singleton, exists_eq_left, Nat.sub_zero]
  exact ⟨fun h => h.2.2, fun h => ⟨Nat.zero_le _, hx, h⟩⟩

/-- In any month, on any day of the week. -/
theorem fires_of_any {e : Expr} (hmonth : e.month = .any) (hdayOfWeek : e.dayOfWeek = .any) (t : Nat) :
    e.Fires t ↔ e.second.Contains (t % 60) ∧ e.minute.Contains (t / 60 % 60) ∧ e.hour.Contains (t / 3600 % 24) ∧
      e.dayOfMonth.Contains (Gregorian.dayOfMonth (t / 86400)) := by
  simp only [Expr.Fires, Expr.Matches, Expr.MatchesDay, Cron.Moment.of, hmonth, hdayOfWeek, or_true, if_true]
  simp only [Cron.contains_any, true_and, and_true]

theorem fires_everySeconds (s t : Nat) : (everySeconds s).Fires t ↔ t % 60 % s = 0 := by
  have hlt := Nat.mod_lt t (show 0 < 60 by omega)
  rw [fires_of_any rfl rfl]
  simp only [everySeconds, anytime, contains_every (show t % 60 ≤ 59 by omega), Cron.contains_any, and_true]

theorem fires_everyMinutes (m t : Nat) : (everyMinutes m).Fires t ↔ t % 3600 % (60 * m) = 0 := by
  have hlt := Nat.mod_lt (t / 60) (show 0 < 60 by omega)
  rw [fires_of_any rfl rfl, Nat.mod_mul, show t % 3600 % 60 = t % 60 by omega, show t % 3600 / 60 = t / 60 % 60 by omega]
  simp only [everyMinutes, anytime, contains_zero, contains_every (show t / 60 % 60 ≤ 59 by omega), Cron.contains_any,
    and_true]
  omega

theorem fires_hourly (t : Nat) : hourly.Fires t ↔ t % 3600 % 3600 = 0 := by
  rw [fires_of_any rfl rfl]
  simp only [hourly, anytime, contains_zero, Cron.contains_any, and_true]
  omega

theorem fires_everyHours (h t : Nat) : (everyHours h).Fires t ↔ t % 86400 % (3600 * h) = 0 := by
  have hlt := Nat.mod_lt (t / 3600) (show 0 < 24 by omega)
  rw [fires_of_any rfl rfl, Nat.mod_mul, show t % 86400 % 3600 = t % 3600 by omega,
    show t % 86400 / 3600 = t / 3600 % 24 by omega]
  simp only [everyHours, hourly, anytime, contains_zero, contains_every (show t / 3600 % 24 ≤ 23 by omega),
    Cron.contains_any, and_true]
  omega

theorem fires_daily (t : Nat) : daily.Fires t ↔ t % 86400 % 86400 = 0 := by
  rw [fires_of_any rfl rfl]
  simp only [daily, hourly, anytime, contains_zero, Cron.contains_any, and_true]
  omega

theorem fires_everyDays (d t : Nat) :
    (everyDays d).Fires t ↔ t % 86400 = 0 ∧ (Gregorian.dayOfMonth (t / 86400) - 1) % d = 0 := by
  have hday := Gregorian.dayOfMonth_bounds (t / 86400)
  have hcontains : (Cron.Field.items [⟨1, 31, d⟩]).Contains (Gregorian.dayOfMonth (t / 86400)) ↔
      (Gregorian.dayOfMonth (t / 86400) - 1) % d = 0 := by
    simp only [Cron.Field.Contains, Cron.Item.Contains, List.mem_singleton, exists_eq_left]
    exact ⟨fun h => h.2.2, fun h => ⟨hday.1, hday.2, h⟩⟩
  rw [fires_of_any rfl rfl]
  simp only [everyDays, daily, hourly, anytime, contains_zero, hcontains]
  omega

/-! ## How often it fires -/

/-- In every window of whole days it fires between half and twice as often as
the interval fits into it, give or take 2. -/
def RateWithin (every : Timedelta) (e : Expr) : Prop :=
  ∀ t n : Nat, (n * 86400 : ℚ) / every.totalSeconds / 2 - 2 ≤ e.firesIn t (n * 86400) ∧
    (e.firesIn t (n * 86400) : ℚ) ≤ 2 * ((n * 86400 : ℚ) / every.totalSeconds) + 2

section

variable {every : Timedelta} {e : Expr}

/-- The bounds, in microseconds. -/
theorem rateWithin_iff (h : 0 < every.micros) :
    RateWithin every e ↔ ∀ t n : Nat,
      86400000000 * (n : Int) ≤ 2 * (every.micros * (e.firesIn t (n * 86400) + 2)) ∧
        every.micros * e.firesIn t (n * 86400) ≤ 2 * (86400000000 * n) + 2 * every.micros := by
  refine forall_congr' fun t => forall_congr' fun n => ?_
  generalize e.firesIn t (n * 86400) = f
  have hcast : (0 : ℚ) < every.micros := by exact_mod_cast h
  have hfits : (n * 86400 : ℚ) / every.totalSeconds = 86400000000 * n / every.micros := by
    rw [Timedelta.totalSeconds]
    field_simp
    ring
  rw [hfits]
  refine and_congr ?_ ?_
  · rw [div_div, sub_le_iff_le_add, div_le_iff₀ (by positivity), ← @Int.cast_le ℚ]
    push_cast
    constructor <;> intro hle <;> linarith
  · rw [← mul_div_assoc, ← sub_le_iff_le_add, le_div_iff₀ hcast, ← @Int.cast_le ℚ]
    push_cast
    constructor <;> intro hle <;> linarith

/-- So often in each of the `k` periods of a day. -/
theorem rate_of_window (h : 0 < every.micros) {P k c : Nat} (hday : k * P = 86400)
    (hfires : ∀ t n, e.firesIn t (n * P) = n * c) (hlow : 1000000 * (P : Int) ≤ 2 * (every.micros * c))
    (hup : every.micros * c ≤ 2000000 * P) : RateWithin every e := by
  rw [rateWithin_iff h]
  intro t n
  have hcount : e.firesIn t (n * 86400) = n * k * c := by rw [← hday, ← Nat.mul_assoc, hfires]
  have hday' : (k : Int) * P = 86400 := by exact_mod_cast hday
  have hlow' := mul_le_mul_of_nonneg_left hlow (show (0 : Int) ≤ n * k by positivity)
  have hup' := mul_le_mul_of_nonneg_left hup (show (0 : Int) ≤ n * k by positivity)
  have htotal : (n : Int) * k * P = 86400 * n := by rw [mul_assoc, hday', mul_comm]
  rw [hcount]
  push_cast
  constructor
  · calc
      86400000000 * (n : Int) = n * k * (1000000 * P) := by linear_combination (-1000000) * htotal
      _ ≤ n * k * (2 * (every.micros * c)) := hlow'
      _ ≤ 2 * (every.micros * (n * k * c + 2)) := by linarith [h]
  · calc
      every.micros * (n * k * c : Int) = n * k * (every.micros * c) := by ring
      _ ≤ n * k * (2000000 * P) := hup'
      _ = 2 * (86400000000 * n) := by linear_combination 2000000 * htotal
      _ ≤ 2 * (86400000000 * n) + 2 * every.micros := by omega

/-- Not above two hours, or a number of days, or a number of hours that divides
a day. -/
def Regular (secs : Nat) : Prop := secs ≤ 7200 ∨ 86400 ∣ secs ∨ 3600 ∣ secs ∧ secs / 3600 ∣ 24

instance (secs : Nat) : Decidable (Regular secs) := inferInstanceAs (Decidable (_ ∨ _ ∨ _))

theorem ceil_seconds :
    ∀ s < 60, 0 < s → 60 ≤ s * ((60 + s - 1) / s) ∧ (2 * s + 1) * ((60 + s - 1) / s) ≤ 240 := by
  decide

theorem ceil_minutes :
    ∀ m < 60, 0 < m → 60 ≤ m * ((3600 + 60 * m - 1) / (60 * m)) ∧
      (120 * m + 61) * ((3600 + 60 * m - 1) / (60 * m)) ≤ 14400 := by
  decide

theorem ceil_hours : ∀ h < 24, 0 < h → h ∣ 24 → h * ((86400 + 3600 * h - 1) / (3600 * h)) = 24 := by
  decide

/-- The days of the month, as often as the interval asks. -/
theorem rate_everyDays {d : Nat} (hd : 0 < d) (hd' : d ≤ 31) (hlow : 86400000000 * (d : Int) ≤ every.micros + 500000)
    (hup : every.micros ≤ 86400000000 * (d : Int) + 500000) : RateWithin every (everyDays d) := by
  rw [rateWithin_iff (by omega)]
  intro t n
  have hlower := Cron.fires_days_lower hd (fires_everyDays d) t n
  have hupper := Cron.fires_days_upper hd hd' (fires_everyDays d) t n
  generalize (everyDays d).firesIn t (n * 86400) = f at *
  constructor
  · have hn : (n : Int) ≤ d * (f + 2) := by
      have hcast : (n : Int) + 1 ≤ d * f + d := by exact_mod_cast (show n + 1 ≤ d * f + d by omega)
      linarith
    have hhalf := mul_le_mul_of_nonneg_right (show 43200000000 * (d : Int) ≤ every.micros by omega)
      (show (0 : Int) ≤ f + 2 by omega)
    linarith
  · rcases Nat.lt_or_ge f 2 with hsmall | hlarge
    · have hmul := mul_le_mul_of_nonneg_left (show (f : Int) ≤ 2 by omega) (show 0 ≤ every.micros by omega)
      linarith
    · obtain ⟨g, rfl⟩ := Nat.exists_eq_add_of_le hlarge
      have hg : (16 * d + 1 : Int) * g ≤ 32 * n := by
        have hcast : ((16 * d + 1 : Nat) : Int) * ((2 + g : Nat) : Int) ≤ 32 * n + 2 * ((16 * d + 1 : Nat) : Int) := by
          exact_mod_cast hupper
        push_cast at hcast
        linarith
      have hmul := mul_le_mul_of_nonneg_right (show every.micros ≤ 5400000000 * (16 * d + 1 : Int) by omega)
        (show (0 : Int) ≤ g by omega)
      push_cast
      linarith

theorem Compiled.rate (h : 0 < every.micros) (hc : Compiled (wholeSeconds every) e)
    (hmax : every.micros ≤ 2678400000000) (hregular : Regular (wholeSeconds every)) : RateWithin every e := by
  obtain ⟨-, hup, hdown⟩ := wholeSeconds_spec h
  generalize wholeSeconds every = secs at *
  cases hc with
  | seconds hpos hlt =>
    obtain ⟨hlow, hhigh⟩ := ceil_seconds secs hlt hpos
    have hwindow := Cron.fires_window hpos (fires_everySeconds secs)
    generalize (60 + secs - 1) / secs = c at *
    have hlow' : (60 : Int) ≤ secs * c := by exact_mod_cast hlow
    have hhigh' : (2 * secs + 1 : Int) * c ≤ 240 := by exact_mod_cast hhigh
    refine rate_of_window h (show 1440 * 60 = 86400 by omega) hwindow ?_ ?_
    · have hmul := mul_le_mul_of_nonneg_right (show 500000 * (secs : Int) ≤ every.micros by omega)
        (Int.natCast_nonneg c)
      push_cast
      linarith
    · have hmul := mul_le_mul_of_nonneg_right (show every.micros ≤ 500000 * (2 * secs + 1 : Int) by omega)
        (Int.natCast_nonneg c)
      push_cast
      linarith
  | @minutes m hpos hlt hsecs hnear hnear' =>
    obtain ⟨hlow, hhigh⟩ := ceil_minutes m hlt hpos
    have hwindow := Cron.fires_window (show 0 < 60 * m by omega) (fires_everyMinutes m)
    generalize (3600 + 60 * m - 1) / (60 * m) = c at *
    have hlow' : (60 : Int) ≤ m * c := by exact_mod_cast hlow
    have hhigh' : (120 * m + 61 : Int) * c ≤ 14400 := by exact_mod_cast hhigh
    refine rate_of_window h (show 24 * 3600 = 86400 by omega) hwindow ?_ ?_
    · have hmul := mul_le_mul_of_nonneg_right (show 30000000 * (m : Int) ≤ every.micros by omega)
        (Int.natCast_nonneg c)
      push_cast
      linarith
    · have hmul := mul_le_mul_of_nonneg_right (show every.micros ≤ 500000 * (120 * m + 61 : Int) by omega)
        (Int.natCast_nonneg c)
      push_cast
      linarith
  | hour hsecs =>
    refine rate_of_window h (show 24 * 3600 = 86400 by omega) (Cron.fires_window (by omega) fires_hourly) ?_ ?_
    · norm_num
      omega
    · norm_num
      omega
  | @hours k hlt hgt hdvd hsecs =>
    have hc := ceil_hours k hgt (by omega) hdvd
    have hwindow := Cron.fires_window (show 0 < 3600 * k by omega) (fires_everyHours k)
    generalize (86400 + 3600 * k - 1) / (3600 * k) = c at *
    have hc' : (k : Int) * c = 24 := by exact_mod_cast hc
    refine rate_of_window h (show 1 * 86400 = 86400 by omega) hwindow ?_ ?_
    · have hmul := mul_le_mul_of_nonneg_right (show 1800000000 * (k : Int) ≤ every.micros by omega)
        (Int.natCast_nonneg c)
      push_cast
      linarith
    · have hmul := mul_le_mul_of_nonneg_right (show every.micros ≤ 7200000000 * (k : Int) by omega)
        (Int.natCast_nonneg c)
      push_cast
      linarith
  | day hsecs =>
    refine rate_of_window h (show 1 * 86400 = 86400 by omega) (Cron.fires_window (by omega) fires_daily) ?_ ?_
    · norm_num
      omega
    · norm_num
      omega
  | @days d hlt hsecs =>
    have hd : min d 31 = d := by omega
    rw [hd]
    exact rate_everyDays (by omega) (by omega) (by omega) (by omega)
  | approx hsecs hdays hhours =>
    have hle : secs ≤ 7200 := by
      rcases hregular with hle | hdvd | hdvd
      · exact hle
      · exact absurd hdvd hdays
      · exact absurd hdvd hhours
    have hne : secs ≠ 7200 := by
      rintro rfl
      exact hhours (by decide)
    refine rate_of_window h (show 24 * 3600 = 86400 by omega) (Cron.fires_window (by omega) fires_hourly) ?_ ?_
    · norm_num
      omega
    · norm_num
      omega

/-- Above two hours, and neither days nor a part of a day: an hour is too
often. -/
theorem Compiled.not_rate (h : 0 < every.micros) (hc : Compiled (wholeSeconds every) e)
    (hno : ¬ Regular (wholeSeconds every)) : ¬ RateWithin every e := by
  obtain ⟨-, hup, hdown⟩ := wholeSeconds_spec h
  generalize wholeSeconds every = secs at *
  simp only [Regular, not_or] at hno
  obtain ⟨hgt, hdays, hhours⟩ := hno
  have he : e = hourly := by
    cases hc with
    | hour | approx => rfl
    | seconds | minutes | day => omega
    | hours _ hlt hdvd hsecs =>
      refine absurd ⟨⟨_, hsecs⟩, ?_⟩ hhours
      rwa [hsecs, Nat.mul_div_cancel_left _ (by omega)]
    | days _ hsecs => exact absurd ⟨_, hsecs⟩ hdays
  subst he
  rw [rateWithin_iff h]
  intro hrate
  have hcount : hourly.firesIn 0 (2000 * 86400) = 48000 :=
    Cron.fires_window (show 0 < 3600 by omega) fires_hourly 0 48000
  have hupper := (hrate 0 2000).2
  rw [hcount] at hupper
  omega

/-- The seconds divide a minute, or are minutes that divide an hour, or hours
that divide a day. -/
def Divides (q : Nat) : Prop := q ∣ 60 ∨ (∃ m, m ∣ 60 ∧ q = 60 * m) ∨ ∃ h, h ∣ 24 ∧ q = 3600 * h

theorem Compiled.everySeconds {secs : Nat} (hc : Compiled secs e) (hd : Divides secs) : e.EverySeconds secs := by
  have hsixty {m : Nat} (hm : m ∣ 60) : 0 < m ∧ m ≤ 60 :=
    ⟨Nat.pos_of_dvd_of_pos hm (by omega), Nat.le_of_dvd (by omega) hm⟩
  have hday {h : Nat} (hh : h ∣ 24) : 0 < h ∧ h ≤ 24 :=
    ⟨Nat.pos_of_dvd_of_pos hh (by omega), Nat.le_of_dvd (by omega) hh⟩
  cases hc with
  | seconds hpos hlt =>
    refine Cron.everySeconds (fires_everySeconds secs) ?_
    rcases hd with hdvd | ⟨m, hm, rfl⟩ | ⟨k, hk, rfl⟩
    · exact hdvd
    · have := hsixty hm
      omega
    · have := hday hk
      omega
  | @minutes m hpos hlt hsecs hnear hnear' =>
    have heq : secs = 60 * m ∧ m ∣ 60 := by
      rcases hd with hdvd | ⟨m', hm', rfl⟩ | ⟨k, hk, rfl⟩
      · have hle := (hsixty hdvd).2
        obtain rfl : m = 1 := by omega
        exact ⟨by omega, one_dvd 60⟩
      · obtain rfl : m' = m := by omega
        exact ⟨rfl, hm'⟩
      · have := hday hk
        omega
    rw [heq.1]
    exact Cron.everySeconds (fires_everyMinutes m) (Nat.mul_dvd_mul_left 60 heq.2)
  | hour hsecs => exact hsecs ▸ Cron.everySeconds fires_hourly (dvd_refl 3600)
  | hours _ _ hdvd hsecs => exact hsecs ▸ Cron.everySeconds (fires_everyHours _) (Nat.mul_dvd_mul_left 3600 hdvd)
  | day hsecs => exact hsecs ▸ Cron.everySeconds fires_daily (dvd_refl 86400)
  | days hlt hsecs =>
    rcases hd with hdvd | ⟨m, hm, rfl⟩ | ⟨k, hk, rfl⟩
    · have := hsixty hdvd
      omega
    · have := hsixty hm
      omega
    · have := hday hk
      omega
  | approx hsecs hdays hhours =>
    refine absurd ?_ hhours
    rcases hd with hdvd | ⟨m, hm, rfl⟩ | ⟨k, hk, rfl⟩
    · have := hsixty hdvd
      omega
    · have := hsixty hm
      obtain rfl : m = 60 := by omega
      decide
    · exact ⟨Nat.dvd_mul_right 3600 k, by rwa [Nat.mul_div_cancel_left _ (by omega)]⟩

end

/-! ## The law -/

/-- What an interval is compiled to, as an expression. -/
def Compiles (every : Timedelta) (P : Expr → Prop) : Prop :=
  ∃ expr e, intervalToCron every = .ok expr ∧ Cron.parse expr = some e ∧ P e

/-- A valid expression or a `ValueError`; as often as the interval says, if
that divides the clock; and about so often from a second to 31 days. -/
structure IntervalLaw (every : Timedelta) : Prop where
  total : Compiles every Expr.Valid ∨ ∃ message, intervalToCron every = .error (.raised (.valueError message))
  exact : ∀ q : Nat, Divides q → every.micros = 1000000 * q → Compiles every fun e => e.EverySeconds q
  rate : 1000000 ≤ every.micros → every.micros ≤ 31 * 86400 * 1000000 → Compiles every (RateWithin every)

theorem Compiles.mem {every : Timedelta} {P Q : Expr → Prop} (h : Compiles every P) (h' : Compiles every Q) :
    Compiles every fun e => P e ∧ Q e := by
  obtain ⟨expr, e, hexpr, he, hp⟩ := h
  obtain ⟨expr', e', hexpr', he', hq⟩ := h'
  rw [hexpr] at hexpr'
  cases hexpr'
  rw [he] at he'
  cases he'
  exact ⟨expr, e, hexpr, he, hp, hq⟩

/-- What rounds to no second is divided by. -/
theorem intervalToCron_small {every : Timedelta} (h : 0 < every.micros) (hsmall : every.micros ≤ 500000) :
    intervalToCron every = .error (.zeroDivisionError "integer modulo by zero") := by
  have hcast : (0 : ℚ) < every.micros := by exact_mod_cast h
  have hpos : 0 < every.totalSeconds := by
    rw [Timedelta.totalSeconds]
    positivity
  have hzero : roundHalfEven every.totalSeconds = 0 := by
    rw [roundHalfEven_eq_zero hpos, Timedelta.totalSeconds, div_le_iff₀ (by norm_num)]
    have hle : (every.micros : ℚ) ≤ 500000 := by exact_mod_cast hsmall
    linarith
  unfold intervalToCron
  rw [if_neg (not_le.2 hpos), hzero]
  rfl

section

variable {every : Timedelta} (h : 0 < every.micros)

include h

theorem IntervalLaw.above_half (hlaw : IntervalLaw every) : 500000 < every.micros := by
  by_contra hsmall
  have herror := intervalToCron_small h (by omega)
  rcases hlaw.total with ⟨expr, e, hok, -⟩ | ⟨message, hraised⟩
  · rw [herror] at hok
    cases hok
  · rw [herror] at hraised
    cases hraised

theorem IntervalLaw.regular (hlaw : IntervalLaw every) (hmin : 1000000 ≤ every.micros)
    (hmax : every.micros ≤ 31 * 86400 * 1000000) : Regular (wholeSeconds every) := by
  by_contra hno
  obtain ⟨expr, e, -, -, hc, hrate⟩ := Compiles.mem (compiled (hlaw.above_half h)) (hlaw.rate hmin hmax)
  exact hc.not_rate h hno hrate

/-- **Compiled intervals.** A positive interval obeys the law exactly if it is
above half a second and, if it is one of a second to 31 days, it is not above
two hours, or a number of days, or a number of hours that divides a day. -/
theorem interval_law_iff :
    IntervalLaw every ↔ 500000 < every.micros ∧
      (1000000 ≤ every.micros → every.micros ≤ 31 * 86400 * 1000000 → Regular (wholeSeconds every)) := by
  constructor
  · exact fun hlaw => ⟨hlaw.above_half h, hlaw.regular h⟩
  · rintro ⟨hlarge, hregular⟩
    obtain ⟨expr, e, hexpr, he, hc⟩ := compiled hlarge
    refine ⟨.inl ⟨expr, e, hexpr, he, hc.valid⟩, fun q hq hmicros => ⟨expr, e, hexpr, he, ?_⟩,
      fun hmin hmax => ⟨expr, e, hexpr, he, hc.rate h hmax (hregular hmin hmax)⟩⟩
    obtain ⟨-, hup, hdown⟩ := wholeSeconds_spec h
    obtain rfl : wholeSeconds every = q := by omega
    exact hc.everySeconds hq

end

theorem fiveMinutes_law : IntervalLaw ⟨300000000⟩ :=
  (interval_law_iff (by decide)).2 ⟨by decide, fun _ _ => by decide +kernel⟩

/-- Half a second ends in a `ZeroDivisionError`, and five hours fire every
hour. -/
theorem halfSecond_fiveHours : ¬ IntervalLaw ⟨500000⟩ ∧ ¬ IntervalLaw ⟨18000000000⟩ := by
  constructor
  · intro hlaw
    have habove := hlaw.above_half (by decide)
    exact absurd habove (by decide)
  · intro hlaw
    have hregular := hlaw.regular (by decide) (by decide) (by decide)
    exact absurd hregular (by decide +kernel)

end Interval

end Dbosify
