/-
The proleptic Gregorian calendar: days and months counted from the first of
January of the year 1, a Monday.

A day is in the month whose start is the last one not after it (`monthOf`). The
leap years of the first century put every date on every day of the week
(`exists_dayOfWeek`).
-/
import Mathlib.Data.Nat.Basic

namespace Gregorian

/-! ## Months -/

def leap (year : Nat) : Bool := year % 4 = 0 && (year % 100 ≠ 0 || year % 400 = 0)

/-- The length of a month, by how many months there are before it. -/
def monthLength (m : Nat) : Nat :=
  match m % 12 with
  | 1 => if leap (m / 12 + 1) then 29 else 28
  | 3 | 5 | 8 | 10 => 30
  | _ => 31

/-- How many days there are before a month. -/
def monthStart : Nat → Nat
  | 0 => 0
  | m + 1 => monthStart m + monthLength m

theorem monthLength_ge (m : Nat) : 28 ≤ monthLength m := by
  unfold monthLength
  split
  · split <;> omega
  all_goals omega

theorem monthLength_le (m : Nat) : monthLength m ≤ 31 := by
  unfold monthLength
  split
  · split <;> omega
  all_goals omega

@[simp] theorem monthStart_succ (m : Nat) : monthStart (m + 1) = monthStart m + monthLength m := rfl

theorem monthStart_mono {m m' : Nat} (h : m ≤ m') : monthStart m ≤ monthStart m' := by
  induction h with
  | refl => exact Nat.le_refl _
  | step _ ih => exact Nat.le_trans ih (Nat.le_add_right _ _)

/-! ## Days -/

/-- The month of the `k`-th day after the start of a month; it is at most
`fuel` months later. -/
def locate : Nat → Nat → Nat → Nat
  | 0, m, _ => m
  | fuel + 1, m, k => if k < monthLength m then m else locate fuel (m + 1) (k - monthLength m)

theorem locate_spec {fuel m k : Nat} (h : k ≤ fuel) :
    monthStart (locate fuel m k) ≤ monthStart m + k ∧
      monthStart m + k < monthStart (locate fuel m k) + monthLength (locate fuel m k) := by
  induction fuel generalizing m k with
  | zero =>
    have hlen := monthLength_ge m
    rw [locate]
    omega
  | succ fuel ih =>
    have hlen := monthLength_ge m
    rw [locate]
    split
    · omega
    · next hk =>
      have hnext := @ih (m + 1) (k - monthLength m) (by omega)
      rw [monthStart_succ] at hnext
      omega

/-- The month of a day. -/
def monthOf (n : Nat) : Nat := locate n 0 n

theorem monthStart_monthOf (n : Nat) : monthStart (monthOf n) ≤ n := by
  have h := (@locate_spec n 0 n le_rfl).1
  rwa [monthStart, Nat.zero_add] at h

theorem lt_monthStart_monthOf (n : Nat) : n < monthStart (monthOf n) + monthLength (monthOf n) := by
  have h := (@locate_spec n 0 n le_rfl).2
  rwa [monthStart, Nat.zero_add] at h

/-- The month of a day is the one it lies in. -/
theorem monthOf_eq {n m : Nat} (h : monthStart m ≤ n) (h' : n < monthStart m + monthLength m) : monthOf n = m := by
  have h₁ := monthStart_monthOf n
  have h₂ := lt_monthStart_monthOf n
  rcases lt_trichotomy (monthOf n) m with hlt | heq | hgt
  · have := monthStart_mono (show monthOf n + 1 ≤ m from hlt)
    rw [monthStart_succ] at this
    omega
  · exact heq
  · have := monthStart_mono (show m + 1 ≤ monthOf n from hgt)
    rw [monthStart_succ] at this
    omega

/-- The month of the year, from 1. -/
def month (n : Nat) : Nat := monthOf n % 12 + 1

/-- The day of the month, from 1. -/
def dayOfMonth (n : Nat) : Nat := n - monthStart (monthOf n) + 1

/-- The day of the week; 0 is Sunday. -/
def dayOfWeek (n : Nat) : Nat := (n + 1) % 7

theorem month_bounds (n : Nat) : 1 ≤ month n ∧ month n ≤ 12 := by
  unfold month
  omega

theorem dayOfMonth_bounds (n : Nat) : 1 ≤ dayOfMonth n ∧ dayOfMonth n ≤ 31 := by
  have h := lt_monthStart_monthOf n
  have hlen := monthLength_le (monthOf n)
  unfold dayOfMonth
  omega

theorem dayOfWeek_le (n : Nat) : dayOfWeek n ≤ 6 := by
  unfold dayOfWeek
  omega

theorem month_add {m k : Nat} (h : k < monthLength m) : month (monthStart m + k) = m % 12 + 1 := by
  rw [month, monthOf_eq (Nat.le_add_right _ _) (by omega)]

theorem dayOfMonth_add {m k : Nat} (h : k < monthLength m) : dayOfMonth (monthStart m + k) = k + 1 := by
  rw [dayOfMonth, monthOf_eq (Nat.le_add_right _ _) (by omega)]
  omega

/-! ## Days of the week -/

/-- Within the first century the calendar repeats every four years. -/
theorem monthLength_add {m : Nat} (h : m + 48 < 1188) : monthLength (m + 48) = monthLength m := by
  have hmod : (m + 48) % 12 = m % 12 := by omega
  have hleap : leap ((m + 48) / 12 + 1) = leap (m / 12 + 1) := by
    have h₁ : (m + 48) / 12 + 1 < 100 := by omega
    have h₂ : (m + 48) / 12 + 1 = m / 12 + 1 + 4 := by omega
    have h₃ : (m / 12 + 1) % 100 ≠ 0 := by omega
    have h₄ : (m / 12 + 1 + 4) % 100 ≠ 0 := by omega
    have h₅ : (m / 12 + 1 + 4) % 4 = (m / 12 + 1) % 4 := by omega
    simp only [leap, h₂, h₅, ne_eq, h₃, h₄, not_false_eq_true, decide_true, Bool.true_or]
  simp only [monthLength, hmod, hleap]

theorem monthStart_add {m : Nat} (h : m + 48 ≤ 1188) : monthStart (m + 48) = monthStart m + 1461 := by
  induction m with
  | zero => decide
  | succ m ih =>
    have hlen : monthLength (m + 48) = monthLength m := monthLength_add (by omega)
    have hnext : monthStart (m + 1 + 48) = monthStart (m + 48) + monthLength (m + 48) := by
      rw [show m + 1 + 48 = m + 48 + 1 by omega]
      rfl
    rw [hnext, ih (by omega), hlen, monthStart_succ]
    omega

theorem monthStart_add_mul {m : Nat} (hm : m < 48) {j : Nat} (hj : j < 8) :
    monthStart (m + 48 * j) = monthStart m + 1461 * j := by
  induction j with
  | zero => rfl
  | succ j ih =>
    rw [show m + 48 * (j + 1) = m + 48 * j + 48 by omega, monthStart_add (by omega), ih (by omega)]
    omega

/-- No month of its name is longer than that of a leap year. -/
theorem monthLength_le_leap {m : Nat} {j : Nat} (hj : j < 8) : monthLength m ≤ monthLength (36 + m % 12 + 48 * j) := by
  have hmod : (36 + m % 12 + 48 * j) % 12 = m % 12 := by omega
  have hleap : leap ((36 + m % 12 + 48 * j) / 12 + 1) = true := by
    have h₁ : (36 + m % 12 + 48 * j) / 12 + 1 = 4 * (j + 1) := by omega
    have h₂ : 4 * (j + 1) % 100 ≠ 0 := by omega
    have h₃ : 4 * (j + 1) % 4 = 0 := by omega
    simp only [leap, h₁, h₂, h₃, ne_eq, not_false_eq_true, decide_true, Bool.true_or, Bool.and_true]
  simp only [monthLength, hmod, hleap, if_true]
  split
  · split <;> omega
  all_goals omega

/-- **Every date falls on every day of the week**, in some year. -/
theorem exists_dayOfWeek (n : Nat) {w : Nat} (hw : w < 7) :
    ∃ n', month n' = month n ∧ dayOfMonth n' = dayOfMonth n ∧ dayOfWeek n' = w := by
  have hstart := monthStart_monthOf n
  have hend := lt_monthStart_monthOf n
  -- Four years from one leap year to the next move its days by five days of the week.
  obtain ⟨m, hm⟩ : ∃ m, m = 36 + monthOf n % 12 := ⟨_, rfl⟩
  obtain ⟨k, hkn⟩ : ∃ k, k = n - monthStart (monthOf n) := ⟨_, rfl⟩
  obtain ⟨j, hj⟩ : ∃ j, j = 3 * (w + 6 * (monthStart m + k + 1)) % 7 := ⟨_, rfl⟩
  have hk : k < monthLength (m + 48 * j) := by
    have hlen := @monthLength_le_leap (monthOf n) j (by omega)
    rw [← hm] at hlen
    omega
  refine ⟨monthStart (m + 48 * j) + k, ?_, ?_, ?_⟩
  · rw [month_add hk, month]
    omega
  · rw [dayOfMonth_add hk, dayOfMonth, hkn]
  · rw [dayOfWeek, monthStart_add_mul (by omega) (by omega)]
    omega

end Gregorian
