/-
Compiled calendars (`calendar_to_cron`, `_ranges_to_field`): when the expression
fires, and when the calendar says.

Each field of the expression matches what the field's ranges name. But a day
that has to match both day fields of the calendar has to match only one of the
expression's, unless one of them was printed as `*` (`calendar_exact_iff`).
-/
import Dbosify.Cron
import Dbosify.Schedule

namespace Dbosify

/-! ## What a calendar says -/

/-- The step of a range; one that is not positive counts as 1. -/
def ScheduleRange.every (r : ScheduleRange) : Int := if 0 < r.step then r.step else 1

/-- A number the range names. -/
def ScheduleRange.Matches (r : ScheduleRange) (x : Nat) : Prop :=
  r.start ≤ x ∧ x ≤ r.stop ∧ (x - r.start) % r.every = 0

def InRanges (rs : List ScheduleRange) (x : Nat) : Prop := ∃ r ∈ rs, r.Matches x

/-- Every field of the calendar matches one of its ranges. -/
structure ScheduleCalendarSpec.Matches (c : ScheduleCalendarSpec) (m : Cron.Moment) : Prop where
  second : InRanges c.second m.second
  minute : InRanges c.minute m.minute
  hour : InRanges c.hour m.hour
  dayOfMonth : InRanges c.dayOfMonth m.dayOfMonth
  month : InRanges c.month m.month
  dayOfWeek : InRanges c.dayOfWeek m.dayOfWeek

/-- Ranges of the field's numbers, at least one. -/
def Within (rs : List ScheduleRange) (d : Cron.Domain) : Prop :=
  rs ≠ [] ∧ ∀ r ∈ rs, d.first ≤ r.start ∧ r.stop ≤ d.last

instance (rs : List ScheduleRange) (d : Cron.Domain) : Decidable (Within rs d) := inferInstanceAs (Decidable (_ ∧ _))

/-- A calendar without years whose ranges are within their fields. -/
structure ScheduleCalendarSpec.WellFormed (c : ScheduleCalendarSpec) : Prop where
  second : Within c.second Cron.seconds
  minute : Within c.minute Cron.minutes
  hour : Within c.hour Cron.hours
  dayOfMonth : Within c.dayOfMonth Cron.daysOfMonth
  month : Within c.month Cron.months
  dayOfWeek : Within c.dayOfWeek Cron.daysOfWeek
  year : c.year = []

/-- The range is all of its field. -/
def ScheduleRange.Whole (d : Cron.Domain) (r : ScheduleRange) : Prop :=
  r.start ≤ d.first ∧ d.last ≤ r.stop ∧ r.every = 1

instance (d : Cron.Domain) (r : ScheduleRange) : Decidable (r.Whole d) := inferInstanceAs (Decidable (_ ∧ _))

/-- One of the ranges is all of the field. -/
def Unrestricted (d : Cron.Domain) (rs : List ScheduleRange) : Prop := ∃ r ∈ rs, r.Whole d

instance (d : Cron.Domain) (rs : List ScheduleRange) : Decidable (Unrestricted d rs) :=
  inferInstanceAs (Decidable (∃ r ∈ rs, r.Whole d))

theorem Within.exists {rs : List ScheduleRange} {d : Cron.Domain} (h : Within rs d) :
    ∃ x, d.first ≤ x ∧ x ≤ d.last ∧ InRanges rs x := by
  obtain ⟨r, hr⟩ := List.exists_mem_of_ne_nil rs h.1
  have hin := h.2 r hr
  have hle := r.start_le
  refine ⟨r.start.toNat, by omega, by omega, r, hr, by omega, by omega, ?_⟩
  rw [show ((r.start.toNat : Nat) : Int) - r.start = 0 by omega]
  exact Int.zero_emod _

/-! ## What is printed -/

/-- A range, as an item of a field. -/
def ScheduleRange.item (r : ScheduleRange) : Cron.Item where
  first := r.start.toNat
  last := r.stop.toNat
  step := if r.start = r.stop then 1 else r.every.toNat

/-- Ranges, as a field. -/
def fieldOf (d : Cron.Domain) (rs : List ScheduleRange) : Cron.Field :=
  if Unrestricted d rs then .any else .items (rs.map ScheduleRange.item)

theorem toString_toList {i : Int} (h : 0 ≤ i) : (toString i).toList = Nat.toDigits 10 i.toNat := by
  obtain ⟨n, rfl⟩ := Int.eq_ofNat_of_zero_le h
  show (toString n).toList = _
  rw [Nat.toString_eq_ofList_toDigits, String.toList_ofList]
  rfl

theorem mapM_some {α β : Type} {f : α → Option β} {g : α → β} {l : List α}
    (h : ∀ a ∈ l, f a = some (g a)) : l.mapM f = some (l.map g) := by
  induction l with
  | nil => rfl
  | cons a l ih =>
    rw [List.forall_mem_cons] at h
    rw [List.mapM_cons, h.1, ih h.2]
    rfl

theorem mem_intercalate {α : Type} {c x : α} {l : List (List α)} (h : c ∈ [x].intercalate l) :
    c = x ∨ ∃ t ∈ l, c ∈ t := by
  induction l with
  | nil => simp at h
  | cons t l ih =>
    cases l with
    | nil => exact .inr ⟨t, List.mem_singleton_self _, by simpa using h⟩
    | cons t' l =>
      rw [List.intercalate_cons_cons, List.mem_append, List.mem_append] at h
      rcases h with (h | h) | h
      · exact .inr ⟨t, List.mem_cons_self, h⟩
      · exact .inl (List.mem_singleton.1 h)
      · rcases ih h with h | ⟨u, hu, h⟩
        · exact .inl h
        · exact .inr ⟨u, List.mem_cons_of_mem _ hu, h⟩

section

variable {d : Cron.Domain} {r : ScheduleRange} {rs : List ScheduleRange}

theorem rangeToken_whole (h : r.Whole d) : rangeToken r d.first d.last = "*" := if_pos h

/-- A token that is no `*` reads back as the range. -/
theorem parseItem_rangeToken (hr : d.first ≤ r.start) (h : ¬ r.Whole d) :
    Cron.parseItem d (rangeToken r d.first d.last).toList = some r.item ∧
      (∀ c ∈ [' ', ','], c ∉ (rangeToken r d.first d.last).toList) ∧
      (rangeToken r d.first d.last).toList ≠ ['*'] := by
  have hle := r.start_le
  have hstart := toString_toList (show 0 ≤ r.start by omega)
  have hstop := toString_toList (show 0 ≤ r.stop by omega)
  have hevery : 0 < r.every := by
    unfold ScheduleRange.every
    split <;> omega
  have hstep := toString_toList (show 0 ≤ r.every by omega)
  have hno {c : Char} (hc : c ∈ [' ', ',']) (n : Nat) : c ∉ Nat.toDigits 10 n := by
    refine Cron.not_mem_toDigits ?_
    rcases List.mem_pair.1 hc with rfl | rfl <;> decide
  have hpair (a b : Nat) : '/' ∉ Nat.toDigits 10 a ++ '-' :: Nat.toDigits 10 b := by
    simp [Cron.not_mem_toDigits]
  have htoken : rangeToken r d.first d.last =
      if r.start = r.stop then toString r.start
      else if r.every = 1 then toString r.start ++ "-" ++ toString r.stop
      else toString r.start ++ "-" ++ toString r.stop ++ "/" ++ toString r.every := if_neg h
  rw [htoken, ScheduleRange.item]
  split
  · next heq =>
    rw [hstart]
    refine ⟨?_, fun c hc => hno hc _, Cron.toDigits_ne_star _⟩
    rw [Cron.parseItem_range d (Cron.not_mem_toDigits (by decide)) (Cron.parseRange_toDigits d _), heq]
  · next hne =>
    have hrange : (toString r.start ++ "-" ++ toString r.stop).toList =
        Nat.toDigits 10 r.start.toNat ++ '-' :: Nat.toDigits 10 r.stop.toNat := by
      rw [String.toList_append, String.toList_append, hstart, hstop, List.append_assoc]
      rfl
    have hhyphen {s : List Char} (hs : '-' ∈ s) : s ≠ ['*'] := by
      rintro rfl
      simp at hs
    split
    · next hone =>
      rw [hrange]
      refine ⟨?_, fun c hc => ?_, hhyphen (by simp)⟩
      · rw [Cron.parseItem_range d (hpair _ _) (Cron.parseRange_pair d _ _), hone]
        rfl
      · rw [List.mem_append, List.mem_cons, not_or, not_or]
        refine ⟨hno hc _, ?_, hno hc _⟩
        rintro rfl
        simp at hc
    · rw [String.toList_append, String.toList_append, hrange, hstep, List.append_assoc]
      refine ⟨?_, fun c hc => ?_, hhyphen (by simp)⟩
      · exact Cron.parseItem_step d (hpair _ _) (Cron.parseRange_pair d _ _) _
      · have hc' : c ≠ '-' ∧ c ≠ '/' := by
          rcases List.mem_pair.1 hc with rfl | rfl <;> decide
        simp [hno hc, hc'.1, hc'.2]

/-- The token is `*` for a range that is all of the field, and for no other. -/
theorem rangeToken_eq_star (hr : d.first ≤ r.start) : rangeToken r d.first d.last = "*" ↔ r.Whole d := by
  constructor
  · intro h
    by_contra hno
    exact (parseItem_rangeToken hr hno).2.2 (congrArg String.toList h)
  · exact rangeToken_whole

/-- A printed field reads back. -/
theorem parseField_rangesToField (h : Within rs d) :
    Cron.parseField d (rangesToField rs d.first d.last).toList = some (fieldOf d rs) ∧
      ' ' ∉ (rangesToField rs d.first d.last).toList := by
  have hstar : "*" ∈ rs.map (rangeToken · d.first d.last) ↔ Unrestricted d rs := by
    simp only [List.mem_map]
    exact exists_congr fun r => and_congr_right fun hr => rangeToken_eq_star (h.2 r hr).1
  have hne : rs.isEmpty = false := by simpa using h.1
  rw [rangesToField, fieldOf]
  simp only [hne, Bool.false_eq_true, if_false, hstar]
  split
  · exact ⟨Cron.parseField_star d, by decide⟩
  · next hno =>
    have hitem : ∀ r ∈ rs, ¬ r.Whole d := fun r hr hw => hno ⟨r, hr, hw⟩
    have htoken {t : List Char} (ht : t ∈ (rs.map (rangeToken · d.first d.last)).map String.toList) :
        (∀ c ∈ [' ', ','], c ∉ t) ∧ t ≠ ['*'] := by
      rw [List.map_map, List.mem_map] at ht
      obtain ⟨r, hr, rfl⟩ := ht
      exact (parseItem_rangeToken (h.2 r hr).1 (hitem r hr)).2
    rw [String.toList_intercalate]
    constructor
    · refine Cron.parseField_items d (by simpa using h.1) (fun t ht => (htoken ht).1 ',' (by simp))
        (fun hs => (htoken hs).2 rfl) ?_
      rw [List.map_map, List.mapM_map]
      exact mapM_some fun r hr => (parseItem_rangeToken (h.2 r hr).1 (hitem r hr)).1
    · intro hblank
      rcases mem_intercalate hblank with hc | ⟨t, ht, hc⟩
      · cases hc
      · exact (htoken ht).1 ' ' (by simp) hc

/-! ## What a field matches -/

theorem contains_item (hr : d.first ≤ r.start) (x : Nat) : r.item.Contains x ↔ r.Matches x := by
  have hle := r.start_le
  have hevery : 0 < r.every := by
    unfold ScheduleRange.every
    split <;> omega
  obtain ⟨a, ha⟩ := Int.eq_ofNat_of_zero_le (show 0 ≤ r.start by omega)
  obtain ⟨b, hb⟩ := Int.eq_ofNat_of_zero_le (show 0 ≤ r.stop by omega)
  obtain ⟨k, hk⟩ := Int.eq_ofNat_of_zero_le hevery.le
  simp only [Cron.Item.Contains, ScheduleRange.item, ScheduleRange.Matches, ha, hb, hk, Int.toNat_natCast,
    Nat.cast_le, Nat.cast_inj]
  refine and_congr_right fun hax => and_congr_right fun hxb => ?_
  rw [← Nat.cast_sub hax, ← Int.natCast_mod, Nat.cast_eq_zero]
  split
  · next hab =>
    have hx : x - a = 0 := by omega
    rw [hx]
    simp
  · rfl

theorem contains_fieldOf (h : Within rs d) {x : Nat} (hx : d.first ≤ x ∧ x ≤ d.last) :
    (fieldOf d rs).Contains x ↔ InRanges rs x := by
  rw [fieldOf]
  split
  · next hall =>
    obtain ⟨r, hr, hfirst, hlast, hone⟩ := hall
    refine iff_of_true trivial ⟨r, hr, by omega, by omega, ?_⟩
    rw [hone, Int.emod_one]
  · simp only [Cron.Field.Contains, List.mem_map, exists_exists_and_eq_and, InRanges]
    exact exists_congr fun r => and_congr_right fun hr => contains_item (h.2 r hr).1 x

theorem fieldOf_eq_any : fieldOf d rs = .any ↔ Unrestricted d rs := by
  rw [fieldOf]
  split
  · next h => exact iff_of_true rfl h
  · next h => exact iff_of_false (by simp) h

end

/-! ## The expression of a calendar -/

/-- The calendar, as an expression. -/
def ScheduleCalendarSpec.expr (c : ScheduleCalendarSpec) : Cron.Expr where
  second := fieldOf Cron.seconds c.second
  minute := fieldOf Cron.minutes c.minute
  hour := fieldOf Cron.hours c.hour
  dayOfMonth := fieldOf Cron.daysOfMonth c.dayOfMonth
  month := fieldOf Cron.months c.month
  dayOfWeek := fieldOf Cron.daysOfWeek c.dayOfWeek

namespace ScheduleCalendarSpec

variable {c : ScheduleCalendarSpec}

/-- What is printed reads back as the expression; seconds that are left out are
0. -/
theorem parse_calendarToCron (h : c.WellFormed) : Cron.parse (calendarToCron c) = some c.expr := by
  have hsecond := parseField_rangesToField h.second
  have hminute := parseField_rangesToField h.minute
  have hhour := parseField_rangesToField h.hour
  have hdayOfMonth := parseField_rangesToField h.dayOfMonth
  have hmonth := parseField_rangesToField h.month
  have hdayOfWeek := parseField_rangesToField h.dayOfWeek
  simp only [calendarToCron]
  split
  · refine Cron.parse_six (String.toList_intercalate) ?_ hsecond.1 hminute.1 hhour.1 hdayOfMonth.1 hmonth.1 hdayOfWeek.1
    simp only [List.forall_mem_cons, List.not_mem_nil, false_imp_iff, implies_true, and_true]
    exact ⟨hsecond.2, hminute.2, hhour.2, hdayOfMonth.2, hmonth.2, hdayOfWeek.2⟩
  · next hzero =>
    have hsecond' : c.expr.second = .items [⟨0, 0, 1⟩] := by
      have hprinted : rangesToField c.second Cron.seconds.first Cron.seconds.last = "0" := not_not.1 hzero
      have hparse := hsecond.1
      rw [hprinted] at hparse
      exact (Option.some.inj hparse).symm
    refine Cron.parse_five (String.toList_intercalate) ?_ hsecond' hminute.1 hhour.1 hdayOfMonth.1 hmonth.1 hdayOfWeek.1
    simp only [List.forall_mem_cons, List.not_mem_nil, false_imp_iff, implies_true, and_true]
    exact ⟨hminute.2, hhour.2, hdayOfMonth.2, hmonth.2, hdayOfWeek.2⟩

/-- Its fields but for the days match what the calendar's do. -/
theorem fires_expr (h : c.WellFormed) (t : Nat) :
    c.expr.Fires t ↔
      (InRanges c.second (t % 60) ∧ InRanges c.minute (t / 60 % 60) ∧ InRanges c.hour (t / 3600 % 24) ∧
        InRanges c.month (Gregorian.month (t / 86400))) ∧
      if Unrestricted Cron.daysOfMonth c.dayOfMonth ∨ Unrestricted Cron.daysOfWeek c.dayOfWeek then
        InRanges c.dayOfMonth (Gregorian.dayOfMonth (t / 86400)) ∧
          InRanges c.dayOfWeek (Gregorian.dayOfWeek (t / 86400))
      else
        InRanges c.dayOfMonth (Gregorian.dayOfMonth (t / 86400)) ∨
          InRanges c.dayOfWeek (Gregorian.dayOfWeek (t / 86400)) := by
  have hbelow (k n : Nat) : 0 ≤ k % (n + 1) ∧ k % (n + 1) ≤ n := by
    have hlt : k % (n + 1) < n + 1 := Nat.mod_lt k n.succ_pos
    omega
  have hsecond := contains_fieldOf h.second (hbelow t 59)
  have hminute := contains_fieldOf h.minute (hbelow (t / 60) 59)
  have hhour := contains_fieldOf h.hour (hbelow (t / 3600) 23)
  have hmonth := contains_fieldOf h.month (Gregorian.month_bounds (t / 86400))
  have hdayOfMonth := contains_fieldOf h.dayOfMonth (Gregorian.dayOfMonth_bounds (t / 86400))
  have hdayOfWeek := contains_fieldOf h.dayOfWeek ⟨Nat.zero_le _, Gregorian.dayOfWeek_le (t / 86400)⟩
  simp only [Cron.Expr.Fires, Cron.Expr.Matches, Cron.Expr.MatchesDay, Cron.Moment.of, expr, hsecond, hminute, hhour,
    hmonth, hdayOfMonth, hdayOfWeek, fieldOf_eq_any, and_assoc]

theorem matches_of (t : Nat) :
    c.Matches (.of t) ↔
      (InRanges c.second (t % 60) ∧ InRanges c.minute (t / 60 % 60) ∧ InRanges c.hour (t / 3600 % 24) ∧
        InRanges c.month (Gregorian.month (t / 86400))) ∧
      InRanges c.dayOfMonth (Gregorian.dayOfMonth (t / 86400)) ∧
        InRanges c.dayOfWeek (Gregorian.dayOfWeek (t / 86400)) := by
  constructor
  · exact fun h => ⟨⟨h.second, h.minute, h.hour, h.month⟩, h.dayOfMonth, h.dayOfWeek⟩
  · exact fun ⟨⟨h₁, h₂, h₃, h₅⟩, h₄, h₆⟩ => ⟨h₁, h₂, h₃, h₄, h₅, h₆⟩

/-- The day fields of the calendar exclude no day of its months. -/
def EveryDay (c : ScheduleCalendarSpec) : Prop :=
  ∀ n, InRanges c.month (Gregorian.month n) →
    InRanges c.dayOfMonth (Gregorian.dayOfMonth n) ∧ InRanges c.dayOfWeek (Gregorian.dayOfWeek n)

/-- On each day there is a second at which the other fields match. -/
theorem exists_time (h : c.WellFormed) (n : Nat) :
    ∃ t, t / 86400 = n ∧ InRanges c.second (t % 60) ∧ InRanges c.minute (t / 60 % 60) ∧
      InRanges c.hour (t / 3600 % 24) := by
  obtain ⟨s, -, hs, hs'⟩ := h.second.exists
  obtain ⟨m, -, hm, hm'⟩ := h.minute.exists
  obtain ⟨k, -, hk, hk'⟩ := h.hour.exists
  have hs₁ : s ≤ 59 := hs
  have hm₁ : m ≤ 59 := hm
  have hk₁ : k ≤ 23 := hk
  refine ⟨86400 * n + 3600 * k + 60 * m + s, by omega, ?_, ?_, ?_⟩
  · rwa [show (86400 * n + 3600 * k + 60 * m + s) % 60 = s by omega]
  · rwa [show (86400 * n + 3600 * k + 60 * m + s) / 60 % 60 = m by omega]
  · rwa [show (86400 * n + 3600 * k + 60 * m + s) / 3600 % 24 = k by omega]

/-- Two restricted day fields match alike only where they match every day. -/
theorem everyDay_of_exact (h : c.WellFormed)
    (hexact : ∀ n, InRanges c.month (Gregorian.month n) →
      (InRanges c.dayOfMonth (Gregorian.dayOfMonth n) ↔ InRanges c.dayOfWeek (Gregorian.dayOfWeek n))) :
    c.EveryDay := by
  intro n hn
  -- The date is somewhere on a day of the week that matches.
  obtain ⟨w, -, hw, hmatch⟩ := h.dayOfWeek.exists
  obtain ⟨n', hmonth, hday, hweek⟩ := Gregorian.exists_dayOfWeek n (Nat.lt_succ_of_le hw)
  have hdate : InRanges c.dayOfMonth (Gregorian.dayOfMonth n) := by
    rw [← hday, hexact n' (by rwa [hmonth]), hweek]
    exact hmatch
  exact ⟨hdate, (hexact n hn).1 hdate⟩

/-- **Compiled calendars.** The expression printed for a calendar fires exactly
when the calendar says, exactly if one of its day fields is printed as `*` or
they exclude no day of its months. -/
theorem calendar_exact_iff (h : c.WellFormed) :
    ∃ e, Cron.parse (calendarToCron c) = some e ∧
      ((∀ t, e.Fires t ↔ c.Matches (.of t)) ↔
        Unrestricted Cron.daysOfMonth c.dayOfMonth ∨ Unrestricted Cron.daysOfWeek c.dayOfWeek ∨ c.EveryDay) := by
  refine ⟨c.expr, parse_calendarToCron h, ?_⟩
  simp only [fires_expr h, matches_of]
  rw [← or_assoc]
  by_cases hall : Unrestricted Cron.daysOfMonth c.dayOfMonth ∨ Unrestricted Cron.daysOfWeek c.dayOfWeek
  · simp only [hall, if_true, true_or, implies_true]
  · simp only [hall, if_false, false_or]
    constructor
    · refine fun hexact => everyDay_of_exact h fun n hn => ?_
      obtain ⟨t, rfl, hs, hm, hk⟩ := exists_time h n
      have hiff := hexact t
      tauto
    · intro hevery t
      refine and_congr_right fun hother => ?_
      have hday := hevery _ hother.2.2.2
      exact iff_of_true (.inl hday.1) hday

/-- Midnight, from Monday to Friday. -/
theorem workdays_exact :
    let c : ScheduleCalendarSpec := { dayOfWeek := [.of 1 5] }
    ∃ e, Cron.parse (calendarToCron c) = some e ∧ ∀ t, e.Fires t ↔ c.Matches (.of t) := by
  intro c
  have h : c.WellFormed := by constructor <;> decide
  obtain ⟨e, he, hexact⟩ := calendar_exact_iff h
  exact ⟨e, he, hexact.2 (.inl (by decide))⟩

/-- A calendar of Fridays the 13th: its expression fires on the first Friday of
the calendar, the 5th. -/
theorem friday_fires :
    let c : ScheduleCalendarSpec := { dayOfMonth := [.of 13], dayOfWeek := [.of 5] }
    c.WellFormed ∧ ∃ e t, Cron.parse (calendarToCron c) = some e ∧ e.Fires t ∧ ¬ c.Matches (.of t) := by
  intro c
  have h : c.WellFormed := by constructor <;> decide
  refine ⟨h, c.expr, 4 * 86400, parse_calendarToCron h, by decide, fun hm => ?_⟩
  obtain ⟨r, hr, hfirst, -⟩ := hm.dayOfMonth
  rw [List.mem_singleton.1 hr] at hfirst
  exact absurd hfirst (by decide)

end ScheduleCalendarSpec

end Dbosify
