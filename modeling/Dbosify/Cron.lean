/-
Cron expressions of numbers: what they are, how they are read, and when they
fire.

An expression has five fields, or six with the seconds first; one of five fires
at second 0. A day matches both day fields if one of them is `*`, and else
either of them. Times are seconds on a clock that starts at midnight of the
calendar's first day.
-/
import Dbosify.Gregorian
import Mathlib.Data.List.Basic

namespace Cron

/-! ## Expressions -/

/-- The first, then every `step`-th number up to the last. -/
structure Item where
  first : Nat
  last : Nat
  step : Nat := 1
deriving DecidableEq, Repr

/-- A field: `*`, or a list of items. -/
inductive Field
  | any
  | items (l : List Item)
deriving DecidableEq, Repr

/-- What a field ranges over. -/
structure Domain where
  first : Nat
  last : Nat

def seconds : Domain := ⟨0, 59⟩
def minutes : Domain := ⟨0, 59⟩
def hours : Domain := ⟨0, 23⟩
def daysOfMonth : Domain := ⟨1, 31⟩
def months : Domain := ⟨1, 12⟩
/-- Sunday is 0. -/
def daysOfWeek : Domain := ⟨0, 6⟩

structure Expr where
  second : Field := .items [⟨0, 0, 1⟩]
  minute : Field
  hour : Field
  dayOfMonth : Field
  month : Field
  dayOfWeek : Field
deriving DecidableEq, Repr

/-- An item of the field's numbers, with a step of at least 1 and no greater
than they are. -/
def Item.Valid (d : Domain) (i : Item) : Prop :=
  d.first ≤ i.first ∧ i.first ≤ i.last ∧ i.last ≤ d.last ∧ 1 ≤ i.step ∧ i.step ≤ d.last

instance (d : Domain) (i : Item) : Decidable (i.Valid d) := inferInstanceAs (Decidable (_ ∧ _))

def Field.Valid (d : Domain) : Field → Prop
  | any => True
  | items l => l ≠ [] ∧ ∀ i ∈ l, i.Valid d

structure Expr.Valid (e : Expr) : Prop where
  second : e.second.Valid seconds
  minute : e.minute.Valid minutes
  hour : e.hour.Valid hours
  dayOfMonth : e.dayOfMonth.Valid daysOfMonth
  month : e.month.Valid months
  dayOfWeek : e.dayOfWeek.Valid daysOfWeek

/-! ## Reading -/

/-- A decimal number. -/
def parseNumber (s : List Char) : Option Nat :=
  if s ≠ [] ∧ s.all Char.isDigit = true then some (Nat.ofDigitChars 10 s 0) else none

/-- `*`, `a`, or `a-b`. -/
def parseRange (d : Domain) (s : List Char) : Option (Nat × Nat) :=
  if s = ['*'] then some (d.first, d.last)
  else
    match s.splitOn '-' with
    | [a] => (parseNumber a).map fun a => (a, a)
    | [a, b] => do return (← parseNumber a, ← parseNumber b)
    | _ => none

/-- A range, and a step if there is one. -/
def parseItem (d : Domain) (s : List Char) : Option Item :=
  match s.splitOn '/' with
  | [range] => (parseRange d range).map fun r => { first := r.1, last := r.2 }
  | [range, step] => do
    let r ← parseRange d range
    return { first := r.1, last := r.2, step := ← parseNumber step }
  | _ => none

def parseField (d : Domain) (s : List Char) : Option Field :=
  if s = ['*'] then some .any else ((s.splitOn ',').mapM (parseItem d)).map .items

def parse (s : String) : Option Expr :=
  match s.toList.splitOn ' ' with
  | [minute, hour, dayOfMonth, month, dayOfWeek] => do
    return {
      minute := ← parseField minutes minute
      hour := ← parseField hours hour
      dayOfMonth := ← parseField daysOfMonth dayOfMonth
      month := ← parseField months month
      dayOfWeek := ← parseField daysOfWeek dayOfWeek }
  | [second, minute, hour, dayOfMonth, month, dayOfWeek] => do
    return {
      second := ← parseField seconds second
      minute := ← parseField minutes minute
      hour := ← parseField hours hour
      dayOfMonth := ← parseField daysOfMonth dayOfMonth
      month := ← parseField months month
      dayOfWeek := ← parseField daysOfWeek dayOfWeek }
  | _ => none

/-! ## Firing -/

/-- A second, as a clock and a calendar show it. -/
structure Moment where
  second : Nat
  minute : Nat
  hour : Nat
  dayOfMonth : Nat
  month : Nat
  dayOfWeek : Nat
deriving DecidableEq, Repr

/-- The moment at a time. -/
def Moment.of (t : Nat) : Moment where
  second := t % 60
  minute := t / 60 % 60
  hour := t / 3600 % 24
  dayOfMonth := Gregorian.dayOfMonth (t / 86400)
  month := Gregorian.month (t / 86400)
  dayOfWeek := Gregorian.dayOfWeek (t / 86400)

def Item.Contains (i : Item) (x : Nat) : Prop := i.first ≤ x ∧ x ≤ i.last ∧ (x - i.first) % i.step = 0

instance (i : Item) (x : Nat) : Decidable (i.Contains x) := inferInstanceAs (Decidable (_ ∧ _))

def Field.Contains : Field → Nat → Prop
  | any, _ => True
  | items l, x => ∃ i ∈ l, i.Contains x

instance (f : Field) (x : Nat) : Decidable (f.Contains x) :=
  match f with
  | .any => isTrue trivial
  | .items l => inferInstanceAs (Decidable (∃ i ∈ l, i.Contains x))

@[simp] theorem contains_any (x : Nat) : Field.any.Contains x := trivial

/-- The two day fields. -/
def Expr.MatchesDay (e : Expr) (m : Moment) : Prop :=
  if e.dayOfMonth = .any ∨ e.dayOfWeek = .any then
    e.dayOfMonth.Contains m.dayOfMonth ∧ e.dayOfWeek.Contains m.dayOfWeek
  else e.dayOfMonth.Contains m.dayOfMonth ∨ e.dayOfWeek.Contains m.dayOfWeek

instance (e : Expr) (m : Moment) : Decidable (e.MatchesDay m) :=
  inferInstanceAs (Decidable (if e.dayOfMonth = .any ∨ e.dayOfWeek = .any then _ ∧ _ else _ ∨ _))

def Expr.Matches (e : Expr) (m : Moment) : Prop :=
  e.second.Contains m.second ∧ e.minute.Contains m.minute ∧ e.hour.Contains m.hour ∧ e.month.Contains m.month ∧
    e.MatchesDay m

instance (e : Expr) (m : Moment) : Decidable (e.Matches m) := inferInstanceAs (Decidable (_ ∧ _))

/-- The expression fires at the time. -/
def Expr.Fires (e : Expr) (t : Nat) : Prop := e.Matches (.of t)

instance (e : Expr) : DecidablePred e.Fires := fun t => inferInstanceAs (Decidable (e.Matches (.of t)))

/-! ## Reading what was printed -/

theorem not_mem_toDigits {n : Nat} {c : Char} (h : c.isDigit = false) : c ∉ Nat.toDigits 10 n := by
  intro hc
  rw [Nat.isDigit_of_mem_toDigits (by omega) (by omega) hc] at h
  cases h

@[simp] theorem parseNumber_toDigits (n : Nat) : parseNumber (Nat.toDigits 10 n) = some n := by
  have hall : (Nat.toDigits 10 n).all Char.isDigit = true := by
    rw [List.all_eq_true]
    exact fun c hc => Nat.isDigit_of_mem_toDigits (by omega) (by omega) hc
  rw [parseNumber, if_pos ⟨Nat.toDigits_ne_nil, hall⟩, Nat.ofDigitChars_ten_toDigits]

theorem splitOn_single {c : Char} {s : List Char} (h : c ∉ s) : s.splitOn c = [s] := List.splitOn_eq_singleton h

theorem splitOn_pair {c : Char} {s t : List Char} (hs : c ∉ s) (ht : c ∉ t) : (s ++ c :: t).splitOn c = [s, t] := by
  rw [List.splitOn_append_cons_self_of_not_mem hs, splitOn_single ht]

variable (d : Domain)

theorem toDigits_ne_star (n : Nat) : Nat.toDigits 10 n ≠ ['*'] := by
  intro h
  have hstar : '*' ∈ Nat.toDigits 10 n := h ▸ List.mem_singleton_self _
  exact not_mem_toDigits (by decide) hstar

@[simp] theorem parseRange_star : parseRange d ['*'] = some (d.first, d.last) := if_pos rfl

@[simp] theorem parseRange_toDigits (n : Nat) : parseRange d (Nat.toDigits 10 n) = some (n, n) := by
  rw [parseRange, if_neg (toDigits_ne_star n), splitOn_single (not_mem_toDigits (by decide))]
  simp

@[simp] theorem parseRange_pair (a b : Nat) :
    parseRange d (Nat.toDigits 10 a ++ '-' :: Nat.toDigits 10 b) = some (a, b) := by
  have hne : Nat.toDigits 10 a ++ '-' :: Nat.toDigits 10 b ≠ ['*'] := by
    intro h
    have hhyphen : '-' ∈ ['*'] := h ▸ by simp
    simp at hhyphen
  rw [parseRange, if_neg hne, splitOn_pair (not_mem_toDigits (by decide)) (not_mem_toDigits (by decide))]
  simp

/-- A range without a step. -/
theorem parseItem_range {s : List Char} {r : Nat × Nat} (hs : '/' ∉ s) (hr : parseRange d s = some r) :
    parseItem d s = some { first := r.1, last := r.2 } := by
  rw [parseItem, splitOn_single hs]
  simp [hr]

/-- A range with a step. -/
theorem parseItem_step {s : List Char} {r : Nat × Nat} (hs : '/' ∉ s) (hr : parseRange d s = some r) (n : Nat) :
    parseItem d (s ++ '/' :: Nat.toDigits 10 n) = some { first := r.1, last := r.2, step := n } := by
  rw [parseItem, splitOn_pair hs (not_mem_toDigits (by decide))]
  simp [hr]

@[simp] theorem parseField_star : parseField d ['*'] = some .any := if_pos rfl

/-- Items with commas between them. -/
theorem parseField_items {tokens : List (List Char)} {l : List Item} (hne : tokens ≠ [])
    (hcomma : ∀ t ∈ tokens, ',' ∉ t) (hstar : ['*'] ∉ tokens) (hl : tokens.mapM (parseItem d) = some l) :
    parseField d ([','].intercalate tokens) = some (.items l) := by
  have hsplit := List.splitOn_intercalate ',' hcomma hne
  have hne' : [','].intercalate tokens ≠ ['*'] := by
    intro h
    rw [h, splitOn_single (by decide)] at hsplit
    exact hstar (hsplit ▸ List.mem_singleton_self _)
  rw [parseField, if_neg hne', hsplit, hl]
  rfl

/-- One item is a field. -/
theorem parseField_item {token : List Char} {i : Item} (hcomma : ',' ∉ token) (hstar : token ≠ ['*'])
    (hi : parseItem d token = some i) : parseField d token = some (.items [i]) := by
  have h := @parseField_items d [token] [i] (by simp) (by simpa using hcomma) (by simpa using hstar.symm)
    (by simp [hi])
  rwa [List.intercalate_singleton] at h

theorem parse_five {s : String} {minute hour dayOfMonth month dayOfWeek : List Char} {e : Expr}
    (hs : s.toList = [' '].intercalate [minute, hour, dayOfMonth, month, dayOfWeek])
    (hblank : ∀ t ∈ [minute, hour, dayOfMonth, month, dayOfWeek], ' ' ∉ t)
    (hsecond : e.second = .items [⟨0, 0, 1⟩])
    (hminute : parseField minutes minute = some e.minute) (hhour : parseField hours hour = some e.hour)
    (hdayOfMonth : parseField daysOfMonth dayOfMonth = some e.dayOfMonth)
    (hmonth : parseField months month = some e.month)
    (hdayOfWeek : parseField daysOfWeek dayOfWeek = some e.dayOfWeek) : parse s = some e := by
  rw [parse, hs, List.splitOn_intercalate ' ' hblank (by simp)]
  simp only [hminute, hhour, hdayOfMonth, hmonth, hdayOfWeek, ← hsecond, Option.bind_eq_bind, Option.bind_some]
  rfl

theorem parse_six {s : String} {second minute hour dayOfMonth month dayOfWeek : List Char} {e : Expr}
    (hs : s.toList = [' '].intercalate [second, minute, hour, dayOfMonth, month, dayOfWeek])
    (hblank : ∀ t ∈ [second, minute, hour, dayOfMonth, month, dayOfWeek], ' ' ∉ t)
    (hsecond : parseField seconds second = some e.second)
    (hminute : parseField minutes minute = some e.minute) (hhour : parseField hours hour = some e.hour)
    (hdayOfMonth : parseField daysOfMonth dayOfMonth = some e.dayOfMonth)
    (hmonth : parseField months month = some e.month)
    (hdayOfWeek : parseField daysOfWeek dayOfWeek = some e.dayOfWeek) : parse s = some e := by
  rw [parse, hs, List.splitOn_intercalate ' ' hblank (by simp)]
  simp only [hsecond, hminute, hhour, hdayOfMonth, hmonth, hdayOfWeek, Option.bind_eq_bind, Option.bind_some]
  rfl

end Cron
