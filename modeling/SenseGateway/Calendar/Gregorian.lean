import Mathlib.Tactic.IntervalCases
import SenseGateway.Numerals.Lexicographic

namespace SenseGateway.Calendar

open Numerals

def isLeap (year : ℕ) : Bool := year % 4 = 0 ∧ (year % 100 ≠ 0 ∨ year % 400 = 0)

def daysInYear (year : ℕ) : ℕ := if isLeap year then 366 else 365

def daysInMonth (year month : ℕ) : ℕ :=
  match month with
  | 2 => if isLeap year then 29 else 28
  | 4 | 6 | 9 | 11 => 30
  | 1 | 3 | 5 | 7 | 8 | 10 | 12 => 31
  | _ => 0

/-- Days from the first of January of the year 1 to that of `year`. -/
def daysBeforeYear (year : ℕ) : ℕ :=
  (year - 1) * 365 + (year - 1) / 4 - (year - 1) / 100 + (year - 1) / 400

def daysBeforeMonth (year : ℕ) : ℕ → ℕ
  | 0 => 0
  | month + 1 => daysBeforeMonth year month + daysInMonth year month

/-- A date of the proleptic Gregorian calendar, in the years 1 to 9999. -/
structure Date where
  year : ℕ
  month : ℕ
  day : ℕ
  year_mem : 1 ≤ year ∧ year ≤ 9999
  month_mem : 1 ≤ month ∧ month ≤ 12
  day_mem : 1 ≤ day ∧ day ≤ daysInMonth year month
  deriving DecidableEq, Repr

theorem daysInYear_eq (year : ℕ) :
    daysInYear year = if year % 4 = 0 ∧ (year % 100 ≠ 0 ∨ year % 400 = 0) then 366 else 365 := by
  simp [daysInYear, isLeap]

/-- A quotient grows with the multiples of the divisor. -/
theorem succ_div_eq (n k : ℕ) : (n + 1) / k = n / k + if (n + 1) % k = 0 then 1 else 0 := by
  rw [Nat.succ_div]
  simp only [Nat.dvd_iff_mod_eq_zero]

theorem daysBeforeYear_succ {year : ℕ} (h : 1 ≤ year) :
    daysBeforeYear (year + 1) = daysBeforeYear year + daysInYear year := by
  obtain ⟨n, rfl⟩ := Nat.exists_eq_add_of_le' h
  have hcentury : (n + 1) % 100 = 0 → (n + 1) % 4 = 0 := by omega
  have hcycle : (n + 1) % 400 = 0 → (n + 1) % 100 = 0 := by omega
  have hle : n / 100 ≤ n / 4 := Nat.div_le_div_left (by decide) (by decide)
  rw [daysInYear_eq]
  simp only [daysBeforeYear, Nat.add_sub_cancel, succ_div_eq]
  generalize n / 4 = fourths at *
  generalize n / 100 = centuries at *
  generalize n / 400 = cycles at *
  split_ifs <;> omega

theorem monotone_daysBeforeYear : Monotone daysBeforeYear := by
  refine monotone_nat_of_le_succ fun year => ?_
  rcases Nat.eq_zero_or_pos year with rfl | hpos
  · decide
  · rw [daysBeforeYear_succ hpos]
    exact Nat.le_add_right _ _

theorem monotone_daysBeforeMonth (year : ℕ) : Monotone (daysBeforeMonth year) :=
  monotone_nat_of_le_succ fun _ => Nat.le_add_right _ _

/-- The twelve months make up the year. -/
theorem daysBeforeMonth_thirteen (year : ℕ) : daysBeforeMonth year 13 = daysInYear year := by
  simp only [daysBeforeMonth, daysInMonth, daysInYear]
  split <;> rfl

namespace Date

/-- Days since the first of January of the year 1. -/
def days (d : Date) : ℕ :=
  daysBeforeYear d.year + (daysBeforeMonth d.year d.month + (d.day - 1))

def fields (d : Date) : List ℕ := [d.year, d.month, d.day]

theorem day_lt (d : Date) :
    daysBeforeMonth d.year d.month + (d.day - 1) < daysBeforeMonth d.year (d.month + 1) := by
  have hday := d.day_mem
  simp only [daysBeforeMonth]
  omega

theorem dayOfYear_lt (d : Date) :
    daysBeforeMonth d.year d.month + (d.day - 1) < daysInYear d.year := by
  have hmonth := monotone_daysBeforeMonth d.year (Nat.succ_le_succ d.month_mem.2)
  rw [daysBeforeMonth_thirteen] at hmonth
  exact d.day_lt.trans_le hmonth

theorem days_lt (d : Date) : d.days < daysBeforeYear (d.year + 1) := by
  have hday := d.dayOfYear_lt
  rw [daysBeforeYear_succ d.year_mem.1]
  unfold days
  omega

/-- Dates follow each other as their fields compare. -/
theorem days_lt_iff (d e : Date) : d.days < e.days ↔ d.fields < e.fields := by
  have hday := d.day_mem
  have hday' := e.day_mem
  unfold days
  rw [start_add_lt_iff monotone_daysBeforeYear d.days_lt e.days_lt]
  simp only [fields, List.cons_lt_cons_iff, List.lt_irrefl, and_false, or_false]
  refine or_congr Iff.rfl (and_congr_right fun hyear => ?_)
  have hlt := e.day_lt
  rw [← hyear] at hlt ⊢
  rw [start_add_lt_iff (monotone_daysBeforeMonth d.year) d.day_lt hlt]
  omega

theorem days_sameOrder (d e : Date) : SameOrder d.days e.days d.fields e.fields :=
  .of_lt (days_lt_iff d e) (days_lt_iff e d)

theorem daysInMonth_pos {year month : ℕ} (h : 1 ≤ month) (h' : month ≤ 12) :
    1 ≤ daysInMonth year month := by
  interval_cases month <;> simp only [daysInMonth] <;> first | decide | (split <;> decide)

/-- The day before, if the calendar has one. -/
def previous (d : Date) : Option Date :=
  if hday : 1 < d.day then
    some ⟨d.year, d.month, d.day - 1, d.year_mem, d.month_mem, by
      have hmem := d.day_mem
      omega⟩
  else if hmonth : 1 < d.month then
    some ⟨d.year, d.month - 1, daysInMonth d.year (d.month - 1), d.year_mem, by
      have hmem := d.month_mem
      omega, by
      have hmem := d.month_mem
      exact ⟨daysInMonth_pos (by omega) (by omega), le_rfl⟩⟩
  else if hyear : 1 < d.year then
    some ⟨d.year - 1, 12, 31, by
      have hmem := d.year_mem
      omega, by decide, ⟨by decide, le_rfl⟩⟩
  else none

theorem days_previous {d p : Date} (h : d.previous = some p) : d.days = p.days + 1 := by
  have hday := d.day_mem
  have hmonth := d.month_mem
  unfold previous at h
  split at h
  · obtain rfl := Option.some.inj h
    simp only [days]
    omega
  split at h
  · obtain rfl := Option.some.inj h
    obtain ⟨m, hm⟩ : ∃ m, d.month = m + 1 := ⟨d.month - 1, by omega⟩
    have hpos : 1 ≤ daysInMonth d.year m := daysInMonth_pos (by omega) (by omega)
    simp only [days, hm, Nat.add_sub_cancel, daysBeforeMonth]
    omega
  split at h
  · obtain rfl := Option.some.inj h
    obtain ⟨y, hy⟩ : ∃ y, d.year = y + 1 := ⟨d.year - 1, by omega⟩
    have hfirst : d.month = 1 := by omega
    have hwhole := daysBeforeMonth_thirteen y
    have hdecember : daysInMonth y 12 = 31 := rfl
    rw [daysBeforeMonth, hdecember] at hwhole
    simp only [days, hy, hfirst, Nat.add_sub_cancel, daysBeforeYear_succ (show 1 ≤ y by omega)]
    have hnone : daysBeforeMonth (y + 1) 1 = 0 := rfl
    omega
  · cases h

/-- Only the first of January of the year 1 has no day before it. -/
theorem days_of_previous_none {d : Date} (h : d.previous = none) : d.days = 0 := by
  have hday := d.day_mem
  have hmonth := d.month_mem
  have hyear := d.year_mem
  unfold previous at h
  split at h
  · cases h
  split at h
  · cases h
  split at h
  · cases h
  · have hyear : d.year = 1 := by omega
    have hmonth : d.month = 1 := by omega
    have hday : d.day = 1 := by omega
    simp only [days, hyear, hmonth, hday]
    rfl

/-- The date some days earlier. -/
def minusDays : ℕ → Date → Option Date
  | 0, d => some d
  | n + 1, d => d.previous >>= minusDays n

theorem days_minusDays {n : ℕ} {d p : Date} (h : d.minusDays n = some p) :
    d.days = p.days + n := by
  induction n generalizing d with
  | zero =>
    obtain rfl := Option.some.inj h
    rfl
  | succ n ih =>
    obtain ⟨q, hq, h⟩ := Option.bind_eq_some_iff.mp h
    rw [days_previous hq, ih h]
    omega

theorem days_of_minusDays_none {n : ℕ} {d : Date} (h : d.minusDays n = none) : d.days < n := by
  induction n generalizing d with
  | zero => cases h
  | succ n ih =>
    cases hq : d.previous with
    | none =>
      rw [days_of_previous_none hq]
      omega
    | some q =>
      have hrest : q.minusDays n = none := by
        simpa [minusDays, hq] using h
      have hlt := ih hrest
      rw [days_previous hq]
      omega

end Date

/-- A point in time in UTC, to the microsecond. -/
structure DateTime where
  date : Date
  hour : ℕ
  minute : ℕ
  second : ℕ
  microsecond : ℕ
  hour_lt : hour < 24
  minute_lt : minute < 60
  second_lt : second < 60
  microsecond_lt : microsecond < 1000000
  deriving DecidableEq, Repr

/-- The microseconds of a day. -/
def dayLength : ℕ := 24 * 60 * 60 * 1000000

namespace DateTime

/-- Microseconds since the beginning of the year 1. -/
def instant (t : DateTime) : ℕ :=
  (((t.date.days * 24 + t.hour) * 60 + t.minute) * 60 + t.second) * 1000000 + t.microsecond

def fields (t : DateTime) : List ℕ :=
  t.date.fields ++ [t.hour] ++ [t.minute] ++ [t.second] ++ [t.microsecond]

theorem instant_sameOrder (t u : DateTime) :
    SameOrder t.instant u.instant t.fields u.fields :=
  ((((Date.days_sameOrder t.date u.date).digit rfl t.hour_lt u.hour_lt).digit rfl
    t.minute_lt u.minute_lt).digit rfl t.second_lt u.second_lt).digit rfl
      t.microsecond_lt u.microsecond_lt

/-- The same time of day some days earlier. -/
def minusDays (n : ℕ) (t : DateTime) : Option DateTime :=
  (t.date.minusDays n).map fun date => { t with date := date }

theorem instant_minusDays {n : ℕ} {t u : DateTime} (h : t.minusDays n = some u) :
    t.instant = u.instant + n * dayLength := by
  obtain ⟨date, hdate, rfl⟩ := Option.map_eq_some_iff.mp h
  simp only [instant, Date.days_minusDays hdate, dayLength]
  ring

theorem instant_lt_of_days {t : DateTime} {n : ℕ} (h : t.date.days < n) :
    t.instant < n * dayLength := by
  have hhour := t.hour_lt
  have hminute := t.minute_lt
  have hsecond := t.second_lt
  have hmicrosecond := t.microsecond_lt
  unfold instant dayLength
  omega

/-- The time some days earlier is before the beginning of the calendar. -/
theorem instant_of_minusDays_none {n : ℕ} {t : DateTime} (h : t.minusDays n = none) :
    t.instant < n * dayLength :=
  instant_lt_of_days (Date.days_of_minusDays_none (Option.map_eq_none_iff.mp h))

end DateTime

end SenseGateway.Calendar
