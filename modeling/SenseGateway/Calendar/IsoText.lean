import Mathlib.Data.String.Basic
import SenseGateway.Calendar.Gregorian

namespace SenseGateway.Calendar

open Numerals

/-- A number in base 10, padded with zeros to `width`. -/
def numeral (width n : ℕ) : List Char := (digits 10 width n).map Nat.digitChar

/-- The microseconds of a second, left out where there are none. -/
def fraction (microsecond : ℕ) : List Char :=
  if microsecond = 0 then [] else '.' :: numeral 6 microsecond

/-- The offset of UTC. -/
def zone : List Char := ['+', '0', '0', ':', '0', '0']

/-- `t.isoformat()` -/
def DateTime.isoformat (t : DateTime) : String :=
  String.ofList (numeral 4 t.date.year ++ '-' :: numeral 2 t.date.month ++
    '-' :: numeral 2 t.date.day ++ 'T' :: numeral 2 t.hour ++ ':' :: numeral 2 t.minute ++
    ':' :: numeral 2 t.second ++ (fraction t.microsecond ++ zone))

def sampleTime (microsecond : ℕ) (h : microsecond < 1000000) : DateTime :=
  ⟨⟨2026, 8, 5, by decide, by decide, by decide⟩, 9, 0, 7, microsecond, by decide, by decide,
    by decide, h⟩

example : (sampleTime 0 (by decide)).isoformat = "2026-08-05T09:00:07+00:00" := by decide
example : (sampleTime 250 (by decide)).isoformat = "2026-08-05T09:00:07.000250+00:00" := by decide

theorem length_numeral (width n : ℕ) : (numeral width n).length = width := by simp [numeral]

theorem digitChar_lt {m n : ℕ} (hm : m < 10) (hn : n < 10) :
    Nat.digitChar m < Nat.digitChar n ↔ m < n := by
  interval_cases m <;> interval_cases n <;> decide

theorem digitChar_eq {m n : ℕ} (hm : m < 10) (hn : n < 10) :
    Nat.digitChar m = Nat.digitChar n ↔ m = n := by
  interval_cases m <;> interval_cases n <;> decide

theorem numeral_lt_iff {width m n : ℕ} (hm : m < 10 ^ width) (hn : n < 10 ^ width) :
    numeral width m < numeral width n ↔ [m] < [n] := by
  have hdigit : ∀ {k d : ℕ}, d ∈ digits 10 width k → d < 10 := fun hd =>
    lt_of_mem_digits (by decide) hd
  rw [numeral, numeral, map_lt_map_iff (fun a ha b hb => digitChar_lt (hdigit ha) (hdigit hb))
    fun a ha b hb => digitChar_eq (hdigit ha) (hdigit hb), digits_lt_iff hm hn]
  simp only [List.cons_lt_cons_iff, List.lt_irrefl, and_false, or_false]

theorem numeral_sameOrder {width m n : ℕ} (hm : m < 10 ^ width) (hn : n < 10 ^ width) :
    SameOrder (numeral width m) (numeral width n) [m] [n] :=
  .of_lt (numeral_lt_iff hm hn) (numeral_lt_iff hn hm)

theorem cons_sameOrder {r r' : List Char} {l l' : List ℕ} (c : Char) (h : SameOrder r r' l l') :
    SameOrder (c :: r) (c :: r') l l' where
  lt := by
    rw [← h.lt]
    simp
  eq := by
    rw [← h.eq]
    simp

theorem zone_sameOrder : SameOrder zone zone ([] : List ℕ) [] where
  lt := by simp
  eq := by simp

/-- The end of the text: no fraction sorts before every fraction, for `+` sorts before the point. -/
theorem fraction_lt_iff {m n : ℕ} (hm : m < 1000000) (hn : n < 1000000) :
    fraction m ++ zone < fraction n ++ zone ↔ [m] < [n] := by
  unfold fraction
  by_cases hm0 : m = 0
  · by_cases hn0 : n = 0
    · simp [hm0, hn0]
    · have hpoint : ('+' : Char) < '.' := by decide
      have hpos : 0 < n := Nat.pos_of_ne_zero hn0
      simp [hm0, hn0, zone, List.cons_lt_cons_iff, hpoint, hpos]
  · by_cases hn0 : n = 0
    · have hpoint : ¬ ('.' : Char) < '+' := by decide
      simp [hm0, hn0, zone, List.cons_lt_cons_iff, hpoint]
    · have hdigits : SameOrder (numeral 6 m) (numeral 6 n) [m] [n] := numeral_sameOrder hm hn
      have hsame := hdigits.append zone_sameOrder (by simp [length_numeral]) rfl
      simp only [hm0, hn0, if_false, List.cons_append]
      exact (cons_sameOrder '.' hsame).lt

theorem fraction_sameOrder {m n : ℕ} (hm : m < 1000000) (hn : n < 1000000) :
    SameOrder (fraction m ++ zone) (fraction n ++ zone) [m] [n] :=
  .of_lt (fraction_lt_iff hm hn) (fraction_lt_iff hn hm)

theorem ofList_sameOrder (l l' : List Char) :
    SameOrder (String.ofList l) (String.ofList l') l l' where
  lt := by rw [String.lt_iff_toList_lt, String.toList_ofList, String.toList_ofList]
  eq := by
    constructor
    · intro h
      simpa using congrArg String.toList h
    · rintro rfl
      rfl

theorem Date.day_lt_hundred (d : Date) : d.day < 100 := by
  have hmonth : daysInMonth d.year d.month ≤ 31 := by
    unfold daysInMonth
    split <;> first | omega | (split <;> omega)
  exact d.day_mem.2.trans_lt (hmonth.trans_lt (by decide))

namespace DateTime

theorem isoformat_fields (t u : DateTime) :
    SameOrder t.isoformat u.isoformat t.fields u.fields := by
  have hyear : SameOrder (numeral 4 t.date.year) (numeral 4 u.date.year) [t.date.year]
      [u.date.year] :=
    numeral_sameOrder (Nat.lt_succ_of_le t.date.year_mem.2) (Nat.lt_succ_of_le u.date.year_mem.2)
  have hmonth := cons_sameOrder '-' (@numeral_sameOrder 2 t.date.month u.date.month
    (t.date.month_mem.2.trans_lt (by decide)) (u.date.month_mem.2.trans_lt (by decide)))
  have hday := cons_sameOrder '-' (@numeral_sameOrder 2 t.date.day u.date.day
    (t.date.day_lt_hundred) (u.date.day_lt_hundred))
  have hhour := cons_sameOrder 'T' (@numeral_sameOrder 2 t.hour u.hour
    (t.hour_lt.trans (by decide)) (u.hour_lt.trans (by decide)))
  have hminute := cons_sameOrder ':' (@numeral_sameOrder 2 t.minute u.minute
    (t.minute_lt.trans (by decide)) (u.minute_lt.trans (by decide)))
  have hsecond := cons_sameOrder ':' (@numeral_sameOrder 2 t.second u.second
    (t.second_lt.trans (by decide)) (u.second_lt.trans (by decide)))
  have hfraction := fraction_sameOrder t.microsecond_lt u.microsecond_lt
  refine (ofList_sameOrder _ _).trans ?_
  exact (((((hyear.append hmonth (by simp [length_numeral]) rfl).append hday
    (by simp [length_numeral]) rfl).append hhour (by simp [length_numeral]) rfl).append hminute
      (by simp [length_numeral]) rfl).append hsecond (by simp [length_numeral]) rfl).append
        hfraction (by simp [length_numeral]) rfl

/-- The texts of two points in time compare as the points in time do. -/
theorem isoformat_sameOrder (t u : DateTime) :
    SameOrder t.isoformat u.isoformat t.instant u.instant :=
  (isoformat_fields t u).trans (instant_sameOrder t u).symm

end DateTime

end SenseGateway.Calendar
