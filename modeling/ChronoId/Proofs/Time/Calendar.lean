/-
# Days and dates

A year is as long as its months, so the number of a day tells its date: the
year estimated from the mean length of a year is wrong by one at most, and
what is left of the day's number falls into one of the months. The date of a
day is in the calendar and has the number of that day. Days and dates go on
alike: what follows on a date is the next day of its month, or the first of
the next month, or the first day of the next year.

Key definitions: `Date.next`.
Key theorems: `Date.daysBeforeYear_succ`, `Date.yearOfDay_bounds`,
`Date.splitMonths_spec`, `Date.dayNumber_ofDayNumber`, `Date.isValid_ofDayNumber`,
`Date.IsValid.bounds`, `Date.IsValid.ofDayNumber_dayNumber`,
`Date.IsValid.dayNumber_next`, `Date.IsValid.iterate_next`.
-/
import ChronoId.Time.Calendar
import Mathlib.Algebra.BigOperators.Group.List.Basic
import Mathlib.Algebra.Order.Group.Nat
import Mathlib.Data.List.GetD
import Mathlib.Order.Monotone.Basic
import Mathlib.Tactic.NormNum

namespace ChronoId
namespace Date

/-! ### Years -/

theorem isLeap_iff (year : Nat) :
    isLeap year = true ↔ year % 4 = 0 ∧ (year % 100 ≠ 0 ∨ year % 400 = 0) := by
  simp [isLeap]

theorem sum_monthLengths (leap : Bool) :
    (monthLengths leap).sum = 365 + if leap then 1 else 0 := by
  cases leap <;> rfl

/-- A year is as long as its months. -/
theorem daysBeforeYear_succ {year : Nat} (h : 1 ≤ year) :
    daysBeforeYear (year + 1) = daysBeforeYear year + (monthLengths (isLeap year)).sum := by
  obtain ⟨p, rfl⟩ : ∃ p, year = p + 1 := ⟨year - 1, by omega⟩
  have hfour : (p + 1) / 4 = p / 4 + if 4 ∣ p + 1 then 1 else 0 := Nat.succ_div
  have hcentury : (p + 1) / 100 = p / 100 + if 100 ∣ p + 1 then 1 else 0 := Nat.succ_div
  have hcycle : (p + 1) / 400 = p / 400 + if 400 ∣ p + 1 then 1 else 0 := Nat.succ_div
  have hle : p / 100 ≤ p / 4 := Nat.div_le_div_left (by norm_num) (by norm_num)
  have hleap : isLeap (p + 1) = true ↔ 4 ∣ p + 1 ∧ (¬ 100 ∣ p + 1 ∨ 400 ∣ p + 1) := by
    rw [isLeap_iff, Nat.dvd_iff_mod_eq_zero, Nat.dvd_iff_mod_eq_zero, Nat.dvd_iff_mod_eq_zero]
  rw [sum_monthLengths, daysBeforeYear, daysBeforeYear, Nat.add_sub_cancel, Nat.add_sub_cancel,
    hfour, hcentury, hcycle, if_congr hleap rfl rfl]
  by_cases h4 : 4 ∣ p + 1
  · by_cases h100 : 100 ∣ p + 1
    · by_cases h400 : 400 ∣ p + 1
      · simp only [h4, h100, h400, if_true, or_true, and_true]
        omega
      · simp only [h4, h100, h400, if_true, if_false, not_true, or_false, and_false]
        omega
    · have h400 : ¬ 400 ∣ p + 1 := fun h => h100 (Dvd.dvd.trans (by decide) h)
      simp only [h4, h100, h400, if_true, if_false, not_false_eq_true, true_or, and_true]
      omega
  · have h100 : ¬ 100 ∣ p + 1 := fun h => h4 (Dvd.dvd.trans (by decide) h)
    have h400 : ¬ 400 ∣ p + 1 := fun h => h4 (Dvd.dvd.trans (by decide) h)
    simp only [h4, h100, h400, if_false, false_and]
    omega

theorem daysBeforeYear_mono : Monotone daysBeforeYear := by
  refine monotone_nat_of_le_succ fun year => ?_
  rcases Nat.eq_zero_or_pos year with rfl | h
  · decide
  · rw [daysBeforeYear_succ h]
    exact Nat.le_add_right _ _

/-- The estimated year is corrected to the one that holds the day. -/
theorem yearOfDay_bounds (n : Nat) : 1 ≤ yearOfDay n ∧
    daysBeforeYear (yearOfDay n) ≤ n ∧ n < daysBeforeYear (yearOfDay n + 1) := by
  unfold yearOfDay
  simp only
  split
  · next h =>
    unfold daysBeforeYear at h ⊢
    omega
  split
  · next h h' =>
    unfold daysBeforeYear at h h' ⊢
    omega
  · next h h' =>
    unfold daysBeforeYear at h h' ⊢
    omega

/-- No other year holds the day. -/
theorem yearOfDay_eq {year n : Nat} (hle : daysBeforeYear year ≤ n)
    (hlt : n < daysBeforeYear (year + 1)) : yearOfDay n = year := by
  obtain ⟨-, hle', hlt'⟩ := yearOfDay_bounds n
  have hnot {a b : Nat} (ha : n < daysBeforeYear (a + 1)) (hb : daysBeforeYear b ≤ n) : b ≤ a := by
    by_contra hlater
    have := daysBeforeYear_mono (by omega : a + 1 ≤ b)
    omega
  exact le_antisymm (hnot hlt hle') (hnot hlt' hle)

/-! ### Months -/

theorem length_monthLengths (leap : Bool) : (monthLengths leap).length = 12 := rfl

theorem monthLengths_le : ∀ leap, ∀ len ∈ monthLengths leap, len ≤ 31 := by decide

/-- A day of some months falls into one of them. -/
theorem splitMonths_spec {lens : List Nat} {n : Nat} (h : n < lens.sum) :
    (splitMonths lens n).2 < lens.getD (splitMonths lens n).1 0 ∧
      (lens.take (splitMonths lens n).1).sum + (splitMonths lens n).2 = n := by
  induction lens generalizing n with
  | nil => cases h
  | cons len rest ih =>
    rw [splitMonths]
    split
    · next hn => exact ⟨hn, Nat.zero_add n⟩
    · next hn =>
      rw [List.sum_cons] at h
      obtain ⟨hlt, hsum⟩ := ih (n := n - len) (by omega)
      refine ⟨hlt, ?_⟩
      simp only [List.take_succ_cons, List.sum_cons]
      omega

/-- Some of the months and a day of the next one are split there again. -/
theorem splitMonths_eq {lens : List Nat} {months left : Nat} (h : left < lens.getD months 0) :
    splitMonths lens ((lens.take months).sum + left) = (months, left) := by
  induction lens generalizing months with
  | nil => simp at h
  | cons len rest ih =>
    rw [splitMonths]
    cases months with
    | zero => simpa using h
    | succ months =>
      have hlen : left < rest.getD months 0 := by simpa using h
      have hrest := ih hlen
      rw [List.take_succ_cons, List.sum_cons, if_neg (by omega), add_assoc,
        Nat.add_sub_cancel_left, hrest]

/-- The months up to one of them are those before it, and it. -/
theorem sum_take_succ (lens : List Nat) (months : Nat) :
    (lens.take (months + 1)).sum = (lens.take months).sum + lens.getD months 0 := by
  rw [List.take_add_one, List.sum_append, List.getD_eq_getElem?_getD]
  cases lens[months]? <;> simp

theorem sum_take_le (lens : List Nat) (months : Nat) : (lens.take months).sum ≤ lens.sum := by
  rw [← List.sum_take_add_sum_drop lens months]
  exact Nat.le_add_right _ _

theorem daysBeforeMonth_eq_sum (leap : Bool) (month : Nat) :
    daysBeforeMonth leap month = ((monthLengths leap).take (month - 1)).sum := by
  rw [daysBeforeMonth, List.sum_eq_foldl]

/-! ### Dates -/

section Days

variable (n : Nat)

theorem left_lt : n - daysBeforeYear (yearOfDay n) < (monthLengths (isLeap (yearOfDay n))).sum := by
  obtain ⟨hyear, hle, hlt⟩ := yearOfDay_bounds n
  rw [daysBeforeYear_succ hyear] at hlt
  omega

/-- The date of a day has its number. -/
theorem dayNumber_ofDayNumber : (ofDayNumber n).dayNumber = n := by
  obtain ⟨-, hle, -⟩ := yearOfDay_bounds n
  obtain ⟨-, hsum⟩ := splitMonths_spec (left_lt n)
  simp only [ofDayNumber, dayNumber, daysBeforeMonth_eq_sum, Nat.add_sub_cancel]
  omega

/-- The calendar has a date for each day before its end. -/
theorem isValid_ofDayNumber (h : n < 3652059) : (ofDayNumber n).IsValid := by
  obtain ⟨hyear, hle, -⟩ := yearOfDay_bounds n
  obtain ⟨hlt, -⟩ := splitMonths_spec (left_lt n)
  refine ⟨hyear, ?_, Nat.le_add_left 1 _, Nat.le_add_left 1 _, hlt⟩
  by_contra hlate
  have hend : daysBeforeYear 10000 ≤ daysBeforeYear (yearOfDay n) :=
    daysBeforeYear_mono (Nat.lt_of_not_le hlate)
  have hdays : daysBeforeYear 10000 = 3652059 := by decide
  omega

end Days

/-- Twelve months have days. -/
theorem daysInMonth_pos_iff {year month : Nat} : 0 < daysInMonth year month ↔ month ≤ 12 := by
  constructor
  · intro h
    by_contra hlate
    have hnone : daysInMonth year month = 0 :=
      List.getD_eq_default _ _ (by rw [length_monthLengths]; omega)
    omega
  · intro h
    have hpos : ∀ leap, ∀ len ∈ monthLengths leap, 0 < len := by decide
    rw [daysInMonth, List.getD_eq_getElem _ _ (by rw [length_monthLengths]; omega)]
    exact hpos _ _ (List.getElem_mem _)

theorem IsValid.month_le {d : Date} (h : d.IsValid) : d.month ≤ 12 := by
  obtain ⟨-, -, -, hday, hle⟩ := h
  exact daysInMonth_pos_iff.mp (hday.trans hle)

/-- The fields of a date have room for its numbers. -/
theorem IsValid.bounds {d : Date} (h : d.IsValid) :
    d.year < 10 ^ 4 ∧ d.month < 10 ^ 2 ∧ d.day < 10 ^ 2 := by
  have hmonth := h.month_le
  obtain ⟨-, hyear, -, hday, hle⟩ := h
  have hlength : daysInMonth d.year d.month ≤ 31 := by
    rw [daysInMonth, List.getD_eq_getElem _ _ (by rw [length_monthLengths]; omega)]
    exact monthLengths_le _ _ (List.getElem_mem _)
  have hmax : maxYear = 9999 := rfl
  refine ⟨?_, ?_, ?_⟩ <;> omega

/-! ### One date after the other -/

/-- A date lies in its year. -/
theorem IsValid.dayNumber_bounds {d : Date} (h : d.IsValid) :
    daysBeforeYear d.year ≤ d.dayNumber ∧ d.dayNumber < daysBeforeYear (d.year + 1) := by
  obtain ⟨hyear, -, hmonth, hday, hle⟩ := h
  have hmonths := sum_take_le (monthLengths (isLeap d.year)) (d.month - 1 + 1)
  rw [sum_take_succ] at hmonths
  rw [daysInMonth] at hle
  rw [dayNumber, daysBeforeMonth_eq_sum, daysBeforeYear_succ hyear]
  omega

theorem IsValid.dayNumber_lt {d : Date} (h : d.IsValid) : d.dayNumber < daysBeforeYear 10000 :=
  h.dayNumber_bounds.2.trans_le (daysBeforeYear_mono (Nat.succ_le_succ h.2.1))

/-- A date is that of the day with its number. -/
theorem IsValid.ofDayNumber_dayNumber {d : Date} (h : d.IsValid) : ofDayNumber d.dayNumber = d := by
  have hbounds := h.dayNumber_bounds
  have hyear : yearOfDay d.dayNumber = d.year := yearOfDay_eq hbounds.1 hbounds.2
  obtain ⟨-, -, hmonth, hday, hle⟩ := h
  have hleft : d.dayNumber - daysBeforeYear d.year =
      ((monthLengths (isLeap d.year)).take (d.month - 1)).sum + (d.day - 1) := by
    rw [dayNumber, daysBeforeMonth_eq_sum, add_assoc, Nat.add_sub_cancel_left]
  have hlast : d.day - 1 < (monthLengths (isLeap d.year)).getD (d.month - 1) 0 := by
    rw [← daysInMonth]
    omega
  have hsplit := splitMonths_eq hlast
  simp only [ofDayNumber, hyear, hleft, hsplit, Nat.sub_add_cancel hmonth, Nat.sub_add_cancel hday]

/-- The date of the next day. -/
def next (d : Date) : Date :=
  if d.day < daysInMonth d.year d.month then ⟨d.year, d.month, d.day + 1⟩
  else if d.month < 12 then ⟨d.year, d.month + 1, 1⟩
  else ⟨d.year + 1, 1, 1⟩

theorem IsValid.dayNumber_next {d : Date} (h : d.IsValid) : d.next.dayNumber = d.dayNumber + 1 := by
  have hlast := h.month_le
  obtain ⟨hyear, -, hmonth, hday, hle⟩ := h
  have hmonths := sum_take_succ (monthLengths (isLeap d.year)) (d.month - 1)
  rw [← daysInMonth, Nat.sub_add_cancel hmonth] at hmonths
  unfold next
  by_cases hsame : d.day < daysInMonth d.year d.month
  · rw [if_pos hsame]
    simp only [dayNumber]
    omega
  rw [if_neg hsame]
  by_cases hless : d.month < 12
  · rw [if_pos hless]
    simp only [dayNumber, daysBeforeMonth_eq_sum, Nat.add_sub_cancel]
    omega
  · have hall : (monthLengths (isLeap d.year)).take d.month = monthLengths (isLeap d.year) :=
      List.take_of_length_le (by rw [length_monthLengths]; omega)
    rw [hall] at hmonths
    rw [if_neg hless]
    simp only [dayNumber, daysBeforeMonth_eq_sum, daysBeforeYear_succ hyear, Nat.sub_self,
      List.take_zero, List.sum_nil]
    omega

/-- Only the last date of the calendar has none after it. -/
theorem IsValid.next {d : Date} (h : d.IsValid) (hmore : d.dayNumber + 1 < daysBeforeYear 10000) :
    d.next.IsValid := by
  have hnumber := h.dayNumber_next
  obtain ⟨hyear, hmax, hmonth, hday, hle⟩ := h
  unfold Date.next at hnumber ⊢
  by_cases hsame : d.day < daysInMonth d.year d.month
  · rw [if_pos hsame]
    exact ⟨hyear, hmax, hmonth, Nat.le_add_left 1 _, hsame⟩
  rw [if_neg hsame] at hnumber ⊢
  by_cases hless : d.month < 12
  · rw [if_pos hless]
    exact ⟨hyear, hmax, Nat.le_add_left 1 _, le_rfl, daysInMonth_pos_iff.mpr hless⟩
  · rw [if_neg hless] at hnumber ⊢
    refine ⟨Nat.le_add_left 1 _, ?_, le_rfl, le_rfl, daysInMonth_pos_iff.mpr (by norm_num)⟩
    -- a year behind the last one starts where the calendar ends
    by_contra hlate
    have hend : daysBeforeYear 10000 ≤ daysBeforeYear (d.year + 1) :=
      daysBeforeYear_mono (Nat.lt_of_not_le hlate)
    have hfirst : daysBeforeYear (d.year + 1) ≤ dayNumber ⟨d.year + 1, 1, 1⟩ :=
      (Nat.le_add_right _ _).trans (Nat.le_add_right _ _)
    omega

/-- The date of a day is as many dates after the first one. -/
theorem iterate_next {n : Nat} (h : n < daysBeforeYear 10000) : next^[n] ⟨1, 1, 1⟩ = ofDayNumber n := by
  induction n with
  | zero => rfl
  | succ n ih =>
    have hvalid := isValid_ofDayNumber n (Nat.lt_of_succ_lt h)
    have hnumber := hvalid.dayNumber_next
    rw [dayNumber_ofDayNumber] at hnumber
    have hnext := hvalid.next (by rwa [dayNumber_ofDayNumber])
    rw [Function.iterate_succ_apply', ih (Nat.lt_of_succ_lt h), ← hnext.ofDayNumber_dayNumber, hnumber]

/-- The number of a date counts the dates before it. -/
theorem IsValid.iterate_next {d : Date} (h : d.IsValid) : Date.next^[d.dayNumber] ⟨1, 1, 1⟩ = d := by
  rw [Date.iterate_next h.dayNumber_lt, h.ofDayNumber_dayNumber]

end Date
end ChronoId
