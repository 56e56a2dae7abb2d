import Capsule.Time.Calendar
import Mathlib.Algebra.BigOperators.Intervals
import Mathlib.Algebra.Order.BigOperators.Group.Finset
import Mathlib.Tactic.IntervalCases

/-!
# Days and dates

Here a date is what the Gregorian calendar says it is: years have 365 days or 366, months have their
lengths, and the day of a date is found by counting all years and months before it
(`Calendar.daysBefore`). `Date.toDay` and `Date.ofDay` are held against that count. They do not
count: they multiply and divide by the lengths of cycles, years and months, with years that begin in
March.

The two meet in three steps. That every day is the day of some date is a matter of the calendar
alone: the day behind a date is that of the next date. That the divisions undo the products is a
matter of their arithmetic alone, and needs no search. And the products are the count, because leap
days come at the end of years that begin in March.

## Scope

Days are counted from 1970 on; nothing is said of those before.

## Main definitions

* `Calendar.IsDate`: year, month and day are a date of the calendar
* `Calendar.daysBefore`: how many days there are from 1970 to a date

## Main results

* `Calendar.exists_isDate`: every day has a date
* `Date.toDay_eq_daysBefore`: the products are the count of days
* `Date.ofDay_daysBefore`: the divisions find the date of a day
-/

namespace Capsule

namespace Calendar

/-- A year with a leap day. -/
def IsLeap (year : ℕ) : Prop := 4 ∣ year ∧ (100 ∣ year → 400 ∣ year)

instance : DecidablePred IsLeap := fun _ => inferInstanceAs (Decidable (_ ∧ _))

def yearDays (year : ℕ) : ℕ := if IsLeap year then 366 else 365

def monthDays (year : ℕ) : ℕ → ℕ
  | 2 => if IsLeap year then 29 else 28
  | 4 | 6 | 9 | 11 => 30
  | _ => 31

/-- A date of the calendar from 1970 on. -/
def IsDate (year month day : ℕ) : Prop :=
  1970 ≤ year ∧ (1 ≤ month ∧ month ≤ 12) ∧ 1 ≤ day ∧ day ≤ monthDays year month

instance (year month day : ℕ) : Decidable (IsDate year month day) :=
  inferInstanceAs (Decidable (_ ∧ _))

/-- The days from the beginning of 1970 to a date: those of all years before, of all months of the
year before, and of the month before. -/
def daysBefore (year month day : ℕ) : ℕ :=
  ∑ y ∈ Finset.Ico 1970 year, yearDays y + ∑ m ∈ Finset.Ico 1 month, monthDays year m + (day - 1)

variable {year month day : ℕ}

/-! ### The calendar -/

theorem monthDays_bounds (year month : ℕ) :
    0 < monthDays year month ∧ monthDays year month ≤ 31 := by
  rw [monthDays.eq_def]
  repeat' split
  all_goals decide

/-- The months make up the year. -/
theorem sum_monthDays (year : ℕ) : ∑ m ∈ Finset.Ico 1 13, monthDays year m = yearDays year := by
  simp only [Finset.sum_Ico_succ_top, Nat.reduceLeDiff, monthDays, yearDays, Finset.Ico_self,
    Finset.sum_empty]
  split <;> rfl

/-- **Every day has a date.** The day behind a date is that of the date behind it: in the same
month, or on the first of the next one, or on the first of the next year. -/
theorem exists_isDate (n : ℕ) : ∃ year month day, IsDate year month day ∧
    daysBefore year month day = n := by
  induction n with
  | zero => exact ⟨1970, 1, 1, by decide, rfl⟩
  | succ n ih =>
    obtain ⟨year, month, day, ⟨hy, hm, hd⟩, rfl⟩ := ih
    by_cases hmonth : day < monthDays year month
    · refine ⟨year, month, day + 1, ⟨hy, hm, by omega⟩, ?_⟩
      rw [daysBefore, daysBefore]
      omega
    have hlast : day = monthDays year month := by omega
    by_cases hyear : month < 12
    · have hpos := (monthDays_bounds year (month + 1)).1
      refine ⟨year, month + 1, 1, ⟨hy, by omega, by omega⟩, ?_⟩
      rw [daysBefore, daysBefore, Finset.sum_Ico_succ_top hm.1]
      omega
    · obtain rfl : month = 12 := by omega
      have hpos := (monthDays_bounds (year + 1) 1).1
      refine ⟨year + 1, 1, 1, ⟨by omega, by omega, by omega⟩, ?_⟩
      rw [daysBefore, daysBefore, Finset.sum_Ico_succ_top hy, ← sum_monthDays,
        Finset.sum_Ico_succ_top (by norm_num)]
      simp only [Finset.Ico_self, Finset.sum_empty]
      omega

/-- A date is in its year. -/
theorem IsDate.rest_lt (h : IsDate year month day) :
    ∑ m ∈ Finset.Ico 1 month, monthDays year m + (day - 1) < yearDays year := by
  obtain ⟨-, hm, hd⟩ := h
  have hle : ∑ m ∈ Finset.Ico 1 (month + 1), monthDays year m ≤ yearDays year :=
    sum_monthDays year ▸ Finset.sum_le_sum_of_subset (Finset.Ico_subset_Ico_right (by omega))
  rw [Finset.sum_Ico_succ_top hm.1] at hle
  omega

/-- The dates from a year on are those from its first day on. -/
theorem IsDate.le_year_iff (h : IsDate year month day) (first : ℕ) :
    first ≤ year ↔ daysBefore first 1 1 ≤ daysBefore year month day := by
  have hrest := h.rest_lt
  have hmono {y y' : ℕ} (hle : y ≤ y') :
      ∑ k ∈ Finset.Ico 1970 y, yearDays k ≤ ∑ k ∈ Finset.Ico 1970 y', yearDays k :=
    Finset.sum_le_sum_of_subset (Finset.Ico_subset_Ico_right hle)
  rw [daysBefore, daysBefore, Finset.Ico_self, Finset.sum_empty]
  constructor
  · intro hle
    have := hmono hle
    omega
  · intro hle
    by_contra hlt
    have := hmono (Nat.lt_of_not_le hlt)
    rw [Finset.sum_Ico_succ_top h.1] at this
    omega

/-- Whether the years up to this one have one leap day more than those before it. -/
theorem leapDays_succ (year : ℕ) (h : 0 < year) :
    (year - 1) / 4 + year / 100 + (year - 1) / 400 + (if IsLeap year then 1 else 0) =
      year / 4 + (year - 1) / 100 + year / 400 := by
  split <;> rename_i hleap <;> rw [IsLeap] at hleap <;> omega

/-- The years before a year have a leap day every four years, but for the centuries that are no
multiple of four hundred. -/
theorem sum_yearDays (h : 1970 ≤ year) :
    ∑ y ∈ Finset.Ico 1970 year, yearDays y + 719527 + (year - 1) / 100 =
      365 * year + (year - 1) / 4 + (year - 1) / 400 := by
  induction year, h using Nat.le_induction with
  | base => rfl
  | succ year h ih =>
    have hdays : yearDays year = 365 + if IsLeap year then 1 else 0 := by
      rw [yearDays]
      split <;> rfl
    have hleap := leapDays_succ year (by omega)
    rw [Finset.sum_Ico_succ_top h, hdays, Nat.add_sub_cancel]
    omega

/-- From March on, months begin as in a year that begins in March; the two before have thirty-one
days and what is left. -/
theorem sum_monthDays_before (year : ℕ) (h : 1 ≤ month ∧ month ≤ 12) :
    ∑ m ∈ Finset.Ico 1 month, monthDays year m =
      if month ≤ 2 then 31 * (month - 1)
      else Date.monthStart (month - 3) + 59 + (if IsLeap year then 1 else 0) := by
  obtain ⟨hlow, hhigh⟩ := h
  by_cases hleap : IsLeap year <;> interval_cases month <;>
    simp [Finset.sum_Ico_succ_top, monthDays, Date.monthStart, hleap]

end Calendar

namespace Date

open Calendar

variable {year month day : ℕ}

/-! ### The divisions -/

/-- In a cycle of four hundred years, a day is in the year that it is counted from. The years have
365 days, and one more where the leap day at their end is one. -/
theorem yearOfCycle_yearStart_add {y rest : ℕ} (hy : y < 400)
    (hrest : rest < 365 ∨ rest = 365 ∧ IsLeap (y + 1)) :
    yearOfCycle (yearStart y + rest) = y := by
  by_cases hlast : y = 399 ∧ rest = 365
  · obtain ⟨rfl, rfl⟩ := hlast
    rfl
  have hrest : rest < 365 ∨ rest = 365 ∧ y % 4 = 3 ∧ y % 100 < 99 := by
    refine hrest.imp_right fun ⟨hrest, hfour, hcentury⟩ => ⟨hrest, ?_, ?_⟩ <;> omega
  -- On all days but the last, the formula's quotients are those of the year, or one more.
  have hfour : (yearStart y + rest) / 1460 = y / 4 ∨
      (yearStart y + rest) / 1460 = y / 4 + 1 := by
    rw [yearStart]
    omega
  have hcentury : (yearStart y + rest) / 36524 = y / 100 := by
    rw [yearStart]
    omega
  have hcycle : (yearStart y + rest) / 146096 = 0 := by
    rw [yearStart]
    omega
  rw [yearOfCycle, hcentury, hcycle]
  rcases hfour with h | h <;> rw [h, yearStart] <;> rw [yearStart] at h <;> omega

/-- A day of a year that begins in March is in the month that it is counted from. -/
theorem month_of_monthStart_add {m d : ℕ} (hd : monthStart m + d < monthStart (m + 1)) :
    (5 * (monthStart m + d) + 2) / 153 = m := by
  rw [monthStart, monthStart] at hd
  rw [monthStart]
  omega

/-- The date of a day that is counted in cycles, years and months. -/
theorem ofDay_count (c : ℤ) {y m d : ℕ} (hy : y < 400)
    (hmonth : monthStart m + d < monthStart (m + 1))
    (hyear : monthStart m + d < 365 ∨ monthStart m + d = 365 ∧ IsLeap (y + 1)) :
    ofDay (c * cycleDays + (yearStart y + (monthStart m + d) : ℕ) + origin) =
      { year := 400 * c + y + (if m < 10 then 0 else 1)
        month := if m < 10 then m + 3 else m - 9
        day := d + 1 } := by
  have hdays : yearStart y + (monthStart m + d) < cycleDays := by
    rw [yearStart, cycleDays]
    omega
  have hcycle : (c * cycleDays + (yearStart y + (monthStart m + d) : ℕ) + origin - origin) /
      cycleDays = c := by
    rw [cycleDays] at *
    omega
  have hday : (c * cycleDays + (yearStart y + (monthStart m + d) : ℕ) + origin - origin) %
      cycleDays = (yearStart y + (monthStart m + d) : ℕ) := by
    rw [cycleDays] at *
    omega
  have hrest : yearStart y + (monthStart m + d) - yearStart y = monthStart m + d :=
    Nat.add_sub_cancel_left ..
  simp only [ofDay, hcycle, hday, Int.toNat_natCast, yearOfCycle_yearStart_add hy hyear, hrest,
    month_of_monthStart_add hmonth, Nat.add_sub_cancel_left]

/-- From March on, the year is the one that began in March. -/
theorem toDay_of_lt (h : 2 < month) :
    toDay ⟨year, month, day⟩ = (year / 400 : ℕ) * cycleDays +
      (yearStart (year % 400) + (monthStart (month - 3) + (day - 1)) : ℕ) + origin := by
  have hyear : ((year : ℤ) % 400).toNat = year % 400 := by omega
  simp only [toDay, if_neg (Nat.not_le.mpr h), hyear, Nat.add_assoc]
  push_cast
  rfl

/-- In January and February, it is the one before. -/
theorem toDay_of_le (h : month ≤ 2) :
    toDay ⟨(year + 1 : ℕ), month, day⟩ = (year / 400 : ℕ) * cycleDays +
      (yearStart (year % 400) + (monthStart (month + 9) + (day - 1)) : ℕ) + origin := by
  have hbefore : ((year + 1 : ℕ) : ℤ) - 1 = year := by omega
  have hyear : ((year : ℤ) % 400).toNat = year % 400 := by omega
  simp only [toDay, if_pos h, hbefore, hyear, Nat.add_assoc]
  push_cast
  rfl

/-- Counted from March, a date is in its month, and in its year. -/
theorem monthStart_add_lt_of_lt (h : IsDate year month day) (hmarch : 2 < month) :
    monthStart (month - 3) + (day - 1) < monthStart (month - 3 + 1) ∧
      monthStart (month - 3) + (day - 1) < 365 := by
  obtain ⟨-, ⟨-, hhigh⟩, hd⟩ := h
  have hmonth : monthStart (month - 3) + (day - 1) < monthStart (month - 3 + 1) := by
    interval_cases month <;> simp only [monthDays] at hd <;> simp only [monthStart] <;> omega
  refine ⟨hmonth, hmonth.trans_le ?_⟩
  rw [monthStart]
  omega

/-- January and February are at the end of their year, which has its leap day there. -/
theorem monthStart_add_lt_of_le (h : IsDate (year + 1) month day) (hmarch : month ≤ 2) :
    monthStart (month + 9) + (day - 1) < monthStart (month + 9 + 1) ∧
      (monthStart (month + 9) + (day - 1) < 365 ∨
        monthStart (month + 9) + (day - 1) = 365 ∧ IsLeap (year % 400 + 1)) := by
  obtain ⟨-, ⟨hlow, -⟩, -, hd⟩ := h
  rw [monthStart, monthStart]
  obtain rfl | rfl : month = 1 ∨ month = 2 := by omega
  · have hlast : day ≤ 31 := hd
    omega
  · have hlast : day ≤ if IsLeap (year + 1) then 29 else 28 := hd
    split at hlast
    · rename_i hleap
      rw [IsLeap] at hleap ⊢
      omega
    · omega

/-- **The divisions undo the count in cycles.** -/
theorem ofDay_toDay (h : IsDate year month day) :
    ofDay (toDay ⟨year, month, day⟩) = ⟨year, month, day⟩ := by
  have hday : day - 1 + 1 = day := Nat.sub_add_cancel h.2.2.1
  have hcycle (y : ℕ) : (400 * (y / 400 : ℕ) + (y % 400 : ℕ) : ℤ) = y := by
    exact_mod_cast Nat.div_add_mod y 400
  by_cases hmarch : 2 < month
  · obtain ⟨hmonth, hyear⟩ := monthStart_add_lt_of_lt h hmarch
    have hten : month - 3 < 10 := by
      have := h.2.1.2
      omega
    rw [toDay_of_lt hmarch, ofDay_count _ (Nat.mod_lt year (by norm_num)) hmonth (.inl hyear),
      hday, hcycle, if_pos hten, if_pos hten, add_zero, Nat.sub_add_cancel hmarch]
  · rw [not_lt] at hmarch
    obtain ⟨before, rfl⟩ : ∃ before, year = before + 1 := ⟨year - 1, by have := h.1; omega⟩
    obtain ⟨hmonth, hyear⟩ := monthStart_add_lt_of_le h hmarch
    have hten : ¬ month + 9 < 10 := by
      have := h.2.1.1
      omega
    rw [toDay_of_le hmarch, ofDay_count _ (Nat.mod_lt before (by norm_num)) hmonth hyear, hday,
      hcycle, if_neg hten, if_neg hten, Nat.add_sub_cancel]
    push_cast
    rfl

/-- **The count in cycles is that of all days before.** -/
theorem toDay_eq_daysBefore (h : IsDate year month day) :
    toDay ⟨year, month, day⟩ = daysBefore year month day := by
  obtain ⟨hy, hm, hd⟩ := h
  have hyears := sum_yearDays hy
  rw [daysBefore, sum_monthDays_before year hm]
  by_cases hmarch : 2 < month
  · have hleap := leapDays_succ year (by omega)
    rw [toDay_of_lt hmarch, if_neg (Nat.not_le.mpr hmarch), yearStart, cycleDays, origin]
    omega
  · rw [not_lt] at hmarch
    obtain ⟨before, rfl⟩ : ∃ before, year = before + 1 := ⟨year - 1, by omega⟩
    rw [toDay_of_le hmarch, if_pos hmarch, yearStart, monthStart, cycleDays, origin]
    omega

/-- **The divisions find the date whose day they are given.** -/
theorem ofDay_daysBefore (h : IsDate year month day) :
    ofDay (daysBefore year month day) = ⟨year, month, day⟩ := by
  rw [← toDay_eq_daysBefore h, ofDay_toDay h]

end Date

end Capsule
