import Mathlib.Algebra.BigOperators.Intervals
import Mathlib.Algebra.Order.BigOperators.Group.Finset
import Mathlib.Tactic.IntervalCases

/-! # The Gregorian calendar

Dates of the calendar continued to all years from the first on. The number of a date counts
the days up to it, from the lengths of the years and months before; different dates have
different numbers, and the next date has the next number. A time is a date with its second
in the day.
-/
namespace Sonoff.Calendar

def LeapYear (year : ℕ) : Prop := year % 4 = 0 ∧ (year % 100 ≠ 0 ∨ year % 400 = 0)

instance (year : ℕ) : Decidable (LeapYear year) := inferInstanceAs (Decidable (_ ∧ _))

/-- The days of a month; there are none outside of January to December. -/
def monthDays (year : ℕ) : ℕ → ℕ
  | 2 => if LeapYear year then 29 else 28
  | 4 | 6 | 9 | 11 => 30
  | 1 | 3 | 5 | 7 | 8 | 10 | 12 => 31
  | _ => 0

def yearDays (year : ℕ) : ℕ := if LeapYear year then 366 else 365

def daysBeforeMonth (year month : ℕ) : ℕ := ∑ m ∈ Finset.Ico 1 month, monthDays year m

/-- The days of the years before, of which every fourth is a leap year but for three centuries in
four. -/
def daysBeforeYear (year : ℕ) : ℕ :=
  365 * (year - 1) + (year - 1) / 4 - (year - 1) / 100 + (year - 1) / 400

theorem daysBeforeMonth_succ (year : ℕ) {month : ℕ} (h : 1 ≤ month) :
    daysBeforeMonth year (month + 1) = daysBeforeMonth year month + monthDays year month :=
  Finset.sum_Ico_succ_top h _

theorem daysBeforeMonth_one (year : ℕ) : daysBeforeMonth year 1 = 0 := by
  simp [daysBeforeMonth]

/-- The months of a year have all its days. -/
theorem daysBeforeMonth_year (year : ℕ) : daysBeforeMonth year 13 = yearDays year := by
  unfold daysBeforeMonth yearDays
  by_cases h : LeapYear year <;>
    simp [Finset.sum_Ico_eq_sum_range, Finset.sum_range_succ, monthDays, h]

theorem daysBeforeMonth_mono (year : ℕ) {month month' : ℕ} (h : month ≤ month') :
    daysBeforeMonth year month ≤ daysBeforeMonth year month' :=
  Finset.sum_le_sum_of_subset (Finset.Ico_subset_Ico_right h)

/-- The quotient grows where the number is a multiple. -/
theorem div_succ (n k : ℕ) : (n + 1) / k = n / k + if (n + 1) % k = 0 then 1 else 0 := by
  rw [Nat.succ_div]
  simp only [Nat.dvd_iff_mod_eq_zero]

theorem daysBeforeYear_succ {year : ℕ} (h : 1 ≤ year) :
    daysBeforeYear (year + 1) = daysBeforeYear year + yearDays year := by
  obtain ⟨n,rfl⟩ := Nat.exists_eq_add_of_le' h
  have hle : n / 100 ≤ n := Nat.div_le_self n 100
  have hcentury : (n + 1) % 100 = 0 → (n + 1) % 4 = 0 := by omega
  have hfourth : (n + 1) % 400 = 0 → (n + 1) % 100 = 0 := by omega
  unfold daysBeforeYear yearDays LeapYear
  rw [Nat.add_sub_cancel, Nat.add_sub_cancel, div_succ n 4, div_succ n 100,
    div_succ n 400]
  by_cases h4 : (n + 1) % 4 = 0
  · by_cases h100 : (n + 1) % 100 = 0
    · by_cases h400 : (n + 1) % 400 = 0
      · simp only [h4, h100, h400, ne_eq, not_true_eq_false, false_or, and_self, if_true]
        omega
      · simp only [h4, h100, h400, ne_eq, not_true_eq_false, or_self, and_false, if_true, if_false]
        omega
    · have h400 : (n + 1) % 400 ≠ 0 := mt hfourth h100
      simp only [h4, h100, h400, ne_eq, not_false_eq_true, true_or, and_self, if_true, if_false]
      omega
  · have h100 : (n + 1) % 100 ≠ 0 := mt hcentury h4
    have h400 : (n + 1) % 400 ≠ 0 := mt hfourth h100
    simp only [h4, h100, h400, false_and, if_false]
    omega

theorem daysBeforeYear_mono {year year' : ℕ} (hfrom : 1 ≤ year) (h : year ≤ year') :
    daysBeforeYear year ≤ daysBeforeYear year' := by
  induction year', h using Nat.le_induction with
  | base => exact Nat.le_refl _
  | succ year' h ih =>
    rw [daysBeforeYear_succ (hfrom.trans h)]
    exact ih.trans (Nat.le_add_right _ _)

structure Date where
  year : ℕ
  month : ℕ
  day : ℕ
  deriving DecidableEq, Repr

structure Date.Valid (date : Date) : Prop where
  year : 1 ≤ date.year
  monthFrom : 1 ≤ date.month
  monthTo : date.month ≤ 12
  dayFrom : 1 ≤ date.day
  dayTo : date.day ≤ monthDays date.year date.month

/-- The days up to the date and with it. -/
def Date.number (date : Date) :
    ℕ := daysBeforeYear date.year + daysBeforeMonth date.year date.month + date.day

def Date.next (date : Date) : Date :=
  if date.day < monthDays date.year date.month then { date with day := date.day + 1 }
  else if date.month < 12 then ⟨date.year, date.month + 1, 1⟩
  else ⟨date.year + 1, 1, 1⟩

variable {date date' : Date}

theorem monthDays_pos (year : ℕ) {month : ℕ} (hfrom : 1 ≤ month) (hto : month ≤ 12) :
    1 ≤ monthDays year month := by
  interval_cases month
  case «2» =>
    show 1 ≤ if LeapYear year then 29 else 28
    split <;> decide
  all_goals simp [monthDays]

theorem Date.Valid.next (h : date.Valid) : date.next.Valid := by
  have hyear := h.year
  have hfrom := h.monthFrom
  unfold Date.next
  split
  case isTrue hday =>
    exact { h with dayFrom := Nat.le_add_left 1 _, dayTo := hday }
  case isFalse =>
    split
    case isTrue hmonth =>
      exact ⟨hyear, Nat.le_add_left 1 _, hmonth, Nat.le_refl 1,
        monthDays_pos _ (Nat.le_add_left 1 _) hmonth⟩
    case isFalse =>
      exact ⟨Nat.le_add_left 1 _, Nat.le_refl 1, Nat.le_add_left 1 11, Nat.le_refl 1,
        Nat.le_add_left 1 30⟩

/-- The next date has the next number. -/
theorem Date.Valid.number_next (h : date.Valid) : date.next.number = date.number + 1 := by
  have hto := h.monthTo
  have hday := h.dayTo
  have hmonth := daysBeforeMonth_succ date.year h.monthFrom
  unfold Date.next
  split
  case isTrue => rfl
  case isFalse hlast =>
    split
    · show daysBeforeYear date.year + daysBeforeMonth date.year (date.month + 1) + 1 = date.number +
        1
      unfold Date.number
      omega
    · have htwelve : date.month = 12 := by omega
      have hyear := daysBeforeYear_succ h.year
      have hall := daysBeforeMonth_year date.year
      rw [htwelve, show 12 + 1 = 13 from rfl] at hmonth
      show daysBeforeYear (date.year + 1) + daysBeforeMonth (date.year + 1) 1 + 1 = date.number + 1
      rw [daysBeforeMonth_one]
      unfold Date.number
      rw [htwelve] at hlast hday ⊢
      omega

/-- A date lies behind the years before it. -/
theorem Date.Valid.year_lt (h : date.Valid) : daysBeforeYear date.year < date.number := by
  have := h.dayFrom
  unfold Date.number
  omega

/-- A date lies behind the months before it and up to the end of its own. -/
theorem Date.Valid.number_le_month (h : date.Valid) :
    date.number ≤ daysBeforeYear date.year + daysBeforeMonth date.year (date.month + 1) := by
  have := h.dayTo
  rw [daysBeforeMonth_succ date.year h.monthFrom]
  unfold Date.number
  omega

theorem Date.Valid.number_le_year (h : date.Valid) :
    date.number ≤ daysBeforeYear (date.year + 1) := by
  have hmonth := h.number_le_month
  have hto : date.month + 1 ≤ 13 := Nat.succ_le_succ h.monthTo
  have hmono := daysBeforeMonth_mono date.year hto
  rw [daysBeforeMonth_year] at hmono
  rw [daysBeforeYear_succ h.year]
  omega

/-- A later year or month has the larger numbers. -/
theorem Date.Valid.number_lt (h : date.Valid) (h' : date'.Valid)
    (hlt : date.year < date'.year ∨ date.year = date'.year ∧ date.month < date'.month) :
    date.number < date'.number := by
  obtain hyear | ⟨hyear,hmonth⟩ := hlt
  · calc date.number ≤ daysBeforeYear (date.year + 1) := h.number_le_year
      _ ≤ daysBeforeYear date'.year := daysBeforeYear_mono (Nat.le_add_left 1 _) hyear
      _ < date'.number := h'.year_lt
  · have hle := h.number_le_month
    have hmono := daysBeforeMonth_mono date.year (Nat.succ_le_of_lt hmonth)
    have hfrom := h'.dayFrom
    unfold Date.number at hle ⊢
    rw [← hyear]
    exact lt_of_le_of_lt (hle.trans (Nat.add_le_add_left hmono _)) (by omega)

/-- A number has one date. -/
theorem Date.Valid.eq_of_number (h : date.Valid) (h' : date'.Valid)
    (hnumber : date.number = date'.number) : date = date' := by
  have hlt := mt (h.number_lt h') (by omega)
  have hgt := mt (h'.number_lt h) (by omega)
  have hyear : date.year = date'.year := by omega
  have hmonth : date.month = date'.month := by omega
  obtain ⟨year,month,day⟩ := date
  obtain ⟨year',month',day'⟩ := date'
  obtain rfl : year = year' := hyear
  obtain rfl : month = month' := hmonth
  unfold Date.number at hnumber
  obtain rfl : day = day' := Nat.add_left_cancel hnumber
  rfl

structure Time where
  date : Date
  hour : ℕ
  minute : ℕ
  second : ℕ
  deriving DecidableEq, Repr

structure Time.Valid (time : Time) : Prop where
  date : time.date.Valid
  hour : time.hour < 24
  minute : time.minute < 60
  second : time.second < 60

def Time.number (time : Time) :
    ℕ := time.date.number * 86400 + time.hour * 3600 + time.minute * 60 + time.second

/-- A second has one time. -/
theorem Time.Valid.eq_of_number {time time' : Time} (h : time.Valid) (h' : time'.Valid)
    (hnumber : time.number = time'.number) : time = time' := by
  have hhour := h.hour
  have hminute := h.minute
  have hsecond := h.second
  have hhour' := h'.hour
  have hminute' := h'.minute
  have hsecond' := h'.second
  unfold Time.number at hnumber
  have hdate : time.date = time'.date := h.date.eq_of_number h'.date (by omega)
  obtain ⟨date,hour,minute,second⟩ := time
  obtain ⟨date',hour',minute',second'⟩ := time'
  obtain rfl : date = date' := hdate
  obtain rfl : hour = hour' := by
    dsimp only at *
    omega
  obtain rfl : minute = minute' := by
    dsimp only at *
    omega
  obtain rfl : second = second' := by
    dsimp only at *
    omega
  rfl

end Sonoff.Calendar
