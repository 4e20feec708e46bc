import Sonoff.Http.Cgi

/-! # The clock of the web pages is a calendar

Every round of the loop goes to the next date, so the date of a request is the default date
with the days that have passed, and the time the default time with the seconds that have
passed. The text of the response has the fields of that time.
-/
namespace Sonoff.Http
open Bytes Calendar

variable {date : Date} {tickRate : ℕ}

theorem isLeapYear_iff (year : ℕ) : snfHttpCgiIsLeapYear year = true ↔ LeapYear year := by
  simp [snfHttpCgiIsLeapYear, LeapYear]

/-- The table is read inside, and has the days of the month. -/
theorem getDaysInMonth_eq (year : ℕ) {month : ℕ} (hfrom : 1 ≤ month) (hto : month ≤ 12) :
    snfHttpCgiGetDaysInMonth year month = some (monthDays year month) := by
  unfold snfHttpCgiGetDaysInMonth
  interval_cases month
  case «2» =>
    by_cases hleap : LeapYear year
    · simp [daysInMonth, monthDays, hleap, (isLeapYear_iff year).mpr hleap]
    · simp [daysInMonth, monthDays, hleap, mt (isLeapYear_iff year).mp hleap]
  all_goals simp [daysInMonth, monthDays]

theorem monthDays_le (year month : ℕ) : monthDays year month ≤ 31 := by
  unfold monthDays
  split
  · split <;> decide
  all_goals decide

theorem intSucc_eq {n : ℕ} (h : n < 2147483647) : intSucc n = some (n + 1) := if_pos h

/-- One round goes to the next date. -/
theorem dayStep_eq (h : date.Valid) (hyear : date.year < 2147483647) :
    dayStep date = some date.next := by
  have hdays := getDaysInMonth_eq date.year h.monthFrom h.monthTo
  have hle := monthDays_le date.year date.month
  have hday := intSucc_eq (n := date.day) (by have := h.dayTo; omega)
  have hmonth := intSucc_eq (n := date.month) (by have := h.monthTo; omega)
  unfold dayStep Date.next
  rw [hday, hdays]
  simp only [Option.bind_eq_bind, Option.bind_some]
  by_cases hlast : date.day < monthDays date.year date.month
  · rw [if_neg (by omega), if_pos hlast]
  · rw [if_pos (by omega), if_neg hlast, hmonth]
    simp only [Option.bind_some]
    by_cases htwelve : date.month < 12
    · rw [if_neg (by omega), if_pos htwelve]
    · rw [if_pos (by omega), if_neg htwelve, intSucc_eq hyear]
      rfl

theorem next_year_le (date : Date) : date.next.year ≤ date.year + 1 := by
  unfold Date.next
  split
  · exact Nat.le_succ _
  · split
    · exact Nat.le_succ _
    · exact Nat.le_refl _

/-- The loop ends at the date these days later. -/
theorem dayLoop_eq (days : ℕ) (h : date.Valid) (hyear : date.year + days ≤ 2147483647) :
    ∃ later, dayLoop days date = some later ∧ later.Valid ∧ later.number = date.number + days := by
  induction days generalizing date with
  | zero => exact ⟨date, rfl, h, rfl⟩
  | succ days ih =>
    have hnext := next_year_le date
    obtain ⟨later,hloop,hvalid,hnumber⟩ := ih h.next (by omega)
    refine ⟨later, ?_, hvalid, ?_⟩
    · rw [dayLoop, dayStep_eq h (by omega)]
      exact hloop
    · rw [hnumber, h.number_next]
      omega

/-- The default of the pages, where the clock starts. -/
def defaultTime : Time :=
  ⟨snfHttpDefaultDate, snfHttpDefaultHour, snfHttpDefaultMinute, snfHttpDefaultSecond⟩

theorem defaultDate_valid : snfHttpDefaultDate.Valid := by
  constructor <;> decide

theorem defaultDate_number : snfHttpDefaultDate.number = 739854 := by decide

/-- A date this soon behind the default has a year of four digits. -/
theorem year_le (h : date.Valid) (hnumber : date.number ≤ 764709) : date.year ≤ 2094 := by
  by_contra hlater
  have hyear := h.year_lt
  have hmono := daysBeforeYear_mono (by decide : 1 ≤ 2095) (show 2095 ≤ date.year by omega)
  have h2095 : daysBeforeYear 2095 = 764818 := by decide
  omega

/-- The tick count starts again at zero behind its maximum, and still counts the ticks between. -/
theorem elapsedTicks_eq (start : ℕ) {elapsed : ℕ} (h : elapsed < 4294967296) :
    u32Sub (tickCount (start + elapsed)) (tickCount start) = elapsed := by
  unfold u32Sub tickCount
  omega

theorem elapsed_div_le {elapsed : ℕ} (hrate : 2 ≤ tickRate) (h : elapsed < 4294967296) :
    elapsed / tickRate < 2147483648 :=
  lt_of_le_of_lt (Nat.div_le_div_left hrate (by decide)) (by omega)

/-- The clock since a start, at the time these ticks later. -/
theorem timeOf_eq (hrate : 2 ≤ tickRate) {state : SnfHttpCgiState} {start elapsed : ℕ}
    (hstart : state.timeStartTick = tickCount start) (h : elapsed < 4294967296) :
    totalSeconds tickRate state (tickCount (start + elapsed)) = 32400 + elapsed / tickRate ∧
    ∃ time, timeOf tickRate state (tickCount (start + elapsed)) = some time ∧ time.Valid ∧
      time.date.year ≤ 2094 ∧ time.number = defaultTime.number + elapsed / tickRate := by
  have hseconds := elapsed_div_le hrate h
  have htotal : totalSeconds tickRate state (tickCount (start + elapsed)) =
      32400 + elapsed / tickRate := by
    unfold totalSeconds elapsedSeconds
    rw [hstart, elapsedTicks_eq start h]
    exact u32Add_eq (show 32400 + elapsed / tickRate < 4294967296 by omega)
  refine ⟨htotal, ?_⟩
  generalize elapsed / tickRate = seconds at hseconds htotal ⊢
  have hdays : (32400 + seconds) / (24 * 3600) ≤ 24855 := by omega
  obtain ⟨later,hloop,hvalid,hnumber⟩ :=
    @dayLoop_eq snfHttpDefaultDate ((32400 + seconds) / (24 * 3600))
    defaultDate_valid (show 2026 + _ ≤ 2147483647 by omega)
  rw [defaultDate_number] at hnumber
  have hyear := year_le hvalid (by omega)
  refine ⟨⟨later, (32400 + seconds) / 3600 % 24, (32400 + seconds) / 60 % 60,
    (32400 + seconds) % 60⟩, ?_,
    ⟨hvalid, Nat.mod_lt _ (by decide), Nat.mod_lt _ (by decide), Nat.mod_lt _ (by decide)⟩,
    hyear, ?_⟩
  · unfold timeOf
    dsimp only
    rw [htotal, hloop]
    rfl
  · unfold Time.number
    show later.number * 86400 + (32400 + seconds) / 3600 % 24 * 3600 + (32400 + seconds) / 60 % 60 *
      60 + (32400 + seconds) % 60 = snfHttpDefaultDate.number * 86400 + 9 * 3600 + 0 * 60 + 0 +
      seconds
    rw [hnumber, defaultDate_number]
    omega

/-- Digits of this width that denote the number. -/
structure Digits (width n : ℕ) (text : List UInt8) : Prop where
  length : text.length = width
  digits : ∀ ch ∈ text, 48 ≤ ch ∧ ch ≤ 57
  value : Nvdm.decimalValue text = n

def Shows (time : Time) (text : List UInt8) : Prop :=
  ∃ year month day hour minute second,
    text = year ++ 46 :: month ++ 46 :: day ++ 45 :: hour ++ 58 :: minute ++ 58 :: second ∧
    Digits 4 time.date.year year ∧ Digits 2 time.date.month month ∧ Digits 2 time.date.day day ∧
    Digits 2 time.hour hour ∧ Digits 2 time.minute minute ∧ Digits 2 time.second second

theorem decimal_digits (n : ℕ) : ∀ ch ∈ (Nvdm.decimal n).chars, 48 ≤ ch ∧ ch ≤ 57 := by
  intro ch hch
  obtain ⟨digit,hdigit,rfl⟩ := List.mem_map.mp hch
  have hisDigit := Nat.isDigit_of_mem_toDigits (by decide) (by decide) hdigit
  simp only [Char.isDigit, Bool.and_eq_true, decide_eq_true_eq] at hisDigit
  have hlow : 48 ≤ digit.toNat := UInt32.le_iff_toNat_le.mp hisDigit.1
  have hhigh : digit.toNat ≤ 57 := UInt32.le_iff_toNat_le.mp hisDigit.2
  have htoNat : (UInt8.ofNat digit.toNat).toNat = digit.toNat := by
    rw [UInt8.toNat_ofNat']
    omega
  rw [UInt8.le_iff_toNat_le, UInt8.le_iff_toNat_le, htoNat]
  exact ⟨hlow, hhigh⟩

theorem decimalValue_zeros (k : ℕ) : Nvdm.decimalValue (List.replicate k 48) = 0 := by
  induction k with
  | zero => rfl
  | succ k ih =>
    rw [List.replicate_succ', Nvdm.decimalValue, Nvdm.numeralValue_append]
    rw [Nvdm.decimalValue] at ih
    rw [ih]
    rfl

/-- A number that fits its field has the digits of the field. -/
theorem zeroPadded_digits {width n : ℕ} (hwidth : 0 < width) (h : n < 10 ^ width) :
    Digits width n (zeroPadded width n) := by
  have hle : (Nvdm.decimal n).chars.length ≤ width := by
    rw [Nvdm.decimal, List.length_map]
    exact (Nat.length_toDigits_le_iff (by decide) hwidth).mpr h
  unfold zeroPadded
  constructor
  · rw [List.length_append, List.length_replicate, Nvdm.CString.length]
    omega
  · intro ch hch
    obtain hzero | hdigit := List.mem_append.mp hch
    · rw [List.eq_of_mem_replicate hzero]
      decide
    · exact decimal_digits n ch hdigit
  · rw [Nvdm.decimalValue, Nvdm.numeralValue_append]
    have hzeros := decimalValue_zeros (width - (Nvdm.decimal n).length)
    have hvalue := Nvdm.decimalValue_decimal n
    unfold Nvdm.decimalValue at hzeros hvalue
    rw [hzeros, hvalue]
    omega

theorem timeText_shows {time : Time} (h : time.Valid) (hyear : time.date.year ≤ 2094) :
    Shows time (timeText time) ∧ (timeText time).length = 19 := by
  have hmonth := h.date.monthTo
  have hday := h.date.dayTo.trans (monthDays_le _ _)
  have hhour := h.hour
  have hminute := h.minute
  have hsecond := h.second
  have hyearDigits := @zeroPadded_digits 4 time.date.year (by decide) (by omega)
  have hmonthDigits := @zeroPadded_digits 2 time.date.month (by decide) (by omega)
  have hdayDigits := @zeroPadded_digits 2 time.date.day (by decide) (by omega)
  have hhourDigits := @zeroPadded_digits 2 time.hour (by decide) (by omega)
  have hminuteDigits := @zeroPadded_digits 2 time.minute (by decide) (by omega)
  have hsecondDigits := @zeroPadded_digits 2 time.second (by decide) (by omega)
  constructor
  · exact ⟨_, _, _, _, _, _, rfl, hyearDigits, hmonthDigits, hdayDigits, hhourDigits, hminuteDigits,
      hsecondDigits⟩
  · simp [timeText, hyearDigits.length, hmonthDigits.length, hdayDigits.length, hhourDigits.length,
      hminuteDigits.length, hsecondDigits.length]

theorem snfHttpCgiRegister_ok {state : SnfHttpCgiState} {routes : Option (List SnfHttpCgiRoute)}
    {now : ℕ} (h : (snfHttpCgiRegister state routes now).1 = 0) :
    (snfHttpCgiRegister state routes now).2.routes ≠ none ∧
      (snfHttpCgiRegister state routes now).2.timeStartTick = now := by
  unfold snfHttpCgiRegister at h ⊢
  cases routes with
  | none => cases h
  | some routes =>
    dsimp only at h ⊢
    split at h
    case isTrue => cases h
    case isFalse hlength =>
      split at h
      case isTrue => cases h
      case isFalse hnull =>
        rw [if_neg hlength, if_neg hnull]
        exact ⟨Option.some_ne_none _, rfl⟩

/-- What the request makes of the time: an error where the text does not fit. -/
theorem snfHttpCgiGetTime_eq {state : SnfHttpCgiState} {now size : ℕ} {time : Time}
    (hroutes : state.routes ≠ none)
    (hsize : 0 < size) (htime : timeOf tickRate state now = some time)
    (hlength : (timeText time).length = 19) : snfHttpCgiGetTime tickRate state now (some size) =
      if size ≤ 19 then some (-3, (timeText time).take (size - 1) ++ [0])
          else some (19, timeText time ++ [0]) := by
  unfold snfHttpCgiGetTime
  dsimp only
  rw [if_neg (by rw [not_or]; exact ⟨by omega, hroutes⟩), htime]
  simp only [Option.bind_eq_bind, Option.bind_some, snprintf, hlength]
  by_cases hle : size ≤ 19
  · rw [if_pos hle, if_pos hle]
  · have htake : (timeText time).take (size - 1) = timeText time :=
      List.take_of_length_le (by omega)
    rw [if_neg hle, if_neg hle, htake]
    rfl

/-- After a registration, at every tick count and every rate from two ticks in a second on, a
request reads the one time these seconds behind the default, without an overflow, and shows it. -/
theorem http_clock_exact (tickRate : ℕ) (hrate : 2 ≤ tickRate) (state : SnfHttpCgiState)
    (routes : Option (List SnfHttpCgiRoute)) (start elapsed : ℕ)
    (hregister : (snfHttpCgiRegister state routes (tickCount start)).1 = 0)
    (helapsed : elapsed < 4294967296) :
    ∃ time : Time, time.Valid ∧ time.number = defaultTime.number + elapsed / tickRate ∧
      (∀ other : Time, other.Valid → other.number = defaultTime.number + elapsed / tickRate →
        other = time) ∧
      totalSeconds tickRate (snfHttpCgiRegister state routes (tickCount start)).2
        (tickCount (start + elapsed)) = 32400 + elapsed / tickRate ∧
      timeOf tickRate (snfHttpCgiRegister state routes (tickCount start)).2
        (tickCount (start + elapsed)) = some time ∧
      ∃ text, Shows time text ∧ ∀ size, 0 < size →
        snfHttpCgiGetTime tickRate (snfHttpCgiRegister state routes (tickCount start)).2
          (tickCount (start + elapsed)) (some size) = if size ≤ 19 then
          some (-3, text.take (size - 1) ++ [0]) else some (19, text ++ [0]) := by
  obtain ⟨hroutes,hstart⟩ := snfHttpCgiRegister_ok hregister
  obtain ⟨htotal,time,htime,hvalid,hyear,hnumber⟩ := timeOf_eq hrate hstart helapsed
  obtain ⟨hshows,hlength⟩ := timeText_shows hvalid hyear
  refine ⟨time, hvalid, hnumber, fun other hother heq => ?_, htotal, htime, timeText time, hshows,
    fun size hsize => ?_⟩
  · exact hother.eq_of_number hvalid (heq.trans hnumber.symm)
  · exact snfHttpCgiGetTime_eq hroutes hsize htime hlength

def registeredRoutes : Option (List SnfHttpCgiRoute) := some [⟨some [47], some 0⟩]

/-- The last tick that counts, at two ticks in a second, registered before the counter wraps. -/
theorem http_clock_exact_last : ∃ time :
    Time, time.Valid ∧ time.number = defaultTime.number + 4294967295 / 2 ∧
    (∀ other : Time, other.Valid → other.number = defaultTime.number + 4294967295 / 2 →
      other = time) ∧
    totalSeconds 2 (snfHttpCgiRegister cgiStateData registeredRoutes (tickCount 4294967290)).2
      (tickCount (4294967290 + 4294967295)) = 32400 + 4294967295 / 2 ∧
    timeOf 2 (snfHttpCgiRegister cgiStateData registeredRoutes (tickCount 4294967290)).2
      (tickCount (4294967290 + 4294967295)) = some time ∧
    ∃ text, Shows time text ∧ ∀ size, 0 < size →
      snfHttpCgiGetTime 2
        (snfHttpCgiRegister cgiStateData registeredRoutes (tickCount 4294967290)).2
        (tickCount (4294967290 + 4294967295)) (some size) =
          if size ≤ 19 then some (-3, text.take (size - 1) ++ [0]) else some (19, text ++ [0]) :=
  http_clock_exact 2 (by decide) cgiStateData registeredRoutes 4294967290 4294967295 rfl (by decide)

end Sonoff.Http
