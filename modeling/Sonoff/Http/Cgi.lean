import Sonoff.Base.Calendar
import Sonoff.Nvdm.Numerals

/-! # The clock of the web pages

The registration of the routes starts the clock at its default time, and a request reads how
many ticks have passed since. Variables of type `int` stop at their maximum and tables at
their end: an overflow or a read behind a table gives none.
-/
namespace Sonoff.Http
open Bytes Calendar

/-- A path and its handler, each possibly NULL. -/
structure SnfHttpCgiRoute where
  path : Option (List UInt8)
  callback : Option ℕ
  deriving DecidableEq, Repr

structure SnfHttpCgiState where
  routes : Option (List SnfHttpCgiRoute)
  routeCount : ℕ
  timeStartTick : ℕ
  deriving DecidableEq, Repr

def cgiStateData : SnfHttpCgiState := ⟨none, 0, 0⟩

/-- `xTaskGetTickCount` after these ticks. -/
def tickCount (ticks : ℕ) : ℕ := ticks % 4294967296

/-- The routes with their count; `now` is the tick count. -/
def snfHttpCgiRegister (state : SnfHttpCgiState) (routes : Option (List SnfHttpCgiRoute))
    (now : ℕ) : ℤ × SnfHttpCgiState :=
  match routes with
  | none => (-1, state)
  | some routes =>
    if routes.length = 0 then (-1, state)
    else if routes.any fun route => route.path.isNone || route.callback.isNone then (-2, state)
    else (0, { routes := some routes, routeCount := routes.length, timeStartTick := now })

def snfHttpDefaultDate : Date := ⟨2026, 8, 26⟩
def snfHttpDefaultHour : ℕ := 9
def snfHttpDefaultMinute : ℕ := 0
def snfHttpDefaultSecond : ℕ := 0

/-- `++` on an `int`. -/
def intSucc (n : ℕ) : Option ℕ := if n < 2147483647 then some (n + 1) else none

def snfHttpCgiIsLeapYear (year : ℕ) : Bool := year % 4 = 0 && (year % 100 ≠ 0 || year % 400 = 0)

def daysInMonth : List ℕ := [0, 31, 28, 31, 30, 31, 30, 31, 31, 30, 31, 30, 31]

def snfHttpCgiGetDaysInMonth (year month : ℕ) : Option ℕ := do
  let days ← daysInMonth[month]?
  some (if month = 2 ∧ snfHttpCgiIsLeapYear year then 29 else days)

def dayStep (date : Date) : Option Date := do
  let day ← intSucc date.day
  let days ← snfHttpCgiGetDaysInMonth date.year date.month
  if day > days then do
    let month ← intSucc date.month
    if month > 12 then do
      let year ← intSucc date.year
      some ⟨year, 1, 1⟩
    else some ⟨date.year, month, 1⟩
  else some ⟨date.year, date.month, day⟩

/-- The loop; every round takes one of the days. -/
def dayLoop : ℕ → Date → Option Date
  | 0, date => some date
  | elapsedDays + 1, date => do
    let date ← dayStep date
    dayLoop elapsedDays date

-- `configTICK_RATE_HZ` is the SDK's
variable (tickRate : ℕ)

def elapsedSeconds (state : SnfHttpCgiState) (now : ℕ) :
    ℕ := u32Sub now state.timeStartTick / tickRate

def totalSeconds (state : SnfHttpCgiState) (now : ℕ) : ℕ :=
  u32Add (snfHttpDefaultHour * 3600 + snfHttpDefaultMinute * 60 + snfHttpDefaultSecond)
    (elapsedSeconds tickRate state now)

/-- The six variables of a request. -/
def timeOf (state : SnfHttpCgiState) (now : ℕ) : Option Time := do
  let total := totalSeconds tickRate state now
  let date ← dayLoop (total / (24 * 3600)) snfHttpDefaultDate
  some ⟨date, total / 3600 % 24, total / 60 % 60, total % 60⟩

/-- `%0*d` -/
def zeroPadded (width n : ℕ) : List UInt8 :=
  List.replicate (width - (Nvdm.decimal n).length) 48 ++ (Nvdm.decimal n).chars

/-- `"%04d.%02d.%02d-%02d:%02d:%02d"` -/
def timeText (time : Time) : List UInt8 :=
  zeroPadded 4 time.date.year ++ 46 :: zeroPadded 2 time.date.month ++ 46 ::
    zeroPadded 2 time.date.day ++ 45 :: zeroPadded 2 time.hour ++ 58 :: zeroPadded 2 time.minute ++
    58 :: zeroPadded 2 time.second

/-- `snprintf` of a text into a buffer of this size: its length, and what the buffer holds. -/
def snprintf (size : ℕ) (text : List UInt8) :
    ℕ × List UInt8 := (text.length, text.take (size - 1) ++ [0])

/-- What the request returns and writes into the response, whose size is none for NULL. -/
def snfHttpCgiGetTime (state : SnfHttpCgiState) (now : ℕ) (responseSize : Option ℕ) :
    Option (ℤ × List UInt8) :=
  match responseSize with
  | none => some (-1, [])
  | some size =>
    if size = 0 ∨ state.routes = none then some (-1, [])
    else do
      let time ← timeOf tickRate state now
      let (length, written) := snprintf size (timeText time)
      if length ≥ size then some (-3, written) else some (length, written)

end Sonoff.Http
