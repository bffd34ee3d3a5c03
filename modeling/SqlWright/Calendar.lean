import SqlWright.Decimal.Digits

/-!
# Dates and times of day

Dates of the proleptic Gregorian calendar and times of day with nanoseconds, with the two ways they
are written: in literals, cut to milliseconds, and in diagnostics, with as many decimals as the
value needs. A leap second is a time within second 59 whose nanoseconds go on past a full second; it
is shown as second 60. Time zones other than a fixed offset are not treated.
-/

namespace SqlWright

open Decimal

/-- Whether a year has a 29th of February. -/
def isLeapYear (year : Int) : Bool :=
  year % 4 == 0 && (year % 100 != 0 || year % 400 == 0)

/-- The days of a month; none for a number that is no month. -/
def daysInMonth (year : Int) (month : Nat) : Nat :=
  match month with
  | 1 | 3 | 5 | 7 | 8 | 10 | 12 => 31
  | 4 | 6 | 9 | 11 => 30
  | 2 => if isLeapYear year then 29 else 28
  | _ => 0

/-- A day of the calendar. Year 0 comes before year 1. -/
structure Date where
  year : Int
  month : Nat
  day : Nat
  one_le_day : 1 ≤ day
  day_le : day ≤ daysInMonth year month
deriving DecidableEq

/-- The date with the given fields, if the calendar has it. -/
def Date.ofFields? (year : Int) (month day : Nat) : Option Date :=
  if h : 1 ≤ day ∧ day ≤ daysInMonth year month then some ⟨year, month, day, h.1, h.2⟩ else none

/-- A year in four digits, and with a sign when it lies outside 0 to 9999. -/
def yearText (year : Int) : String :=
  if year < 0 then "-" ++ padded 4 year.natAbs
  else if year ≤ 9999 then padded 4 year.natAbs
  else "+" ++ padded 4 year.natAbs

/-- Year, month and day with hyphens between them. -/
def Date.text (d : Date) : String :=
  yearText d.year ++ "-" ++ padded 2 d.month ++ "-" ++ padded 2 d.day

/-- A time of day. -/
structure ClockTime where
  hour : Nat
  minute : Nat
  second : Nat
  nanosecond : Nat
  hour_lt : hour < 24
  minute_lt : minute < 60
  second_lt : second < 60
  nanosecond_lt : nanosecond < 1000000000 ∨ (second = 59 ∧ nanosecond < 2000000000)
deriving DecidableEq

/-- The time with the given fields, if there is one. -/
def ClockTime.ofFields? (hour minute second nanosecond : Nat) : Option ClockTime :=
  if h : hour < 24 ∧ minute < 60 ∧ second < 60 ∧
      (nanosecond < 1000000000 ∨ (second = 59 ∧ nanosecond < 2000000000)) then
    some ⟨hour, minute, second, nanosecond, h.1, h.2.1, h.2.2.1, h.2.2.2⟩
  else none

/-- The second that is shown: 60 during a leap second. -/
def ClockTime.shownSecond (t : ClockTime) : Nat :=
  t.second + t.nanosecond / 1000000000

/-- The nanoseconds since the shown second. -/
def ClockTime.fraction (t : ClockTime) : Nat :=
  t.nanosecond % 1000000000

/-- Hour, minute and second with colons between them. -/
def ClockTime.toSecond (t : ClockTime) : String :=
  padded 2 t.hour ++ ":" ++ padded 2 t.minute ++ ":" ++ padded 2 t.shownSecond

/-- The time cut to whole milliseconds, with three decimals. -/
def ClockTime.toMillisecond (t : ClockTime) : String :=
  t.toSecond ++ "." ++ padded 3 (t.fraction / 1000000)

/-- The time with no, three, six or nine decimals, whatever it needs. -/
def ClockTime.text (t : ClockTime) : String :=
  if t.fraction = 0 then t.toSecond
  else if t.fraction % 1000000 = 0 then t.toSecond ++ "." ++ padded 3 (t.fraction / 1000000)
  else if t.fraction % 1000 = 0 then t.toSecond ++ "." ++ padded 6 (t.fraction / 1000)
  else t.toSecond ++ "." ++ padded 9 t.fraction

/-- A day and a time of day. -/
structure DateTime where
  date : Date
  time : ClockTime
deriving DecidableEq

/-- The form that the server reads in a literal. -/
def DateTime.literalText (t : DateTime) : String :=
  t.date.text ++ " " ++ t.time.toMillisecond

/-- The form shown in diagnostics. -/
def DateTime.text (t : DateTime) : String :=
  t.date.text ++ "T" ++ t.time.text

/-- A local date and time with its distance from universal time in seconds. -/
structure OffsetDateTime where
  localTime : DateTime
  offset : Int
deriving DecidableEq

/-- An offset as sign, hours and minutes, and seconds if there are any. -/
def offsetText (offset : Int) : String :=
  let seconds := offset.natAbs
  let sign := if offset < 0 then "-" else "+"
  let minutes := sign ++ padded 2 (seconds / 3600) ++ ":" ++ padded 2 (seconds / 60 % 60)
  if seconds % 60 = 0 then minutes else minutes ++ ":" ++ padded 2 (seconds % 60)

/-- The form shown in diagnostics. -/
def OffsetDateTime.text (t : OffsetDateTime) : String :=
  t.localTime.text ++ offsetText t.offset

end SqlWright
