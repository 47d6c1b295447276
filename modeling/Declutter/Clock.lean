import Declutter.Text.Basic
/-!
Times of day in the civil calendar. A time is given by six fields, of which each may lie out of its
range and then carries over into the next.
-/

set_option autoImplicit false
set_option relaxedAutoImplicit false

namespace Declutter

/-- A time as the number of seconds since the start of 1970. -/
structure Instant where
  seconds : Int
deriving DecidableEq, Repr

/-- A time of day in the civil calendar, with months and days counted from one. -/
structure CivilTime where
  year : Int
  month : Nat
  day : Nat
  hour : Nat
  minute : Nat
  second : Nat
deriving DecidableEq, Repr

namespace Instant

/-- The days from the start of 1970 to the first day of a month. The year is taken to start in
March, so that the leap day is its last. -/
def daysToMonth (year : Int) (month : Nat) : Int :=
  let y := if month ≤ 2 then year - 1 else year
  let era := y.fdiv 400
  let yearOfEra := y - era * 400
  let dayOfYear : Int := (153 * ((month + 9) % 12) + 2) / 5
  era * 146097 + yearOfEra * 365 + yearOfEra / 4 - yearOfEra / 100 + dayOfYear - 719468

/-- The time with the given fields; months are counted from zero, days from one. A year from 0 to 99
is one of the twentieth century. -/
def ofFields (year month day hour minute second : Int) : Instant :=
  let year := if 0 ≤ year ∧ year ≤ 99 then 1900 + year else year
  let days := daysToMonth (year + month.fdiv 12) ((month.fmod 12).toNat + 1) + day - 1
  ⟨((days * 24 + hour) * 60 + minute) * 60 + second⟩

/-- The times that can be told lie at most this many seconds from the start of 1970. -/
def reach : Int := 8640000000000

def isTold (t : Instant) : Bool := -reach ≤ t.seconds && t.seconds ≤ reach

/-- The days since the start of 1970. -/
def days (t : Instant) : Int := t.seconds.fdiv 86400

def civil (t : Instant) : CivilTime :=
  let z := t.days + 719468
  let era := z.fdiv 146097
  let dayOfEra := z - era * 146097
  let yearOfEra := (dayOfEra - dayOfEra / 1460 + dayOfEra / 36524 - dayOfEra / 146096) / 365
  let dayOfYear := dayOfEra - (365 * yearOfEra + yearOfEra / 4 - yearOfEra / 100)
  let shifted := ((5 * dayOfYear + 2) / 153).toNat
  let month := if shifted < 10 then shifted + 3 else shifted - 9
  let rest := (t.seconds.fmod 86400).toNat
  { year := yearOfEra + era * 400 + (if month ≤ 2 then 1 else 0)
    month
    day := (dayOfYear - (153 * shifted + 2) / 5 + 1).toNat
    hour := rest / 3600
    minute := rest / 60 % 60
    second := rest % 60 }

/-- The day of the week, counted from Sunday. -/
def weekday (t : Instant) : Nat := ((t.days + 4).fmod 7).toNat

/-- At least two digits. -/
def twoDigits (n : Nat) : Text := Text.padLeft '0' 2 (Text.ofNat n)

/-- The time as `YYYYMMDD_HHMMSS`. -/
def stamp (t : Instant) : Text :=
  if t.isTold then
    let c := t.civil
    Text.ofInt c.year ++ twoDigits c.month ++ twoDigits c.day ++ "_"
      ++ twoDigits c.hour ++ twoDigits c.minute ++ twoDigits c.second
  else "NaNNaNNaN_NaNNaNNaN"

def weekdayNames : List Text := ["Sun", "Mon", "Tue", "Wed", "Thu", "Fri", "Sat"]

def monthNames : List Text :=
  ["Jan", "Feb", "Mar", "Apr", "May", "Jun", "Jul", "Aug", "Sep", "Oct", "Nov", "Dec"]

/-- The time in words, such as `Wed Jan 01 2020 00:00:00 GMT+0000 (Coordinated Universal Time)`. -/
def words (t : Instant) : Text :=
  let c := t.civil
  Text.join " "
    [weekdayNames.getD t.weekday [], monthNames.getD (c.month - 1) [], twoDigits c.day,
      Text.padLeft '0' 4 (Text.ofInt c.year),
      Text.join ":" [twoDigits c.hour, twoDigits c.minute, twoDigits c.second],
      "GMT+0000 (Coordinated Universal Time)"]

end Instant

end Declutter
