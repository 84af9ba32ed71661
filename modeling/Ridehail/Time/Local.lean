import Ridehail.Number.Digits
import Ridehail.Number.Power
import Ridehail.Time.Instant

/-!
# Local time

Demand and traffic follow the local weekday and time of day. A local time is
read off an instant by adding the offset of the time zone.

## Main definitions

* `Weekday`, `TimeOfDay`, `LocalTime` — the types.
* `TimeOfDay.strictlyBetween` — the open intervals of the daily rules.
* `Instant.localTime` — the local time of an instant.
* `TimeOfDay.read?`, `LocalTime.read?` — `HH:MM:SS`, and a date before it.
-/

namespace Ridehail

/-- The days of the week. -/
inductive Weekday where
  | monday
  | tuesday
  | wednesday
  | thursday
  | friday
  | saturday
  | sunday
  deriving DecidableEq, Repr, Inhabited

/-- The weekdays in order. -/
def Weekday.all : List Weekday :=
  [.monday, .tuesday, .wednesday, .thursday, .friday, .saturday, .sunday]

/-- The weekday of a day counted from 1970-01-01, a Thursday. -/
def Weekday.ofDay (day : Int) : Weekday :=
  Weekday.all.getD ((day + 3) % 7).toNat .monday

/-- The number of a weekday, Monday being one. -/
def Weekday.number (day : Weekday) : Nat := Weekday.all.idxOf day + 1

/-- Saturday and Sunday. -/
def Weekday.isWeekend (day : Weekday) : Bool := day = .saturday || day = .sunday

/-- Nanoseconds since midnight. -/
structure TimeOfDay where
  nanos : Nat
  deriving DecidableEq, Repr, Inhabited

/-- The full hour `h`. -/
def TimeOfDay.ofHour (h : Nat) : TimeOfDay := ⟨h * 3600000000000⟩

/-- The hour that has begun. -/
def TimeOfDay.hour (t : TimeOfDay) : Nat := t.nanos / 3600000000000

/-- After the full hour `low` and before the full hour `high`. -/
def TimeOfDay.strictlyBetween (t : TimeOfDay) (low high : Nat) : Bool :=
  (TimeOfDay.ofHour low).nanos < t.nanos &&
    t.nanos < (TimeOfDay.ofHour high).nanos

/-- After 22:00 or before 06:00. -/
def TimeOfDay.isNight (t : TimeOfDay) : Bool :=
  (TimeOfDay.ofHour 22).nanos < t.nanos || t.nanos < (TimeOfDay.ofHour 6).nanos

/-- A weekday and a time of day. -/
structure LocalTime where
  weekday : Weekday
  time : TimeOfDay
  deriving DecidableEq, Repr, Inhabited

/-- The milliseconds of a day. -/
def dayMs : Int := 86400000

/-- The local time of an instant in a zone that is `offset` seconds ahead of
UTC. -/
def Instant.localTime (t : Instant) (offset : Int) : LocalTime :=
  let ms := t.onCalendar.ms + offset * 1000
  { weekday := Weekday.ofDay (ms / dayMs)
    time := ⟨(ms % dayMs).toNat * 1000000⟩ }

/-! ## Reading -/

/-- Reads a run of exactly `width` digits off the front of `cs`. -/
def takeDigits? (width : Nat) (cs : List Char) : Option (Nat × List Char) :=
  let digits := cs.take width
  if digits.length = width && digits.all isDigit then
    some (digitsValue digits, cs.drop width)
  else none

/-- Drops one given character off the front. -/
def dropChar? (c : Char) : List Char → Option (List Char)
  | d :: cs => if d = c then some cs else none
  | [] => none

/-- The nanoseconds of a fraction: a point and up to nine digits, or nothing. -/
def readFraction? : List Char → Option Nat
  | [] => some 0
  | '.' :: digits =>
      if digits.isEmpty || 9 < digits.length || !digits.all isDigit then none
      else some (digitsValue digits * tenPow (9 - digits.length))
  | _ => none

/-- Reads `HH:MM:SS` with an optional fraction. -/
def TimeOfDay.readChars? (cs : List Char) : Option TimeOfDay := do
  let (hour, cs) ← takeDigits? 2 cs
  let (minute, cs) ← takeDigits? 2 (← dropChar? ':' cs)
  let (second, cs) ← takeDigits? 2 (← dropChar? ':' cs)
  let nanos ← readFraction? cs
  if 24 ≤ hour || 60 ≤ minute || 60 ≤ second then none
  return ⟨((hour * 60 + minute) * 60 + second) * 1000000000 + nanos⟩

/-- Reads `HH:MM:SS` with an optional fraction. -/
def TimeOfDay.read? (text : String) : Option TimeOfDay :=
  TimeOfDay.readChars? text.toList

/-- The days from 1970-01-01 to a date of the Gregorian calendar. Years are
counted from March, so that the leap day is the last of its year. -/
def dayOfDate (year month day : Nat) : Int :=
  let y : Int := if month ≤ 2 then year - 1 else year
  let m : Nat := if month ≤ 2 then month + 9 else month - 3
  let era := y / 400
  let yearOfEra := y % 400
  let dayOfYear : Int := ((153 * m + 2) / 5 + day - 1 : Nat)
  era * 146097 + yearOfEra * 365 + yearOfEra / 4 - yearOfEra / 100 +
    dayOfYear - 719468

/-- Reads `YYYY-MM-DDTHH:MM:SS` with an optional fraction. -/
def LocalTime.read? (text : String) : Option LocalTime := do
  let (year, cs) ← takeDigits? 4 text.toList
  let (month, cs) ← takeDigits? 2 (← dropChar? '-' cs)
  let (day, cs) ← takeDigits? 2 (← dropChar? '-' cs)
  let time ← TimeOfDay.readChars? (← dropChar? 'T' cs)
  if month = 0 || 12 < month || day = 0 || 31 < day then none
  return { weekday := Weekday.ofDay (dayOfDate year month day), time }

end Ridehail
