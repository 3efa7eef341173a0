import Runbook.Number.Digits

/-!
# Dates and times of day

Dates of the proleptic Gregorian calendar, and date-times with an optional offset from universal time.

* `Date.ordinal` and `Date.ofOrdinal`: days counted from the first of January of year 1.
* `DateTime.instant?`: the microsecond that a date-time with an offset denotes.
* `Date.isoText` and `DateTime.isoText`: the extended text form.
-/

namespace Runbook

/-- A date of the calendar. -/
structure Date where
  year : Nat
  month : Nat
  day : Nat
  deriving DecidableEq, Repr, Inhabited

/-- A date with a time of day; `offset` is its distance from universal time in microseconds. -/
structure DateTime where
  date : Date
  hour : Nat
  minute : Nat
  second : Nat
  microsecond : Nat
  offset : Option Int
  deriving DecidableEq, Repr, Inhabited

namespace Date

def isLeap (year : Nat) : Bool := year % 4 == 0 && (year % 100 != 0 || year % 400 == 0)

def daysInMonth (year month : Nat) : Nat :=
  if month = 2 then (if isLeap year then 29 else 28)
  else if month = 4 ∨ month = 6 ∨ month = 9 ∨ month = 11 then 30 else 31

/-- Days before the first of January of a year from 1 on. -/
def daysBeforeYear (year : Nat) : Nat :=
  let y := year - 1
  y * 365 + y / 4 - y / 100 + y / 400

/-- Days of the year before the first of a month. -/
def daysBeforeMonth (year : Nat) : (month : Nat) → Nat
  | 0 | 1 => 0
  | m + 2 => daysBeforeMonth year (m + 1) + daysInMonth year (m + 1)

/-- The number of the day, 1 for the first of January of year 1. -/
def ordinal (d : Date) : Nat := daysBeforeYear d.year + daysBeforeMonth d.year d.month + d.day

/-- The month and day that a day of a year, counted from 0, falls on. -/
def monthDay (year : Nat) (remaining : Nat) : (months : List Nat) → Nat × Nat
  | [] => (12, 31)
  | m :: rest =>
    let n := daysInMonth year m
    if remaining < n then (m, remaining + 1) else monthDay year (remaining - n) rest

/-- The date of a day number from 1 on. -/
def ofOrdinal (n : Nat) : Date :=
  let d := n - 1
  let cycles := d / 146097
  let d := d % 146097
  let centuries := min (d / 36524) 3
  let d := d - centuries * 36524
  let fours := d / 1461
  let d := d % 1461
  let years := min (d / 365) 3
  let d := d - years * 365
  let year := cycles * 400 + centuries * 100 + fours * 4 + years + 1
  let (m, day) := monthDay year d (List.range' 1 12)
  ⟨year, m, day⟩

/-- The day of the week, 1 for Monday. -/
def weekday (d : Date) : Nat := (d.ordinal + 6) % 7 + 1

/-- `year-month-day`. -/
def isoChars (d : Date) : List Char :=
  Digits.padded 4 d.year ++ '-' :: Digits.padded 2 d.month ++ '-' :: Digits.padded 2 d.day

def isoText (d : Date) : String := String.ofList d.isoChars

end Date

/-- Hours, minutes, seconds and a fraction of `:`-separated pairs; parts that are zero at the end of an
offset are left out by the caller. -/
def clockChars (hour minute : Nat) (rest : List Char) : List Char :=
  Digits.padded 2 hour ++ ':' :: Digits.padded 2 minute ++ rest

/-- Seconds with six places if there is a fraction. -/
def secondChars (second microsecond : Nat) : List Char :=
  ':' :: Digits.padded 2 second ++ if microsecond = 0 then [] else '.' :: Digits.padded 6 microsecond

namespace DateTime

/-- Microseconds from the start of year 1 to the written date and time, with no regard to the offset. -/
def wallClock (t : DateTime) : Int :=
  ((((t.date.ordinal * 24 + t.hour) * 60 + t.minute) * 60 + t.second) * 1000000 + t.microsecond : Nat)

/-- The microsecond of universal time that is meant, if the offset is known. -/
def instant? (t : DateTime) : Option Int := t.offset.map (t.wallClock - ·)

/-- The written date and time of a wall-clock microsecond. -/
def ofWallClock (us : Nat) (offset : Option Int) : DateTime :=
  let s := us / 1000000
  let m := s / 60
  let h := m / 60
  ⟨Date.ofOrdinal (h / 24), h % 24, m % 60, s % 60, us % 1000000, offset⟩

/-- The sign, hours and minutes of an offset, with seconds and a fraction if it has any. -/
def offsetChars (offset : Int) : List Char :=
  let us := offset.natAbs
  let s := us / 1000000
  let rest := if s % 60 = 0 ∧ us % 1000000 = 0 then [] else secondChars (s % 60) (us % 1000000)
  (if offset < 0 then '-' else '+') :: clockChars (s / 3600) (s / 60 % 60) rest

/-- The text form, with the given character between date and time. -/
def isoTextWith (separator : Char) (t : DateTime) : String :=
  String.ofList (t.date.isoChars ++ separator ::
    clockChars t.hour t.minute (secondChars t.second t.microsecond) ++
    match t.offset with
    | none => []
    | some o => offsetChars o)

/-- The text form, `T` between date and time. -/
def isoText (t : DateTime) : String := t.isoTextWith 'T'

/-- The same digits without the offset. -/
def withoutOffset (t : DateTime) : DateTime := { t with offset := none }

end DateTime

end Runbook
