import Runbook.Time.Calendar

/-!
# Reading dates and times

The basic and extended forms of ISO 8601 dates (calendar dates and week dates) and times, any single
character between the two, fractions of a second after a point or a comma, offsets with an optional
`Z`. Digits beyond the microsecond are dropped.

* `DateTime.readIso`: a date-time, or why there is none.
-/

namespace Runbook

/-- Why a text is no date-time. -/
inductive DateTimeError where
  | malformed (text : String)
  | year (value : Nat)
  | month
  | day
  | hour
  | minute
  | second
  | offset (microseconds : Int)
  deriving DecidableEq, Repr

namespace IsoReader

/-- The number that the first `count` characters stand for, if they are digits, and the rest. -/
def digits (count : Nat) (cs : List Char) : Option (Nat × List Char) :=
  let front := cs.take count
  if front.length = count ∧ front.all Char.isDigit then some (Digits.toNat front, cs.drop count) else none

/-- How many characters of a date-time text, at least seven long, are its date. -/
def dateLength (cs : List Char) : Option Nat :=
  let at? (i : Nat) : Option Char := cs[i]?
  let digitAt (i : Nat) : Bool := (at? i).any Char.isDigit
  if cs.length = 7 then some 7
  else if at? 4 = some '-' then
    if at? 5 = some 'W' then
      if 8 < cs.length ∧ at? 8 = some '-' then
        if cs.length = 9 then none
        else if 10 < cs.length ∧ digitAt 10 then some 8 else some 10
      else some 8
    else some 10
  else if at? 4 = some 'W' then
    let stop := 7 + ((cs.drop 7).takeWhile Char.isDigit).length
    if stop < 9 then some stop else if stop % 2 = 0 then some 7 else some 8
  else some 8

/-- The first Monday of the ISO year, as a day number, possibly before the first of January. -/
def isoYearStart (year : Nat) : Int :=
  let first : Date := ⟨year, 1, 1⟩
  let monday : Int := (first.ordinal : Int) - (first.weekday - 1)
  if first.weekday ≤ 4 then monday else monday + 7

/-- The date of a week day of an ISO week. A week of the year zero is in no month. -/
def weekDate? (year week day : Nat) : Option Date :=
  if 9999 < year ∨ day = 0 ∨ 7 < day then none
  else if year = 0 then (if week = 0 ∨ 52 < week then none else some ⟨1, 0, 1⟩)
  else
    let first : Date := ⟨year, 1, 1⟩
    let long := first.weekday = 4 ∨ (first.weekday = 3 ∧ Date.isLeap year)
    if week = 0 ∨ 53 < week ∨ (week = 53 ∧ ¬ long) then none
    else
      let n := isoYearStart year + (week - 1) * 7 + (day - 1)
      if n < 1 then none else some (Date.ofOrdinal n.toNat)

/-- The fields of a date that takes up the whole text; a calendar date may still be out of range. -/
def dateFields (cs : List Char) : Option Date := do
  let (year, rest) ← digits 4 cs
  let (separated, rest) := match rest with
    | '-' :: rest => (true, rest)
    | rest => (false, rest)
  match rest with
  | 'W' :: rest =>
    let (week, rest) ← digits 2 rest
    if rest.isEmpty then weekDate? year week 1
    else
      let rest ← if separated then (match rest with | '-' :: rest => some rest | _ => none) else some rest
      let (day, rest) ← digits 1 rest
      if rest.isEmpty then weekDate? year week day else none
  | rest =>
    let (month, rest) ← digits 2 rest
    let rest ← if separated then (match rest with | '-' :: rest => some rest | _ => none) else some rest
    let (day, rest) ← digits 2 rest
    if rest.isEmpty then some ⟨year, month, day⟩ else none

/-- Hours, minutes, seconds and microseconds, and whether something is left unread. -/
structure ClockFields where
  hour : Nat := 0
  minute : Nat := 0
  second : Nat := 0
  microsecond : Nat := 0
  unread : Bool := false

/-- A fraction of a second: six digits count, further ones are skipped. -/
def fraction (fields : ClockFields) (cs : List Char) (more : Bool) : Option ClockFields := do
  let count := min cs.length 6
  let (value, rest) ← digits count cs
  if count = 0 then none
  else
    let rest := rest.dropWhile Char.isDigit
    some { fields with microsecond := value * Nat.pow 10 (6 - count), unread := !rest.isEmpty || more }

/-- A time of day with two digits for each part, all or none separated by colons; `more` tells that
other text follows. -/
def clockFields (cs : List Char) (more : Bool) : Option ClockFields := do
  let (hour, rest) ← digits 2 cs
  let fields : ClockFields := { hour }
  match rest with
  | [] => some { fields with unread := more }
  | [_] => some { fields with unread := true }
  | c :: tail =>
    if c = '.' ∨ c = ',' then fraction fields tail more
    else
      let separated := c = ':'
      let (minute, rest) ← digits 2 (if separated then tail else rest)
      let fields := { fields with minute }
      match rest with
      | [] => some { fields with unread := more }
      | [_] => some { fields with unread := true }
      | c :: tail =>
        if c = '.' ∨ c = ',' then fraction fields tail more
        else if separated && c != ':' then none
        else
          let (second, rest) ← digits 2 (if separated then tail else rest)
          let fields := { fields with second }
          match rest with
          | [] => some { fields with unread := more }
          | [_] => some { fields with unread := true }
          | c :: tail =>
            if c = '.' ∨ c = ',' then fraction fields tail more
            else if separated then (if c = ':' then fraction fields tail more else none)
            else fraction fields rest more

/-- An offset in microseconds. One of less than a second counts as none at all. -/
def offsetOf (negative : Bool) (o : ClockFields) : Int :=
  let seconds := o.hour * 3600 + o.minute * 60 + o.second
  let us : Int := if seconds = 0 then 0 else ((seconds * 1000000 + o.microsecond : Nat) : Int)
  if negative then -us else us

/-- A time of day with an optional offset in microseconds. -/
def timeFields (cs : List Char) : Option (ClockFields × Option Int) := do
  let isMark (c : Char) : Bool := c == '+' || c == '-' || c == 'Z'
  let clock := cs.takeWhile (!isMark ·)
  match cs.dropWhile (!isMark ·) with
  | [] =>
    let fields ← clockFields clock false
    if fields.unread then none else some (fields, none)
  | mark :: rest =>
    let fields ← clockFields clock true
    if mark = 'Z' then (if rest.isEmpty then some (fields, some 0) else none)
    else
      let o ← clockFields rest false
      if o.unread then none else some (fields, some (offsetOf (mark = '-') o))

/-- A day in microseconds. -/
def dayLength : Nat := 86400000000

/-- The date-time of the given fields, or the first field that is out of range. -/
def build (d : Date) (t : ClockFields) (offset : Option Int) : Except DateTimeError DateTime :=
  match offset with
  | some o => if dayLength ≤ o.natAbs then .error (.offset o) else checked
  | none => checked
where
  checked : Except DateTimeError DateTime :=
    if d.year = 0 ∨ 9999 < d.year then .error (.year d.year)
    else if d.month = 0 ∨ 12 < d.month then .error .month
    else if d.day = 0 ∨ Date.daysInMonth d.year d.month < d.day then .error .day
    else if 23 < t.hour then .error .hour
    else if 59 < t.minute then .error .minute
    else if 59 < t.second then .error .second
    else .ok ⟨d, t.hour, t.minute, t.second, t.microsecond, offset⟩

end IsoReader

/-- Reads a date-time; one with no time of day is midnight. -/
def DateTime.readIso (text : String) : Except DateTimeError DateTime :=
  let cs := text.toList
  let parts : Option (Date × IsoReader.ClockFields × Option Int) := do
    if cs.length < 7 then none
    else
      let n ← IsoReader.dateLength cs
      let d ← IsoReader.dateFields (cs.take n)
      let rest := cs.drop n
      if rest.isEmpty then some (d, {}, none)
      else
        let (t, offset) ← IsoReader.timeFields (rest.drop 1)
        some (d, t, offset)
  match parts with
  | none => .error (.malformed text)
  | some (d, t, offset) => IsoReader.build d t offset

/-- Reads a date in the form `year-month-day`. -/
def Date.readIso? (text : String) : Option Date := IsoReader.dateFields text.toList

end Runbook
