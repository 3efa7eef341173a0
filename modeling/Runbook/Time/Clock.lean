import Runbook.Time.Calendar

/-!
# The clock

The clock counts seconds as a binary number, from a fixed moment on. Written times are rounded to the
microsecond.

* `Clock.stamp`: the date-time that a reading of the clock stands for.
* `Clock.elapsed`: the milliseconds between two date-times.
-/

namespace Runbook.Clock

/-- The moment at which the clock shows zero. -/
def origin : DateTime := ⟨⟨2020, 1, 1⟩, 0, 0, 0, 0, some 0⟩

/-- A reading in microseconds, to the nearest one. -/
def microseconds (reading : Binary64) : Int :=
  ((reading.mul (Binary64.ofNat 1000000)).round?).getD 0

/-- The date-time that a reading stands for. -/
def stamp (reading : Binary64) : DateTime :=
  DateTime.ofWallClock (origin.wallClock + microseconds reading).toNat (some 0)

/-- The milliseconds from one date-time to a later one: the seconds between them, rounded to a binary
number, times a thousand, without the fraction. -/
def elapsed (start stop : DateTime) : Int :=
  let us := stop.wallClock - start.wallClock
  let seconds := Binary64.ofRatio (us < 0) us.natAbs 1000000
  ((seconds.mul 1000).truncate?).getD 0

end Runbook.Clock
