import DepositSync.Time.Calendar

/-!
# DepositSync.Time.Moment

Points in time with a resolution of one nanosecond. The supported points are those from the first
to the last day of the supported calendar; arithmetic that would leave them has no result. A leap
second is the 59th second of its minute with more than a full second of nanoseconds.
-/

namespace DepositSync.Time

/-- Nanoseconds in a second. -/
def nanosPerSecond : Nat := 1000000000

/-- Seconds in a day. -/
def secondsPerDay : Int := 86400

/-- A point in time: seconds since the beginning of 1970 in UTC, and nanoseconds on top. -/
structure Moment where
  seconds : Int
  nanos : Nat
  deriving DecidableEq, Repr, Inhabited

namespace Moment

/-- The first supported date. -/
def firstDate : Date := ⟨-262143, 1, 1⟩

/-- The last supported date. -/
def lastDate : Date := ⟨262142, 12, 31⟩

/-- The first supported second. -/
def minSeconds : Int := firstDate.toDays * secondsPerDay

/-- The last supported second. -/
def maxSeconds : Int := lastDate.toDays * secondsPerDay + (secondsPerDay - 1)

/-- Is the point supported? -/
def InRange (m : Moment) : Prop :=
  minSeconds ≤ m.seconds ∧ m.seconds ≤ maxSeconds

instance (m : Moment) : Decidable m.InRange :=
  inferInstanceAs (Decidable (_ ∧ _))

/-- The point a number of milliseconds after the beginning of 1970. -/
def ofMillis (ms : Int) : Moment :=
  ⟨ms / 1000, (ms % 1000).toNat * 1000000⟩

/-- Whole milliseconds since the beginning of 1970, rounded down. -/
def toMillis (m : Moment) : Int :=
  m.seconds * 1000 + (m.nanos / 1000000 : Nat)

/-- Nanoseconds since the beginning of 1970. -/
def toNanos (m : Moment) : Int :=
  m.seconds * nanosPerSecond + m.nanos

/-- The point a number of nanoseconds after the beginning of 1970. -/
def ofNanos (ns : Int) : Moment :=
  ⟨ns / nanosPerSecond, (ns % nanosPerSecond).toNat⟩

/-- The point a number of nanoseconds later, if it is supported. -/
def addNanos? (m : Moment) (ns : Int) : Option Moment :=
  let later := ofNanos (m.toNanos + ns)
  if later.InRange then some later else none

/-- Is the first point not after the second? -/
def le (a b : Moment) : Bool :=
  a.seconds < b.seconds || (a.seconds == b.seconds && a.nanos ≤ b.nanos)

end Moment

end DepositSync.Time
