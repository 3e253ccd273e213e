import DepositSync.Time.Moment
import DepositSync.Width

/-!
# DepositSync.Time.Span

Lengths of time with a resolution of one nanosecond. The longest has 2^64 - 1 seconds and one
nanosecond less than another; multiplication stops there.
-/

namespace DepositSync.Time

/-- A length of time, in nanoseconds. -/
structure Span where
  nanos : Nat
  deriving DecidableEq, Repr, Inhabited

namespace Span

/-- The longest span. -/
def longest : Span := ⟨Width.count 64 * nanosPerSecond - 1⟩

/-- A span of seconds and nanoseconds. -/
def of (seconds nanos : Nat) : Span := ⟨seconds * nanosPerSecond + nanos⟩

def ofSeconds (n : Nat) : Span := of n 0

def ofMillis (n : Nat) : Span := ⟨n * 1000000⟩

/-- The whole seconds of the span. -/
def wholeSeconds (s : Span) : Nat := s.nanos / nanosPerSecond

/-- The nanoseconds on top of the whole seconds. -/
def subsecond (s : Span) : Nat := s.nanos % nanosPerSecond

/-- The shorter of two spans. -/
def min (a b : Span) : Span := ⟨Nat.min a.nanos b.nanos⟩

/-- The span times a factor, or the longest span if that is shorter. -/
def scale (s : Span) (factor : Nat) : Span :=
  min ⟨s.nanos * factor⟩ longest

end Span

end DepositSync.Time
