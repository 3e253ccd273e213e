import DepositSync.Time.Span
import DepositSync.Width

/-!
# DepositSync.Vendor.Backoff

Which answers are worth another try, how many tries there are, and how long to wait between them.
The wait doubles with every attempt up to a limit.
-/

namespace DepositSync

/-- Is it worth trying again after an answer with this status? -/
def isRetryable (status : Nat) : Bool :=
  (500 ≤ status && status ≤ 599) || status == 429

/-- Is it the status of a success? -/
def isSuccess (status : Nat) : Bool :=
  200 ≤ status && status ≤ 299

/-- How to try again. -/
structure Backoff where
  /-- How many tries may follow the first. -/
  maxRetries : Nat
  /-- The wait after the first try. -/
  baseDelay : Time.Span
  /-- The longest wait. -/
  maxDelay : Time.Span
  deriving DecidableEq, Repr, Inhabited

namespace Backoff

/-- The usual longest wait. -/
def defaultMaxDelay : Time.Span := .ofSeconds 5

/-- Attempts are counted with this many bits; a longer number keeps its low bits. -/
def counterBits : Nat := 32

/-- The factor of the wait after an attempt, the first being 0: a power of two while it fits the
counter, then the largest number that does. -/
def factor (attempt : Nat) : Nat :=
  let n := attempt % Width.count counterBits
  if n < counterBits then Nat.pow 2 n else Width.maxNat counterBits

/-- The wait after an attempt, the first being 0. -/
def delay (b : Backoff) (attempt : Nat) : Time.Span :=
  (b.baseDelay.scale (factor attempt)).min b.maxDelay

theorem nanos_delay_le (b : Backoff) (attempt : Nat) :
    (b.delay attempt).nanos ≤ b.maxDelay.nanos :=
  Nat.min_le_right _ _

end Backoff

end DepositSync
