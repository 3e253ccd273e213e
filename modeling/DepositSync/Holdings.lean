import DepositSync.Decimal.Quotient

/-!
# DepositSync.Holdings

What the vendor knows about one client: the net worth of the client's deposits, and which of the
steps of opening another deposit are pending.
-/

namespace DepositSync

/-- The deposits of one client, summed up. -/
structure NetWorth where
  invested : Decimal
  current : Decimal
  interest : Decimal
  activeDeposits : Int
  deriving DecidableEq, Repr, Inhabited

/-- No deposits. -/
def NetWorth.none : NetWorth := ⟨.zero, .zero, .zero, 0⟩

/-- The journey of one client towards another deposit. -/
structure Journey where
  pending : Bool
  paymentPending : Bool
  kycPending : Bool
  deriving DecidableEq, Repr, Inhabited

/-- No journey. -/
def Journey.none : Journey := ⟨false, false, false⟩

/-- The interest as a percentage of the invested amount. It is zero when nothing is invested, and
when the ratio or the percentage is out of range. -/
def returnsPercentage (invested interest : Decimal) : Decimal :=
  if invested.isZero then .zero
  else ((interest.div? invested).bind Decimal.mulHundred?).getD .zero

end DepositSync
