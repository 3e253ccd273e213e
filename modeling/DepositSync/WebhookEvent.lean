import DepositSync.Decimal.Basic
import DepositSync.Tenure

/-!
# DepositSync.WebhookEvent

An event in a client's journey, as the vendor pushes it.
-/

namespace DepositSync

/-- An event the vendor reported. -/
structure WebhookEvent where
  client : String
  vendor : String
  trackingId : Option String
  eventType : Option String
  institution : Option String
  depositType : Option String
  amount : Option Decimal
  tenure : Tenure
  failureReason : Option String
  createdBy : String
  updatedBy : String
  deriving DecidableEq, Repr, Inhabited

end DepositSync
