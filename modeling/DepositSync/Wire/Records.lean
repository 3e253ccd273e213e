import DepositSync.Json.Value
import DepositSync.Record
import DepositSync.WebhookEvent

/-!
# DepositSync.Wire.Records

Holdings, rows and events as JSON. Fields are written in the order in which they are declared
here, and amounts become numbers.
-/

namespace DepositSync

open Json (Tree ReadError Value)

/-- An amount as JSON. -/
def Decimal.toJson (x : Decimal) : Value :=
  .number (.ofText x.jsonText)

/-! ### Holdings -/

namespace NetWorth

/-- The fields of a net worth. -/
def fields : List (Field Tree ReadError NetWorth) := [
  field "invested_amount" .required Json.decimal fun r x => { r with invested := x },
  field "current_amount" .required Json.decimal fun r x => { r with current := x },
  field "interest_earned" .required Json.decimal fun r x => { r with interest := x },
  field "active_deposit_count" .required Json.int32 fun r x => { r with activeDeposits := x }]

/-- Reads a net worth. -/
def ofJson : Tree → Except ReadError NetWorth :=
  Json.record fields .none

/-- The net worth as JSON. -/
def toJson (r : NetWorth) : Value :=
  .object [("invested_amount", r.invested.toJson),
    ("current_amount", r.current.toJson),
    ("interest_earned", r.interest.toJson),
    ("active_deposit_count", .int r.activeDeposits)]

end NetWorth

namespace Journey

/-- The fields of a journey. -/
def fields : List (Field Tree ReadError Journey) := [
  field "pending" .required Json.bool fun r x => { r with pending := x },
  field "payment_pending" .required Json.bool fun r x => { r with paymentPending := x },
  field "kyc_pending" .required Json.bool fun r x => { r with kycPending := x }]

/-- Reads a journey. -/
def ofJson : Tree → Except ReadError Journey :=
  Json.record fields .none

/-- The journey as JSON. -/
def toJson (r : Journey) : Value :=
  .object [("pending", .bool r.pending),
    ("payment_pending", .bool r.paymentPending),
    ("kyc_pending", .bool r.kycPending)]

end Journey

/-! ### Rows -/

namespace PortfolioRecord

/-- The fields of a portfolio row. -/
def fields : List (Field Tree ReadError PortfolioRecord) := [
  field "client_code" .required Json.text fun r x => { r with client := x },
  field "provider" .required Json.text fun r x => { r with provider := x },
  field "total_active_deposits" .required Json.int32 fun r x => { r with activeDeposits := x },
  field "invested_value" .required Json.decimal fun r x => { r with invested := x },
  field "current_value" .required Json.decimal fun r x => { r with current := x },
  field "interest_earned" .required Json.decimal fun r x => { r with interest := x },
  field "returns_value" .required Json.decimal fun r x => { r with returns := x },
  field "returns_percentage" .required Json.decimal fun r x => { r with returnsPercentage := x },
  field "invalid_client" .required Json.bool fun r x => { r with isInvalid := x },
  field "api_error" .nullable (Json.optional Json.text) fun r x => { r with apiError := x },
  field "created_by" .required Json.text fun r x => { r with createdBy := x },
  field "updated_by" .required Json.text fun r x => { r with updatedBy := x }]

/-- Reads a portfolio row. -/
def ofJson : Tree → Except ReadError PortfolioRecord :=
  Json.record fields (ofNetWorth "" "" .none)

/-- The portfolio row as JSON, with amounts written by `amount`. -/
def toJsonWith (amount : Decimal → Value) (r : PortfolioRecord) : Value :=
  .object [("client_code", .string r.client),
    ("provider", .string r.provider),
    ("total_active_deposits", .int r.activeDeposits),
    ("invested_value", amount r.invested),
    ("current_value", amount r.current),
    ("interest_earned", amount r.interest),
    ("returns_value", amount r.returns),
    ("returns_percentage", amount r.returnsPercentage),
    ("invalid_client", .bool r.isInvalid),
    ("api_error", .optional .string r.apiError),
    ("created_by", .string r.createdBy),
    ("updated_by", .string r.updatedBy)]

/-- The portfolio row as JSON. -/
def toJson : PortfolioRecord → Value :=
  toJsonWith Decimal.toJson

end PortfolioRecord

namespace PendingJourneyRecord

/-- The fields of a pending-journey row. -/
def fields : List (Field Tree ReadError PendingJourneyRecord) := [
  field "client_code" .required Json.text fun r x => { r with client := x },
  field "provider" .required Json.text fun r x => { r with provider := x },
  field "pending" .required Json.bool fun r x => { r with pending := x },
  field "payment_pending" .required Json.bool fun r x => { r with paymentPending := x },
  field "kyc_pending" .required Json.bool fun r x => { r with kycPending := x },
  field "invalid_client" .required Json.bool fun r x => { r with isInvalid := x },
  field "api_error" .nullable (Json.optional Json.text) fun r x => { r with apiError := x },
  field "created_by" .required Json.text fun r x => { r with createdBy := x },
  field "updated_by" .required Json.text fun r x => { r with updatedBy := x }]

/-- Reads a pending-journey row. -/
def ofJson : Tree → Except ReadError PendingJourneyRecord :=
  Json.record fields (ofJourney "" "" .none)

/-- The pending-journey row as JSON. -/
def toJson (r : PendingJourneyRecord) : Value :=
  .object [("client_code", .string r.client),
    ("provider", .string r.provider),
    ("pending", .bool r.pending),
    ("payment_pending", .bool r.paymentPending),
    ("kyc_pending", .bool r.kycPending),
    ("invalid_client", .bool r.isInvalid),
    ("api_error", .optional .string r.apiError),
    ("created_by", .string r.createdBy),
    ("updated_by", .string r.updatedBy)]

end PendingJourneyRecord

/-! ### Events -/

namespace Tenure

/-- The fields of a term. -/
def fields : List (Field Tree ReadError Tenure) := [
  field "months" .required Json.int32 fun r x => { r with months := x },
  field "days" .required Json.int32 fun r x => { r with days := x }]

/-- Reads a term. -/
def ofJson : Tree → Except ReadError Tenure :=
  Json.record fields zero

/-- The term as JSON. -/
def toJson (r : Tenure) : Value :=
  .object [("months", .int r.months), ("days", .int r.days)]

end Tenure

namespace WebhookEvent

/-- The fields of an event. -/
def fields : List (Field Tree ReadError WebhookEvent) := [
  field "client_code" .required Json.text fun r x => { r with client := x },
  field "vendor" .required Json.text fun r x => { r with vendor := x },
  field "tracking_id" .nullable (Json.optional Json.text) fun r x => { r with trackingId := x },
  field "event_type" .nullable (Json.optional Json.text) fun r x => { r with eventType := x },
  field "institution" .nullable (Json.optional Json.text) fun r x => { r with institution := x },
  field "deposit_type" .nullable (Json.optional Json.text) fun r x => { r with depositType := x },
  field "amount" .nullable (Json.optional Json.decimal) fun r x => { r with amount := x },
  field "tenure" .required Tenure.ofJson fun r x => { r with tenure := x },
  field "failure_reason" .nullable (Json.optional Json.text) fun r x =>
    { r with failureReason := x },
  field "created_by" .required Json.text fun r x => { r with createdBy := x },
  field "updated_by" .required Json.text fun r x => { r with updatedBy := x }]

/-- Reads an event. -/
def ofJson : Tree → Except ReadError WebhookEvent :=
  Json.record fields default

/-- The event as JSON, with amounts written by `amount`. -/
def toJsonWith (amount : Decimal → Value) (r : WebhookEvent) : Value :=
  .object [("client_code", .string r.client),
    ("vendor", .string r.vendor),
    ("tracking_id", .optional .string r.trackingId),
    ("event_type", .optional .string r.eventType),
    ("institution", .optional .string r.institution),
    ("deposit_type", .optional .string r.depositType),
    ("amount", .optional amount r.amount),
    ("tenure", r.tenure.toJson),
    ("failure_reason", .optional .string r.failureReason),
    ("created_by", .string r.createdBy),
    ("updated_by", .string r.updatedBy)]

/-- The event as JSON. -/
def toJson : WebhookEvent → Value :=
  toJsonWith Decimal.toJson

end WebhookEvent

end DepositSync
