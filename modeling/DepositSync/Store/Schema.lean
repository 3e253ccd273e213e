import DepositSync.Record
import DepositSync.Sql.Statement
import DepositSync.WebhookEvent

/-!
# DepositSync.Store.Schema

Which tables there are, and which column holds what. Each kind of row lists its columns once; the
statements on its table are made from this list, so that a column and the value that goes into it
stand together. A table has one more column, which says whether a refresh was asked for: a job
never writes it with a row.
-/

namespace DepositSync

open Sql (Value Literal Condition StoredRow)

/-- A column of rows `ρ`: its name, and what it holds. -/
structure Column (ρ : Type) where
  name : String
  value : ρ → Value

/-- Rows that are kept in a table. -/
class Stored (ρ : Type) where
  table : String
  /-- The columns that are written with a row, in their order. -/
  columns : List (Column ρ)
  /-- When a row holds nothing worth keeping. -/
  staleWhen : List Condition

/-! ### Names that several statements share -/

def clientColumn : String := "client_code"

def providerColumn : String := "provider"

def invalidColumn : String := "invalid_client"

def refreshColumn : String := "to_be_refreshed"

def createdByColumn : String := "created_by"

def updatedByColumn : String := "updated_by"

def updatedAtColumn : String := "updated_at"

/-- The columns that tell rows apart. -/
def keyColumns : List String := [clientColumn, providerColumn]

/-! ### Rows that are kept in step with the vendor -/

instance : Stored PortfolioRecord where
  table := "portfolio"
  columns := [
    ⟨clientColumn, fun r => .text r.client⟩,
    ⟨providerColumn, fun r => .text r.provider⟩,
    ⟨"total_active_deposits", fun r => .integer r.activeDeposits⟩,
    ⟨"invested_value", fun r => .amount r.invested⟩,
    ⟨"current_value", fun r => .amount r.current⟩,
    ⟨"interest_earned", fun r => .amount r.interest⟩,
    ⟨"returns_value", fun r => .amount r.returns⟩,
    ⟨"returns_percentage", fun r => .amount r.returnsPercentage⟩,
    ⟨createdByColumn, fun r => .text r.createdBy⟩,
    ⟨updatedByColumn, fun r => .text r.updatedBy⟩,
    ⟨invalidColumn, fun r => .flag r.isInvalid⟩,
    ⟨"api_error", fun r => .text r.apiError⟩]
  staleWhen := [.is "total_active_deposits" .zero, .is invalidColumn (.flag false)]

instance : Stored PendingJourneyRecord where
  table := "pending_journey"
  columns := [
    ⟨clientColumn, fun r => .text r.client⟩,
    ⟨providerColumn, fun r => .text r.provider⟩,
    ⟨"pending", fun r => .flag r.pending⟩,
    ⟨"payment_pending", fun r => .flag r.paymentPending⟩,
    ⟨"kyc_pending", fun r => .flag r.kycPending⟩,
    ⟨createdByColumn, fun r => .text r.createdBy⟩,
    ⟨updatedByColumn, fun r => .text r.updatedBy⟩,
    ⟨invalidColumn, fun r => .flag r.isInvalid⟩,
    ⟨"api_error", fun r => .text r.apiError⟩]
  staleWhen := [.is "pending" (.flag false), .is invalidColumn (.flag false)]

/-- A row as a database keeps it. -/
def Stored.row {ρ : Type} [Stored ρ] (r : ρ) : StoredRow :=
  columns.map fun c : Column ρ => (c.name, c.value r)

/-! ### Events -/

/-- A column of the events, and which value is kept as null. -/
structure EventColumn where
  name : String
  value : WebhookEvent → Value
  nullIf : Option Literal

/-- The table of the events. -/
def eventTable : String := "webhook_events"

/-- The columns of the events, in their order. Empty names of vendors and figures that are zero are
kept as null. -/
def eventColumns : List EventColumn := [
  ⟨clientColumn, fun e => .text e.client, none⟩,
  ⟨"vendor", fun e => .text e.vendor, some .emptyText⟩,
  ⟨"tracking_id", fun e => .text e.trackingId, none⟩,
  ⟨"event_type", fun e => .text e.eventType, none⟩,
  ⟨"institution", fun e => .text e.institution, none⟩,
  ⟨"type", fun e => .text e.depositType, none⟩,
  ⟨"amount", fun e => .amount e.amount, some .zero⟩,
  ⟨"tenure_months", fun e => .integer e.tenure.months, some .zero⟩,
  ⟨"tenure_days", fun e => .integer e.tenure.days, some .zero⟩,
  ⟨"failure_reason", fun e => .text e.failureReason, none⟩,
  ⟨createdByColumn, fun e => .text e.createdBy, none⟩,
  ⟨updatedByColumn, fun e => .text e.updatedBy, none⟩]

end DepositSync
