import DepositSync.Job.Name
import DepositSync.Record
import DepositSync.Vendor.Error

/-!
# DepositSync.Job.Entity

The two kinds of rows that are kept in step with the vendor, and what is particular to each: which
job does it, what the vendor reports, what row a report or a rejection becomes, and when a
rejection means that the vendor does not know the client.
-/

namespace DepositSync

/-- A kind of rows `ρ`, for which the vendor reports a `ν`. -/
class Entity (ν : outParam Type) (ρ : Type) extends Record ρ where
  /-- The job that keeps the rows in step. -/
  job : Job
  /-- Who signs when requests for a refresh are cleared. -/
  refresher : Actor
  /-- The row for a report. -/
  ofReport : (client provider : String) → ν → ρ
  /-- The row for a client the vendor rejected. -/
  degraded : (client provider : String) → (isInvalid : Bool) → (apiError : Option String) → ρ
  /-- The code with which the vendor says that it does not know a client. -/
  notFoundCode : (client : String) → String

namespace Entity

variable {ν ρ : Type} [Entity ν ρ]

/-- Does the error say that the vendor does not know the client? -/
def isNotFound (ρ : Type) {ν : Type} [Entity ν ρ] (e : VendorError) (client : String) : Bool :=
  e.code? == some (notFoundCode ρ client)

/-- The row for a client whose call failed with an error. -/
def ofError (client provider : String) (e : VendorError) : ρ :=
  degraded client provider (isNotFound ρ e client) e.apiError?

end Entity

instance : Entity NetWorth PortfolioRecord where
  job := .portfolioUpdate
  refresher := .portfolioRefresher
  ofReport := PortfolioRecord.ofNetWorth
  degraded := PortfolioRecord.degraded
  notFoundCode _ := VendorError.netWorthNotFound

instance : Entity Journey PendingJourneyRecord where
  job := .pendingJourneyUpdate
  refresher := .pendingJourneyRefresher
  ofReport := PendingJourneyRecord.ofJourney
  degraded := PendingJourneyRecord.degraded
  notFoundCode := VendorError.pendingJourneyNotFound

end DepositSync
