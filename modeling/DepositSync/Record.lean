import DepositSync.Holdings

/-!
# DepositSync.Record

The rows that are kept in step with the vendor: one portfolio row and one pending-journey row for
each client of a provider. When the vendor rejects a client, the row says so and holds nothing;
a client the vendor does not know is marked invalid, and such a row is never stale.
-/

namespace DepositSync

/-- The only vendor that is connected. -/
def upswingProvider : String := "upswing"

/-- Who wrote a row last. -/
inductive Actor where
  | portfolioJob
  | pendingJourneyJob
  | portfolioRefresher
  | pendingJourneyRefresher
  | webhook
  deriving DecidableEq, Repr

/-- The name under which an actor signs. -/
def Actor.name : Actor → String
  | .portfolioJob => "portfolio_update_job"
  | .pendingJourneyJob => "pending_journey_update_job"
  | .portfolioRefresher => "portfolio_refresher_api"
  | .pendingJourneyRefresher => "pending_journey_refresher_api"
  | .webhook => "webhook-api"

/-- What all rows have in common. -/
class Record (ρ : Type) where
  /-- The client. -/
  client : ρ → String
  /-- The provider; client and provider together are the row's key. -/
  provider : ρ → String
  /-- Does the vendor not know the client? -/
  isInvalid : ρ → Bool
  /-- The vendor's reason for rejecting the client. -/
  apiError : ρ → Option String
  /-- Does the row hold nothing worth keeping? -/
  isStale : ρ → Bool
  createdBy : ρ → String
  updatedBy : ρ → String
  /-- The row with another creator. -/
  withCreatedBy : String → ρ → ρ
  /-- The row with another last writer. -/
  withUpdatedBy : String → ρ → ρ

/-- The key of a row: client and provider. -/
def Record.key {ρ : Type} [Record ρ] (r : ρ) : String × String :=
  (client r, provider r)

/-! ### Portfolio rows -/

/-- A client's portfolio. -/
structure PortfolioRecord where
  client : String
  provider : String
  activeDeposits : Int
  invested : Decimal
  current : Decimal
  interest : Decimal
  returns : Decimal
  returnsPercentage : Decimal
  isInvalid : Bool
  apiError : Option String
  createdBy : String
  updatedBy : String
  deriving DecidableEq, Repr, Inhabited

namespace PortfolioRecord

/-- The row for a net worth the vendor reported. -/
def ofNetWorth (client provider : String) (worth : NetWorth) : PortfolioRecord where
  client := client
  provider := provider
  activeDeposits := worth.activeDeposits
  invested := worth.invested
  current := worth.current
  interest := worth.interest
  returns := worth.interest
  returnsPercentage := DepositSync.returnsPercentage worth.invested worth.interest
  isInvalid := false
  apiError := none
  createdBy := Actor.portfolioJob.name
  updatedBy := Actor.portfolioJob.name

/-- The row for a client the vendor rejected: it holds nothing. -/
def degraded (client provider : String) (isInvalid : Bool) (apiError : Option String) :
    PortfolioRecord :=
  { ofNetWorth client provider .none with isInvalid := isInvalid, apiError := apiError }

/-- A row without active deposits is stale, unless the client is invalid. -/
def isStale (r : PortfolioRecord) : Bool :=
  !r.isInvalid && r.activeDeposits == 0

instance : Record PortfolioRecord where
  client := client
  provider := provider
  isInvalid := isInvalid
  apiError := apiError
  isStale := isStale
  createdBy := createdBy
  updatedBy := updatedBy
  withCreatedBy name r := { r with createdBy := name }
  withUpdatedBy name r := { r with updatedBy := name }

end PortfolioRecord

/-! ### Pending-journey rows -/

/-- A client's pending journey. -/
structure PendingJourneyRecord where
  client : String
  provider : String
  pending : Bool
  paymentPending : Bool
  kycPending : Bool
  isInvalid : Bool
  apiError : Option String
  createdBy : String
  updatedBy : String
  deriving DecidableEq, Repr, Inhabited

namespace PendingJourneyRecord

/-- The row for a journey the vendor reported. -/
def ofJourney (client provider : String) (journey : Journey) : PendingJourneyRecord where
  client := client
  provider := provider
  pending := journey.pending
  paymentPending := journey.paymentPending
  kycPending := journey.kycPending
  isInvalid := false
  apiError := none
  createdBy := Actor.pendingJourneyJob.name
  updatedBy := Actor.pendingJourneyJob.name

/-- The row for a client the vendor rejected: nothing is pending. -/
def degraded (client provider : String) (isInvalid : Bool) (apiError : Option String) :
    PendingJourneyRecord :=
  { ofJourney client provider .none with isInvalid := isInvalid, apiError := apiError }

/-- A row without a pending journey is stale, unless the client is invalid. -/
def isStale (r : PendingJourneyRecord) : Bool :=
  !r.isInvalid && !r.pending

instance : Record PendingJourneyRecord where
  client := client
  provider := provider
  isInvalid := isInvalid
  apiError := apiError
  isStale := isStale
  createdBy := createdBy
  updatedBy := updatedBy
  withCreatedBy name r := { r with createdBy := name }
  withUpdatedBy name r := { r with updatedBy := name }

end PendingJourneyRecord

end DepositSync
