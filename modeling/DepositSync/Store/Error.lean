/-!
# DepositSync.Store.Error

The ways in which a call to the database fails.
-/

namespace DepositSync

/-- Why a call to the database failed. -/
inductive StoreError where
  /-- No connection became free in time. -/
  | poolTimedOut
  | poolClosed
  | workerCrashed
  /-- A row was asked for, and there is none. -/
  | rowMissing
  | columnMissing (name : String)
  /-- The database said something that makes no sense. -/
  | protocol (detail : String)
  /-- The connection failed. -/
  | connection (detail : String)
  /-- The database refused the statement. -/
  | server (detail : String)
  /-- A column was null that must not be. -/
  | nullColumn (index : Nat)
  deriving DecidableEq, Repr

namespace StoreError

/-- What the database layer says about the failure. -/
def cause : StoreError → String
  | poolTimedOut => "pool timed out while waiting for an open connection"
  | poolClosed => "attempted to acquire a connection on a closed pool"
  | workerCrashed => "attempted to communicate with a crashed background worker"
  | rowMissing =>
    "no rows returned by a query that expected to return at least one row"
  | columnMissing name => s!"no column found for name: {name}"
  | protocol detail => s!"encountered unexpected or invalid data: {detail}"
  | connection detail => s!"error communicating with database: {detail}"
  | server detail => s!"error returned from database: {detail}"
  | nullColumn index =>
    s!"error occurred while decoding column {index}: unexpected null; try decoding as an `Option`"

/-- What the error says. -/
def message (e : StoreError) : String :=
  s!"database error: {e.cause}"

end StoreError

end DepositSync
