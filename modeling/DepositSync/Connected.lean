import DepositSync.Job.Reconciliation
import DepositSync.Job.TokenRenewal
import DepositSync.Store.Database
import DepositSync.Vendor.Client
import DepositSync.Web.Router

/-!
# DepositSync.Connected

The jobs with the vendor's client and the database behind them. A call of a job becomes an exchange
with one of the two. All jobs share one token cache, which is kept from call to call.
-/

namespace DepositSync

/-! ### The world outside -/

/-- What the connected jobs ask of the world. -/
inductive WorldCall where
  /-- A call of the vendor's client. -/
  | vendor (c : ClientCall)
  /-- To connect to the database. -/
  | connect (pool : PoolSettings)
  /-- A statement for the database. -/
  | database (q : Sql.Query)
  deriving DecidableEq, Repr

/-- What a call is answered with. -/
abbrev WorldCall.Answer : WorldCall → Type
  | .vendor c => c.Answer
  | .connect _ => Except StoreError Unit
  | .database _ => Except StoreError Reply

/-- A computation that calls the world. -/
abbrev World := Program WorldCall WorldCall.Answer

/-- An exchange with the vendor, as part of the world. -/
def World.ofExchange {α : Type} (p : Exchange α) : World α :=
  p.runM fun c => Program.call (.vendor c) .done

/-- An exchange with the database, as part of the world. -/
def World.ofSession {α : Type} (p : Session α) : World α :=
  p.runM fun q => Program.call (.database q) .done

/-! ### The jobs -/

/-- A computation that keeps the token cache. It has no result if a point in time was needed that is
beyond the supported calendar. -/
abbrev Connected := StateT TokenCache (OptionT World)

namespace Connected

/-- An exchange with the vendor's client. -/
def exchange {α : Type} (p : TokenCache → Exchange (Held α)) :
    Connected (Except VendorError α) := fun cache => do
  match ← OptionT.lift (World.ofExchange (p cache)) with
  | (cache, .ok a) => pure (.ok a, cache)
  | (cache, .error (.vendor e)) => pure (.error e, cache)
  | (_, .error .beyondCalendar) => failure

/-- An exchange with the database. -/
def session {α : Type} (p : Session α) : Connected α := fun cache => do
  return (← OptionT.lift (World.ofSession p), cache)

/-- Connects to the database. -/
def connect (s : Settings) : Connected (Except StoreError Unit) := fun cache => do
  return (← OptionT.lift (Program.call (.connect s.database.pool) .done), cache)

variable {ν ρ : Type} [Entity ν ρ] [Stored ρ]

/-- Answers a call of a run; `fetch` asks the vendor. -/
def answer (fetch : String → TokenCache → Exchange (Held ν)) : (c : Call ν ρ) → Connected c.Answer
  | .list provider instantOnly => session (listClients ρ provider instantOnly)
  | .fetch client => exchange (fetch client)
  | .upsert rows => session (upsertBatch rows)
  | .mark provider clients => session (markRefreshed ρ (Entity.refresher ρ) provider clients)
  | .delete => session (deleteStale ρ)

/-- Answers a call about the token. -/
def answerToken (s : VendorSettings) : (c : TokenCall) → Connected c.Answer
  | .validate => exchange (validateToken s)

/-- A run of one of the jobs that keep a table in step. -/
def refresh (s : Settings) (target : Web.Target) (trigger : Trigger) (mode : RefreshMode) :
    Connected RunReport :=
  match target with
  | .portfolio => (reconcile PortfolioRecord s.jobs.portfolio trigger mode).runM
      (answer (fetchNetWorth s.vendor))
  | .pendingJourney => (reconcile PendingJourneyRecord s.jobs.pendingJourney trigger mode).runM
      (answer (fetchJourney s.vendor))

/-- A run of the job that renews the token. -/
def renewToken (s : Settings) : Connected RunOutcome :=
  (DepositSync.renewToken s.jobs.tokenRenewal).runM (answerToken s.vendor)

end Connected

end DepositSync
