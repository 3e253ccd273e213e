import DepositSync.Job.Lane
import DepositSync.Job.Reconciliation
import DepositSync.Job.TokenRenewal
import DepositSync.Store.Table
import DepositSync.Web.Service

/-!
# DepositSync.Rehearsal

The whole service in memory: tables instead of a database, and a vendor whose answers are set by
hand. Calls to the store can be made to fail, and every call is logged. A store call is logged
before it does its work, and a call that fails leaves the tables alone.
-/

namespace DepositSync

/-- A failure to come: the error, and how many calls will still succeed before it. -/
structure PlannedFailure where
  error : StoreError
  after : Nat
  deriving Repr

/-- The next call under a plan: the error if it fails, and the plan that is left. -/
def PlannedFailure.strike? : Option PlannedFailure → Option StoreError × Option PlannedFailure
  | none => (none, none)
  | some ⟨error, 0⟩ => (some error, none)
  | some ⟨error, n + 1⟩ => (none, some ⟨error, n⟩)

/-- The store of one job in memory: its table, with the vendor's answers about the clients in it and
the failures to come. -/
structure MemoryStore (ν ρ : Type) where
  table : Table ρ
  /-- The vendor's answers by client. -/
  replies : List (String × Except VendorError ν)
  /-- The vendor's answer about any other client. -/
  fallback : ν
  failures : List (StoreCall × PlannedFailure)

namespace MemoryStore

variable {ν ρ : Type}

/-- The vendor's answer about a client. -/
def reply (s : MemoryStore ν ρ) (client : String) : Except VendorError ν :=
  ((s.replies.find? (·.1 == client)).map Prod.snd).getD (.ok s.fallback)

/-- Sets the vendor's answer about a client. -/
def setReply (s : MemoryStore ν ρ) (client : String) (answer : Except VendorError ν) :
    MemoryStore ν ρ :=
  { s with replies := (client, answer) :: s.replies }

/-- Plans a failure, instead of the one that was planned for the same call. -/
def plan (s : MemoryStore ν ρ) (call : StoreCall) (failure : PlannedFailure) : MemoryStore ν ρ :=
  { s with failures := (call, failure) :: s.failures.filter (·.1 != call) }

/-- The next call of a kind: the error if it fails, and the store with the plan that is left. -/
def strike (s : MemoryStore ν ρ) (call : StoreCall) : Option StoreError × MemoryStore ν ρ :=
  let planned := (s.failures.find? (·.1 == call)).map Prod.snd
  let (error, left) := PlannedFailure.strike? planned
  let others := s.failures.filter (·.1 != call)
  (error, { s with failures := (left.map fun f => (call, f)).toList ++ others })

/-- A call that changes the table. -/
def change (s : MemoryStore ν ρ) (call : StoreCall) (f : Table ρ → Table ρ) :
    Except StoreError Nat × MemoryStore ν ρ :=
  match s.strike call with
  | (some e, s) => (.error e, s)
  | (none, s) => (.ok 0, { s with table := f s.table })

variable [Entity ν ρ]

/-- Answers a call. -/
def answer (s : MemoryStore ν ρ) : (c : Call ν ρ) → c.Answer × MemoryStore ν ρ
  | .list provider instantOnly =>
    match s.strike .listClients with
    | (some e, s) => (.error e, s)
    | (none, s) => (.ok (s.table.list provider instantOnly), s)
  | .fetch client => (s.reply client, s)
  | .upsert rows => s.change .upsertBatch (Table.upsert rows)
  | .mark provider clients =>
    s.change .markRefreshed (Table.mark (Entity.refresher ρ).name provider clients)
  | .delete => s.change .deleteStale Table.deleteStale

/-- Did a call to the store fail? -/
def failed : (c : Call ν ρ) → c.Answer → Bool
  | .list _ _, .error _ => true
  | .upsert _, .error _ => true
  | .mark _ _, .error _ => true
  | .delete, .error _ => true
  | _, _ => false

end MemoryStore

/-- One line of the log. -/
inductive LogEntry where
  /-- A call about portfolio rows, and whether it failed. -/
  | portfolio (call : Call NetWorth PortfolioRecord) (failed : Bool)
  /-- A call about pending-journey rows, and whether it failed. -/
  | pendingJourney (call : Call Journey PendingJourneyRecord) (failed : Bool)
  /-- The token was validated. -/
  | validateToken
  /-- An event was to be stored. -/
  | saveEvent (event : WebhookEvent) (failed : Bool)

/-- The service in memory. -/
structure Rehearsal where
  settings : JobsSettings
  webhookToken : Option String
  portfolio : MemoryStore NetWorth PortfolioRecord
  pendingJourney : MemoryStore Journey PendingJourneyRecord
  /-- Why the vendor gives no token, if it does not. -/
  tokenFailure : Option String
  eventFailure : Option PlannedFailure
  events : List WebhookEvent
  log : List LogEntry

namespace Rehearsal

/-- What the vendor says about a client's net worth where nothing else is set. -/
def usualNetWorth : NetWorth := ⟨.ofInt 1000, .ofInt 1075, .ofInt 75, 1⟩

/-- What the vendor says about a client's journey where nothing else is set. -/
def usualJourney : Journey := ⟨true, false, true⟩

/-- A service with rows in its tables. -/
def start (settings : JobsSettings) (webhookToken : Option String)
    (portfolio : Table PortfolioRecord) (pendingJourney : Table PendingJourneyRecord) :
    Rehearsal where
  settings := settings
  webhookToken := webhookToken
  portfolio := ⟨portfolio, [], usualNetWorth, []⟩
  pendingJourney := ⟨pendingJourney, [], usualJourney, []⟩
  tokenFailure := none
  eventFailure := none
  events := []
  log := []

/-- Adds a line to the log. -/
def note (entry : LogEntry) (r : Rehearsal) : Rehearsal :=
  { r with log := r.log ++ [entry] }

/-- Answers a call about portfolio rows. -/
def answerPortfolio (c : Call NetWorth PortfolioRecord) (r : Rehearsal) : c.Answer × Rehearsal :=
  let (answer, store) := r.portfolio.answer c
  (answer, note (.portfolio c (MemoryStore.failed c answer)) { r with portfolio := store })

/-- Answers a call about pending-journey rows. -/
def answerPendingJourney (c : Call Journey PendingJourneyRecord) (r : Rehearsal) :
    c.Answer × Rehearsal :=
  let (answer, store) := r.pendingJourney.answer c
  (answer,
    note (.pendingJourney c (MemoryStore.failed c answer)) { r with pendingJourney := store })

/-- Answers a call about the token. -/
def answerToken (c : TokenCall) (r : Rehearsal) : c.Answer × Rehearsal :=
  match c with
  | .validate =>
    (match r.tokenFailure with
      | none => .ok ()
      | some reason => .error (.token reason), r.note .validateToken)

/-- Runs of one job that are started together. -/
def refreshTogether (target : Web.Target) (runs : List (Trigger × RefreshMode)) (r : Rehearsal) :
    List RunReport × Rehearsal :=
  match target with
  | .portfolio =>
    let lane := runs.foldl (fun lane (trigger, mode) =>
      lane.enter (reconcile PortfolioRecord r.settings.portfolio trigger mode)) Lane.idle
    lane.settle answerPortfolio r
  | .pendingJourney =>
    let lane := runs.foldl (fun lane (trigger, mode) =>
      lane.enter (reconcile PendingJourneyRecord r.settings.pendingJourney trigger mode)) Lane.idle
    lane.settle answerPendingJourney r

/-- A run of one job. -/
def refresh (target : Web.Target) (trigger : Trigger) (mode : RefreshMode) (r : Rehearsal) :
    RunReport × Rehearsal :=
  match target with
  | .portfolio =>
    (reconcile PortfolioRecord r.settings.portfolio trigger mode).run answerPortfolio r
  | .pendingJourney =>
    (reconcile PendingJourneyRecord r.settings.pendingJourney trigger mode).run
      answerPendingJourney r

/-- A run of the job that renews the token. -/
def renewToken (r : Rehearsal) : RunOutcome × Rehearsal :=
  (DepositSync.renewToken r.settings.tokenRenewal).run answerToken r

/-- The target that a job refreshes, if it does. -/
def targetOf : Job → Option Web.Target
  | .portfolioUpdate => some .portfolio
  | .pendingJourneyUpdate => some .pendingJourney
  | .tokenRenewal => none

/-- The scheduler starts a job. -/
def fire (job : Job) (r : Rehearsal) : Rehearsal :=
  match targetOf job with
  | some target => (r.refresh target .schedule .scheduled).2
  | none => r.renewToken.2

/-- Stores an event. -/
def save (event : WebhookEvent) (r : Rehearsal) : Except StoreError Unit × Rehearsal :=
  match PlannedFailure.strike? r.eventFailure with
  | (some e, left) => (.error e, note (.saveEvent event true) { r with eventFailure := left })
  | (none, left) =>
    (.ok (), note (.saveEvent event false)
      { r with eventFailure := left, events := r.events ++ [event] })

/-- Answers a call of the HTTP surface. -/
def answerService (c : Web.ServiceCall) (r : Rehearsal) : c.Answer × Rehearsal :=
  match c with
  | .refresh target mode =>
    let (report, r) := r.refresh target .operator mode
    (⟨⟨0⟩, ⟨0, 0⟩, ⟨0, 0⟩, report⟩, r)
  | .save event => r.save event

/-- Answers a request to the HTTP surface. -/
def respond (request : Web.Request) (r : Rehearsal) : Web.Response × Rehearsal :=
  (Web.serve r.webhookToken request).run answerService r

end Rehearsal

end DepositSync
