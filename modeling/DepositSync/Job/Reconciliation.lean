import DepositSync.Job.BatchBuffer
import DepositSync.Job.Entity
import DepositSync.Job.Summary
import DepositSync.Program
import DepositSync.Settings.Application
import DepositSync.Store.Error

/-!
# DepositSync.Job.Reconciliation

One run of a job that keeps a table in step with the vendor: list the clients, ask the vendor about
each of them, write the rows in batches, and finish. A scheduled run finishes by deleting stale
rows, an instant run by clearing the requests for a refresh.

A client the vendor rejects gets a degraded row. Any other failure ends the run at once, before
anything is deleted or cleared; what was buffered is dropped and what was written stays.
-/

namespace DepositSync

variable {ν ρ : Type}

/-! ### Calls -/

/-- What a run asks of the store and of the vendor. -/
inductive Call (ν ρ : Type) where
  /-- The clients of a provider that are not invalid; only those with a request for a refresh if
  `instantOnly`. -/
  | list (provider : String) (instantOnly : Bool)
  /-- What the vendor knows about a client. -/
  | fetch (client : String)
  /-- Writes rows in the places of those with the same keys. -/
  | upsert (rows : List ρ)
  /-- Clears the clients' requests for a refresh. -/
  | mark (provider : String) (clients : List String)
  /-- Deletes stale rows. -/
  | delete

/-- What a call is answered with: the clients, the report, or the number of rows affected. -/
abbrev Call.Answer : Call ν ρ → Type
  | .list _ _ => Except StoreError (List String)
  | .fetch _ => Except VendorError ν
  | .upsert _ => Except StoreError Nat
  | .mark _ _ => Except StoreError Nat
  | .delete => Except StoreError Nat

/-- The calls to the store. -/
inductive StoreCall where
  | listClients
  | upsertBatch
  | markRefreshed
  | deleteStale
  deriving DecidableEq, Repr

/-- The name of a call to the store. -/
def StoreCall.name : StoreCall → String
  | listClients => "list_clients"
  | upsertBatch => "upsert_batch"
  | markRefreshed => "mark_refreshed"
  | deleteStale => "delete_stale"

/-! ### Failures -/

/-- Why a run was aborted. -/
inductive JobError where
  /-- A call to the store failed. -/
  | store (call : StoreCall) (error : StoreError)
  /-- The vendor gave no verdict on a client. -/
  | noVerdict (client : String) (error : VendorError)
  deriving DecidableEq, Repr

/-- What the error says. -/
def JobError.message : JobError → String
  | store call error => s!"{call.name} failed: {error.message}"
  | noVerdict client error => s!"vendor gave no verdict for client {client}: {error.message}"

/-! ### A run -/

/-- How a run ended: what it did, and why it was aborted if it was. -/
abbrev RunEnding := Tally × Option JobError

/-- A run as a tree of calls. -/
abbrev Run (ν ρ : Type) := Program (Call ν ρ) Call.Answer RunEnding

namespace Run

/-- The run is complete. -/
def complete (t : Tally) : Run ν ρ := .done (t, none)

/-- The run is aborted. -/
def abort (t : Tally) (e : JobError) : Run ν ρ := .done (t, some e)

/-- The last call of a run. -/
def finish (mode : RefreshMode) (provider : String) (clients : List String) (t : Tally) :
    Run ν ρ :=
  match mode with
  | .instant => .call (.mark provider clients) fun
    | .ok _ => complete t
    | .error e => abort t (.store .markRefreshed e)
  | .scheduled => .call .delete fun
    | .ok _ => complete t
    | .error e => abort t (.store .deleteStale e)

/-- Writes a batch and goes on. -/
def flush (batch : List ρ) (t : Tally) (next : Tally → Run ν ρ) : Run ν ρ :=
  .call (.upsert batch) fun
    | .ok _ =>
      next { t with batches := t.batches + 1, records := t.records + batch.length }
    | .error e => abort t (.store .upsertBatch e)

/-- Writes what is left in the buffer and goes on. -/
def flushRemaining (buffer : BatchBuffer ρ) (t : Tally) (next : Tally → Run ν ρ) : Run ν ρ :=
  match buffer.takeRemaining with
  | (some batch, _) => flush batch t next
  | (none, _) => next t

/-- Buffers a row, writes the batch if it is full, and goes on. -/
def push (row : ρ) (buffer : BatchBuffer ρ) (t : Tally)
    (next : BatchBuffer ρ → Tally → Run ν ρ) : Run ν ρ :=
  match buffer.push row with
  | (some batch, buffer) => flush batch t (next buffer)
  | (none, buffer) => next buffer t

variable [Entity ν ρ]

/-- The tally after a rejection. -/
def countRejection (ρ : Type) {ν : Type} [Entity ν ρ] (t : Tally) (client : String)
    (e : VendorError) : Tally :=
  { t with
    degraded := t.degraded + 1
    invalid := if Entity.isNotFound ρ e client then t.invalid + 1 else t.invalid }

/-- Asks the vendor about the clients one by one, then goes on with what is left in the buffer. -/
def each (provider : String) (next : BatchBuffer ρ → Tally → Run ν ρ) :
    List String → BatchBuffer ρ → Tally → Run ν ρ
  | [], buffer, t => next buffer t
  | client :: rest, buffer, t => .call (.fetch client) fun
    | .ok report => push (Entity.ofReport client provider report) buffer t (each provider next rest)
    | .error e =>
      if e.abortsRun then abort t (.noVerdict client e)
      else push (Entity.ofError client provider e) buffer (countRejection ρ t client e)
        (each provider next rest)

/-- A whole run. -/
def execute (provider : String) (batchSize : Nat) (mode : RefreshMode) : Run ν ρ :=
  .call (.list provider mode.isInstant) fun
    | .error e => abort .zero (.store .listClients e)
    | .ok clients =>
      each provider (fun buffer t => flushRemaining buffer t (finish mode provider clients))
        clients (.empty batchSize) { Tally.zero with clients := clients.length }

end Run

/-! ### Reports -/

/-- What a run that ended reports. -/
def RunEnding.report (job : Job) (mode : RefreshMode) (provider : String) (ending : RunEnding) :
    RunReport where
  job := job
  mode := mode
  provider := provider
  outcome := if ending.2.isSome then .aborted else .completed
  tally := ending.1
  error := ending.2.map JobError.message

/-- What a job that is switched off reports. -/
def RunReport.disabled (job : Job) (mode : RefreshMode) (provider : String) : RunReport where
  job := job
  mode := mode
  provider := provider
  outcome := .disabled
  tally := .zero
  error := none

/-- How a run is started. -/
inductive Trigger where
  /-- By the scheduler. -/
  | schedule
  /-- By an operator: the job runs even if it is switched off. -/
  | operator
  deriving DecidableEq, Repr

/-- Runs a job. A job that is switched off makes no call when the scheduler starts it. -/
def reconcile (ρ : Type) {ν : Type} [Entity ν ρ] (settings : ReconciliationSettings)
    (trigger : Trigger) (mode : RefreshMode) : Program (Call ν ρ) Call.Answer RunReport :=
  let job := Entity.job ρ
  if trigger = .schedule ∧ settings.enabled = false then
    .done (.disabled job mode settings.provider)
  else
    (Run.execute (ρ := ρ) settings.provider settings.batchSize mode).bind fun ending =>
      .done (ending.report job mode settings.provider)

end DepositSync
