/-!
# DepositSync.Job.Name

The background jobs and the ways they can run.
-/

namespace DepositSync

/-- The background jobs. -/
inductive Job where
  | tokenRenewal
  | portfolioUpdate
  | pendingJourneyUpdate
  deriving DecidableEq, Repr, Inhabited

namespace Job

/-- All jobs, in the order in which they are scheduled. -/
def all : List Job := [tokenRenewal, portfolioUpdate, pendingJourneyUpdate]

/-- The job's name. -/
def name : Job → String
  | tokenRenewal => "token_renewal"
  | portfolioUpdate => "portfolio_update"
  | pendingJourneyUpdate => "pending_journey_update"

/-- The key of the job's cron expression among the settings. -/
def cronKey : Job → String
  | tokenRenewal => "tokenRenewalCron"
  | portfolioUpdate => "portfolioUpdateCron"
  | pendingJourneyUpdate => "pendingJourneyUpdateCron"

/-- The job of a name. -/
def named? (s : String) : Option Job :=
  all.find? (·.name == s)

@[simp] theorem mem_all (j : Job) : j ∈ all := by
  cases j <;> decide

@[simp] theorem named?_name (j : Job) : named? j.name = some j := by
  cases j <;> rfl

end Job

/-- Which clients a run covers, and how it ends. -/
inductive RefreshMode where
  /-- Every client that is not invalid; stale rows are deleted at the end. -/
  | scheduled
  /-- Only the clients for which a refresh was asked; the requests are cleared at the end. -/
  | instant
  deriving DecidableEq, Repr, Inhabited

namespace RefreshMode

/-- The mode's name. -/
def name : RefreshMode → String
  | scheduled => "scheduled"
  | instant => "instant"

/-- The mode of a name. -/
def named? (s : String) : Option RefreshMode :=
  [scheduled, instant].find? (·.name == s)

/-- The mode an operator asks for: anything but `instant` is a scheduled run. -/
def ofRefresher (s : String) : RefreshMode :=
  if s = instant.name then instant else scheduled

def isInstant : RefreshMode → Bool
  | scheduled => false
  | instant => true

@[simp] theorem named?_name (m : RefreshMode) : named? m.name = some m := by
  cases m <;> rfl

@[simp] theorem ofRefresher_name (m : RefreshMode) : ofRefresher m.name = m := by
  cases m <;> rfl

end RefreshMode

/-- How a run ended. -/
inductive RunOutcome where
  | completed
  | aborted
  /-- The job is switched off, and the run did nothing. -/
  | disabled
  deriving DecidableEq, Repr, Inhabited

namespace RunOutcome

/-- The outcome's name. -/
def name : RunOutcome → String
  | completed => "completed"
  | aborted => "aborted"
  | disabled => "disabled"

/-- The outcome of a name. -/
def named? (s : String) : Option RunOutcome :=
  [completed, aborted, disabled].find? (·.name == s)

@[simp] theorem named?_name (o : RunOutcome) : named? o.name = some o := by
  cases o <;> rfl

end RunOutcome

end DepositSync
