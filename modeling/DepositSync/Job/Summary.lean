import DepositSync.Job.Name
import DepositSync.Job.RunId
import DepositSync.Time.Rfc3339

/-!
# DepositSync.Job.Summary

What one run of a job did. The tally counts as the run goes; the summary adds what the run was
and how it ended.
-/

namespace DepositSync

/-- What a run has done so far. -/
structure Tally where
  /-- Clients listed. -/
  clients : Nat
  /-- Batches written. -/
  batches : Nat
  /-- Rows written. -/
  records : Nat
  /-- Clients the vendor rejected. -/
  degraded : Nat
  /-- Clients the vendor does not know. -/
  invalid : Nat
  deriving DecidableEq, Repr, Inhabited

/-- Nothing done yet. -/
def Tally.zero : Tally := ⟨0, 0, 0, 0, 0⟩

/-- What a run was and how it ended. -/
structure RunReport where
  job : Job
  mode : RefreshMode
  provider : String
  outcome : RunOutcome
  tally : Tally
  error : Option String
  deriving DecidableEq, Repr, Inhabited

/-- A report with the run's identifier and times. -/
structure RunSummary where
  id : RunId
  startedAt : Time.Moment
  finishedAt : Time.Moment
  report : RunReport
  deriving DecidableEq, Repr, Inhabited

end DepositSync
