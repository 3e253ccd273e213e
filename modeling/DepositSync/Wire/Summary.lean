import DepositSync.Job.Summary
import DepositSync.Json.Value
import DepositSync.Width

/-!
# DepositSync.Wire.Summary

Jobs, modes and run summaries as JSON.
-/

namespace DepositSync

open Json (Tree ReadError Value)

/-- Reads a job. -/
def Job.ofJson : Tree → Except ReadError Job :=
  Json.choice named?

/-- Reads a mode. -/
def RefreshMode.ofJson : Tree → Except ReadError RefreshMode :=
  Json.choice named?

/-- Reads an outcome. -/
def RunOutcome.ofJson : Tree → Except ReadError RunOutcome :=
  Json.choice named?

/-- A value that is read from a text. -/
def Json.fromText {α : Type} (parse? : String → Option α) (t : Tree) : Except ReadError α := do
  ((parse? (← Json.text t)).map .ok).getD (.error .mismatched)

/-- Reads the identifier of a run. -/
def RunId.ofJson : Tree → Except ReadError RunId :=
  Json.fromText parse?

/-- Reads a point in time. -/
def Time.Moment.ofJson : Tree → Except ReadError Time.Moment :=
  Json.fromText parse?

namespace RunReport

/-- The report's members of a summary that come before the times. -/
def head (r : RunReport) : List (String × Value) :=
  [("job", .string r.job.name), ("mode", .string r.mode.name), ("provider", .string r.provider)]

/-- The report's members of a summary that come after the times. -/
def tail (r : RunReport) : List (String × Value) :=
  [("outcome", .string r.outcome.name),
    ("clients", .nat r.tally.clients),
    ("batches_flushed", .nat r.tally.batches),
    ("records_written", .nat r.tally.records),
    ("degraded_records", .nat r.tally.degraded),
    ("invalid_clients", .nat r.tally.invalid),
    ("error", .optional .string r.error)]

/-- The report as JSON. -/
def toJson (r : RunReport) : Value :=
  .object (r.head ++ r.tail)

end RunReport

namespace RunSummary

/-- The largest count. -/
def maxCount : Nat := Width.maxNat 64

/-- A field of the report. -/
def reportField {β : Type} (name : String) (absence : Absence)
    (read : Tree → Except ReadError β) (set : RunReport → β → RunReport) :
    Field Tree ReadError RunSummary :=
  field name absence read fun s x => { s with report := set s.report x }

/-- A count of the report's tally. -/
def countField (name : String) (set : Tally → Nat → Tally) : Field Tree ReadError RunSummary :=
  reportField name .required (Json.natural maxCount) fun r x => { r with tally := set r.tally x }

/-- The fields of a summary. -/
def fields : List (Field Tree ReadError RunSummary) := [
  field "run_id" .required RunId.ofJson fun s x => { s with id := x },
  reportField "job" .required Job.ofJson fun r x => { r with job := x },
  reportField "mode" .required RefreshMode.ofJson fun r x => { r with mode := x },
  reportField "provider" .required Json.text fun r x => { r with provider := x },
  field "started_at" .required Time.Moment.ofJson fun s x => { s with startedAt := x },
  field "finished_at" .required Time.Moment.ofJson fun s x => { s with finishedAt := x },
  reportField "outcome" .required RunOutcome.ofJson fun r x => { r with outcome := x },
  countField "clients" fun t x => { t with clients := x },
  countField "batches_flushed" fun t x => { t with batches := x },
  countField "records_written" fun t x => { t with records := x },
  countField "degraded_records" fun t x => { t with degraded := x },
  countField "invalid_clients" fun t x => { t with invalid := x },
  reportField "error" .nullable (Json.optional Json.text) fun r x => { r with error := x }]

/-- Reads a summary. -/
def ofJson : Tree → Except ReadError RunSummary :=
  Json.record fields default

/-- The summary as JSON. -/
def toJson (s : RunSummary) : Value :=
  .object (("run_id", .string s.id.text) :: s.report.head ++
    ("started_at", .string s.startedAt.text) ::
    ("finished_at", .string s.finishedAt.text) :: s.report.tail)

end RunSummary

end DepositSync
