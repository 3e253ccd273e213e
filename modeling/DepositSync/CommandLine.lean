import DepositSync.Connected
import DepositSync.Job.Schedule
import DepositSync.Settings.Load
import DepositSync.Wire.Summary

/-!
# DepositSync.CommandLine

What the program can be asked to do, and what it then does with the connected jobs. The report of a
run is printed also if the run was aborted, in which case the command fails.

The tables are taken to be there: the command that creates them is left out, and so is that
`serve` creates them first. What `serve` prints are the jobs that are scheduled, and it does not go
on to the requests. A report is printed on one line, without the identifier of the run and without
the times at which it started and ended.
-/

namespace DepositSync

/-- What the program is asked to do. -/
inductive Command where
  /-- To schedule the jobs, and to answer requests. -/
  | serve
  /-- To run one job once. -/
  | runJob (target : Web.Target) (mode : RefreshMode)
  /-- To make sure that the vendor grants a token. -/
  | validateToken
  deriving DecidableEq, Repr

/-- Why a command failed. -/
inductive CommandError where
  | notConnected (e : StoreError)
  | notScheduled (e : ScheduleError)
  | noToken (e : VendorError)
  | aborted (report : RunReport)
  /-- A point in time was needed that is beyond the supported calendar. -/
  | beyondCalendar
  deriving DecidableEq, Repr

/-- What the error says. -/
def CommandError.message : CommandError → String
  | notConnected e => s!"connecting to postgres: {e.message}"
  | notScheduled e => e.message
  | noToken e => s!"validating upswing token: {e.message}"
  | aborted report => s!"{report.job.name} aborted: " ++ report.error.getD "unknown error"
  | beyondCalendar => "a point in time is beyond the supported calendar"

/-- What comes of a command. -/
structure CommandResult where
  /-- What is printed, if anything is. -/
  printed : Option String
  /-- Why the command failed, if it did. -/
  failure : Option CommandError
  deriving DecidableEq, Repr

namespace CommandResult

/-- A command that did what was asked for, and says so. -/
def done (text : String) : CommandResult := ⟨some text, none⟩

/-- A command that failed, with nothing to show. -/
def failed (e : CommandError) : CommandResult := ⟨none, some e⟩

/-- The report of a run. -/
def ofReport (report : RunReport) : CommandResult where
  printed := some report.toJson.text
  failure := if report.outcome = .aborted then some (.aborted report) else none

/-- A token that the vendor granted, which may have been given up again. -/
def ofToken (held : Option Token) : CommandResult where
  printed := held.map fun token => s!"upswing token valid until {token.expiresAt.shown}"
  failure := none

end CommandResult

namespace Command

/-- How the program is called. -/
def usage : String :=
  "usage: deposit-sync [serve | run-job (portfolio | pending-journey) [--instant] | validate-token]"

/-- The word that asks for instant runs. -/
def instantWord : String := "--instant"

/-- The target of a word. -/
def target? : String → Option Web.Target
  | "portfolio" => some .portfolio
  | "pending-journey" => some .pendingJourney
  | _ => none

/-- The command that runs a job. -/
def runJob? (words : List String) : Option Command :=
  let mode := if words.contains instantWord then RefreshMode.instant else .scheduled
  match words.erase instantWord with
  | [word] => (target? word).map fun t => .runJob t mode
  | _ => none

/-- The command that the words ask for, if they ask for one. -/
def ofWords? : List String → Option Command
  | [] => some .serve
  | ["serve"] => some .serve
  | ["validate-token"] => some .validateToken
  | "run-job" :: words => runJob? words
  | _ => none

/-- Goes on once there is a connection to the database. -/
def whenConnected (s : Settings) (next : Connected CommandResult) : Connected CommandResult := do
  match ← Connected.connect s with
  | .ok () => next
  | .error e => return .failed (.notConnected e)

/-- Does what is asked for. -/
def perform (s : Settings) : Command → Connected CommandResult
  | .serve => whenConnected s do
    discard (Connected.renewToken s)
    match scheduleAll (if s.schedulerEnabled then s.crons else []) Job.all with
    | .ok jobs => return .done (", ".intercalate (jobs.map (·.job.name)))
    | .error e => return .failed (.notScheduled e)
  | .runJob target mode => whenConnected s do
    return .ofReport (← Connected.refresh s target .operator mode)
  | .validateToken => do
    match ← Connected.exchange (DepositSync.validateToken s.vendor) with
    | .ok () => return .ofToken (← get).held
    | .error e => return .failed (.noToken e)

end Command

/-- What the error says to one who starts the program. -/
def SettingsError.message : SettingsError → String
  | unreadable why => s!"reading config: {why.message}"
  | malformed => "parsing config failed"
  | invalid complaint => invalidMessage complaint

end DepositSync
