import DepositSync.Cron.Expression
import DepositSync.Settings.Application

/-!
# DepositSync.Job.Schedule

Which jobs run on a schedule. A job without a cron expression is left out; one whose expression
cannot be used keeps every job from being scheduled.
-/

namespace DepositSync

/-- A job with the schedule it runs on. -/
structure ScheduledJob where
  job : Job
  schedule : Cron.Expression
  deriving DecidableEq, Repr, Inhabited

/-- A job's cron expression cannot be used. -/
structure ScheduleError where
  job : Job
  cron : String
  deriving DecidableEq, Repr, Inhabited

/-- The error as text. -/
def ScheduleError.message (e : ScheduleError) : String :=
  s!"creating scheduler job {e.job.name} for cron {e.cron}"

/-- The schedule of a job, if it has one. -/
def scheduleOf (crons : Dictionary) (job : Job) : Except ScheduleError (Option ScheduledJob) :=
  match cronFor crons job with
  | none => .ok none
  | some cron => match Cron.Expression.ofText? cron with
    | some schedule => .ok (some ⟨job, schedule⟩)
    | none => .error ⟨job, cron⟩

/-- The schedules of the jobs, in their order. -/
def scheduleAll (crons : Dictionary) : List Job → Except ScheduleError (List ScheduledJob)
  | [] => .ok []
  | job :: rest => do
    let first ← scheduleOf crons job
    let others ← scheduleAll crons rest
    pure (first.toList ++ others)

end DepositSync
