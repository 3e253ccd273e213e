import DepositSync.Job.Name
import DepositSync.Program
import DepositSync.Settings.Application
import DepositSync.Vendor.Error

/-!
# DepositSync.Job.TokenRenewal

The job that keeps the access token fresh ahead of the other jobs. A failure ends the run and goes
no further.
-/

namespace DepositSync

/-- What the job asks of the vendor. -/
inductive TokenCall where
  /-- That the token be renewed if it is missing or about to expire. -/
  | validate
  deriving DecidableEq, Repr

/-- What the call is answered with. -/
abbrev TokenCall.Answer : TokenCall → Type
  | .validate => Except VendorError Unit

/-- Runs the job, if it is switched on. -/
def renewToken (settings : TokenRenewalSettings) : Program TokenCall TokenCall.Answer RunOutcome :=
  if settings.enabled then
    .call .validate fun
      | .ok () => .done .completed
      | .error _ => .done .aborted
  else .done .disabled

end DepositSync
