import DepositSync.Holdings
import DepositSync.Http.Message
import DepositSync.Json.Reading
import DepositSync.Vendor.Backoff
import DepositSync.Vendor.Error

/-!
# DepositSync.Vendor.Report

What the vendor's answers say. A success holds a report in JSON; any other answer is a rejection, or
makes no sense. A report may leave out whatever is zero or false.
-/

namespace DepositSync

open Json (Tree ReadError Document)

/-! ### Reports -/

/-- Reads an amount of money, of which only the number counts. -/
def readMoney : Tree → Except ReadError Decimal :=
  Json.record [field "amount" .defaulted Json.decimal fun _ x => x] .zero

/-- The fields of a report on a net worth. -/
def NetWorth.reportFields : List (Field Tree ReadError NetWorth) := [
  field "totalInvestedAmount" .defaulted readMoney fun r x => { r with invested := x },
  field "totalInterestEarned" .defaulted readMoney fun r x => { r with interest := x },
  field "currentAmount" .defaulted readMoney fun r x => { r with current := x },
  field "activeTermDepositCount" .defaulted Json.int32 fun r x => { r with activeDeposits := x }]

/-- Reads a report on a net worth. -/
def NetWorth.ofReport : Tree → Except ReadError NetWorth :=
  Json.record reportFields .none

/-- The fields of a report on a journey. -/
def Journey.reportFields : List (Field Tree ReadError Journey) := [
  field "journeyPending" .defaulted Json.bool fun r x => { r with pending := x },
  field "journeyPendingOnPayment" .defaulted Json.bool fun r x => { r with paymentPending := x },
  field "journeyPendingOnVkyc" .defaulted Json.bool fun r x => { r with kycPending := x }]

/-- Reads a report on a journey. -/
def Journey.ofReport : Tree → Except ReadError Journey :=
  Json.record reportFields .none

/-- An access token as the vendor grants it: for how many seconds it is good. -/
structure TokenGrant where
  value : String
  lifetime : Int
  deriving DecidableEq, Repr, Inhabited

/-- The fields of a grant. -/
def TokenGrant.fields : List (Field Tree ReadError TokenGrant) := [
  field "access_token" .required Json.text fun r x => { r with value := x },
  field "expires_in" .defaulted Json.int64 fun r x => { r with lifetime := x }]

/-- Reads a grant. -/
def TokenGrant.ofJson : Tree → Except ReadError TokenGrant :=
  Json.record fields ⟨"", 0⟩

/-! ### Answers -/

/-- What a body says in an answer with this status. -/
def readBody {α : Type} (read : Tree → Except ReadError α) (status : Nat) (body : String) :
    Except VendorError α :=
  if isSuccess status then
    match (Document.ofText body).read read with
    | .ok a => .ok a
    | .error _ => .error (.ofUnreadable status body)
  else .error (.ofBody status body)

/-- What an answer says. -/
def readAnswer {α : Type} (read : Tree → Except ReadError α) (r : Http.Response) :
    Except VendorError α :=
  match r.text? with
  | some body => readBody read r.status body
  | none => .error (.transport .bodyCut)

end DepositSync
