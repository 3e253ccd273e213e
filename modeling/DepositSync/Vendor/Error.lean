import DepositSync.Json.Value
import DepositSync.Text.Blank

/-!
# DepositSync.Vendor.Error

The ways in which a call to the vendor fails. Only a rejection, `api`, is a verdict on the client;
every other failure says nothing about the client, and a run that meets one must stop.
-/

namespace DepositSync

/-- Why no readable answer came. -/
inductive TransportFailure where
  /-- The request could not be made: its address or one of its headers is not valid. -/
  | notBuilt
  /-- The request could not be sent, or the connection closed without an answer. -/
  | notAnswered (url : String)
  /-- The answer's body is cut off. -/
  | bodyCut
  deriving DecidableEq, Repr

/-- What the failure says. -/
def TransportFailure.message : TransportFailure → String
  | .notBuilt => "builder error"
  | .notAnswered url => s!"error sending request for url ({url})"
  | .bodyCut => "error decoding response body"

/-- Why a call to the vendor failed. -/
inductive VendorError where
  /-- The vendor rejected the request, with a code or a message of its own if it gave one. -/
  | api (status : Nat) (code message : Option String)
  /-- The body of the answer makes no sense; the beginning of it is kept. -/
  | malformed (status : Nat) (body : String)
  /-- No readable answer came. -/
  | transport (failure : TransportFailure)
  /-- There is no access token. -/
  | token (reason : String)
  deriving DecidableEq, Repr

namespace VendorError

/-- What the error says. -/
def message : VendorError → String
  | api status code message =>
    s!"vendor rejected request with status {status}: " ++
      ((code <|> message).getD "no error code")
  | malformed status body => s!"vendor returned an unreadable payload with status {status}: {body}"
  | transport failure => s!"vendor request failed: {failure.message}"
  | token reason => s!"vendor token unavailable: {reason}"

/-- The vendor's own code. -/
def code? : VendorError → Option String
  | api _ code _ => code
  | malformed .. | transport _ | token _ => none

/-- What the client's row says about the error: the code, or else the message. -/
def apiError? : VendorError → Option String
  | api _ code message => code <|> message
  | malformed .. | transport _ | token _ => none

def isMalformed : VendorError → Bool
  | malformed .. => true
  | api .. | transport _ | token _ => false

/-- Must a run stop that meets the error? -/
def abortsRun : VendorError → Bool
  | api .. => false
  | malformed .. | transport _ | token _ => true

theorem abortsRun_eq_false {e : VendorError} :
    e.abortsRun = false ↔ ∃ status code message, e = api status code message := by
  cases e <;> simp [abortsRun]

/-! ### Errors the vendor reports -/

/-- How much of an unreadable body is kept. -/
def maxBodyLength : Nat := 512

/-- The error of an unreadable body. -/
def ofUnreadable (status : Nat) (body : String) : VendorError :=
  malformed status (String.ofList (body.toList.take maxBodyLength))

/-- The trimmed text of a member, unless it is empty. -/
def memberText? (v : Json.Value) (key : String) : Option String := do
  let s ← (← v.get? key).text?
  let s := Text.trim s
  if s = "" then none else some s

/-- The error of an answer that is no success: the body is an object that says why, or it is
unreadable. -/
def ofBody (status : Nat) (body : String) : VendorError :=
  match Json.Value.ofText body with
  | .ok (.object members) =>
    let v := Json.Value.object members
    api status (memberText? v "errorCode")
      (memberText? v "errorMessage" <|> memberText? v "message")
  | _ => ofUnreadable status body

/-- The code with which the net-worth endpoint says that it does not know the client. -/
def netWorthNotFound : String := "INTERNAL_CUSTOMER_DETAILS_NOT_FOUND_FOR_PCI"

/-- The code with which the pending-journey endpoint says that it does not know the client. -/
def pendingJourneyNotFound (client : String) : String :=
  s!"[PCI:{client}] not found"

end VendorError

end DepositSync
