import DepositSync.Program
import DepositSync.Store.Error
import DepositSync.Web.Event
import DepositSync.Web.MediaType
import DepositSync.Web.Router
import DepositSync.Wire.Summary

/-!
# DepositSync.Web.Service

The answers to requests. An operator gets the summary of the run that was asked for. An event is
accepted if its body can be read, if the caller presents the token, and if the payload makes sense,
in this order; it is then stored.

Two things about refused bodies are left out. There is no limit on the length of a body; the service
refuses one of the right media type that is longer than two mebibytes with the status 413. And the
texts that refuse a body with the status 400 or 422 end before the colon behind which the service
says where and why reading it stopped. So which answers there are, and which of them are the same,
is told here for bodies within the limit and up to that detail.
-/

namespace DepositSync.Web

open Json (ReadError Value Document)

/-- What answering a request takes. -/
inductive ServiceCall where
  /-- A run of a job. -/
  | refresh (target : Target) (mode : RefreshMode)
  /-- Storing an event. -/
  | save (event : WebhookEvent)

/-- What such a call is answered with. -/
abbrev ServiceCall.Answer : ServiceCall → Type
  | .refresh _ _ => RunSummary
  | .save _ => Except StoreError Unit

/-- An answer in the making. -/
abbrev Service := Program ServiceCall ServiceCall.Answer Response

/-- The answer that says what went wrong. -/
def complaint (status : Nat) (message : String) : Response :=
  .json status (.object [("code", .nat status), ("message", .string message)])

/-- The answer to a body of the wrong media type. -/
def wrongMediaType : Response :=
  .plain 415 "Expected request with `Content-Type: application/json`"

/-- The answer to a body that cannot be read as a payload. -/
def unreadable : ReadError → Response
  | .mismatched => .plain 422 "Failed to deserialize the JSON body into the target type"
  | .truncated | .malformed => .plain 400 "Failed to parse the request body as JSON"

/-- What a caller who presents a token has to write. -/
def bearer (token : String) : String := "Bearer " ++ token

/-- Does the caller present the token, if there is one to present? -/
def isAuthorized (token : Option String) (r : Request) : Bool :=
  match token with
  | none => true
  | some token => r.headerText? "authorization" == some (bearer token)

/-- The payload of a request, or the answer that refuses it. -/
def payload (r : Request) : Except Response Payload :=
  if (r.headerText? "content-type").any isJson then
    ((Document.ofBytes r.body).read Payload.ofJson).mapError unreadable
  else .error wrongMediaType

/-- Stores an event. -/
def store (event : WebhookEvent) : Service :=
  .call (.save event) fun
    | .ok () => .done (.json 200 (.object []))
    | .error e => .done (complaint 500 s!"storing webhook event failed: {e.message}")

/-- The answer to the vendor, who posts an event. -/
def receive (token : Option String) (r : Request) : Service :=
  match payload r with
  | .error refusal => .done refusal
  | .ok p =>
    if isAuthorized token r then
      match p.event upswingProvider with
      | .error message => .done (complaint 400 message)
      | .ok event => store event
    else .done (complaint 403 "invalid token")

/-- The answer to a request. -/
def serve (token : Option String) (r : Request) : Service :=
  match route r with
  | .settled response => .done response
  | .event => receive token r
  | .refresh target mode quiet => .call (.refresh target mode) fun summary =>
    let response := Response.json 200 summary.toJson
    .done (if quiet then response.withoutBody else response)

end DepositSync.Web
