import DepositSync.Program
import DepositSync.Vendor.Report
import DepositSync.Vendor.Settings
import DepositSync.Vendor.Token
import DepositSync.Width

/-!
# DepositSync.Vendor.Client

The client of the vendor's services. It asks for the net worth or the pending journey of a client,
with an access token that it keeps and renews, and tries again after answers that are worth it.

What it does is a tree of calls: it looks at the clock, sends requests and waits. The token it
keeps goes in and comes out, so nothing is hidden between two calls.
-/

namespace DepositSync

open Http (Request Outcome)
open Time (Moment Span)

/-! ### Calls -/

/-- What the client asks of the world. -/
inductive ClientCall where
  /-- What time it is. -/
  | now
  /-- To send a request. -/
  | send (r : Request)
  /-- To wait. -/
  | pause (length : Span)
  deriving DecidableEq, Repr

/-- What a call is answered with. -/
abbrev ClientCall.Answer : ClientCall → Type
  | .now => Moment
  | .send _ => Outcome
  | .pause _ => Unit

/-- A computation of the client. -/
abbrev Exchange (α : Type) := Program ClientCall ClientCall.Answer α

/-- Why the client has no result. -/
inductive ClientError where
  /-- The vendor, or the way to it, failed. -/
  | vendor (e : VendorError)
  /-- A point in time that was needed is beyond the supported calendar. -/
  | beyondCalendar
  deriving DecidableEq, Repr

/-! ### Requests -/

/-- A request with the headers that are sent with every request. -/
def baseRequest? (s : VendorSettings) (method : Http.Method) (url : String) : Option Request := do
  let url ← Url.ofText? url
  let headers ← s.headers.mapM fun (name, value) => Http.Header.ofPair? name value
  return ⟨method, url, headers, ""⟩

/-- The form fields with which a token is asked for. -/
def Credentials.form (c : Credentials) : List (String × String) :=
  [("client_id", c.clientId), ("grant_type", c.grantType), ("client_secret", c.clientSecret),
    ("scope", c.scope)]

/-- The request for a token. -/
def tokenRequest? (s : VendorSettings) : Option Request := do
  let r ← baseRequest? s .post s.tokenUrl
  return (r.withForm s.credentials.form).withDefault Request.acceptAll

/-- A request for a report. -/
def reportRequest? (s : VendorSettings) (token url : String) (query : List (String × String)) :
    Option Request := do
  let r ← (← baseRequest? s .get url).withToken? token
  return { r with url := r.url.withFields query }.withDefault Request.acceptAll

/-! ### Sending -/

/-- Is it worth trying again after this? -/
def isWorthRetrying : Outcome → Bool
  | .ok r => isRetryable r.status
  | .error .unreachable => true
  | .error .interrupted => false

/-- Sends a request; after an outcome that is worth it, waits and sends it again while there are
`retries` left. -/
def sendFrom (b : Backoff) (r : Request) : (retries attempt : Nat) → Exchange Outcome
  | 0, _ => .call (.send r) .done
  | retries + 1, attempt => .call (.send r) fun outcome =>
    if isWorthRetrying outcome then
      .call (.pause (b.delay attempt)) fun _ => sendFrom b r retries (attempt + 1)
    else .done outcome

/-- Sends a request and tries again as often as it is allowed. -/
def send (b : Backoff) (r : Request) : Exchange Outcome :=
  sendFrom b r b.maxRetries 0

/-- What the outcome of a request says. -/
def readOutcome {α : Type} (read : Json.Tree → Except Json.ReadError α) (r : Request) :
    Outcome → Except VendorError α
  | .ok answer => readAnswer read answer
  | .error _ => .error (.transport (.notAnswered r.url.text))

/-- Sends a request, if it could be made, and reads the answer. -/
def ask {α : Type} (s : VendorSettings) (read : Json.Tree → Except Json.ReadError α)
    (request : Option Request) : Exchange (Except VendorError α) :=
  match request with
  | none => .done (.error (.transport .notBuilt))
  | some r => (send s.backoff r).bind fun outcome => .done (readOutcome read r outcome)

/-! ### The token -/

/-- The longest lifetime of a token that can be added to a point in time, in seconds. -/
def maxLifetime : Int := Width.maxInt 64 / 1000

/-- The token of a grant that arrives now; a negative lifetime counts as none. -/
def TokenGrant.token? (g : TokenGrant) (now : Moment) : Option Token :=
  let lifetime := max g.lifetime 0
  if maxLifetime < lifetime then none
  else (now.addNanos? (lifetime * Time.nanosPerSecond)).map fun expiry => ⟨g.value, expiry⟩

/-- Fetches a token. -/
def fetchToken (s : VendorSettings) : Exchange (Except ClientError Token) :=
  (ask s TokenGrant.ofJson (tokenRequest? s)).bind fun
    | .error e => .done (.error (.vendor e))
    | .ok grant => .call .now fun now => .done <| match grant.token? now with
      | some token => .ok token
      | none => .error .beyondCalendar

/-- The result of a call of the client, with the token cache it leaves. -/
abbrev Held (α : Type) := TokenCache × Except ClientError α

/-- Hands out the token, which is fetched if necessary. -/
def ensureToken (s : VendorSettings) (cache : TokenCache) : Exchange (Held IssuedToken) :=
  .call .now fun now =>
    Program.bind (cache.issue now (fetchToken s)) fun
      | some (cache, issued) => .done (cache, issued)
      | none => .done (cache, .error .beyondCalendar)

/-- Makes sure that there is a token. -/
def validateToken (s : VendorSettings) (cache : TokenCache) : Exchange (Held Unit) :=
  (ensureToken s cache).bind fun (cache, issued) => .done (cache, issued.map fun _ => ())

/-- To one who wants a report, every failure to get a token means that there is none. -/
def ClientError.asTokenFailure : ClientError → ClientError
  | vendor e => vendor (.token e.message)
  | beyondCalendar => beyondCalendar

/-! ### Reports -/

/-- Asks for a report, with a token. -/
def fetchReport {α : Type} (s : VendorSettings) (read : Json.Tree → Except Json.ReadError α)
    (url : String) (query : List (String × String)) (cache : TokenCache) : Exchange (Held α) :=
  (ensureToken s cache).bind fun
    | (cache, .error e) => .done (cache, .error e.asTokenFailure)
    | (cache, .ok token) =>
      (ask s read (reportRequest? s token.value url query)).bind fun answer =>
        .done (cache, answer.mapError .vendor)

/-- Asks for the net worth of a client. -/
def fetchNetWorth (s : VendorSettings) (client : String) (cache : TokenCache) :
    Exchange (Held NetWorth) :=
  fetchReport s NetWorth.ofReport (s.netWorthUrlFor client) [] cache

/-- Asks for the pending journey of a client. -/
def fetchJourney (s : VendorSettings) (client : String) (cache : TokenCache) :
    Exchange (Held Journey) :=
  fetchReport s Journey.ofReport s.pendingJourneyUrl [("pci", client)] cache

/-- The token cache of a client that has just been made. -/
def VendorSettings.emptyCache (s : VendorSettings) : TokenCache :=
  .empty (.ofSeconds s.tokenMarginSeconds)

end DepositSync
