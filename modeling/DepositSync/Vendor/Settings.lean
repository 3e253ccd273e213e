import DepositSync.Structured
import DepositSync.Text.Quoted
import DepositSync.Vendor.Backoff
import DepositSync.Width

/-!
# DepositSync.Vendor.Settings

Where the vendor is, how to call it, and with which credentials. The client secret is read and
never shown.
-/

namespace DepositSync

/-- The credentials that an access token is asked for with. -/
structure Credentials where
  clientId : String
  clientSecret : String
  grantType : String
  scope : String
  deriving DecidableEq, Repr, Inhabited

namespace Credentials

/-- No credentials. -/
def none : Credentials := ⟨"", "", "", ""⟩

/-- What is shown in the place of the secret. -/
def redacted : String := "<redacted>"

/-- The credentials as a log shows them. -/
def shown (c : Credentials) : String :=
  let item (name value : String) := s!"{name}: {Text.quoted value}"
  "UpswingCredentials \x7b " ++ ", ".intercalate [item "client_id" c.clientId,
    item "client_secret" redacted, item "grant_type" c.grantType, item "scope" c.scope] ++ " \x7d"

/-- The fields of the credentials. -/
def fields {τ ε : Type} [Structured τ ε] : List (Field τ ε Credentials) := [
  field "client_id" .defaulted Structured.text fun c x => { c with clientId := x },
  field "client_secret" .defaulted Structured.text fun c x => { c with clientSecret := x },
  field "grant_type" .defaulted Structured.text fun c x => { c with grantType := x },
  field "scope" .defaulted Structured.text fun c x => { c with scope := x }]

end Credentials

/-- How the vendor is called. -/
structure VendorSettings where
  tokenUrl : String
  /-- The placeholder in it stands for the client. -/
  netWorthUrl : String
  pendingJourneyUrl : String
  timeoutSeconds : Nat
  /-- A token is renewed so many seconds before it expires. -/
  tokenMarginSeconds : Nat
  maxRetries : Nat
  retryBaseDelayMillis : Nat
  /-- Headers sent with every request. -/
  headers : Dictionary
  credentials : Credentials
  deriving DecidableEq, Repr, Inhabited

namespace VendorSettings

/-- The settings where nothing else is said. -/
def standard : VendorSettings where
  tokenUrl := "http://localhost:9090/oauth/token"
  netWorthUrl := "http://localhost:9090/v1/customers/\x7bpci\x7d/net-worth"
  pendingJourneyUrl := "http://localhost:9090/v1/journeys/pending"
  timeoutSeconds := 20
  tokenMarginSeconds := 60
  maxRetries := 2
  retryBaseDelayMillis := 250
  headers := []
  credentials := .none

/-- The largest of the numbers among the settings. -/
def maxNumber : Nat := Width.maxNat 64

/-- The fields of the settings. -/
def fields {τ ε : Type} [Structured τ ε] : List (Field τ ε VendorSettings) := [
  field "token_url" .defaulted Structured.text fun s x => { s with tokenUrl := x },
  field "net_worth_url" .defaulted Structured.text fun s x => { s with netWorthUrl := x },
  field "pending_journey_url" .defaulted Structured.text fun s x =>
    { s with pendingJourneyUrl := x },
  field "timeout_secs" .defaulted (Structured.natural maxNumber) fun s x =>
    { s with timeoutSeconds := x },
  field "token_margin_secs" .defaulted (Structured.natural maxNumber) fun s x =>
    { s with tokenMarginSeconds := x },
  field "max_retries" .defaulted (Structured.natural maxNumber) fun s x =>
    { s with maxRetries := x },
  field "retry_base_delay_ms" .defaulted (Structured.natural maxNumber) fun s x =>
    { s with retryBaseDelayMillis := x },
  field "headers" .defaulted Structured.dictionary fun s x => { s with headers := x },
  field "credentials" .defaulted (Structured.record Credentials.fields .none) fun s x =>
    { s with credentials := x }]

/-- Reads the settings. -/
def read {τ ε : Type} [Structured τ ε] : τ → Except ε VendorSettings :=
  Structured.record fields standard

/-- How calls are tried again. -/
def backoff (s : VendorSettings) : Backoff where
  maxRetries := s.maxRetries
  baseDelay := .ofMillis s.retryBaseDelayMillis
  maxDelay := Backoff.defaultMaxDelay

/-- What stands for the client in an address. -/
def placeholder : List Char := "\x7bpci\x7d".toList

/-- Puts the client in the place of every placeholder, from left to right; the client's own
characters are not searched again. `skip` counts the characters of a placeholder that are still to
be passed over. -/
def substitute (client : List Char) : (skip : Nat) → List Char → List Char
  | _, [] => []
  | skip + 1, _ :: cs => substitute client skip cs
  | 0, c :: cs =>
    if placeholder.isPrefixOf (c :: cs) then
      client ++ substitute client (placeholder.length - 1) cs
    else c :: substitute client 0 cs

/-- The address of a client's net worth. -/
def netWorthUrlFor (s : VendorSettings) (client : String) : String :=
  String.ofList (substitute client.toList 0 s.netWorthUrl.toList)

end VendorSettings

end DepositSync
