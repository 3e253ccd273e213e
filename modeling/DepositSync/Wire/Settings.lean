import DepositSync.Json.Value
import DepositSync.Settings.Application

/-!
# DepositSync.Wire.Settings

Settings as JSON. Secrets are left out.
-/

namespace DepositSync

open Json (Value)

/-- Texts by key as JSON. -/
def Dictionary.toJson (d : Dictionary) : Value :=
  .object (d.map fun (k, v) => (k, .string v))

/-- The credentials as JSON, without the secret. -/
def Credentials.toJson (c : Credentials) : Value :=
  .object [("client_id", .string c.clientId), ("grant_type", .string c.grantType),
    ("scope", .string c.scope)]

/-- The vendor settings as JSON. -/
def VendorSettings.toJson (s : VendorSettings) : Value :=
  .object [("token_url", .string s.tokenUrl),
    ("net_worth_url", .string s.netWorthUrl),
    ("pending_journey_url", .string s.pendingJourneyUrl),
    ("timeout_secs", .nat s.timeoutSeconds),
    ("token_margin_secs", .nat s.tokenMarginSeconds),
    ("max_retries", .nat s.maxRetries),
    ("retry_base_delay_ms", .nat s.retryBaseDelayMillis),
    ("headers", s.headers.toJson),
    ("credentials", s.credentials.toJson)]

/-- A job's settings as JSON. -/
def ReconciliationSettings.toJson (s : ReconciliationSettings) : Value :=
  .object [("enabled", .bool s.enabled), ("provider", .string s.provider),
    ("batch_size", .nat s.batchSize)]

/-- The token renewal's settings as JSON. -/
def TokenRenewalSettings.toJson (s : TokenRenewalSettings) : Value :=
  .object [("enabled", .bool s.enabled)]

/-- The settings of all jobs as JSON. -/
def JobsSettings.toJson (s : JobsSettings) : Value :=
  .object [("portfolio", s.portfolio.toJson), ("pending_journey", s.pendingJourney.toJson),
    ("token_renewal", s.tokenRenewal.toJson)]

/-- The database settings as JSON. -/
def DatabaseSettings.toJson (s : DatabaseSettings) : Value :=
  .object [("url", .string s.url), ("max_connections", .nat s.maxConnections),
    ("acquire_timeout_secs", .nat s.acquireTimeoutSeconds)]

/-- The web settings as JSON, without the token. -/
def WebSettings.toJson (s : WebSettings) : Value :=
  .object [("host", .string s.host), ("port", .nat s.port)]

/-- The settings as JSON. -/
def Settings.toJson (s : Settings) : Value :=
  .object [("scheduler_enabled", .bool s.schedulerEnabled),
    ("crons", s.crons.toJson),
    ("jobs", s.jobs.toJson),
    ("vendor", s.vendor.toJson),
    ("database", s.database.toJson),
    ("web", s.web.toJson)]

end DepositSync
