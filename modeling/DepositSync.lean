import DepositSync.Binary64.Basic
import DepositSync.Binary64.Shortest
import DepositSync.CommandLine
import DepositSync.Connected
import DepositSync.Cron.Expression
import DepositSync.Decimal.Basic
import DepositSync.Decimal.Quotient
import DepositSync.Decimal.Reading
import DepositSync.Holdings
import DepositSync.Http.Message
import DepositSync.Job.BatchBuffer
import DepositSync.Job.Entity
import DepositSync.Job.Lane
import DepositSync.Job.Name
import DepositSync.Job.Reconciliation
import DepositSync.Job.RunId
import DepositSync.Job.Schedule
import DepositSync.Job.Summary
import DepositSync.Job.TokenRenewal
import DepositSync.Json.Numeral
import DepositSync.Json.Reading
import DepositSync.Json.Tree
import DepositSync.Json.Value
import DepositSync.Main
import DepositSync.Program
import DepositSync.Proofs.AbortedRun
import DepositSync.Proofs.Account
import DepositSync.Proofs.Backend
import DepositSync.Proofs.Cleanup
import DepositSync.Proofs.ConnectedRun
import DepositSync.Proofs.Convergence
import DepositSync.Proofs.EventIntake
import DepositSync.Proofs.Groups
import DepositSync.Proofs.IdealRun
import DepositSync.Proofs.InvalidRows
import DepositSync.Proofs.KeyedTable
import DepositSync.Proofs.Laws
import DepositSync.Proofs.ProviderFrame
import DepositSync.Proofs.RefreshRequests
import DepositSync.Proofs.RunLock
import DepositSync.Proofs.RunTally
import DepositSync.Proofs.RunTrace
import DepositSync.Proofs.ScheduledRun
import DepositSync.Proofs.SerialRuns
import DepositSync.Proofs.StatementMeaning
import DepositSync.Proofs.TokenSlot
import DepositSync.Proofs.Trace
import DepositSync.Proofs.UpsertMeaning
import DepositSync.Proofs.VendorExchange
import DepositSync.Proofs.WriteLimits
import DepositSync.Record
import DepositSync.Rehearsal
import DepositSync.Script
import DepositSync.Settings.Application
import DepositSync.Settings.Load
import DepositSync.Sql.Statement
import DepositSync.Sql.Value
import DepositSync.Store.Database
import DepositSync.Store.Error
import DepositSync.Store.Query
import DepositSync.Store.Schema
import DepositSync.Store.Table
import DepositSync.Structured
import DepositSync.Tenure
import DepositSync.Text.Blank
import DepositSync.Text.Digits
import DepositSync.Text.Hex
import DepositSync.Text.Percent
import DepositSync.Text.Quoted
import DepositSync.Text.Unprintable
import DepositSync.Text.Utf8
import DepositSync.Time.Calendar
import DepositSync.Time.Moment
import DepositSync.Time.Rfc3339
import DepositSync.Time.Span
import DepositSync.Url.Basic
import DepositSync.Url.Host
import DepositSync.Vendor.Backoff
import DepositSync.Vendor.Client
import DepositSync.Vendor.Error
import DepositSync.Vendor.Report
import DepositSync.Vendor.Settings
import DepositSync.Vendor.Token
import DepositSync.Web.Event
import DepositSync.Web.MediaType
import DepositSync.Web.Message
import DepositSync.Web.Router
import DepositSync.Web.Service
import DepositSync.WebhookEvent
import DepositSync.Width
import DepositSync.Wire.Records
import DepositSync.Wire.Settings
import DepositSync.Wire.Summary
import DepositSync.Yaml.Input
import DepositSync.Yaml.Lexer
import DepositSync.Yaml.Node
import DepositSync.Yaml.Reading
import DepositSync.Yaml.Scalar
import DepositSync.Yaml.Token
import DepositSync.Proofs.InstantRun
import DepositSync.Proofs.Retries
import DepositSync.Proofs.TokenCalendar
import DepositSync.Proofs.Rounding
import DepositSync.Proofs.Division
import DepositSync.Proofs.Returns
import DepositSync.Proofs.ReturnsOrder
import DepositSync.Proofs.Trimming
import DepositSync.Proofs.TenureGrammar
import DepositSync.Proofs.TenureText
import DepositSync.Proofs.NearestDouble
import DepositSync.Proofs.ShortestDecimal
import DepositSync.Proofs.AmountText
import DepositSync.Proofs.RecordReading
import DepositSync.Proofs.NumeralReading
import DepositSync.Proofs.NumeralDouble
import DepositSync.Proofs.MoneyReading
import DepositSync.Proofs.RetryWaits
import DepositSync.Proofs.TokenMargin
import DepositSync.Proofs.EventRow
import DepositSync.Proofs.JsonGrammar
import DepositSync.Proofs.JsonReading
import DepositSync.Proofs.ClientVerdict
import DepositSync.Proofs.Utf8Text
import DepositSync.Proofs.ClientAddress
import DepositSync.Proofs.BufferedBatches
