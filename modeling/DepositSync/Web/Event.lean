import DepositSync.Json.Reading
import DepositSync.Record
import DepositSync.WebhookEvent

/-!
# DepositSync.Web.Event

The events the vendor posts. A payload names the client; everything else in it is optional, and
blank texts count as absent.
-/

namespace DepositSync.Web

open Json (Tree ReadError)

/-- An event as the vendor posts it. -/
structure Payload where
  pci : String
  fsi : Option String
  amount : Option Decimal
  tenure : Option String
  journeyId : Option String
  eventType : Option String
  termDepositType : Option String
  reason : Option String
  deriving DecidableEq, Repr, Inhabited

namespace Payload

/-- A payload in which nothing is said. -/
def blank : Payload := ⟨"", none, none, none, none, none, none, none⟩

/-- The fields of a payload. -/
def fields : List (Field Tree ReadError Payload) := [
  field "pci" .defaulted Json.text fun p x => { p with pci := x },
  field "fsi" .defaulted (Json.optional Json.text) fun p x => { p with fsi := x },
  field "amount" .defaulted (Json.optional Json.decimal) fun p x => { p with amount := x },
  field "tenure" .defaulted (Json.optional Json.text) fun p x => { p with tenure := x },
  field "journeyId" .defaulted (Json.optional Json.text) fun p x => { p with journeyId := x },
  field "eventType" .defaulted (Json.optional Json.text) fun p x => { p with eventType := x },
  field "termDepositType" .defaulted (Json.optional Json.text) fun p x =>
    { p with termDepositType := x },
  field "reason" .defaulted (Json.optional Json.text) fun p x => { p with reason := x }]

/-- Reads a payload. -/
def ofJson : Tree → Except ReadError Payload :=
  Json.record fields blank

/-- The complaint about a payload without a client. -/
def clientMissing : String := "pci is required"

/-- The event a payload stands for, or what is wrong with it. -/
def event (vendor : String) (p : Payload) : Except String WebhookEvent :=
  let client := Text.trim p.pci
  if client = "" then .error clientMissing
  else
    match Tenure.parse (p.tenure.getD "") with
    | .error e => .error e.message
    | .ok tenure => .ok {
        client := client
        vendor := vendor
        trackingId := Text.nonBlank p.journeyId
        eventType := Text.nonBlank p.eventType
        institution := Text.nonBlank p.fsi
        depositType := Text.nonBlank p.termDepositType
        amount := p.amount
        tenure := tenure
        failureReason := Text.nonBlank p.reason
        createdBy := Actor.webhook.name
        updatedBy := Actor.webhook.name }

end Payload

end DepositSync.Web
