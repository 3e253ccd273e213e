import DepositSync.Proofs.Groups
import DepositSync.Proofs.Returns
import DepositSync.Proofs.Trace
import DepositSync.Proofs.Trimming
import DepositSync.Store.Database
import DepositSync.Web.Event
import Mathlib.Data.List.Forall2

/-!
# DepositSync.Proofs.EventRow

The row that an event is kept in. It is written down here a second time, column by column, apart from
the statement that stores the event (`eventRow`); that each bound value ends up in its column, and
what is left out as null, is one equation between the two (`rows?_eventQuery`).

The row is then read back (`WebhookEvent.ofRow?`), and it gives the event, but for an amount of zero,
which is as good as none. So nothing else about an event is lost, and two rows are the same only for
events that are (`sameRow_iff`). Of an event that comes from a payload it is known besides that its
texts are not blank (`Recorded`).
-/

namespace DepositSync

open Sql (Value StoredRow)

/-! ### The row of an event -/

/-- A number, where zero counts as none. -/
def nonZero (n : Int) : Option Int := if n = 0 then none else some n

/-- An amount, where zero counts as none at whatever scale. -/
def nonZeroAmount (x : Option Decimal) : Option Decimal := x.filter fun x => !x.isZero

/-- The columns of the row and what each of them holds. -/
def eventRow (e : WebhookEvent) : StoredRow := [
  ("client_code", .text (some e.client)),
  ("vendor", .text (if e.vendor = "" then none else some e.vendor)),
  ("tracking_id", .text e.trackingId),
  ("event_type", .text e.eventType),
  ("institution", .text e.institution),
  ("type", .text e.depositType),
  ("amount", .amount (nonZeroAmount e.amount)),
  ("tenure_months", .integer (nonZero e.tenure.months)),
  ("tenure_days", .integer (nonZero e.tenure.days)),
  ("failure_reason", .text e.failureReason),
  ("created_by", .text (some e.createdBy)),
  ("updated_by", .text (some e.updatedBy))]

theorem nonZero_eq (n : Int) :
    (if Sql.Literal.zero.matches? (.integer n) then (Value.integer n).nulled else .integer n) =
      .integer (nonZero n) := by
  by_cases h : n = 0
  · simp [h, nonZero, Sql.Literal.matches?, Value.nulled]
  · simp [h, nonZero, Sql.Literal.matches?]

theorem nonZeroAmount_eq (x : Option Decimal) :
    (if Sql.Literal.zero.matches? (.amount x) then (Value.amount x).nulled else .amount x) =
      .amount (nonZeroAmount x) := by
  cases x with
  | none => rfl
  | some x =>
      cases h : x.isZero <;>
        simp [h, nonZeroAmount, Option.filter, Sql.Literal.matches?, Value.nulled]

theorem nonEmpty_eq (s : String) :
    (if Sql.Literal.emptyText.matches? (.text s) then (Value.text s).nulled else .text s) =
      .text (if s = "" then none else some s) := by
  by_cases h : s = ""
  · simp [h, Sql.Literal.matches?, Value.nulled]
  · simp [h, Sql.Literal.matches?]

/-- The statement that stores an event proposes the row of the event, and no other. -/
theorem rows?_eventQuery (e : WebhookEvent) :
    eventInsert.rows? (eventQuery e).parameters = some [eventRow e] := by
  simp [Sql.Insert.rows?, eventInsert, eventQuery, eventColumns, EventColumn.expression,
    Sql.Expression.value?, Sql.boundValue?, nonZero_eq, nonZeroAmount_eq, nonEmpty_eq, eventRow,
    clientColumn, createdByColumn, updatedByColumn]

/-! ### The text of the statement -/

theorem grouped_seven (a b c d e f g h i j k l : String) :
    Sql.grouped 7 [a, b, c, d, e, f, g, h, i, j, k, l] =
      [[a, b, c, d, e, f, g], [h, i, j, k, l]] := by
  simp [Sql.grouped]

/-- The statement as it is written, with twelve columns and as many placeholders. -/
def eventSql : String := "
            INSERT INTO webhook_events (
                client_code, vendor, tracking_id, event_type, institution, type, amount,
                tenure_months, tenure_days, failure_reason, created_by, updated_by
            ) VALUES (
                $1, NULLIF($2, ''), $3, $4, $5, $6, NULLIF($7, 0),
                NULLIF($8, 0), NULLIF($9, 0), $10, $11, $12
            )
            "

theorem sql_eventQuery (e : WebhookEvent) : (eventQuery e).statement.sql = eventSql := by
  have hcolumns : eventInsert.columns = ["client_code", "vendor", "tracking_id", "event_type",
      "institution", "type", "amount", "tenure_months", "tenure_days", "failure_reason",
      "created_by", "updated_by"] := rfl
  have hplaceholders : eventInsert.tuples.map (fun t => t.map Sql.Expression.sql) = [["$1",
      "NULLIF($2, '')", "$3", "$4", "$5", "$6", "NULLIF($7, 0)", "NULLIF($8, 0)", "NULLIF($9, 0)",
      "$10", "$11", "$12"]] := by
    decide +kernel
  have hlayout : eventInsert.layout = .block 7 12 := rfl
  show eventInsert.sql = eventSql
  rw [Sql.Insert.sql, hcolumns, hplaceholders, hlayout]
  simp only [Sql.blockListed, grouped_seven, List.map, Sql.listed]
  decide +kernel

/-! ### Reading the row back -/

/-- The text in a column, or that it is null. -/
def textAt? (row : StoredRow) (column : String) : Option (Option String) :=
  match row.lookup column with
  | some (.text s) => some s
  | _ => none

/-- The number in a column; null counts as zero. -/
def numberAt? (row : StoredRow) (column : String) : Option Int :=
  match row.lookup column with
  | some (.integer n) => some (n.getD 0)
  | _ => none

/-- The amount in a column, or that it is null. -/
def amountAt? (row : StoredRow) (column : String) : Option (Option Decimal) :=
  match row.lookup column with
  | some (.amount x) => some x
  | _ => none

/-- The event that a row was stored for. A vendor that is null has the empty name. -/
def WebhookEvent.ofRow? (row : StoredRow) : Option WebhookEvent := do
  return {
    client := ← (← textAt? row "client_code")
    vendor := (← textAt? row "vendor").getD ""
    trackingId := ← textAt? row "tracking_id"
    eventType := ← textAt? row "event_type"
    institution := ← textAt? row "institution"
    depositType := ← textAt? row "type"
    amount := ← amountAt? row "amount"
    tenure := ⟨← numberAt? row "tenure_months", ← numberAt? row "tenure_days"⟩
    failureReason := ← textAt? row "failure_reason"
    createdBy := ← (← textAt? row "created_by")
    updatedBy := ← (← textAt? row "updated_by") }

theorem getD_nonZero (n : Int) : (nonZero n).getD 0 = n := by
  by_cases h : n = 0 <;> simp [nonZero, h]

theorem getD_nonEmpty (s : String) : (if s = "" then none else some s).getD "" = s := by
  by_cases h : s = "" <;> simp [h]

/-- Reading gives the event back, but for an amount of zero. -/
theorem ofRow?_eventRow (e : WebhookEvent) :
    WebhookEvent.ofRow? (eventRow e) = some { e with amount := nonZeroAmount e.amount } := by
  simp [WebhookEvent.ofRow?, eventRow, textAt?, numberAt?, amountAt?, List.lookup_cons,
    getD_nonZero, getD_nonEmpty]

/-! ### When two rows are the same -/

/-- Two values are the same to the database: amounts at whatever scale, and nulls as well. -/
def Sql.Value.Same : Value → Value → Prop
  | .amount x, .amount y => x.map Decimal.toRat = y.map Decimal.toRat
  | v, w => v = w

/-- The rows have the same columns, and the same values in them. -/
def SameRow (row row' : StoredRow) : Prop :=
  List.Forall₂ (fun a b => a.1 = b.1 ∧ a.2.Same b.2) row row'

/-- How much money it is; no amount is none. -/
def money (x : Option Decimal) : ℚ := (x.map Decimal.toRat).getD 0

/-- The events differ at most in the scale of the amount, or in that one has none and the other one
of zero. -/
def SameButZero (e e' : WebhookEvent) : Prop :=
  { e with amount := none } = { e' with amount := none } ∧ money e.amount = money e'.amount

theorem map_toRat_nonZeroAmount (x : Option Decimal) :
    (nonZeroAmount x).map Decimal.toRat = if money x = 0 then none else some (money x) := by
  unfold nonZeroAmount money
  cases x with
  | none => rfl
  | some x =>
      simp only [Option.map_some, Option.getD_some, Decimal.toRat_eq_zero_iff]
      cases h : x.isZero <;> simp [Option.filter, h]

/-- To leave one value out as null makes no two values the same. -/
theorem null_inj {α : Type} [DecidableEq α] {zero a b : α} :
    (if a = zero then none else some a) = (if b = zero then none else some b) ↔ a = b := by
  by_cases ha : a = zero
  · by_cases hb : b = zero
    · simp [ha, hb]
    · simp [ha, hb, Ne.symm hb]
  · by_cases hb : b = zero
    · simp [ha, hb]
    · simp [ha, hb]

theorem sameRow_iff (e e' : WebhookEvent) :
    SameRow (eventRow e) (eventRow e') ↔ SameButZero e e' := by
  obtain ⟨client, vendor, trackingId, eventType, institution, depositType, amount, ⟨months, days⟩,
    failureReason, createdBy, updatedBy⟩ := e
  obtain ⟨client', vendor', trackingId', eventType', institution', depositType', amount',
    ⟨months', days'⟩, failureReason', createdBy', updatedBy'⟩ := e'
  simp only [SameRow, SameButZero, eventRow, List.forall₂_cons, List.forall₂_nil_left_iff, true_and,
    and_true, Value.Same, map_toRat_nonZeroAmount, Value.text.injEq, Value.integer.injEq, nonZero,
    null_inj, Option.some.injEq, WebhookEvent.mk.injEq, Tenure.mk.injEq]
  tauto

/-! ### Events of payloads -/

theorem isBlankText_trim {s : String} (h : Text.trim s ≠ "") :
    Text.isBlankText (Text.trim s) = false := by
  rw [← Bool.not_eq_true, ← Text.trim_eq_empty_iff, Text.trim_trim]
  exact h

/-- What is known of an event that a payload stands for. -/
structure Recorded (vendor : String) (p : Web.Payload) (e : WebhookEvent) : Prop where
  client : Text.isBlankText e.client = false
  vendor_eq : e.vendor = vendor
  amount_eq : e.amount = p.amount
  tenure_eq : Tenure.parse (p.tenure.getD "") = .ok e.tenure
  texts : ∀ text ∈ [e.trackingId, e.eventType, e.institution, e.depositType, e.failureReason],
    ∀ s, text = some s → Text.isBlankText s = false
  actors : e.createdBy = Actor.webhook.name ∧ e.updatedBy = Actor.webhook.name

theorem recorded_of_event {vendor : String} {p : Web.Payload} {e : WebhookEvent}
    (h : p.event vendor = .ok e) : Recorded vendor p e := by
  simp only [Web.Payload.event] at h
  by_cases hclient : Text.trim p.pci = ""
  · rw [if_pos hclient] at h
    cases h
  · rw [if_neg hclient] at h
    cases htenure : Tenure.parse (p.tenure.getD "") with
    | error e =>
        rw [htenure] at h
        cases h
    | ok tenure =>
        rw [htenure] at h
        cases h
        refine ⟨isBlankText_trim hclient, rfl, rfl, htenure, ?_, rfl, rfl⟩
        intro text htext s hs
        simp only [List.mem_cons, List.not_mem_nil, or_false] at htext
        rcases htext with rfl | rfl | rfl | rfl | rfl <;>
          exact Text.not_isBlankText_of_nonBlank hs

/-- No text in the row is blank, unless it is the vendor's name. -/
theorem text_of_mem_eventRow {vendor : String} {p : Web.Payload} {e : WebhookEvent}
    (h : Recorded vendor p e) {column s : String}
    (hmem : (column, Value.text (some s)) ∈ eventRow e) :
    Text.isBlankText s = false ∨ (column = "vendor" ∧ s = vendor ∧ s ≠ "") := by
  have hactor : Text.isBlankText Actor.webhook.name = false := by decide
  have htext {text : Option String} (htext : some s = text) (hmem : text ∈ [e.trackingId,
      e.eventType, e.institution, e.depositType, e.failureReason]) : Text.isBlankText s = false :=
    h.texts text hmem s htext.symm
  simp only [eventRow, List.mem_cons, List.not_mem_nil, or_false, Prod.mk.injEq, reduceCtorEq,
    and_false, false_or, Value.text.injEq, Option.some.injEq] at hmem
  rcases hmem with ⟨-, rfl⟩ | ⟨rfl, hvendor⟩ | ⟨-, ht⟩ | ⟨-, ht⟩ | ⟨-, ht⟩ | ⟨-, ht⟩ | ⟨-, ht⟩ |
    ⟨-, rfl⟩ | ⟨-, rfl⟩
  · exact .inl h.client
  · right
    split at hvendor
    · cases hvendor
    · next hne =>
      obtain rfl := Option.some.inj hvendor
      exact ⟨rfl, h.vendor_eq, hne⟩
  · exact .inl (htext ht (by simp))
  · exact .inl (htext ht (by simp))
  · exact .inl (htext ht (by simp))
  · exact .inl (htext ht (by simp))
  · exact .inl (htext ht (by simp))
  · exact .inl (by rw [h.actors.1]; exact hactor)
  · exact .inl (by rw [h.actors.2]; exact hactor)

/-! ### What a row keeps of its event -/

/-- The rows that a statement inserts with the values of its placeholders. -/
def insertedRows? (q : Sql.Query) : Option (List StoredRow) :=
  match q.statement with
  | .insert i => i.rows? q.parameters
  | _ => none

theorem insertedRows?_eventQuery (e : WebhookEvent) :
    insertedRows? (eventQuery e) = some [eventRow e] := rows?_eventQuery e

/-- What the row says about the event that a payload stands for. -/
structure KeepsEvent (vendor : String) (p : Web.Payload) (e : WebhookEvent) (row : StoredRow) :
    Prop where
  /-- Each column holds what the event says about it. -/
  filled : row = eventRow e
  /-- No text is empty, and none is blank. A vendor with a blank name would be the only exception;
  the connected one has none. -/
  texts : ∀ column s, (column, Value.text (some s)) ∈ row → s ≠ "" ∧
    (Text.isBlankText s = false ∨ (column = "vendor" ∧ s = vendor ∧ vendor ≠ upswingProvider))
  /-- The amount is null exactly if the payload has none or one of zero. -/
  amount_null : ("amount", Value.amount none) ∈ row ↔ ∀ x, p.amount = some x → x.toRat = 0
  /-- The months and the days that the tenure comes to are null exactly if they are zero. -/
  tenure_null : ∃ tenure, Tenure.parse (p.tenure.getD "") = .ok tenure ∧
    (("tenure_months", Value.integer none) ∈ row ↔ tenure.months = 0) ∧
    (("tenure_days", Value.integer none) ∈ row ↔ tenure.days = 0)
  /-- Read back, the row gives the event, without an amount of zero. -/
  read : WebhookEvent.ofRow? row = some { e with amount := nonZeroAmount e.amount }

theorem nonZeroAmount_eq_none_iff {x : Option Decimal} :
    nonZeroAmount x = none ↔ ∀ y, x = some y → y.toRat = 0 := by
  simp [nonZeroAmount, Option.filter_eq_none_iff, Decimal.toRat_eq_zero_iff]

theorem keepsEvent {vendor : String} {p : Web.Payload} {e : WebhookEvent}
    (h : Recorded vendor p e) : KeepsEvent vendor p e (eventRow e) where
  filled := rfl
  texts column s hmem := by
    rcases text_of_mem_eventRow h hmem with hkept | ⟨rfl, rfl, hne⟩
    · refine ⟨?_, .inl hkept⟩
      rintro rfl
      exact absurd hkept (by decide)
    · refine ⟨hne, ?_⟩
      by_cases hvendor : s = upswingProvider
      · exact .inl (by rw [hvendor]; decide)
      · exact .inr ⟨rfl, rfl, hvendor⟩
  amount_null := by
    rw [← h.amount_eq, ← nonZeroAmount_eq_none_iff, eq_comm (b := none)]
    simp [eventRow]
  tenure_null := by
    refine ⟨e.tenure, h.tenure_eq, ?_, ?_⟩
    · simp [eventRow, nonZero]
    · simp [eventRow, nonZero]
  read := ofRow?_eventRow e

/-- **A row keeps its event.** An event that a payload stands for is stored with one statement, which
inserts one row. Its columns hold what the event says about them, with nothing blank among the texts,
and with null in the place of an amount or a number that is zero. The event can be read back from it,
and the rows of two payloads are the same exactly if their events differ at most in whether an amount
of zero is there, and in the scales of the amounts. -/
theorem stored_row_keeps_event {vendor : String} {p : Web.Payload} {e : WebhookEvent}
    (h : p.event vendor = .ok e) :
    (∀ (σ : Type) (handle : (q : Sql.Query) → σ → Except StoreError Reply × σ) (s : σ),
      ((saveEvent e).trace handle s).map Step.call = [eventQuery e]) ∧
    (eventQuery e).statement.sql = eventSql ∧
    ∃ row, insertedRows? (eventQuery e) = some [row] ∧ KeepsEvent vendor p e row ∧
      ∀ vendor' p' e' row', Web.Payload.event vendor' p' = .ok e' →
        insertedRows? (eventQuery e') = some [row'] → (SameRow row row' ↔ SameButZero e e') := by
  refine ⟨fun σ handle s => rfl, sql_eventQuery e, eventRow e, insertedRows?_eventQuery e,
    keepsEvent (recorded_of_event h), ?_⟩
  intro vendor' p' e' row' _ hrow'
  obtain rfl : eventRow e' = row' := by simpa [insertedRows?_eventQuery] using hrow'
  exact sameRow_iff e e'

/-- A payload with blanks around the client, a reason that is blank, and an amount. -/
def blankPayload (amount : Option Decimal) : Web.Payload :=
  ⟨" c-1 ", none, amount, some "0m1826d", none, none, none, some "  "⟩

/-- The event that it stands for. -/
def sixtyMonths (amount : Option Decimal) : WebhookEvent :=
  ⟨"c-1", "upswing", none, none, none, none, amount, ⟨60, 0⟩, none, "webhook-api", "webhook-api"⟩

theorem event_eq_ok {p : Web.Payload} {e : WebhookEvent}
    (h : (p.event upswingProvider).toOption = some e) : p.event upswingProvider = .ok e := by
  cases hevent : p.event upswingProvider with
  | ok e' =>
      rw [hevent] at h
      exact congrArg Except.ok (Option.some.inj h)
  | error complaint =>
      rw [hevent] at h
      cases h

/-- An amount of 0.00 and no amount at all give the same row, in which the amount is null. -/
theorem stored_row_keeps_event_ofZero :
    (blankPayload (some ⟨false, 0, 2⟩)).event upswingProvider =
      .ok (sixtyMonths (some ⟨false, 0, 2⟩)) ∧
    (blankPayload none).event upswingProvider = .ok (sixtyMonths none) ∧
    ∃ row, insertedRows? (eventQuery (sixtyMonths (some ⟨false, 0, 2⟩))) = some [row] ∧
      ("amount", Value.amount none) ∈ row ∧ SameRow row (eventRow (sixtyMonths none)) := by
  have hzero : (blankPayload (some ⟨false, 0, 2⟩)).event upswingProvider =
      .ok (sixtyMonths (some ⟨false, 0, 2⟩)) :=
    event_eq_ok (by decide +kernel)
  have hnone : (blankPayload none).event upswingProvider = .ok (sixtyMonths none) :=
    event_eq_ok (by decide +kernel)
  have hmoney : (⟨false, 0, 2⟩ : Decimal).toRat = 0 := Decimal.toRat_eq_zero_iff.mpr rfl
  obtain ⟨-, -, row, hrow, hkeeps, hsame⟩ := stored_row_keeps_event hzero
  refine ⟨hzero, hnone, row, hrow, hkeeps.amount_null.mpr ?_, ?_⟩
  · rintro x ⟨⟩
    exact hmoney
  · exact (hsame upswingProvider _ _ _ hnone (insertedRows?_eventQuery _)).mpr ⟨rfl, hmoney⟩

end DepositSync
