import DepositSync.Store.Schema

/-!
# DepositSync.Store.Query

The statements on each table, with the values of their placeholders. Writing rows takes one
placeholder for each column of each row, counted through the whole statement. A row that is there
already keeps its key, its creator and its request for a refresh.
-/

namespace DepositSync

open Sql (Value Expression Condition Assignment Conflict Insert Statement Query)

/-! ### Writing rows -/

/-- The placeholders of a row; the first one is number `first`. -/
def boundTuple (width first : Nat) : List Expression :=
  (List.range width).map fun i => .bound (first + i)

/-- The placeholders of so many rows, counted from one through all of them. -/
def boundTuples (width count : Nat) : List (List Expression) :=
  (List.range count).map fun i => boundTuple width (i * width + 1)

@[simp] theorem length_boundTuple (width first : Nat) :
    (boundTuple width first).length = width := by
  simp [boundTuple]

@[simp] theorem length_boundTuples (width count : Nat) :
    (boundTuples width count).length = count := by
  simp [boundTuples]

/-- What happens to a column of a row that is there already. The time of writing is kept with the
name of the writer. -/
def changesOf (column : String) : List Assignment :=
  if column ∈ createdByColumn :: keyColumns then []
  else if column = updatedByColumn then [.proposed column, .now updatedAtColumn]
  else [.proposed column]

variable {ρ : Type} [Stored ρ]

/-- The names of the columns that are written with a row. -/
def columnNames (ρ : Type) [Stored ρ] : List String :=
  (Stored.columns (ρ := ρ)).map Column.name

/-- The values of a row, in the order of the columns. -/
def rowValues (r : ρ) : List Value :=
  Stored.columns.map fun c : Column ρ => c.value r

@[simp] theorem length_rowValues (r : ρ) : (rowValues r).length = (columnNames ρ).length := by
  simp [rowValues, columnNames]

/-- The statement that writes so many rows. -/
def upsertInsert (ρ : Type) [Stored ρ] (count : Nat) : Insert where
  table := Stored.table ρ
  columns := columnNames ρ
  tuples := boundTuples (columnNames ρ).length count
  conflict := some ⟨keyColumns, (columnNames ρ).flatMap changesOf⟩
  layout := .line

/-- Writes rows in the places of those with the same keys. -/
def upsertQuery (rows : List ρ) : Query :=
  ⟨.insert (upsertInsert ρ rows.length), rows.flatMap rowValues⟩

/-! ### Listing, marking and deleting rows -/

/-- Asks for the clients of a provider that are not invalid; only those with a request for a refresh
if `instantOnly`. -/
def listQuery (ρ : Type) [Stored ρ] (provider : String) (instantOnly : Bool) : Query where
  statement := .select clientColumn (Stored.table ρ) <|
    [.isBound providerColumn 1, .is invalidColumn (.flag false)] ++
      (if instantOnly then [.is refreshColumn (.flag true)] else [])
  parameters := [.text provider]

/-- Clears the requests of a provider's clients. -/
def markQuery (ρ : Type) [Stored ρ] (actor : Actor) (provider : String) (clients : List String) :
    Query where
  statement := .update (Stored.table ρ)
    [.literal refreshColumn (.flag false), .bound updatedByColumn 1, .now updatedAtColumn]
    [.isBound providerColumn 2, .isAmong clientColumn 3]
  parameters := [.text actor.name, .text provider, .texts clients]

/-- Deletes the stale rows, of every provider. -/
def deleteQuery (ρ : Type) [Stored ρ] : Query where
  statement := .delete (Stored.table ρ) (Stored.staleWhen ρ)
  parameters := []

/-! ### Storing events -/

/-- What goes into a column whose placeholder is number `n`. -/
def EventColumn.expression (c : EventColumn) (n : Nat) : Expression :=
  match c.nullIf with
  | none => .bound n
  | some l => .nullIf n l

/-- The statement that stores an event. -/
def eventInsert : Insert where
  table := eventTable
  columns := eventColumns.map EventColumn.name
  tuples := [eventColumns.mapIdx fun i c => c.expression (i + 1)]
  conflict := none
  layout := .block 7 12

/-- Stores an event. -/
def eventQuery (e : WebhookEvent) : Query :=
  ⟨.insert eventInsert, eventColumns.map (·.value e)⟩

end DepositSync
