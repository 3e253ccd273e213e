import DepositSync.Record

/-!
# DepositSync.Store.Table

A table of rows, at most one for each key, as the database keeps it: rows are ordered by their keys,
and each carries a flag that says whether a refresh was asked for. The operations are what the
statements on the table do.
-/

namespace DepositSync

/-- A row of a table: the record, and whether a refresh was asked for. -/
structure Row (ρ : Type) where
  record : ρ
  refresh : Bool
  deriving Repr

/-- The rows, in ascending order of their keys. -/
abbrev Table (ρ : Type) := List (Row ρ)

/-- Is the first key before the second? Clients decide, and providers between equal clients. -/
def keyBefore (a b : String × String) : Bool :=
  a.1 < b.1 || (a.1 == b.1 && a.2 < b.2)

variable {ρ : Type} [Record ρ]

/-- The key of a row. -/
def Row.key (r : Row ρ) : String × String := Record.key r.record

namespace Table

/-- The row of a key. -/
def find? (t : Table ρ) (key : String × String) : Option (Row ρ) :=
  List.find? (·.key == key) t

/-- Puts a row into its place, instead of the one with the same key if there is one. -/
def put (row : Row ρ) : Table ρ → Table ρ
  | [] => [row]
  | r :: rest =>
    if row.key = r.key then row :: rest
    else if keyBefore row.key r.key then row :: r :: rest
    else r :: put row rest

/-- The clients of a provider that are not invalid; only those with a request for a refresh if
`instantOnly`. -/
def list (provider : String) (instantOnly : Bool) (t : Table ρ) : List String :=
  (t.filter fun r => Record.provider r.record == provider && !Record.isInvalid r.record &&
    (!instantOnly || r.refresh)).map fun r => Record.client r.record

/-- Writes one record. A row that is already there keeps its creator and its request. -/
def upsertOne (t : Table ρ) (record : ρ) : Table ρ :=
  match t.find? (Record.key record) with
  | some old =>
    t.put ⟨Record.withCreatedBy (Record.createdBy old.record) record, old.refresh⟩
  | none => t.put ⟨record, false⟩

/-- Writes records, in order. -/
def upsert (records : List ρ) (t : Table ρ) : Table ρ :=
  records.foldl upsertOne t

/-- Clears the requests of a provider's clients; each of their rows is signed. -/
def mark (actor provider : String) (clients : List String) (t : Table ρ) : Table ρ :=
  t.map fun r =>
    if Record.provider r.record = provider ∧ Record.client r.record ∈ clients then
      ⟨Record.withUpdatedBy actor r.record, false⟩
    else r

/-- Deletes the stale rows, of every provider. -/
def deleteStale (t : Table ρ) : Table ρ :=
  t.filter fun r => !Record.isStale r.record

/-- Says whether a refresh of a client is asked for. -/
def setRefresh (client provider : String) (value : Bool) (t : Table ρ) : Table ρ :=
  t.map fun r => if r.key = (client, provider) then { r with refresh := value } else r

end Table

end DepositSync
