import DepositSync.Program
import DepositSync.Store.Error
import DepositSync.Store.Query

/-!
# DepositSync.Store.Database

The calls to the store, as exchanges with a database: each sends at most one statement and makes
sense of the reply. A call that has nothing to write or to mark sends none.
-/

namespace DepositSync

open Sql (Query)

/-- What a database replies. -/
inductive Reply where
  /-- The values of the rows' first column, where null is none. -/
  | rows (values : List (Option String))
  /-- The number of rows affected. -/
  | affected (n : Nat)
  deriving DecidableEq, Repr, Inhabited

/-- A computation that sends statements to a database. -/
abbrev Session (α : Type) := Program Query (fun _ => Except StoreError Reply) α

namespace Reply

/-- The texts of the rows, none of which may be null. -/
def texts : Reply → Except StoreError (List String)
  | affected _ => .ok []
  | rows values => values.mapM fun
    | some s => .ok s
    | none => .error (.nullColumn 0)

/-- The number of rows. -/
def count : Reply → Nat
  | affected n => n
  | rows values => values.length

end Reply

/-- Sends a statement and counts the rows affected. -/
def Session.execute (q : Query) : Session (Except StoreError Nat) :=
  .call q fun reply => .done (reply.map Reply.count)

variable {ρ : Type} [Stored ρ]

/-- Lists the clients of a provider that are not invalid; only those with a request for a refresh if
`instantOnly`. -/
def listClients (ρ : Type) [Stored ρ] (provider : String) (instantOnly : Bool) :
    Session (Except StoreError (List String)) :=
  .call (listQuery ρ provider instantOnly) fun reply => .done (reply.bind Reply.texts)

/-- Writes rows. -/
def upsertBatch (rows : List ρ) : Session (Except StoreError Nat) :=
  if rows.isEmpty then .done (.ok 0) else .execute (upsertQuery rows)

/-- Clears the requests of a provider's clients. -/
def markRefreshed (ρ : Type) [Stored ρ] (actor : Actor) (provider : String)
    (clients : List String) : Session (Except StoreError Nat) :=
  if clients.isEmpty then .done (.ok 0) else .execute (markQuery ρ actor provider clients)

/-- Deletes the stale rows. -/
def deleteStale (ρ : Type) [Stored ρ] : Session (Except StoreError Nat) :=
  .execute (deleteQuery ρ)

/-- Stores an event. -/
def saveEvent (e : WebhookEvent) : Session (Except StoreError Unit) :=
  .call (eventQuery e) fun reply => .done (reply.map fun _ => ())

end DepositSync
