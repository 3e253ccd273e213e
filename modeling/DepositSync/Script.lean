import DepositSync.Connected

/-!
# DepositSync.Script

A world that follows a script: the vendor's answers and the database's replies are taken from lists,
in the order of the requests and the statements, both of which are recorded. Time stands still.
-/

namespace DepositSync

open Http (Request Outcome)

/-- A scripted world. -/
structure Script where
  /-- Is there a network at all? -/
  online : Bool
  /-- Where the vendor listens; nothing listens anywhere else. -/
  vendor : Url
  clock : Time.Moment
  /-- What becomes of the next requests. -/
  outcomes : List Outcome
  /-- What becomes of the requests after them. -/
  fallback : Outcome
  /-- The database's replies to the next statements. -/
  replies : List (Except StoreError Reply)
  /-- The requests that reached the vendor. -/
  requests : List Request
  /-- The statements that reached the database. -/
  queries : List Sql.Query

namespace Script

/-- A world without a network. -/
def offline : Script := ⟨false, default, .ofMillis 0, [], .error .unreachable, [], [], []⟩

/-- Does the vendor listen at the address? -/
def listens (s : Script) (u : Url) : Bool :=
  s.online && u.secure == s.vendor.secure && u.host == s.vendor.host && u.port == s.vendor.port

/-- A request, and what becomes of it. -/
def send (r : Request) (s : Script) : Outcome × Script :=
  if s.listens r.url then
    (s.outcomes.headD s.fallback,
      { s with outcomes := s.outcomes.tail, requests := s.requests ++ [r] })
  else (.error .unreachable, s)

/-- The reply to a statement that the script says nothing about: nothing was affected. -/
def usualReply : Except StoreError Reply := .ok (.affected 0)

/-- A statement, and the reply to it. -/
def query (q : Sql.Query) (s : Script) : Except StoreError Reply × Script :=
  (s.replies.headD usualReply, { s with replies := s.replies.tail, queries := s.queries ++ [q] })

/-- What a connection fails with when there is no network. -/
def noNetwork : StoreError := .connection "Network is unreachable (os error 101)"

/-- Is there a way to the database? -/
def connect (s : Script) : Except StoreError Unit :=
  if s.online then .ok () else .error noNetwork

/-- Answers a call. -/
def answer (c : WorldCall) (s : Script) : c.Answer × Script :=
  match c with
  | .vendor .now => (s.clock, s)
  | .vendor (.pause _) => ((), s)
  | .vendor (.send r) => s.send r
  | .connect _ => (s.connect, s)
  | .database q => s.query q

/-- Runs a computation of the connected jobs. -/
def run {α : Type} (p : Connected α) (cache : TokenCache) (s : Script) :
    Option (α × TokenCache) × Script :=
  Program.run answer (p cache).run s

/-- The world for a new part of the script: what was left of the last part is dropped, and the
records are empty. -/
def turn (outcomes : List Outcome) (replies : List (Except StoreError Reply)) (s : Script) :
    Script :=
  { s with outcomes := outcomes, replies := replies, requests := [], queries := [] }

end Script

end DepositSync
