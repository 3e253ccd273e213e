import DepositSync.Job.Name
import DepositSync.Text.Percent
import DepositSync.Web.Message

/-!
# DepositSync.Web.Router

Which request means what. A path has to match exactly, percent signs and trailing slashes included;
only the last segment, which names the way to refresh, is percent-decoded.
-/

namespace DepositSync.Web

/-- The tables an operator can have refreshed. -/
inductive Target where
  | portfolio
  | pendingJourney
  deriving DecidableEq, Repr

/-- What a request means. -/
inductive Route where
  /-- An operator asks for a run; `quiet` leaves out the body of the answer. -/
  | refresh (target : Target) (mode : RefreshMode) (quiet : Bool)
  /-- The vendor posts an event. -/
  | event
  /-- There is nothing to do; the answer is known. -/
  | settled (response : Response)

/-- The paths that are served. -/
inductive Place where
  | refresh (target : Target)
  /-- With the last segment as it stands in the path. -/
  | refreshWith (target : Target) (refresher : List Char)
  | webhook
  deriving DecidableEq, Repr

/-- The path that has a target refreshed. -/
def Target.path : Target → List Char
  | .portfolio => "/v1/jobs/update/portfolio".toList
  | .pendingJourney => "/v1/jobs/update/pendingJourney".toList

/-- The path to which the vendor posts events. -/
def webhookPath : List Char := "/webhook/upswing/external/capture/event".toList

/-- The last segment, if the path is the target's with one more segment. -/
def Target.refresher? (t : Target) (path : List Char) : Option (List Char) :=
  if t.path.isPrefixOf path then
    match path.drop t.path.length with
    | '/' :: segment => if segment.isEmpty || segment.contains '/' then none else some segment
    | _ => none
  else none

/-- The place at a path. -/
def place? (path : List Char) : Option Place :=
  if path = webhookPath then some .webhook
  else
    [Target.portfolio, .pendingJourney].findSome? fun t =>
      if path = t.path then some (.refresh t) else (t.refresher? path).map (.refreshWith t)

/-- The answer to a method that a place does not serve. -/
def notAllowed (allow : String) : Response :=
  { Response.bare 405 with allow := some allow }

/-- The answer to a last segment that is not UTF-8. -/
def notText : Response :=
  .plain 400 "Invalid URL: Invalid UTF-8 in `refresher`"

/-- The meaning of a request that has a target refreshed. -/
def refreshRoute (t : Target) (refresher : List Char) (method : String) : Route :=
  if method = "GET" ∨ method = "HEAD" then
    let quiet := method = "HEAD"
    match Text.Utf8.text? (Text.percentDecode refresher) with
    | some s => .refresh t (.ofRefresher s) quiet
    | none => .settled (if quiet then notText.withoutBody else notText)
  else .settled (notAllowed "GET,HEAD")

/-- What a request means. -/
def route (r : Request) : Route :=
  match place? r.path with
  | none => .settled (.bare 404)
  | some .webhook => if r.method = "POST" then .event else .settled (notAllowed "POST")
  | some (.refresh t) => refreshRoute t [] r.method
  | some (.refreshWith t refresher) => refreshRoute t refresher r.method

end DepositSync.Web
