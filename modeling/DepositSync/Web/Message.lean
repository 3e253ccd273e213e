import DepositSync.Json.Value

/-!
# DepositSync.Web.Message

Requests to the program's own HTTP surface, and its answers.
-/

namespace DepositSync.Web

/-- A header: its name, and its value in bytes. -/
structure Header where
  name : String
  value : List UInt8
  deriving Repr

/-- A request. The target is the path, with the query behind a question mark. -/
structure Request where
  method : String
  target : String
  headers : List Header
  body : List UInt8
  deriving Repr

namespace Request

/-- A name in lower case; names of headers and media types do not depend on the case. -/
def lower (s : String) : String := String.ofList (s.toList.map Char.toLower)

/-- The value of the first header of a name. -/
def header? (r : Request) (name : String) : Option (List UInt8) :=
  (r.headers.find? fun h => lower h.name == name).map Header.value

/-- Is the byte a visible ASCII character, a space or a tab? -/
def isVisible (b : UInt8) : Bool :=
  (0x20 ≤ b.toNat && b.toNat ≤ 0x7E) || b.toNat == 9

/-- The value of the first header of a name as text; with other bytes than visible ones, the
header counts as absent. -/
def headerText? (r : Request) (name : String) : Option String := do
  let bytes ← r.header? name
  if bytes.all isVisible then some (String.ofList (bytes.map fun b => Char.ofNat b.toNat))
  else none

/-- The path of the request: the target up to the query, without scheme and authority. -/
def path (r : Request) : List Char :=
  let cs := r.target.toList.takeWhile fun c => c != '?' && c != '#'
  if cs.head? == some '/' then cs
  else
    match cs.dropWhile (· != ':') with
    | ':' :: '/' :: '/' :: rest => rest.dropWhile (· != '/')
    | _ => cs

end Request

/-- The body of an answer. -/
inductive Body where
  | empty
  | text (s : String)
  | json (v : Json.Value)

/-- An answer: `allow` names the methods that would have been accepted. -/
structure Response where
  status : Nat
  contentType : Option String
  allow : Option String
  body : Body

namespace Response

/-- An answer without a body. -/
def bare (status : Nat) : Response := ⟨status, none, none, .empty⟩

/-- An answer in plain text. -/
def plain (status : Nat) (s : String) : Response :=
  ⟨status, some "text/plain; charset=utf-8", none, .text s⟩

/-- An answer in JSON. -/
def json (status : Nat) (v : Json.Value) : Response :=
  ⟨status, some "application/json", none, .json v⟩

/-- The answer with the body left out. -/
def withoutBody (r : Response) : Response := { r with body := .empty }

end Response

end DepositSync.Web
