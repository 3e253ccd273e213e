import DepositSync.Text.Utf8
import DepositSync.Url.Basic

/-!
# DepositSync.Http.Message

Requests to other services, and their answers. Only a request whose address and headers are valid
can be made at all.
-/

namespace DepositSync.Http

/-- What a request does. -/
inductive Method where
  | get
  | post
  deriving DecidableEq, Repr, Inhabited

/-- The method as text. -/
def Method.name : Method → String
  | get => "GET"
  | post => "POST"

/-- A header, its name in lower case. -/
structure Header where
  name : String
  value : String
  deriving DecidableEq, Repr, Inhabited

namespace Header

/-- May the character stand in a name? -/
def isNameChar (c : Char) : Bool :=
  c.isAlphanum || ['!', '#', '$', '%', '&', '\'', '*', '+', '-', '.', '^', '_', Char.ofNat 96, '|',
    '~'].contains c

/-- May the character stand in a value? Only controls may not, a tab excepted. -/
def isValueChar (c : Char) : Bool :=
  c == '\t' || (0x20 ≤ c.toNat && c.toNat != 0x7F)

/-- The header of a name and a value, if they are valid. -/
def ofPair? (name value : String) : Option Header :=
  if name.toList ≠ [] ∧ name.toList.all isNameChar ∧ value.toList.all isValueChar then
    some ⟨String.ofList (name.toList.map Char.toLower), value⟩
  else none

end Header

/-- A request. -/
structure Request where
  method : Method
  url : Url
  headers : List Header
  body : String
  deriving DecidableEq, Repr, Inhabited

namespace Request

/-- Adds a header behind the others. -/
def withHeader (h : Header) (r : Request) : Request :=
  { r with headers := r.headers ++ [h] }

/-- Adds a header unless there is one of its name. -/
def withDefault (h : Header) (r : Request) : Request :=
  if r.headers.any (·.name == h.name) then r else r.withHeader h

/-- Where nothing else is said, every kind of answer is accepted. -/
def acceptAll : Header := ⟨"accept", "*/*"⟩

/-- The kind of body that holds form fields. -/
def formContent : Header := ⟨"content-type", "application/x-www-form-urlencoded"⟩

/-- Signs the request with an access token, if the token can stand in a header. -/
def withToken? (token : String) (r : Request) : Option Request :=
  (Header.ofPair? "authorization" s!"Bearer {token}").map r.withHeader

/-- Puts form fields into the body. -/
def withForm (fields : List (String × String)) (r : Request) : Request :=
  { r.withDefault formContent with body := String.ofList (Text.formFields fields) }

end Request

/-- Why a request has no answer. -/
inductive SendFailure where
  /-- There was no connection in time. -/
  | unreachable
  /-- The connection was closed before the answer. -/
  | interrupted
  deriving DecidableEq, Repr, Inhabited

/-- An answer. -/
structure Response where
  status : Nat
  body : List UInt8
  /-- Has the body arrived as a whole? -/
  complete : Bool
  deriving DecidableEq, Repr, Inhabited

/-- The text of the body, if it has arrived as a whole. -/
def Response.text? (r : Response) : Option String :=
  if r.complete then some (Text.Utf8.lossy r.body) else none

/-- What becomes of a request. -/
abbrev Outcome := Except SendFailure Response

end DepositSync.Http
