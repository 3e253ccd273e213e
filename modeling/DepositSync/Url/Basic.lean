import DepositSync.Url.Host
import DepositSync.Width

/-!
# DepositSync.Url.Basic

Addresses of web resources. Reading an address brings it into its normal form: blanks around it and
line breaks inside it are dropped, a backslash counts as a slash, the segments that mean "here" and
"one up" are resolved, and what may not stand in an address is percent-encoded.

A user name and a password in front of the host are passed over.
-/

namespace DepositSync

/-- The address of a web resource, in its normal form. -/
structure Url where
  /-- Is the connection encrypted? -/
  secure : Bool
  host : Host
  /-- The port, unless it is the usual one. -/
  port : Option Nat
  /-- The segments of the path. -/
  path : List (List Char)
  query : Option (List Char)
  fragment : Option (List Char)
  deriving DecidableEq, Repr, Inhabited

namespace Url

/-! ### What is encoded -/

/-- Is the character a control or no ASCII character? -/
def isControl (c : Char) : Bool :=
  c.toNat < 0x20 || 0x7F ≤ c.toNat

/-- Is the character encoded in a fragment? -/
def escapesInFragment (c : Char) : Bool :=
  isControl c || [' ', '\x22', '<', '>', Char.ofNat 96].contains c

/-- Is the character encoded in a path? -/
def escapesInPath (c : Char) : Bool :=
  escapesInFragment c || ['#', '?', '\x7b', '\x7d'].contains c

/-- Is the character encoded in a query? -/
def escapesInQuery (c : Char) : Bool :=
  isControl c || [' ', '\x22', '#', '<', '>', '\''].contains c

/-! ### Parts of an address -/

/-- Does the character separate segments? -/
def isSlash (c : Char) : Bool :=
  c == '/' || c == '\\'

/-- Is the character dropped around an address? -/
def isSpace (c : Char) : Bool :=
  c.toNat ≤ 0x20

/-- The text without what is dropped around an address and inside it. -/
def cleaned (cs : List Char) : List Char :=
  let inner := ((cs.dropWhile isSpace).reverse.dropWhile isSpace).reverse
  inner.filter fun c => !(c == '\t' || c == '\n' || c == '\r')

/-- The kind of address, which says whether the connection is encrypted. -/
def secure? (scheme : List Char) : Option Bool :=
  match String.ofList (scheme.map Char.toLower) with
  | "http" => some false
  | "https" => some true
  | _ => none

/-- The usual port. -/
def usualPort (secure : Bool) : Nat :=
  if secure then 443 else 80

/-- The largest port. -/
def maxPort : Nat := Width.maxNat 16

/-- The port behind the host; none if it is the usual one or not said. -/
def port? (secure : Bool) (cs : List Char) : Option (Option Nat) :=
  if cs.isEmpty then some none
  else do
    let n ← Text.digits? cs
    if maxPort < n then none
    else some (if n = usualPort secure then none else some n)

/-- Host and port, with a colon between them that is not inside brackets. -/
def splitPort (bracketed : Bool) : List Char → List Char × List Char
  | [] => ([], [])
  | c :: rest =>
    if c = ':' ∧ !bracketed then ([], rest)
    else
      let (host, port) := splitPort ((bracketed || c == '[') && c != ']') rest
      (c :: host, port)

/-- Does the segment mean this place? -/
def isHere (segment : List Char) : Bool :=
  [".", "%2e"].contains (String.ofList (segment.map Char.toLower))

/-- Does the segment mean the place one up? -/
def isUp (segment : List Char) : Bool :=
  ["..", ".%2e", "%2e.", "%2e%2e"].contains (String.ofList (segment.map Char.toLower))

/-- The segments with those resolved that mean this place or the one above; `before` holds what
comes before them, the nearest one first. -/
def resolve (before : List (List Char)) : List (List Char) → List (List Char)
  | [] => before.reverse
  | [s] =>
    if isUp s then ([] :: before.drop 1).reverse
    else if isHere s then ([] :: before).reverse
    else (Text.percentEncode escapesInPath s :: before).reverse
  | s :: rest =>
    if isUp s then resolve (before.drop 1) rest
    else if isHere s then resolve before rest
    else resolve (Text.percentEncode escapesInPath s :: before) rest

/-- The segments of a path. -/
def segments (cs : List Char) : List (List Char) :=
  resolve [] ((cs.drop 1).splitOnP isSlash)

/-- The text up to a mark, and what follows the mark if there is one. -/
def cut (mark : Char) (cs : List Char) : List Char × Option (List Char) :=
  let (before, rest) := cs.span (· != mark)
  (before, rest.tail?)

/-- What follows the last at sign. -/
def withoutUser (cs : List Char) : List Char :=
  (cs.reverse.takeWhile (· != '@')).reverse

/-! ### Reading and writing -/

/-- The address a text stands for, if it is the address of a web resource. -/
def ofText? (s : String) : Option Url := do
  let (scheme, rest) := cut ':' (cleaned s.toList)
  let secure ← secure? scheme
  let rest := (← rest).dropWhile isSlash
  let (authority, rest) := rest.span fun c => !(isSlash c || c == '?' || c == '#')
  let (host, port) := splitPort false (withoutUser authority)
  let host ← Host.ofText? host
  let port ← port? secure port
  let (rest, fragment) := cut '#' rest
  let (path, query) := cut '?' rest
  return ⟨secure, host, port, segments path, query.map (Text.percentEncode escapesInQuery),
    fragment.map (Text.percentEncode escapesInFragment)⟩

/-- Path and query, which is what a request for the resource names. -/
def target (u : Url) : List Char :=
  u.path.flatMap ('/' :: ·) ++ (u.query.map ('?' :: ·)).getD []

/-- The address as text. -/
def text (u : Url) : String :=
  String.ofList <| (if u.secure then "https://" else "http://").toList ++ u.host.text ++
    (u.port.map fun n => ':' :: Text.ofNat n).getD [] ++ u.target ++
    (u.fragment.map ('#' :: ·)).getD []

/-- Adds fields to the query. A query that stays empty is dropped. -/
def withFields (fields : List (String × String)) (u : Url) : Url :=
  let before := u.query.getD []
  let added := Text.formFields fields
  let query := if before.isEmpty ∨ added.isEmpty then before ++ added else before ++ '&' :: added
  { u with query := if query.isEmpty then none else some query }

end Url

end DepositSync
