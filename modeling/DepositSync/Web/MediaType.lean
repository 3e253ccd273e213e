/-!
# DepositSync.Web.MediaType

Media types as a content-type header gives them: a type and a subtype, and parameters with plain or
quoted values.
-/

namespace DepositSync.Web

/-- May the character stand in a type, a subtype, or the name or plain value of a parameter? -/
def isTokenChar (c : Char) : Bool :=
  c.isAlphanum || c ∈ ['!', '#', '$', '%', '&', '\'', '*', '+', '-', '.', '^', '_', Char.ofNat 96,
    '|', '~']

/-- May the character stand in a quoted value? -/
def isQuotedChar (c : Char) : Bool :=
  31 < c.toNat && c.toNat != 127

/-- What is left after a quoted value: nothing, or a semicolon and more parameters. -/
def afterQuoted? : List Char → Option (List Char)
  | [] => some []
  | ';' :: cs => some cs
  | ' ' :: cs => afterQuoted? cs
  | _ :: _ => none

/-- Are the characters well-formed parameters? `fuel` bounds their number. -/
def areParameters : (fuel : Nat) → List Char → Bool
  | 0, _ => false
  | fuel + 1, cs =>
    let cs := cs.dropWhile (· == ' ')
    if cs.isEmpty then true
    else
      match cs.span isTokenChar with
      | (_ :: _, '=' :: '\x22' :: value) =>
        match value with
        | c :: value =>
          match value.span fun c => c != '\x22' && isQuotedChar c with
          | (_, '\x22' :: rest) => isQuotedChar c && (afterQuoted? rest).any (areParameters fuel)
          | _ => false
        | [] => false
      | (_ :: _, '=' :: value) =>
        match value.span isTokenChar with
        | (_, []) => true
        | (_ :: _, ';' :: rest) => areParameters fuel rest
        | _ => false
      | _ => false

/-- Splits a subtype at its last plus sign, if it has one that is not at its beginning. -/
def splitSuffix (subtype : List Char) : List Char × Option (List Char) :=
  let tail := subtype.drop 1
  if tail.contains '+' then
    let suffix := (subtype.reverse.takeWhile (· != '+')).reverse
    (subtype.take (subtype.length - suffix.length - 1), some suffix)
  else (subtype, none)

/-- Is the media type `application/json`, or an application's own type that is written in JSON? -/
def isJson (s : String) : Bool :=
  let cs := s.toList.map Char.toLower
  match cs.span isTokenChar with
  | (kind, '/' :: rest) =>
    match rest.span isTokenChar with
    | (subtype, parameters) =>
      let (plain, suffix) := splitSuffix subtype
      let formed := match parameters with
        | [] => true
        | ';' :: parameters => areParameters (parameters.length + 1) parameters
        | _ => false
      kind == "application".toList && formed && !subtype.isEmpty &&
        (plain == "json".toList || suffix == some "json".toList)
  | _ => false

end DepositSync.Web
