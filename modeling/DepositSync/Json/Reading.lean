import DepositSync.Decimal.Reading
import DepositSync.Json.Tree
import DepositSync.Structured
import DepositSync.Width

/-!
# DepositSync.Json.Reading

Typed values out of JSON documents, with three kinds of error: the text ends early, it is not
JSON, or it is JSON of the wrong type or range. Values are taken in document order and the first
problem decides. A record may be written as an object, or as an array of its fields in order.
-/

namespace DepositSync.Json

/-- What went wrong when a value was read. -/
inductive ReadError where
  /-- The text ended before the value did. -/
  | truncated
  /-- The text is not JSON. -/
  | malformed
  /-- The text is JSON, and not the value asked for. -/
  | mismatched
  deriving DecidableEq, Repr, Inhabited

/-- What a stop means to one who wants the value. -/
def Stop.whenRead : Stop → ReadError
  | .truncated => .truncated
  | .malformed => .malformed
  | .cutWord => .truncated
  | .cutNumeral => .truncated

/-- What a stop means to one who skips the value. -/
def Stop.whenSkipped : Stop → ReadError
  | .truncated => .truncated
  | .malformed => .malformed
  | .cutWord => .truncated
  | .cutNumeral => .malformed

/-! ### Strings -/

/-- Is the unit the first of a surrogate pair? -/
def isLeading (n : Nat) : Bool :=
  0xD800 ≤ n && n ≤ 0xDBFF

/-- Is the unit the second of a surrogate pair? -/
def isTrailing (n : Nat) : Bool :=
  0xDC00 ≤ n && n ≤ 0xDFFF

/-- The characters of a string, with `none` for bytes that are not UTF-8. -/
def resolve (ending : Ending) : List Piece → Except ReadError (List (Option Char))
  | [] => match ending with
    | .closed => .ok []
    | .stopped why => .error why.whenRead
  | .char c :: rest => (resolve ending rest).map (some c :: ·)
  | .stray :: rest => (resolve ending rest).map (none :: ·)
  | .unit n :: rest =>
    if isTrailing n then .error .malformed
    else if isLeading n then
      match rest with
      | .unit m :: rest =>
        if isTrailing m then
          let c := Char.ofNat ((n - 0xD800) * 0x400 + (m - 0xDC00) + 0x10000)
          (resolve ending rest).map (some c :: ·)
        else .error .malformed
      | [] => if ending = .stopped .truncated then .error .truncated else .error .malformed
      | _ :: _ => .error .malformed
    else (resolve ending rest).map (some (Char.ofNat n) :: ·)

/-- The text of a string that is kept. -/
def RawString.keep (s : RawString) : Except ReadError String := do
  match (← resolve s.ending s.pieces).mapM id with
  | some cs => .ok (String.ofList cs)
  | none => .error .malformed

/-! ### Scalars -/

/-- Passes over a value. -/
def skip (t : Tree) : Except ReadError Unit :=
  match t.stop? with
  | none => .ok ()
  | some why => .error why.whenSkipped

/-- The error of finding another kind of value than the one asked for. A string or a number is
read before it is refused, so its own error comes first. -/
def refuse : Tree → ReadError
  | .string s => match s.keep with
    | .ok _ => .mismatched
    | .error e => e
  | .number n => if n.toInt?.isSome || n.toBinary64?.isSome then .mismatched else .malformed
  | .unread why => why.whenRead
  | .null | .bool _ | .array _ _ | .object _ _ => .mismatched

/-- A flag. -/
def bool : Tree → Except ReadError Bool
  | .bool b => .ok b
  | t => .error (refuse t)

/-- A text. -/
def text : Tree → Except ReadError String
  | .string s => s.keep
  | t => .error (refuse t)

/-- A whole number within limits. -/
def integer (low high : Int) : Tree → Except ReadError Int
  | .number n => match n.toInt? with
    | some i => if low ≤ i ∧ i ≤ high then .ok i else .error .mismatched
    | none => .error (refuse (.number n))
  | t => .error (refuse t)

/-- A signed number of 32 bits. -/
def int32 : Tree → Except ReadError Int :=
  integer (Width.minInt 32) (Width.maxInt 32)

/-- A signed number of 64 bits. -/
def int64 : Tree → Except ReadError Int :=
  integer (Width.minInt 64) (Width.maxInt 64)

/-- A whole number from zero up to a limit. -/
def natural (limit : Nat) (t : Tree) : Except ReadError Nat :=
  (integer 0 limit t).map Int.toNat

/-- An amount. A whole number that fits 64 bits is exact, any other number goes through a double,
and a string is read as the text of an amount. -/
def decimal : Tree → Except ReadError Decimal
  | .number n => match n.toInt?, n.toBinary64? with
    | some i, _ => .ok (Decimal.ofInt i)
    | none, some x => ((Decimal.ofDouble? n.negative x).map .ok).getD (.error .mismatched)
    | none, none => .error .malformed
  | .string s => do
    let cs ← s.keep
    ((Decimal.ofText? cs.toList).map .ok).getD (.error .mismatched)
  | t => .error (refuse t)

/-- A value that may be null. -/
def optional {α : Type} (read : Tree → Except ReadError α) : Tree → Except ReadError (Option α)
  | .null => .ok none
  | .unread why => .error why.whenRead
  | t => (read t).map some

/-- The error of an array or an object that has no end. -/
def Ending.check : Ending → Except ReadError Unit
  | .closed => .ok ()
  | .stopped why => .error why.whenRead

/-! ### Choices, dictionaries, records -/

/-- The name in an object that stands for a named value. What stands in its place is refused. -/
def choiceKey (key : RawString) (t : Tree) : Except ReadError String :=
  if key.pieces.isEmpty && key.ending != .closed then .error (refuse t) else key.keep

/-- One of several named values: its name, or an object with the name as its only key and null as
the value. -/
def choice {α : Type} (named : String → Option α) : Tree → Except ReadError α
  | .string s => do
    match named (← s.keep) with
    | some a => .ok a
    | none => .error .mismatched
  | .object [] ending => do
    ending.check
    .error .malformed
  | .object ((key, t) :: more) ending => do
    match named (← choiceKey key t) with
    | none => .error .mismatched
    | some a =>
      match t with
      | .null => if more.isEmpty then ending.check.map fun _ => a else .error .malformed
      | t => .error (refuse t)
  | .unread .truncated => .error .truncated
  | _ => .error .malformed

/-- Texts by key; of several members with one key the last counts. -/
def dictionary : Tree → Except ReadError Dictionary
  | .object members ending => do
    let entries ← members.mapM fun (key, t) => do
      let k ← key.keep
      let v ← text t
      pure (k, v)
    ending.check
    pure (.ofList entries)
  | t => .error (refuse t)

/-- Reads the members of a record written as an object; `seen` holds the names met so far. -/
def readFields {α : Type} (fields : List (Field Tree ReadError α)) (ending : Ending) :
    (seen : List String) → α → List (RawString × Tree) → Except ReadError α
  | seen, a, [] => do
    ending.check
    if fields.all fun f => f.absence != .required || seen.contains f.name then .ok a
    else .error .mismatched
  | seen, a, (key, t) :: rest => do
    let name ← key.keep
    match fields.find? (·.name == name) with
    | none =>
      skip t
      readFields fields ending seen a rest
    | some f =>
      if seen.contains name then .error .mismatched
      else
        let a ← f.read t a
        readFields fields ending (name :: seen) a rest

/-- Reads a record written as an array of its fields in order. Items beyond the last field are no
part of it. -/
def readPositions {α : Type} (ending : Ending) :
    List (Field Tree ReadError α) → α → List Tree → Except ReadError α
  | [], a, [] => ending.check.map fun _ => a
  | [], _, _ :: _ => .error .malformed
  | f :: fields, a, [] => do
    ending.check
    if f.absence = .defaulted then readPositions ending fields a [] else .error .mismatched
  | f :: fields, a, t :: rest => do
    let a ← f.read t a
    readPositions ending fields a rest

/-- A record, beginning with the values of `base`. -/
def record {α : Type} (fields : List (Field Tree ReadError α)) (base : α) :
    Tree → Except ReadError α
  | .object members ending => readFields fields ending [] base members
  | .array items ending => readPositions ending fields base items
  | t => .error (refuse t)

instance : Structured Tree ReadError where
  bool := bool
  text := text
  natural := natural
  optional := optional
  dictionary := dictionary
  record := record

/-! ### Documents -/

/-- Reads the whole document as one value: nothing but blanks may follow it. -/
def Document.read {α : Type} (d : Document) (read : Tree → Except ReadError α) :
    Except ReadError α := do
  let a ← read d.root
  if d.trailing then .error .malformed else .ok a

end DepositSync.Json
