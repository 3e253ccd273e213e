import DepositSync.Json.Reading

/-!
# DepositSync.Json.Value

JSON values that are kept whole: read with a limit on how deeply arrays and objects may nest, and
written without blanks. Members keep their order; of several members with one key the last counts.
-/

namespace DepositSync.Json

/-- A JSON value. -/
inductive Value where
  | null
  | bool (b : Bool)
  | number (n : Numeral)
  | string (s : String)
  | array (items : List Value)
  | object (members : List (String × Value))
  deriving Repr, Inhabited

namespace Value

/-- A whole number. -/
def int (n : Int) : Value :=
  .number (.ofInt n)

/-- A whole number. -/
def nat (n : Nat) : Value :=
  .int n

/-- A value that may be null. -/
def optional {α : Type} (write : α → Value) : Option α → Value
  | none => .null
  | some a => write a

/-- The value of a key in an object. -/
def get? (v : Value) (key : String) : Option Value :=
  match v with
  | .object members => (members.reverse.find? (·.1 == key)).map Prod.snd
  | _ => none

/-- The text, if the value is one. -/
def text? : Value → Option String
  | .string s => some s
  | _ => none

end Value

/-! ### Reading -/

/-- How many arrays and objects may lie inside one another. -/
def maxNesting : Nat := 127

mutual

/-- The value of a tree; `depth` more levels of nesting are allowed. -/
def Tree.value (depth : Nat) : Tree → Except ReadError Value
  | .null => .ok .null
  | .bool b => .ok (.bool b)
  | .number n =>
    if n.toInt?.isSome || n.toBinary64?.isSome then .ok (.number n) else .error .malformed
  | .string s => s.keep.map .string
  | .array items ending =>
    if depth = 0 then .error .malformed
    else do
      let vs ← itemValues (depth - 1) items
      ending.check
      pure (.array vs)
  | .object members ending =>
    if depth = 0 then .error .malformed
    else do
      let vs ← memberValues (depth - 1) members
      ending.check
      pure (.object vs)
  | .unread why => .error why.whenRead

/-- The values of the items of an array. -/
def itemValues (depth : Nat) : List Tree → Except ReadError (List Value)
  | [] => .ok []
  | t :: rest => do
    let v ← t.value depth
    let vs ← itemValues depth rest
    pure (v :: vs)

/-- The values of the members of an object. -/
def memberValues (depth : Nat) :
    List (RawString × Tree) → Except ReadError (List (String × Value))
  | [] => .ok []
  | (key, t) :: rest => do
    let k ← key.keep
    let v ← t.value depth
    let vs ← memberValues depth rest
    pure ((k, v) :: vs)

end

/-- The value a text stands for. -/
def Value.ofText (s : String) : Except ReadError Value :=
  (Document.ofText s).read (Tree.value maxNesting)

/-! ### Writing -/

/-- One character inside a written string: quotes, backslashes and controls are escaped. -/
def escapedChar (c : Char) : List Char :=
  if c = '\x22' then ['\\', '\x22']
  else if c = '\\' then ['\\', '\\']
  else if c = '\x08' then ['\\', 'b']
  else if c = '\x0c' then ['\\', 'f']
  else if c = '\n' then ['\\', 'n']
  else if c = '\r' then ['\\', 'r']
  else if c = '\t' then ['\\', 't']
  else if c.toNat < 0x20 then
    ['\\', 'u', '0', '0', Text.hexDigit (c.toNat / 16), Text.hexDigit (c.toNat % 16)]
  else [c]

/-- A string between quotes. -/
def writeString (s : String) : List Char :=
  '\x22' :: s.toList.flatMap escapedChar ++ ['\x22']

mutual

/-- The value as text, without blanks. -/
def Value.write : Value → List Char
  | .null => ['n', 'u', 'l', 'l']
  | .bool true => ['t', 'r', 'u', 'e']
  | .bool false => ['f', 'a', 'l', 's', 'e']
  | .number n => n.text
  | .string s => writeString s
  | .array items => '[' :: writeItems items ++ [']']
  | .object members => '\x7b' :: writeMembers members ++ ['\x7d']

/-- The items of an array, with commas between them. -/
def writeItems : List Value → List Char
  | [] => []
  | [v] => v.write
  | v :: rest => v.write ++ ',' :: writeItems rest

/-- The members of an object, with commas between them. -/
def writeMembers : List (String × Value) → List Char
  | [] => []
  | [(k, v)] => writeString k ++ ':' :: v.write
  | (k, v) :: rest => writeString k ++ ':' :: v.write ++ ',' :: writeMembers rest

end

/-- The value as text, without blanks. -/
def Value.text (v : Value) : String :=
  String.ofList v.write

end DepositSync.Json
