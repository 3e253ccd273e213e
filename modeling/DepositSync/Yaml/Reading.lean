import DepositSync.Structured
import DepositSync.Text.Hex
import DepositSync.Yaml.Node

/-!
# DepositSync.Yaml.Reading

Typed values out of YAML documents. What a plain scalar is follows from what is asked for: as a
text it is the text it is written as, and only as a flag or a number it has to look like one. An
empty place, or a document that is missing altogether, is a record in which everything keeps its
default.
-/

namespace DepositSync.Yaml

/-- The document is not YAML, or not what was asked for. -/
structure Unreadable where
  deriving DecidableEq, Repr, Inhabited

/-- A place in a document: the node there, if the document has any, and the nodes that aliases
mean. -/
structure Cursor where
  anchors : Anchors
  node? : Option Node
  deriving Repr, Inhabited

namespace Cursor

/-- The beginning of a document. -/
def root (n : Option Node) : Cursor :=
  ⟨(n.map Node.anchors).getD [], n⟩

/-- Another node of the same document. -/
def child (c : Cursor) (n : Node) : Cursor :=
  ⟨c.anchors, some n⟩

/-- The node, an alias being replaced by the last node that has its number. -/
def resolved? (c : Cursor) : Option Node :=
  match c.node? with
  | some (.alias id) => c.anchors.reverse.lookup id
  | n => n

end Cursor

/-! ### Scalars -/

/-- Does the text mean null? -/
def isNull (s : String) : Bool :=
  s ∈ ["null", "Null", "NULL", "~"]

/-- The flag a text means. -/
def flag? (s : String) : Option Bool :=
  if s ∈ ["true", "True", "TRUE"] then some true
  else if s ∈ ["false", "False", "FALSE"] then some false
  else none

/-- The value of digits in a base up to sixteen. -/
def digitsIn? (base : Nat) (cs : List Char) : Option Nat :=
  if cs.isEmpty then none
  else cs.foldlM (fun n c => do
    let d ← Text.hexValue? c
    if d < base then some (n * base + d) else none) 0

/-- The number a text means: decimal digits without leading zeros, or digits behind the mark of
their base; one plus sign may come before. -/
def number? (s : String) : Option Nat :=
  let cs := if s.toList.head? == some '+' then s.toList.drop 1 else s.toList
  match cs with
  | '0' :: 'x' :: ds => digitsIn? 16 ds
  | '0' :: 'o' :: ds => digitsIn? 8 ds
  | '0' :: 'b' :: ds => digitsIn? 2 ds
  | '0' :: _ :: _ => none
  | ds => digitsIn? 10 ds

/-- The full tags of the kinds of scalars. -/
def nullTag : String := "tag:yaml.org,2002:null"

/-- The full tag of flags. -/
def boolTag : String := "tag:yaml.org,2002:bool"

/-- The full tag of whole numbers. -/
def intTag : String := "tag:yaml.org,2002:int"

/-- The text of a scalar that may be a value of a kind: plain scalars may be anything, and a block
may be what its tag says. -/
def scalarOf (tag : String) (c : Cursor) : Except Unreadable String :=
  match c.resolved? with
  | some (.scalar _ .plain s) => .ok s
  | some (.scalar mark .literal s) => if mark.tag = some tag then .ok s else .error ⟨⟩
  | _ => .error ⟨⟩

/-- A flag. -/
def bool (c : Cursor) : Except Unreadable Bool := do
  match flag? (← scalarOf boolTag c) with
  | some b => .ok b
  | none => .error ⟨⟩

/-- A text: that of any scalar. -/
def text (c : Cursor) : Except Unreadable String :=
  match c.resolved? with
  | some (.scalar _ _ s) => .ok s
  | _ => .error ⟨⟩

/-- A whole number from zero up to a limit. -/
def natural (limit : Nat) (c : Cursor) : Except Unreadable Nat := do
  match number? (← scalarOf intTag c) with
  | some n => if n ≤ limit then .ok n else .error ⟨⟩
  | none => .error ⟨⟩

/-- Is a scalar that may be null? One that is tagged as null has to be. -/
def absent? (mark : Mark) (style : Style) (s : String) : Except Unreadable Bool :=
  if style ≠ .plain then .ok false
  else match mark.tag with
    | some tag =>
      if tag = nullTag then if isNull s then .ok true else .error ⟨⟩ else .ok false
    | none => .ok (s.isEmpty || isNull s)

/-- A value that may be null. -/
def optional {α : Type} (read : Cursor → Except Unreadable α) (c : Cursor) :
    Except Unreadable (Option α) := do
  match c.resolved? with
  | none => return none
  | some (.scalar mark style s) =>
    if ← absent? mark style s then return none
    return some (← read c)
  | some _ => return some (← read c)

/-! ### Dictionaries and records -/

/-- Texts by key; of several entries with one key the last counts. -/
def dictionary (c : Cursor) : Except Unreadable Dictionary :=
  match c.resolved? with
  | some (.mapping _ entries) => do
    let entries ← entries.mapM fun (k, v) => do
      let k ← text (c.child k)
      let v ← text (c.child v)
      pure (k, v)
    pure (.ofList entries)
  | _ => .error ⟨⟩

/-- Reads the entries of a record; `seen` holds the names met so far. -/
def readFields {α : Type} (fields : List (Field Cursor Unreadable α)) (c : Cursor) :
    (seen : List String) → α → List (Node × Node) → Except Unreadable α
  | seen, a, [] =>
    if fields.all fun f => f.absence != .required || seen.contains f.name then .ok a
    else .error ⟨⟩
  | seen, a, (k, v) :: rest => do
    let name ← text (c.child k)
    match fields.find? (·.name == name) with
    | none => readFields fields c seen a rest
    | some f =>
      if seen.contains name then .error ⟨⟩
      else
        let a ← f.read (c.child v) a
        readFields fields c (name :: seen) a rest

/-- A record, beginning with the values of `base`. -/
def record {α : Type} (fields : List (Field Cursor Unreadable α)) (base : α) (c : Cursor) :
    Except Unreadable α :=
  match c.resolved? with
  | none => readFields fields c [] base []
  | some (.mapping _ entries) => readFields fields c [] base entries
  | some (.scalar mark .plain s) =>
    if s.isEmpty ∧ mark.tag.isNone then readFields fields c [] base [] else .error ⟨⟩
  | some _ => .error ⟨⟩

instance : Structured Cursor Unreadable where
  bool := bool
  text := text
  natural := natural
  optional := optional
  dictionary := dictionary
  record := record

/-- Reads a text as one value. -/
def readText {α : Type} (read : Cursor → Except Unreadable α) (s : String) :
    Except Unreadable α :=
  match document? s with
  | some root => read (.root root)
  | none => .error ⟨⟩

end DepositSync.Yaml
