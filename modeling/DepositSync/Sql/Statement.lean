import DepositSync.Sql.Value
import DepositSync.Text.Digits

/-!
# DepositSync.Sql.Statement

The statements that the program sends, as data: what they say, how they are written, and which
values their placeholders stand for. Placeholders are counted from one.
-/

namespace DepositSync.Sql

/-! ### Parts -/

/-- What is put into a column. -/
inductive Expression where
  /-- The value of a placeholder. -/
  | bound (n : Nat)
  /-- The value of a placeholder, or null if it is equal to the literal. -/
  | nullIf (n : Nat) (l : Literal)
  deriving DecidableEq, Repr, Inhabited

/-- A condition on a row. -/
inductive Condition where
  /-- The column is equal to the literal. -/
  | is (column : String) (l : Literal)
  /-- The column is equal to the value of a placeholder. -/
  | isBound (column : String) (n : Nat)
  /-- The column is among the items of a placeholder. -/
  | isAmong (column : String) (n : Nat)
  deriving DecidableEq, Repr, Inhabited

/-- A change of a column. -/
inductive Assignment where
  | literal (column : String) (l : Literal)
  | bound (column : String) (n : Nat)
  /-- The value of the row that could not be inserted. -/
  | proposed (column : String)
  /-- The present time. -/
  | now (column : String)
  deriving DecidableEq, Repr, Inhabited

/-- What happens to a row that is there already. -/
structure Conflict where
  /-- The columns that tell rows apart. -/
  key : List String
  changes : List Assignment
  deriving DecidableEq, Repr, Inhabited

/-- How a statement is laid out. -/
inductive Layout where
  | line
  /-- On lines of its own, with so many items on a line behind so many blanks. -/
  | block (itemsPerLine margin : Nat)
  deriving DecidableEq, Repr, Inhabited

/-- A statement that inserts rows. -/
structure Insert where
  table : String
  columns : List String
  /-- One tuple for each row, in the order of the columns. -/
  tuples : List (List Expression)
  conflict : Option Conflict
  layout : Layout
  deriving DecidableEq, Repr, Inhabited

/-- A statement. -/
inductive Statement where
  /-- The values of a column, in ascending order. -/
  | select (column table : String) (conditions : List Condition)
  | update (table : String) (changes : List Assignment) (conditions : List Condition)
  | delete (table : String) (conditions : List Condition)
  | insert (i : Insert)
  deriving DecidableEq, Repr, Inhabited

/-! ### Writing -/

/-- A placeholder as it is written. -/
def placeholder (n : Nat) : String :=
  "$" ++ String.ofList (Text.ofNat n)

/-- Items with commas between them. -/
def listed (items : List String) : String :=
  ", ".intercalate items

/-- The expression as it is written. -/
def Expression.sql : Expression → String
  | bound n => placeholder n
  | nullIf n l => s!"NULLIF({placeholder n}, {l.sql})"

/-- The condition as it is written. -/
def Condition.sql : Condition → String
  | is column l => s!"{column} = {l.sql}"
  | isBound column n => s!"{column} = {placeholder n}"
  | isAmong column n => s!"{column} = ANY({placeholder n})"

/-- The change as it is written. -/
def Assignment.sql : Assignment → String
  | literal column l => s!"{column} = {l.sql}"
  | bound column n => s!"{column} = {placeholder n}"
  | proposed column => s!"{column} = EXCLUDED.{column}"
  | now column => s!"{column} = NOW()"

/-- Conditions that all have to hold. -/
def conditionsSql (conditions : List Condition) : String :=
  " AND ".intercalate (conditions.map Condition.sql)

/-- The handling of rows that are there already. -/
def Conflict.sql (c : Conflict) : String :=
  s!" ON CONFLICT ({listed c.key}) DO UPDATE SET {listed (c.changes.map Assignment.sql)}"

/-- The items in groups of `size`; the last group may be smaller. -/
def grouped {α : Type} (size : Nat) : List α → List (List α)
  | [] => []
  | x :: rest => (x :: rest.take (size - 1)) :: grouped size (rest.drop (size - 1))
termination_by items => items.length

/-- Items on lines of their own between brackets; the brackets stand behind `margin` blanks. -/
def blockListed (itemsPerLine margin : Nat) (items : List String) : String :=
  let outer := "\n" ++ String.ofList (List.replicate margin ' ')
  let inner := outer ++ "    "
  let lines := (grouped itemsPerLine items).map listed
  "(" ++ inner ++ ("," ++ inner).intercalate lines ++ outer ++ ")"

/-- The inserting statement as it is written. -/
def Insert.sql (i : Insert) : String :=
  let tuples := i.tuples.map fun t => t.map Expression.sql
  match i.layout with
  | .line =>
    let values := tuples.map fun t => s!"({listed t})"
    s!"INSERT INTO {i.table} ({listed i.columns}) VALUES {listed values}" ++
      (i.conflict.map Conflict.sql).getD ""
  | .block itemsPerLine margin =>
    let outer := "\n" ++ String.ofList (List.replicate margin ' ')
    let values := tuples.map (blockListed itemsPerLine margin)
    outer ++ s!"INSERT INTO {i.table} " ++ blockListed itemsPerLine margin i.columns ++
      " VALUES " ++ listed values ++ (i.conflict.map Conflict.sql).getD "" ++ outer

/-- The statement as it is written. -/
def Statement.sql : Statement → String
  | select column table conditions =>
    s!"SELECT {column} FROM {table} WHERE {conditionsSql conditions} ORDER BY {column}"
  | update table changes conditions =>
    s!"UPDATE {table} SET {listed (changes.map Assignment.sql)} WHERE {conditionsSql conditions}"
  | delete table conditions => s!"DELETE FROM {table} WHERE {conditionsSql conditions}"
  | insert i => i.sql

/-! ### Meaning -/

/-- A row as a database keeps it: the values by column. -/
abbrev StoredRow := List (String × Value)

/-- The value of a placeholder. -/
def boundValue? (parameters : List Value) (n : Nat) : Option Value :=
  if n = 0 then none else parameters[n - 1]?

/-- The value of an expression. -/
def Expression.value? (parameters : List Value) : Expression → Option Value
  | bound n => boundValue? parameters n
  | nullIf n l => (boundValue? parameters n).map fun v => if l.matches? v then v.nulled else v

/-- Does a row meet the condition? -/
def Condition.holds (parameters : List Value) (row : StoredRow) : Condition → Bool
  | is column l => (row.lookup column).any l.matches?
  | isBound column n => match row.lookup column, boundValue? parameters n with
    | some v, some w => v == w
    | _, _ => false
  | isAmong column n => match row.lookup column, boundValue? parameters n with
    | some (.text (some s)), some (.texts items) => items.contains s
    | _, _ => false

/-- The rows that an inserting statement proposes. -/
def Insert.rows? (parameters : List Value) (i : Insert) : Option (List StoredRow) :=
  i.tuples.mapM fun t => do
    return i.columns.zip (← t.mapM (Expression.value? parameters))

/-- A statement with the values of its placeholders. -/
structure Query where
  statement : Statement
  parameters : List Value
  deriving DecidableEq, Repr, Inhabited

end DepositSync.Sql
