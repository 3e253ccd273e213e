import DepositSync.Decimal.Basic

/-!
# DepositSync.Sql.Value

The values that statements carry and columns hold. Each knows its type, also when it is null.
-/

namespace DepositSync.Sql

/-- A value. -/
inductive Value where
  | text (s : Option String)
  | integer (n : Option Int)
  | flag (b : Bool)
  | amount (x : Option Decimal)
  | texts (items : List String)
  deriving DecidableEq, Repr, Inhabited

namespace Value

/-- The name of the value's type. -/
def typeName : Value → String
  | text _ => "text"
  | integer _ => "int4"
  | flag _ => "bool"
  | amount _ => "numeric"
  | texts _ => "text[]"

/-- The null of the value's type; flags and lists have none. -/
def nulled : Value → Value
  | text _ => text none
  | integer _ => integer none
  | amount _ => amount none
  | flag b => flag b
  | texts items => texts items

end Value

/-- A value that stands in the statement itself. -/
inductive Literal where
  | emptyText
  | zero
  | flag (b : Bool)
  deriving DecidableEq, Repr, Inhabited

namespace Literal

/-- The literal as it is written. -/
def sql : Literal → String
  | emptyText => "''"
  | zero => "0"
  | flag true => "TRUE"
  | flag false => "FALSE"

/-- Is a value equal to the literal? Amounts are equal to zero at every scale, and null is equal to
nothing. -/
def matches? : Literal → Value → Bool
  | emptyText, .text s => s == some ""
  | zero, .integer n => n == some 0
  | zero, .amount x => x.any Decimal.isZero
  | flag b, .flag c => b == c
  | _, _ => false

end Literal

end DepositSync.Sql
