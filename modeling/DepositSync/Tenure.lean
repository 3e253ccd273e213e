import DepositSync.Text.Blank
import DepositSync.Text.Digits
import DepositSync.Width

/-!
# DepositSync.Tenure

The term of a deposit, in months and days. The vendor writes it as `22m0d`, `0m1826d` or
`11m11d`; blanks around it do not count, and a blank text is the empty term. A term given in days
alone that is longer than a month is turned into whole months.
-/

namespace DepositSync

/-- The term of a deposit. -/
structure Tenure where
  months : Int
  days : Int
  deriving DecidableEq, Repr, Inhabited

/-- Why a text is no term; each kind keeps the trimmed text. -/
inductive TenureError where
  /-- The text does not have the form `<months>m<days>d`. -/
  | malformed (text : String)
  /-- The months or the days are not a number from 0 to `Tenure.maxCount`. -/
  | notNumeric (text : String)
  deriving DecidableEq, Repr

/-- What the error says. -/
def TenureError.message : TenureError → String
  | .malformed text => s!"tenure `{text}` is not in the `<months>m<days>d` form"
  | .notNumeric text => s!"tenure `{text}` has a non-numeric component"

namespace Tenure

/-- The empty term. -/
def zero : Tenure := ⟨0, 0⟩

/-- The largest number of months or of days. -/
def maxCount : Nat := Width.maxNat 31

/-- A term in days alone stays in days up to this many. -/
def maxPlainDays : Nat := 31

/-- The number of whole months nearest to a number of days, a month having 30.417 days. No number
of days lies halfway between two months, because 30417 is odd. -/
def monthsNearest (days : Nat) : Nat :=
  (2000 * days + 30417) / (2 * 30417)

/-- A number of months or days: digits behind one optional sign, and not negative. -/
def count? (cs : List Char) : Option Nat := do
  let n ← Text.integer? cs
  if 0 ≤ n ∧ n ≤ maxCount then some n.toNat else none

/-- A term in days alone that is longer than a month becomes whole months. -/
def folded (months days : Nat) : Tenure :=
  if months = 0 ∧ maxPlainDays < days then ⟨monthsNearest days, 0⟩ else ⟨months, days⟩

/-- The texts of the months and the days: what stands before the first `m`, and what stands between
it and the `d` at the end. -/
def split? (cs : List Char) : Option (List Char × List Char) :=
  match cs.span (· != 'm') with
  | (months, 'm' :: rest) =>
    if rest.getLast? = some 'd' then some (months, rest.dropLast) else none
  | _ => none

/-- Reads a term. -/
def parse (raw : String) : Except TenureError Tenure :=
  let cs := Text.trimmed raw.toList
  if cs.isEmpty then .ok zero
  else match split? cs with
    | none => .error (.malformed (String.ofList cs))
    | some (months, days) =>
      match count? months, count? days with
      | some m, some d => .ok (folded m d)
      | _, _ => .error (.notNumeric (String.ofList cs))

end Tenure

end DepositSync
