import DepositSync.Binary64.Basic
import DepositSync.Text.Digits
import DepositSync.Width

/-!
# DepositSync.Json.Numeral

Numbers as a JSON document writes them, and what they are worth. A whole number that fits 64 bits
is taken exactly. Any other number becomes a double: the leading digits that fit 64 bits, times or
divided by a power of ten, each step rounded.
-/

namespace DepositSync.Json

/-- A number as written: its sign, the digits before and after the point, and what follows the
exponent mark, sign included. -/
structure Numeral where
  negative : Bool
  whole : List Char
  fraction : List Char
  exponent : List Char
  deriving DecidableEq, Repr, Inhabited

namespace Numeral

/-- The number as text. -/
def text (n : Numeral) : List Char :=
  (if n.negative then ['-'] else []) ++ n.whole ++
    (if n.fraction.isEmpty then [] else '.' :: n.fraction) ++
    (if n.exponent.isEmpty then [] else 'e' :: n.exponent)

/-- A whole number. -/
def ofInt (n : Int) : Numeral :=
  ⟨n < 0, Text.ofNat n.natAbs, [], []⟩

/-- The parts of a number's text. -/
def ofText (cs : List Char) : Numeral :=
  let negative := cs.head? == some '-'
  let (whole, cs) := (if negative then cs.drop 1 else cs).span Char.isDigit
  let (fraction, cs) := match cs with
    | '.' :: cs => cs.span Char.isDigit
    | cs => ([], cs)
  ⟨negative, whole, fraction, cs.drop 1⟩

/-- Whole numbers up to this one are read exactly. -/
def maxWhole : Nat := Width.maxNat 64

/-- Negative whole numbers down to minus this one are read exactly. -/
def maxNegative : Nat := Width.count 63

/-- The exact value of a whole number that fits 64 bits, signed if it is negative. Negative zero
is not a whole number. -/
def toInt? (n : Numeral) : Option Int :=
  if n.fraction.isEmpty && n.exponent.isEmpty then
    match Text.digits? n.whole with
    | none => none
    | some m =>
      if n.negative then
        if m ≠ 0 ∧ m ≤ maxNegative then some (-(m : Int)) else none
      else if m ≤ maxWhole then some m else none
  else none

/-- Appends digits to a significand while it fits 64 bits: the significand and the digits that no
longer fit. -/
def accumulate (significand : Nat) : List Char → Nat × List Char
  | [] => (significand, [])
  | c :: cs =>
    let next := significand * 10 + (c.toNat - 48)
    if next ≤ maxWhole then accumulate next cs else (significand, c :: cs)

/-- The value of the exponent; absent digits are worth nothing. -/
def exponentValue (n : Numeral) : Int :=
  match n.exponent with
  | '-' :: cs => -((Text.digits? cs).getD 0 : Nat)
  | '+' :: cs => ((Text.digits? cs).getD 0 : Nat)
  | cs => ((Text.digits? cs).getD 0 : Nat)

/-- The significand that 64 bits hold, and the power of ten it is taken times. Digits before the
point that no longer fit raise the power, those after it are dropped. -/
def parts (n : Numeral) : Nat × Int :=
  let (whole, excess) := accumulate 0 n.whole
  let (significand, dropped) := accumulate whole n.fraction
  let taken : Int := (n.fraction.length : Int) - dropped.length
  (significand, (excess.length : Int) - taken + n.exponentValue)

/-- Powers of ten up to this one are applied in one step. -/
def maxStep : Nat := 308

/-- The double nearest to the significand, times a power of ten; `none` if that is too large. -/
def scale? (m : Nat) (e : Int) : Option Binary64 := do
  let f ← Binary64.ofNat m
  if 0 ≤ e then
    if e ≤ maxStep then f.mul (← Binary64.tenPow e.toNat)
    else if f.isZero then some f
    else none
  else if -e ≤ maxStep then f.div (← Binary64.tenPow (-e).toNat)
  else
    let f ← f.div (← Binary64.tenPow maxStep)
    let e := e + maxStep
    if f.isZero then some f
    else if -e ≤ maxStep then f.div (← Binary64.tenPow (-e).toNat)
    else some Binary64.zero

/-- The magnitude of the number as a double; `none` if it is beyond the largest one. -/
def toBinary64? (n : Numeral) : Option Binary64 :=
  let (m, e) := n.parts
  scale? m e

end Numeral

end DepositSync.Json
