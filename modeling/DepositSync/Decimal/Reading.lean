import DepositSync.Binary64.Shortest
import DepositSync.Decimal.Basic
import DepositSync.Width

/-!
# DepositSync.Decimal.Reading

Amounts as text and as doubles. `ofText?` reads digits with an optional sign, point and
underscores between digits, or such a number with an exponent behind it; digits beyond the 28th
place, or beyond 96 bits after the point, round the number half up and end the reading. `ofDouble?`
goes through the shortest decimal of the double, and `toDouble` goes the other way.
-/

namespace DepositSync.Decimal

/-- How far an amount has been read. -/
structure Progress where
  mantissa : Nat
  scale : Nat
  /-- The point has been passed. -/
  pointed : Bool
  /-- A digit has been seen. -/
  started : Bool

/-- Ends the reading at the first digit that no longer fits: it rounds what has been read. -/
def rounded? (p : Progress) (c : Char) : Option (Nat × Nat) :=
  let up := c.isDigit && '5' ≤ c
  if c.isDigit || c == '_' || c == '.' then
    let m := if up then p.mantissa + 1 else p.mantissa
    if m ≤ maxMantissa then some (m, p.scale) else none
  else none

/-- Reads the digits, the point and the underscores of an amount. -/
def scan? (p : Progress) : List Char → Option (Nat × Nat)
  | [] => if p.started then some (p.mantissa, p.scale) else none
  | c :: cs =>
    if p.pointed && p.started && maxScale ≤ p.scale then rounded? p c
    else if c.isDigit then
      let next := p.mantissa * 10 + (c.toNat - 48)
      if next ≤ maxMantissa then
        scan? ⟨next, if p.pointed then p.scale + 1 else p.scale, p.pointed, true⟩ cs
      else if p.pointed then rounded? p c
      else none
    else if c == '.' && !p.pointed then scan? { p with pointed := true } cs
    else if c == '_' && p.started then scan? p cs
    else none

/-- An amount without an exponent. -/
def plain? (cs : List Char) : Option Decimal :=
  let body (negative : Bool) (cs : List Char) : Option Decimal :=
    (scan? ⟨0, 0, false, false⟩ cs).map fun (m, s) => ofParts negative m s
  match cs with
  | '-' :: cs => body true cs
  | '+' :: cs => body false cs
  | cs => body false cs

/-- The largest exponent that can be written. -/
def maxExponent : Nat := Width.maxNat 32

/-- The amount times a power of ten: the scale takes what it can of the exponent, the mantissa
the rest. -/
def shift? (x : Decimal) (up : Bool) (exponent : Nat) : Option Decimal :=
  if up then
    if exponent ≤ x.scale then some { x with scale := x.scale - exponent }
    else if exponent - x.scale ≤ maxScale then
      let m := x.mantissa * Nat.pow 10 (exponent - x.scale)
      if m ≤ maxMantissa then some { x with mantissa := m, scale := 0 } else none
    else none
  else if x.scale + exponent ≤ maxScale then some { x with scale := x.scale + exponent }
  else none

/-- An amount with an exponent behind the letter `e` of either case. -/
def scientific? (cs : List Char) : Option Decimal :=
  let isMark (c : Char) : Bool := c == 'e' || c == 'E'
  match cs.dropWhile (!isMark ·) with
  | [] => none
  | _ :: written => do
    let base ← plain? (cs.takeWhile (!isMark ·))
    let (up, digits) := match written with
      | '-' :: ds => (false, ds)
      | ds => (true, ds)
    let exponent ← Text.natural? digits
    if exponent ≤ maxExponent then base.shift? up exponent else none

/-- The amount a text stands for. -/
def ofText? (cs : List Char) : Option Decimal :=
  plain? cs <|> scientific? cs

/-- The amount nearest to a double: its shortest decimal, read as text. -/
def ofDouble? (negative : Bool) (x : Binary64) : Option Decimal :=
  ofText? (if negative then '-' :: x.plainText else x.plainText)

/-- The magnitude as a double. Whole part and fraction are converted separately, and the sum is
rounded to the amount's own number of places. -/
def magnitude? (x : Decimal) : Option Binary64 :=
  if x.scale = 0 then Binary64.ofNat x.mantissa
  else do
    let unit := Nat.pow 10 x.scale
    let whole ← Binary64.ofNat (x.mantissa / unit)
    let ten ← Binary64.ofNat unit
    let fraction ← (← Binary64.ofNat (x.mantissa % unit)).div ten
    if fraction.isZero then some whole
    else
      let sum ← whole.add fraction
      (← (← sum.mul ten).round).div ten

/-- The amount as a JSON number. -/
def jsonText (x : Decimal) : List Char :=
  let digits := (x.magnitude?.getD Binary64.zero).jsonText
  if x.negative then '-' :: digits else digits

end DepositSync.Decimal
