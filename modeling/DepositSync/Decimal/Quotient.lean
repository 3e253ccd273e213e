import DepositSync.Decimal.Basic
import DepositSync.Binary64.Basic

/-!
# DepositSync.Decimal.Quotient

Division of amounts and multiplication by one hundred, to as many places as 96 bits and 28 places
allow, half to even. Division works in steps: while a remainder is left, up to nine more digits of
the quotient are produced at once. `none` means that the result does not fit.
-/

namespace DepositSync.Decimal

/-- Drops the last digit of a mantissa that has just left the range, half to even; `sticky` tells
whether something was cut off behind it already. -/
def shrink? (q : Nat) (s : Int) (sticky : Bool) : Option (Nat × Int) :=
  if s - 1 < 0 then none
  else
    let r := q % 10
    let q := q / 10
    let up := 5 < r || (r == 5 && (sticky || q % 2 == 1))
    some (if up then q + 1 else q, s - 1)

/-- The most digits, up to a limit, that can be appended to a mantissa. -/
def roomFor (q : Nat) : Nat → Nat
  | 0 => 0
  | p + 1 => if q * Nat.pow 10 (p + 1) ≤ maxMantissa then p + 1 else roomFor q p

/-- The quotient so far, its scale, the remainder, and whether a remainder was ever left. -/
structure Division where
  quotient : Nat
  scale : Int
  remainder : Nat
  inexact : Bool

namespace Division

/-- Appends `p` digits to the quotient. The result says whether the division goes on. -/
def extend? (b p : Nat) (d : Division) : Option (Bool × Division) :=
  let s := d.scale + p
  let q := d.quotient * Nat.pow 10 p
  if maxMantissa < q then none
  else
    let r := d.remainder * Nat.pow 10 p
    let q := q + r / b
    if maxMantissa < q then
      (shrink? q s (r % b != 0)).map fun (q, s) => (false, ⟨q, s, r % b, d.inexact⟩)
    else some (true, ⟨q, s, r % b, d.inexact⟩)

/-- Rounds the quotient by its remainder. -/
def close? (b : Nat) (d : Division) : Option Division :=
  if b < 2 * d.remainder ∨ (2 * d.remainder = b ∧ d.quotient % 2 = 1) then
    if d.quotient + 1 ≤ maxMantissa then some { d with quotient := d.quotient + 1 }
    else (shrink? (d.quotient + 1) d.scale true).map fun (q, s) =>
      { d with quotient := q, scale := s }
  else some d

/-- Runs the division to its end. Every step but the last raises the scale, which starts at −28 or
above and stops at 28, so `steps` never runs out. -/
def run? (b : Nat) : (steps : Nat) → Division → Option Division
  | 0, _ => none
  | steps + 1, d =>
    let continue? (p : Nat) (d : Division) : Option Division :=
      match d.extend? b p with
      | none => none
      | some (false, d) => some d
      | some (true, d) => run? b steps d
    if d.remainder = 0 then
      if 0 ≤ d.scale then some d else continue? (min 9 (-d.scale).toNat) d
    else
      let d := { d with inexact := true }
      let top : Int := maxScale
      let p := if d.scale < top then roomFor d.quotient (min 9 (top - d.scale).toNat) else 0
      if d.scale < top ∧ p < 9 ∧ d.scale + (p : Int) < 0 then none
      else if p = 0 then d.close? b
      else continue? p d

end Division

/-- Takes `10 ^ k` out of the mantissa if the test on low bits and the scale allow it. -/
def stripOnce (k bits : Nat) (q s : Nat) : Nat × Nat :=
  if q % bits = 0 ∧ k ≤ s ∧ q % Nat.pow 10 k = 0 then (q / Nat.pow 10 k, s - k) else (q, s)

/-- Takes trailing zeros off a quotient: eight at a time, then four, two and one. -/
def stripZeros (q s : Nat) : Nat × Nat :=
  let (q, s) := stripOnce 8 (Width.count 32) q s
  let (q, s) := stripOnce 8 (Width.count 32) q s
  let (q, s) := stripOnce 8 (Width.count 32) q s
  let (q, s) := stripOnce 4 16 q s
  let (q, s) := stripOnce 2 4 q s
  stripOnce 1 2 q s

/-- The quotient of two mantissas with their scales; the divisor is not zero. -/
def divide? (a sa b sb : Nat) : Option (Nat × Nat) :=
  if a = 0 then some (0, 0)
  else do
    let d ← Division.run? b 64 ⟨a / b, (sa : Int) - sb, a % b, false⟩
    let s := d.scale.toNat
    pure (if d.inexact then stripZeros d.quotient s else (d.quotient, s))

/-- The quotient of two amounts; `none` when the divisor is zero or the result does not fit. -/
def div? (x y : Decimal) : Option Decimal :=
  if y.isZero then none
  else (divide? x.mantissa x.scale y.mantissa y.scale).map fun (m, s) =>
    ofParts (x.negative != y.negative) m s

/-- Drops as few digits of `n` as bring it into range, half to even: the mantissa and the number
of digits dropped. -/
def fit (n : Nat) : (dropped tries : Nat) → Nat × Nat
  | k, 0 => (roundHalfEven n (Nat.pow 10 k), k)
  | k, tries + 1 =>
    let x := roundHalfEven n (Nat.pow 10 k)
    if x ≤ maxMantissa then (x, k) else fit n (k + 1) tries

/-- The amount times one hundred; `none` when it does not fit. -/
def mulHundred? (x : Decimal) : Option Decimal :=
  if x.isZero then some zero
  else
    let (m, k) := fit (x.mantissa * 100) 0 3
    if k ≤ x.scale then some (ofParts x.negative m (x.scale - k)) else none

end DepositSync.Decimal
