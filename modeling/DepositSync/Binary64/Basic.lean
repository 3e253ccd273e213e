/-!
# DepositSync.Binary64.Basic

Magnitudes of finite double-precision numbers, as a significand and a power of two, with
arithmetic that rounds the exact result to the nearest double, ties to even. A sign, where one is
needed, is kept beside the magnitude. `none` stands for a result too large for a finite double.
-/

namespace DepositSync

/-- The double `significand · 2 ^ exponent`. -/
structure Binary64 where
  significand : Nat
  exponent : Int
  deriving DecidableEq, Repr, Inhabited

/-- The quotient rounded to the nearest whole number, ties to even. -/
def roundHalfEven (n d : Nat) : Nat :=
  let q := n / d
  let r := n % d
  if d < 2 * r ∨ (2 * r = d ∧ q % 2 = 1) then q + 1 else q

/-- The quotient rounded to the nearest whole number, ties upwards. -/
def roundHalfUp (n d : Nat) : Nat :=
  (2 * n + d) / (2 * d)

namespace Binary64

/-- Significands have this many bits. -/
def precision : Nat := 53

/-- The exponent of the smallest doubles. -/
def minExponent : Int := -1074

/-- The exponent of the largest doubles. -/
def maxExponent : Int := 971

def zero : Binary64 := ⟨0, minExponent⟩

/-- The ratio `n / d` divided by `2 ^ e`, as a ratio. -/
def scaled (n d : Nat) (e : Int) : Nat × Nat :=
  if 0 ≤ e then (n, d * Nat.pow 2 e.toNat) else (n * Nat.pow 2 (-e).toNat, d)

/-- The double nearest to `n / d`, for a positive `d`. -/
def ofRatio (n d : Nat) : Option Binary64 :=
  if n = 0 then some zero
  else
    -- `n / d` lies between the powers of two on either side of `guess`
    let guess : Int := (n.log2 : Int) - d.log2
    let low := max (guess - precision) minExponent
    let (a, b) := scaled n d low
    let e := if Nat.pow 2 precision ≤ a / b then low + 1 else low
    let (a, b) := scaled n d e
    let q := roundHalfEven a b
    let (q, e) := if q = Nat.pow 2 precision then (Nat.pow 2 (precision - 1), e + 1) else (q, e)
    if maxExponent < e then none else some ⟨q, e⟩

/-- The double nearest to a whole number. -/
def ofNat (n : Nat) : Option Binary64 :=
  ofRatio n 1

/-- The exact value as a ratio with a positive denominator. -/
def toRatio (x : Binary64) : Nat × Nat :=
  if 0 ≤ x.exponent then (x.significand * Nat.pow 2 x.exponent.toNat, 1)
  else (x.significand, Nat.pow 2 (-x.exponent).toNat)

/-- Is the value zero? -/
def isZero (x : Binary64) : Bool :=
  x.significand == 0

def add (x y : Binary64) : Option Binary64 :=
  let (a, b) := x.toRatio
  let (c, d) := y.toRatio
  ofRatio (a * d + c * b) (b * d)

def mul (x y : Binary64) : Option Binary64 :=
  let (a, b) := x.toRatio
  let (c, d) := y.toRatio
  ofRatio (a * c) (b * d)

/-- Division by a double other than zero. -/
def div (x y : Binary64) : Option Binary64 :=
  let (a, b) := x.toRatio
  let (c, d) := y.toRatio
  ofRatio (a * d) (b * c)

/-- The nearest whole number, ties upwards. -/
def round (x : Binary64) : Option Binary64 :=
  let (a, b) := x.toRatio
  ofNat (roundHalfUp a b)

/-- The double nearest to a power of ten. -/
def tenPow (n : Nat) : Option Binary64 :=
  ofNat (Nat.pow 10 n)

end Binary64

end DepositSync
