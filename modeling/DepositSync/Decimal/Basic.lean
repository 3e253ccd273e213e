import DepositSync.Text.Digits
import DepositSync.Width

/-!
# DepositSync.Decimal.Basic

Amounts of money and percentages: a whole number of at most 96 bits, the mantissa, divided by a
power of ten, the scale, of at most 28. The scale belongs to the value: `7.500` and `7.5` are
equal amounts and different decimals. Zero has no sign.
-/

namespace DepositSync

/-- The amount `± mantissa / 10 ^ scale`. -/
structure Decimal where
  negative : Bool
  mantissa : Nat
  scale : Nat
  deriving DecidableEq, Repr, Inhabited

namespace Decimal

/-- The largest mantissa. -/
def maxMantissa : Nat := Width.maxNat 96

/-- The largest scale. -/
def maxScale : Nat := 28

/-- What every amount satisfies: the mantissa and the scale are in range, and a negative amount
is not zero. -/
structure Valid (x : Decimal) : Prop where
  mantissa_le : x.mantissa ≤ maxMantissa
  scale_le : x.scale ≤ maxScale
  ne_zero_of_negative : x.negative = true → x.mantissa ≠ 0

/-- An amount from its parts; zero loses its sign. -/
def ofParts (negative : Bool) (mantissa scale : Nat) : Decimal :=
  ⟨negative && mantissa != 0, mantissa, scale⟩

def zero : Decimal := ⟨false, 0, 0⟩

/-- A whole amount. -/
def ofInt (n : Int) : Decimal :=
  ⟨n < 0, n.natAbs, 0⟩

/-- Is the amount zero, at whatever scale? -/
def isZero (x : Decimal) : Bool :=
  x.mantissa == 0

def neg (x : Decimal) : Decimal :=
  ofParts (!x.negative) x.mantissa x.scale

/-- The amount in positional notation, with as many places after the point as the scale says. -/
def text (x : Decimal) : List Char :=
  let ds := Text.padded (x.scale + 1) x.mantissa
  let sign := if x.negative then ['-'] else []
  if x.scale = 0 then sign ++ ds
  else sign ++ ds.take (ds.length - x.scale) ++ '.' :: ds.drop (ds.length - x.scale)

instance : ToString Decimal := ⟨fun x => String.ofList x.text⟩

theorem valid_zero : zero.Valid := ⟨by decide, by decide, by decide⟩

theorem valid_ofParts {negative : Bool} {m s : Nat} (hm : m ≤ maxMantissa) (hs : s ≤ maxScale) :
    (ofParts negative m s).Valid :=
  ⟨hm, hs, by simp [ofParts]⟩

end Decimal

end DepositSync
