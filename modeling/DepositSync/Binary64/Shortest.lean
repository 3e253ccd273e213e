import DepositSync.Binary64.Basic
import DepositSync.Text.Digits

/-!
# DepositSync.Binary64.Shortest

The shortest decimal that reads back as a given double, and two ways to write it. A decimal with
`p` digits that reads back exists only if one of the value's two neighbours on the grid of
`p`-digit decimals reads back, so the search tries those two for one digit, two digits and so on.
Of two hits on one grid the nearer wins, and of two equally near ones the even one.
-/

namespace DepositSync

/-- The number `digits · 10 ^ exponent`. -/
structure ShortDecimal where
  digits : Nat
  exponent : Int
  deriving DecidableEq, Repr, Inhabited

namespace ShortDecimal

/-- The ratio the decimal stands for. -/
def toRatio (x : ShortDecimal) : Nat × Nat :=
  if 0 ≤ x.exponent then (x.digits * Nat.pow 10 x.exponent.toNat, 1)
  else (x.digits, Nat.pow 10 (-x.exponent).toNat)

/-- The same number without trailing zeros among its digits. -/
def strip (x : ShortDecimal) : ShortDecimal :=
  let rec go : Nat → Nat → Int → ShortDecimal
    | 0, ds, e => ⟨ds, e⟩
    | steps + 1, ds, e => if ds ≠ 0 ∧ ds % 10 = 0 then go steps (ds / 10) (e + 1) else ⟨ds, e⟩
  go 20 x.digits x.exponent

/-- Positional notation; a whole number has no point. -/
def positional (x : ShortDecimal) : List Char :=
  let ds := Text.ofNat x.digits
  if 0 ≤ x.exponent then
    if x.digits = 0 then ds else ds ++ List.replicate x.exponent.toNat '0'
  else
    let places := (-x.exponent).toNat
    let ds := List.replicate (places + 1 - ds.length) '0' ++ ds
    ds.take (ds.length - places) ++ '.' :: ds.drop (ds.length - places)

/-- The notation of a JSON document: always with a point or an exponent; positional from 0.00001
up to sixteen digits before the point, otherwise with a signed exponent behind one leading
digit. -/
def json (x : ShortDecimal) : List Char :=
  let ds := Text.ofNat x.digits
  let lead : Int := x.exponent + ds.length - 1
  if x.digits = 0 then ['0', '.', '0']
  else if -5 ≤ lead ∧ lead ≤ 15 then
    if 0 ≤ x.exponent then x.positional ++ ['.', '0'] else x.positional
  else
    let sign := if lead < 0 then '-' else '+'
    let rest := ds.drop 1
    ds.take 1 ++ (if rest.isEmpty then [] else '.' :: rest) ++
      'e' :: sign :: Text.ofNat lead.natAbs

end ShortDecimal

namespace Binary64

/-- Does the decimal read back as the double? -/
def readsBack (x : Binary64) (d : ShortDecimal) : Bool :=
  let (a, b) := d.toRatio
  ofRatio a b == some x

/-- The better of the two neighbours of `n / d` on the grid of multiples of `10 ^ e`, if one of
them reads back as `x`. -/
def onGrid? (x : Binary64) (n d : Nat) (e : Int) : Option ShortDecimal :=
  let (a, b) := if 0 ≤ e then (n, d * Nat.pow 10 e.toNat) else (n * Nat.pow 10 (-e).toNat, d)
  let below := a / b
  let lower : ShortDecimal := ⟨below, e⟩
  let upper : ShortDecimal := ⟨below + 1, e⟩
  match x.readsBack lower, x.readsBack upper with
  | true, true => some ⟨roundHalfEven a b, e⟩
  | true, false => some lower
  | false, true => some upper
  | false, false => none

/-- A power of ten that `n / d` stays below, at most two places too high. -/
def decimalBound (n d : Nat) : Int :=
  if d ≤ n then ((Text.ofNat (n / d)).length : Int) else 2 - ((Text.ofNat (d / n)).length : Int)

/-- The shortest decimal that reads back as the double. -/
def shortest (x : Binary64) : ShortDecimal :=
  if x.isZero then ⟨0, 0⟩
  else
    let (n, d) := x.toRatio
    let top := decimalBound n d
    let found := (List.range 20).findSome? fun p : Nat => x.onGrid? n d (top - (p + 1 : Nat))
    (found.getD ⟨0, 0⟩).strip

/-- Positional notation of the shortest decimal. -/
def plainText (x : Binary64) : List Char :=
  x.shortest.positional

/-- The double as a JSON number. -/
def jsonText (x : Binary64) : List Char :=
  x.shortest.json

end Binary64

end DepositSync
