import DepositSync.Holdings
import DepositSync.Proofs.Division

/-!
# DepositSync.Proofs.Returns

What the returns of a client amount to. The interest is divided by the invested amount and the
result multiplied by one hundred, and each time there is a decimal or none. One statement tells
about both, by the exact number (`RoundsTo`): the result is this number, rounded, or the number does
not fit.

For the division this is what its loop comes to (`Division.answers_run?`); the zeros that are taken
off afterwards change nothing about the number (`Strips`). The product with one hundred is exact
wherever it fits, since it can be written with two places less (`fit_mul_hundred`). Signs are added
last, once for both (`Rounds.signed`).
-/

namespace DepositSync

namespace Decimal

/-! ### Trailing zeros -/

/-- A mantissa and a scale, and the same number with no larger ones. -/
structure Strips (full stripped : ℕ × ℕ) : Prop where
  ratio_eq : ratio stripped.1 stripped.2 = ratio full.1 full.2
  mantissa_le : stripped.1 ≤ full.1
  scale_le : stripped.2 ≤ full.2

theorem Strips.trans {full half stripped : ℕ × ℕ} (h : Strips full half)
    (h' : Strips half stripped) : Strips full stripped :=
  ⟨h'.ratio_eq.trans h.ratio_eq, h'.mantissa_le.trans h.mantissa_le, h'.scale_le.trans h.scale_le⟩

theorem strips_stripOnce (k bits q s : ℕ) : Strips (q, s) (stripOnce k bits q s) := by
  unfold stripOnce
  split
  · next h =>
    obtain ⟨-, hk, hdigits⟩ := h
    refine ⟨?_, Nat.div_le_self _ _, Nat.sub_le _ _⟩
    obtain ⟨q, rfl⟩ := Nat.dvd_of_mod_eq_zero hdigits
    obtain ⟨s, rfl⟩ := Nat.exists_eq_add_of_le hk
    simp only [Nat.pow_eq, ratio]
    rw [Nat.mul_div_cancel_left _ (by positivity), Nat.add_sub_cancel_left, pow_add]
    push_cast
    field_simp
  · exact ⟨rfl, le_rfl, le_rfl⟩

/-- Taking off zeros changes nothing about the number. -/
theorem strips_stripZeros (q s : ℕ) : Strips (q, s) (stripZeros q s) := by
  simp only [stripZeros]
  refine (strips_stripOnce 8 (Width.count 32) q s).trans ?_
  refine (strips_stripOnce 8 (Width.count 32) _ _).trans ?_
  refine (strips_stripOnce 8 (Width.count 32) _ _).trans ?_
  refine (strips_stripOnce 4 16 _ _).trans ?_
  exact (strips_stripOnce 2 4 _ _).trans (strips_stripOnce 1 2 _ _)

/-! ### Quotients -/

theorem Rounds.strip {x : ℚ} {full stripped : ℕ × ℕ} (h : Rounds x (some full))
    (hstrips : Strips full stripped) : Rounds x (some stripped) := by
  refine ⟨?_, ?_⟩
  · rw [← h.nearest, Option.map_some, Option.map_some, hstrips.ratio_eq]
  · rintro m s ⟨⟩
    obtain ⟨hm, hs⟩ := h.inRange full.1 full.2 rfl
    exact ⟨hstrips.mantissa_le.trans hm, hstrips.scale_le.trans hs⟩

/-- A division starts with the whole part of the quotient of the mantissas. -/
theorem tracks_start {a sa b sb : ℕ} (ha : a ≤ maxMantissa) (hsa : sa ≤ maxScale) (hb : 0 < b) :
    Division.Tracks (ratio a sa / ratio b sb) b ⟨a / b, (sa : ℤ) - sb, a % b, false⟩ := by
  have hb' : (b : ℚ) ≠ 0 := by exact_mod_cast hb.ne'
  refine ⟨?_, Nat.mod_lt _ hb, (Nat.div_le_self _ _).trans ha, ?_⟩
  · show ratio a sa / ratio b sb * 10 ^ ((sa : ℤ) - sb) = _
    rw [← natCast_div_eq a hb, zpow_sub₀ (by norm_num), zpow_natCast, zpow_natCast]
    unfold ratio
    field_simp
  · show (sa : ℤ) - sb ≤ maxScale
    omega

theorem rounds_divide? {a sa b sb : ℕ} (ha : a ≤ maxMantissa) (hsa : sa ≤ maxScale) (hb : 0 < b)
    (hsb : sb ≤ maxScale) : Rounds (ratio a sa / ratio b sb) (divide? a sa b sb) := by
  unfold divide?
  split
  · next hzero =>
    subst hzero
    have hx : ratio 0 sa / ratio b sb = ratio 0 0 := by simp [ratio]
    rw [hx]
    exact rounds_ratio (Nat.zero_le _) (Nat.zero_le _)
  · have hx : 0 ≤ ratio a sa / ratio b sb :=
      div_nonneg (ratio_nonneg a sa) (ratio_nonneg b sb)
    have hsteps : ((maxScale : ℤ) - ((sa : ℤ) - sb)).toNat < 64 := by
      have hmax : maxScale = 28 := rfl
      omega
    have hanswers := Division.answers_run? hx 64 _ (tracks_start ha hsa hb) hsteps
    generalize Division.run? b 64 _ = result at hanswers
    cases result with
    | none => exact hanswers
    | some d =>
        show Rounds _ (some (if d.inexact = true then _ else _))
        split
        · exact hanswers.strip (strips_stripZeros _ _)
        · exact hanswers

/-! ### Percentages of ratios -/

theorem roundHalfEven_mul (n : ℕ) {d : ℕ} (hd : 0 < d) : roundHalfEven (n * d) d = n := by
  simp only [roundHalfEven, Nat.mul_div_cancel n hd, Nat.mul_mod_left]
  rw [if_neg (by omega)]

/-- A number times one hundred is brought into range by taking off the zeros that it got. -/
theorem fit_mul_hundred {m : ℕ} (hm : m ≤ maxMantissa) :
    ∃ k ≤ 2, fit (m * 100) 0 3 = (m * 10 ^ (2 - k), k) ∧ m * 10 ^ (2 - k) ≤ maxMantissa ∧
      (0 < k → maxMantissa < m * 10 ^ (3 - k)) := by
  have hround (k : ℕ) (hk : k ≤ 2) :
      roundHalfEven (m * 100) (Nat.pow 10 k) = m * 10 ^ (2 - k) := by
    have hzeros : m * 100 = m * 10 ^ (2 - k) * 10 ^ k := by
      rw [Nat.mul_assoc, ← Nat.pow_add, Nat.sub_add_cancel hk]
    rw [Nat.pow_eq, hzeros]
    exact roundHalfEven_mul _ (by positivity)
  simp only [fit, Nat.zero_add, Nat.reduceAdd, hround 0 (by omega), hround 1 (by omega),
    hround 2 le_rfl]
  by_cases h0 : m * 10 ^ 2 ≤ maxMantissa
  · exact ⟨0, by omega, if_pos h0, h0, by omega⟩
  by_cases h1 : m * 10 ^ 1 ≤ maxMantissa
  · refine ⟨1, by omega, ?_, h1, fun _ => not_le.mp h0⟩
    rw [if_neg h0, if_pos h1]
  · refine ⟨2, le_rfl, ?_, by simpa using hm, fun _ => not_le.mp h1⟩
    rw [if_neg h0, if_neg h1, if_pos (by simpa using hm)]

/-- To multiply by one hundred takes up to two places off the scale, and appends zeros for those
that are not taken off. -/
theorem hundred_mul_ratio {k s : ℕ} (m : ℕ) (hk : k ≤ 2) (hs : k ≤ s) :
    100 * ratio m s = ratio (m * 10 ^ (2 - k)) (s - k) := by
  have hhundred : (100 : ℚ) = 10 ^ k * 10 ^ (2 - k) := by
    rw [← pow_add, Nat.add_sub_cancel' hk]
    norm_num
  have hscale : (10 : ℚ) ^ s = 10 ^ k * 10 ^ (s - k) := by
    rw [← pow_add, Nat.add_sub_cancel' hs]
  unfold ratio
  rw [hhundred, hscale]
  push_cast
  field_simp

theorem rounds_fit {m s : ℕ} (hm : m ≤ maxMantissa) (hs : s ≤ maxScale) :
    Rounds (100 * ratio m s)
      (if (fit (m * 100) 0 3).2 ≤ s then
        some ((fit (m * 100) 0 3).1, s - (fit (m * 100) 0 3).2) else none) := by
  obtain ⟨k, hk, hfit, hle, hover⟩ := fit_mul_hundred hm
  rw [hfit]
  by_cases hks : k ≤ s
  · rw [if_pos hks, hundred_mul_ratio m hk hks]
    exact rounds_ratio hle (by omega)
  · rw [if_neg hks]
    refine rounds_none ?_
    -- all places are taken off, and the zeros that are left to append do not fit
    have hwhole : 100 * ratio m s = (m * 10 ^ (2 - s) : ℕ) := by
      rw [hundred_mul_ratio m (by omega) le_rfl, Nat.sub_self, ratio, pow_zero, div_one]
    have hzeros : m * 10 ^ (3 - k) ≤ m * 10 ^ (2 - s) :=
      Nat.mul_le_mul_left m (Nat.pow_le_pow_right (by norm_num) (by omega))
    rw [Fits, hwhole, Nat.abs_cast, pow_zero, mul_one, halfEven_natCast]
    have hlarge := hover (by omega)
    omega

/-! ### Signs -/

/-- The amount as a number. -/
def toRat (x : Decimal) : ℚ :=
  if x.negative then -ratio x.mantissa x.scale else ratio x.mantissa x.scale

/-- The mantissa and the scale are in range; the sign may be that of a zero. -/
structure InRange (x : Decimal) : Prop where
  mantissa_le : x.mantissa ≤ maxMantissa
  scale_le : x.scale ≤ maxScale

theorem toRat_ofParts (negative : Bool) (m s : ℕ) :
    (ofParts negative m s).toRat = if negative then -ratio m s else ratio m s := by
  unfold toRat ofParts
  by_cases hm : m = 0
  · simp [hm, ratio]
  · simp [hm]

/-- A decimal, not a negative zero, that a number is rounded to. -/
structure RoundsTo (x : ℚ) (result : Option Decimal) : Prop where
  nearest : result.map toRat = nearest? x
  valid : ∀ y, result = some y → y.Valid

theorem Rounds.signed {x : ℚ} {parts : Option (ℕ × ℕ)} (h : Rounds x parts) (negative : Bool) :
    RoundsTo (if negative then -x else x)
      (parts.map fun decimal => ofParts negative decimal.1 decimal.2) := by
  refine ⟨?_, ?_⟩
  · cases negative with
    | false => simp [← h.nearest, Function.comp_def, toRat_ofParts]
    | true => simp [← h.nearest, nearest?_neg, Function.comp_def, toRat_ofParts]
  · intro y hy
    obtain ⟨⟨m, s⟩, hparts, rfl⟩ := Option.map_eq_some_iff.mp hy
    obtain ⟨hm, hs⟩ := h.inRange m s hparts
    exact valid_ofParts hm hs

/-- Division is correct rounding. -/
theorem roundsTo_div? {x y : Decimal} (hx : x.InRange) (hy : y.InRange) (hne : y.mantissa ≠ 0) :
    RoundsTo (x.toRat / y.toRat) (x.div? y) := by
  have h := rounds_divide? hx.mantissa_le hx.scale_le (Nat.pos_of_ne_zero hne) hy.scale_le
  have hsigns : x.toRat / y.toRat = if (x.negative != y.negative) = true then
      -(ratio x.mantissa x.scale / ratio y.mantissa y.scale)
      else ratio x.mantissa x.scale / ratio y.mantissa y.scale := by
    unfold toRat
    cases x.negative <;> cases y.negative <;> simp [neg_div, div_neg]
  have hzero : y.isZero = false := by simpa [isZero] using hne
  rw [hsigns, div?, hzero]
  exact h.signed _

/-- Multiplication by one hundred is, too. -/
theorem roundsTo_mulHundred? {x : Decimal} (hx : x.InRange) :
    RoundsTo (100 * x.toRat) x.mulHundred? := by
  unfold mulHundred?
  split
  · next hzero =>
    have hmantissa : x.mantissa = 0 := by simpa [isZero] using hzero
    have hvalue : 100 * x.toRat = ratio 0 0 := by simp [toRat, hmantissa, ratio]
    rw [hvalue]
    exact (rounds_ratio (Nat.zero_le _) (Nat.zero_le _)).signed false
  · have h := (rounds_fit hx.mantissa_le hx.scale_le).signed x.negative
    have hvalue : 100 * x.toRat = if x.negative = true then
        -(100 * ratio x.mantissa x.scale) else 100 * ratio x.mantissa x.scale := by
      unfold toRat
      split
      · rw [mul_neg]
      · rfl
    rw [hvalue]
    generalize fit (x.mantissa * 100) 0 3 = fitted at h ⊢
    obtain ⟨m, k⟩ := fitted
    simp only at h ⊢
    by_cases hk : k ≤ x.scale
    · rw [if_pos hk] at h ⊢
      exact h
    · rw [if_neg hk] at h ⊢
      exact h

theorem toRat_eq_zero_iff {x : Decimal} : x.toRat = 0 ↔ x.isZero = true := by
  simp only [toRat, isZero, ratio, beq_iff_eq]
  split <;> simp

@[simp] theorem toRat_zero : zero.toRat = 0 := toRat_eq_zero_iff.mpr rfl

end Decimal

/-! ### The percentage -/

open Decimal

/-- **The returns, as a number.** Whatever the signs of the two amounts: if something is invested,
and both the ratio and one hundred times the rounded ratio can be rounded to a decimal, the
percentage is the latter, rounded; otherwise it is zero. Each time the rounding is half to even, at
the largest scale that is possible. The percentage is in range, and no negative zero. -/
theorem returns_rounded_twice {invested interest : Decimal} (hinvested : invested.InRange)
    (hinterest : interest.InRange) :
    (returnsPercentage invested interest).toRat =
      (if invested.toRat = 0 then 0
        else ((nearest? (interest.toRat / invested.toRat)).bind fun rate =>
          nearest? (100 * rate)).getD 0) ∧
    (returnsPercentage invested interest).Valid := by
  unfold returnsPercentage
  by_cases hzero : invested.isZero = true
  · rw [if_pos hzero, if_pos (toRat_eq_zero_iff.mpr hzero)]
    exact ⟨toRat_zero, valid_zero⟩
  · rw [if_neg hzero, if_neg (mt toRat_eq_zero_iff.mp hzero)]
    have hdiv := roundsTo_div? hinterest hinvested (by simpa [isZero] using hzero)
    rw [← hdiv.nearest]
    cases hrate : interest.div? invested with
    | none => exact ⟨toRat_zero, valid_zero⟩
    | some rate =>
        have hvalid := hdiv.valid rate hrate
        have hmul := roundsTo_mulHundred? ⟨hvalid.mantissa_le, hvalid.scale_le⟩
        simp only [Option.map_some, Option.bind_some]
        rw [← hmul.nearest]
        cases hpercentage : rate.mulHundred? with
        | none => exact ⟨toRat_zero, valid_zero⟩
        | some percentage => exact ⟨rfl, hmul.valid percentage hpercentage⟩

/-- One of interest on minus three. -/
theorem returns_rounded_twice_oneThird :
    let invested : Decimal := ⟨true, 3, 0⟩
    let interest : Decimal := ⟨false, 1, 0⟩
    invested.InRange ∧ interest.InRange ∧
      ((nearest? (1 / -3)).bind fun rate => nearest? (100 * rate)).getD 0 =
        -3333333333333333333333333333 / 10 ^ 26 ∧
      (returnsPercentage invested interest).Valid := by
  intro invested interest
  have hinvested : invested.InRange := ⟨by decide, by decide⟩
  have hinterest : interest.InRange := ⟨by decide, by decide⟩
  have hreturns : returnsPercentage invested interest =
      ⟨true, 33333333333333333333333333330, 27⟩ := by
    decide +kernel
  obtain ⟨hvalue, hvalid⟩ := returns_rounded_twice hinvested hinterest
  refine ⟨hinvested, hinterest, ?_, hvalid⟩
  have hdivisor : invested.toRat = -3 := by norm_num [invested, toRat, ratio]
  have hdividend : interest.toRat = 1 := by norm_num [interest, toRat, ratio]
  rw [hreturns, hdivisor, hdividend, if_neg (by norm_num)] at hvalue
  rw [← hvalue]
  norm_num [toRat, ratio]

end DepositSync
