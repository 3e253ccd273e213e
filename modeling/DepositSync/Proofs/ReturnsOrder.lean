import DepositSync.Proofs.Returns

/-!
# DepositSync.Proofs.ReturnsOrder

How the returns of a client follow the interest: they grow with it, and they turn their sign where
the interest or the invested amount does.

The percentage is rounded twice, and each rounding respects the order (`nearest?_mono`), whatever the
two scales are. That this says something about the percentage takes that neither rounding is out of
range (`HasReturns`), since the percentage is zero then. The sign, in contrast, is carried along and
takes no part in any of the arithmetic, so that the law of signs holds without exception and of the
decimals themselves, scales included.
-/

namespace DepositSync

namespace Decimal

/-! ### Signs -/

@[simp] theorem mantissa_neg (x : Decimal) : x.neg.mantissa = x.mantissa := rfl

@[simp] theorem scale_neg (x : Decimal) : x.neg.scale = x.scale := rfl

@[simp] theorem isZero_neg (x : Decimal) : x.neg.isZero = x.isZero := rfl

theorem neg_ofParts (negative : Bool) (m s : ℕ) :
    (ofParts negative m s).neg = ofParts (!negative) m s := by
  unfold neg ofParts
  by_cases hm : m = 0
  · simp [hm]
  · have hne : (m != 0) = true := by simpa using hm
    simp [hne]

@[simp] theorem toRat_neg (x : Decimal) : x.neg.toRat = -x.toRat := by
  rw [neg, toRat_ofParts, toRat]
  cases x.negative <;> simp

/-- A negated amount has the other sign, unless it is zero. -/
theorem negative_neg {x : Decimal} (h : x.isZero = false) : x.neg.negative = !x.negative := by
  have hne : (x.mantissa != 0) = true := by simpa [isZero] using h
  simp [neg, ofParts, hne]

theorem div?_neg_left (x y : Decimal) : x.neg.div? y = (x.div? y).map neg := by
  unfold div?
  split
  · rfl
  · rw [mantissa_neg, scale_neg]
    cases hx : x.isZero with
    | true =>
        have hmantissa : x.mantissa = 0 := by simpa [isZero] using hx
        simp [hmantissa, divide?, ofParts, neg]
    | false => simp [Function.comp_def, neg_ofParts, negative_neg hx]

theorem div?_neg_right (x y : Decimal) : x.div? y.neg = (x.div? y).map neg := by
  unfold div?
  rw [isZero_neg]
  cases hy : y.isZero with
  | true => rfl
  | false => simp [Function.comp_def, neg_ofParts, negative_neg hy]

theorem mulHundred?_neg (x : Decimal) : x.neg.mulHundred? = x.mulHundred?.map neg := by
  unfold mulHundred?
  rw [isZero_neg]
  cases hx : x.isZero with
  | true => rfl
  | false =>
      rw [mantissa_neg, scale_neg]
      simp only [Bool.false_eq_true, if_false, negative_neg hx]
      split
      · rw [Option.map_some, neg_ofParts]
      · rfl

end Decimal

/-! ### The percentage -/

open Decimal

/-- Neither the ratio of the interest to the invested amount nor the percentage is out of range. -/
def HasReturns (invested interest : Decimal) : Prop :=
  ((interest.div? invested).bind mulHundred?).isSome = true

instance (invested interest : Decimal) : Decidable (HasReturns invested interest) :=
  inferInstanceAs (Decidable (_ = true))

theorem returnsPercentage_neg_invested (invested interest : Decimal) :
    returnsPercentage invested.neg interest = (returnsPercentage invested interest).neg := by
  unfold returnsPercentage
  rw [isZero_neg]
  split
  · rfl
  · rw [div?_neg_right]
    cases interest.div? invested with
    | none => rfl
    | some rate =>
        simp only [Option.map_some, Option.bind_some, mulHundred?_neg]
        cases rate.mulHundred? <;> rfl

theorem returnsPercentage_neg_interest (invested interest : Decimal) :
    returnsPercentage invested interest.neg = (returnsPercentage invested interest).neg := by
  unfold returnsPercentage
  split
  · rfl
  · rw [div?_neg_left]
    cases interest.div? invested with
    | none => rfl
    | some rate =>
        simp only [Option.map_some, Option.bind_some, mulHundred?_neg]
        cases rate.mulHundred? <;> rfl

variable {invested interest : Decimal}

theorem HasReturns.isZero_eq_false (h : HasReturns invested interest) :
    invested.isZero = false := by
  by_contra hzero
  simp [HasReturns, div?, Bool.not_eq_false _ ▸ hzero] at h

theorem returnsPercentage_of_not_hasReturns (h : ¬HasReturns invested interest) :
    returnsPercentage invested interest = .zero := by
  unfold returnsPercentage
  split
  · rfl
  · rw [HasReturns, Bool.not_eq_true, Option.isSome_eq_false_iff, Option.isNone_iff_eq_none] at h
    rw [h, Option.getD_none]

/-- Where nothing is out of range the percentage is the ratio, rounded, times one hundred, rounded
once more. -/
theorem HasReturns.rounds (h : HasReturns invested interest) (hinvested : invested.InRange)
    (hinterest : interest.InRange) :
    ∃ rate, nearest? (interest.toRat / invested.toRat) = some rate ∧
      RoundsTo (100 * rate) (some (returnsPercentage invested interest)) := by
  have hzero := h.isZero_eq_false
  obtain ⟨percentage, hpercentage⟩ := Option.isSome_iff_exists.mp h
  obtain ⟨rate, hrate, hmul⟩ := Option.bind_eq_some_iff.mp hpercentage
  have hdiv := roundsTo_div? hinterest hinvested (by simpa [isZero] using hzero)
  have hvalid := hdiv.valid rate hrate
  have hreturns : returnsPercentage invested interest = percentage := by
    rw [returnsPercentage, hpercentage, hzero]
    rfl
  refine ⟨rate.toRat, by rw [← hdiv.nearest, hrate, Option.map_some], ?_⟩
  rw [hreturns, ← hmul]
  exact roundsTo_mulHundred? ⟨hvalid.mantissa_le, hvalid.scale_le⟩

/-- If nothing is out of range, more interest on the same amount is no smaller percentage. -/
theorem returns_mono {low high : Decimal} (hinvested : invested.InRange) (hlow : low.InRange)
    (hhigh : high.InRange) (hpos : 0 < invested.toRat) (hle : low.toRat ≤ high.toRat)
    (hlowReturns : HasReturns invested low) (hhighReturns : HasReturns invested high) :
    (returnsPercentage invested low).toRat ≤ (returnsPercentage invested high).toRat := by
  obtain ⟨lowRate, hlowRate, hlowPercentage⟩ := hlowReturns.rounds hinvested hlow
  obtain ⟨highRate, hhighRate, hhighPercentage⟩ := hhighReturns.rounds hinvested hhigh
  have hrates : lowRate ≤ highRate :=
    nearest?_mono (div_le_div_of_nonneg_right hle hpos.le) hlowRate hhighRate
  exact nearest?_mono (mul_le_mul_of_nonneg_left hrates (by norm_num))
    hlowPercentage.nearest.symm hhighPercentage.nearest.symm

/-- There are no returns above zero unless the interest and the invested amount have the same
sign. -/
theorem mul_pos_of_returns_pos (hinvested : invested.InRange) (hinterest : interest.InRange)
    (hpos : 0 < (returnsPercentage invested interest).toRat) :
    0 < interest.toRat * invested.toRat := by
  have h : HasReturns invested interest := by
    by_contra hnone
    rw [returnsPercentage_of_not_hasReturns hnone, toRat_zero] at hpos
    exact lt_irrefl _ hpos
  obtain ⟨rate, hrate, hpercentage⟩ := h.rounds hinvested hinterest
  have hratio : 0 < interest.toRat / invested.toRat := by
    by_contra hnonpos
    have hle : rate ≤ 0 := nearest?_mono (not_lt.mp hnonpos) hrate nearest?_zero
    have hreturns := nearest?_mono (by linarith) hpercentage.nearest.symm nearest?_zero
    exact not_lt.mpr hreturns hpos
  rcases div_pos_iff.mp hratio with ⟨hup, hup'⟩ | ⟨hdown, hdown'⟩
  · exact mul_pos hup hup'
  · exact mul_pos_of_neg_of_neg hdown hdown'

theorem InRange.neg {x : Decimal} (h : x.InRange) : x.neg.InRange := ⟨h.mantissa_le, h.scale_le⟩

/-- There are none below zero unless they have different signs. -/
theorem mul_neg_of_returns_neg (hinvested : invested.InRange) (hinterest : interest.InRange)
    (hneg : (returnsPercentage invested interest).toRat < 0) :
    interest.toRat * invested.toRat < 0 := by
  have hpos := mul_pos_of_returns_pos hinvested (InRange.neg hinterest) (by
    rw [returnsPercentage_neg_interest, toRat_neg]
    exact neg_pos.mpr hneg)
  rw [toRat_neg, neg_mul] at hpos
  exact neg_pos.mp hpos

/-- Returns of zero bear no sign that could be turned. -/
theorem neg_returnsPercentage_of_isZero (hinvested : invested.InRange)
    (hinterest : interest.InRange) (h : (returnsPercentage invested interest).isZero = true) :
    (returnsPercentage invested interest).neg = returnsPercentage invested interest := by
  by_cases hreturns : HasReturns invested interest
  · obtain ⟨rate, -, hrounds⟩ := hreturns.rounds hinvested hinterest
    have hvalid := hrounds.valid _ rfl
    have hmantissa : (returnsPercentage invested interest).mantissa = 0 := by simpa [isZero] using h
    have hunsigned : (returnsPercentage invested interest).negative = false := by
      by_contra hsigned
      exact hvalid.ne_zero_of_negative (by simpa using hsigned) hmantissa
    generalize returnsPercentage invested interest = returns at *
    obtain ⟨negative, mantissa, scale⟩ := returns
    subst hmantissa hunsigned
    rfl
  · rw [returnsPercentage_of_not_hasReturns hreturns]
    rfl

/-- **Order and sign of the returns.** On an amount above zero, more interest is no smaller
percentage, as long as neither the ratio nor the percentage is out of range for either interest. If
either amount is negated, so is the percentage, and nothing else about it changes; a percentage of
zero stays as it is. And so no percentage has a sign that its two amounts do not make together. -/
theorem returns_follow_interest :
    (∀ invested low high : Decimal, invested.InRange → low.InRange → high.InRange →
      0 < invested.toRat → low.toRat ≤ high.toRat →
      HasReturns invested low → HasReturns invested high →
      (returnsPercentage invested low).toRat ≤ (returnsPercentage invested high).toRat) ∧
    (∀ invested interest : Decimal,
      returnsPercentage invested.neg interest = (returnsPercentage invested interest).neg ∧
      returnsPercentage invested interest.neg = (returnsPercentage invested interest).neg ∧
      (returnsPercentage invested interest).neg.toRat =
        -(returnsPercentage invested interest).toRat) ∧
    (∀ invested interest : Decimal, invested.InRange → interest.InRange →
      ((returnsPercentage invested interest).isZero = true →
        (returnsPercentage invested interest).neg = returnsPercentage invested interest) ∧
      (0 < (returnsPercentage invested interest).toRat →
        0 < interest.toRat * invested.toRat) ∧
      ((returnsPercentage invested interest).toRat < 0 →
        interest.toRat * invested.toRat < 0)) := by
  refine ⟨fun invested low high => returns_mono, fun invested interest => ?_,
    fun invested interest hinvested hinterest => ?_⟩
  · exact ⟨returnsPercentage_neg_invested invested interest,
      returnsPercentage_neg_interest invested interest, toRat_neg _⟩
  · exact ⟨neg_returnsPercentage_of_isZero hinvested hinterest,
      mul_pos_of_returns_pos hinvested hinterest, mul_neg_of_returns_neg hinvested hinterest⟩

/-- The ratio has 28 places on the smaller interest, and 27 on the larger one. -/
theorem returns_follow_interest_acrossScales :
    let invested : Decimal := ⟨false, 7, 0⟩
    let low : Decimal := ⟨false, 55459, 3⟩
    let high : Decimal := ⟨false, 5546, 2⟩
    low.div? invested = some ⟨false, 79227142857142857142857142857, 28⟩ ∧
      high.div? invested = some ⟨false, 7922857142857142857142857143, 27⟩ ∧
      (returnsPercentage invested low).toRat ≤ (returnsPercentage invested high).toRat ∧
      (0 < (returnsPercentage invested low).toRat → 0 < low.toRat * invested.toRat) := by
  intro invested low high
  have hinvested : invested.InRange := ⟨by decide, by decide⟩
  have hlow : low.InRange := ⟨by decide, by decide⟩
  have hhigh : high.InRange := ⟨by decide, by decide⟩
  have hpos : 0 < invested.toRat := by norm_num [invested, toRat, ratio]
  have hle : low.toRat ≤ high.toRat := by norm_num [low, high, toRat, ratio]
  have hlowReturns : HasReturns invested low := by decide +kernel
  have hhighReturns : HasReturns invested high := by decide +kernel
  obtain ⟨hmono, -, hsigns⟩ := returns_follow_interest
  exact ⟨by decide +kernel, by decide +kernel,
    hmono invested low high hinvested hlow hhigh hpos hle hlowReturns hhighReturns,
    (hsigns invested low hinvested hlow).2.1⟩

end DepositSync
