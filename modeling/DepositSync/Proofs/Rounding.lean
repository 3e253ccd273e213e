import DepositSync.Decimal.Basic
import Mathlib.Data.Nat.Find
import Mathlib.Data.Rat.Floor
import Mathlib.Tactic.Linarith

/-!
# DepositSync.Proofs.Rounding

Which decimal a number is rounded to. The number is a rational; it is rounded half to even, at the
largest scale that is possible (`nearest?`).

Nothing is read off the rounding itself but that its result is the only whole number within one half
of what is rounded, ties going to the even one (`halfEven_eq_iff`). From this it follows that
rounding respects the order, and so that a number which fits at one scale fits at all smaller ones
(`Fits.of_le`). To find the scale it is therefore enough to know that the number fits there and not
at the next one (`IsScale`).

The result as a whole respects the order, too (`nearest?_mono`). Where the scale changes this hangs on
the last digit of the largest mantissa, which is a five (`ratio_le_roundedAt`).
-/

namespace DepositSync.Decimal

/-! ### Half to even -/

/-- The nearest whole number; of two that are equally near, the even one. -/
def halfEven (x : ℚ) : ℤ :=
  if 1 / 2 < x - ⌊x⌋ ∨ (x - ⌊x⌋ = 1 / 2 ∧ ⌊x⌋ % 2 = 1) then ⌊x⌋ + 1 else ⌊x⌋

/-- The whole number is within one half, and even if another one is as near. -/
structure IsNearest (x : ℚ) (n : ℤ) : Prop where
  near : |x - n| ≤ 1 / 2
  even_of_tie : |x - n| = 1 / 2 → Even n

theorem isNearest_halfEven (x : ℚ) : IsNearest x (halfEven x) := by
  have hlow : 0 ≤ x - ⌊x⌋ := sub_nonneg.mpr (Int.floor_le x)
  have hhigh : x - ⌊x⌋ < 1 := sub_lt_iff_lt_add'.mpr (Int.lt_floor_add_one x)
  unfold halfEven
  split
  · next hup =>
    have habs : |x - ((⌊x⌋ + 1 : ℤ) : ℚ)| = 1 - (x - ⌊x⌋) := by
      push_cast
      rw [abs_of_neg] <;> linarith
    constructor
    · rw [habs]
      rcases hup with hup | hup <;> linarith
    · intro htie
      rw [habs] at htie
      rcases hup with hup | ⟨-, hodd⟩
      · linarith
      · exact Int.even_iff.mpr (by omega)
  · next hdown =>
    have habs : |x - (⌊x⌋ : ℚ)| = x - ⌊x⌋ := abs_of_nonneg hlow
    rw [not_or, not_lt] at hdown
    constructor
    · rw [habs]
      exact hdown.1
    · intro htie
      rw [habs] at htie
      exact Int.even_iff.mpr (by have := mt (And.intro htie) hdown.2; omega)

/-- Of two whole numbers that are the nearest to two numbers, the one that belongs to the smaller
number is not larger. -/
theorem IsNearest.le {x y : ℚ} {m n : ℤ} (hm : IsNearest x m) (hn : IsNearest y n) (hxy : x ≤ y) :
    m ≤ n := by
  by_contra hlt
  have hsucc : (n : ℚ) + 1 ≤ m := by exact_mod_cast not_le.mp hlt
  have hx := (abs_le.mp hm.near).1
  have hy := (abs_le.mp hn.near).2
  -- both are one half away from the same number, and so both are even
  have hmx : |x - m| = 1 / 2 := by rw [abs_of_nonpos] <;> linarith
  have hny : |y - n| = 1 / 2 := by rw [abs_of_nonneg] <;> linarith
  have hnext : (m : ℚ) = n + 1 := by linarith
  have heven := hm.even_of_tie hmx
  rw [show m = n + 1 by exact_mod_cast hnext, Int.even_add_one] at heven
  exact heven (hn.even_of_tie hny)

theorem halfEven_eq_iff {x : ℚ} {n : ℤ} : halfEven x = n ↔ IsNearest x n := by
  constructor
  · rintro rfl
    exact isNearest_halfEven x
  · intro h
    exact le_antisymm ((isNearest_halfEven x).le h le_rfl) (h.le (isNearest_halfEven x) le_rfl)

theorem halfEven_mono {x y : ℚ} (h : x ≤ y) : halfEven x ≤ halfEven y :=
  (isNearest_halfEven x).le (isNearest_halfEven y) h

@[simp] theorem halfEven_intCast (n : ℤ) : halfEven n = n := by
  rw [halfEven_eq_iff]
  constructor
  · rw [sub_self, abs_zero]
    exact one_half_pos.le
  · intro htie
    rw [sub_self, abs_zero] at htie
    exact absurd htie one_half_pos.ne

@[simp] theorem halfEven_natCast (n : ℕ) : halfEven n = n := halfEven_intCast n

theorem halfEven_nonneg {x : ℚ} (h : 0 ≤ x) : 0 ≤ halfEven x := by
  have hmono := halfEven_mono h
  rwa [← Int.cast_zero, halfEven_intCast] at hmono

@[simp] theorem halfEven_neg (x : ℚ) : halfEven (-x) = -halfEven x := by
  have h := isNearest_halfEven x
  have habs : |(-x) - ((-halfEven x : ℤ) : ℚ)| = |x - halfEven x| := by
    rw [Int.cast_neg, sub_neg_eq_add, neg_add_eq_sub, abs_sub_comm]
  rw [halfEven_eq_iff]
  exact ⟨habs ▸ h.near, fun htie => (h.even_of_tie (habs ▸ htie)).neg⟩

/-- A whole number with a fraction is rounded up if the fraction is more than one half, or one half
on top of an odd number. -/
theorem halfEven_add_div {b r : ℕ} (n : ℕ) (hr : r < b) :
    halfEven (n + r / b) = if b < 2 * r ∨ (2 * r = b ∧ n % 2 = 1) then n + 1 else n := by
  have hb : (0 : ℚ) < b := by exact_mod_cast Nat.zero_lt_of_lt hr
  have hfraction : (r : ℚ) / b < 1 := (div_lt_one hb).mpr (by exact_mod_cast hr)
  have hfloor : ⌊(n : ℚ) + r / b⌋ = n := by
    rw [Int.floor_eq_iff, Int.cast_natCast]
    exact ⟨le_add_of_nonneg_right (by positivity), by linarith⟩
  have hmore : (1 : ℚ) / 2 < r / b ↔ b < 2 * r := by
    rw [div_lt_div_iff₀ two_pos hb, one_mul, mul_comm]
    exact_mod_cast Iff.rfl
  have htie : (r : ℚ) / b = 1 / 2 ↔ 2 * r = b := by
    rw [div_eq_div_iff hb.ne' two_ne_zero, one_mul, mul_comm]
    exact_mod_cast Iff.rfl
  have hodd : (n : ℤ) % 2 = 1 ↔ n % 2 = 1 := by omega
  rw [halfEven, hfloor, Int.cast_natCast, add_sub_cancel_left, Nat.cast_ite]
  simp only [hmore, htie, hodd]
  rfl

/-! ### The largest scale -/

/-- The number can be rounded at the scale: the mantissa is in range. -/
def Fits (x : ℚ) (s : ℕ) : Prop := halfEven (|x| * 10 ^ s) ≤ maxMantissa

instance (x : ℚ) : DecidablePred (Fits x) := fun _ => inferInstanceAs (Decidable (_ ≤ _))

/-- The number, rounded half to even at the scale. -/
def roundedAt (x : ℚ) (s : ℕ) : ℚ := halfEven (x * 10 ^ s) / 10 ^ s

/-- The number, rounded at the largest scale that is possible; none if it cannot even be rounded to
a whole number. -/
def nearest? (x : ℚ) : Option ℚ :=
  if Fits x 0 then some (roundedAt x (Nat.findGreatest (Fits x) maxScale)) else none

variable {x : ℚ} {s t : ℕ}

theorem Fits.of_le (h : Fits x t) (hst : s ≤ t) : Fits x s := by
  have hpow : (10 : ℚ) ^ s ≤ 10 ^ t := pow_le_pow_right₀ (by norm_num) hst
  exact (halfEven_mono (mul_le_mul_of_nonneg_left hpow (abs_nonneg x))).trans h

/-- The scale that a number is rounded at: it fits there, and not at the next one. -/
structure IsScale (x : ℚ) (s : ℕ) : Prop where
  fits : Fits x s
  le_maxScale : s ≤ maxScale
  next : s < maxScale → ¬Fits x (s + 1)

theorem nearest?_eq_none (h : ¬Fits x 0) : nearest? x = none := if_neg h

theorem nearest?_eq_some (h : IsScale x s) : nearest? x = some (roundedAt x s) := by
  have hgreatest : Nat.findGreatest (Fits x) maxScale = s := by
    rw [Nat.findGreatest_eq_iff]
    refine ⟨h.le_maxScale, fun _ => h.fits, fun t hst ht hfit => ?_⟩
    exact h.next (by omega) (hfit.of_le hst)
  rw [nearest?, if_pos (h.fits.of_le (Nat.zero_le s)), hgreatest]

-- there is no room for a place behind the point, and the tie goes to the even number
example : nearest? (10 ^ 28 + 1 / 2) = some (10 ^ 28) := by decide +kernel

theorem exists_isScale (h : Fits x t) (ht : t ≤ maxScale) : ∃ s, t ≤ s ∧ IsScale x s :=
  ⟨Nat.findGreatest (Fits x) maxScale, Nat.le_findGreatest ht h, Nat.findGreatest_spec ht h,
    Nat.findGreatest_le _, fun hs => Nat.findGreatest_is_greatest (Nat.lt_succ_self _) hs⟩

theorem fits_neg : Fits (-x) s ↔ Fits x s := by
  rw [Fits, Fits, abs_neg]

/-- The sign plays no part. -/
theorem nearest?_neg (x : ℚ) : nearest? (-x) = (nearest? x).map (- ·) := by
  by_cases h : Fits x 0
  · obtain ⟨s, -, hscale⟩ := exists_isScale h (Nat.zero_le _)
    have hneg : IsScale (-x) s :=
      ⟨fits_neg.mpr hscale.fits, hscale.le_maxScale, fun hs => mt fits_neg.mp (hscale.next hs)⟩
    rw [nearest?_eq_some hscale, nearest?_eq_some hneg, Option.map_some, roundedAt, neg_mul,
      halfEven_neg, Int.cast_neg, neg_div, roundedAt]
  · rw [nearest?_eq_none h, nearest?_eq_none (mt fits_neg.mp h), Option.map_none]

/-! ### Decimals -/

/-- The number with the mantissa and the scale. -/
def ratio (m s : ℕ) : ℚ := m / 10 ^ s

theorem ratio_nonneg (m s : ℕ) : 0 ≤ ratio m s := by
  unfold ratio
  positivity

/-- A number that is a decimal stays as it is. -/
theorem nearest?_ratio {m : ℕ} (hm : m ≤ maxMantissa) (hs : s ≤ maxScale) :
    nearest? (ratio m s) = some (ratio m s) := by
  have hwhole {t : ℕ} (hst : s ≤ t) : ratio m s * 10 ^ t = (m * 10 ^ (t - s) : ℕ) := by
    rw [ratio, ← Nat.add_sub_cancel' hst, pow_add, Nat.add_sub_cancel_left]
    push_cast
    field_simp
  have hfits : Fits (ratio m s) s := by
    rw [Fits, abs_of_nonneg (ratio_nonneg m s), hwhole le_rfl, halfEven_natCast]
    simpa using hm
  -- the scale may be larger, but what is rounded there is whole, too
  obtain ⟨t, hst, hscale⟩ := exists_isScale hfits hs
  rw [nearest?_eq_some hscale, roundedAt, hwhole hst, halfEven_natCast, Int.cast_natCast,
    ← hwhole hst]
  exact congrArg some (mul_div_cancel_right₀ _ (by positivity))

/-- The mantissa and the scale that a number is rounded to, in range; none if it does not fit. -/
structure Rounds (x : ℚ) (parts : Option (ℕ × ℕ)) : Prop where
  nearest : parts.map (fun decimal => ratio decimal.1 decimal.2) = nearest? x
  inRange : ∀ m s, parts = some (m, s) → m ≤ maxMantissa ∧ s ≤ maxScale

theorem rounds_none (h : ¬Fits x 0) : Rounds x none :=
  ⟨(nearest?_eq_none h).symm, nofun⟩

theorem rounds_some {m : ℕ} (h : IsScale x s) (hm : m ≤ maxMantissa)
    (hround : halfEven (x * 10 ^ s) = m) : Rounds x (some (m, s)) := by
  constructor
  · rw [nearest?_eq_some h, roundedAt, hround]
    rfl
  · rintro _ _ ⟨⟩
    exact ⟨hm, h.le_maxScale⟩

theorem rounds_ratio {m : ℕ} (hm : m ≤ maxMantissa) (hs : s ≤ maxScale) :
    Rounds (ratio m s) (some (m, s)) := by
  constructor
  · rw [nearest?_ratio hm hs]
    rfl
  · rintro _ _ ⟨⟩
    exact ⟨hm, hs⟩

/-! ### Order -/

variable {y : ℚ}

/-- A number that can be rounded is rounded at its scale. -/
theorem nearest?_eq_some_iff {r : ℚ} :
    nearest? x = some r ↔ ∃ s, IsScale x s ∧ roundedAt x s = r := by
  constructor
  · intro h
    have hfits : Fits x 0 := by
      by_contra hover
      rw [nearest?_eq_none hover] at h
      cases h
    obtain ⟨s, -, hscale⟩ := exists_isScale hfits (Nat.zero_le _)
    rw [nearest?_eq_some hscale] at h
    exact ⟨s, hscale, Option.some.inj h⟩
  · rintro ⟨s, hscale, rfl⟩
    exact nearest?_eq_some hscale

theorem Fits.mono (h : Fits y s) (hx : 0 ≤ x) (hxy : x ≤ y) : Fits x s := by
  have habs : |x| ≤ |y| := by rwa [abs_of_nonneg hx, abs_of_nonneg (hx.trans hxy)]
  exact (halfEven_mono (mul_le_mul_of_nonneg_right habs (by positivity))).trans h

/-- The smaller number is rounded at the same scale or at a larger one. -/
theorem IsScale.anti (hs : IsScale x s) (ht : IsScale y t) (hx : 0 ≤ x) (hxy : x ≤ y) : t ≤ s := by
  by_contra hlt
  have hle := ht.le_maxScale
  exact hs.next (by omega) ((ht.fits.of_le (by omega)).mono hx hxy)

theorem roundedAt_mono (s : ℕ) (hxy : x ≤ y) : roundedAt x s ≤ roundedAt y s := by
  have hscaled : x * 10 ^ s ≤ y * 10 ^ s := mul_le_mul_of_nonneg_right hxy (by positivity)
  exact div_le_div_of_nonneg_right (by exact_mod_cast halfEven_mono hscaled) (by positivity)

theorem Fits.roundedAt_le (h : Fits x s) (hx : 0 ≤ x) : roundedAt x s ≤ ratio maxMantissa s := by
  rw [Fits, abs_of_nonneg hx] at h
  exact div_le_div_of_nonneg_right (by exact_mod_cast h) (by positivity)

/-- A number that does not fit at the next scale is rounded to no less than the largest mantissa
there: this mantissa ends in a five, which is cut off together with something more. -/
theorem ratio_le_roundedAt (hx : 0 ≤ x) (h : ¬Fits x (s + 1)) :
    ratio maxMantissa (s + 1) ≤ roundedAt x s := by
  obtain ⟨m, hm⟩ : ∃ m : ℕ, maxMantissa = 10 * m + 5 := ⟨maxMantissa / 10, by decide⟩
  -- the number is no more than one half below the whole number it is rounded to
  have hlarge : (10 * m + 5 : ℚ) + 1 / 2 ≤ x * 10 ^ (s + 1) := by
    have hnear := (abs_le.mp (isNearest_halfEven (x * 10 ^ (s + 1))).near).1
    have hover : (10 * m + 5 : ℤ) + 1 ≤ halfEven (x * 10 ^ (s + 1)) := by
      rw [Fits, abs_of_nonneg hx] at h
      omega
    have hover' : (10 * m + 5 : ℚ) + 1 ≤ halfEven (x * 10 ^ (s + 1)) := by exact_mod_cast hover
    linarith
  have hcut : halfEven (m + 11 / 20) = m + 1 := by
    have hdiff : (m + 11 / 20 : ℚ) - ((m + 1 : ℤ) : ℚ) = -9 / 20 := by
      push_cast
      ring
    rw [halfEven_eq_iff]
    constructor <;> rw [hdiff] <;> norm_num [abs_of_neg]
  have hround : (m + 1 : ℤ) ≤ halfEven (x * 10 ^ s) := by
    rw [← hcut]
    refine halfEven_mono ?_
    rw [pow_succ] at hlarge
    linarith
  have hround' : (m + 1 : ℚ) ≤ halfEven (x * 10 ^ s) := by exact_mod_cast hround
  have hpow : (0 : ℚ) < 10 ^ s := by positivity
  rw [ratio, hm, roundedAt, pow_succ, ← div_div, div_right_comm]
  refine div_le_div_of_nonneg_right ?_ hpow.le
  push_cast
  linarith

theorem nearest?_mono_of_nonneg {r q : ℚ} (hx : 0 ≤ x) (hxy : x ≤ y) (hr : nearest? x = some r)
    (hq : nearest? y = some q) : r ≤ q := by
  obtain ⟨s, hs, rfl⟩ := nearest?_eq_some_iff.mp hr
  obtain ⟨t, ht, rfl⟩ := nearest?_eq_some_iff.mp hq
  rcases (hs.anti ht hx hxy).eq_or_lt with rfl | hlt
  · exact roundedAt_mono t hxy
  · -- the scales differ, and the largest mantissa at the scale behind the smaller one lies between
    have hover := ht.next (hlt.trans_le hs.le_maxScale)
    calc roundedAt x s ≤ ratio maxMantissa s := hs.fits.roundedAt_le hx
      _ ≤ ratio maxMantissa (t + 1) :=
        div_le_div_of_nonneg_left (by positivity) (by positivity)
          (pow_le_pow_right₀ (by norm_num) hlt)
      _ ≤ roundedAt y t := ratio_le_roundedAt (hx.trans hxy) hover

@[simp] theorem nearest?_zero : nearest? 0 = some 0 := by
  simpa [ratio] using nearest?_ratio (m := 0) (Nat.zero_le _) (Nat.zero_le _)

/-- Rounding to a decimal respects the order, also where the scale changes. -/
theorem nearest?_mono {r q : ℚ} (hxy : x ≤ y) (hr : nearest? x = some r)
    (hq : nearest? y = some q) : r ≤ q := by
  have hneg {z p : ℚ} (h : nearest? z = some p) : nearest? (-z) = some (-p) := by
    rw [nearest?_neg, h, Option.map_some]
  rcases le_total 0 x with hx | hx
  · exact nearest?_mono_of_nonneg hx hxy hr hq
  rcases le_total y 0 with hy | hy
  · exact neg_le_neg_iff.mp
      (nearest?_mono_of_nonneg (neg_nonneg.mpr hy) (neg_le_neg hxy) (hneg hq) (hneg hr))
  · have hr' := nearest?_mono_of_nonneg le_rfl (neg_nonneg.mpr hx) nearest?_zero (hneg hr)
    have hq' := nearest?_mono_of_nonneg le_rfl hy nearest?_zero hq
    exact (neg_nonneg.mp hr').trans hq'

end DepositSync.Decimal
