import DepositSync.Binary64.Basic
import DepositSync.Proofs.Division
import Mathlib.Data.Int.Log

/-!
# DepositSync.Proofs.NearestDouble

Rounding to a double, as a function of the number that is rounded. The program rounds a ratio of
natural numbers and finds the place of the last bit from the lengths of the two (`ofRatio`);
`nearest?` finds it from the number itself, and is the same function (`ofRatio_eq_nearest?`). So it
does not matter by which ratio a number is given.
-/

namespace DepositSync.Binary64

open Decimal (halfEven)

/-! ### Doubles as numbers -/

/-- The double as a number. -/
def toRat (x : Binary64) : ℚ := x.significand * 2 ^ x.exponent

variable {n d : ℕ} {v : ℚ} {x : Binary64}

theorem toRatio_pos (x : Binary64) : 0 < x.toRatio.2 := by
  unfold toRatio
  split
  · exact Nat.one_pos
  · exact Nat.pow_pos Nat.two_pos

theorem toRatio_eq (x : Binary64) : (x.toRatio.1 : ℚ) / x.toRatio.2 = x.toRat := by
  unfold toRatio toRat
  split
  · next h =>
    obtain ⟨k, hk⟩ := Int.eq_ofNat_of_zero_le h
    simp [hk]
  · next h =>
    obtain ⟨k, hk⟩ := Int.eq_ofNat_of_zero_le (show 0 ≤ -x.exponent by omega)
    have he : x.exponent = -(k : ℤ) := by omega
    simp [he, div_eq_mul_inv]

theorem scaled_pos (hd : 0 < d) (e : ℤ) : 0 < (scaled n d e).2 := by
  unfold scaled
  split
  · exact Nat.mul_pos hd (Nat.pow_pos Nat.two_pos)
  · exact hd

theorem scaled_eq (n d : ℕ) (e : ℤ) :
    ((scaled n d e).1 : ℚ) / (scaled n d e).2 = n / d / 2 ^ e := by
  unfold scaled
  split
  · next h =>
    obtain ⟨k, rfl⟩ := Int.eq_ofNat_of_zero_le h
    simp [div_div]
  · next h =>
    obtain ⟨k, hk⟩ := Int.eq_ofNat_of_zero_le (show 0 ≤ -e by omega)
    have he : e = -(k : ℤ) := by omega
    simp [he, div_mul_eq_mul_div]

theorem roundHalfEven_eq (n : ℕ) (hd : 0 < d) : (roundHalfEven n d : ℤ) = halfEven (n / d) := by
  rw [Decimal.natCast_div_eq n hd, Decimal.halfEven_add_div _ (Nat.mod_lt n hd), roundHalfEven]

/-! ### The last place -/

/-- The exponent of the last bit of a double near the number. -/
def lastPlace (v : ℚ) : ℤ := max (Int.log 2 v - 52) minExponent

theorem zpow_le_iff (hv : 0 < v) {e : ℤ} : (2 : ℚ) ^ e ≤ v ↔ e ≤ Int.log 2 v := by
  exact_mod_cast Int.zpow_le_iff_le_log (R := ℚ) Nat.one_lt_two hv

theorem lt_zpow_iff (hv : 0 < v) {e : ℤ} : v < (2 : ℚ) ^ e ↔ Int.log 2 v < e := by
  exact_mod_cast Int.lt_zpow_iff_log_lt (R := ℚ) Nat.one_lt_two hv

/-- The lengths of the two numbers tell the length of their ratio up to one bit. -/
theorem log_ratio (hn : 0 < n) (hd : 0 < d) :
    (n.log2 : ℤ) - d.log2 - 1 ≤ Int.log 2 ((n : ℚ) / d) ∧
      Int.log 2 ((n : ℚ) / d) ≤ (n.log2 : ℤ) - d.log2 := by
  have hv : (0 : ℚ) < n / d := div_pos (by exact_mod_cast hn) (by exact_mod_cast hd)
  have hnlow : (2 : ℚ) ^ n.log2 ≤ n := by exact_mod_cast Nat.log2_self_le hn.ne'
  have hnhigh : (n : ℚ) < 2 ^ (n.log2 + 1) := by exact_mod_cast Nat.lt_log2_self
  have hdlow : (2 : ℚ) ^ d.log2 ≤ d := by exact_mod_cast Nat.log2_self_le hd.ne'
  have hdhigh : (d : ℚ) < 2 ^ (d.log2 + 1) := by exact_mod_cast Nat.lt_log2_self
  constructor
  · rw [← zpow_le_iff hv, le_div_iff₀ (by exact_mod_cast hd)]
    calc (2 : ℚ) ^ ((n.log2 : ℤ) - d.log2 - 1) * d
        ≤ 2 ^ ((n.log2 : ℤ) - d.log2 - 1) * 2 ^ (d.log2 + 1) :=
          mul_le_mul_of_nonneg_left hdhigh.le (zpow_nonneg two_pos.le _)
      _ = 2 ^ n.log2 := by
          rw [← zpow_natCast, ← zpow_natCast, ← zpow_add₀ two_ne_zero]
          congr 1
          push_cast
          ring
      _ ≤ n := hnlow
  · rw [← Int.lt_add_one_iff, ← lt_zpow_iff hv, div_lt_iff₀ (by exact_mod_cast hd)]
    calc (n : ℚ) < 2 ^ (n.log2 + 1) := hnhigh
      _ = 2 ^ ((n.log2 : ℤ) - d.log2 + 1) * 2 ^ d.log2 := by
          rw [← zpow_natCast, ← zpow_natCast, ← zpow_add₀ two_ne_zero]
          congr 1
          push_cast
          ring
      _ ≤ 2 ^ ((n.log2 : ℤ) - d.log2 + 1) * d :=
          mul_le_mul_of_nonneg_left hdlow (zpow_nonneg two_pos.le _)

/-- Two bits more than the lengths tell are tried, and one of them is taken back if the quotient
shows that it is not needed. -/
theorem lastPlace_ratio (hn : 0 < n) (hd : 0 < d) :
    let low := max ((n.log2 : ℤ) - d.log2 - precision) minExponent
    (if Nat.pow 2 precision ≤ (scaled n d low).1 / (scaled n d low).2 then low + 1 else low) =
      lastPlace (n / d) := by
  intro low
  have hv : (0 : ℚ) < n / d := div_pos (by exact_mod_cast hn) (by exact_mod_cast hd)
  obtain ⟨hlog, hlog'⟩ := log_ratio hn hd
  have hfull : Nat.pow 2 precision ≤ (scaled n d low).1 / (scaled n d low).2 ↔
      low + 53 ≤ Int.log 2 ((n : ℚ) / d) := by
    have hpos : (0 : ℚ) < (scaled n d low).2 := by exact_mod_cast scaled_pos hd low
    rw [Nat.le_div_iff_mul_le (scaled_pos hd low), ← zpow_le_iff hv, add_comm,
      zpow_add₀ two_ne_zero, ← le_div_iff₀ (zpow_pos two_pos _), ← scaled_eq, le_div_iff₀ hpos]
    norm_num [precision]
    exact_mod_cast Iff.rfl
  rw [if_congr hfull rfl rfl]
  split <;> simp only [low, lastPlace, precision, minExponent] at * <;> omega

/-! ### Rounding -/

/-- The double with the significand, which may have got one bit too many. -/
def carried (q : ℕ) (e : ℤ) : Binary64 :=
  if q = Nat.pow 2 precision then ⟨Nat.pow 2 (precision - 1), e + 1⟩ else ⟨q, e⟩

/-- The double nearest to a number that is not negative, of two that are equally near the even one;
none if the number is too large. -/
def nearest? (v : ℚ) : Option Binary64 :=
  if v = 0 then some zero
  else
    let x := carried (halfEven (v / 2 ^ lastPlace v)).toNat (lastPlace v)
    if maxExponent < x.exponent then none else some x

theorem ofRatio_eq_nearest? (n : ℕ) (hd : 0 < d) : ofRatio n d = nearest? (n / d) := by
  by_cases hn : n = 0
  · subst hn
    simp [ofRatio, nearest?]
  · have hn : 0 < n := Nat.pos_of_ne_zero hn
    have hv : (n : ℚ) / d ≠ 0 := (div_pos (by exact_mod_cast hn) (by exact_mod_cast hd)).ne'
    have hround (e : ℤ) : roundHalfEven (scaled n d e).1 (scaled n d e).2 =
        (halfEven ((n : ℚ) / d / 2 ^ e)).toNat := by
      rw [← scaled_eq, ← roundHalfEven_eq _ (scaled_pos hd e), Int.toNat_natCast]
    have hlast := lastPlace_ratio hn hd
    simp only [ofRatio, nearest?, if_neg hn.ne', if_neg hv, hlast, hround]
    by_cases hfull : (halfEven ((n : ℚ) / d / 2 ^ lastPlace (n / d))).toNat = Nat.pow 2 precision
    · simp only [carried, if_pos hfull]
    · simp only [carried, if_neg hfull]

/-- What is known of a double that a number is rounded to. -/
structure Canonical (x : Binary64) : Prop where
  significand_lt : x.significand < 2 ^ 53
  minExponent_le : minExponent ≤ x.exponent
  le_maxExponent : x.exponent ≤ maxExponent
  full : minExponent < x.exponent → 2 ^ 52 ≤ x.significand

theorem canonical_zero : zero.Canonical := ⟨by decide, by decide, by decide, by decide⟩

theorem toRat_nonneg (x : Binary64) : 0 ≤ x.toRat :=
  mul_nonneg (Nat.cast_nonneg _) (zpow_nonneg two_pos.le _)

@[simp] theorem toRat_zero : zero.toRat = 0 := by simp [toRat, zero]

theorem nearest?_zero : nearest? 0 = some zero := if_pos rfl

/-- The carry does not change the number. -/
theorem toRat_carried (q : ℕ) (e : ℤ) : (carried q e).toRat = q * 2 ^ e := by
  unfold carried
  split
  · next hfull =>
    rw [hfull, toRat, zpow_add₀ two_ne_zero]
    norm_num [precision]
    ring
  · rfl

theorem le_carried_exponent (q : ℕ) (e : ℤ) : e ≤ (carried q e).exponent := by
  unfold carried
  split <;> simp

/-- What a positive number is rounded to. -/
theorem nearest?_eq_some_iff (hv : 0 < v) :
    nearest? v = some x ↔
      carried (halfEven (v / 2 ^ lastPlace v)).toNat (lastPlace v) = x ∧
        x.exponent ≤ maxExponent := by
  simp only [nearest?, if_neg hv.ne']
  split
  · next hover =>
    simp only [reduceCtorEq, false_iff, not_and, not_le]
    rintro rfl
    exact hover
  · next hfits =>
    rw [Option.some_inj]
    refine ⟨?_, And.left⟩
    rintro rfl
    exact ⟨rfl, not_lt.mp hfits⟩

/-- The number that the significand is rounded from. -/
theorem scaled_lt (hv : 0 < v) : v / 2 ^ lastPlace v < 2 ^ (53 : ℤ) := by
  rw [div_lt_iff₀ (zpow_pos two_pos _), ← zpow_add₀ two_ne_zero, lt_zpow_iff hv, lastPlace]
  omega

theorem le_scaled (hv : 2 ^ (-1022 : ℤ) ≤ v) : 2 ^ (52 : ℤ) ≤ v / 2 ^ lastPlace v := by
  have hpos : 0 < v := (zpow_pos two_pos _).trans_le hv
  have hlog := (zpow_le_iff hpos).mp hv
  rw [le_div_iff₀ (zpow_pos two_pos _), ← zpow_add₀ two_ne_zero, zpow_le_iff hpos, lastPlace,
    minExponent]
  omega

/-- The significand is the scaled number, rounded. -/
theorem natCast_toNat_halfEven (hv : 0 ≤ v) : ((halfEven v).toNat : ℤ) = halfEven v :=
  Int.toNat_of_nonneg (Decimal.halfEven_nonneg hv)

/-- The significand is full unless the number is too small. -/
theorem full_of_nearest? (hv : 2 ^ (-1022 : ℤ) ≤ v) (h : nearest? v = some x) :
    2 ^ 52 ≤ x.significand := by
  have hpos : 0 < v := (zpow_pos two_pos _).trans_le hv
  obtain ⟨rfl, -⟩ := (nearest?_eq_some_iff hpos).mp h
  have hmono := Decimal.halfEven_mono (le_scaled hv)
  have hlow : 2 ^ 52 ≤ halfEven (v / 2 ^ lastPlace v) := by
    exact_mod_cast (Decimal.halfEven_intCast (2 ^ 52)).symm.trans_le hmono
  unfold carried
  split
  · exact le_rfl
  · simp only
    omega

theorem canonical_of_nearest? (hv : 0 ≤ v) (h : nearest? v = some x) : x.Canonical := by
  rcases hv.eq_or_lt with rfl | hv
  · cases h
    exact canonical_zero
  obtain ⟨hx, hle⟩ := (nearest?_eq_some_iff hv).mp h
  have hmin : minExponent ≤ x.exponent :=
    (le_max_right _ _).trans (hx ▸ le_carried_exponent _ _)
  have hhigh : halfEven (v / 2 ^ lastPlace v) ≤ 2 ^ 53 := by
    have hmono := Decimal.halfEven_mono (scaled_lt hv).le
    exact_mod_cast hmono.trans_eq (Decimal.halfEven_intCast (2 ^ 53))
  have hpow : Nat.pow 2 precision = 2 ^ 53 := rfl
  have hlt : x.significand < 2 ^ 53 := by
    rw [← hx, carried]
    split
    · norm_num [precision]
    · simp only
      omega
  refine ⟨hlt, hmin, hle, fun hfull => ?_⟩
  by_cases hsmall : 2 ^ (-1022 : ℤ) ≤ v
  · exact full_of_nearest? hsmall h
  · -- a small number is rounded at the smallest exponent, unless there is a carry
    have hlog := (lt_zpow_iff hv).mp (not_le.mp hsmall)
    have hlast : lastPlace v = minExponent := by
      rw [lastPlace, minExponent]
      omega
    rw [← hx, carried, hlast] at hfull ⊢
    split at hfull
    · next hcarry =>
      rw [if_pos hcarry]
      exact le_rfl
    · exact absurd hfull (lt_irrefl _)

/-- Rounding moves a number by no more than half of its last place. -/
theorem abs_toRat_sub_le (hv : 0 < v) (h : nearest? v = some x) :
    |x.toRat - v| ≤ 2 ^ lastPlace v / 2 := by
  obtain ⟨rfl, -⟩ := (nearest?_eq_some_iff hv).mp h
  have hpos : (0 : ℚ) < 2 ^ lastPlace v := zpow_pos two_pos _
  have hcast : (((halfEven (v / 2 ^ lastPlace v)).toNat : ℕ) : ℚ) =
      halfEven (v / 2 ^ lastPlace v) := by
    exact_mod_cast natCast_toNat_halfEven (div_nonneg hv.le hpos.le)
  have hnear := (Decimal.isNearest_halfEven (v / 2 ^ lastPlace v)).near
  have hsplit : (halfEven (v / 2 ^ lastPlace v) : ℚ) * 2 ^ lastPlace v - v =
      (halfEven (v / 2 ^ lastPlace v) - v / 2 ^ lastPlace v) * 2 ^ lastPlace v := by
    rw [sub_mul, div_mul_cancel₀ _ hpos.ne']
  rw [toRat_carried, hcast, hsplit, abs_mul, abs_of_pos hpos, abs_sub_comm]
  linarith [mul_le_mul_of_nonneg_right hnear hpos.le]

theorem lastPlace_le_exponent (hv : 0 < v) (h : nearest? v = some x) :
    lastPlace v ≤ x.exponent := by
  obtain ⟨rfl, -⟩ := (nearest?_eq_some_iff hv).mp h
  exact le_carried_exponent _ _

/-- A number in the range of the full significands. -/
theorem zpow_lastPlace_le (hv : 2 ^ (-1022 : ℤ) ≤ v) : (2 : ℚ) ^ lastPlace v ≤ v / 2 ^ 52 := by
  have hpos : 0 < v := (zpow_pos two_pos _).trans_le hv
  have hlog := (zpow_le_iff hpos).mp hv
  have hlast : lastPlace v = Int.log 2 v - 52 := by
    rw [lastPlace, minExponent]
    omega
  rw [hlast, zpow_sub₀ two_ne_zero]
  exact div_le_div_of_nonneg_right ((zpow_le_iff hpos).mpr le_rfl) (by positivity)

/-- Rounding changes a number by a factor that is near one. -/
theorem abs_toRat_sub_le_mul (hv : 2 ^ (-1022 : ℤ) ≤ v) (h : nearest? v = some x) :
    |x.toRat - v| ≤ 2 ^ (-53 : ℤ) * v := by
  have hpos : 0 < v := (zpow_pos two_pos _).trans_le hv
  calc |x.toRat - v| ≤ 2 ^ lastPlace v / 2 := abs_toRat_sub_le hpos h
    _ ≤ v / 2 ^ 52 / 2 := by linarith [zpow_lastPlace_le hv]
    _ = 2 ^ (-53 : ℤ) * v := by
      rw [zpow_neg]
      norm_num
      ring

/-- A number that has no more digits than a significand is not changed. -/
theorem toRat_of_whole {q : ℕ} (hv : 0 < v) (hwhole : v = q * 2 ^ lastPlace v)
    (h : nearest? v = some x) : x.toRat = v := by
  obtain ⟨rfl, -⟩ := (nearest?_eq_some_iff hv).mp h
  have hscaled : v / 2 ^ lastPlace v = q := by
    rw [div_eq_iff (zpow_pos two_pos _).ne', ← hwhole]
  rw [toRat_carried, hscaled, Decimal.halfEven_natCast, Int.toNat_natCast, ← hwhole]

theorem toRat_of_bits {q : ℕ} {j : ℤ} (hq : q < 2 ^ 53) (hj : minExponent ≤ j)
    (h : nearest? (q * 2 ^ j) = some x) : x.toRat = q * 2 ^ j := by
  rcases q.eq_zero_or_pos with rfl | hpos
  · rw [Nat.cast_zero, zero_mul, nearest?_zero] at h
    cases h
    simp
  have hv : (0 : ℚ) < q * 2 ^ j := mul_pos (by exact_mod_cast hpos) (zpow_pos two_pos _)
  have hlast : lastPlace (q * 2 ^ j) ≤ j := by
    have hlog : Int.log 2 ((q : ℚ) * 2 ^ j) < 53 + j := by
      rw [← lt_zpow_iff hv, zpow_add₀ two_ne_zero]
      exact mul_lt_mul_of_pos_right (by exact_mod_cast hq) (zpow_pos two_pos _)
    rw [lastPlace]
    omega
  obtain ⟨k, hk⟩ := Int.eq_ofNat_of_zero_le (sub_nonneg.mpr hlast)
  refine toRat_of_whole (q := q * 2 ^ k) hv ?_ h
  nth_rewrite 1 [show j = (k : ℤ) + lastPlace (q * 2 ^ j) by omega]
  rw [zpow_add₀ two_ne_zero, zpow_natCast]
  push_cast
  ring

/-- A whole number that a significand has room for. -/
theorem toRat_of_lt {n : ℕ} (hn : n < 2 ^ 53) (h : nearest? n = some x) : x.toRat = n := by
  have hbits := toRat_of_bits (j := 0) hn (by decide) (by simpa using h)
  simpa using hbits

/-- A power of ten that a significand has room for: twos do not count. -/
theorem toRat_of_tenPow {k : ℕ} (hk : k ≤ 22) (h : nearest? (10 ^ k) = some x) :
    x.toRat = 10 ^ k := by
  have hfive : 5 ^ k < 2 ^ 53 :=
    (Nat.pow_le_pow_right (by decide) hk).trans_lt (by decide : 5 ^ 22 < 2 ^ 53)
  have hsplit : (10 : ℚ) ^ k = (5 ^ k : ℕ) * 2 ^ (k : ℤ) := by
    rw [zpow_natCast]
    push_cast
    rw [← mul_pow]
    norm_num
  rw [hsplit] at h ⊢
  exact toRat_of_bits hfive ((by decide : minExponent ≤ 0).trans (Int.natCast_nonneg k)) h

theorem exists_nearest? (hv : 0 ≤ v) (hlt : v < 2 ^ (1023 : ℤ)) : ∃ x, nearest? v = some x := by
  rcases hv.eq_or_lt with rfl | hv
  · exact ⟨zero, nearest?_zero⟩
  refine ⟨_, (nearest?_eq_some_iff hv).mpr ⟨rfl, ?_⟩⟩
  have hlog := (lt_zpow_iff hv).mp hlt
  have hcarry : (carried (halfEven (v / 2 ^ lastPlace v)).toNat (lastPlace v)).exponent ≤
      lastPlace v + 1 := by
    unfold carried
    split <;> simp
  have hlast : lastPlace v < maxExponent := by
    rw [lastPlace, minExponent, maxExponent]
    omega
  omega

/-! ### Numbers near a double -/

theorem halfEven_of_abs_lt {unit w : ℚ} {m : ℕ} (hunit : 0 < unit)
    (h : |w - m * unit| < unit / 2) : halfEven (w / unit) = m := by
  have hscale : w / unit - m = (w - m * unit) / unit := by
    field_simp
  have habs : |w / unit - (m : ℤ)| < 1 / 2 := by
    rw [Int.cast_natCast, hscale, abs_div, abs_of_pos hunit, div_lt_iff₀ hunit]
    linarith
  rw [Decimal.halfEven_eq_iff]
  exact ⟨habs.le, fun htie => absurd htie habs.ne⟩

/-- A number whose last place is the double's own. -/
theorem nearest?_of_lastPlace {w : ℚ} (hw : 0 < w) (hx : x.Canonical)
    (hlast : lastPlace w = x.exponent) (hnear : |w - x.toRat| < 2 ^ x.exponent / 2) :
    nearest? w = some x := by
  have hround := halfEven_of_abs_lt (zpow_pos two_pos _) hnear
  rw [nearest?_eq_some_iff hw, hlast, hround, Int.toNat_natCast, carried, if_neg]
  · exact ⟨rfl, hx.le_maxExponent⟩
  · exact hx.significand_lt.ne

/-- A number below a double that is a power of two: its last place is the one before, and rounding
carries. -/
theorem nearest?_of_carry {w : ℚ} (hw : 0 < w) (hx : x.Canonical) (hpower : x.significand = 2 ^ 52)
    (hlast : lastPlace w = x.exponent - 1) (hnear : |w - x.toRat| < 2 ^ x.exponent / 4) :
    nearest? w = some x := by
  have hhalf : (2 : ℚ) ^ (x.exponent - 1) = 2 ^ x.exponent / 2 := by
    rw [zpow_sub₀ two_ne_zero, zpow_one]
  have hcarry : x.toRat = (2 ^ 53 : ℕ) * 2 ^ (x.exponent - 1) := by
    rw [toRat, hpower, hhalf]
    push_cast
    ring
  have hround : halfEven (w / 2 ^ (x.exponent - 1)) = (2 ^ 53 : ℕ) := by
    refine halfEven_of_abs_lt (zpow_pos two_pos _) ?_
    rw [← hcarry, hhalf]
    linarith
  rw [nearest?_eq_some_iff hw, hlast, hround, Int.toNat_natCast, carried,
    if_pos (by norm_num [precision])]
  refine ⟨?_, hx.le_maxExponent⟩
  rw [sub_add_cancel, show Nat.pow 2 (precision - 1) = x.significand from hpower.symm]

theorem pos_of_abs_lt {w : ℚ} (hpos : 0 < x.significand)
    (hnear : |w - x.toRat| < 2 ^ x.exponent / 4) : 0 < w := by
  have hunit : (0 : ℚ) < 2 ^ x.exponent := zpow_pos two_pos _
  have hone : (1 : ℚ) ≤ x.significand := by exact_mod_cast hpos
  have hlow := (abs_lt.mp hnear).1
  rw [toRat] at hlow
  linarith [mul_le_mul_of_nonneg_right hone hunit.le]

theorem lastPlace_le_of_abs_lt {w : ℚ} (hw : 0 < w) (hx : x.Canonical)
    (hnear : |w - x.toRat| < 2 ^ x.exponent / 4) : lastPlace w ≤ x.exponent := by
  have hunit : (0 : ℚ) < 2 ^ x.exponent := zpow_pos two_pos _
  have htop : (x.significand : ℚ) ≤ 2 ^ 53 - 1 := by
    rw [le_sub_iff_add_le]
    exact_mod_cast hx.significand_lt
  have hhigh := (abs_lt.mp hnear).2
  have hbelow : w < 2 ^ (x.exponent + 53) := by
    rw [toRat] at hhigh
    rw [zpow_add₀ two_ne_zero]
    norm_num
    linarith [mul_le_mul_of_nonneg_right htop hunit.le]
  have hlog := (lt_zpow_iff hw).mp hbelow
  have hmin := hx.minExponent_le
  rw [lastPlace]
  omega

/-- Only a double that is a power of two is near to a number with one bit less. -/
theorem significand_of_lastPlace_lt {w : ℚ} (hw : 0 < w) (hx : x.Canonical)
    (hlt : lastPlace w < x.exponent) (hnear : |w - x.toRat| < 2 ^ x.exponent / 4) :
    x.significand = 2 ^ 52 := by
  have hunit : (0 : ℚ) < 2 ^ x.exponent := zpow_pos two_pos _
  have hfull := hx.full ((le_max_right _ _).trans_lt hlt)
  have hlow := (abs_lt.mp hnear).1
  by_contra hne
  have hmore : (2 ^ 52 + 1 : ℚ) ≤ x.significand := by
    exact_mod_cast (by omega : 2 ^ 52 + 1 ≤ x.significand)
  have hunder : w < 2 ^ (x.exponent + 52) := by
    rw [lt_zpow_iff hw]
    rw [lastPlace] at hlt
    omega
  rw [toRat] at hlow
  rw [zpow_add₀ two_ne_zero] at hunder
  norm_num at hunder
  linarith [mul_le_mul_of_nonneg_right hmore hunit.le]

/-- That number has no more than one bit less. -/
theorem lastPlace_of_lt {w : ℚ} (hw : 0 < w) (hpower : x.significand = 2 ^ 52)
    (hlt : lastPlace w < x.exponent) (hnear : |w - x.toRat| < 2 ^ x.exponent / 4) :
    lastPlace w = x.exponent - 1 := by
  have hunit : (0 : ℚ) < 2 ^ x.exponent := zpow_pos two_pos _
  have hlow := (abs_lt.mp hnear).1
  have habove : (2 : ℚ) ^ (x.exponent + 51) ≤ w := by
    rw [toRat, hpower] at hlow
    rw [zpow_add₀ two_ne_zero]
    norm_num at hlow ⊢
    linarith
  have hlog := (zpow_le_iff hw).mp habove
  rw [lastPlace] at hlt ⊢
  omega

/-- Numbers that are near enough to a double are rounded to it. Below a power of two the doubles
are only half as far from each other. -/
theorem nearest?_of_abs_lt {w : ℚ} (hx : x.Canonical) (hpos : 0 < x.significand)
    (hnear : |w - x.toRat| < 2 ^ x.exponent / 4) : nearest? w = some x := by
  have hw : 0 < w := pos_of_abs_lt hpos hnear
  rcases (lastPlace_le_of_abs_lt hw hx hnear).eq_or_lt with hlast | hlt
  · have hunit : (0 : ℚ) < 2 ^ x.exponent := zpow_pos two_pos _
    exact nearest?_of_lastPlace hw hx hlast (hnear.trans (by linarith))
  · have hpower := significand_of_lastPlace_lt hw hx hlt hnear
    exact nearest?_of_carry hw hx hpower (lastPlace_of_lt hw hpower hlt hnear) hnear

/-! ### Arithmetic -/

theorem toRat_pos (hpos : 0 < x.significand) : 0 < x.toRat :=
  mul_pos (by exact_mod_cast hpos) (zpow_pos two_pos _)

theorem toRatio_fst_pos (hpos : 0 < x.significand) : 0 < x.toRatio.1 := by
  have hvalue := toRat_pos hpos
  rw [← toRatio_eq] at hvalue
  by_contra hzero
  rw [Nat.eq_zero_of_not_pos hzero, Nat.cast_zero, zero_div] at hvalue
  exact lt_irrefl _ hvalue

theorem ofNat_eq (n : ℕ) : ofNat n = nearest? n := by
  rw [ofNat, ofRatio_eq_nearest? n Nat.one_pos, Nat.cast_one, div_one]

theorem tenPow_eq (k : ℕ) : tenPow k = nearest? (10 ^ k) := by
  rw [tenPow, ofNat_eq]
  exact congrArg nearest? (Nat.cast_pow 10 k)

/-- The product is the exact one, rounded. -/
theorem mul_eq (x y : Binary64) : x.mul y = nearest? (x.toRat * y.toRat) := by
  change ofRatio (x.toRatio.1 * y.toRatio.1) (x.toRatio.2 * y.toRatio.2) = _
  rw [ofRatio_eq_nearest? _ (Nat.mul_pos x.toRatio_pos y.toRatio_pos), ← toRatio_eq x,
    ← toRatio_eq y, div_mul_div_comm, Nat.cast_mul, Nat.cast_mul]

/-- The quotient is the exact one, rounded. -/
theorem div_eq {y : Binary64} (hy : 0 < y.significand) :
    x.div y = nearest? (x.toRat / y.toRat) := by
  change ofRatio (x.toRatio.1 * y.toRatio.2) (x.toRatio.2 * y.toRatio.1) = _
  rw [ofRatio_eq_nearest? _ (Nat.mul_pos x.toRatio_pos (toRatio_fst_pos hy)),
    ← toRatio_eq x, ← toRatio_eq y, div_div_div_eq, Nat.cast_mul, Nat.cast_mul]

/-! ### Relative error -/

/-- The two numbers differ by no more than the factor, whichever is larger. -/
structure Within (r v w : ℚ) : Prop where
  upper : w ≤ r * v
  lower : v ≤ r * w

variable {r q w : ℚ}

theorem Within.trans {u : ℚ} (h : Within r v w) (h' : Within q w u) (hr : 0 ≤ r) (hq : 0 ≤ q) :
    Within (r * q) v u := by
  constructor
  · calc u ≤ q * w := h'.upper
      _ ≤ q * (r * v) := mul_le_mul_of_nonneg_left h.upper hq
      _ = r * q * v := by ring
  · calc v ≤ r * w := h.lower
      _ ≤ r * (q * u) := mul_le_mul_of_nonneg_left h'.lower hr
      _ = r * q * u := by ring

theorem Within.mono (h : Within r v w) (hle : r ≤ q) (hv : 0 ≤ v) (hw : 0 ≤ w) : Within q v w :=
  ⟨h.upper.trans (mul_le_mul_of_nonneg_right hle hv),
    h.lower.trans (mul_le_mul_of_nonneg_right hle hw)⟩

theorem Within.abs_sub_le {c : ℚ} (h : Within (1 + c) v w) (hc : 0 ≤ c) (hv : 0 ≤ v) :
    |w - v| ≤ c * v := by
  have hupper := h.upper
  rw [abs_le]
  constructor
  · -- the factor takes at least as much off the larger number
    by_contra hlt
    have hsmall : w < (1 - c) * v := by linarith
    have hlower : v < (1 + c) * ((1 - c) * v) :=
      h.lower.trans_lt (mul_lt_mul_of_pos_left hsmall (by linarith))
    nlinarith [mul_nonneg (mul_nonneg hc hc) hv]
  · linarith

theorem Within.mul {v' w' : ℚ} (h : Within r v w) (h' : Within q v' w') (hv : 0 ≤ v) (hw : 0 ≤ w)
    (hv' : 0 ≤ v') (hw' : 0 ≤ w') : Within (r * q) (v * v') (w * w') := by
  constructor
  · calc w * w' ≤ (r * v) * (q * v') := mul_le_mul h.upper h'.upper hw' (hw.trans h.upper)
      _ = r * q * (v * v') := by ring
  · calc v * v' ≤ (r * w) * (q * w') := mul_le_mul h.lower h'.lower hv' (hv.trans h.lower)
      _ = r * q * (w * w') := by ring

theorem Within.inv (h : Within r v w) (hv : 0 < v) (hw : 0 < w) : Within r v⁻¹ w⁻¹ := by
  constructor
  · rw [← div_eq_mul_inv, inv_eq_one_div, div_le_div_iff₀ hw hv, one_mul]
    exact h.lower
  · rw [← div_eq_mul_inv, inv_eq_one_div, div_le_div_iff₀ hv hw, one_mul]
    exact h.upper

theorem Within.div {v' w' : ℚ} (h : Within r v w) (h' : Within q v' w') (hv : 0 ≤ v) (hw : 0 ≤ w)
    (hv' : 0 < v') (hw' : 0 < w') : Within (r * q) (v / v') (w / w') := by
  rw [div_eq_mul_inv, div_eq_mul_inv]
  exact h.mul (h'.inv hv' hw') hv hw (inv_nonneg.mpr hv'.le) (inv_nonneg.mpr hw'.le)

/-- How far rounding to a double can take a number. -/
def roundingFactor : ℚ := 2 ^ 53 / (2 ^ 53 - 1)

theorem within_of_abs_sub_le (h : |w - v| ≤ 2 ^ (-53 : ℤ) * v) (hv : 0 ≤ v) :
    Within roundingFactor v w := by
  rw [zpow_neg] at h
  norm_num at h
  obtain ⟨hlow, hhigh⟩ := abs_le.mp h
  constructor <;> norm_num [roundingFactor] <;> linarith

theorem within_of_nearest? (hv : 2 ^ (-1022 : ℤ) ≤ v) (h : nearest? v = some x) :
    Within roundingFactor v x.toRat :=
  within_of_abs_sub_le (abs_toRat_sub_le_mul hv h) ((zpow_pos two_pos _).le.trans hv)

/-- The numbers that are neither too large nor too small for full precision. -/
def InRange (v : ℚ) : Prop := 2 ^ (-1022 : ℤ) ≤ v ∧ v < 2 ^ (1023 : ℤ)

theorem InRange.pos (h : InRange v) : 0 < v := (zpow_pos two_pos _).trans_le h.1

/-- A number in range is rounded to a double with a full significand. -/
theorem InRange.exists_nearest? (h : InRange v) :
    ∃ x, nearest? v = some x ∧ x.Canonical ∧ 2 ^ 52 ≤ x.significand ∧
      Within roundingFactor v x.toRat := by
  obtain ⟨x, hx⟩ := Binary64.exists_nearest? h.pos.le h.2
  exact ⟨x, hx, canonical_of_nearest? h.pos.le hx, full_of_nearest? h.1 hx,
    within_of_nearest? h.1 hx⟩

theorem inRange_of_bounds (hlow : 10 ^ (-60 : ℤ) ≤ v) (hhigh : v ≤ 10 ^ (70 : ℤ)) :
    InRange v := by
  constructor
  · calc (2 : ℚ) ^ (-1022 : ℤ) ≤ 2 ^ (-200 : ℤ) := zpow_le_zpow_right₀ one_le_two (by decide)
      _ ≤ 10 ^ (-60 : ℤ) := by norm_num
      _ ≤ v := hlow
  · calc v ≤ 10 ^ (70 : ℤ) := hhigh
      _ < 2 ^ (240 : ℤ) := by norm_num
      _ ≤ 2 ^ (1023 : ℤ) := zpow_le_zpow_right₀ one_le_two (by decide)

end DepositSync.Binary64
