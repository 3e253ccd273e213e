import DepositSync.Json.Numeral
import DepositSync.Proofs.NearestDouble
import DepositSync.Proofs.NumeralReading

/-!
# DepositSync.Proofs.NumeralDouble

Which double a literal is read as.

Only as many digits are kept as a word holds. This loses something only behind eighteen digits
(`parts_spec`), which is much less than what a double loses. The digits that are kept, and the power
of ten, are made doubles and divided or multiplied; each of the three steps rounds once
(`scale?_within`). Where the first two are exact, the double is the one nearest to the literal
(`toBinary64?_eq_nearest?`).
-/

namespace DepositSync.Json.Numeral

open Decimal (ratio maxMantissa)

variable {n : Numeral} {ds : List Char}

/-! ### The digits that a word holds -/

/-- Digits are taken as long as the number they make fits. -/
theorem accumulate_of_le {m : ℕ} (h : Nat.ofDigitChars 10 ds m ≤ maxWhole) :
    accumulate m ds = (Nat.ofDigitChars 10 ds m, []) := by
  induction ds generalizing m with
  | nil => rfl
  | cons c cs ih =>
    have hsplit : Nat.ofDigitChars 10 (c :: cs) m =
        Nat.ofDigitChars 10 cs (m * 10 + (c.toNat - 48)) := by
      rw [Nat.ofDigitChars_cons, mul_comm]
      rfl
    rw [hsplit] at h ⊢
    rw [accumulate]
    simp only [if_pos ((Text.le_ofDigitChars cs _).trans h)]
    exact ih h

/-- The digits that are taken and those that no longer fit. There are such only if many have been
taken. -/
structure Taken (m : ℕ) (ds kept dropped : List Char) : Prop where
  split : ds = kept ++ dropped
  result : accumulate m ds = (Nat.ofDigitChars 10 kept m, dropped)
  many : dropped ≠ [] → 10 ^ 18 ≤ Nat.ofDigitChars 10 kept m

theorem exists_taken (hds : ds.all Char.isDigit = true) (m : ℕ) :
    ∃ kept dropped, Taken m ds kept dropped := by
  induction ds generalizing m with
  | nil => exact ⟨[], [], rfl, rfl, fun h => absurd rfl h⟩
  | cons c cs ih =>
    rw [List.all_cons, Bool.and_eq_true] at hds
    by_cases hfits : m * 10 + (c.toNat - 48) ≤ maxWhole
    · obtain ⟨kept, dropped, hsplit, hresult, hmany⟩ := ih hds.2 (m * 10 + (c.toNat - 48))
      have hcons : Nat.ofDigitChars 10 (c :: kept) m =
          Nat.ofDigitChars 10 kept (m * 10 + (c.toNat - 48)) := by
        rw [Nat.ofDigitChars_cons, mul_comm]
        rfl
      refine ⟨c :: kept, dropped, congrArg (c :: ·) hsplit, ?_, hcons ▸ hmany⟩
      rw [accumulate, if_pos hfits, hcons]
      exact hresult
    · refine ⟨[], c :: cs, rfl, if_neg hfits, fun _ => ?_⟩
      have hdigit := Text.isDigit_bounds hds.1
      have hword : maxWhole = 2 ^ 64 - 1 := by decide
      change 10 ^ 18 ≤ m
      omega

/-- The digits that follow a number add less than one unit to it, in units of their first place. -/
theorem ofDigitChars_bounds (hds : ds.all Char.isDigit = true) (m : ℕ) (k : ℤ) :
    (m : ℚ) * 10 ^ (ds.length + k) ≤ Nat.ofDigitChars 10 ds m * 10 ^ k ∧
      (Nat.ofDigitChars 10 ds m : ℚ) * 10 ^ k < (m + 1) * 10 ^ (ds.length + k) := by
  have hunit : (0 : ℚ) < 10 ^ k := zpow_pos (by norm_num) k
  have hrest : (0 : ℚ) ≤ Nat.ofDigitChars 10 ds 0 := Nat.cast_nonneg _
  have hlt : (Nat.ofDigitChars 10 ds 0 : ℚ) < 10 ^ ds.length := by
    exact_mod_cast Text.ofDigitChars_lt hds
  rw [zpow_add₀ (by norm_num), zpow_natCast, ← mul_assoc, ← mul_assoc,
    Nat.ofDigitChars_eq_ofDigitChars_zero]
  push_cast
  constructor
  · refine mul_le_mul_of_nonneg_right ?_ hunit.le
    linarith
  · refine mul_lt_mul_of_pos_right ?_ hunit
    linarith

/-- How far the digits that are left over can take a number. -/
def truncationFactor : ℚ := 1 + 1 / 10 ^ 18

/-- Two numbers with the same leading digits, which are many. -/
theorem within_of_leading {a : ℕ} {unit v w : ℚ} (ha : 10 ^ 18 ≤ a) (hunit : 0 < unit)
    (hv : a * unit ≤ v ∧ v < (a + 1) * unit) (hw : a * unit ≤ w ∧ w < (a + 1) * unit) :
    Binary64.Within truncationFactor v w := by
  have hmany : (10 : ℚ) ^ 18 * unit ≤ a * unit :=
    mul_le_mul_of_nonneg_right (by exact_mod_cast ha) hunit.le
  constructor <;> rw [truncationFactor] <;> norm_num at hmany ⊢ <;> linarith

theorem within_refl {v : ℚ} (hv : 0 ≤ v) : Binary64.Within truncationFactor v v := by
  constructor <;> rw [truncationFactor] <;> linarith

theorem IsPlain.parts_of_le (hn : n.IsPlain) (h : n.significand ≤ maxWhole) :
    n.parts = (n.significand, -(n.fraction.length : ℤ)) := by
  rw [significand, Nat.ofDigitChars_append] at h
  rw [significand, Nat.ofDigitChars_append, parts,
    accumulate_of_le ((Text.le_ofDigitChars n.fraction _).trans h)]
  simp only
  rw [accumulate_of_le h]
  simp [exponentValue, hn.exponent_nil]

section Truncation

variable {kept excess kept' dropped : List Char}

theorem IsPlain.parts_of_taken (hn : n.IsPlain) (hwhole : Taken 0 n.whole kept excess)
    (hfraction : Taken (Nat.ofDigitChars 10 kept 0) n.fraction kept' dropped) :
    n.parts = (Nat.ofDigitChars 10 kept' (Nat.ofDigitChars 10 kept 0),
      (excess.length : ℤ) - kept'.length) := by
  simp only [parts, hwhole.result, hfraction.result, exponentValue, hn.exponent_nil,
    Text.digits?_nil]
  rw [hfraction.split, List.length_append]
  simp

theorem significand_of_taken (hwhole : Taken 0 n.whole kept excess) :
    n.significand = Nat.ofDigitChars 10 (excess ++ n.fraction) (Nat.ofDigitChars 10 kept 0) := by
  rw [significand, hwhole.split, List.append_assoc, Nat.ofDigitChars_append]

/-- Digits before the point are left over only behind many others. -/
theorem excess_le (hwhole : Taken 0 n.whole kept excess) (hmax : n.significand ≤ maxMantissa) :
    excess.length ≤ 10 := by
  by_contra hlong
  have hten : (10 : ℕ) ^ 11 ≤ 10 ^ (excess ++ n.fraction).length := by
    refine Nat.pow_le_pow_right (by decide) ?_
    rw [List.length_append]
    omega
  have hmany := hwhole.many (by rintro rfl; simp at hlong)
  have hprod := Nat.mul_le_mul hten hmany
  rw [significand_of_taken hwhole, Nat.ofDigitChars_eq_ofDigitChars_zero,
    Decimal.maxMantissa_eq] at hmax
  omega

/-- All digits before the point fit. -/
theorem IsPlain.within_of_fits (hn : n.IsPlain) (hwhole : Taken 0 n.whole kept [])
    (hfraction : Taken (Nat.ofDigitChars 10 kept 0) n.fraction kept' dropped) :
    Binary64.Within truncationFactor n.magnitude
      (Nat.ofDigitChars 10 kept' (Nat.ofDigitChars 10 kept 0) * 10 ^ (-(kept'.length : ℤ))) := by
  have hunit : (0 : ℚ) < 10 ^ (-(kept'.length : ℤ)) := zpow_pos (by norm_num) _
  have hdropped : dropped.all Char.isDigit = true := by
    have hall := hn.fraction_digits
    rw [hfraction.split, List.all_append, Bool.and_eq_true] at hall
    exact hall.2
  have hsignificand : n.significand = Nat.ofDigitChars 10 dropped
      (Nat.ofDigitChars 10 kept' (Nat.ofDigitChars 10 kept 0)) := by
    rw [significand_of_taken hwhole, List.nil_append, hfraction.split, Nat.ofDigitChars_append]
  have hplaces : (dropped.length : ℤ) + -(n.fraction.length : ℤ) = -(kept'.length : ℤ) := by
    rw [hfraction.split, List.length_append]
    omega
  have hv := ofDigitChars_bounds hdropped (Nat.ofDigitChars 10 kept' (Nat.ofDigitChars 10 kept 0))
    (-(n.fraction.length : ℤ))
  rw [hplaces, ← hsignificand] at hv
  rw [magnitude_eq]
  rcases eq_or_ne dropped [] with rfl | hne
  · have hexact : n.significand = Nat.ofDigitChars 10 kept' (Nat.ofDigitChars 10 kept 0) :=
      hsignificand
    rw [hexact, ← hplaces, List.length_nil, Nat.cast_zero, zero_add]
    exact within_refl (mul_nonneg (Nat.cast_nonneg _) (zpow_nonneg (by norm_num) _))
  · refine within_of_leading (hfraction.many hne) hunit hv ⟨le_rfl, ?_⟩
    linarith

/-- Some digits before the point do not fit. -/
theorem IsPlain.within_of_excess (hn : n.IsPlain) (hwhole : Taken 0 n.whole kept excess)
    (hfraction : Taken (Nat.ofDigitChars 10 kept 0) n.fraction kept' dropped)
    (hexcess : excess ≠ []) :
    Binary64.Within truncationFactor n.magnitude
      (Nat.ofDigitChars 10 kept' (Nat.ofDigitChars 10 kept 0) *
        10 ^ ((excess.length : ℤ) - kept'.length)) := by
  have hall := hn.whole_digits
  rw [hwhole.split, List.all_append, Bool.and_eq_true] at hall
  have hall' := hn.fraction_digits
  rw [hfraction.split, List.all_append, Bool.and_eq_true] at hall'
  have hdigits : (excess ++ n.fraction).all Char.isDigit = true := by
    rw [List.all_append, hall.2, hn.fraction_digits]
    rfl
  have hv := ofDigitChars_bounds hdigits (Nat.ofDigitChars 10 kept 0) (-(n.fraction.length : ℤ))
  have hw := ofDigitChars_bounds hall'.1 (Nat.ofDigitChars 10 kept 0)
    (excess.length - kept'.length)
  rw [List.length_append, Nat.cast_add, add_neg_cancel_right, ← significand_of_taken hwhole] at hv
  rw [add_sub_cancel] at hw
  rw [magnitude_eq]
  exact within_of_leading (hwhole.many hexcess) (zpow_pos (by norm_num) _) hv hw

end Truncation

/-- The digits and the power of ten that a number is read by. -/
theorem IsPlain.parts_spec (hn : n.IsPlain) (hmax : n.significand ≤ maxMantissa) :
    ∃ m e, n.parts = (m, e) ∧ -(n.fraction.length : ℤ) ≤ e ∧ e ≤ 10 ∧
      Binary64.Within truncationFactor n.magnitude (m * 10 ^ e) := by
  obtain ⟨kept, excess, hwhole⟩ := exists_taken hn.whole_digits 0
  obtain ⟨kept', dropped, hfraction⟩ :=
    exists_taken hn.fraction_digits (Nat.ofDigitChars 10 kept 0)
  have hshort := excess_le hwhole hmax
  have hlength := congrArg List.length hfraction.split
  rw [List.length_append] at hlength
  refine ⟨_, _, hn.parts_of_taken hwhole hfraction, by omega, by omega, ?_⟩
  rcases eq_or_ne excess [] with rfl | hexcess
  · simpa using hn.within_of_fits hwhole hfraction
  · exact hn.within_of_excess hwhole hfraction hexcess

/-! ### The double -/

open Binary64 (Within roundingFactor nearest?)

theorem roundingFactor_sq_le : roundingFactor * roundingFactor ≤ 2 := by
  norm_num [roundingFactor]

theorem roundingFactor_pos : 0 < roundingFactor := by
  norm_num [roundingFactor]

theorem inRange_natCast {m : ℕ} (hm : 0 < m) (hlarge : m ≤ 10 ^ 58) : Binary64.InRange (m : ℚ) := by
  have hone : (1 : ℚ) ≤ m := by exact_mod_cast hm
  have hle : (m : ℚ) ≤ 10 ^ 58 := by exact_mod_cast hlarge
  refine Binary64.inRange_of_bounds (le_trans ?_ hone) (hle.trans ?_)
  · norm_num
  · norm_num

theorem inRange_of_within {v w : ℚ} (h : Within (roundingFactor * roundingFactor) v w)
    (hw : 0 ≤ w) (hv : 0 ≤ v) (hlow : 10 ^ (-28 : ℤ) ≤ v) (hhigh : v ≤ 10 ^ (68 : ℤ)) :
    Binary64.InRange w := by
  have hupper : w ≤ 2 * v := h.upper.trans (mul_le_mul_of_nonneg_right roundingFactor_sq_le hv)
  have hlower : v ≤ 2 * w := h.lower.trans (mul_le_mul_of_nonneg_right roundingFactor_sq_le hw)
  apply Binary64.inRange_of_bounds
  · norm_num at hlow ⊢
    linarith
  · norm_num at hhigh ⊢
    linarith

/-- Places divide by a power of ten. Where there are none, the significand is multiplied by one. -/
theorem scale?_places {m k : ℕ} {f t : Binary64} (hk : k ≤ 28) (hf : nearest? m = some f)
    (ht : nearest? (10 ^ k) = some t) (hpos : 0 < t.significand) :
    scale? m (-(k : ℤ)) = nearest? (f.toRat / t.toRat) := by
  have hstep : (k : ℤ) ≤ maxStep := by
    rw [maxStep]
    omega
  rcases k.eq_zero_or_pos with rfl | hk
  · have hone : t.toRat = 1 := by simpa using Binary64.toRat_of_tenPow (Nat.zero_le 22) ht
    rw [pow_zero] at ht
    simp [scale?, maxStep, Binary64.ofNat_eq, hf, Binary64.tenPow_eq, ht, Binary64.mul_eq, hone]
  · simp [scale?, Binary64.ofNat_eq, hf, hk.ne', hstep, Binary64.tenPow_eq, ht,
      Binary64.div_eq hpos]

/-- Digits that are left over before the point multiply by a power of ten. -/
theorem scale?_excess {m k : ℕ} {f t : Binary64} (hk : k ≤ 28) (hf : nearest? m = some f)
    (ht : nearest? (10 ^ k) = some t) : scale? m k = nearest? (f.toRat * t.toRat) := by
  have hstep : (k : ℤ) ≤ maxStep := by
    rw [maxStep]
    omega
  simp [scale?, Binary64.ofNat_eq, hf, hstep, Binary64.tenPow_eq, ht, Binary64.mul_eq]

theorem exists_tenPow {k : ℕ} (hk : k ≤ 28) :
    ∃ t, nearest? (10 ^ k) = some t ∧ 0 < t.significand ∧
      Within roundingFactor (10 ^ k) t.toRat := by
  have hrange : Binary64.InRange ((10 : ℚ) ^ k) := by
    have hone : (1 : ℚ) ≤ 10 ^ k := one_le_pow₀ (by norm_num)
    have hle : (10 : ℚ) ^ k ≤ 10 ^ 28 := pow_le_pow_right₀ (by norm_num) hk
    refine Binary64.inRange_of_bounds (le_trans ?_ hone) (hle.trans ?_)
    · norm_num
    · norm_num
  obtain ⟨t, ht, -, hfull, hnear⟩ := hrange.exists_nearest?
  exact ⟨t, ht, by omega, hnear⟩

/-- What a power of ten is applied to is rounded once more, from the product or the quotient of two
doubles. -/
theorem exists_scaled {m : ℕ} {e : ℤ} (hm : 0 < m) (hlarge : m ≤ 10 ^ 58) (he : -28 ≤ e)
    (he' : e ≤ 10) :
    ∃ w, scale? m e = nearest? w ∧ 0 ≤ w ∧
      Within (roundingFactor * roundingFactor) (m * 10 ^ e) w := by
  have hm' : (0 : ℚ) < m := by exact_mod_cast hm
  have hten : (0 : ℚ) < 10 ^ e := zpow_pos (by norm_num) e
  obtain ⟨f, hf, -, -, hfnear⟩ := (inRange_natCast hm hlarge).exists_nearest?
  rcases le_or_gt 0 e with hpos | hneg
  · obtain ⟨k, rfl⟩ := Int.eq_ofNat_of_zero_le hpos
    obtain ⟨t, ht, -, htnear⟩ := exists_tenPow (k := k) (by omega)
    rw [zpow_natCast] at hten ⊢
    exact ⟨_, scale?_excess (by omega) hf ht, mul_nonneg f.toRat_nonneg t.toRat_nonneg,
      hfnear.mul htnear hm'.le f.toRat_nonneg hten.le t.toRat_nonneg⟩
  · obtain ⟨k, hk⟩ := Int.eq_ofNat_of_zero_le (show 0 ≤ -e by omega)
    obtain rfl : e = -(k : ℤ) := by omega
    obtain ⟨t, ht, htpos, htnear⟩ := exists_tenPow (k := k) (by omega)
    rw [zpow_neg, zpow_natCast, ← div_eq_mul_inv]
    exact ⟨_, scale?_places (by omega) hf ht htpos, div_nonneg f.toRat_nonneg t.toRat_nonneg,
      hfnear.div htnear hm'.le f.toRat_nonneg (by positivity) (Binary64.toRat_pos htpos)⟩

theorem scaled_bounds {m : ℕ} {e : ℤ} (hm : 0 < m) (hlarge : m ≤ 10 ^ 58) (he : -28 ≤ e)
    (he' : e ≤ 10) :
    (10 : ℚ) ^ (-28 : ℤ) ≤ m * 10 ^ e ∧ (m : ℚ) * 10 ^ e ≤ 10 ^ (68 : ℤ) := by
  have hone : (1 : ℚ) ≤ m := by exact_mod_cast hm
  have hle : (m : ℚ) ≤ 10 ^ 58 := by exact_mod_cast hlarge
  have hten : (0 : ℚ) < 10 ^ e := zpow_pos (by norm_num) e
  constructor
  · calc (10 : ℚ) ^ (-28 : ℤ) ≤ 1 * 10 ^ e := by
          rw [one_mul]
          exact zpow_le_zpow_right₀ (by norm_num) he
      _ ≤ m * 10 ^ e := mul_le_mul_of_nonneg_right hone hten.le
  · calc (m : ℚ) * 10 ^ e ≤ 10 ^ 58 * 10 ^ (10 : ℤ) :=
          mul_le_mul hle (zpow_le_zpow_right₀ (by norm_num) he') hten.le (by norm_num)
      _ = 10 ^ (68 : ℤ) := by norm_num

theorem scale?_within {m : ℕ} {e : ℤ} (hm : 0 < m) (hlarge : m ≤ 10 ^ 58)
    (he : -28 ≤ e) (he' : e ≤ 10) :
    ∃ x, scale? m e = some x ∧ x.Canonical ∧ 2 ^ 52 ≤ x.significand ∧
      Within (roundingFactor * roundingFactor * roundingFactor) (m * 10 ^ e) x.toRat := by
  obtain ⟨w, hscale, hw, hwithin⟩ := exists_scaled hm hlarge he he'
  obtain ⟨hlow, hhigh⟩ := scaled_bounds hm hlarge he he'
  have hv : (0 : ℚ) ≤ m * 10 ^ e := mul_nonneg (Nat.cast_nonneg m) (zpow_nonneg (by norm_num) e)
  obtain ⟨x, hx, hcanonical, hfull, hnear⟩ :=
    (inRange_of_within hwithin hw hv hlow hhigh).exists_nearest?
  have hfactor := roundingFactor_pos
  exact ⟨x, hscale.trans hx, hcanonical, hfull, hwithin.trans hnear (by positivity) hfactor.le⟩

/-- How far the double that is read can be from the number. -/
def readingFactor : ℚ := truncationFactor * (roundingFactor * roundingFactor * roundingFactor)

/-- Any literal that is not zero, and not too large for an amount, is read as a double near it. -/
theorem IsPlain.toBinary64?_within (hn : n.IsPlain) (hpos : 0 < n.significand)
    (hmax : n.significand ≤ maxMantissa) (hplaces : n.fraction.length ≤ 28) :
    ∃ x, n.toBinary64? = some x ∧ x.Canonical ∧ 2 ^ 52 ≤ x.significand ∧
      Within readingFactor n.magnitude x.toRat := by
  obtain ⟨m, e, hparts, hlow, hhigh, hnear⟩ := hn.parts_spec hmax
  have hten : (0 : ℚ) < 10 ^ e := zpow_pos (by norm_num) e
  have hmagnitude : 0 < n.magnitude := by
    rw [magnitude_eq]
    exact mul_pos (by exact_mod_cast hpos) (zpow_pos (by norm_num) _)
  have hm : 0 < m := by
    by_contra hzero
    have hle := hnear.lower
    rw [Nat.eq_zero_of_not_pos hzero, Nat.cast_zero, zero_mul, mul_zero] at hle
    linarith
  have hlarge : m ≤ 10 ^ 58 := by
    have hunit : (10 : ℚ) ^ (-28 : ℤ) ≤ 10 ^ e := zpow_le_zpow_right₀ (by norm_num) (by omega)
    have hle : (m : ℚ) * 10 ^ (-28 : ℤ) ≤ truncationFactor * maxMantissa :=
      calc (m : ℚ) * 10 ^ (-28 : ℤ) ≤ m * 10 ^ e :=
            mul_le_mul_of_nonneg_left hunit (Nat.cast_nonneg m)
        _ ≤ truncationFactor * n.magnitude := hnear.upper
        _ ≤ truncationFactor * maxMantissa :=
            mul_le_mul_of_nonneg_left (n.magnitude_le_significand.trans (by exact_mod_cast hmax))
              (by norm_num [truncationFactor])
    rw [Decimal.maxMantissa_eq] at hle
    norm_num [truncationFactor] at hle
    have hle' : (m : ℚ) ≤ 10 ^ 58 := by linarith
    exact_mod_cast hle'
  obtain ⟨x, hx, hcanonical, hfull, hwithin⟩ := scale?_within hm hlarge (by omega) hhigh
  refine ⟨x, ?_, hcanonical, hfull, ?_⟩
  · rw [toBinary64?, hparts]
    exact hx
  · have hfactor := roundingFactor_pos
    exact hnear.trans hwithin (by norm_num [truncationFactor]) (by positivity)

/-- A literal with few digits and places is read as the double nearest to it: the digits and the
power of ten are doubles themselves. -/
theorem IsPlain.toBinary64?_eq_nearest? (hn : n.IsPlain) (hfew : n.significand < 10 ^ 15)
    (hplaces : n.fraction.length ≤ 22) : n.toBinary64? = nearest? n.magnitude := by
  have hlt : n.significand < 2 ^ 53 := hfew.trans (by decide)
  have hsmall : (n.significand : ℚ) < 2 ^ (1023 : ℤ) := by
    calc (n.significand : ℚ) < 2 ^ (53 : ℤ) := by exact_mod_cast hlt
      _ ≤ 2 ^ (1023 : ℤ) := zpow_le_zpow_right₀ one_le_two (by decide)
  obtain ⟨f, hf⟩ := Binary64.exists_nearest? (Nat.cast_nonneg _) hsmall
  obtain ⟨t, ht, htpos, -⟩ := exists_tenPow (k := n.fraction.length) (by omega)
  rw [toBinary64?, hn.parts_of_le (hfew.le.trans (by decide))]
  simp only
  rw [scale?_places (by omega) hf ht htpos, Binary64.toRat_of_lt hlt hf,
    Binary64.toRat_of_tenPow hplaces ht, magnitude, ratio]

theorem IsPlain.toBinary64?_of_zero (hn : n.IsPlain) (hzero : n.significand = 0)
    (hplaces : n.fraction.length ≤ 28) : n.toBinary64? = some Binary64.zero := by
  obtain ⟨t, ht, htpos, -⟩ := exists_tenPow hplaces
  have hf : nearest? ((0 : ℕ) : ℚ) = some Binary64.zero := by
    rw [Nat.cast_zero, Binary64.nearest?_zero]
  rw [toBinary64?, hn.parts_of_le (hzero.le.trans (Nat.zero_le _)), hzero]
  simp only
  rw [scale?_places hplaces hf ht htpos, Binary64.toRat_zero, zero_div, Binary64.nearest?_zero]

end DepositSync.Json.Numeral
