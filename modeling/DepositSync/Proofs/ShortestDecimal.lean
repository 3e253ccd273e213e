import DepositSync.Binary64.Shortest
import DepositSync.Proofs.Digits
import DepositSync.Proofs.NearestDouble

/-!
# DepositSync.Proofs.ShortestDecimal

The decimal that is written for a double reads back as the double (`nearest?_shortest`), and a
number with at most fifteen digits is what is written for the double it is rounded to
(`shortest_of_reads`).

The search looks at one grid after another, each ten times finer than the one before. On each grid it
looks at the two neighbours of the double only. That is enough where a number of the grid is less
than one step away from the double (`exists_onGrid?`): the finest grid is so fine that this is so in
any case. A number of fifteen digits is on a grid whose steps are wider than those of the doubles, and so
are the coarser ones. There no two numbers are rounded to the same double (`eq_of_onGrid`), and the
search cannot stop at another number before it comes to this one.
-/

namespace DepositSync

/-! ### Decimals as numbers -/

namespace ShortDecimal

/-- The decimal as a number. -/
def toRat (s : ShortDecimal) : ℚ := s.digits * 10 ^ s.exponent

variable {s : ShortDecimal}

theorem toRatio_pos (s : ShortDecimal) : 0 < s.toRatio.2 := by
  unfold toRatio
  split
  · exact Nat.one_pos
  · exact Nat.pow_pos (by decide)

theorem toRatio_eq (s : ShortDecimal) : (s.toRatio.1 : ℚ) / s.toRatio.2 = s.toRat := by
  unfold toRatio toRat
  split
  · next h =>
    obtain ⟨k, hk⟩ := Int.eq_ofNat_of_zero_le h
    simp [hk]
  · next h =>
    obtain ⟨k, hk⟩ := Int.eq_ofNat_of_zero_le (show 0 ≤ -s.exponent by omega)
    have he : s.exponent = -(k : ℤ) := by omega
    simp [he, div_eq_mul_inv]

theorem toRat_nonneg (s : ShortDecimal) : 0 ≤ s.toRat :=
  mul_nonneg (Nat.cast_nonneg _) (zpow_nonneg (by norm_num) _)

theorem toRat_strip_go (steps ds : ℕ) (e : ℤ) :
    (strip.go steps ds e).toRat = (⟨ds, e⟩ : ShortDecimal).toRat ∧
      (strip.go steps ds e).digits ≤ ds := by
  induction steps generalizing ds e with
  | zero => exact ⟨rfl, le_rfl⟩
  | succ steps ih =>
    unfold strip.go
    split
    · next h =>
      obtain ⟨hvalue, hle⟩ := ih (ds / 10) (e + 1)
      refine ⟨?_, hle.trans (Nat.div_le_self _ _)⟩
      rw [hvalue, toRat, toRat, zpow_add₀ (by norm_num), zpow_one]
      have hten : (ds : ℚ) = 10 * (ds / 10 : ℕ) := by
        exact_mod_cast (Nat.mul_div_cancel' (Nat.dvd_of_mod_eq_zero h.2)).symm
      simp only [hten]
      ring
    · exact ⟨rfl, le_rfl⟩

/-- Trailing zeros are worth nothing. -/
@[simp] theorem toRat_strip (s : ShortDecimal) : s.strip.toRat = s.toRat :=
  (toRat_strip_go 20 s.digits s.exponent).1

theorem digits_strip_le (s : ShortDecimal) : s.strip.digits ≤ s.digits :=
  (toRat_strip_go 20 s.digits s.exponent).2

end ShortDecimal

namespace Binary64

variable {x : Binary64} {n d : ℕ} {e : ℤ} {s : ShortDecimal} {v w : ℚ}

theorem readsBack_iff : x.readsBack s = true ↔ nearest? s.toRat = some x := by
  have hpos := s.toRatio_pos
  have hvalue := s.toRatio_eq
  unfold readsBack
  rw [← hvalue, ← ofRatio_eq_nearest? _ hpos]
  simp

/-! ### One grid -/

/-- The ratio in steps of the grid, as a ratio. -/
def inSteps (n d : ℕ) (e : ℤ) : ℕ × ℕ :=
  if 0 ≤ e then (n, d * Nat.pow 10 e.toNat) else (n * Nat.pow 10 (-e).toNat, d)

/-- The whole steps of the grid up to the ratio. -/
def stepsBelow (n d : ℕ) (e : ℤ) : ℕ := (inSteps n d e).1 / (inSteps n d e).2

theorem inSteps_pos (hd : 0 < d) (e : ℤ) : 0 < (inSteps n d e).2 := by
  unfold inSteps
  split
  · exact Nat.mul_pos hd (Nat.pow_pos (by decide))
  · exact hd

theorem inSteps_eq (n d : ℕ) (e : ℤ) :
    ((inSteps n d e).1 : ℚ) / (inSteps n d e).2 = n / d / 10 ^ e := by
  unfold inSteps
  split
  · next h =>
    obtain ⟨k, rfl⟩ := Int.eq_ofNat_of_zero_le h
    simp [div_div]
  · next h =>
    obtain ⟨k, hk⟩ := Int.eq_ofNat_of_zero_le (show 0 ≤ -e by omega)
    have he : e = -(k : ℤ) := by omega
    simp [he, div_mul_eq_mul_div]

theorem ten_zpow_pos (e : ℤ) : (0 : ℚ) < 10 ^ e := zpow_pos (by norm_num) e

/-- The ratio lies between the two neighbours. -/
theorem stepsBelow_spec (hd : 0 < d) (hv : (n : ℚ) / d = v) (e : ℤ) :
    stepsBelow n d e * 10 ^ e ≤ v ∧ v < (stepsBelow n d e + 1) * 10 ^ e := by
  have hb : (0 : ℚ) < (inSteps n d e).2 := by exact_mod_cast inSteps_pos hd e
  have hsteps : v / 10 ^ e = (inSteps n d e).1 / (inSteps n d e).2 := by
    rw [inSteps_eq, hv]
  rw [← le_div_iff₀ (ten_zpow_pos e), ← div_lt_iff₀ (ten_zpow_pos e), hsteps, le_div_iff₀ hb,
    div_lt_iff₀ hb, stepsBelow]
  constructor
  · exact_mod_cast Nat.div_mul_le_self _ _
  · have hlt := Nat.lt_mul_div_succ (inSteps n d e).1 (inSteps_pos (n := n) hd e)
    rw [mul_comm] at hlt
    exact_mod_cast hlt

theorem roundHalfEven_cases (n d : ℕ) : roundHalfEven n d = n / d ∨ roundHalfEven n d = n / d + 1 := by
  unfold roundHalfEven
  simp only
  split
  · exact .inr rfl
  · exact .inl rfl

theorem onGrid?_eq (x : Binary64) (n d : ℕ) (e : ℤ) :
    x.onGrid? n d e =
      match x.readsBack ⟨stepsBelow n d e, e⟩, x.readsBack ⟨stepsBelow n d e + 1, e⟩ with
      | true, true => some ⟨roundHalfEven (inSteps n d e).1 (inSteps n d e).2, e⟩
      | true, false => some ⟨stepsBelow n d e, e⟩
      | false, true => some ⟨stepsBelow n d e + 1, e⟩
      | false, false => none := rfl

/-- A hit is one of the two neighbours, and reads back. -/
theorem onGrid?_eq_some (h : x.onGrid? n d e = some s) :
    nearest? s.toRat = some x ∧ s.exponent = e ∧
      (s.digits = stepsBelow n d e ∨ s.digits = stepsBelow n d e + 1) := by
  rw [← readsBack_iff]
  rw [onGrid?_eq] at h
  split at h
  · next hlow hhigh =>
    cases h
    rcases roundHalfEven_cases (inSteps n d e).1 (inSteps n d e).2 with hr | hr
    · exact ⟨hr ▸ hlow, rfl, .inl hr⟩
    · exact ⟨hr ▸ hhigh, rfl, .inr hr⟩
  · next hlow _ =>
    cases h
    exact ⟨hlow, rfl, .inl rfl⟩
  · next _ hhigh =>
    cases h
    exact ⟨hhigh, rfl, .inr rfl⟩
  · cases h

/-- A number of the grid that reads back is found if it is less than one step away. -/
theorem exists_onGrid? (hd : 0 < d) (hv : (n : ℚ) / d = v) {k : ℕ}
    (hnear : |k * 10 ^ e - v| < 10 ^ e) (hreads : nearest? (k * 10 ^ e) = some x) :
    ∃ s, x.onGrid? n d e = some s := by
  obtain ⟨hlow, hhigh⟩ := stepsBelow_spec hd hv e
  obtain ⟨hleft, hright⟩ := abs_lt.mp hnear
  have hstep := ten_zpow_pos e
  have hbelow : stepsBelow n d e < k + 1 := by
    have hlt : (stepsBelow n d e : ℚ) < k + 1 := by
      refine lt_of_mul_lt_mul_right ?_ hstep.le
      linarith
    exact_mod_cast hlt
  have habove : k < stepsBelow n d e + 2 := by
    have hlt : (k : ℚ) < stepsBelow n d e + 2 := by
      refine lt_of_mul_lt_mul_right ?_ hstep.le
      linarith
    exact_mod_cast hlt
  have hhit : x.readsBack ⟨k, e⟩ = true := readsBack_iff.mpr hreads
  rw [onGrid?_eq]
  rcases (by omega : k = stepsBelow n d e ∨ k = stepsBelow n d e + 1) with rfl | rfl
  · rw [hhit]
    split <;> simp_all
  · rw [hhit]
    split <;> simp_all

/-! ### The search -/

/-- How large a ratio is, by the digits of its whole part. -/
theorem digits_ratio (hd : 0 < d) (hle : d ≤ n) :
    (10 : ℚ) ^ ((Text.ofNat (n / d)).length - 1) ≤ n / d ∧
      (n : ℚ) / d < 10 ^ (Text.ofNat (n / d)).length := by
  have hd' : (0 : ℚ) < d := by exact_mod_cast hd
  constructor
  · rw [le_div_iff₀ hd']
    exact_mod_cast (Nat.le_div_iff_mul_le hd).mp (Text.ten_pow_length_le (Nat.div_pos hle hd))
  · rw [div_lt_iff₀ hd']
    exact_mod_cast (Nat.div_lt_iff_lt_mul hd).mp (Text.lt_ten_pow_length (n / d))

/-- A power of ten above a positive number, and not far above it. -/
theorem decimalBound_spec (hn : 0 < n) (hd : 0 < d) (hv : (n : ℚ) / d = v) :
    10 ^ (decimalBound n d - 2) ≤ v ∧ v < 10 ^ decimalBound n d := by
  have hn' : (0 : ℚ) < n := by exact_mod_cast hn
  have hd' : (0 : ℚ) < d := by exact_mod_cast hd
  subst hv
  unfold decimalBound
  split
  · next hle =>
    obtain ⟨hlow, hhigh⟩ := digits_ratio hd hle
    have hpos := Text.length_ofNat_pos (n / d)
    refine ⟨le_trans ?_ hlow, by rwa [zpow_natCast]⟩
    rw [← zpow_natCast]
    exact zpow_le_zpow_right₀ (by norm_num) (by omega)
  · next hlt =>
    -- a number below one, by the digits of its inverse
    obtain ⟨hlow, hhigh⟩ := digits_ratio hn (not_le.mp hlt).le
    have hpos := Text.length_ofNat_pos (d / n)
    rw [← inv_div]
    constructor
    · calc (10 : ℚ) ^ (2 - ((Text.ofNat (d / n)).length : ℤ) - 2)
          = (10 ^ (Text.ofNat (d / n)).length)⁻¹ := by
            rw [← zpow_natCast, ← zpow_neg]
            congr 1
            ring
        _ ≤ (d / n : ℚ)⁻¹ := inv_anti₀ (div_pos hd' hn') hhigh.le
    · calc (d / n : ℚ)⁻¹ ≤ (10 ^ ((Text.ofNat (d / n)).length - 1))⁻¹ :=
            inv_anti₀ (by positivity) hlow
        _ = 10 ^ (1 - ((Text.ofNat (d / n)).length : ℤ)) := by
            rw [← zpow_natCast, ← zpow_neg]
            congr 1
            omega
        _ < 10 ^ (2 - ((Text.ofNat (d / n)).length : ℤ)) :=
            zpow_lt_zpow_right₀ (by norm_num) (by omega)

theorem findSome?_range_eq_some {α : Type} {f : ℕ → Option α} {a : α} {m : ℕ}
    (h : (List.range m).findSome? f = some a) :
    ∃ p, p < m ∧ f p = some a ∧ ∀ q, q < p → f q = none := by
  induction m with
  | zero => cases h
  | succ m ih =>
    rw [List.range_succ, List.findSome?_append, Option.or_eq_some_iff] at h
    rcases h with h | ⟨hnone, hlast⟩
    · obtain ⟨p, hp, hhit, hfirst⟩ := ih h
      exact ⟨p, hp.trans (Nat.lt_succ_self m), hhit, hfirst⟩
    · rw [List.findSome?_eq_none_iff] at hnone
      refine ⟨m, Nat.lt_succ_self m, ?_, fun q hq => hnone q (List.mem_range.mpr hq)⟩
      simpa using hlast

/-- The grid the search looks at when it is at `p`. -/
def grid (x : Binary64) (p : ℕ) : ℤ := decimalBound x.toRatio.1 x.toRatio.2 - (p + 1 : ℕ)

/-- What the search looks for at `p`. -/
def hit? (x : Binary64) (p : ℕ) : Option ShortDecimal :=
  x.onGrid? x.toRatio.1 x.toRatio.2 (x.grid p)

theorem shortest_eq (hpos : 0 < x.significand) :
    x.shortest = (((List.range 20).findSome? x.hit?).getD ⟨0, 0⟩).strip := by
  have hzero : x.isZero = false := by
    simp [isZero, hpos.ne']
  unfold shortest
  rw [hzero]
  rfl

theorem grid_eq (x : Binary64) (p : ℕ) : x.grid p = x.grid 0 - p := by
  simp only [grid]
  omega

/-- The first grid is as coarse as the double is large. -/
theorem grid_zero_bounds (hpos : 0 < x.significand) :
    10 ^ (x.grid 0 - 1) ≤ x.toRat ∧ x.toRat < 10 ^ (x.grid 0 + 1) := by
  have hbound := decimalBound_spec (toRatio_fst_pos hpos) x.toRatio_pos x.toRatio_eq
  simp only [grid]
  convert hbound using 3 <;> push_cast <;> ring

/-- The last grid is finer than the doubles. -/
theorem grid_last_lt (hx : x.Canonical) (hpos : 0 < x.significand) :
    (10 : ℚ) ^ x.grid 19 < 2 ^ x.exponent / 4 := by
  have hunit : (0 : ℚ) < 2 ^ x.exponent := zpow_pos two_pos _
  have hlt : x.toRat < 2 ^ 53 * 2 ^ x.exponent :=
    mul_lt_mul_of_pos_right (by exact_mod_cast hx.significand_lt) hunit
  have hgrid : (10 : ℚ) ^ x.grid 19 = 10 ^ (x.grid 0 - 1) / 10 ^ 18 := by
    rw [grid_eq, ← zpow_natCast (10 : ℚ) 18, ← zpow_sub₀ (by norm_num)]
    congr 1
    push_cast
    ring
  have hlow := (grid_zero_bounds hpos).1
  rw [hgrid, div_lt_iff₀ (by norm_num)]
  linarith

theorem exists_hit? (hx : x.Canonical) (hpos : 0 < x.significand) : ∃ s, x.hit? 19 = some s := by
  obtain ⟨hlow, hhigh⟩ := stepsBelow_spec x.toRatio_pos x.toRatio_eq (x.grid 19)
  have hnear : |stepsBelow x.toRatio.1 x.toRatio.2 (x.grid 19) * 10 ^ x.grid 19 - x.toRat| <
      10 ^ x.grid 19 := by
    rw [abs_lt]
    constructor <;> linarith [ten_zpow_pos (x.grid 19)]
  refine exists_onGrid? x.toRatio_pos x.toRatio_eq hnear ?_
  exact nearest?_of_abs_lt hx hpos (hnear.trans (grid_last_lt hx hpos))

/-- The search ends with its first hit. -/
theorem exists_first_hit? (hx : x.Canonical) (hpos : 0 < x.significand) :
    ∃ p s, p < 20 ∧ x.hit? p = some s ∧ (∀ q, q < p → x.hit? q = none) ∧ x.shortest = s.strip := by
  rw [shortest_eq hpos]
  cases hfound : (List.range 20).findSome? x.hit? with
  | none =>
    rw [List.findSome?_eq_none_iff] at hfound
    obtain ⟨s, hs⟩ := exists_hit? hx hpos
    rw [hfound 19 (by decide)] at hs
    cases hs
  | some s =>
    obtain ⟨p, hp, hhit, hfirst⟩ := findSome?_range_eq_some hfound
    exact ⟨p, s, hp, hhit, hfirst, rfl⟩

/-- What is written for a double reads back as the double. -/
theorem nearest?_shortest (hx : x.Canonical) (hpos : 0 < x.significand) :
    nearest? x.shortest.toRat = some x := by
  obtain ⟨p, s, -, hhit, -, hshortest⟩ := exists_first_hit? hx hpos
  rw [hshortest, ShortDecimal.toRat_strip]
  exact (onGrid?_eq_some hhit).1

theorem digits_shortest_le (hx : x.Canonical) (hpos : 0 < x.significand) :
    x.shortest.digits ≤ 10 ^ 20 := by
  obtain ⟨p, s, hp, hhit, -, hshortest⟩ := exists_first_hit? hx hpos
  rw [hshortest]
  refine s.digits_strip_le.trans ?_
  have hsteps : stepsBelow x.toRatio.1 x.toRatio.2 (x.grid p) < 10 ^ (p + 1) := by
    have hlow := (stepsBelow_spec x.toRatio_pos x.toRatio_eq (x.grid p)).1
    have hhigh := (grid_zero_bounds hpos).2
    have hlt : (stepsBelow x.toRatio.1 x.toRatio.2 (x.grid p) : ℚ) < 10 ^ (p + 1) := by
      refine lt_of_mul_lt_mul_right (hlow.trans_lt (hhigh.trans_eq ?_)) (ten_zpow_pos _).le
      rw [← zpow_natCast, ← zpow_add₀ (by norm_num), grid_eq x p]
      congr 1
      push_cast
      ring
    exact_mod_cast hlt
  have hpow : 10 ^ (p + 1) ≤ 10 ^ 20 := Nat.pow_le_pow_right (by decide) (by omega)
  have hdigits := (onGrid?_eq_some hhit).2.2
  omega

/-! ### Fifteen digits -/

/-- A number that reads back is at most half a step of the doubles away. -/
theorem abs_sub_le_of_nearest? (hpos : 0 < x.significand) (hv : 0 ≤ v) (h : nearest? v = some x) :
    |x.toRat - v| ≤ 2 ^ x.exponent / 2 := by
  have hv : 0 < v := by
    refine lt_of_le_of_ne hv fun hzero => ?_
    rw [← hzero, nearest?_zero] at h
    cases h
    exact lt_irrefl _ hpos
  have hunit : (2 : ℚ) ^ lastPlace v ≤ 2 ^ x.exponent :=
    zpow_le_zpow_right₀ one_le_two (lastPlace_le_exponent hv h)
  linarith [abs_toRat_sub_le hv h]

/-- What is written for a double is no farther from it than what is rounded to it. -/
theorem within_shortest (hx : x.Canonical) (hfull : 2 ^ 52 ≤ x.significand) :
    Within roundingFactor x.toRat x.shortest.toRat := by
  have hpos : 0 < x.significand := by omega
  have hunit : (0 : ℚ) < 2 ^ x.exponent := zpow_pos two_pos _
  have hvalue : (2 ^ 52 : ℚ) * 2 ^ x.exponent ≤ x.toRat :=
    mul_le_mul_of_nonneg_right (by exact_mod_cast hfull) hunit.le
  refine within_of_abs_sub_le ?_ x.toRat_nonneg
  have hnear := abs_sub_le_of_nearest? hpos x.shortest.toRat_nonneg (nearest?_shortest hx hpos)
  rw [abs_sub_comm] at hnear
  rw [zpow_neg]
  norm_num
  linarith

/-- On a grid with wider steps than those of the doubles no two numbers read back as the same one. -/
theorem eq_of_onGrid {j k : ℕ} (hpos : 0 < x.significand) (hwide : (2 : ℚ) ^ x.exponent < 10 ^ e)
    (hj : nearest? (j * 10 ^ e) = some x) (hk : nearest? (k * 10 ^ e) = some x) : j = k := by
  have hstep := ten_zpow_pos e
  have hnonneg (i : ℕ) : (0 : ℚ) ≤ i * 10 ^ e := mul_nonneg (Nat.cast_nonneg i) hstep.le
  have hj' := abs_le.mp (abs_sub_le_of_nearest? hpos (hnonneg j) hj)
  have hk' := abs_le.mp (abs_sub_le_of_nearest? hpos (hnonneg k) hk)
  have hlt {i l : ℕ} (h : (i : ℚ) * 10 ^ e - l * 10 ^ e < 10 ^ e) : i < l + 1 := by
    have : (i : ℚ) < l + 1 := by
      refine lt_of_mul_lt_mul_right ?_ hstep.le
      linarith
    exact_mod_cast this
  have hjk : j < k + 1 := hlt (by linarith)
  have hkj : k < j + 1 := hlt (by linarith)
  omega

/-- A coarser grid is part of a finer one. -/
theorem exists_onFiner (D : ℕ) {k : ℤ} (h : e ≤ k) : ∃ j : ℕ, (D : ℚ) * 10 ^ k = j * 10 ^ e := by
  obtain ⟨i, hi⟩ := Int.eq_ofNat_of_zero_le (sub_nonneg.mpr h)
  refine ⟨D * 10 ^ i, ?_⟩
  rw [show k = (i : ℤ) + e by omega, zpow_add₀ (by norm_num), zpow_natCast]
  push_cast
  ring

/-- The search comes to a grid that a number of fifteen digits is on while the grids are still wider
than the steps of the doubles. -/
theorem exists_grid {D : ℕ} {k : ℤ} (hfull : 2 ^ 52 ≤ x.significand) (hD : D < 10 ^ 15)
    (hreads : nearest? (D * 10 ^ k) = some x) :
    ∃ p, x.grid p ≤ k ∧ (2 : ℚ) ^ x.exponent < 10 ^ x.grid p := by
  have hpos : 0 < x.significand := by omega
  have hunit : (0 : ℚ) < 2 ^ x.exponent := zpow_pos two_pos _
  have hstep := ten_zpow_pos k
  have hvalue : (2 ^ 52 : ℚ) * 2 ^ x.exponent ≤ x.toRat :=
    mul_le_mul_of_nonneg_right (by exact_mod_cast hfull) hunit.le
  rcases le_or_gt (x.grid 0) k with hle | hlt
  · refine ⟨0, hle, ?_⟩
    have hhigh := (grid_zero_bounds hpos).2
    rw [zpow_add₀ (by norm_num), zpow_one] at hhigh
    linarith
  · refine ⟨(x.grid 0 - k).toNat, by rw [grid_eq]; omega, ?_⟩
    have hgrid : x.grid (x.grid 0 - k).toNat = k := by
      rw [grid_eq]
      omega
    have hnear := abs_le.mp (abs_sub_le_of_nearest? hpos
      (mul_nonneg (Nat.cast_nonneg D) hstep.le) hreads)
    have hsmall : (D : ℚ) * 10 ^ k ≤ 10 ^ 15 * 10 ^ k :=
      mul_le_mul_of_nonneg_right (by exact_mod_cast hD.le) hstep.le
    rw [hgrid]
    linarith

/-- A number with at most fifteen digits is what is written for the double it is rounded to. -/
theorem toRat_shortest_of_lt {D : ℕ} {k : ℤ} (hfull : 2 ^ 52 ≤ x.significand) (hD : D < 10 ^ 15)
    (hreads : nearest? (D * 10 ^ k) = some x) : x.shortest.toRat = D * 10 ^ k := by
  have hpos : 0 < x.significand := by omega
  have hx := canonical_of_nearest? (mul_nonneg (Nat.cast_nonneg D) (ten_zpow_pos k).le) hreads
  obtain ⟨p, hgrid, hwide⟩ := exists_grid hfull hD hreads
  obtain ⟨j, hj⟩ := exists_onFiner D hgrid
  rw [hj] at hreads ⊢
  -- the search stops here at the latest
  have hfound : ∃ s, x.hit? p = some s := by
    refine exists_onGrid? x.toRatio_pos x.toRatio_eq ?_ hreads
    have hnear := abs_sub_le_of_nearest? hpos
      (mul_nonneg (Nat.cast_nonneg j) (ten_zpow_pos _).le) hreads
    rw [abs_sub_comm] at hnear
    have hunit : (0 : ℚ) < 2 ^ x.exponent := zpow_pos two_pos _
    linarith
  obtain ⟨q, s, -, hhit, hfirst, hshortest⟩ := exists_first_hit? hx hpos
  have hqp : q ≤ p := by
    by_contra hlt
    obtain ⟨t, ht⟩ := hfound
    rw [hfirst p (not_le.mp hlt)] at ht
    cases ht
  obtain ⟨hback, hexponent, -⟩ := onGrid?_eq_some hhit
  have hcoarser : x.grid p ≤ s.exponent := by
    rw [hexponent, grid_eq x p, grid_eq x q]
    omega
  obtain ⟨i, hi⟩ := exists_onFiner s.digits hcoarser
  rw [hshortest, ShortDecimal.toRat_strip]
  rw [ShortDecimal.toRat, hi] at hback ⊢
  rw [eq_of_onGrid hpos hwide hback hreads]

end Binary64

end DepositSync
