import DepositSync.Decimal.Quotient
import DepositSync.Proofs.Rounding

/-!
# DepositSync.Proofs.Division

The division of mantissas rounds correctly: it comes to the quotient, rounded half to even at the
largest scale that is possible, or finds that this does not fit (`answers_run?`).

Between two steps the quotient so far and the remainder are the number, shifted by the scale
(`Tracks`). A step appends digits; it keeps this (`Tracks.extend?`), and raises the scale, so that
the loop ends. There are many ways to leave it, and for each it is shown that the scale is the right
one or that the number is too large. They come down to four lemmas: the quotient is exact
(`answers_exact`), is rounded where there is no room for more digits (`answers_some`), has a digit
too many (`answers_shrink?`), or is too large with no digit behind the point left (`answers_none`).

The remainder tells whether anything was cut off behind the last digit, and a digit that is cut off
is rounded once, with all that is behind it (`halfEven_div_ten`). In one place a quotient that has
been rounded up is rounded again: this is the largest mantissa plus one, which is not near a tie
(`Tracks.close?`).
-/

namespace DepositSync.Decimal

variable {x : ℚ}

theorem maxMantissa_eq : maxMantissa = 79228162514264337593543950335 := by decide

/-! ### Scales -/

theorem mul_zpow_le {s t : ℤ} (hx : 0 ≤ x) (hst : s ≤ t) : x * 10 ^ s ≤ x * 10 ^ t :=
  mul_le_mul_of_nonneg_left (zpow_le_zpow_right₀ (by norm_num) hst) hx

theorem mul_zpow_add (s p : ℤ) : x * 10 ^ (s + p) = x * 10 ^ s * 10 ^ p := by
  rw [zpow_add₀ (by norm_num), mul_assoc]

/-- A fraction is its whole part and the rest. -/
theorem natCast_div_eq (n : ℕ) {b : ℕ} (hb : 0 < b) :
    (n : ℚ) / b = (n / b : ℕ) + (n % b : ℕ) / b := by
  have hsplit : ((b * (n / b) + n % b : ℕ) : ℚ) = n := by rw [Nat.div_add_mod]
  have hb' : (b : ℚ) ≠ 0 := by exact_mod_cast hb.ne'
  rw [← hsplit]
  push_cast
  field_simp

namespace Division

/-- The mantissa and the scale that a division has come to. -/
def parts (d : Division) : ℕ × ℕ := (d.quotient, d.scale.toNat)

/-- The division comes to what the number is rounded to. -/
def Answers (x : ℚ) (result : Option Division) : Prop := Rounds x (result.map parts)

variable {d : Division} {s : ℤ} {q r b p : ℕ}

/-- Where a number does not fit at a scale that is not positive it does not fit at all. -/
theorem answers_none (hx : 0 ≤ x) (hs : s ≤ 0) (hover : maxMantissa < halfEven (x * 10 ^ s)) :
    Answers x none := by
  refine rounds_none fun hfits => ?_
  have hle : halfEven (x * 10 ^ s) ≤ halfEven (|x| * 10 ^ 0) := by
    rw [abs_of_nonneg hx, ← zpow_natCast]
    exact halfEven_mono (mul_zpow_le hx hs)
  exact absurd (hover.trans_le (hle.trans hfits)) (lt_irrefl _)

/-- The quotient is the number rounded at its scale, and there is no better scale. -/
theorem answers_some (hx : 0 ≤ x) (hs : 0 ≤ d.scale) (hle : d.scale ≤ maxScale)
    (hquotient : halfEven (x * 10 ^ d.scale) = d.quotient) (hfits : d.quotient ≤ maxMantissa)
    (hnext : d.scale < maxScale → maxMantissa < halfEven (x * 10 ^ (d.scale + 1))) :
    Answers x (some d) := by
  obtain ⟨q, s, r, inexact⟩ := d
  obtain ⟨s, rfl⟩ := Int.eq_ofNat_of_zero_le hs
  simp only at *
  have hscale : IsScale x s := by
    refine ⟨?_, by omega, fun hs => ?_⟩
    · rw [Fits, abs_of_nonneg hx, ← zpow_natCast, hquotient]
      exact_mod_cast hfits
    · have h := hnext (by omega)
      rw [Fits, abs_of_nonneg hx, ← zpow_natCast]
      push_cast
      exact not_le.mpr h
  rw [zpow_natCast] at hquotient
  exact rounds_some hscale hfits hquotient

/-- An exact quotient is the number itself. -/
theorem answers_exact (hs : 0 ≤ d.scale) (hle : d.scale ≤ maxScale)
    (hfits : d.quotient ≤ maxMantissa) (hvalue : x * 10 ^ d.scale = d.quotient) :
    Answers x (some d) := by
  obtain ⟨q, s, r, inexact⟩ := d
  obtain ⟨s, rfl⟩ := Int.eq_ofNat_of_zero_le hs
  simp only [zpow_natCast] at *
  have hx : x = ratio q s := by
    rw [ratio, ← hvalue, mul_div_cancel_right₀ x (by positivity)]
  rw [hx]
  exact rounds_ratio hfits (by omega)

/-! ### One step -/

/-- Where a division is: the number is the quotient and what the remainder adds to it. -/
structure Tracks (x : ℚ) (b : ℕ) (d : Division) : Prop where
  value : x * 10 ^ d.scale = d.quotient + d.remainder / b
  remainder_lt : d.remainder < b
  quotient_le : d.quotient ≤ maxMantissa
  scale_le : d.scale ≤ maxScale

theorem natCast_le_of_value {y : ℚ} (h : y = q + r / b) : (q : ℚ) ≤ y := by
  rw [h]
  exact le_add_of_nonneg_right (by positivity)

theorem lt_halfEven_of_lt {y : ℚ} (hq : maxMantissa < q) (h : (q : ℚ) ≤ y) :
    maxMantissa < halfEven y := by
  have hmono := halfEven_mono h
  rw [halfEven_natCast] at hmono
  omega

/-- A whole number without its last digit, rounded half to even; `sticky` tells whether something
was cut off behind it already. -/
def cut (q : ℕ) (sticky : Bool) : ℕ :=
  if 5 < q % 10 ∨ (q % 10 = 5 ∧ (sticky = true ∨ q / 10 % 2 = 1)) then q / 10 + 1 else q / 10

theorem cut_le (q : ℕ) (sticky : Bool) : cut q sticky ≤ q / 10 + 1 := by
  unfold cut
  split <;> omega

theorem shrink?_eq (q : ℕ) (s : ℤ) (sticky : Bool) :
    shrink? q s sticky = if s - 1 < 0 then none else some (cut q sticky, s - 1) := by
  simp [shrink?, cut]

/-- Cutting off the last digit rounds correctly, if it is told whether there was a remainder. -/
theorem halfEven_div_ten {y : ℚ} (hr : r < b) (hy : y = q + r / b) :
    halfEven (y / 10) = cut q (r != 0) := by
  have hb : (b : ℚ) ≠ 0 := by exact_mod_cast (Nat.zero_lt_of_lt hr).ne'
  have hten : y / 10 = (q / 10 : ℕ) + (q % 10 * b + r : ℕ) / (10 * b : ℕ) := by
    have hsplit : ((10 * (q / 10) + q % 10 : ℕ) : ℚ) = q := by rw [Nat.div_add_mod]
    rw [hy, ← hsplit]
    push_cast
    field_simp
    ring
  have hdigit : q % 10 * b ≤ 9 * b := Nat.mul_le_mul_right b (by omega)
  rw [hten, halfEven_add_div _ (by omega)]
  have hup : 10 * b < 2 * (q % 10 * b + r) ∨
      (2 * (q % 10 * b + r) = 10 * b ∧ q / 10 % 2 = 1) ↔
      5 < q % 10 ∨ (q % 10 = 5 ∧ ((r != 0) = true ∨ q / 10 % 2 = 1)) := by
    rw [bne_iff_ne]
    rcases Nat.lt_trichotomy (q % 10) 5 with hlow | htie | hhigh
    · have : q % 10 * b ≤ 4 * b := Nat.mul_le_mul_right b (by omega)
      omega
    · rw [htie]
      omega
    · have : 6 * b ≤ q % 10 * b := Nat.mul_le_mul_right b (by omega)
      omega
  simp only [hup, cut]

/-- Where a number does not fit at a scale the last digit is cut off, if it is behind the point. -/
theorem answers_shrink? {sticky : Bool} (hx : 0 ≤ x) (hs : s ≤ maxScale)
    (hover : maxMantissa < halfEven (x * 10 ^ s))
    (hround : halfEven (x * 10 ^ s / 10) = cut q sticky) (hfits : q / 10 < maxMantissa)
    (r : ℕ) (inexact : Bool) :
    Answers x ((shrink? q s sticky).map fun (q, s) => ⟨q, s, r, inexact⟩) := by
  rw [shrink?_eq]
  split
  · next hneg => exact answers_none hx (by omega) hover
  · next hpos =>
    have hle := cut_le q sticky
    refine answers_some hx (not_lt.mp hpos) ?_ ?_ (by show cut q sticky ≤ _; omega) fun _ => ?_
    · show s - 1 ≤ maxScale
      omega
    · show halfEven (x * 10 ^ (s - 1)) = cut q sticky
      rw [zpow_sub_one₀ (by norm_num), ← mul_assoc, ← div_eq_mul_inv, hround]
    · show _ < halfEven (x * 10 ^ (s - 1 + 1))
      rwa [sub_add_cancel]

/-- The digits that are appended are the next ones of the number. -/
theorem Tracks.shifted (h : Tracks x b d) (p : ℕ) :
    x * 10 ^ (d.scale + p) =
      ((d.quotient * 10 ^ p + d.remainder * 10 ^ p / b : ℕ) : ℚ) +
        (d.remainder * 10 ^ p % b : ℕ) / b := by
  have hb : 0 < b := Nat.zero_lt_of_lt h.remainder_lt
  have hsplit := natCast_div_eq (d.remainder * 10 ^ p) hb
  rw [mul_zpow_add, h.value, zpow_natCast, Nat.cast_add, add_assoc, ← hsplit]
  push_cast
  ring

/-- There are only so many of them. -/
theorem Tracks.digits_lt (h : Tracks x b d) (p : ℕ) : d.remainder * 10 ^ p / b < 10 ^ p := by
  rw [Nat.div_lt_iff_lt_mul (Nat.zero_lt_of_lt h.remainder_lt), Nat.mul_comm]
  exact Nat.mul_lt_mul_of_pos_left h.remainder_lt (by positivity)

/-- More digits of the quotient: either the division goes on, or it has come to its end. -/
theorem Tracks.extend? (h : Tracks x b d) (hx : 0 ≤ x) (hp : p ≤ 9) (hs : d.scale + p ≤ maxScale)
    (hroom : d.quotient * 10 ^ p ≤ maxMantissa ∨ d.scale + p ≤ 0) :
    match d.extend? b p with
    | none => Answers x none
    | some (false, d') => Answers x (some d')
    | some (true, d') => Tracks x b d' ∧ d'.scale = d.scale + p := by
  have hvalue := h.shifted p
  have hrest := Nat.mod_lt (d.remainder * 10 ^ p) (Nat.zero_lt_of_lt h.remainder_lt)
  simp only [Division.extend?, Nat.pow_eq]
  by_cases hfull : maxMantissa < d.quotient * 10 ^ p
  · rw [if_pos hfull]
    refine answers_none hx (hroom.resolve_left (not_le.mpr hfull)) ?_
    exact lt_halfEven_of_lt (hfull.trans_le (Nat.le_add_right _ _)) (natCast_le_of_value hvalue)
  rw [if_neg hfull]
  by_cases hover : maxMantissa < d.quotient * 10 ^ p + d.remainder * 10 ^ p / b
  · rw [if_pos hover]
    have hfits : (d.quotient * 10 ^ p + d.remainder * 10 ^ p / b) / 10 < maxMantissa := by
      have hdigits := h.digits_lt p
      have hpow : 10 ^ p ≤ 10 ^ 9 := Nat.pow_le_pow_right (by norm_num) hp
      have hmax := maxMantissa_eq
      omega
    have hshrunk := answers_shrink? hx hs
      (lt_halfEven_of_lt hover (natCast_le_of_value hvalue)) (halfEven_div_ten hrest hvalue) hfits
      (d.remainder * 10 ^ p % b) d.inexact
    cases hshrink : shrink? (d.quotient * 10 ^ p + d.remainder * 10 ^ p / b) (d.scale + p)
        (d.remainder * 10 ^ p % b != 0) with
    | none =>
        rw [hshrink] at hshrunk
        exact hshrunk
    | some shorter =>
        rw [hshrink] at hshrunk
        exact hshrunk
  · rw [if_neg hover]
    exact ⟨⟨hvalue, hrest, not_lt.mp hover, hs⟩, rfl⟩

/-- More digits than these the number does have. -/
theorem Tracks.mul_pow_le (h : Tracks x b d) (p : ℕ) :
    ((d.quotient * 10 ^ p : ℕ) : ℚ) ≤ x * 10 ^ (d.scale + p) := by
  rw [mul_zpow_add, zpow_natCast, Nat.cast_mul, Nat.cast_pow, Nat.cast_ofNat]
  exact mul_le_mul_of_nonneg_right (natCast_le_of_value h.value) (by positivity)

/-- Where there are no more digits the quotient is rounded by its remainder. -/
theorem Tracks.close? (h : Tracks x b d) (hx : 0 ≤ x) (hs : 0 ≤ d.scale)
    (hfull : d.scale < maxScale → maxMantissa < d.quotient * 10) : Answers x (d.close? b) := by
  have hnext : d.scale < maxScale → maxMantissa < halfEven (x * 10 ^ (d.scale + 1)) := by
    intro hlt
    exact lt_halfEven_of_lt (hfull hlt) (h.mul_pow_le 1)
  obtain ⟨q, s, r, inexact⟩ := d
  obtain ⟨hvalue, hr, hq, hle⟩ := h
  simp only at hvalue hr hq hle hs hnext
  have hround := halfEven_add_div q hr
  rw [← hvalue] at hround
  unfold Division.close?
  simp only
  split
  · next hup =>
    rw [if_pos hup] at hround
    split
    · next hfits => exact answers_some hx hs hle hround hfits hnext
    · next hover =>
      obtain rfl : q = maxMantissa := by omega
      -- one more than the largest mantissa is rounded as what it was rounded up from
      have hcut : halfEven (x * 10 ^ s / 10) = cut (maxMantissa + 1) true := by
        have hrest : (r != 0) = true := by
          rw [bne_iff_ne]
          omega
        rw [halfEven_div_ten hr hvalue, hrest, maxMantissa_eq]
        decide
      have hfits : (maxMantissa + 1) / 10 < maxMantissa := by decide
      exact answers_shrink? hx hle (by omega) hcut hfits r inexact
  · next hdown =>
    rw [if_neg hdown] at hround
    exact answers_some hx hs hle hround hq hnext

/-! ### The loop -/

theorem roomFor_le (q p : ℕ) : roomFor q p ≤ p := by
  induction p with
  | zero => exact le_rfl
  | succ p ih =>
      unfold roomFor
      split
      · exact le_rfl
      · exact ih.trans (Nat.le_succ p)

/-- So many digits have room. -/
theorem mul_pow_roomFor_le (hq : q ≤ maxMantissa) (p : ℕ) :
    q * 10 ^ roomFor q p ≤ maxMantissa := by
  induction p with
  | zero => simpa [roomFor] using hq
  | succ p ih =>
      unfold roomFor
      split
      · next hfits => exact hfits
      · exact ih

/-- And no more, if not as many as were allowed. -/
theorem lt_mul_pow_roomFor (h : roomFor q p < p) : maxMantissa < q * 10 ^ (roomFor q p + 1) := by
  induction p with
  | zero => exact absurd h (Nat.not_lt_zero _)
  | succ p ih =>
      unfold roomFor at h ⊢
      split at h
      · exact absurd h (lt_irrefl _)
      · next hover =>
        rw [if_neg hover]
        rcases (roomFor_le q p).lt_or_eq with hlt | heq
        · exact ih hlt
        · rw [heq]
          exact not_le.mp hover

/-- A division that goes on from its next step. -/
theorem Tracks.answers_next (h : Tracks x b d) (hx : 0 ≤ x) (hp : p ≤ 9)
    (hs : d.scale + p ≤ maxScale)
    (hroom : d.quotient * 10 ^ p ≤ maxMantissa ∨ d.scale + p ≤ 0)
    (next : Division → Option Division)
    (hnext : ∀ d', Tracks x b d' → d'.scale = d.scale + p → Answers x (next d')) :
    Answers x (match d.extend? b p with
      | none => none
      | some (false, d) => some d
      | some (true, d) => next d) := by
  have hstep := h.extend? hx hp hs hroom
  match hextend : d.extend? b p with
  | none =>
      rw [hextend] at hstep
      exact hstep
  | some (false, d') =>
      rw [hextend] at hstep
      exact hstep
  | some (true, d') =>
      rw [hextend] at hstep
      exact hnext d' hstep.1 hstep.2

/-- Where no remainder is left, the division has come to its end, or its scale is negative and the
quotient gets zeros. -/
theorem Tracks.answers_of_exact (h : Tracks x b d) (hx : 0 ≤ x) (hr : d.remainder = 0)
    (next : Division → Option Division)
    (hnext : ∀ d', Tracks x b d' → d.scale < d'.scale → Answers x (next d')) :
    Answers x (if 0 ≤ d.scale then some d else
      match d.extend? b (min 9 (-d.scale).toNat) with
      | none => none
      | some (false, d) => some d
      | some (true, d) => next d) := by
  split
  · next hs =>
    refine answers_exact hs h.scale_le h.quotient_le ?_
    rw [h.value, hr, Nat.cast_zero, zero_div, add_zero]
  · next hs =>
    have hmax : maxScale = 28 := rfl
    refine h.answers_next hx (Nat.min_le_left ..) (by omega) (.inr (by omega)) next ?_
    intro d' htracks hscale
    exact hnext d' htracks (by omega)

/-- Where a remainder is left, as many digits are appended as there is room for. If there is none
the quotient is rounded; if the point is not reached the number does not fit. -/
theorem Tracks.answers_of_inexact (h : Tracks x b d) (hx : 0 ≤ x)
    (hp : p = if d.scale < (maxScale : ℤ) then
      roomFor d.quotient (min 9 ((maxScale : ℤ) - d.scale).toNat) else 0)
    (next : Division → Option Division)
    (hnext : ∀ d', Tracks x b d' → d.scale < d'.scale → Answers x (next d')) :
    Answers x (if d.scale < (maxScale : ℤ) ∧ p < 9 ∧ d.scale + (p : ℤ) < 0 then none
      else if p = 0 then d.close? b
      else match d.extend? b p with
        | none => none
        | some (false, d) => some d
        | some (true, d) => next d) := by
  have hmax : maxScale = 28 := rfl
  have hle := h.scale_le
  have hlimit : p ≤ min 9 ((maxScale : ℤ) - d.scale).toNat := by
    rw [hp]
    split
    · exact roomFor_le _ _
    · exact Nat.zero_le _
  have hroom : d.quotient * 10 ^ p ≤ maxMantissa := by
    rw [hp]
    split
    · exact mul_pow_roomFor_le h.quotient_le _
    · simpa using h.quotient_le
  have hfull (hless : p < min 9 ((maxScale : ℤ) - d.scale).toNat) :
      maxMantissa < d.quotient * 10 ^ (p + 1) := by
    rw [if_pos (by omega)] at hp
    rw [hp] at hless ⊢
    exact lt_mul_pow_roomFor hless
  split
  · next hover =>
    refine answers_none hx (s := d.scale + (p + 1 : ℕ)) (by omega) ?_
    exact lt_halfEven_of_lt (hfull (by omega)) (h.mul_pow_le (p + 1))
  · next hreach =>
    split
    · next hnone =>
      subst hnone
      exact h.close? hx (by omega) fun hlt => hfull (by omega)
    · next hsome =>
      refine h.answers_next hx (by omega) (by omega) (.inl hroom) next ?_
      intro d' htracks hscale
      exact hnext d' htracks (by omega)

/-- A division comes to its end, at the number it divides for. -/
theorem answers_run? (hx : 0 ≤ x) (steps : ℕ) (d : Division) (h : Tracks x b d)
    (hsteps : (maxScale - d.scale).toNat < steps) : Answers x (run? b steps d) := by
  induction steps generalizing d with
  | zero => exact absurd hsteps (Nat.not_lt_zero _)
  | succ steps ih =>
      have hgoOn (d' : Division) (h' : Tracks x b d') (hlt : d.scale < d'.scale) :
          Answers x (run? b steps d') := by
        have hle := h'.scale_le
        exact ih d' h' (by omega)
      unfold run?
      simp only
      by_cases hr : d.remainder = 0
      · rw [if_pos hr]
        exact h.answers_of_exact hx hr _ hgoOn
      · rw [if_neg hr]
        have hflagged : Tracks x b { d with inexact := true } :=
          ⟨h.value, h.remainder_lt, h.quotient_le, h.scale_le⟩
        exact hflagged.answers_of_inexact hx rfl _ hgoOn

end Division

end DepositSync.Decimal
