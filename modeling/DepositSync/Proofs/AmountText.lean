import DepositSync.Decimal.Reading
import DepositSync.Proofs.Returns
import DepositSync.Proofs.ShortestDecimal
import Mathlib.Data.List.TakeWhile

/-!
# DepositSync.Proofs.AmountText

Reading the text of an amount. Digits with a point are worth what they say, as long as there are no
more than 28 places; of more places the amount is the nearest with 28 (`ofText?_positional`).

The reading keeps a whole number, the digits so far, and both halves of the text only append to it:
`scan?_digits` says where any number of digits lead. The reading ends early at the 29th place, where
the next digit alone tells which way to round.
-/

namespace DepositSync.Decimal

variable {p : Progress} {ds rest whole fraction : List Char} {c : Char} {m : ℕ}

/-! ### Digits -/

/-- One more digit, if there is room for it. -/
theorem scan?_digit (hc : c.isDigit = true) (hroom : p.pointed = true → p.scale < maxScale)
    (hfits : Nat.ofDigitChars 10 [c] p.mantissa ≤ maxMantissa) :
    scan? p (c :: rest) =
      scan? ⟨Nat.ofDigitChars 10 [c] p.mantissa, if p.pointed then p.scale + 1 else p.scale,
        p.pointed, true⟩ rest := by
  have hmore : (p.pointed && p.started && decide (maxScale ≤ p.scale)) = false := by
    cases hpointed : p.pointed with
    | false => rfl
    | true => simp [not_le.mpr (hroom hpointed)]
  have hnext : p.mantissa * 10 + (c.toNat - 48) = Nat.ofDigitChars 10 [c] p.mantissa := by
    simp [Nat.ofDigitChars_cons, mul_comm]
  rw [scan?, hmore, hc, hnext, if_pos hfits]
  rfl

theorem scan?_digits (rest : List Char) (hds : ds.all Char.isDigit = true) (hne : ds ≠ [])
    (hroom : p.pointed = true → p.scale + ds.length ≤ maxScale)
    (hfits : Nat.ofDigitChars 10 ds p.mantissa ≤ maxMantissa) :
    scan? p (ds ++ rest) =
      scan? ⟨Nat.ofDigitChars 10 ds p.mantissa, if p.pointed then p.scale + ds.length else p.scale,
        p.pointed, true⟩ rest := by
  induction ds generalizing p with
  | nil => exact absurd rfl hne
  | cons c cs ih =>
    rw [List.all_cons, Bool.and_eq_true] at hds
    have hsplit : Nat.ofDigitChars 10 (c :: cs) p.mantissa =
        Nat.ofDigitChars 10 cs (Nat.ofDigitChars 10 [c] p.mantissa) := rfl
    rw [hsplit] at hfits ⊢
    have hlength : (c :: cs).length = cs.length + 1 := rfl
    rw [List.cons_append, scan?_digit hds.1 (fun hp => by have := hroom hp; omega)
      ((Text.le_ofDigitChars cs _).trans hfits)]
    rcases eq_or_ne cs [] with rfl | hcs
    · rfl
    · rw [ih hds.2 hcs (fun hp => ?_) hfits]
      · have hscale : p.scale + 1 + cs.length = p.scale + (cs.length + 1) := by omega
        cases hpointed : p.pointed <;> simp [hlength, hscale]
      · have hp' : p.pointed = true := hp
        have := hroom hp'
        simp only [hp', if_true]
        omega

/-- Digits before the point that are worth too much. -/
theorem scan?_over (hds : ds.all Char.isDigit = true) (hp : p.pointed = false)
    (hfits : p.mantissa ≤ maxMantissa) (hover : maxMantissa < Nat.ofDigitChars 10 ds p.mantissa) :
    scan? p ds = none := by
  induction ds generalizing p with
  | nil => exact absurd hover (not_lt.mpr hfits)
  | cons c cs ih =>
    rw [List.all_cons, Bool.and_eq_true] at hds
    by_cases hnext : Nat.ofDigitChars 10 [c] p.mantissa ≤ maxMantissa
    · rw [scan?_digit hds.1 (fun h => absurd h (by simp [hp])) hnext]
      exact ih hds.2 hp hnext hover
    · have hnext' : ¬p.mantissa * 10 + (c.toNat - 48) ≤ maxMantissa := by
        simpa [Nat.ofDigitChars_cons, mul_comm] using hnext
      simp [scan?, hp, hds.1, hnext']

/-- Nothing has been read. -/
def start : Progress := ⟨0, 0, false, false⟩

theorem scan?_point (hp : p.pointed = false) :
    scan? p ('.' :: rest) = scan? ⟨p.mantissa, p.scale, true, p.started⟩ rest := by
  simp [scan?, hp, Char.isDigit]

/-- Digits on both sides of the point, which fit. -/
theorem scan?_places (rest : List Char) (hwhole : whole.all Char.isDigit = true) (hne : whole ≠ [])
    (hfraction : fraction.all Char.isDigit = true) (hplaces : fraction.length ≤ maxScale)
    (hfits : Nat.ofDigitChars 10 (whole ++ fraction) 0 ≤ maxMantissa) :
    scan? start (whole ++ '.' :: (fraction ++ rest)) =
      scan? ⟨Nat.ofDigitChars 10 (whole ++ fraction) 0, fraction.length, true, true⟩ rest := by
  rw [Nat.ofDigitChars_append] at hfits ⊢
  rw [scan?_digits _ hwhole hne (fun h => by cases h) ((Text.le_ofDigitChars fraction _).trans hfits),
    scan?_point rfl]
  rcases eq_or_ne fraction [] with rfl | hfraction'
  · rfl
  · rw [scan?_digits _ hfraction hfraction' (fun _ => by simpa [start] using hplaces) hfits]
    simp [start]

/-! ### The digit that is cut off first -/

/-- The digit that decides the rounding is five or more. -/
def roundsUp (c : Char) : Bool := '5' ≤ c

theorem roundsUp_iff : roundsUp c = true ↔ 53 ≤ c.toNat := by
  simp only [roundsUp, decide_eq_true_eq, Char.le_def]
  exact Iff.rfl

/-- The first digit that is cut off tells the nearest whole number. -/
theorem abs_roundsUp_sub_le {cs : List Char} (m : ℕ) (hds : (c :: cs).all Char.isDigit = true) :
    |((m + (roundsUp c).toNat : ℕ) : ℚ) - Nat.ofDigitChars 10 (c :: cs) m / 10 ^ (cs.length + 1)| ≤
      1 / 2 := by
  rw [List.all_cons, Bool.and_eq_true] at hds
  obtain ⟨hlow, hhigh⟩ := Text.isDigit_bounds hds.1
  have hrest := Text.ofDigitChars_lt hds.2
  have hvalue : Nat.ofDigitChars 10 (c :: cs) m =
      10 ^ cs.length * (10 * m + (c.toNat - 48)) + Nat.ofDigitChars 10 cs 0 := by
    rw [Nat.ofDigitChars_cons, Nat.ofDigitChars_eq_ofDigitChars_zero]
    rfl
  obtain ⟨k, hk⟩ : ∃ k, c.toNat = k + 48 := ⟨c.toNat - 48, by omega⟩
  have hk9 : (k : ℚ) ≤ 9 := by exact_mod_cast (by omega : k ≤ 9)
  -- what is cut off, in tenths: the digit and a part of the next one
  obtain ⟨f, hf0, hf1, hf⟩ : ∃ f : ℚ, 0 ≤ f ∧ f < 1 ∧
      (Nat.ofDigitChars 10 (c :: cs) m : ℚ) / 10 ^ (cs.length + 1) = m + (k + f) / 10 := by
    have hpow : (0 : ℚ) < 10 ^ cs.length := by positivity
    refine ⟨Nat.ofDigitChars 10 cs 0 / 10 ^ cs.length, by positivity, ?_, ?_⟩
    · rw [div_lt_one hpow]
      exact_mod_cast hrest
    · rw [hvalue, hk, Nat.add_sub_cancel, pow_succ]
      push_cast
      field_simp
      ring
  rw [hf, abs_le]
  by_cases hup : 5 ≤ k
  · have h5 : (5 : ℚ) ≤ k := by exact_mod_cast hup
    rw [roundsUp_iff.mpr (by omega)]
    push_cast [Bool.toNat_true]
    constructor <;> linarith
  · have h4 : (k : ℚ) ≤ 4 := by exact_mod_cast (by omega : k ≤ 4)
    rw [Bool.eq_false_iff.mpr (mt roundsUp_iff.mp (by omega))]
    push_cast [Bool.toNat_false]
    constructor <;> linarith

theorem scan?_cut {cs : List Char} (hc : c.isDigit = true) (hfits : m < maxMantissa) :
    scan? ⟨m, maxScale, true, true⟩ (c :: cs) = some (m + (roundsUp c).toNat, maxScale) := by
  have hround : (if roundsUp c = true then m + 1 else m) = m + (roundsUp c).toNat := by
    cases roundsUp c <;> rfl
  have hfits' : m + (roundsUp c).toNat ≤ maxMantissa := by
    have := Bool.toNat_le (roundsUp c)
    omega
  rw [scan?, if_pos (by simp), rounded?]
  simp only [hc, Bool.true_and, Bool.true_or, if_true]
  rw [← roundsUp, hround, if_pos hfits']

/-! ### Positional notation -/

theorem positional_of_nonneg (s : ShortDecimal) (h : 0 ≤ s.exponent) :
    s.positional.all Char.isDigit = true ∧ s.positional ≠ [] ∧
      Nat.ofDigitChars 10 s.positional 0 = s.digits * 10 ^ s.exponent.toNat := by
  have hne : Text.ofNat s.digits ≠ [] := Nat.toDigits_ne_nil
  unfold ShortDecimal.positional
  rw [if_pos h]
  split
  · next hzero =>
    refine ⟨Text.all_isDigit_ofNat _, hne, ?_⟩
    rw [Text.ofDigitChars_ofNat, hzero, Nat.zero_mul]
  · refine ⟨?_, by simp [hne], ?_⟩
    · rw [List.all_append, Text.all_isDigit_ofNat, List.all_replicate]
      simp [Char.isDigit]
    · rw [Nat.ofDigitChars_append, Text.ofDigitChars_ofNat, Text.ofDigitChars_replicate_zero]

theorem positional_of_neg (s : ShortDecimal) (h : s.exponent < 0) :
    ∃ whole fraction, s.positional = whole ++ '.' :: fraction ∧
      whole.all Char.isDigit = true ∧ whole ≠ [] ∧ fraction.all Char.isDigit = true ∧
      fraction.length = (-s.exponent).toNat ∧ Nat.ofDigitChars 10 (whole ++ fraction) 0 = s.digits := by
  unfold ShortDecimal.positional
  rw [if_neg (not_le.mpr h)]
  simp only
  generalize hpadded : List.replicate ((-s.exponent).toNat + 1 - (Text.ofNat s.digits).length) '0' ++
    Text.ofNat s.digits = ds
  have hall : ds.all Char.isDigit = true := by
    rw [← hpadded, List.all_append, Text.all_isDigit_ofNat, List.all_replicate]
    simp [Char.isDigit]
  have hlength : (-s.exponent).toNat + 1 ≤ ds.length := by
    rw [← hpadded, List.length_append, List.length_replicate]
    omega
  have hvalue : Nat.ofDigitChars 10 ds 0 = s.digits := by
    rw [← hpadded, Nat.ofDigitChars_append, Text.ofDigitChars_replicate_zero, Nat.zero_mul,
      Text.ofDigitChars_ofNat]
  rw [List.all_eq_true] at hall
  refine ⟨_, _, rfl, ?_, ?_, ?_, ?_, ?_⟩
  · rw [List.all_eq_true]
    exact fun c hc => hall c (List.mem_of_mem_take hc)
  · rw [ne_eq, List.take_eq_nil_iff, not_or]
    constructor
    · omega
    · rintro rfl
      simp at hlength
  · rw [List.all_eq_true]
    exact fun c hc => hall c (List.mem_of_mem_drop hc)
  · rw [List.length_drop]
    omega
  · rw [List.take_append_drop, hvalue]

theorem toRat_of_nonneg {s : ShortDecimal} (h : 0 ≤ s.exponent) :
    s.toRat = (s.digits * 10 ^ s.exponent.toNat : ℕ) := by
  obtain ⟨k, hk⟩ := Int.eq_ofNat_of_zero_le h
  simp [ShortDecimal.toRat, hk]

theorem toRat_of_neg {s : ShortDecimal} (h : s.exponent < 0) :
    s.toRat = s.digits / 10 ^ (-s.exponent).toNat := by
  obtain ⟨k, hk⟩ := Int.eq_ofNat_of_zero_le (show 0 ≤ -s.exponent by omega)
  have he : s.exponent = -(k : ℤ) := by omega
  simp [ShortDecimal.toRat, he, div_eq_mul_inv]

/-- A mantissa and a scale in range that stand for a number, up to half a unit of the last of 28
places. -/
structure ReadsNear (v : ℚ) (parts : ℕ × ℕ) : Prop where
  mantissa_le : parts.1 ≤ maxMantissa
  scale_le : parts.2 ≤ maxScale
  near : |ratio parts.1 parts.2 - v| ≤ 1 / 2 / 10 ^ maxScale

theorem readsNear_of_eq {v : ℚ} {m k : ℕ} (hm : m ≤ maxMantissa) (hk : k ≤ maxScale)
    (h : ratio m k = v) : ReadsNear v (m, k) := by
  refine ⟨hm, hk, ?_⟩
  rw [h, sub_self, abs_zero]
  positivity

/-- A number that has itself no more than 28 places is what is read. -/
theorem ReadsNear.eq {v : ℚ} {m k n s : ℕ} (h : ReadsNear v (m, k)) (hs : s ≤ maxScale)
    (hv : |v - ratio n s| < 1 / 2 / 10 ^ maxScale) : ratio m k = ratio n s := by
  -- both are whole numbers of units of the last place
  have hunits {m k : ℕ} (hk : k ≤ maxScale) :
      ratio m k = (m * 10 ^ (maxScale - k) : ℕ) / 10 ^ maxScale := by
    rw [ratio, ← Nat.add_sub_cancel' hk, pow_add, Nat.add_sub_cancel_left]
    push_cast
    field_simp
  have hpow : (0 : ℚ) < 10 ^ maxScale := by positivity
  have hnear := h.near
  simp only at hnear
  rw [hunits h.scale_le] at hnear ⊢
  rw [hunits hs] at hv ⊢
  generalize m * 10 ^ (maxScale - k) = i at *
  generalize n * 10 ^ (maxScale - s) = j at *
  have hclose : |(i : ℚ) / 10 ^ maxScale - j / 10 ^ maxScale| < 1 / 10 ^ maxScale := by
    have htriangle := abs_sub_le ((i : ℚ) / 10 ^ maxScale) v (j / 10 ^ maxScale)
    have hhalf : (1 : ℚ) / 2 / 10 ^ maxScale + 1 / 2 / 10 ^ maxScale = 1 / 10 ^ maxScale := by ring
    linarith
  rw [← sub_div, abs_div, abs_of_pos hpow, div_lt_div_iff_of_pos_right hpow] at hclose
  have hint : |(i : ℤ) - j| < 1 := by exact_mod_cast hclose
  rw [Int.abs_lt_one_iff, sub_eq_zero] at hint
  rw [show i = j by exact_mod_cast hint]

theorem scan?_whole {s : ShortDecimal} (h : 0 ≤ s.exponent) (hle : s.toRat ≤ maxMantissa) :
    ∃ parts, scan? start s.positional = some parts ∧ ReadsNear s.toRat parts := by
  obtain ⟨hall, hne, hvalue⟩ := positional_of_nonneg s h
  have hfits : Nat.ofDigitChars 10 s.positional 0 ≤ maxMantissa := by
    rw [toRat_of_nonneg h] at hle
    rw [hvalue]
    exact_mod_cast hle
  have hscan := scan?_digits (p := start) [] hall hne (fun h => by cases h) hfits
  rw [List.append_nil] at hscan
  refine ⟨_, hscan, readsNear_of_eq hfits (Nat.zero_le _) ?_⟩
  rw [toRat_of_nonneg h, ← hvalue]
  exact div_one _

theorem exists_split (h : maxScale < ds.length) :
    ∃ kept c cs, ds = kept ++ c :: cs ∧ kept.length = maxScale := by
  obtain ⟨c, cs, hcut⟩ := List.exists_cons_of_length_pos
    (show 0 < (ds.drop maxScale).length by rw [List.length_drop]; omega)
  refine ⟨ds.take maxScale, c, cs, ?_, ?_⟩
  · rw [← hcut, List.take_append_drop]
  · rw [List.length_take]
    omega

/-- More places than are kept: the first 28 are, and the digit behind them rounds. -/
theorem scan?_long {whole fraction : List Char} (hwhole : whole.all Char.isDigit = true)
    (hne : whole ≠ []) (hfraction : fraction.all Char.isDigit = true)
    (hplaces : maxScale < fraction.length)
    (hlt : Nat.ofDigitChars 10 (whole ++ fraction) 0 < maxMantissa) :
    ∃ parts, scan? start (whole ++ '.' :: fraction) = some parts ∧
      ReadsNear (Nat.ofDigitChars 10 (whole ++ fraction) 0 / 10 ^ fraction.length) parts := by
  obtain ⟨kept, c, cs, rfl, hkept⟩ := exists_split hplaces
  rw [List.all_append, Bool.and_eq_true] at hfraction
  obtain ⟨hall, hcut⟩ := hfraction
  rw [← List.append_assoc, Nat.ofDigitChars_append] at hlt ⊢
  generalize hm : Nat.ofDigitChars 10 (whole ++ kept) 0 = m at hlt ⊢
  have hfits : m < maxMantissa := (Text.le_ofDigitChars (c :: cs) m).trans_lt hlt
  have hdigit : c.isDigit = true := by
    rw [List.all_cons, Bool.and_eq_true] at hcut
    exact hcut.1
  have hscan := scan?_places (c :: cs) hwhole hne hall hkept.le (hm ▸ hfits.le)
  rw [hm, hkept, scan?_cut hdigit hfits] at hscan
  refine ⟨_, hscan, ?_, le_rfl, ?_⟩
  · have := Bool.toNat_le (roundsUp c)
    simp only
    omega
  · have hround := abs_roundsUp_sub_le m hcut
    have hpow : (0 : ℚ) < 10 ^ maxScale := by positivity
    rw [List.length_append, hkept, List.length_cons, pow_add, mul_comm, ← div_div, ratio, ← sub_div,
      abs_div, abs_of_pos hpow]
    exact div_le_div_of_nonneg_right hround hpow.le

theorem scan?_fraction {s : ShortDecimal} (h : s.exponent < 0) (hdigits : s.digits < maxMantissa) :
    ∃ parts, scan? start s.positional = some parts ∧ ReadsNear s.toRat parts := by
  obtain ⟨whole, fraction, htext, hwhole, hne, hfraction, hlength, hvalue⟩ := positional_of_neg s h
  rw [htext]
  rcases le_or_gt fraction.length maxScale with hplaces | hplaces
  · have hfits : Nat.ofDigitChars 10 (whole ++ fraction) 0 ≤ maxMantissa := hvalue ▸ hdigits.le
    have hscan := scan?_places [] hwhole hne hfraction hplaces hfits
    rw [List.append_nil] at hscan
    refine ⟨_, hscan, readsNear_of_eq hfits hplaces ?_⟩
    rw [hvalue, toRat_of_neg h, hlength, ratio]
  · rw [toRat_of_neg h, ← hlength, ← hvalue]
    exact scan?_long hwhole hne hfraction hplaces (hvalue ▸ hdigits)

theorem exists_head_positional (s : ShortDecimal) :
    ∃ c cs, s.positional = c :: cs ∧ c.isDigit = true := by
  have hhead {ds : List Char} (rest : List Char) (hall : ds.all Char.isDigit = true) (hne : ds ≠ []) :
      ∃ c cs, ds ++ rest = c :: cs ∧ c.isDigit = true := by
    obtain ⟨c, cs, rfl⟩ := List.exists_cons_of_ne_nil hne
    rw [List.all_cons, Bool.and_eq_true] at hall
    exact ⟨c, cs ++ rest, rfl, hall.1⟩
  rcases le_or_gt 0 s.exponent with h | h
  · obtain ⟨hall, hne, -⟩ := positional_of_nonneg s h
    simpa using hhead [] hall hne
  · obtain ⟨whole, fraction, htext, hwhole, hne, -⟩ := positional_of_neg s h
    rw [htext]
    exact hhead _ hwhole hne

/-- The text of a decimal, behind a minus sign if it is negative. -/
def signed (negative : Bool) (s : ShortDecimal) : List Char :=
  if negative then '-' :: s.positional else s.positional

theorem ofDouble?_eq (negative : Bool) (x : Binary64) :
    ofDouble? negative x = ofText? (signed negative x.shortest) := rfl

theorem plain?_signed (negative : Bool) (s : ShortDecimal) :
    plain? (signed negative s) =
      (scan? start s.positional).map fun parts => ofParts negative parts.1 parts.2 := by
  cases negative with
  | true => rfl
  | false =>
    obtain ⟨c, cs, htext, hdigit⟩ := exists_head_positional s
    simp only [signed, Bool.false_eq_true, if_false]
    rw [htext]
    unfold plain?
    simp only
    split
    · next heq =>
      cases heq
      exact absurd hdigit (by decide)
    · next heq =>
      cases heq
      exact absurd hdigit (by decide)
    · rfl

/-- The text of a decimal that is not too large is read as the decimal, up to half a unit of the
last of 28 places. A sign in front of it is kept. -/
theorem ofText?_signed {s : ShortDecimal} (hdigits : s.digits < maxMantissa)
    (hle : s.toRat ≤ maxMantissa) (negative : Bool) :
    ∃ m k, ofText? (signed negative s) = some (ofParts negative m k) ∧
      ReadsNear s.toRat (m, k) := by
  obtain ⟨⟨m, k⟩, hscan, hnear⟩ : ∃ parts, scan? start s.positional = some parts ∧
      ReadsNear s.toRat parts := by
    rcases le_or_gt 0 s.exponent with h | h
    · exact scan?_whole h hle
    · exact scan?_fraction h hdigits
  refine ⟨m, k, ?_, hnear⟩
  rw [ofText?, plain?_signed, hscan]
  rfl

/-- A decimal that is too large is refused: it is whole, and has no exponent either. -/
theorem ofText?_signed_eq_none {s : ShortDecimal} (hdigits : s.digits < maxMantissa)
    (hover : maxMantissa < s.toRat) (negative : Bool) : ofText? (signed negative s) = none := by
  have hwhole : 0 ≤ s.exponent := by
    by_contra h
    have hle : s.toRat ≤ s.digits := by
      rw [toRat_of_neg (not_le.mp h)]
      exact div_le_self (Nat.cast_nonneg _) (one_le_pow₀ (by norm_num))
    have hlt : (s.digits : ℚ) < maxMantissa := by exact_mod_cast hdigits
    linarith
  obtain ⟨hall, hne, hvalue⟩ := positional_of_nonneg s hwhole
  have hscan : scan? start s.positional = none := by
    refine scan?_over hall rfl (Nat.zero_le _) ?_
    rw [toRat_of_nonneg hwhole] at hover
    change maxMantissa < Nat.ofDigitChars 10 s.positional 0
    rw [hvalue]
    exact_mod_cast hover
  have hmark : ∀ c ∈ signed negative s, (!(c == 'e' || c == 'E')) = true := by
    have hdigit (c : Char) (hc : c.isDigit = true) : (!(c == 'e' || c == 'E')) = true := by
      rw [beq_false_of_ne (Text.ne_of_isDigit hc (d := 'e') (by decide)),
        beq_false_of_ne (Text.ne_of_isDigit hc (d := 'E') (by decide))]
      rfl
    rw [List.all_eq_true] at hall
    cases negative with
    | true =>
      intro c hc
      rcases List.mem_cons.mp hc with rfl | hc
      · decide
      · exact hdigit c (hall c hc)
    | false => exact fun c hc => hdigit c (hall c hc)
  rw [ofText?, plain?_signed, hscan, scientific?]
  simp only [List.dropWhile_eq_nil_iff.mpr hmark]
  rfl

end DepositSync.Decimal
