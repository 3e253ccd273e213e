import DepositSync.Text.Digits
import Mathlib.Data.Nat.Digits.Defs
import Mathlib.Tactic.Ring

/-!
# DepositSync.Proofs.Digits

Decimal digits and the number they make. The number is built from the left (`Nat.ofDigitChars`), so it
only grows with more digits, by less than one unit of the place before them.
-/

namespace DepositSync.Text

variable {ds : List Char} {c : Char}

theorem isDigit_bounds (hc : c.isDigit = true) : 48 ≤ c.toNat ∧ c.toNat ≤ 57 := by
  simp only [Char.isDigit, Bool.and_eq_true, decide_eq_true_eq] at hc
  exact hc

theorem ne_of_isDigit (hc : c.isDigit = true) {d : Char} (hd : d.isDigit = false) : c ≠ d := by
  rintro rfl
  rw [hc] at hd
  cases hd

/-! ### Digits to numbers -/

theorem le_ofDigitChars (ds : List Char) (m : ℕ) : m ≤ Nat.ofDigitChars 10 ds m := by
  rw [Nat.ofDigitChars_eq_ofDigitChars_zero]
  exact (Nat.le_mul_of_pos_left m (by positivity)).trans (Nat.le_add_right _ _)

theorem ofDigitChars_lt (hds : ds.all Char.isDigit = true) :
    Nat.ofDigitChars 10 ds 0 < 10 ^ ds.length := by
  induction ds with
  | nil => decide
  | cons c cs ih =>
    rw [List.all_cons, Bool.and_eq_true] at hds
    have hdigit := isDigit_bounds hds.1
    have hrest := ih hds.2
    rw [Nat.ofDigitChars_cons, Nat.ofDigitChars_eq_ofDigitChars_zero, List.length_cons, pow_succ]
    have hle : 10 ^ cs.length * (10 * 0 + (c.toNat - '0'.toNat)) ≤ 10 ^ cs.length * 9 :=
      Nat.mul_le_mul_left _ (by simp only [Char.reduceToNat]; omega)
    omega

theorem ofDigitChars_replicate_zero (k m : ℕ) :
    Nat.ofDigitChars 10 (List.replicate k '0') m = m * 10 ^ k := by
  induction k generalizing m with
  | zero => simp
  | succ k ih =>
    rw [List.replicate_succ, Nat.ofDigitChars_cons, ih, pow_succ]
    simp
    ring

/-! ### Numbers to digits -/

theorem all_isDigit_ofNat (n : ℕ) : (ofNat n).all Char.isDigit = true := by
  rw [List.all_eq_true]
  exact fun c hc => Nat.isDigit_of_mem_toDigits (by decide) (by decide) hc

theorem ofDigitChars_ofNat (n : ℕ) : Nat.ofDigitChars 10 (ofNat n) 0 = n :=
  Nat.ofDigitChars_ten_toDigits

theorem length_ofNat_pos (n : ℕ) : 0 < (ofNat n).length := Nat.length_toDigits_pos

theorem lt_ten_pow_length (n : ℕ) : n < 10 ^ (ofNat n).length :=
  (Nat.length_toDigits_le_iff (by decide) (length_ofNat_pos n)).mp le_rfl

theorem ten_pow_length_le {n : ℕ} (hn : 0 < n) : 10 ^ ((ofNat n).length - 1) ≤ n := by
  by_contra hlt
  rcases Nat.eq_zero_or_pos ((ofNat n).length - 1) with hone | hmore
  · rw [hone, pow_zero] at hlt
    exact hlt hn
  · have hle : (ofNat n).length ≤ (ofNat n).length - 1 :=
      (Nat.length_toDigits_le_iff (by decide) hmore).mpr (not_le.mp hlt)
    have hpos := length_ofNat_pos n
    omega

end DepositSync.Text
