import DepositSync.Json.Reading
import DepositSync.Proofs.Digits
import DepositSync.Proofs.Returns

/-!
# DepositSync.Proofs.NumeralReading

Numbers without an exponent, as a document writes them: what they are worth, and what is read.
-/

namespace DepositSync.Json

open Text (Symbol)

/-! ### Literals -/

namespace Numeral

/-- A number as JSON has it, without an exponent. -/
structure IsPlain (n : Numeral) : Prop where
  whole_digits : n.whole.all Char.isDigit = true
  whole_ne_nil : n.whole ≠ []
  /-- A leading zero stands alone. -/
  leading : n.whole.head? = some '0' → n.whole = ['0']
  fraction_digits : n.fraction.all Char.isDigit = true
  exponent_nil : n.exponent = []

/-- It begins with a digit. -/
theorem IsPlain.exists_whole_eq {n : Numeral} (hn : n.IsPlain) :
    ∃ c cs, n.whole = c :: cs ∧ c.isDigit = true := by
  obtain ⟨c, cs, hwhole⟩ := List.exists_cons_of_ne_nil hn.whole_ne_nil
  have hall := hn.whole_digits
  rw [hwhole, List.all_cons, Bool.and_eq_true] at hall
  exact ⟨c, cs, hwhole, hall.1⟩

/-- All digits of the number, as one whole number. -/
def significand (n : Numeral) : ℕ := Nat.ofDigitChars 10 (n.whole ++ n.fraction) 0

/-- What the number is worth, apart from its sign. -/
def magnitude (n : Numeral) : ℚ := Decimal.ratio n.significand n.fraction.length

/-- What the number is worth. -/
def value (n : Numeral) : ℚ := if n.negative then -n.magnitude else n.magnitude

theorem magnitude_eq (n : Numeral) :
    n.magnitude = n.significand * 10 ^ (-(n.fraction.length : ℤ)) := by
  rw [magnitude, Decimal.ratio, zpow_neg, zpow_natCast, div_eq_mul_inv]

theorem magnitude_nonneg (n : Numeral) : 0 ≤ n.magnitude := Decimal.ratio_nonneg _ _

theorem magnitude_le_significand (n : Numeral) : n.magnitude ≤ n.significand :=
  div_le_self (Nat.cast_nonneg _) (one_le_pow₀ (by norm_num))

end Numeral

/-- The text goes on with something that is no part of a number. -/
def EndsNumber (rest : List Symbol) : Prop :=
  ∀ c, rest.head? = some (.char c) → c.isDigit = false ∧ c ≠ '.' ∧ c ≠ 'e' ∧ c ≠ 'E'

/-- The digits before the exponent end here. -/
def EndsDigits (rest : List Symbol) : Prop :=
  ∀ c, rest.head? = some (.char c) → c.isDigit = false ∧ c ≠ '.'

theorem EndsNumber.endsDigits {rest : List Symbol} (h : EndsNumber rest) : EndsDigits rest :=
  fun c hc => ⟨(h c hc).1, (h c hc).2.1⟩

variable {n : Numeral} {ds : List Char} {rest : List Symbol} {c : Char}

theorem spanDigits_append (hds : ds.all Char.isDigit = true)
    (hrest : ∀ c, rest.head? = some (.char c) → c.isDigit = false) :
    spanDigits (ds.map Symbol.char ++ rest) = (ds, rest) := by
  induction ds with
  | nil =>
    cases rest with
    | nil => rfl
    | cons s rest =>
      cases s with
      | stray bs => rfl
      | char c => simp [spanDigits, hrest c rfl]
  | cons c cs ih =>
    rw [List.all_cons, Bool.and_eq_true] at hds
    simp [spanDigits, hds.1, ih hds.2]

theorem readExponent_of_ends (hrest : EndsNumber rest) : readExponent n rest = (.number n, rest) := by
  unfold readExponent
  simp only
  split
  · exact absurd rfl (hrest 'e' rfl).2.2.1
  · exact absurd rfl (hrest 'E' rfl).2.2.2
  · rfl

/-- What follows the whole part of a number. -/
def afterWhole (negative : Bool) (whole : List Char) : List Symbol → Tree × List Symbol
  | .char '.' :: rest =>
    match spanDigits rest with
    | ([], rest) => (.unread (digitStop rest), rest)
    | (fraction, rest) => readExponent ⟨negative, whole, fraction, []⟩ rest
  | rest => readExponent ⟨negative, whole, [], []⟩ rest

theorem readNumber_of_span {negative : Bool} {input : List Symbol} (hn : n.IsPlain)
    (hspan : spanDigits input = (n.whole, rest)) :
    readNumber negative input = afterWhole negative n.whole rest := by
  unfold readNumber
  rw [hspan]
  split
  · next heq =>
    exact absurd (congrArg Prod.fst heq) hn.whole_ne_nil
  · next heq =>
    have hzero : n.whole = '0' :: _ :: _ := congrArg Prod.fst heq
    have halone := hn.leading (by rw [hzero]; rfl)
    rw [halone] at hzero
    cases hzero
  · next heq =>
    obtain ⟨rfl, rfl⟩ := Prod.mk.inj heq
    rfl

/-- The text of a literal, behind its sign. An exponent may follow. -/
theorem readNumber_unsigned (hn : n.IsPlain) (hrest : EndsDigits rest) :
    readNumber n.negative
      ((n.whole ++ if n.fraction.isEmpty then [] else '.' :: n.fraction).map Symbol.char ++ rest) =
      readExponent n rest := by
  have hdigit (c : Char) (h : rest.head? = some (.char c)) : c.isDigit = false := (hrest c h).1
  obtain ⟨negative, whole, fraction, exponent⟩ := n
  obtain rfl : exponent = [] := hn.exponent_nil
  cases fraction with
  | nil =>
    simp only [List.isEmpty_nil, if_true, List.append_nil]
    rw [readNumber_of_span hn (spanDigits_append hn.whole_digits hdigit)]
    unfold afterWhole
    split
    · exact absurd rfl (hrest '.' rfl).2
    · rfl
  | cons c cs =>
    have hpoint (d : Char) (h : (Symbol.char '.' :: ((c :: cs).map Symbol.char ++ rest)).head? =
        some (.char d)) : d.isDigit = false := by
      cases h
      decide
    have hsplit : (whole ++ '.' :: c :: cs).map Symbol.char ++ rest =
        whole.map Symbol.char ++ (.char '.' :: ((c :: cs).map Symbol.char ++ rest)) := by
      simp
    simp only [List.isEmpty_cons, Bool.false_eq_true, if_false]
    rw [hsplit, readNumber_of_span hn (spanDigits_append hn.whole_digits hpoint), afterWhole,
      spanDigits_append hn.fraction_digits hdigit]

theorem skipSpace_of_head {s : Symbol} (h : isSpace s = false) :
    skipSpace (s :: rest) = s :: rest := by
  rw [skipSpace, List.dropWhile_cons, h]
  rfl

/-- The text of a literal is read as the literal and the exponent that follows. -/
theorem readValue_mantissa (hn : n.IsPlain) (hrest : EndsDigits rest) (fuel : ℕ) :
    readValue (fuel + 1) (n.text.map Symbol.char ++ rest) = readExponent n rest := by
  have hnumber := readNumber_unsigned hn hrest
  have htext : n.text = (if n.negative then ['-'] else []) ++
      (n.whole ++ if n.fraction.isEmpty then [] else '.' :: n.fraction) := by
    simp [Numeral.text, hn.exponent_nil]
  obtain ⟨c, cs, hwhole, hdigit⟩ := hn.exists_whole_eq
  rw [htext]
  cases hsign : n.negative with
  | true =>
    rw [hsign] at hnumber
    simp only [if_true, List.map_append, List.map_cons, List.cons_append, List.nil_append]
      at hnumber ⊢
    rw [readValue, skipSpace_of_head (by decide)]
    simpa using hnumber
  | false =>
    have hne (d : Char) (hd : d.isDigit = false) : c ≠ d := Text.ne_of_isDigit hdigit hd
    have hspace : isSpace (.char c) = false := by
      simp [isSpace, hne ' ' (by decide), hne '\n' (by decide), hne '\t' (by decide),
        hne '\r' (by decide)]
    rw [hsign, hwhole] at hnumber
    rw [hwhole]
    simp only [Bool.false_eq_true, if_false, List.nil_append, List.cons_append, List.map_cons]
      at hnumber ⊢
    rw [readValue, skipSpace_of_head hspace]
    simp only [if_neg (hne '\x7b' (by decide)), if_neg (hne '[' (by decide)),
      if_neg (hne '\x22' (by decide)), if_neg (hne 'n' (by decide)),
      if_neg (hne 't' (by decide)), if_neg (hne 'f' (by decide)),
      if_neg (hne '-' (by decide)), if_pos hdigit]
    exact hnumber

/-- The text of a literal is read as the literal. -/
theorem readValue_text (hn : n.IsPlain) (hrest : EndsNumber rest) (fuel : ℕ) :
    readValue (fuel + 1) (n.text.map Symbol.char ++ rest) = (.number n, rest) :=
  (readValue_mantissa hn hrest.endsDigits fuel).trans (readExponent_of_ends hrest)

namespace Numeral

/-! ### Whole numbers -/

/-- A whole number that 64 bits hold. Negative zero is none. -/
def IsWord (n : Numeral) : Prop :=
  n.fraction = [] ∧
    if n.negative then n.significand ≠ 0 ∧ n.significand ≤ maxNegative else n.significand ≤ maxWhole

instance (n : Numeral) : Decidable n.IsWord := inferInstanceAs (Decidable (_ ∧ _))

theorem IsPlain.toInt?_of_fraction_nil (hn : n.IsPlain) (h : n.fraction = []) :
    n.toInt? =
      if n.negative then
        if n.significand ≠ 0 ∧ n.significand ≤ maxNegative then some (-(n.significand : ℤ)) else none
      else if n.significand ≤ maxWhole then some (n.significand : ℤ) else none := by
  have hwhole : Text.digits? n.whole = some n.significand := by
    rw [significand, h, List.append_nil]
    exact if_pos ⟨hn.whole_ne_nil, hn.whole_digits⟩
  rw [toInt?, h, hn.exponent_nil, hwhole]
  rfl

theorem IsPlain.toInt?_of_isWord (hn : n.IsPlain) (h : n.IsWord) :
    n.toInt? = some (if n.negative then -(n.significand : ℤ) else n.significand) := by
  obtain ⟨hnil, hfits⟩ := h
  rw [hn.toInt?_of_fraction_nil hnil]
  cases hsign : n.negative with
  | true =>
    rw [hsign] at hfits
    simp only [if_true] at hfits ⊢
    rw [if_pos hfits]
  | false =>
    rw [hsign] at hfits
    simp only [Bool.false_eq_true, if_false] at hfits ⊢
    rw [if_pos hfits]

theorem IsPlain.toInt?_of_not_isWord (hn : n.IsPlain) (h : ¬n.IsWord) : n.toInt? = none := by
  by_cases hnil : n.fraction = []
  · rw [hn.toInt?_of_fraction_nil hnil]
    have hfits := fun hfits => h ⟨hnil, hfits⟩
    cases hsign : n.negative with
    | true =>
      rw [hsign] at hfits
      exact if_neg hfits
    | false =>
      rw [hsign] at hfits
      exact if_neg hfits
  · simp [toInt?, hnil]

end Numeral

end DepositSync.Json
