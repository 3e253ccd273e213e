import DepositSync.Proofs.AmountText
import DepositSync.Proofs.NumeralDouble
import DepositSync.Proofs.RecordReading
import DepositSync.Vendor.Report
import DepositSync.Web.Event

/-!
# DepositSync.Proofs.MoneyReading

Amounts of money in what the vendor sends: what becomes of a number in a payload or in a report.

A whole number that fits 64 bits is taken as it is. Any other number goes through a double, and then
through the shortest decimal of that double. On this way it is rounded up to four times, and what the
amount has to do with the literal (`IsReadAs`) is read off two facts: the decimal is within a small part
of the literal (`within_written`), and the amount is the one with 28 places nearest to the decimal. Where
the decimal is off by less than half a unit of the 28th place, the amount is the literal again. This is
so for the safe literals (`IsSafe`): either the decimal has too few digits to be off at all, or the
literal is so small that a small part of it does not matter.

The records around the amount play no part: a payload or a report is read as it would be with another
number in the place (`PayloadTakes`, `ReportTakes`).
-/

namespace DepositSync

namespace Json.Numeral

open Binary64 (Within roundingFactor nearest?)
open Decimal (ratio maxMantissa maxScale ReadsNear ofParts)

variable {n : Numeral}

/-! ### One literal -/

/-- By how much of itself an amount may change on its way through a double. -/
def tolerance : ℚ := 9 / 2 ^ 54

/-- The literals that keep their value: whole numbers that fit 64 bits, numbers with at most fifteen
digits and 22 places, and those with at most fifteen digits when 28 places are written. -/
def IsSafe (n : Numeral) : Prop :=
  (n.fraction = [] ∧ n.significand ≤ if n.negative then maxNegative else maxWhole) ∨
    (n.significand < 10 ^ 15 ∧ n.fraction.length ≤ 22) ∨
    n.significand * 10 ^ (maxScale - n.fraction.length) < 10 ^ 15

instance (n : Numeral) : Decidable n.IsSafe := inferInstanceAs (Decidable (_ ∨ _))

/-- What an amount has to do with the literal it is read from. -/
structure IsReadAs (n : Numeral) (d : Decimal) : Prop where
  valid : d.Valid
  near : |d.toRat - n.value| ≤ tolerance * n.magnitude + 1 / 2 / 10 ^ maxScale
  exact : n.IsSafe → d.toRat = n.value

theorem decimal_of_isWord (hn : n.IsPlain) (h : n.IsWord) :
    decimal (.number n) = .ok (Decimal.ofInt (if n.negative then -(n.significand : ℤ)
      else n.significand)) := by
  rw [decimal, hn.toInt?_of_isWord h]

theorem decimal_of_toBinary64? (hn : n.IsPlain) (h : ¬n.IsWord) {x : Binary64}
    (hx : n.toBinary64? = some x) :
    decimal (.number n) =
      ((Decimal.ofDouble? n.negative x).map Except.ok).getD (.error .mismatched) := by
  rw [decimal, hn.toInt?_of_not_isWord h, hx]

theorem toRat_ofInt (i : ℤ) : (Decimal.ofInt i).toRat = i := by
  rcases lt_or_ge i 0 with h | h
  · obtain ⟨k, rfl⟩ := Int.eq_negSucc_of_lt_zero h
    simp [Decimal.toRat, Decimal.ofInt, ratio]
  · obtain ⟨k, rfl⟩ := Int.eq_ofNat_of_zero_le h
    simp [Decimal.toRat, Decimal.ofInt, ratio]

theorem valid_ofInt {i : ℤ} (h : i.natAbs ≤ maxMantissa) : (Decimal.ofInt i).Valid := by
  refine ⟨h, Nat.zero_le _, fun hnegative => ?_⟩
  have hlt : i < 0 := by simpa [Decimal.ofInt] using hnegative
  exact Int.natAbs_ne_zero.mpr hlt.ne

theorem isReadAs_of_toRat_eq {d : Decimal} (hd : d.Valid) (h : d.toRat = n.value) :
    n.IsReadAs d := by
  refine ⟨hd, ?_, fun _ => h⟩
  rw [h, sub_self, abs_zero]
  have hmagnitude := n.magnitude_nonneg
  have htolerance : 0 ≤ tolerance := by norm_num [tolerance]
  positivity

/-- A whole number that fits 64 bits is read exactly. -/
theorem isReadAs_of_isWord (h : n.IsWord) (hmax : n.significand ≤ maxMantissa) :
    n.IsReadAs (Decimal.ofInt (if n.negative then -(n.significand : ℤ) else n.significand)) := by
  have hvalue : n.value = ((if n.negative then -(n.significand : ℤ) else n.significand : ℤ) : ℚ) := by
    rw [value, magnitude, h.1, ratio]
    cases n.negative <;> simp
  refine isReadAs_of_toRat_eq (valid_ofInt ?_) (by rw [toRat_ofInt, hvalue])
  cases n.negative <;> simpa using hmax

/-! ### Through a double -/

theorem within_written {x : Binary64} (hx : x.Canonical) (hfull : 2 ^ 52 ≤ x.significand)
    (h : Within readingFactor n.magnitude x.toRat) :
    Within (1 + tolerance) n.magnitude x.shortest.toRat := by
  have hfactor : readingFactor * roundingFactor ≤ 1 + tolerance := by
    norm_num [readingFactor, truncationFactor, roundingFactor, tolerance]
  have hreading : 0 ≤ readingFactor := by
    norm_num [readingFactor, truncationFactor, roundingFactor]
  exact (h.trans (Binary64.within_shortest hx hfull) hreading roundingFactor_pos.le).mono hfactor
    n.magnitude_nonneg x.shortest.toRat_nonneg

/-- The sign is kept apart, so it is enough to compare magnitudes. -/
theorem abs_toRat_ofParts_sub (n : Numeral) (m k : ℕ) :
    |(ofParts n.negative m k).toRat - n.value| = |ratio m k - n.magnitude| := by
  rw [Decimal.toRat_ofParts, value]
  cases n.negative with
  | true => simp [abs_sub_comm, neg_add_eq_sub]
  | false => simp

theorem toRat_ofParts_eq_value {m k : ℕ} (h : ratio m k = n.magnitude) :
    (ofParts n.negative m k).toRat = n.value := by
  rw [Decimal.toRat_ofParts, value, h]

/-- What is written for the double of a safe literal is the literal, or nearer to it than half a
unit of the last place. -/
theorem IsSafe.abs_shortest_sub_lt {x : Binary64} (hsafe : n.IsSafe) (hn : n.IsPlain)
    (hword : ¬n.IsWord) (hpos : 0 < n.significand) (hplaces : n.fraction.length ≤ maxScale)
    (hx : n.toBinary64? = some x) (hfull : 2 ^ 52 ≤ x.significand)
    (hwritten : Within (1 + tolerance) n.magnitude x.shortest.toRat) :
    |x.shortest.toRat - n.magnitude| < 1 / 2 / 10 ^ maxScale := by
  rcases hsafe with ⟨hnil, hfits⟩ | ⟨hfew, hshort⟩ | htiny
  · -- only negative zero is whole, fits and is no word
    refine absurd ⟨hnil, ?_⟩ hword
    cases hsign : n.negative with
    | true =>
      rw [hsign] at hfits
      exact ⟨hpos.ne', hfits⟩
    | false =>
      rw [hsign] at hfits
      exact hfits
  · rw [hn.toBinary64?_eq_nearest? hfew hshort, magnitude_eq] at hx
    rw [Binary64.toRat_shortest_of_lt hfull hfew hx, magnitude_eq, sub_self, abs_zero]
    positivity
  · refine (hwritten.abs_sub_le (by norm_num [tolerance]) n.magnitude_nonneg).trans_lt ?_
    have hpow : (0 : ℚ) < 10 ^ maxScale := by positivity
    have hunits : n.magnitude =
        (n.significand * 10 ^ (maxScale - n.fraction.length) : ℕ) / 10 ^ maxScale := by
      rw [magnitude, ratio, ← Nat.add_sub_cancel' hplaces, pow_add, Nat.add_sub_cancel_left]
      push_cast
      field_simp
    have htiny' : ((n.significand * 10 ^ (maxScale - n.fraction.length) : ℕ) : ℚ) < 10 ^ 15 := by
      exact_mod_cast htiny
    rw [hunits, ← mul_div_assoc, div_lt_div_iff_of_pos_right hpow, tolerance]
    linarith

theorem IsSafe.significand_lt (hsafe : n.IsSafe) : n.significand < 2 ^ 64 := by
  rcases hsafe with ⟨-, hfits⟩ | ⟨hfew, -⟩ | htiny
  · have hword : (if n.negative then maxNegative else maxWhole) < 2 ^ 64 := by
      cases n.negative <;> decide
    exact hfits.trans_lt hword
  · exact hfew.trans (by decide)
  · have hle := Nat.le_mul_of_pos_right n.significand
      (Nat.pow_pos (n := maxScale - n.fraction.length) (by decide : 0 < 10))
    exact (hle.trans_lt htiny).trans (by decide)

/-- A safe literal is far from the largest amount. -/
theorem not_isSafe_of_lt (h : maxMantissa < (1 + tolerance) * n.magnitude) : ¬n.IsSafe := by
  intro hsafe
  have hlt : (n.significand : ℚ) < 2 ^ 64 := by exact_mod_cast hsafe.significand_lt
  have hle := n.magnitude_le_significand
  rw [Decimal.maxMantissa_eq, tolerance] at h
  norm_num at h
  linarith

/-- A literal that is not zero and no word is read through a double. -/
theorem IsPlain.decimal_of_pos (hn : n.IsPlain) (hword : ¬n.IsWord) (hpos : 0 < n.significand)
    (hmax : n.significand ≤ maxMantissa) (hplaces : n.fraction.length ≤ maxScale) :
    (∃ d, decimal (.number n) = .ok d ∧ n.IsReadAs d) ∨
      decimal (.number n) = .error .mismatched ∧
        maxMantissa < (1 + tolerance) * n.magnitude := by
  obtain ⟨x, hx, hcanonical, hfull, hwithin⟩ := hn.toBinary64?_within hpos hmax hplaces
  have hwritten := within_written hcanonical hfull hwithin
  have hdigits : x.shortest.digits < maxMantissa :=
    (Binary64.digits_shortest_le hcanonical (by omega)).trans_lt (by decide)
  rw [decimal_of_toBinary64? hn hword hx, Decimal.ofDouble?_eq]
  rcases le_or_gt x.shortest.toRat maxMantissa with hle | hover
  · obtain ⟨m, k, htext, hnear⟩ := Decimal.ofText?_signed hdigits hle n.negative
    refine .inl ⟨ofParts n.negative m k, by rw [htext]; rfl,
      Decimal.valid_ofParts hnear.mantissa_le hnear.scale_le, ?_, fun hsafe => ?_⟩
    · rw [abs_toRat_ofParts_sub]
      have herror := hwritten.abs_sub_le (by norm_num [tolerance]) n.magnitude_nonneg
      have htriangle := abs_sub_le (ratio m k) x.shortest.toRat n.magnitude
      have hround := hnear.near
      linarith
    · refine toRat_ofParts_eq_value (hnear.eq hplaces ?_)
      exact hsafe.abs_shortest_sub_lt hn hword hpos hplaces hx hfull hwritten
  · refine .inr ⟨?_, hover.trans_le hwritten.upper⟩
    rw [Decimal.ofText?_signed_eq_none hdigits hover]
    rfl

/-- Zero with a sign, or with places, is read as zero. -/
theorem IsPlain.decimal_of_zero (hn : n.IsPlain) (hword : ¬n.IsWord) (hzero : n.significand = 0)
    (hplaces : n.fraction.length ≤ maxScale) :
    decimal (.number n) = .ok (ofParts n.negative 0 0) := by
  rw [decimal_of_toBinary64? hn hword (hn.toBinary64?_of_zero hzero hplaces)]
  cases n.negative <;> rfl

/-- Every literal is read as an amount near it, and a safe one as itself. Only next to the largest
amount a literal can be refused. -/
theorem IsPlain.decimal_cases (hn : n.IsPlain) (hmax : n.significand ≤ maxMantissa)
    (hplaces : n.fraction.length ≤ maxScale) :
    (∃ d, decimal (.number n) = .ok d ∧ n.IsReadAs d) ∨
      decimal (.number n) = .error .mismatched ∧
        maxMantissa < (1 + tolerance) * n.magnitude := by
  by_cases hword : n.IsWord
  · exact .inl ⟨_, decimal_of_isWord hn hword, isReadAs_of_isWord hword hmax⟩
  rcases n.significand.eq_zero_or_pos with hzero | hpos
  · refine .inl ⟨_, hn.decimal_of_zero hword hzero hplaces, isReadAs_of_toRat_eq ?_ ?_⟩
    · exact Decimal.valid_ofParts (Nat.zero_le _) (Nat.zero_le _)
    · exact toRat_ofParts_eq_value (by simp [magnitude, ratio, hzero])
  · exact hn.decimal_of_pos hword hpos hmax hplaces

end Json.Numeral

open Json (Tree ReadError FieldPlace Numeral)

/-! ### The records with amounts -/

/-- A field that has nothing to do with the place. -/
theorem spares_field {α β γ : Type} {set : α → β → α} {name : String} {absence : Absence}
    {read : Tree → Except ReadError γ} {put : α → γ → α}
    (h : ∀ a b c, put (set a b) c = set (put a c) b) (t : Tree) (a : α) (b : β) :
    (field name absence read put).read t (set a b) =
      ((field name absence read put).read t a).map (set · b) := by
  simp only [field]
  cases read t with
  | error e => rfl
  | ok c => exact congrArg Except.ok (h a b c)

namespace Web.Payload

/-- The payload with another amount. -/
def withAmount (p : Payload) (x : Option Decimal) : Payload := { p with amount := x }

theorem place_amount : FieldPlace fields "amount" (Json.optional Json.decimal) withAmount := by
  refine ⟨by decide, ?_, ?_, fun _ _ _ => rfl⟩
  · intro f hf hname
    simp only [fields, List.mem_cons, List.not_mem_nil, or_false] at hf
    rcases hf with rfl | rfl | rfl | rfl | rfl | rfl | rfl | rfl <;>
      first | exact absurd hname (by decide) | exact fun _ _ => rfl
  · intro f hf hname
    simp only [fields, List.mem_cons, List.not_mem_nil, or_false] at hf
    rcases hf with rfl | rfl | rfl | rfl | rfl | rfl | rfl | rfl <;>
      first | exact absurd rfl hname | exact spares_field fun _ _ _ => rfl

end Web.Payload

/-- The literal of a whole zero. -/
def zeroLiteral : Tree := .number (Numeral.ofInt 0)

/-- The only field of an amount of money. -/
def moneyFields : List (Field Tree ReadError Decimal) :=
  [field "amount" .defaulted Json.decimal fun _ x => x]

theorem place_money : FieldPlace moneyFields "amount" Json.decimal fun _ x => x := by
  refine ⟨by decide, ?_, ?_, fun _ _ _ => rfl⟩
  · intro f hf _
    rw [List.mem_singleton.mp hf]
    exact fun _ _ => rfl
  · intro f hf hname
    rw [List.mem_singleton.mp hf] at hname
    exact absurd rfl hname

namespace NetWorth

/-- The amounts of a report: the names of their members, and their places. -/
def amounts : List (String × (NetWorth → Decimal → NetWorth)) := [
  ("totalInvestedAmount", fun r x => { r with invested := x }),
  ("totalInterestEarned", fun r x => { r with interest := x }),
  ("currentAmount", fun r x => { r with current := x })]

theorem place_amounts {name : String} {set : NetWorth → Decimal → NetWorth}
    (h : (name, set) ∈ amounts) : FieldPlace reportFields name readMoney set := by
  simp only [amounts, List.mem_cons, List.not_mem_nil, or_false, Prod.mk.injEq] at h
  refine ⟨by decide, ?_, ?_, ?_⟩
  · intro f hf hname
    simp only [reportFields, List.mem_cons, List.not_mem_nil, or_false] at hf
    rcases h with ⟨rfl, rfl⟩ | ⟨rfl, rfl⟩ | ⟨rfl, rfl⟩ <;> rcases hf with rfl | rfl | rfl | rfl <;>
      first | exact absurd hname (by decide) | exact fun _ _ => rfl
  · intro f hf hname
    simp only [reportFields, List.mem_cons, List.not_mem_nil, or_false] at hf
    rcases h with ⟨rfl, rfl⟩ | ⟨rfl, rfl⟩ | ⟨rfl, rfl⟩ <;> rcases hf with rfl | rfl | rfl | rfl <;>
      first | exact absurd rfl hname | exact spares_field fun _ _ _ => rfl
  · rcases h with ⟨-, rfl⟩ | ⟨-, rfl⟩ | ⟨-, rfl⟩ <;> exact fun _ _ _ => rfl

end NetWorth

/-! ### Money -/

/-- Wherever a payload has the literal as its amount, it is read as it would be without an amount,
and then has this one. -/
def PayloadTakes (n : Numeral) (d : Decimal) : Prop :=
  ∀ t : Tree, t.member? (Web.Payload.fields.map Field.name) "amount" = some (.number n) →
    Web.Payload.ofJson t =
      (Web.Payload.ofJson (t.withMember (Web.Payload.fields.map Field.name) "amount" .null)).map
        (·.withAmount (some d))

/-- Wherever a report has the literal in one of its amounts, it is read as it would be with zero
there, and then has this amount in the place. -/
def ReportTakes (n : Numeral) (d : Decimal) : Prop :=
  ∀ name set, (name, set) ∈ NetWorth.amounts → ∀ t money : Tree,
    t.member? (NetWorth.reportFields.map Field.name) name = some money →
    money.member? (moneyFields.map Field.name) "amount" = some (.number n) →
    NetWorth.ofReport t =
      (NetWorth.ofReport (t.withMember (NetWorth.reportFields.map Field.name) name
        (money.withMember (moneyFields.map Field.name) "amount" zeroLiteral))).map (set · d)

variable {n : Numeral} {d : Decimal}

theorem payloadTakes (h : Json.decimal (.number n) = .ok d) : PayloadTakes n d := by
  intro t hmember
  refine Json.record_withMember Web.Payload.place_amount ?_ (by decide) hmember
  simp only [Json.optional, h]
  rfl

theorem reportTakes (h : Json.decimal (.number n) = .ok d) : ReportTakes n d := by
  intro name set hname t money hmember hamount
  refine Json.record_withMember (NetWorth.place_amounts hname) ?_ ?_ hmember
  · refine Json.record_withMember place_money ?_ (by decide) hamount
    rw [h]
    rfl
  · simp only [NetWorth.amounts, List.mem_cons, List.not_mem_nil, or_false, Prod.mk.injEq] at hname
    rcases hname with ⟨rfl, -⟩ | ⟨rfl, -⟩ | ⟨rfl, -⟩ <;> decide

/-- An amount of money follows its literal, in a payload and in each place of a report. The text of a
literal is read as the literal, and the amount is near it, or equal to it if it is safe. Only next to
the largest amount there is a literal can be refused. -/
theorem money_follows_literals (hn : n.IsPlain) (hmax : n.significand ≤ Decimal.maxMantissa)
    (hplaces : n.fraction.length ≤ Decimal.maxScale) :
    (∀ fuel rest, Json.EndsNumber rest →
      Json.readValue (fuel + 1) (n.text.map Text.Symbol.char ++ rest) = (.number n, rest)) ∧
    ((∃ d, Json.decimal (.number n) = .ok d ∧ n.IsReadAs d ∧ PayloadTakes n d ∧
        ReportTakes n d) ∨
      (Json.decimal (.number n) = .error .mismatched ∧
        Decimal.maxMantissa < (1 + Numeral.tolerance) * n.magnitude ∧ ¬n.IsSafe)) := by
  refine ⟨fun fuel rest hrest => Json.readValue_text hn hrest fuel, ?_⟩
  rcases hn.decimal_cases hmax hplaces with ⟨d, hread, hd⟩ | ⟨hrefused, hlarge⟩
  · exact .inl ⟨d, hread, hd, payloadTakes hread, reportTakes hread⟩
  · exact .inr ⟨hrefused, hlarge, Numeral.not_isSafe_of_lt hlarge⟩

/-- An amount of 25000.5. -/
def halfUnitLiteral : Numeral := ⟨false, ['2', '5', '0', '0', '0'], ['5'], []⟩

theorem money_follows_literals_halfUnit :
    halfUnitLiteral.IsPlain ∧ halfUnitLiteral.IsSafe ∧
    ((∀ fuel rest, Json.EndsNumber rest →
      Json.readValue (fuel + 1) (halfUnitLiteral.text.map Text.Symbol.char ++ rest) =
        (.number halfUnitLiteral, rest)) ∧
    ((∃ d, Json.decimal (.number halfUnitLiteral) = .ok d ∧ halfUnitLiteral.IsReadAs d ∧
        PayloadTakes halfUnitLiteral d ∧ ReportTakes halfUnitLiteral d) ∨
      (Json.decimal (.number halfUnitLiteral) = .error .mismatched ∧
        Decimal.maxMantissa < (1 + Numeral.tolerance) * halfUnitLiteral.magnitude ∧
        ¬halfUnitLiteral.IsSafe))) := by
  have hplain : halfUnitLiteral.IsPlain := ⟨by decide, by decide, by decide, by decide, rfl⟩
  exact ⟨hplain, by decide, money_follows_literals hplain (by decide) (by decide)⟩

/-- One hundredth more than two to the power of 53 hundredths: no double has all its digits. -/
def longLiteral : Numeral :=
  ⟨false, ['9', '0', '0', '7', '1', '9', '9', '2', '5', '4', '7', '4', '0', '9'], ['9', '3'], []⟩

/-- A payload with this amount, and nothing else. -/
def longPayload : Tree :=
  .object [(⟨['a', 'm', 'o', 'u', 'n', 't'].map .char, .closed⟩, .number longLiteral)] .closed

/-- A literal can lose its last digit, however well it fits an amount. -/
theorem long_literal_is_changed :
    String.ofList longLiteral.text = "90071992547409.93" ∧
    longLiteral.IsPlain ∧ longLiteral.significand ≤ Decimal.maxMantissa ∧
    longLiteral.fraction.length ≤ Decimal.maxScale ∧
    longPayload.member? (Web.Payload.fields.map Field.name) "amount" = some (.number longLiteral) ∧
    Web.Payload.ofJson longPayload =
      .ok (Web.Payload.blank.withAmount (some ⟨false, 9007199254740992, 2⟩)) ∧
    (⟨false, 9007199254740992, 2⟩ : Decimal).toRat ≠ longLiteral.value := by
  refine ⟨by decide, ⟨by decide, by decide, by decide, by decide, rfl⟩, by decide, by decide, ?_,
    by decide +kernel, ?_⟩
  · rw [longPayload, Json.Tree.member?, List.find?_cons_of_pos (by decide)]
    rfl
  · have hsignificand : longLiteral.significand = 9007199254740993 := by decide
    have hplaces : longLiteral.fraction.length = 2 := rfl
    have hsign : longLiteral.negative = false := rfl
    rw [Numeral.value, hsign, Numeral.magnitude, hsignificand, hplaces]
    norm_num [Decimal.toRat, Decimal.ratio]

end DepositSync
