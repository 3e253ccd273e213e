import DepositSync.Proofs.TenureGrammar

/-!
# DepositSync.Proofs.TenureText

Terms as texts. Reading folds a long day count into months and so comes to terms of one form only
(`IsNormal`); on these, reading undoes writing (`parse_text`). A term that has been read can therefore
be written and read again any number of times, and stays what it is.

That a folded term is normal has one reason: a day count that is folded comes to at least one month,
and never to more months than there were days (`one_le_monthsNearest`, `monthsNearest_le`).
-/

namespace DepositSync

namespace Tenure

open Text

/-- A term as reading leaves it: its numbers are in range, and days alone are no more than a month
has. -/
structure IsNormal (t : Tenure) : Prop where
  months_nonneg : 0 ≤ t.months
  months_le : t.months ≤ maxCount
  days_nonneg : 0 ≤ t.days
  days_le : t.days ≤ maxCount
  days_le_of_months : t.months = 0 → t.days ≤ 31

/-- The term as text, in the way in which the vendor writes it. -/
def text (t : Tenure) : String :=
  String.ofList (ofInt t.months ++ 'm' :: (ofInt t.days ++ ['d']))

/-! ### Folding -/

theorem one_le_monthsNearest {d : Nat} (h : 31 < d) : 1 ≤ monthsNearest d := by
  unfold monthsNearest
  omega

theorem monthsNearest_le (d : Nat) : monthsNearest d ≤ d := by
  unfold monthsNearest
  omega

theorem monthsNearest_mono {d d' : Nat} (h : d ≤ d') : monthsNearest d ≤ monthsNearest d' := by
  unfold monthsNearest
  omega

theorem isNormal_folded {m d : Nat} (hm : m ≤ maxCount) (hd : d ≤ maxCount) :
    (Tenure.folded m d).IsNormal := by
  by_cases hlong : m = 0 ∧ 31 < d
  · obtain ⟨rfl, hlong⟩ := hlong
    have hone := one_le_monthsNearest hlong
    have hle := monthsNearest_le d
    rw [folded_of_long hlong]
    constructor <;> dsimp only <;> omega
  · rw [folded_of_plain fun hzero => not_lt.mp fun hd => hlong ⟨hzero, hd⟩]
    constructor <;> dsimp only <;> omega

theorem isNormal_of_parse {raw : String} {t : Tenure} (h : parse raw = .ok t) : t.IsNormal := by
  have hreads := reads_parse (isTrimmed_trimmed raw.toList)
  rw [h] at hreads
  cases hreads with
  | empty _ => constructor <;> decide
  | plain months days m d _ hm hd hplain =>
      rw [← folded_of_plain hplain]
      exact isNormal_folded hm.le hd.le
  | folded months days m d _ hm hd hlong hnearest =>
      rw [← isNearestMonths_iff.mp hnearest, ← folded_of_long hlong]
      exact isNormal_folded hm.le hd.le

/-! ### Writing -/

theorem isNumber_ofNat (n : Nat) : IsNumber (ofNat n) n := digits?_eq_some_iff.mp (digits?_ofNat n)

theorem isBlank_of_isDigit {c : Char} (h : c.isDigit = true) : isBlank c = false := by
  have hlow : 48 ≤ c.toNat := (Char.isDigit_iff_toNat.mp h).1
  have hhigh : c.toNat ≤ 57 := (Char.isDigit_iff_toNat.mp h).2
  simp only [isBlank, Bool.or_eq_false_iff, Bool.and_eq_false_iff, decide_eq_false_iff_not,
    beq_eq_false_iff_ne]
  omega

/-- A written term begins with a digit and ends with its last letter. -/
theorem isTrimmed_text (m d : Nat) :
    IsTrimmed (ofNat m ++ 'm' :: (ofNat d ++ ['d'])) (ofNat m ++ 'm' :: (ofNat d ++ ['d'])) := by
  have hm := isNumber_ofNat m
  refine ⟨⟨[], [], by simp, nofun, nofun⟩, ?_, ?_⟩
  · intro c hc
    rw [List.head?_append_of_ne_nil _ hm.ne_nil] at hc
    exact isBlank_of_isDigit (hm.digits c (List.mem_of_head? hc))
  · intro c hc
    rw [← List.cons_append, ← List.append_assoc, List.getLast?_concat] at hc
    obtain rfl := Option.some.inj hc
    rfl

theorem hasForm_text (m d : Nat) :
    HasForm (ofNat m ++ 'm' :: (ofNat d ++ ['d'])) (ofNat m) (ofNat d) := by
  refine ⟨rfl, fun hmem => ?_⟩
  have hdigit := (isNumber_ofNat m).digits 'm' hmem
  cases hdigit

/-- What two counts are read as when they are written one after the other. -/
theorem parse_text_counts {m d : Nat} (hm : m ≤ maxCount) (hd : d ≤ maxCount) :
    parse (text ⟨m, d⟩) = .ok (Tenure.folded m d) := by
  have htext : (text ⟨m, d⟩).toList = ofNat m ++ 'm' :: (ofNat d ++ ['d']) := by
    rw [text, String.toList_ofList]
    rfl
  have htrimmed : IsTrimmed (text ⟨m, d⟩).toList (ofNat m ++ 'm' :: (ofNat d ++ ['d'])) := by
    rw [htext]
    exact isTrimmed_text m d
  exact parse_of_counts htrimmed (hasForm_text m d) (.unsigned (isNumber_ofNat m) hm)
    (.unsigned (isNumber_ofNat d) hd)

/-- Reading undoes writing. -/
theorem parse_text {t : Tenure} (h : t.IsNormal) : parse t.text = .ok t := by
  obtain ⟨months, days⟩ := t
  obtain ⟨hm, hmle, hd, hdle, hplain⟩ := h
  obtain ⟨m, rfl⟩ := Int.eq_ofNat_of_zero_le hm
  obtain ⟨d, rfl⟩ := Int.eq_ofNat_of_zero_le hd
  dsimp only at hmle hdle hplain
  rw [parse_text_counts (by omega) (by omega), folded_of_plain (by omega)]

/-- **Terms have a normal form.** Every term that is read is normal, and a normal term that is
written is read as itself; so a term that is read, written and read again does not change. Days alone,
more than a month has, are read as one month at least, and more days as no fewer months. -/
theorem tenure_normal_form :
    (∀ raw t, parse raw = .ok t → t.IsNormal) ∧
    (∀ t : Tenure, t.IsNormal → parse t.text = .ok t) ∧
    (∀ raw t, parse raw = .ok t → parse t.text = .ok t) ∧
    ∀ d d' : Nat, 31 < d → d ≤ d' → d' ≤ maxCount →
      ∃ m m' : Nat, parse (text ⟨0, d⟩) = .ok ⟨m, 0⟩ ∧ parse (text ⟨0, d'⟩) = .ok ⟨m', 0⟩ ∧
        1 ≤ m ∧ m ≤ m' := by
  refine ⟨fun raw t => isNormal_of_parse, fun t => parse_text,
    fun raw t h => parse_text (isNormal_of_parse h), fun d d' hlong hle hmax => ?_⟩
  have hparse (n : Nat) (hn : 31 < n) (hmax : n ≤ maxCount) :
      parse (text ⟨0, n⟩) = .ok ⟨monthsNearest n, 0⟩ := by
    rw [← folded_of_long hn]
    exact parse_text_counts (Nat.zero_le _) hmax
  exact ⟨monthsNearest d, monthsNearest d', hparse d hlong (hle.trans hmax),
    hparse d' (hlong.trans_le hle) hmax, one_le_monthsNearest hlong, monthsNearest_mono hle⟩

/-- A term of a few days more than ten years. -/
theorem tenure_normal_form_tenYears :
    let t : Tenure := ⟨120, 5⟩
    t.IsNormal ∧ parse t.text = .ok t ∧ 31 < 3650 ∧ 3650 ≤ 3660 ∧ 3660 ≤ maxCount ∧
      ∃ m m' : Nat, parse (text ⟨0, 3650⟩) = .ok ⟨m, 0⟩ ∧ parse (text ⟨0, 3660⟩) = .ok ⟨m', 0⟩ ∧
        1 ≤ m ∧ m ≤ m' := by
  intro t
  have hnormal : t.IsNormal := by constructor <;> decide
  obtain ⟨-, hwritten, -, hdays⟩ := tenure_normal_form
  exact ⟨hnormal, hwritten t hnormal, by decide, by decide, by decide,
    hdays 3650 3660 (by decide) (by decide) (by decide)⟩

end Tenure

end DepositSync
