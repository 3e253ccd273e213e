import DepositSync.Proofs.Trimming
import DepositSync.Tenure
import Mathlib.Data.Rat.Defs
import Mathlib.Algebra.Order.Field.Rat
import Mathlib.Tactic.Linarith
import Mathlib.Tactic.FieldSimp
import Mathlib.Tactic.NormNum

/-!
# DepositSync.Proofs.TenureGrammar

Which texts are terms, which term they are, and which of the two errors all others get. `Reads` is
the grammar: its cases are told apart by the form of the text alone, without the order in which the
reader looks for its parts.

Reading finds exactly what the grammar says (`parse_eq_iff`). It is enough to show that the parts the
reader cuts out are those of the grammar (`split?_of_hasForm`, `count?_eq_some_iff`) and that the
months of a long day count are the nearest ones (`isNearestMonths_iff`).
-/

namespace DepositSync

namespace Text

/-- One or more decimal digits, and their value. -/
structure IsNumber (cs : List Char) (n : Nat) : Prop where
  ne_nil : cs ≠ []
  digits : ∀ c ∈ cs, c.isDigit = true
  value : Nat.ofDigitChars 10 cs 0 = n

theorem digits?_eq_some_iff {cs : List Char} {n : Nat} :
    digits? cs = some n ↔ IsNumber cs n := by
  unfold digits?
  split
  · next h =>
    rw [Option.some_inj]
    exact ⟨fun hn => ⟨h.1, List.all_eq_true.mp h.2, hn⟩, IsNumber.value⟩
  · next h =>
    refine ⟨nofun, fun hn => absurd ⟨hn.ne_nil, List.all_eq_true.mpr hn.digits⟩ h⟩

end Text

namespace Tenure

open Text

/-! ### The grammar -/

/-- A number of months or days: digits behind one sign or none, up to the largest count. Behind a
minus sign there is nothing but zero. -/
inductive IsCount : List Char → Nat → Prop where
  | unsigned {ds : List Char} {n : Nat} (h : IsNumber ds n) (hn : n ≤ maxCount) : IsCount ds n
  | plus {ds : List Char} {n : Nat} (h : IsNumber ds n) (hn : n ≤ maxCount) : IsCount ('+' :: ds) n
  | minus {ds : List Char} (h : IsNumber ds 0) : IsCount ('-' :: ds) 0

/-- The text has the form of a term: `months` stand before its first `m`, and `days` between this
and the `d` that it ends with. -/
structure HasForm (t months days : List Char) : Prop where
  text : t = months ++ 'm' :: (days ++ ['d'])
  first : 'm' ∉ months

/-- The number of months of 30.417 days that is nearest to a number of days, no other being as
near. -/
def IsNearestMonths (months days : Nat) : Prop :=
  |(months : ℚ) - days / (30417 / 1000)| < 1 / 2

/-- What a text without blanks around it is read as. -/
inductive Reads (t : List Char) : Except TenureError Tenure → Prop where
  | empty (h : t = []) : Reads t (.ok ⟨0, 0⟩)
  | noMonths (hne : t ≠ []) (h : 'm' ∉ t) : Reads t (.error (.malformed (String.ofList t)))
  | noDays (months rest : List Char) (h : t = months ++ 'm' :: rest) (hfirst : 'm' ∉ months)
      (hend : rest.getLast? ≠ some 'd') : Reads t (.error (.malformed (String.ofList t)))
  | notNumeric (months days : List Char) (h : HasForm t months days)
      (hcount : (∀ m, ¬IsCount months m) ∨ ∀ d, ¬IsCount days d) :
      Reads t (.error (.notNumeric (String.ofList t)))
  | plain (months days : List Char) (m d : Nat) (h : HasForm t months days)
      (hm : IsCount months m) (hd : IsCount days d) (hplain : m = 0 → d ≤ 31) :
      Reads t (.ok ⟨m, d⟩)
  | folded (months days : List Char) (m d : Nat) (h : HasForm t months days)
      (hm : IsCount months 0) (hd : IsCount days d) (hlong : 31 < d)
      (hnearest : IsNearestMonths m d) : Reads t (.ok ⟨m, 0⟩)

/-! ### Counts -/

theorem IsCount.le {cs : List Char} {n : Nat} (h : IsCount cs n) : n ≤ maxCount := by
  cases h with
  | unsigned _ hn => exact hn
  | plus _ hn => exact hn
  | minus _ => exact Nat.zero_le _

theorem IsCount.integer? {cs : List Char} {n : Nat} (h : IsCount cs n) :
    Text.integer? cs = some (n : Int) := by
  cases h with
  | @unsigned ds _ h hn =>
      obtain ⟨c, ds, rfl⟩ := List.exists_cons_of_ne_nil h.ne_nil
      have hc := h.digits c List.mem_cons_self
      have hminus : c ≠ '-' := by rintro rfl; cases hc
      have hplus : c ≠ '+' := by rintro rfl; cases hc
      simp [Text.integer?, Text.natural?, hminus, hplus, digits?_eq_some_iff.mpr h]
  | plus h hn => simp [Text.integer?, Text.natural?, digits?_eq_some_iff.mpr h]
  | minus h => simp [Text.integer?, digits?_eq_some_iff.mpr h]

theorem isCount_of_natural? {cs : List Char} {n : Nat} (h : natural? cs = some n)
    (hn : n ≤ maxCount) : IsCount cs n := by
  unfold natural? at h
  split at h
  · exact .plus (digits?_eq_some_iff.mp h) hn
  · exact .unsigned (digits?_eq_some_iff.mp h) hn

theorem isCount_of_integer? {cs : List Char} {i : Int} (h : Text.integer? cs = some i)
    (hlow : 0 ≤ i) (hhigh : i ≤ maxCount) : IsCount cs i.toNat := by
  unfold Text.integer? at h
  split at h
  · next ds =>
    cases hds : digits? ds with
    | none => simp [hds] at h
    | some n =>
        obtain rfl : -(n : Int) = i := by simpa [hds] using h
        obtain rfl : n = 0 := by omega
        exact .minus (digits?_eq_some_iff.mp hds)
  · cases hcs : natural? cs with
    | none => simp [hcs] at h
    | some n =>
        obtain rfl : (n : Int) = i := by simpa [hcs] using h
        exact isCount_of_natural? hcs (by omega)

theorem count?_eq_some_iff {cs : List Char} {n : Nat} : count? cs = some n ↔ IsCount cs n := by
  unfold count?
  constructor
  · intro h
    obtain ⟨i, hi, hrange⟩ := Option.bind_eq_some_iff.mp h
    split at hrange
    · next hle =>
      obtain rfl := Option.some.inj hrange
      exact isCount_of_integer? hi hle.1 hle.2
    · cases hrange
  · intro h
    have hle := h.le
    rw [h.integer?, Option.bind_eq_bind, Option.bind_some, if_pos ⟨by omega, by omega⟩,
      Int.toNat_natCast]

theorem count?_eq_none_iff {cs : List Char} : count? cs = none ↔ ∀ n, ¬IsCount cs n := by
  rw [Option.eq_none_iff_forall_ne_some]
  exact forall_congr' fun n => not_congr count?_eq_some_iff

/-! ### The parts of a term -/

theorem split?_of_not_mem {t : List Char} (h : 'm' ∉ t) : split? t = none := by
  have hrest : t.dropWhile (· != 'm') = [] := by
    rw [List.dropWhile_eq_nil_iff]
    intro c hc
    simpa using ne_of_mem_of_not_mem hc h
  rw [split?, List.span_eq_takeWhile_dropWhile, hrest]

theorem split?_append {months rest : List Char} (h : 'm' ∉ months) :
    split? (months ++ 'm' :: rest) =
      if rest.getLast? = some 'd' then some (months, rest.dropLast) else none := by
  have hpass : ∀ c ∈ months, (c != 'm') = true := by
    intro c hc
    simpa using ne_of_mem_of_not_mem hc h
  rw [split?, List.span_eq_takeWhile_dropWhile, List.takeWhile_append_of_pos hpass,
    List.dropWhile_append_of_pos hpass]
  simp

theorem HasForm.split? {t months days : List Char} (h : HasForm t months days) :
    Tenure.split? t = some (months, days) := by
  rw [h.text, split?_append h.first]
  simp

theorem HasForm.ne_nil {t months days : List Char} (h : HasForm t months days) : t ≠ [] := by
  rw [h.text]
  simp

/-- Every text is empty, has the form of a term, or lacks one of the two letters. -/
theorem form_cases (t : List Char) :
    'm' ∉ t ∨ (∃ months rest, t = months ++ 'm' :: rest ∧ 'm' ∉ months ∧
      rest.getLast? ≠ some 'd') ∨ ∃ months days, HasForm t months days := by
  by_cases hm : 'm' ∈ t
  · obtain ⟨months, rest, rfl, hfirst⟩ := List.eq_append_cons_of_mem hm
    by_cases hend : rest.getLast? = some 'd'
    · obtain ⟨days, rfl⟩ := List.getLast?_eq_some_iff.mp hend
      exact .inr (.inr ⟨months, days, rfl, hfirst⟩)
    · exact .inr (.inl ⟨months, rest, rfl, hfirst, hend⟩)
  · exact .inl hm

/-! ### Months of a day count -/

theorem isNearestMonths_iff {m d : Nat} : IsNearestMonths m d ↔ monthsNearest d = m := by
  have hscaled : |(m : ℚ) - d / (30417 / 1000)| < 1 / 2 ↔
      (2000 * d : ℚ) < (2 * m + 1) * 30417 ∧ (2 * m : ℚ) * 30417 < 2000 * d + 30417 := by
    rw [abs_lt]
    constructor <;> rintro ⟨hlow, hhigh⟩ <;> constructor <;> linarith
  have hwhole : IsNearestMonths m d ↔
      2000 * d < (2 * m + 1) * 30417 ∧ 2 * m * 30417 < 2000 * d + 30417 := by
    rw [IsNearestMonths, hscaled]
    exact_mod_cast Iff.rfl
  rw [hwhole, monthsNearest]
  -- the two bounds are never met with equality, 30417 being odd
  omega

/-! ### Reading -/

variable {raw : String} {t : List Char}

theorem parse_of_split?_eq_none (ht : IsTrimmed raw.toList t) (hne : t ≠ [])
    (hsplit : Tenure.split? t = none) : parse raw = .error (.malformed (String.ofList t)) := by
  simp [parse, ht.eq, hne, hsplit]

theorem parse_of_counts {months days : List Char} {m d : Nat} (ht : IsTrimmed raw.toList t)
    (h : HasForm t months days) (hm : IsCount months m) (hd : IsCount days d) :
    parse raw = .ok (Tenure.folded m d) := by
  simp [parse, ht.eq, h.ne_nil, h.split?, count?_eq_some_iff.mpr hm, count?_eq_some_iff.mpr hd]

theorem parse_of_not_isCount {months days : List Char} (ht : IsTrimmed raw.toList t)
    (h : HasForm t months days) (hcount : (∀ m, ¬IsCount months m) ∨ ∀ d, ¬IsCount days d) :
    parse raw = .error (.notNumeric (String.ofList t)) := by
  rcases hcount with hcount | hcount <;>
    simp [parse, ht.eq, h.ne_nil, h.split?, count?_eq_none_iff.mpr hcount]

theorem folded_of_long {d : Nat} (h : 31 < d) : Tenure.folded 0 d = ⟨monthsNearest d, 0⟩ :=
  if_pos ⟨rfl, h⟩

theorem folded_of_plain {m d : Nat} (h : m = 0 → d ≤ 31) : Tenure.folded m d = ⟨m, d⟩ :=
  if_neg fun hlong => not_le.mpr hlong.2 (h hlong.1)

/-- What the grammar says is what reading finds. -/
theorem Reads.parse_eq {result : Except TenureError Tenure} (ht : IsTrimmed raw.toList t)
    (h : Reads t result) : parse raw = result := by
  cases h with
  | empty h =>
      subst h
      simp [parse, ht.eq, zero]
  | noMonths hne h => exact parse_of_split?_eq_none ht hne (split?_of_not_mem h)
  | noDays months rest h hfirst hend =>
      refine parse_of_split?_eq_none ht (by simp [h]) ?_
      rw [h, split?_append hfirst, if_neg hend]
  | notNumeric months days h hcount => exact parse_of_not_isCount ht h hcount
  | plain months days m d h hm hd hplain =>
      rw [parse_of_counts ht h hm hd, folded_of_plain hplain]
  | folded months days m d h hm hd hlong hnearest =>
      rw [parse_of_counts ht h hm hd, folded_of_long hlong, isNearestMonths_iff.mp hnearest]

/-- What reading finds is what the grammar says. -/
theorem reads_parse (ht : IsTrimmed raw.toList t) : Reads t (parse raw) := by
  by_cases hne : t = []
  · subst hne
    rw [(Reads.empty rfl).parse_eq ht]
    exact .empty rfl
  rcases form_cases t with h | ⟨months, rest, h, hfirst, hend⟩ | ⟨months, days, h⟩
  · rw [(Reads.noMonths hne h).parse_eq ht]
    exact .noMonths hne h
  · rw [(Reads.noDays months rest h hfirst hend).parse_eq ht]
    exact .noDays months rest h hfirst hend
  by_cases hcount : (∃ m, IsCount months m) ∧ ∃ d, IsCount days d
  · obtain ⟨⟨m, hm⟩, d, hd⟩ := hcount
    rw [parse_of_counts ht h hm hd]
    by_cases hlong : m = 0 ∧ 31 < d
    · obtain ⟨rfl, hlong⟩ := hlong
      rw [folded_of_long hlong]
      exact .folded months days _ d h hm hd hlong (isNearestMonths_iff.mpr rfl)
    · have hplain : m = 0 → d ≤ 31 := fun hzero => not_lt.mp fun hd => hlong ⟨hzero, hd⟩
      rw [folded_of_plain hplain]
      exact .plain months days m d h hm hd hplain
  · have hnone : (∀ m, ¬IsCount months m) ∨ ∀ d, ¬IsCount days d := by
      simpa only [not_and_or, not_exists] using hcount
    rw [parse_of_not_isCount ht h hnone]
    exact .notNumeric months days h hnone

/-- **The grammar of terms.** Reading a text comes to a result exactly if the grammar says so of the
text without the blanks around it. So every text has one result, the empty term for a blank one; a
text is malformed if it has no `m` or the part behind its first `m` does not end in `d`, and
otherwise it is a term if both parts are counts, and not numeric if they are not. -/
theorem parse_iff_reads (raw : String) (result : Except TenureError Tenure) :
    parse raw = result ↔ ∃ t, IsTrimmed raw.toList t ∧ Reads t result := by
  constructor
  · rintro rfl
    exact ⟨trimmed raw.toList, isTrimmed_trimmed _, reads_parse (isTrimmed_trimmed _)⟩
  · rintro ⟨t, ht, hreads⟩
    exact hreads.parse_eq ht

end Tenure

end DepositSync
