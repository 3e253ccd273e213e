import DepositSync.Text.Blank
import Mathlib.Data.List.Basic
import Mathlib.Data.List.TakeWhile

/-!
# DepositSync.Proofs.Trimming

What is left of a text without the blanks around it. `IsTrimmed` says it without the two passes over
the text that take them off: blanks come before it and after it, and it neither begins nor ends with
one. No other part of the text is like that (`isTrimmed_iff`).
-/

namespace DepositSync.Text

/-- The text `t` is `raw` without the blanks around it. -/
structure IsTrimmed (raw t : List Char) : Prop where
  split : ∃ front back, raw = front ++ t ++ back ∧ (∀ c ∈ front, isBlank c = true) ∧
    ∀ c ∈ back, isBlank c = true
  head : ∀ c, t.head? = some c → isBlank c = false
  last : ∀ c, t.getLast? = some c → isBlank c = false

variable {raw t : List Char}

theorem isBlank_head?_dropWhile {c : Char} (h : (t.dropWhile isBlank).head? = some c) :
    isBlank c = false := by
  have hnot := List.head?_dropWhile_not isBlank t
  rwa [h] at hnot

/-- What stands in front of a text that begins with no blank is dropped, if it is blank. -/
theorem dropWhile_append_of_head {front : List Char} (hfront : ∀ c ∈ front, isBlank c = true)
    (hhead : ∀ c, t.head? = some c → isBlank c = false) :
    (front ++ t).dropWhile isBlank = t := by
  rw [List.dropWhile_append_of_pos hfront]
  cases t with
  | nil => rfl
  | cons c t => exact List.dropWhile_cons_of_neg (by simp [hhead c rfl])

theorem isTrimmed_trimmed (raw : List Char) : IsTrimmed raw (trimmed raw) := by
  generalize hmid : raw.dropWhile isBlank = mid
  have hend : trimEnd mid ++ (mid.reverse.takeWhile isBlank).reverse = mid := by
    rw [trimEnd, ← List.reverse_append, List.takeWhile_append_dropWhile, List.reverse_reverse]
  have htrimmed : trimmed raw = trimEnd mid := by rw [trimmed, hmid]
  rw [htrimmed]
  refine ⟨⟨raw.takeWhile isBlank, (mid.reverse.takeWhile isBlank).reverse, ?_, ?_, ?_⟩, ?_, ?_⟩
  · rw [List.append_assoc, hend, ← hmid, List.takeWhile_append_dropWhile]
  · exact fun c hc => List.mem_takeWhile_imp hc
  · intro c hc
    exact List.mem_takeWhile_imp (List.mem_reverse.mp hc)
  · intro c hc
    -- the first character that is left is the first one of the whole rest
    have hhead : mid.head? = some c := by rw [← hend, List.head?_append, hc]; rfl
    exact isBlank_head?_dropWhile (hmid ▸ hhead)
  · intro c hc
    rw [trimEnd, List.getLast?_reverse] at hc
    exact isBlank_head?_dropWhile hc

theorem IsTrimmed.eq (h : IsTrimmed raw t) : trimmed raw = t := by
  obtain ⟨front, back, rfl, hfront, hback⟩ := h.split
  by_cases ht : t = []
  · subst ht
    have hall : ∀ c ∈ front ++ [] ++ back, isBlank c = true := by
      simpa [or_imp, forall_and] using ⟨hfront, hback⟩
    rw [trimmed, List.dropWhile_eq_nil_iff.mpr hall]
    rfl
  · have hhead : ∀ c, (t ++ back).head? = some c → isBlank c = false := by
      rw [List.head?_append_of_ne_nil t ht]
      exact h.head
    have hlast : ∀ c, t.reverse.head? = some c → isBlank c = false := by
      rw [List.head?_reverse]
      exact h.last
    rw [trimmed, List.append_assoc, dropWhile_append_of_head hfront hhead, trimEnd,
      List.reverse_append, dropWhile_append_of_head (by simpa using hback) hlast,
      List.reverse_reverse]

/-- Trimming a text leaves the one part of it that is trimmed. -/
theorem isTrimmed_iff : IsTrimmed raw t ↔ trimmed raw = t :=
  ⟨IsTrimmed.eq, fun h => h ▸ isTrimmed_trimmed raw⟩

/-- A text that is trimmed stays as it is. -/
theorem trim_trim (s : String) : trim (trim s) = trim s := by
  have htrimmed := isTrimmed_trimmed s.toList
  have hagain : IsTrimmed (trimmed s.toList) (trimmed s.toList) :=
    ⟨⟨[], [], by simp, nofun, nofun⟩, htrimmed.head, htrimmed.last⟩
  simp only [trim, String.toList_ofList, hagain.eq]

/-- Nothing is left of a text exactly if it is blank. -/
theorem trimmed_eq_nil_iff : trimmed raw = [] ↔ ∀ c ∈ raw, isBlank c = true := by
  constructor
  · intro h
    obtain ⟨front, back, hraw, hfront, hback⟩ := (isTrimmed_iff.mpr h).split
    rw [hraw, List.append_nil, List.forall_mem_append]
    exact ⟨hfront, hback⟩
  · intro h
    exact IsTrimmed.eq ⟨⟨raw, [], by simp, h, nofun⟩, nofun, nofun⟩

theorem trim_eq_empty_iff {s : String} : trim s = "" ↔ isBlankText s = true := by
  rw [trim, isBlankText, List.all_eq_true, ← trimmed_eq_nil_iff, ← String.toList_inj,
    String.toList_ofList]
  rfl

end DepositSync.Text
