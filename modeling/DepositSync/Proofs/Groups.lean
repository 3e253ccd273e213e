import DepositSync.Sql.Statement

/-!
# DepositSync.Proofs.Groups

The groups of a list: put together they are the list, none is empty, and all but the last one are as
long as a group can be. The facts are proved from one group to the rest of the list
(`grouped_induction`).
-/

namespace DepositSync

open Sql (grouped)

variable {α β : Type}

@[simp] theorem grouped_nil (size : Nat) : grouped size ([] : List α) = [] := by
  rw [grouped]

/-- The first group is as long as a group can be, and the others follow. -/
theorem grouped_eq_cons {size : Nat} (hsize : 0 < size) {l : List α} (hl : l ≠ []) :
    grouped size l = l.take size :: grouped size (l.drop size) := by
  cases l with
  | nil => exact absurd rfl hl
  | cons a rest =>
      obtain ⟨n, rfl⟩ : ∃ n, size = n + 1 := ⟨size - 1, by omega⟩
      rw [grouped]
      rfl

/-- A first group that is full, or that nothing follows, stands apart from the rest. -/
theorem grouped_append {size : Nat} {l l' : List α} (hl : l ≠ []) (hle : l.length ≤ size)
    (hfull : l.length = size ∨ l' = []) : grouped size (l ++ l') = l :: grouped size l' := by
  have hsize : 0 < size := Nat.lt_of_lt_of_le (List.length_pos_iff.mpr hl) hle
  rw [grouped_eq_cons hsize (by simp [hl])]
  rcases hfull with hfull | rfl
  · rw [← hfull, List.take_left, List.drop_left]
  · rw [List.append_nil, List.take_of_length_le hle, List.drop_of_length_le hle]

/-- Every fact about groups of a positive size goes from the rest of a list to the list. -/
theorem grouped_induction {size : Nat} (hsize : 0 < size) {motive : List α → Prop}
    (nil : motive []) (cons : ∀ l, l ≠ [] → motive (l.drop size) → motive l) (l : List α) :
    motive l := by
  by_cases hl : l = []
  · exact hl ▸ nil
  · exact cons l hl (grouped_induction hsize nil cons (l.drop size))
termination_by l.length
decreasing_by
  have := List.length_pos_iff.mpr hl
  simp only [List.length_drop]
  omega

/-- The groups put together are the list. -/
theorem flatten_grouped {size : Nat} (hsize : 0 < size) (l : List α) :
    (grouped size l).flatten = l := by
  induction l using grouped_induction hsize with
  | nil => simp
  | cons l hl ih => rw [grouped_eq_cons hsize hl, List.flatten_cons, ih, List.take_append_drop]

/-- No group is empty. -/
theorem ne_nil_of_mem_grouped {size : Nat} (hsize : 0 < size) {l group : List α}
    (h : group ∈ grouped size l) : group ≠ [] := by
  induction l using grouped_induction hsize with
  | nil => simp at h
  | cons l hl ih =>
      rw [grouped_eq_cons hsize hl] at h
      rcases List.mem_cons.mp h with rfl | h
      · simp [hl]; omega
      · exact ih h

/-- No group is longer than it may be. -/
theorem length_le_of_mem_grouped {size : Nat} (hsize : 0 < size) {l group : List α}
    (h : group ∈ grouped size l) : group.length ≤ size := by
  induction l using grouped_induction hsize with
  | nil => simp at h
  | cons l hl ih =>
      rw [grouped_eq_cons hsize hl] at h
      rcases List.mem_cons.mp h with rfl | h
      · exact List.length_take_le ..
      · exact ih h

/-- Only the last group may be shorter. -/
theorem length_of_mem_dropLast_grouped {size : Nat} (hsize : 0 < size) {l group : List α}
    (h : group ∈ (grouped size l).dropLast) : group.length = size := by
  induction l using grouped_induction hsize with
  | nil => simp at h
  | cons l hl ih =>
      rw [grouped_eq_cons hsize hl] at h
      by_cases hrest : l.drop size = []
      · simp [hrest] at h
      · rw [List.dropLast_cons_of_ne_nil (by
          rw [grouped_eq_cons hsize hrest]; exact List.cons_ne_nil _ _)] at h
        rcases List.mem_cons.mp h with rfl | h
        · rw [List.drop_eq_nil_iff, Nat.not_le] at hrest
          rw [List.length_take]
          omega
        · exact ih h

end DepositSync
