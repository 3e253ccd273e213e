import DepositSync.Job.BatchBuffer
import DepositSync.Proofs.Groups

/-!
# DepositSync.Proofs.BufferedBatches

What a buffer hands out in the course of any uses, items put in and the rest taken out in any order.
There are two layers: what one use comes to (`HasRoom.push_cases`, `takeRemaining_cases`), and the
induction over the uses that lifts it to all of them. What carries both is that between two uses the
buffer has room for one more item (`HasRoom`).

Nothing is lost, handed out twice or moved (`flatten_handedOut`). If the rest is taken out only at
the end, the batches are the groups of the items (`handedOut_drained`).
-/

namespace DepositSync

namespace BatchBuffer

variable {α : Type} {b : BatchBuffer α} {size : Nat}

/-! ### One use -/

/-- How a buffer is between two uses: batches have this size, and less than a batch waits. -/
structure HasRoom (b : BatchBuffer α) (size : Nat) : Prop where
  size_eq : b.size = size
  length_lt : b.length < size

theorem hasRoom_empty (size : Nat) : (empty size : BatchBuffer α).HasRoom (max size 1) where
  size_eq := rfl
  length_lt := Nat.lt_of_lt_of_le Nat.zero_lt_one (Nat.le_max_right ..)

/-- An item that is put in waits, or it is the last one of a batch. -/
theorem HasRoom.push_cases (h : b.HasRoom size) (a : α) :
    (b.length + 1 < size ∧ b.push a = (none, ⟨b.items ++ [a], size⟩)) ∨
    (b.length + 1 = size ∧ b.push a = (some (b.items ++ [a]), ⟨[], size⟩)) := by
  obtain ⟨rfl, hlt⟩ := h
  rw [length] at hlt ⊢
  by_cases hfull : b.size ≤ b.items.length + 1
  · exact .inr ⟨by omega, by simp [push, hfull]⟩
  · exact .inl ⟨by omega, by simp [push, hfull]⟩

/-- There is no rest, or all of it is taken out. -/
theorem takeRemaining_cases (b : BatchBuffer α) :
    (b.items = [] ∧ b.takeRemaining = (none, b)) ∨
    (b.items ≠ [] ∧ b.takeRemaining = (some b.items, ⟨[], b.size⟩)) := by
  by_cases hitems : b.items = []
  · exact .inl ⟨hitems, by simp [takeRemaining, hitems]⟩
  · exact .inr ⟨hitems, by simp [takeRemaining, hitems]⟩

/-- A use of a buffer. -/
inductive Use (α : Type) where
  /-- An item is put in. -/
  | push (a : α)
  /-- What is left is taken out. -/
  | takeRemaining

/-- The item that a use puts in, if it is one that does. -/
def Use.item? : Use α → Option α
  | .push a => some a
  | .takeRemaining => none

/-- What a use hands out, and the buffer that it leaves. -/
def serve (b : BatchBuffer α) : Use α → Option (List α) × BatchBuffer α
  | .push a => b.push a
  | .takeRemaining => b.takeRemaining

theorem HasRoom.serve (h : b.HasRoom size) (u : Use α) : (b.serve u).2.HasRoom size := by
  have hpos : 0 < size := Nat.lt_of_le_of_lt (Nat.zero_le _) h.length_lt
  cases u with
  | push a =>
      rw [BatchBuffer.serve]
      obtain ⟨hlt, heq⟩ | ⟨-, heq⟩ := h.push_cases a
      · rw [heq]
        exact ⟨rfl, by simpa [length] using hlt⟩
      · rw [heq]
        exact ⟨rfl, hpos⟩
  | takeRemaining =>
      rw [BatchBuffer.serve]
      obtain ⟨-, heq⟩ | ⟨-, heq⟩ := b.takeRemaining_cases
      · rw [heq]
        exact h
      · rw [heq]
        exact ⟨h.size_eq, hpos⟩

/-- Nothing is lost in a use. -/
theorem append_serve (b : BatchBuffer α) (u : Use α) :
    (b.serve u).1.getD [] ++ (b.serve u).2.items = b.items ++ u.item?.toList := by
  cases u with
  | push a => exact b.append_push a
  | takeRemaining => exact b.append_takeRemaining.trans (List.append_nil _).symm

/-! ### One use after the other -/

/-- The buffer after uses that followed one another. -/
def after (b : BatchBuffer α) (uses : List (Use α)) : BatchBuffer α :=
  uses.foldl (fun b u => (b.serve u).2) b

/-- The batches that are handed out in the course of the uses, in their order. -/
def handedOut (b : BatchBuffer α) : List (Use α) → List (List α)
  | [] => []
  | u :: rest => (b.serve u).1.toList ++ (b.serve u).2.handedOut rest

theorem after_cons (b : BatchBuffer α) (u : Use α) (rest : List (Use α)) :
    b.after (u :: rest) = (b.serve u).2.after rest := rfl

theorem HasRoom.after (h : b.HasRoom size) (uses : List (Use α)) :
    (b.after uses).HasRoom size := by
  induction uses generalizing b with
  | nil => exact h
  | cons u rest ih => exact ih (h.serve u)

/-- What was handed out, followed by what waits, is what waited before, followed by what was put
in. -/
theorem flatten_handedOut (b : BatchBuffer α) (uses : List (Use α)) :
    (b.handedOut uses).flatten ++ (b.after uses).items = b.items ++ uses.filterMap Use.item? := by
  induction uses generalizing b with
  | nil => exact (List.append_nil _).symm
  | cons u rest ih =>
      have hbatch : (b.serve u).1.toList.flatten = (b.serve u).1.getD [] := by
        cases (b.serve u).1 <;> simp
      have hitem : (u :: rest).filterMap Use.item? =
          u.item?.toList ++ rest.filterMap Use.item? := by
        cases u <;> rfl
      calc (b.handedOut (u :: rest)).flatten ++ (b.after (u :: rest)).items
          = (b.serve u).1.getD [] ++
              (((b.serve u).2.handedOut rest).flatten ++ ((b.serve u).2.after rest).items) := by
            rw [handedOut, List.flatten_append, hbatch, after_cons, List.append_assoc]
        _ = (b.serve u).1.getD [] ++ (b.serve u).2.items ++ rest.filterMap Use.item? := by
            rw [ih, List.append_assoc]
        _ = b.items ++ (u :: rest).filterMap Use.item? := by
            rw [append_serve, hitem, List.append_assoc]

/-- If items are put in and then the rest is taken out, the batches are the groups of the items. -/
theorem handedOut_drained (h : b.HasRoom size) (items : List α) :
    b.handedOut (items.map .push ++ [.takeRemaining]) = Sql.grouped size (b.items ++ items) := by
  induction items generalizing b with
  | nil =>
      obtain ⟨hitems, heq⟩ | ⟨hitems, heq⟩ := b.takeRemaining_cases
      · simp [handedOut, BatchBuffer.serve, heq, hitems]
      · have hgroup := grouped_append hitems (Nat.le_of_lt h.length_lt) (.inr rfl)
        simpa [handedOut, BatchBuffer.serve, heq] using hgroup.symm
  | cons a rest ih =>
      have hrest := ih (h.serve (.push a))
      have hassoc : b.items ++ a :: rest = b.items ++ [a] ++ rest := by simp
      simp only [List.map_cons, List.cons_append, handedOut, hrest, hassoc]
      obtain ⟨-, heq⟩ | ⟨hfull, heq⟩ := h.push_cases a
      · simp only [BatchBuffer.serve, heq, Option.toList_none, List.nil_append]
      · have hlength : (b.items ++ [a]).length = size := by simpa [length] using hfull
        rw [grouped_append (by simp) (Nat.le_of_eq hlength) (.inl hlength)]
        simp only [BatchBuffer.serve, heq, Option.toList_some, List.cons_append, List.nil_append]

/-! ### What a buffer keeps to -/

/-- **A buffer loses, doubles and moves nothing.** Whatever uses there were of a buffer that was
empty in the beginning: the batches handed out, put together, and then what waits are the items put
in, in their order, and less than a batch waits. If the next item makes a batch, this has its full
size; the rest is handed out if there is any, at least one item and less than a batch, and nothing
is left of it. -/
theorem batches_keep_order (size : Nat) (uses : List (Use α)) :
    let b : BatchBuffer α := (empty size).after uses
    ((empty size).handedOut uses).flatten ++ b.items = uses.filterMap Use.item? ∧
    b.length < max size 1 ∧
    (∀ a batch, (b.push a).1 = some batch → batch.length = max size 1) ∧
    (b.takeRemaining.1.isSome = true ↔ b.isEmpty = false) ∧
    (∀ batch, b.takeRemaining.1 = some batch →
      1 ≤ batch.length ∧ batch.length ≤ max size 1 - 1) ∧
    b.takeRemaining.2.isEmpty = true := by
  intro b
  have hroom : b.HasRoom (max size 1) := (hasRoom_empty size).after uses
  have hlt : b.items.length < max size 1 := hroom.length_lt
  refine ⟨flatten_handedOut (empty size) uses, hlt, ?_, ?_⟩
  · intro a batch hbatch
    obtain ⟨-, heq⟩ | ⟨hfull, heq⟩ := hroom.push_cases a
    · rw [heq] at hbatch
      cases hbatch
    · rw [heq] at hbatch
      rw [← Option.some.inj hbatch, List.length_append]
      exact hfull
  · obtain ⟨hitems, heq⟩ | ⟨hitems, heq⟩ := b.takeRemaining_cases
    · simp [heq, isEmpty, hitems]
    · have hle : b.items.length ≤ max size 1 - 1 := Nat.le_sub_one_of_lt hlt
      simp [heq, isEmpty, hitems, hle, List.length_pos_iff, Nat.succ_le_iff]

/-- Batches of two: the rest is taken out when there is none, and one item waits. -/
def unevenUses : List (Use Nat) := [.push 1, .push 2, .takeRemaining, .push 3]

theorem batches_keep_order_uneven :
    ((empty 2).handedOut unevenUses).flatten ++ ((empty 2).after unevenUses).items = [1, 2, 3] ∧
    (((empty 2).after unevenUses).push 4).1 = some [3, 4] ∧ [3, 4].length = max 2 1 ∧
    ((empty 2).after unevenUses).takeRemaining.1 = some [3] ∧
    1 ≤ [3].length ∧ [3].length ≤ max 2 1 - 1 := by
  obtain ⟨horder, -, hpush, -, htake, -⟩ := batches_keep_order 2 unevenUses
  have hfull : (((empty 2).after unevenUses).push 4).1 = some [3, 4] := by decide
  have hrest : ((empty 2).after unevenUses).takeRemaining.1 = some [3] := by decide
  exact ⟨horder, hfull, hpush 4 [3, 4] hfull, hrest, htake [3] hrest⟩

end BatchBuffer

end DepositSync
