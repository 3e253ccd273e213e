/-!
# DepositSync.Job.BatchBuffer

A buffer that hands out what was put into it in batches, in order. A batch is handed out as soon as
it is full; what is left at the end may be less than a batch.
-/

namespace DepositSync

/-- Items waiting to be handed out, and how many make a batch. -/
structure BatchBuffer (α : Type) where
  items : List α
  size : Nat
  deriving Repr

namespace BatchBuffer

variable {α : Type}

/-- A buffer without items. A batch has at least one item. -/
def empty (size : Nat) : BatchBuffer α :=
  ⟨[], max size 1⟩

/-- Puts an item in; a full batch comes out. -/
def push (b : BatchBuffer α) (a : α) : Option (List α) × BatchBuffer α :=
  let items := b.items ++ [a]
  if b.size ≤ items.length then (some items, { b with items := [] })
  else (none, { b with items := items })

/-- Takes out what is left, if anything is. -/
def takeRemaining (b : BatchBuffer α) : Option (List α) × BatchBuffer α :=
  if b.items.isEmpty then (none, b) else (some b.items, { b with items := [] })

/-- How many items are waiting. -/
def length (b : BatchBuffer α) : Nat := b.items.length

/-- Is no item waiting? -/
def isEmpty (b : BatchBuffer α) : Bool := b.items.isEmpty

/-- Nothing is lost when an item is put in: what came out, followed by what waits, is what waited
before, followed by the item. -/
theorem append_push (b : BatchBuffer α) (a : α) :
    (b.push a).1.getD [] ++ (b.push a).2.items = b.items ++ [a] := by
  unfold push; dsimp only; split <;> simp

/-- Nothing is lost when the rest is taken out. -/
theorem append_takeRemaining (b : BatchBuffer α) :
    b.takeRemaining.1.getD [] ++ b.takeRemaining.2.items = b.items := by
  unfold takeRemaining; split <;> simp

end BatchBuffer

end DepositSync
