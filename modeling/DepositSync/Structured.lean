/-!
# DepositSync.Structured

Reading typed values out of structured documents, whatever notation the document is in. A notation
says how its trees are read as flags, texts, numbers, dictionaries and records; what a settings
file holds is then said once for all notations.
-/

namespace DepositSync

/-- Texts by key, in ascending order of the keys. -/
abbrev Dictionary := List (String × String)

namespace Dictionary

/-- Sets the text of a key. -/
def insert (key value : String) : Dictionary → Dictionary
  | [] => [(key, value)]
  | (k, v) :: rest =>
    if key = k then (k, value) :: rest
    else if key < k then (key, value) :: (k, v) :: rest
    else (k, v) :: insert key value rest

/-- The text of a key. -/
def get? (d : Dictionary) (key : String) : Option String :=
  (d.find? fun entry => entry.1 == key).map Prod.snd

/-- The dictionary of the entries; of several with one key the last counts. -/
def ofList (entries : List (String × String)) : Dictionary :=
  entries.foldl (fun d (k, v) => d.insert k v) []

end Dictionary

/-- What it means that a record lacks a field. -/
inductive Absence where
  /-- The record is wrong. -/
  | required
  /-- The field stays empty. Where fields are told by position it has to be there. -/
  | nullable
  /-- The field keeps its default. -/
  | defaulted
  deriving DecidableEq, Repr

/-- One field of a record: its name, what its absence means, and how its value changes the record
read so far. -/
structure Field (τ ε α : Type) where
  name : String
  absence : Absence
  read : τ → α → Except ε α

/-- A field that is read by `read` and stored by `set`. -/
def field {τ ε α β : Type} (name : String) (absence : Absence) (read : τ → Except ε β)
    (set : α → β → α) : Field τ ε α :=
  ⟨name, absence, fun t a => (read t).map (set a)⟩

/-- A notation whose trees `τ` can be read as typed values, with errors `ε`. -/
class Structured (τ : Type) (ε : outParam Type) where
  /-- A flag. -/
  bool : τ → Except ε Bool
  /-- A text. -/
  text : τ → Except ε String
  /-- A whole number from zero up to a limit. -/
  natural : (limit : Nat) → τ → Except ε Nat
  /-- A value that may be null. -/
  optional : {α : Type} → (τ → Except ε α) → τ → Except ε (Option α)
  /-- Texts by key. -/
  dictionary : τ → Except ε Dictionary
  /-- A record, beginning with the values of `base`. -/
  record : {α : Type} → List (Field τ ε α) → (base : α) → τ → Except ε α

end DepositSync
