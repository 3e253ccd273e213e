import DepositSync.Proofs.KeyedTable
import DepositSync.Store.Query

/-!
# DepositSync.Proofs.StatementMeaning

The operations on a table do what the statements say that are sent to the database. The statements
that list, clear and delete choose rows by conditions on columns, and these conditions hold of the
rows that the operations choose. The statements that clear requests and write rows say which columns
change, and these are the columns in which the rows after the operations differ. Times are left out.
-/

namespace DepositSync

open Sql (Value Condition Assignment Statement Query StoredRow)

/-! ### Meaning -/

/-- The conditions on the rows that a statement deals with. -/
def Sql.Statement.conditions : Statement → List Condition
  | .select _ _ conditions => conditions
  | .update _ _ conditions => conditions
  | .delete _ conditions => conditions
  | .insert _ => []

/-- The changes that a statement makes in rows that are there. -/
def Sql.Statement.changes : Statement → List Assignment
  | .update _ changes _ => changes
  | .insert i => (i.conflict.map Sql.Conflict.changes).getD []
  | .select .. | .delete .. => []

/-- Does the statement deal with the row? -/
def Sql.Query.selects (q : Query) (row : StoredRow) : Bool :=
  q.statement.conditions.all fun c => c.holds q.parameters row

/-- The column that changes. -/
def Sql.Assignment.column : Assignment → String
  | literal column _ | bound column _ | proposed column | now column => column

/-- Is the column of a row as the change makes it? -/
def Sql.Assignment.Done (parameters : List Value) (proposed row : StoredRow) : Assignment → Prop
  | literal column l => (row.lookup column).any l.matches? = true
  | bound column n => row.lookup column = Sql.boundValue? parameters n
  | .proposed column => row.lookup column = proposed.lookup column
  | now _ => True

/-- A row and what a statement makes of it: the changes are made, and the other columns are as
before. -/
structure Sql.Query.Changes (q : Query) (proposed before after : StoredRow) : Prop where
  done : ∀ change ∈ q.statement.changes, change.Done q.parameters proposed after
  kept : ∀ column, column ∉ q.statement.changes.map Assignment.column →
    after.lookup column = before.lookup column

/-! ### Rows in their tables -/

variable {ρ : Type} [Stored ρ]

/-- A row as the database keeps it. -/
def Row.stored (row : Row ρ) : StoredRow :=
  (refreshColumn, .flag row.refresh) :: Stored.row row.record

/-- Rows whose columns hold what the rows say. -/
class LawfulStored (ρ : Type) [Record ρ] [Stored ρ] : Prop extends LawfulRecord ρ where
  lookup_client (record : ρ) :
    (Stored.row record).lookup clientColumn = some (.text (Record.client record))
  lookup_provider (record : ρ) :
    (Stored.row record).lookup providerColumn = some (.text (Record.provider record))
  lookup_invalid (record : ρ) :
    (Stored.row record).lookup invalidColumn = some (.flag (Record.isInvalid record))
  lookup_createdBy (record : ρ) :
    (Stored.row record).lookup createdByColumn = some (.text (Record.createdBy record))
  lookup_updatedBy (record : ρ) :
    (Stored.row record).lookup updatedByColumn = some (.text (Record.updatedBy record))
  /-- No column that is written with a row says whether a refresh was asked for. -/
  refresh_not_mem : refreshColumn ∉ columnNames ρ
  /-- A row is stale if the conditions of the statement that deletes it hold. -/
  all_staleWhen (row : Row ρ) :
    ((Stored.staleWhen ρ).all fun c => c.holds [] row.stored) = Record.isStale row.record
  value_withUpdatedBy (c : Column ρ) (hc : c ∈ Stored.columns) (name : String) (record : ρ) :
    c.value (Record.withUpdatedBy name record) =
      if c.name = updatedByColumn then .text name else c.value record
  value_withCreatedBy (c : Column ρ) (hc : c ∈ Stored.columns) (name : String) (record : ρ) :
    c.value (Record.withCreatedBy name record) =
      if c.name = createdByColumn then .text name else c.value record

instance : LawfulStored PortfolioRecord where
  lookup_client _ := rfl
  lookup_provider _ := rfl
  lookup_invalid _ := rfl
  lookup_createdBy _ := rfl
  lookup_updatedBy _ := rfl
  refresh_not_mem := by decide
  all_staleWhen row := by
    change (some row.record.activeDeposits == some 0 && (false == row.record.isInvalid && true)) =
      (!row.record.isInvalid && row.record.activeDeposits == 0)
    cases row.record.isInvalid <;> simp
  value_withUpdatedBy c hc name record := by
    simp only [Stored.columns, List.mem_cons, List.not_mem_nil, or_false] at hc
    rcases hc with rfl | rfl | rfl | rfl | rfl | rfl | rfl | rfl | rfl | rfl | rfl | rfl <;> rfl
  value_withCreatedBy c hc name record := by
    simp only [Stored.columns, List.mem_cons, List.not_mem_nil, or_false] at hc
    rcases hc with rfl | rfl | rfl | rfl | rfl | rfl | rfl | rfl | rfl | rfl | rfl | rfl <;> rfl

instance : LawfulStored PendingJourneyRecord where
  lookup_client _ := rfl
  lookup_provider _ := rfl
  lookup_invalid _ := rfl
  lookup_createdBy _ := rfl
  lookup_updatedBy _ := rfl
  refresh_not_mem := by decide
  all_staleWhen row := by
    change (false == row.record.pending && (false == row.record.isInvalid && true)) =
      (!row.record.isInvalid && !row.record.pending)
    cases row.record.isInvalid <;> cases row.record.pending <;> rfl
  value_withUpdatedBy c hc name record := by
    simp only [Stored.columns, List.mem_cons, List.not_mem_nil, or_false] at hc
    rcases hc with rfl | rfl | rfl | rfl | rfl | rfl | rfl | rfl | rfl <;> rfl
  value_withCreatedBy c hc name record := by
    simp only [Stored.columns, List.mem_cons, List.not_mem_nil, or_false] at hc
    rcases hc with rfl | rfl | rfl | rfl | rfl | rfl | rfl | rfl | rfl <;> rfl

/-- Which column a value is found in does not depend on the row. -/
theorem lookup_row (record : ρ) (column : String) :
    (Stored.row record).lookup column =
      (Stored.columns.find? fun c : Column ρ => column == c.name).map fun c => c.value record := by
  rw [Stored.row]
  induction (Stored.columns : List (Column ρ)) with
  | nil => rfl
  | cons c rest ih =>
      rw [List.map_cons, List.lookup_cons, List.find?_cons, ih]
      cases column == c.name <;> rfl

theorem lookup_row_eq_none {column : String} (h : column ∉ columnNames ρ) (record : ρ) :
    (Stored.row record).lookup column = none := by
  rw [lookup_row, Option.map_eq_none_iff, List.find?_eq_none]
  intro c hc hname
  exact h (beq_iff_eq.mp hname ▸ List.mem_map_of_mem hc)

theorem mem_columnNames {record : ρ} {column : String} {v : Value}
    (h : (Stored.row record).lookup column = some v) : column ∈ columnNames ρ := by
  by_cases hmem : column ∈ columnNames ρ
  · exact hmem
  · cases (lookup_row_eq_none hmem record).symm.trans h

/-- What is found in the columns of a row in its table. -/
theorem lookup_stored (row : Row ρ) (column : String) :
    row.stored.lookup column =
      if column = refreshColumn then some (.flag row.refresh)
      else (Stored.row row.record).lookup column := by
  rw [Row.stored, List.lookup_cons]
  by_cases h : column = refreshColumn
  · simp [h]
  · rw [beq_false_of_ne h, if_neg h]

/-- Signing a row changes the column of the signature, and nothing else. -/
theorem lookup_signed {sign : ρ → ρ} {signature : String} {v : Value}
    (hsign : ∀ c ∈ Stored.columns, ∀ record, (c : Column ρ).value (sign record) =
      if c.name = signature then v else c.value record)
    (hmem : signature ∈ columnNames ρ) (record : ρ) (column : String) :
    (Stored.row (sign record)).lookup column =
      if column = signature then some v else (Stored.row record).lookup column := by
  rw [lookup_row, lookup_row]
  cases hfind : (Stored.columns : List (Column ρ)).find? fun c => column == c.name with
  | none =>
      rw [if_neg]
      · rfl
      · rintro rfl
        obtain ⟨c, hc, rfl⟩ := List.mem_map.mp hmem
        exact List.find?_eq_none.mp hfind c hc (beq_self_eq_true c.name)
  | some c =>
      obtain rfl : column = c.name := by simpa using List.find?_some hfind
      rw [Option.map_some, Option.map_some, hsign c (List.mem_of_find?_eq_some hfind)]
      split <;> rfl

section

variable [Record ρ] [LawfulStored ρ]

theorem lookup_withUpdatedBy (name : String) (record : ρ) (column : String) :
    (Stored.row (Record.withUpdatedBy name record)).lookup column =
      if column = updatedByColumn then some (.text name) else (Stored.row record).lookup column :=
  lookup_signed (fun c hc record => LawfulStored.value_withUpdatedBy c hc name record)
    (mem_columnNames (LawfulStored.lookup_updatedBy record)) record column

theorem lookup_withCreatedBy (name : String) (record : ρ) (column : String) :
    (Stored.row (Record.withCreatedBy name record)).lookup column =
      if column = createdByColumn then some (.text name) else (Stored.row record).lookup column :=
  lookup_signed (fun c hc record => LawfulStored.value_withCreatedBy c hc name record)
    (mem_columnNames (LawfulStored.lookup_createdBy record)) record column

/-! ### Choosing rows -/

theorem lookup_client_stored (row : Row ρ) :
    row.stored.lookup clientColumn = some (.text (Record.client row.record)) := by
  rw [lookup_stored, if_neg (by decide), LawfulStored.lookup_client]

theorem lookup_provider_stored (row : Row ρ) :
    row.stored.lookup providerColumn = some (.text (Record.provider row.record)) := by
  rw [lookup_stored, if_neg (by decide), LawfulStored.lookup_provider]

theorem lookup_invalid_stored (row : Row ρ) :
    row.stored.lookup invalidColumn = some (.flag (Record.isInvalid row.record)) := by
  rw [lookup_stored, if_neg (by decide), LawfulStored.lookup_invalid]

omit [Record ρ] [LawfulStored ρ] in
theorem lookup_refresh_stored (row : Row ρ) :
    row.stored.lookup refreshColumn = some (.flag row.refresh) := by
  rw [lookup_stored, if_pos rfl]

theorem text_beq (a b : String) :
    (Value.text (some a) == Value.text (some b)) = (a == b) := by
  rw [Bool.eq_iff_iff]
  simp

/-- The listing reads the clients of the rows that its statement selects. -/
theorem list_eq_select (provider : String) (instantOnly : Bool) (t : Table ρ) :
    t.list provider instantOnly =
      (t.filter fun row => (listQuery ρ provider instantOnly).selects row.stored).map
        fun row => Record.client row.record := by
  refine congrArg _ (List.filter_congr fun row _ => ?_)
  cases instantOnly <;>
    simp [Query.selects, Statement.conditions, listQuery, Condition.holds, Sql.boundValue?,
      Sql.Literal.matches?, lookup_provider_stored, lookup_invalid_stored, lookup_refresh_stored,
      text_beq, Bool.and_assoc]

/-- The cleanup deletes the rows that its statement selects. -/
theorem deleteStale_eq_delete (t : Table ρ) :
    t.deleteStale = t.filter fun row => !(deleteQuery ρ).selects row.stored := by
  refine List.filter_congr fun row _ => ?_
  rw [← LawfulStored.all_staleWhen row]
  rfl

/-! ### Changing rows -/

/-- The statement that clears requests selects the rows of the provider's clients. -/
theorem selects_mark (actor : Actor) (provider : String) (clients : List String) (row : Row ρ) :
    (markQuery ρ actor provider clients).selects row.stored = true ↔
      Record.provider row.record = provider ∧ Record.client row.record ∈ clients := by
  simp [Query.selects, Statement.conditions, markQuery, Condition.holds, Sql.boundValue?,
    lookup_provider_stored, lookup_client_stored]

/-- Clearing requests changes the rows that its statement selects, as the statement says, and no
other row. -/
theorem marked_eq_update (actor : Actor) (provider : String) (clients : List String) (row : Row ρ) :
    if (markQuery ρ actor provider clients).selects row.stored then
      (markQuery ρ actor provider clients).Changes [] row.stored
        (Table.marked actor.name provider clients row).stored
    else Table.marked actor.name provider clients row = row := by
  have hselects := selects_mark actor provider clients row
  split
  · next h =>
    rw [Table.marked, if_pos (hselects.mp h)]
    refine ⟨fun change hchange => ?_, fun column hcolumn => ?_⟩
    · simp only [markQuery, Statement.changes, List.mem_cons, List.not_mem_nil, or_false] at hchange
      rcases hchange with rfl | rfl | rfl
      · rw [Assignment.Done, lookup_refresh_stored]
        rfl
      · rw [Assignment.Done, lookup_stored, if_neg (by decide), lookup_withUpdatedBy, if_pos rfl]
        rfl
      · trivial
    · simp only [markQuery, Statement.changes, Assignment.column, List.map_cons, List.map_nil,
        List.mem_cons, List.not_mem_nil, or_false, not_or] at hcolumn
      rw [lookup_stored, lookup_stored, if_neg hcolumn.1, if_neg hcolumn.1, lookup_withUpdatedBy,
        if_neg hcolumn.2.1]
  · next h => exact if_neg fun hmarked => h (hselects.mpr hmarked)

omit [Stored ρ] [Record ρ] [LawfulStored ρ] in
theorem mem_changesOf {column : String} {change : Assignment} (h : change ∈ changesOf column) :
    (change = .proposed column ∧ column ∉ createdByColumn :: keyColumns) ∨
      change = .now updatedAtColumn := by
  unfold changesOf at h
  split at h
  · simp at h
  · next hwritten =>
    split at h <;> simp only [List.mem_cons, List.not_mem_nil, or_false] at h
    · exact h.imp_left fun h => ⟨h, hwritten⟩
    · exact .inl ⟨h, hwritten⟩

omit [Stored ρ] [Record ρ] [LawfulStored ρ] in
theorem proposed_mem_changesOf {column : String} (h : column ∉ createdByColumn :: keyColumns) :
    .proposed column ∈ changesOf column := by
  rw [changesOf, if_neg h]
  split <;> exact List.mem_cons_self ..

/-- Writing a record where there is a row with its key changes the row as the statement says. -/
theorem overwritten_eq_upsert (records : List ρ) (record : ρ) (row : Row ρ)
    (hkey : row.key = Record.key record) :
    (upsertQuery records).Changes (Stored.row record) row.stored
      (Table.overwritten (some row) record).stored := by
  obtain ⟨hclient, hprovider⟩ := Prod.mk.inj hkey
  constructor
  · intro change hchange
    obtain ⟨column, hcolumn, hchange⟩ := List.mem_flatMap.mp hchange
    rcases mem_changesOf hchange with ⟨rfl, hwritten⟩ | rfl
    · have hrefresh : column ≠ refreshColumn := fun h =>
        LawfulStored.refresh_not_mem (ρ := ρ) (h ▸ hcolumn)
      have hcreator : column ≠ createdByColumn := fun h => hwritten (h ▸ List.mem_cons_self ..)
      rw [Assignment.Done, Table.overwritten, lookup_stored, if_neg hrefresh,
        lookup_withCreatedBy, if_neg hcreator]
    · trivial
  · intro column hcolumn
    rw [Table.overwritten, lookup_stored, lookup_withCreatedBy]
    by_cases hrefresh : column = refreshColumn
    · rw [if_pos hrefresh, hrefresh, lookup_refresh_stored]
    rw [if_neg hrefresh, lookup_stored, if_neg hrefresh]
    by_cases hspared : column ∈ createdByColumn :: keyColumns
    · -- the creator stays, and the key is the same
      simp only [keyColumns, List.mem_cons, List.not_mem_nil, or_false] at hspared
      rcases hspared with rfl | rfl | rfl
      · rw [if_pos rfl, LawfulStored.lookup_createdBy]
      · rw [if_neg (by decide), LawfulStored.lookup_client, LawfulStored.lookup_client, hclient]
      · rw [if_neg (by decide), LawfulStored.lookup_provider, LawfulStored.lookup_provider,
          hprovider]
    · have hother : column ∉ columnNames ρ := fun hmem => hcolumn
        (List.mem_map.mpr ⟨.proposed column,
          List.mem_flatMap.mpr ⟨column, hmem, proposed_mem_changesOf hspared⟩, rfl⟩)
      have hcreator : column ≠ createdByColumn := fun h => hspared (h ▸ List.mem_cons_self ..)
      rw [if_neg hcreator, lookup_row_eq_none hother, lookup_row_eq_none hother]

end

end DepositSync
