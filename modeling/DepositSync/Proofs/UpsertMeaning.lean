import DepositSync.Proofs.StatementMeaning

/-!
# DepositSync.Proofs.UpsertMeaning

The statement that writes rows says what the rows say. Its text is a head that names the columns, a
tuple of placeholders for each row, and a tail that names the columns which change in a row that is
there. The values stand in a list of their own, in the order in which the placeholders are counted.
That each value ends up in the column of its field is what is shown here, for every number of rows.

The fields of a row are known by the names that they have outside (`Spelled.field?`), which are
written down a second time here, apart from the columns of the statement.
-/

namespace DepositSync

open Sql (Value Expression Assignment Statement Query StoredRow boundValue? placeholder listed)

/-! ### Counting placeholders -/

theorem boundTuples_succ (width count : Nat) :
    boundTuples width (count + 1) =
      boundTuples width count ++ [boundTuple width (count * width + 1)] := by
  rw [boundTuples, List.range_succ, List.map_append]
  rfl

/-- The placeholders of all rows are counted from one without a gap. -/
theorem flatten_boundTuples (width count : Nat) :
    (boundTuples width count).flatten =
      (List.range (count * width)).map fun k => .bound (k + 1) := by
  induction count with
  | zero => rw [Nat.zero_mul]; rfl
  | succ count ih =>
      rw [boundTuples_succ, List.flatten_append, ih, Nat.succ_mul, List.range_add, List.map_append,
        List.map_map, List.flatten_singleton, boundTuple]
      congr 1
      refine List.map_congr_left fun i _ => ?_
      rw [Function.comp, Nat.add_right_comm]

/-- The placeholder in a column of a row. -/
theorem getElem?_boundTuples {width count i p : Nat} (hi : i < count) (hp : p < width) :
    (boundTuples width count)[i]?.bind (·[p]?) = some (.bound (i * width + p + 1)) := by
  simp [boundTuples, boundTuple, hi, hp, Nat.add_right_comm]

theorem length_flatMap_of_length {α β : Type} {f : α → List β} {width : Nat}
    (hwidth : ∀ a, (f a).length = width) (l : List α) :
    (l.flatMap f).length = l.length * width := by
  induction l with
  | nil => rw [List.length_nil, Nat.zero_mul]; rfl
  | cons a rest ih =>
      rw [List.flatMap_cons, List.length_append, ih, hwidth, List.length_cons, Nat.succ_mul,
        Nat.add_comm]

theorem getElem?_flatMap {α β : Type} {f : α → List β} {width : Nat}
    (hwidth : ∀ a, (f a).length = width) (l : List α) (i : Nat) {p : Nat} (hp : p < width) :
    (l.flatMap f)[i * width + p]? = l[i]?.bind fun a => (f a)[p]? := by
  induction l generalizing i with
  | nil => rfl
  | cons a rest ih =>
      rw [List.flatMap_cons]
      cases i with
      | zero =>
          rw [Nat.zero_mul, Nat.zero_add, List.getElem?_append_left (by rw [hwidth]; exact hp)]
          rfl
      | succ i =>
          rw [List.getElem?_append_right (by rw [hwidth, Nat.succ_mul]; omega), hwidth,
            show (i + 1) * width + p - width = i * width + p by rw [Nat.succ_mul]; omega, ih]
          rfl

theorem mapM_eq_some {α β : Type} {f : α → Option β} {l : List α} {l' : List β}
    (h : l.map f = l'.map some) : l.mapM f = some l' := by
  induction l generalizing l' with
  | nil =>
      obtain rfl : l' = [] := List.map_eq_nil_iff.mp h.symm
      rfl
  | cons a rest ih =>
      cases l' with
      | nil => cases h
      | cons b rest' =>
          obtain ⟨hhead, htail⟩ := List.cons.inj h
          rw [List.mapM_cons, hhead, ih htail]
          rfl

variable {ρ : Type} [Stored ρ]

/-- The value for a column of a row. -/
theorem boundValue?_upsert (records : List ρ) (i : Nat) {p : Nat}
    (hp : p < (columnNames ρ).length) :
    boundValue? (records.flatMap rowValues) (i * (columnNames ρ).length + p + 1) =
      records[i]?.bind fun record => (rowValues record)[p]? := by
  rw [boundValue?, if_neg (Nat.succ_ne_zero _), Nat.add_sub_cancel]
  exact getElem?_flatMap length_rowValues records i hp

theorem mapM_boundTuple {records : List ρ} {i : Nat} {record : ρ} (h : records[i]? = some record) :
    (boundTuple (columnNames ρ).length (i * (columnNames ρ).length + 1)).mapM
      (Expression.value? (records.flatMap rowValues)) = some (rowValues record) := by
  refine mapM_eq_some (List.ext_getElem? fun p => ?_)
  by_cases hp : p < (columnNames ρ).length
  · have hvalue := boundValue?_upsert records i hp
    rw [h, Option.bind_some] at hvalue
    simp [boundTuple, hp, Expression.value?, Nat.add_right_comm _ 1 p, hvalue]
  · have hle := Nat.not_lt.mp hp
    rw [List.getElem?_eq_none (by simpa using hle), List.getElem?_eq_none (by simpa using hle)]

/-- The rows that the statement proposes are those of the records. -/
theorem rows?_upsert (records : List ρ) :
    (upsertInsert ρ records.length).rows? (upsertQuery records).parameters =
      some (records.map Stored.row) := by
  refine mapM_eq_some (List.ext_getElem? fun i => ?_)
  simp only [upsertInsert, boundTuples, List.getElem?_map]
  by_cases hi : i < records.length
  · have hrecord : records[i]? = some records[i] := List.getElem?_eq_getElem hi
    rw [List.getElem?_range hi, hrecord]
    simp only [Option.map_some, upsertQuery, mapM_boundTuple hrecord]
    simp [columnNames, rowValues, Stored.row, List.zip_map']
  · rw [List.getElem?_eq_none (by simpa using hi), List.getElem?_eq_none (by simpa using hi)]
    rfl

/-! ### The text of the statement -/

/-- The tuple of the row behind `i` rows, as it is written. -/
def tupleText (width i : Nat) : String :=
  "(" ++ listed ((List.range width).map fun p => placeholder (i * width + p + 1)) ++ ")"

theorem text_boundTuples (width count : Nat) :
    ((boundTuples width count).map fun t => t.map Expression.sql).map
      (fun t => "(" ++ listed t ++ ")") = (List.range count).map (tupleText width) := by
  rw [boundTuples, List.map_map, List.map_map]
  refine List.map_congr_left fun i _ => ?_
  simp only [Function.comp, boundTuple, tupleText, List.map_map]
  congr 3
  refine List.map_congr_left fun p _ => ?_
  rw [Function.comp, Expression.sql, Nat.add_right_comm]

/-- The text names the columns, holds a tuple for each row, and says what changes. -/
theorem sql_upsertQuery (records : List ρ) :
    (upsertQuery records).statement.sql =
      "INSERT INTO " ++ Stored.table ρ ++ " (" ++ listed (columnNames ρ) ++ ") VALUES " ++
        listed ((List.range records.length).map (tupleText (columnNames ρ).length)) ++
        (" ON CONFLICT (" ++ listed keyColumns ++ ") DO UPDATE SET " ++
          listed (((columnNames ρ).flatMap changesOf).map Assignment.sql)) := by
  have hconflict (c : Sql.Conflict) : c.sql = " ON CONFLICT (" ++ listed c.key ++
      ") DO UPDATE SET " ++ listed (c.changes.map Assignment.sql) := rfl
  rw [← text_boundTuples, ← hconflict ⟨keyColumns, (columnNames ρ).flatMap changesOf⟩]
  simp only [upsertQuery, Statement.sql, Sql.Insert.sql, upsertInsert]
  rfl

/-! ### What changes in a row that is there -/

/-- The column that takes the value of the row that could not be inserted. -/
def Sql.Assignment.proposed? : Assignment → Option String
  | proposed column => some column
  | _ => none

/-- All columns change but the key and the creator. -/
theorem proposed_changes :
    ((columnNames ρ).flatMap changesOf).filterMap Assignment.proposed? =
      (columnNames ρ).filter (· ∉ createdByColumn :: keyColumns) := by
  induction columnNames ρ with
  | nil => rfl
  | cons column rest ih =>
      rw [List.flatMap_cons, List.filterMap_append, ih, changesOf]
      by_cases hspared : column ∈ createdByColumn :: keyColumns
      · rw [if_pos hspared, List.filter_cons,
          if_neg (by simpa only [decide_eq_true_eq, Decidable.not_not] using hspared)]
        rfl
      · rw [if_neg hspared, List.filter_cons, if_pos (decide_eq_true hspared)]
        split <;> rfl

section

variable {records : List ρ} {proposed before after : StoredRow}

/-- Columns that change hold what was to be inserted. -/
theorem lookup_of_changes (h : (upsertQuery records).Changes proposed before after)
    {column : String} (hcolumn : column ∈ columnNames ρ)
    (hwritten : column ∉ createdByColumn :: keyColumns) :
    after.lookup column = proposed.lookup column :=
  h.done (.proposed column) (List.mem_flatMap.mpr ⟨column, hcolumn, proposed_mem_changesOf hwritten⟩)

/-- The key, the creator and the request for a refresh stay. -/
theorem lookup_of_spared [Record ρ] [LawfulStored ρ]
    (h : (upsertQuery records).Changes proposed before after)
    {column : String} (hspared : column ∈ refreshColumn :: createdByColumn :: keyColumns) :
    after.lookup column = before.lookup column := by
  refine h.kept column fun hmem => ?_
  obtain ⟨change, hchange, rfl⟩ := List.mem_map.mp hmem
  obtain ⟨column, hcolumn, hchange⟩ := List.mem_flatMap.mp hchange
  rcases mem_changesOf hchange with ⟨rfl, hwritten⟩ | rfl
  · rcases List.mem_cons.mp hspared with hrefresh | hspared
    · exact LawfulStored.refresh_not_mem (ρ := ρ) (hrefresh ▸ hcolumn)
    · exact hwritten hspared
  · revert hspared
    decide

end

/-! ### Deleting what was written -/

/-- The column that a condition is about. -/
def Sql.Condition.column : Sql.Condition → String
  | is column _ | isBound column _ | isAmong column _ => column

theorem holds_congr {parameters : List Value} {row row' : StoredRow} {c : Sql.Condition}
    (h : row.lookup c.column = row'.lookup c.column) :
    c.holds parameters row = c.holds parameters row' := by
  cases c <;>
  · rw [Sql.Condition.column] at h
    rw [Sql.Condition.holds, Sql.Condition.holds, h]

/-! ### Fields by their names -/

/-- Rows whose fields have names. -/
class Spelled (ρ : Type) where
  /-- The field of this name, as a value. -/
  field? : ρ → String → Option Value

instance : Spelled PortfolioRecord where
  field? r
    | "client_code" => some (.text r.client)
    | "provider" => some (.text r.provider)
    | "total_active_deposits" => some (.integer r.activeDeposits)
    | "invested_value" => some (.amount r.invested)
    | "current_value" => some (.amount r.current)
    | "interest_earned" => some (.amount r.interest)
    | "returns_value" => some (.amount r.returns)
    | "returns_percentage" => some (.amount r.returnsPercentage)
    | "invalid_client" => some (.flag r.isInvalid)
    | "api_error" => some (.text r.apiError)
    | "created_by" => some (.text r.createdBy)
    | "updated_by" => some (.text r.updatedBy)
    | _ => none

instance : Spelled PendingJourneyRecord where
  field? r
    | "client_code" => some (.text r.client)
    | "provider" => some (.text r.provider)
    | "pending" => some (.flag r.pending)
    | "payment_pending" => some (.flag r.paymentPending)
    | "kyc_pending" => some (.flag r.kycPending)
    | "invalid_client" => some (.flag r.isInvalid)
    | "api_error" => some (.text r.apiError)
    | "created_by" => some (.text r.createdBy)
    | "updated_by" => some (.text r.updatedBy)
    | _ => none

/-- Rows whose fields are written to columns of the same names, each to one column and all of
them. -/
class LawfulSpelled (ρ : Type) [Record ρ] [Stored ρ] [Spelled ρ] : Prop extends LawfulStored ρ where
  field?_column (c : Column ρ) (hc : c ∈ Stored.columns) (r : ρ) :
    Spelled.field? r c.name = some (c.value r)
  mem_columnNames (r : ρ) (name : String) (h : (Spelled.field? r name).isSome = true) :
    name ∈ columnNames ρ
  nodup_columnNames : (columnNames ρ).Nodup
  /-- Whether a row is stale depends on columns that are written. -/
  stale_columns (c : Sql.Condition) (hc : c ∈ Stored.staleWhen ρ) :
    c.column ∈ columnNames ρ ∧ c.column ≠ createdByColumn

instance : LawfulSpelled PortfolioRecord where
  field?_column c hc r := by
    simp only [Stored.columns, List.mem_cons, List.not_mem_nil, or_false] at hc
    rcases hc with rfl | rfl | rfl | rfl | rfl | rfl | rfl | rfl | rfl | rfl | rfl | rfl <;> rfl
  mem_columnNames r name h := by
    simp only [Spelled.field?] at h
    split at h <;> first | decide | cases h
  nodup_columnNames := by decide
  stale_columns c hc := by
    simp only [Stored.staleWhen, List.mem_cons, List.not_mem_nil, or_false] at hc
    rcases hc with rfl | rfl <;> decide

instance : LawfulSpelled PendingJourneyRecord where
  field?_column c hc r := by
    simp only [Stored.columns, List.mem_cons, List.not_mem_nil, or_false] at hc
    rcases hc with rfl | rfl | rfl | rfl | rfl | rfl | rfl | rfl | rfl <;> rfl
  mem_columnNames r name h := by
    simp only [Spelled.field?] at h
    split at h <;> first | decide | cases h
  nodup_columnNames := by decide
  stale_columns c hc := by
    simp only [Stored.staleWhen, List.mem_cons, List.not_mem_nil, or_false] at hc
    rcases hc with rfl | rfl <;> decide

section

variable [Record ρ] [Spelled ρ] [LawfulSpelled ρ]

/-- The row of a record holds its fields in the columns of their names. -/
theorem lookup_row_eq_field? {column : String} (h : column ∈ columnNames ρ) (record : ρ) :
    (Stored.row record).lookup column = Spelled.field? record column := by
  rw [lookup_row]
  cases hfind : (Stored.columns : List (Column ρ)).find? fun c => column == c.name with
  | none =>
      obtain ⟨c, hc, rfl⟩ := List.mem_map.mp h
      exact absurd (beq_self_eq_true c.name) (List.find?_eq_none.mp hfind c hc)
  | some c =>
      obtain rfl : column = c.name := by simpa using List.find?_some hfind
      exact (LawfulSpelled.field?_column c (List.mem_of_find?_eq_some hfind) record).symm

/-- The cleanup deletes a row exactly if it holds a stale record, whoever created it. -/
theorem selects_delete {record : ρ} {row : StoredRow}
    (h : ∀ column ∈ columnNames ρ, column ≠ createdByColumn →
      row.lookup column = Spelled.field? record column) :
    (deleteQuery ρ).selects row = Record.isStale record := by
  rw [← LawfulStored.all_staleWhen ⟨record, false⟩, Bool.eq_iff_iff, Query.selects,
    List.all_eq_true, List.all_eq_true]
  refine forall₂_congr fun c hc => ?_
  obtain ⟨hcolumn, hcreator⟩ := LawfulSpelled.stale_columns c hc
  have hrefresh : c.column ≠ refreshColumn := fun h =>
    LawfulStored.refresh_not_mem (ρ := ρ) (h ▸ hcolumn)
  have hsame : row.lookup c.column = (Row.stored ⟨record, false⟩).lookup c.column := by
    rw [h _ hcolumn hcreator, lookup_stored, if_neg hrefresh, lookup_row_eq_field? hcolumn]
  exact iff_of_eq (congrArg (· = true) (holds_congr hsame))

end

/-! ### The meaning of the statement -/

/-- The statement that writes records says what the records say. It names these columns, has tuples
of so many placeholders, and says with these texts what changes in a row that is there. The records
are stale under this condition. -/
structure UpsertMeans [Record ρ] [Spelled ρ] (width : Nat) (columns changes : List String)
    (condition : String) (records : List ρ) : Prop where
  sql : (upsertQuery records).statement.sql =
    "INSERT INTO " ++ Stored.table ρ ++ " (" ++ listed columns ++ ") VALUES " ++
      listed ((List.range records.length).map (tupleText width)) ++
      (" ON CONFLICT (" ++ "client_code, provider" ++ ") DO UPDATE SET " ++ listed changes)
  sql_cleanup : (deleteQuery ρ).statement.sql =
    "DELETE FROM " ++ Stored.table ρ ++ " WHERE " ++ condition
  /-- There is one tuple for each record. -/
  length_tuples : (upsertInsert ρ records.length).tuples.length = records.length
  length_tuple : ∀ tuple ∈ (upsertInsert ρ records.length).tuples, tuple.length = width
  /-- The placeholders are counted from one through all tuples. -/
  placeholders : (upsertInsert ρ records.length).tuples.flatten =
    (List.range (width * records.length)).map fun k => Expression.bound (k + 1)
  /-- There are as many values as placeholders. -/
  length_parameters : (upsertQuery records).parameters.length = width * records.length
  /-- The columns are the fields, each once. -/
  fields : columns.Nodup ∧
    ∀ (record : ρ) name, name ∈ columns ↔ (Spelled.field? record name).isSome = true
  /-- The placeholder in the column of a field stands for that field of the record. -/
  value : ∀ (i : Nat) record (p : Nat) name,
    records[i]? = some record → columns[p]? = some name →
    ∃ k, (upsertInsert ρ records.length).tuples[i]?.bind (·[p]?) = some (Expression.bound k) ∧
      boundValue? (upsertQuery records).parameters k = Spelled.field? record name
  rows : (upsertInsert ρ records.length).rows? (upsertQuery records).parameters =
    some (records.map Stored.row)
  key : (upsertInsert ρ records.length).conflict.map Sql.Conflict.key =
    some ["client_code", "provider"]
  /-- The columns that change in a row that is there. -/
  proposed : (upsertQuery records).statement.changes.filterMap Assignment.proposed? =
    columns.filter (· ∉ ["created_by", "client_code", "provider"])
  others : ∀ change ∈ (upsertQuery records).statement.changes,
    change.proposed? = none → change = .now "updated_at"
  /-- Records for which there is no row get one with their fields. -/
  inserted : ∀ (record : ρ) refresh,
    (∀ name, (Stored.row record).lookup name = Spelled.field? record name) ∧
      (deleteQuery ρ).selects (Row.stored ⟨record, refresh⟩) = Record.isStale record
  /-- A row with the key of a record can be changed as the statement says, and however this is
  done, it keeps its creator and its request for a refresh and has the fields of the record. -/
  overwritten : ∀ (record : ρ) (row : Row ρ), row.key = Record.key record →
    (upsertQuery records).Changes (Stored.row record) row.stored
        (Table.overwritten (some row) record).stored ∧
      ∀ after, (upsertQuery records).Changes (Stored.row record) row.stored after →
        after.lookup "created_by" = row.stored.lookup "created_by" ∧
          after.lookup "to_be_refreshed" = row.stored.lookup "to_be_refreshed" ∧
          (∀ name ∈ columns, name ≠ "created_by" →
            after.lookup name = Spelled.field? record name) ∧
          (deleteQuery ρ).selects after = Record.isStale record

section

variable [Record ρ] [Spelled ρ] [LawfulSpelled ρ]

theorem field?_eq_none {record : ρ} {name : String} (h : name ∉ columnNames ρ) :
    Spelled.field? record name = none :=
  Option.not_isSome_iff_eq_none.mp fun hsome => h (LawfulSpelled.mem_columnNames record name hsome)

theorem isSome_field? {name : String} (h : name ∈ columnNames ρ) (record : ρ) :
    (Spelled.field? record name).isSome = true := by
  obtain ⟨c, hc, rfl⟩ := List.mem_map.mp h
  rw [LawfulSpelled.field?_column c hc]
  rfl

theorem lookup_key_stored {record : ρ} {row : Row ρ} (hkey : row.key = Record.key record)
    {name : String} (hname : name ∈ keyColumns) :
    row.stored.lookup name = (Stored.row record).lookup name := by
  obtain ⟨hclient, hprovider⟩ := Prod.mk.inj hkey
  simp only [keyColumns, List.mem_cons, List.not_mem_nil, or_false] at hname
  rcases hname with rfl | rfl
  · rw [lookup_client_stored, LawfulStored.lookup_client, hclient]
  · rw [lookup_provider_stored, LawfulStored.lookup_provider, hprovider]

/-- A row that is changed as the statement says has the fields of the record. -/
theorem lookup_overwritten {records : List ρ} {record : ρ} {row : Row ρ}
    (hkey : row.key = Record.key record) {after : StoredRow}
    (h : (upsertQuery records).Changes (Stored.row record) row.stored after) {name : String}
    (hname : name ∈ columnNames ρ) (hcreator : name ≠ createdByColumn) :
    after.lookup name = Spelled.field? record name := by
  rw [← lookup_row_eq_field? hname]
  by_cases hspared : name ∈ keyColumns
  · rw [lookup_of_spared h (List.mem_cons_of_mem _ (List.mem_cons_of_mem _ hspared)),
      lookup_key_stored hkey hspared]
  · refine lookup_of_changes h hname fun hmem => ?_
    exact (List.mem_cons.mp hmem).elim hcreator hspared

/-- The meaning does not depend on what the columns are called. -/
theorem upsertMeans {width : Nat} {columns changes : List String} {condition : String}
    (hwidth : (columnNames ρ).length = width) (hcolumns : columnNames ρ = columns)
    (hchanges : ((columnNames ρ).flatMap changesOf).map Assignment.sql = changes)
    (hcondition : Sql.conditionsSql (Stored.staleWhen ρ) = condition) (records : List ρ) :
    UpsertMeans width columns changes condition records where
  sql := by
    have hkey : listed keyColumns = "client_code, provider" := by decide +kernel
    rw [sql_upsertQuery, hwidth, hcolumns, hkey, ← hcolumns, hchanges]
  sql_cleanup := by
    rw [← hcondition]
    rfl
  length_tuples := length_boundTuples _ _
  length_tuple tuple htuple := by
    obtain ⟨i, -, rfl⟩ := List.mem_map.mp htuple
    rw [length_boundTuple, hwidth]
  placeholders := by rw [upsertInsert, flatten_boundTuples, hwidth, Nat.mul_comm]
  length_parameters := by
    rw [upsertQuery, length_flatMap_of_length length_rowValues, hwidth, Nat.mul_comm]
  fields := hcolumns ▸ ⟨LawfulSpelled.nodup_columnNames, fun record name =>
    ⟨fun hname => isSome_field? hname record, LawfulSpelled.mem_columnNames record name⟩⟩
  value i record p name hrecord hname := by
    rw [← hcolumns] at hname
    have hp : p < (columnNames ρ).length := (List.getElem?_eq_some_iff.mp hname).1
    have hi : i < records.length := (List.getElem?_eq_some_iff.mp hrecord).1
    refine ⟨_, getElem?_boundTuples hi hp, ?_⟩
    rw [upsertQuery, boundValue?_upsert records i hp, hrecord, Option.bind_some]
    rw [columnNames, List.getElem?_map, Option.map_eq_some_iff] at hname
    obtain ⟨c, hc, rfl⟩ := hname
    rw [rowValues, List.getElem?_map, hc, LawfulSpelled.field?_column c (List.mem_of_getElem? hc)]
    rfl
  rows := rows?_upsert records
  key := rfl
  proposed := hcolumns ▸ proposed_changes
  others change hchange hproposed := by
    obtain ⟨column, -, hchange⟩ := List.mem_flatMap.mp hchange
    rcases mem_changesOf hchange with ⟨rfl, -⟩ | rfl
    · cases hproposed
    · rfl
  inserted record refresh := by
    refine ⟨fun name => ?_, selects_delete fun column hcolumn _ => ?_⟩
    · by_cases hname : name ∈ columnNames ρ
      · exact lookup_row_eq_field? hname record
      · rw [lookup_row_eq_none hname, field?_eq_none hname]
    · have hrefresh : column ≠ refreshColumn := fun h =>
        LawfulStored.refresh_not_mem (ρ := ρ) (h ▸ hcolumn)
      rw [lookup_stored, if_neg hrefresh, lookup_row_eq_field? hcolumn]
  overwritten record row hkey := by
    refine ⟨overwritten_eq_upsert records record row hkey, fun after h => ?_⟩
    have hfields : ∀ name ∈ columnNames ρ, name ≠ createdByColumn →
        after.lookup name = Spelled.field? record name :=
      fun name hname hcreator => lookup_overwritten hkey h hname hcreator
    exact ⟨lookup_of_spared h (by decide), lookup_of_spared h (by decide), hcolumns ▸ hfields,
      selects_delete hfields⟩

end

/-- **What the writing statements mean.** For every list of records, the statement that writes it
has a tuple of placeholders for each record, counted from one through all of them; the placeholder in
the column of a field stands for that field of the record. A row that is there keeps its creator and
its request for a refresh, and has the other fields of the record afterwards. Whether the row was
there or not, the cleanup deletes what is stored exactly if the record is stale. -/
theorem upserts_mean_records :
    (∀ records : List PortfolioRecord, UpsertMeans 12
      ["client_code", "provider", "total_active_deposits", "invested_value", "current_value",
        "interest_earned", "returns_value", "returns_percentage", "created_by", "updated_by",
        "invalid_client", "api_error"]
      ["total_active_deposits = EXCLUDED.total_active_deposits",
        "invested_value = EXCLUDED.invested_value", "current_value = EXCLUDED.current_value",
        "interest_earned = EXCLUDED.interest_earned", "returns_value = EXCLUDED.returns_value",
        "returns_percentage = EXCLUDED.returns_percentage", "updated_by = EXCLUDED.updated_by",
        "updated_at = NOW()", "invalid_client = EXCLUDED.invalid_client",
        "api_error = EXCLUDED.api_error"]
      "total_active_deposits = 0 AND invalid_client = FALSE" records) ∧
    ∀ records : List PendingJourneyRecord, UpsertMeans 9
      ["client_code", "provider", "pending", "payment_pending", "kyc_pending", "created_by",
        "updated_by", "invalid_client", "api_error"]
      ["pending = EXCLUDED.pending", "payment_pending = EXCLUDED.payment_pending",
        "kyc_pending = EXCLUDED.kyc_pending", "updated_by = EXCLUDED.updated_by",
        "updated_at = NOW()", "invalid_client = EXCLUDED.invalid_client",
        "api_error = EXCLUDED.api_error"]
      "pending = FALSE AND invalid_client = FALSE" records :=
  ⟨upsertMeans rfl rfl (by decide +kernel) (by decide +kernel),
    upsertMeans rfl rfl (by decide +kernel) (by decide +kernel)⟩

end DepositSync
