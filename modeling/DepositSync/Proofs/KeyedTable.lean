import DepositSync.Proofs.Laws
import DepositSync.Store.Table

/-!
# DepositSync.Proofs.KeyedTable

Tables as finite maps. A table whose rows are in strictly ascending order of their keys
(`Table.Sorted`) has at most one row for each key, and it is determined by the rows it has
(`Table.ext`). Every operation keeps the order, and each has one equation that says which row is
found under a key afterwards. Proofs about runs use these equations and no other fact about lists.
-/

namespace DepositSync

variable {ρ : Type}

/-! ### The order of keys -/

theorem keyBefore_iff {a b : String × String} :
    keyBefore a b = true ↔ a.1 < b.1 ∨ a.1 = b.1 ∧ a.2 < b.2 := by
  simp [keyBefore]

theorem ne_of_keyBefore {a b : String × String} (h : keyBefore a b = true) : a ≠ b := by
  rintro rfl
  simp [keyBefore] at h

theorem keyBefore_trans {a b c : String × String} (hab : keyBefore a b = true)
    (hbc : keyBefore b c = true) : keyBefore a c = true := by
  rw [keyBefore_iff] at *
  rcases hab with hab | ⟨hab, hab'⟩ <;> rcases hbc with hbc | ⟨hbc, hbc'⟩
  · exact .inl (String.lt_trans hab hbc)
  · exact .inl (hbc ▸ hab)
  · exact .inl (hab ▸ hbc)
  · exact .inr ⟨hab.trans hbc, String.lt_trans hab' hbc'⟩

/-- Of two keys one is before the other. -/
theorem keyBefore_of_ne {a b : String × String} (hne : a ≠ b) (h : keyBefore a b = false) :
    keyBefore b a = true := by
  rw [keyBefore_iff]
  rw [← Bool.not_eq_true, keyBefore_iff, not_or, not_and] at h
  obtain ⟨hfst, hsnd⟩ := h
  rcases Std.lt_trichotomy a.1 b.1 with h | h | h
  · exact absurd h hfst
  · rcases Std.lt_trichotomy a.2 b.2 with h' | h' | h'
    · exact absurd h' (hsnd h)
    · exact absurd (Prod.ext h h') hne
    · exact .inr ⟨h.symm, h'⟩
  · exact .inl h

namespace Table

variable [Record ρ]

/-! ### Sorted tables -/

/-- The rows are in ascending order of their keys, no two of which are the same. -/
def Sorted (t : Table ρ) : Prop :=
  t.Pairwise fun a b => keyBefore a.key b.key = true

instance (t : Table ρ) : Decidable t.Sorted :=
  inferInstanceAs (Decidable (t.Pairwise fun a b => keyBefore a.key b.key = true))

theorem find?_cons (row : Row ρ) (t : Table ρ) (key : String × String) :
    find? (row :: t) key = if row.key = key then some row else find? t key := by
  by_cases h : row.key = key <;> simp [find?, h]

theorem key_of_find? {t : Table ρ} {key : String × String} {row : Row ρ}
    (h : t.find? key = some row) : row.key = key := by
  simpa using List.find?_some h

theorem mem_of_find? {t : Table ρ} {key : String × String} {row : Row ρ}
    (h : t.find? key = some row) : row ∈ t :=
  List.mem_of_find?_eq_some h

/-- In a sorted table every row is the one that is found under its key. -/
theorem find?_of_mem {t : Table ρ} (ht : t.Sorted) {row : Row ρ} (h : row ∈ t) :
    t.find? row.key = some row := by
  induction t with
  | nil => simp at h
  | cons r rest ih =>
      obtain ⟨hbefore, hrest⟩ := List.pairwise_cons.mp ht
      rw [find?_cons]
      rcases List.mem_cons.mp h with rfl | h
      · rw [if_pos rfl]
      · rw [if_neg (ne_of_keyBefore (hbefore row h)), ih hrest h]

theorem mem_iff_find? {t : Table ρ} (ht : t.Sorted) {row : Row ρ} :
    row ∈ t ↔ t.find? row.key = some row :=
  ⟨find?_of_mem ht, mem_of_find?⟩

theorem Sorted.nodup {t : Table ρ} (ht : t.Sorted) : t.Nodup :=
  ht.imp fun hbefore heq => ne_of_keyBefore hbefore (congrArg Row.key heq)

/-- Sorted tables with the same rows under all keys are the same. -/
theorem ext {t t' : Table ρ} (ht : t.Sorted) (ht' : t'.Sorted)
    (h : ∀ key, t.find? key = t'.find? key) : t = t' := by
  have hmem (row : Row ρ) : row ∈ t ↔ row ∈ t' := by
    rw [mem_iff_find? ht, mem_iff_find? ht', h]
  refine List.Perm.eq_of_pairwise (fun a b _ _ hab hba => ?_) ht ht'
    ((List.perm_ext_iff_of_nodup ht.nodup ht'.nodup).mpr hmem)
  exact absurd rfl (ne_of_keyBefore (keyBefore_trans hab hba))

/-! ### Putting rows in -/

theorem mem_put {t : Table ρ} {row r : Row ρ} (h : r ∈ t.put row) : r = row ∨ r ∈ t := by
  induction t with
  | nil => exact .inl (by simpa [put] using h)
  | cons a rest ih =>
      unfold put at h
      split at h
      · rcases List.mem_cons.mp h with rfl | h
        · exact .inl rfl
        · exact .inr (List.mem_cons_of_mem a h)
      · split at h
        · rcases List.mem_cons.mp h with rfl | h
          · exact .inl rfl
          · exact .inr h
        · rcases List.mem_cons.mp h with rfl | h
          · exact .inr (List.mem_cons_self ..)
          · exact (ih h).imp_right (List.mem_cons_of_mem a)

theorem Sorted.put {t : Table ρ} (ht : t.Sorted) (row : Row ρ) : (t.put row).Sorted := by
  induction t with
  | nil => simp [Sorted, Table.put]
  | cons a rest ih =>
      obtain ⟨hbefore, hrest⟩ := List.pairwise_cons.mp ht
      unfold Table.put
      split
      · next hkey =>
        exact List.pairwise_cons.mpr ⟨fun r hr => hkey ▸ hbefore r hr, hrest⟩
      · next hne =>
        split
        · next hlt =>
          refine List.pairwise_cons.mpr ⟨fun r hr => ?_, ht⟩
          rcases List.mem_cons.mp hr with rfl | hr
          · exact hlt
          · exact keyBefore_trans hlt (hbefore r hr)
        · next hge =>
          refine List.pairwise_cons.mpr ⟨fun r hr => ?_, ih hrest⟩
          rcases mem_put hr with rfl | hr
          · exact keyBefore_of_ne hne (Bool.not_eq_true _ ▸ hge)
          · exact hbefore r hr

/-- Putting a row in changes what is found under its key, and nothing else. -/
theorem find?_put (t : Table ρ) (row : Row ρ) (key : String × String) :
    (t.put row).find? key = if row.key = key then some row else t.find? key := by
  induction t with
  | nil => simp [put, find?_cons]
  | cons a rest ih =>
      unfold put
      split
      · next hkey =>
        rw [find?_cons, find?_cons, hkey]
        split <;> rfl
      · next hne =>
        split
        · rw [find?_cons]
        · rw [find?_cons, find?_cons, ih]
          by_cases ha : a.key = key
          · rw [if_pos ha, if_neg fun hrow => hne (hrow.trans ha.symm), if_pos ha]
          · rw [if_neg ha, if_neg ha]

/-! ### Writing records -/

/-- The row of a record that is written where there was this row, or none. -/
def overwritten (old : Option (Row ρ)) (record : ρ) : Row ρ :=
  match old with
  | some row => ⟨Record.withCreatedBy (Record.createdBy row.record) record, row.refresh⟩
  | none => ⟨record, false⟩

theorem upsertOne_eq_put (t : Table ρ) (record : ρ) :
    t.upsertOne record = t.put (overwritten (t.find? (Record.key record)) record) := by
  unfold upsertOne overwritten
  cases t.find? (Record.key record) <;> rfl

@[simp] theorem upsert_cons (record : ρ) (records : List ρ) (t : Table ρ) :
    t.upsert (record :: records) = (t.upsertOne record).upsert records := rfl

/-- Records can be written in parts. -/
theorem upsert_append (records more : List ρ) (t : Table ρ) :
    t.upsert (records ++ more) = (t.upsert records).upsert more :=
  List.foldl_append

theorem Sorted.upsert {t : Table ρ} (ht : t.Sorted) (records : List ρ) :
    (t.upsert records).Sorted := by
  induction records generalizing t with
  | nil => exact ht
  | cons record rest ih => exact ih (upsertOne_eq_put t record ▸ ht.put _)

section

variable [LawfulRecord ρ]

@[simp] theorem key_overwritten (old : Option (Row ρ)) (record : ρ) :
    (overwritten old record).key = Record.key record := by
  cases old with
  | none => rfl
  | some row => exact LawfulRecord.key_withCreatedBy _ record

@[simp] theorem isInvalid_overwritten (old : Option (Row ρ)) (record : ρ) :
    Record.isInvalid (overwritten old record).record = Record.isInvalid record := by
  cases old with
  | none => rfl
  | some row => exact LawfulRecord.isInvalid_withCreatedBy _ record

@[simp] theorem isStale_overwritten (old : Option (Row ρ)) (record : ρ) :
    Record.isStale (overwritten old record).record = Record.isStale record := by
  cases old with
  | none => rfl
  | some row => exact LawfulRecord.isStale_withCreatedBy _ record

/-- Writing a record again over its row changes nothing. -/
@[simp] theorem overwritten_overwritten (row : Row ρ) (record : ρ) :
    overwritten (some (overwritten (some row) record)) record = overwritten (some row) record := by
  simp [overwritten]

theorem find?_upsertOne (t : Table ρ) (record : ρ) (key : String × String) :
    (t.upsertOne record).find? key =
      if Record.key record = key then some (overwritten (t.find? key) record)
      else t.find? key := by
  rw [upsertOne_eq_put, find?_put, key_overwritten]
  by_cases h : Record.key record = key
  · rw [if_pos h, if_pos h, h]
  · rw [if_neg h, if_neg h]

/-- Writing takes no row away. -/
theorem isSome_find?_upsert (records : List ρ) {t : Table ρ} {key : String × String}
    (h : (t.find? key).isSome) : ((t.upsert records).find? key).isSome := by
  induction records generalizing t with
  | nil => exact h
  | cons record rest ih =>
      refine ih ?_
      rw [find?_upsertOne]
      split
      · rfl
      · exact h

/-- What is found under a key that no record has is left alone. -/
theorem find?_upsert_of_not_mem {records : List ρ} {key : String × String}
    (h : key ∉ records.map Record.key) (t : Table ρ) :
    (t.upsert records).find? key = t.find? key := by
  induction records generalizing t with
  | nil => rfl
  | cons record rest ih =>
      simp only [List.map_cons, List.mem_cons, not_or] at h
      rw [upsert_cons, ih h.2, find?_upsertOne, if_neg (Ne.symm h.1)]

/-- Writing over rows that are there clears no request, and makes none. -/
theorem refresh_find?_upsert {records : List ρ} {t : Table ρ}
    (h : ∀ record ∈ records, (t.find? (Record.key record)).isSome) (key : String × String) :
    ((t.upsert records).find? key).map Row.refresh = (t.find? key).map Row.refresh := by
  induction records generalizing t with
  | nil => rfl
  | cons record rest ih =>
      have hone : ((t.upsertOne record).find? key).map Row.refresh =
          (t.find? key).map Row.refresh := by
        rw [find?_upsertOne]
        split
        · next hkey =>
          obtain ⟨row, hrow⟩ := Option.isSome_iff_exists.mp (h record (List.mem_cons_self ..))
          rw [← hkey, hrow]
          rfl
        · rfl
      rw [upsert_cons, ih (fun r hr => ?_), hone]
      exact isSome_find?_upsert [record] (h r (List.mem_cons_of_mem _ hr))

/-- Where every key is written once, a record is written over what was there at the start. -/
theorem find?_upsert_of_mem {records : List ρ} (hnodup : (records.map Record.key).Nodup)
    {record : ρ} (h : record ∈ records) (t : Table ρ) :
    (t.upsert records).find? (Record.key record) =
      some (overwritten (t.find? (Record.key record)) record) := by
  induction records generalizing t with
  | nil => simp at h
  | cons r rest ih =>
      obtain ⟨hnot, hrest⟩ := List.nodup_cons.mp hnodup
      rw [upsert_cons]
      rcases List.mem_cons.mp h with rfl | h
      · rw [find?_upsert_of_not_mem hnot, find?_upsertOne, if_pos rfl]
      · have hne : Record.key r ≠ Record.key record := fun heq =>
          hnot (heq ▸ List.mem_map_of_mem h)
        rw [ih hrest h, find?_upsertOne, if_neg hne]

end

/-! ### Clearing requests -/

section

variable [LawfulRecord ρ]

/-- The row when the requests of these clients are cleared. -/
def marked (actor provider : String) (clients : List String) (row : Row ρ) : Row ρ :=
  if Record.provider row.record = provider ∧ Record.client row.record ∈ clients then
    ⟨Record.withUpdatedBy actor row.record, false⟩
  else row

@[simp] theorem key_marked (actor provider : String) (clients : List String) (row : Row ρ) :
    (marked actor provider clients row).key = row.key := by
  unfold marked
  split
  · exact LawfulRecord.key_withUpdatedBy actor row.record
  · rfl

theorem Sorted.mark {t : Table ρ} (ht : t.Sorted) (actor provider : String)
    (clients : List String) : (t.mark actor provider clients).Sorted := by
  refine List.pairwise_map.mpr (ht.imp fun {a b} hbefore => ?_)
  have ha := key_marked actor provider clients a
  have hb := key_marked actor provider clients b
  rw [marked] at ha hb
  rw [ha, hb]
  exact hbefore

theorem find?_mark (t : Table ρ) (actor provider : String) (clients : List String)
    (key : String × String) :
    (t.mark actor provider clients).find? key =
      (t.find? key).map (marked actor provider clients) := by
  induction t with
  | nil => rfl
  | cons row rest ih =>
      have hcons : mark actor provider clients (row :: rest) =
          marked actor provider clients row :: mark actor provider clients rest := rfl
      rw [hcons, find?_cons, find?_cons, key_marked, ih]
      split <;> rfl

end

/-! ### Setting requests -/

theorem Sorted.setRefresh {t : Table ρ} (ht : t.Sorted) (client provider : String) (value : Bool) :
    (t.setRefresh client provider value).Sorted := by
  refine List.pairwise_map.mpr (ht.imp fun {a b} hbefore => ?_)
  have hkey (row : Row ρ) : (if row.key = (client, provider) then { row with refresh := value }
      else row).key = row.key := by
    split <;> rfl
  rw [hkey, hkey]
  exact hbefore

/-- A request is set on the row of its key, and nothing else changes. -/
theorem find?_setRefresh (t : Table ρ) (client provider : String) (value : Bool)
    (key : String × String) :
    (t.setRefresh client provider value).find? key = (t.find? key).map fun row =>
      if key = (client, provider) then { row with refresh := value } else row := by
  induction t with
  | nil => rfl
  | cons row rest ih =>
      have hcons : setRefresh client provider value (row :: rest) =
          (if row.key = (client, provider) then { row with refresh := value } else row) ::
            setRefresh client provider value rest := rfl
      have hkey : (if row.key = (client, provider) then { row with refresh := value }
          else row).key = row.key := by
        split <;> rfl
      rw [hcons, find?_cons, find?_cons, hkey, ih]
      by_cases h : row.key = key
      · rw [if_pos h, if_pos h, h]
        rfl
      · rw [if_neg h, if_neg h]

/-! ### Deleting stale rows -/

theorem Sorted.deleteStale {t : Table ρ} (ht : t.Sorted) : t.deleteStale.Sorted :=
  ht.filter _

/-- A row is found after the cleanup if it was there and is not stale. -/
theorem find?_deleteStale {t : Table ρ} (ht : t.Sorted) (key : String × String) :
    t.deleteStale.find? key = (t.find? key).filter fun row => !Record.isStale row.record := by
  cases hrow : t.find? key with
  | none =>
      refine List.find?_eq_none.mpr fun row hmem => ?_
      exact List.find?_eq_none.mp hrow row (List.mem_filter.mp hmem).1
  | some row =>
      obtain rfl := key_of_find? hrow
      cases hstale : Record.isStale row.record with
      | true =>
          rw [Option.filter_some_neg (by simp [hstale])]
          refine List.find?_eq_none.mpr fun other hmem hkey => ?_
          obtain ⟨hmem, hother⟩ := List.mem_filter.mp hmem
          have : some other = some row := by
            rw [← find?_of_mem ht hmem, beq_iff_eq.mp hkey, hrow]
          simp_all
      | false =>
          rw [Option.filter_some_pos (by simp [hstale])]
          exact find?_of_mem ht.deleteStale
            (List.mem_filter.mpr ⟨mem_of_find? hrow, by simp [hstale]⟩)

/-! ### Listing clients -/

/-- The clients that are listed are those with a row that is not invalid and, where only requests
count, has one. -/
theorem mem_list {t : Table ρ} (ht : t.Sorted) {provider : String} {instantOnly : Bool}
    {client : String} :
    client ∈ t.list provider instantOnly ↔
      ∃ row, t.find? (client, provider) = some row ∧ Record.isInvalid row.record = false ∧
        (instantOnly = true → row.refresh = true) := by
  simp only [list, List.mem_map, List.mem_filter, Bool.and_eq_true, beq_iff_eq, Bool.not_eq_true',
    Bool.or_eq_true]
  constructor
  · rintro ⟨row, ⟨hmem, ⟨rfl, hvalid⟩, hasked⟩, rfl⟩
    exact ⟨row, find?_of_mem ht hmem, hvalid, fun h => hasked.resolve_left (by simp [h])⟩
  · rintro ⟨row, hrow, hvalid, hasked⟩
    obtain ⟨hclient, hprovider⟩ := Prod.mk.inj (key_of_find? hrow)
    refine ⟨row, ⟨mem_of_find? hrow, ⟨hprovider, hvalid⟩, ?_⟩, hclient⟩
    cases instantOnly with
    | false => exact .inl rfl
    | true => exact .inr (hasked rfl)

/-- Clients are listed in ascending order. -/
theorem pairwise_list {t : Table ρ} (ht : t.Sorted) (provider : String) (instantOnly : Bool) :
    (t.list provider instantOnly).Pairwise (· < ·) := by
  refine List.pairwise_map.mpr ((ht.filter _).imp_of_mem fun {a b} ha hb hbefore => ?_)
  simp only [List.mem_filter, Bool.and_eq_true, beq_iff_eq] at ha hb
  have hprovider : a.key.2 = b.key.2 := ha.2.1.1.trans hb.2.1.1.symm
  rcases keyBefore_iff.mp hbefore with hlt | ⟨-, hlt⟩
  · exact hlt
  · exact absurd (hprovider ▸ hlt) (String.lt_irrefl _)

/-- No client is listed twice. -/
theorem nodup_list {t : Table ρ} (ht : t.Sorted) (provider : String) (instantOnly : Bool) :
    (t.list provider instantOnly).Nodup := by
  refine (pairwise_list ht provider instantOnly).imp fun {a b} hlt heq => ?_
  exact String.lt_irrefl a (heq ▸ hlt)

end Table

end DepositSync
