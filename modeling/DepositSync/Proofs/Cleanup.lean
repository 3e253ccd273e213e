import DepositSync.Proofs.Account
import Mathlib.Data.List.Nodup

/-!
# DepositSync.Proofs.Cleanup

Which rows a scheduled run takes away. A run that is aborted takes none: a failure that is no
verdict costs no client its row, and its row is not even touched. A run that completes takes away
the rows that the vendor's verdicts left empty, and those of other providers that were stale before.

A rejection is a verdict, whatever status came with it. The row of a rejected client is empty, so
it is taken away, unless the vendor says that it does not know the client. An outage that the vendor
reports in the form of a rejection is no exception.
-/

namespace DepositSync

variable {ν ρ σ : Type} [Entity ν ρ]

/-! ### The row of a client that was asked about -/

namespace Account

variable {provider : String} {mode : RefreshMode} {steps : List (RunStep ν ρ σ)} {completed : Prop}
  {t t' : Table ρ}

/-- No client is asked about twice. -/
theorem nodup_asked (h : Account provider mode steps completed t t') (ht : t.Sorted) :
    ((consulted steps).map Prod.fst).Nodup :=
  (Table.nodup_list ht provider mode.isInstant).sublist h.asked.sublist

variable [LawfulEntity ρ]

/-- No row is written twice. -/
theorem nodup_stored (h : Account provider mode steps completed t t') (ht : t.Sorted) :
    ((stored steps).map Record.key).Nodup := by
  have hkeys : ((verdicts steps).map (Entity.ofAnswer provider)).map (Record.key (ρ := ρ)) =
      ((verdicts steps).map Prod.fst).map fun client => (client, provider) := by
    simp
  have hverdicts : ((verdicts steps).map Prod.fst).Nodup :=
    (h.nodup_asked ht).sublist (List.filter_sublist.map Prod.fst)
  refine List.Nodup.sublist (h.written.map Record.key).sublist ?_
  rw [hkeys]
  exact hverdicts.map fun _ _ heq => congrArg Prod.fst heq

/-- What the writing leaves of the row of a client that was asked about: the row for the vendor's
verdict, or the row that was there. -/
theorem find?_upsert_stored (h : Account provider mode steps completed t t') (ht : t.Sorted)
    {client : String} {answer : Except VendorError ν} (hasked : (client, answer) ∈ consulted steps)
    {row : Row ρ} (hrow : t.find? (client, provider) = some row) :
    (isVerdict answer = true ∧ (t.upsert (stored steps)).find? (client, provider) =
        some (Table.overwritten (some row) (Entity.ofAnswer provider (client, answer)))) ∨
      (Entity.ofAnswer provider (client, answer) ∉ stored steps ∧
        (t.upsert (stored steps)).find? (client, provider) = some row) := by
  by_cases hkey : (client, provider) ∈ (stored steps).map Record.key
  · obtain ⟨record, hrecord, hkey⟩ := List.mem_map.mp hkey
    obtain ⟨asked, hverdict, rfl⟩ := h.exists_of_mem_stored hrecord
    obtain ⟨hconsulted, hisVerdict⟩ := List.mem_filter.mp hverdict
    rw [Entity.key_ofAnswer] at hkey
    obtain rfl : asked = (client, answer) := List.inj_on_of_nodup_map (h.nodup_asked ht)
      hconsulted hasked (Prod.mk.inj hkey).1
    have hfind := Table.find?_upsert_of_mem (h.nodup_stored ht) hrecord t
    rw [Entity.key_ofAnswer, hrow] at hfind
    exact .inl ⟨hisVerdict, hfind⟩
  · refine .inr ⟨fun hmem => hkey ?_, ?_⟩
    · rw [← Entity.key_ofAnswer (ρ := ρ) provider (client, answer)]
      exact List.mem_map_of_mem hmem
    · rw [Table.find?_upsert_of_not_mem hkey, hrow]

/-- A scheduled run that completes leaves the row for the vendor's verdict, unless it is empty. -/
theorem find?_of_completed (h : Account provider .scheduled steps completed t t') (ht : t.Sorted)
    (hc : completed) {client : String} {answer : Except VendorError ν}
    (hasked : (client, answer) ∈ consulted steps) {row : Row ρ}
    (hrow : t.find? (client, provider) = some row) :
    t'.find? (client, provider) = if Entity.empties ρ client answer then none else
      some (Table.overwritten (some row) (Entity.ofAnswer provider (client, answer))) := by
  have hdelete : t' = (t.upsert (stored steps)).deleteStale := h.finished hc
  have hstored : Entity.ofAnswer provider (client, answer) ∈ stored steps := by
    rw [h.writtenAll hc]
    exact List.mem_map_of_mem hasked
  rcases h.find?_upsert_stored ht hasked hrow with ⟨-, hfind⟩ | ⟨hnot, -⟩
  · rw [hdelete, Table.find?_deleteStale (ht.upsert _), hfind, Option.filter_some,
      Table.isStale_overwritten, Entity.isStale_ofAnswer]
    cases Entity.empties ρ client answer <;> rfl
  · exact absurd hstored hnot

/-- The row of a client that was not asked about is gone after a scheduled run only if it is of
another provider and was stale. -/
theorem isStale_of_deleted (h : Account provider .scheduled steps completed t t') (ht : t.Sorted)
    (hc : completed) {key : String × String} {row : Row ρ} (hrow : t.find? key = some row)
    (hnot : key.2 = provider → key.1 ∉ (consulted steps).map Prod.fst)
    (hgone : t'.find? key = none) : key.2 ≠ provider ∧ Record.isStale row.record = true := by
  have hdelete : t' = (t.upsert (stored steps)).deleteStale := h.finished hc
  rw [hdelete, Table.find?_deleteStale (ht.upsert _),
    Table.find?_upsert_of_not_mem (h.not_mem_stored hnot), hrow] at hgone
  have hstale : Record.isStale row.record = true := by
    simpa using hgone
  refine ⟨?_, hstale⟩
  rintro rfl
  refine hnot rfl (h.askedAll hc ▸ (Table.mem_list ht).mpr ⟨row, hrow, ?_, nofun⟩)
  cases hinvalid : Record.isInvalid row.record with
  | false => rfl
  | true => exact absurd hstale (by simp [LawfulRecord.isStale_of_isInvalid _ hinvalid])

/-- A row that is gone was left empty by the vendor's verdict, or is of another provider and was
stale; and the run completed. -/
theorem deleted_cases (h : Account provider .scheduled steps completed t t') (ht : t.Sorted)
    {key : String × String} {row : Row ρ} (hrow : t.find? key = some row)
    (hgone : t'.find? key = none) :
    completed ∧ ((key.2 = provider ∧ ∃ answer, (key.1, answer) ∈ consulted steps ∧
        Entity.empties ρ key.1 answer = true) ∨
      (key.2 ≠ provider ∧ Record.isStale row.record = true)) := by
  by_cases hc : completed
  · refine ⟨hc, ?_⟩
    by_cases hmem : key.2 = provider ∧ key.1 ∈ (consulted steps).map Prod.fst
    · obtain ⟨client, p⟩ := key
      obtain ⟨rfl, hmem⟩ := hmem
      obtain ⟨⟨_, answer⟩, hasked, rfl⟩ := List.mem_map.mp hmem
      have hfind := h.find?_of_completed ht hc hasked hrow
      refine .inl ⟨rfl, answer, hasked, ?_⟩
      by_contra hfull
      rw [if_neg hfull] at hfind
      cases hgone.symm.trans hfind
    · exact .inr (h.isStale_of_deleted ht hc hrow (fun hp hm => hmem ⟨hp, hm⟩) hgone)
  · have hkept : (t'.find? key).isSome := by
      rw [h.stopped hc]
      exact Table.isSome_find?_upsert _ (by rw [hrow]; rfl)
    simp [hgone] at hkept

/-- What becomes of the row of a client that was asked about. -/
theorem asked_cases (h : Account provider .scheduled steps completed t t') (ht : t.Sorted)
    (ht' : t'.Sorted) {client : String} {answer : Except VendorError ν}
    (hasked : (client, answer) ∈ consulted steps) :
    ∃ row, t.find? (client, provider) = some row ∧
      (isVerdict answer = false → ¬completed ∧ t'.find? (client, provider) = some row ∧
        client ∈ t'.list provider false) ∧
      (t'.find? (client, provider) = none ↔ completed ∧ Entity.empties ρ client answer = true) ∧
      (client ∉ t'.list provider false → t'.find? (client, provider) = none ∨
        Entity.disowns ρ client answer = true) := by
  obtain ⟨row, hrow, hvalid, -⟩ :=
    (Table.mem_list ht).mp (h.asked.subset (List.mem_map_of_mem hasked))
  -- the client stays listed if the row that is left says nothing to the contrary
  have hlisted {left : Row ρ} (hleft : t'.find? (client, provider) = some left)
      (hvalid : Record.isInvalid left.record = false) : client ∈ t'.list provider false :=
    (Table.mem_list ht').mpr ⟨left, hleft, hvalid, nofun⟩
  have hdisowned (hleft : t'.find? (client, provider) =
      some (Table.overwritten (some row) (Entity.ofAnswer provider (client, answer))))
      (hnot : client ∉ t'.list provider false) : Entity.disowns ρ client answer = true := by
    by_contra hknown
    exact hnot (hlisted hleft (by simpa using hknown))
  refine ⟨row, hrow, ?_⟩
  by_cases hc : completed
  · have hleft := h.find?_of_completed ht hc hasked hrow
    have hverdict : (client, answer) ∈ verdicts steps := by
      rw [h.decided hc]
      exact hasked
    refine ⟨fun hno => ?_, ?_, fun hnot => ?_⟩
    · have hyes := (List.mem_filter.mp hverdict).2
      simp [hno] at hyes
    · rw [hleft, ite_eq_left_iff]
      simp [hc]
    · by_cases hempty : Entity.empties ρ client answer = true
      · exact .inl (hleft.trans (if_pos hempty))
      · exact .inr (hdisowned (hleft.trans (if_neg hempty)) hnot)
  · rcases h.find?_upsert_stored ht hasked hrow with ⟨hyes, hleft⟩ | ⟨-, hleft⟩ <;>
      rw [← h.stopped hc] at hleft
    · refine ⟨fun hno => ?_, by simp [hleft, hc], fun hnot => .inr (hdisowned hleft hnot)⟩
      simp [hno] at hyes
    · exact ⟨fun _ => ⟨hc, hleft, hlisted hleft hvalid⟩, by simp [hleft, hc],
        fun hnot => absurd (hlisted hleft hvalid) hnot⟩

end Account

/-! ### Scheduled runs -/

/-- **Which rows a scheduled run takes away.** A row that is gone was of a client on which the
vendor's verdict left it empty, or else it was of another provider and stale; and the run completed.
The row of a client that the vendor was asked about is gone exactly if the run completed and the
answer left it empty. If the payload was malformed, no answer came, or there was no token, the run
is aborted, and the client keeps its row as it is and stays listed. A client stays listed in any
case unless its row is gone or the vendor does not know it. -/
theorem scheduled_run_deletes_iff [LawfulEntity ρ] (env : Backend ν ρ σ) {s : σ}
    (hs : (env.table s).Sorted) {l : Launch} (hmode : l.mode = .scheduled) :
    let provider := l.settings.provider
    let outcome := (env.launch l s).1.outcome
    let t := env.table s
    let t' := env.table (env.launch l s).2
    (∀ key row, t.find? key = some row → t'.find? key = none → outcome = .completed ∧
      ((key.2 = provider ∧ ∃ answer, (key.1, answer) ∈ consulted (env.steps l s) ∧
          Entity.empties ρ key.1 answer = true) ∨
        (key.2 ≠ provider ∧ Record.isStale row.record = true))) ∧
    ∀ client answer, (client, answer) ∈ consulted (env.steps l s) →
      ∃ row, t.find? (client, provider) = some row ∧
        ((∃ status body, answer = .error (.malformed status body)) ∨
            (∃ failure, answer = .error (.transport failure)) ∨
            (∃ reason, answer = .error (.token reason)) →
          outcome = .aborted ∧ t'.find? (client, provider) = some row ∧
            client ∈ t'.list provider false) ∧
        (t'.find? (client, provider) = none ↔
          outcome = .completed ∧ Entity.empties ρ client answer = true) ∧
        (client ∉ t'.list provider false → t'.find? (client, provider) = none ∨
          Entity.disowns ρ client answer = true) := by
  intro provider outcome t t'
  have haccount := account_launch env l s
  rw [hmode] at haccount
  refine ⟨fun key row hrow hgone => haccount.deleted_cases hs hrow hgone,
    fun client answer hasked => ?_⟩
  have hsteps : env.steps l s ≠ [] := fun h => by simp [h] at hasked
  obtain ⟨row, hrow, hfailed, hgone, hlisted⟩ :=
    haccount.asked_cases hs (env.sorted_run (l.program ρ) hs) hasked
  refine ⟨row, hrow, fun hfailure => ?_, hgone, hlisted⟩
  obtain ⟨hc, hkept⟩ := hfailed (isVerdict_eq_false_iff.mpr hfailure)
  exact ⟨outcome_eq_aborted env hsteps hc, hkept⟩

/-- A store with a client that the vendor rejects because of an outage. -/
def oneOutage : MemoryStore NetWorth PortfolioRecord :=
  .usual ["a", "b"] [("a", .error (.api 503 (some "SERVICE_UNAVAILABLE") none))] []

/-- A store with a client about which the vendor does not answer. -/
def oneSilence : MemoryStore NetWorth PortfolioRecord :=
  .usual ["a", "b"] [("a", .error (.transport (.notAnswered "https://vendor/networth")))] []

theorem scheduled_run_deletes_iff_oneOutage :
    ((MemoryStore.backend.table (MemoryStore.backend.launch (.usual 1) oneOutage).2).find?
        ("a", upswingProvider) = none ↔
      (MemoryStore.backend.launch (.usual 1) oneOutage).1.outcome = .completed ∧
        Entity.empties PortfolioRecord "a" (oneOutage.reply "a") = true) ∧
      ∃ row, oneSilence.table.find? ("a", upswingProvider) = some row ∧
        (MemoryStore.backend.launch (.usual 1) oneSilence).1.outcome = .aborted ∧
        (MemoryStore.backend.table (MemoryStore.backend.launch (.usual 1) oneSilence).2).find?
          ("a", upswingProvider) = some row ∧
        "a" ∈ (MemoryStore.backend.table (MemoryStore.backend.launch (.usual 1) oneSilence).2).list
          upswingProvider false := by
  constructor
  · have hasked : ("a", oneOutage.reply "a") ∈
        consulted (MemoryStore.backend.steps (.usual 1) oneOutage) :=
      List.mem_of_mem_head? rfl
    obtain ⟨-, hasked_cases⟩ :=
      scheduled_run_deletes_iff MemoryStore.backend (s := oneOutage) (by decide) (l := .usual 1) rfl
    obtain ⟨row, -, -, hgone, -⟩ := hasked_cases "a" (oneOutage.reply "a") hasked
    exact hgone
  · have hasked : ("a", oneSilence.reply "a") ∈
        consulted (MemoryStore.backend.steps (.usual 1) oneSilence) :=
      List.mem_of_mem_head? rfl
    obtain ⟨-, hasked_cases⟩ :=
      scheduled_run_deletes_iff MemoryStore.backend (s := oneSilence) (by decide) (l := .usual 1) rfl
    obtain ⟨row, hrow, hkept, -⟩ := hasked_cases "a" (oneSilence.reply "a") hasked
    exact ⟨row, hrow, hkept (.inr (.inl ⟨_, rfl⟩))⟩

/-- The vendor's call about a client ends in an error of its server, and the run takes away the
row that the client had. -/
theorem outage_deletes_row :
    ("a", .error (.api 503 (some "SERVICE_UNAVAILABLE") none)) ∈
        consulted (MemoryStore.backend.steps (.usual 2) oneOutage) ∧
      ((MemoryStore.backend.table oneOutage).find? ("a", upswingProvider)).isSome ∧
      (MemoryStore.backend.table (MemoryStore.backend.launch (.usual 2) oneOutage).2).find?
        ("a", upswingProvider) = none :=
  ⟨List.mem_of_mem_head? rfl, by decide, rfl⟩

end DepositSync
