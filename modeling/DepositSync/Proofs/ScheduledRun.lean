import DepositSync.Proofs.Cleanup
import DepositSync.Proofs.StatementMeaning

/-!
# DepositSync.Proofs.ScheduledRun

The table after a scheduled run that completes, row by row. The clients that the run asked about are
those of the rows that were not invalid. The row of such a client is made of what the vendor answered
and of what is spared of the row before: who created it, and whether a refresh was asked for. It is
gone if the answer leaves it empty, and the cleanup leaves no other stale row either.

What the rows hold is written out in the result (`scheduled_run_effect`), field by field, apart from
the code that makes them. The proof is the same for both kinds of rows (`Account.runEffect`).
-/

namespace DepositSync

variable {ν ρ : Type} [Entity ν ρ] [Stored ρ]

/-- What a scheduled run makes of a table `t`, given what the vendor answered: `t'`. A row that is
kept after a report is `reported`, and the row of a client that the vendor does not know is
`unknown`; both depend on who created the row that was there. -/
structure RunEffect (provider : String) (answers : List (String × Except VendorError ν))
    (keeps : ν → Prop) (reported : (client createdBy : String) → ν → ρ)
    (unknown : (client createdBy code : String) → ρ) (t t' : Table ρ) : Prop where
  /-- The vendor was asked about the clients of the rows that are not invalid, once about each. -/
  asked : ∀ client, client ∈ answers.map Prod.fst ↔
    ∃ row, t.find? (client, provider) = some row ∧ Record.isInvalid row.record = false
  once : (answers.map Prod.fst).Nodup
  /-- They are the clients that the listing statement selects. -/
  selected : answers.map Prod.fst =
    (t.filter fun row => (listQuery ρ provider false).selects row.stored).map
      fun row => Record.client row.record
  kept : ∀ client report, (client, .ok report) ∈ answers →
    ((t'.find? (client, provider)).isSome = true ↔ keeps report)
  reported : ∀ client report row', (client, .ok report) ∈ answers →
    t'.find? (client, provider) = some row' →
    ∃ row, t.find? (client, provider) = some row ∧
      row' = ⟨reported client (Record.createdBy row.record) report, row.refresh⟩
  unknown : ∀ client e, (client, .error e) ∈ answers →
    e.code? = some (Entity.notFoundCode ρ client) →
    ∃ row code, t.find? (client, provider) = some row ∧ e.code? = some code ∧
      t'.find? (client, provider) =
        some ⟨unknown client (Record.createdBy row.record) code, row.refresh⟩
  /-- A row that is left is what the writing statement makes of the row before, in whatever batch
  it was written. -/
  written : ∀ client answer row row' batch, (client, answer) ∈ answers →
    t.find? (client, provider) = some row → t'.find? (client, provider) = some row' →
    (upsertQuery (ρ := ρ) batch).Changes
      (Stored.row (Entity.ofAnswer provider (client, answer) : ρ)) row.stored row'.stored
  /-- No row is left that is stale, neither by the program's own account nor by the conditions of the
  deleting statement. -/
  clean : ∀ row ∈ t', Record.isStale row.record = false ∧
    (deleteQuery ρ).selects row.stored = false

namespace Account

variable {σ : Type} {provider : String} {steps : List (RunStep ν ρ σ)} {completed : Prop}
  {t t' : Table ρ}

omit [Stored ρ] in
/-- There was a row of every client that was asked about. -/
theorem exists_of_mem_consulted {mode : RefreshMode} (h : Account provider mode steps completed t t')
    (ht : t.Sorted) {client : String} {answer : Except VendorError ν}
    (hasked : (client, answer) ∈ consulted steps) :
    ∃ row, t.find? (client, provider) = some row := by
  obtain ⟨row, hrow, -⟩ :=
    (Table.mem_list ht).mp (h.asked.subset (List.mem_map_of_mem (f := Prod.fst) hasked))
  exact ⟨row, hrow⟩

variable [LawfulEntity ρ]

omit [Stored ρ] in
/-- The row of a client that the vendor does not know is left, whatever it held. -/
theorem find?_of_unknown (h : Account provider .scheduled steps completed t t') (ht : t.Sorted)
    (hc : completed) {client : String} {e : VendorError}
    (hasked : (client, .error e) ∈ consulted steps)
    (he : e.code? = some (Entity.notFoundCode ρ client)) {row : Row ρ}
    (hrow : t.find? (client, provider) = some row) :
    t'.find? (client, provider) = some (Table.overwritten (some row)
      (Entity.degraded client provider true (some (Entity.notFoundCode ρ client)))) := by
  have hnotFound : Entity.isNotFound ρ e client = true := by simp [Entity.isNotFound, he]
  have hapiError : e.apiError? = e.code? := by
    cases e with
    | api status code message =>
        obtain rfl : code = some _ := he
        rfl
    | malformed status body => rfl
    | transport failure => rfl
    | token reason => rfl
  rw [h.find?_of_completed ht hc hasked hrow, if_neg (by simp [Entity.empties, hnotFound]),
    Entity.ofAnswer, Entity.ofError, hnotFound, hapiError, he]

omit [LawfulEntity ρ] in
/-- The cleanup leaves no row that is stale, or that its statement selects. -/
theorem not_stale [LawfulStored ρ] (h : Account provider .scheduled steps completed t t')
    (hc : completed) {row : Row ρ} (hrow : row ∈ t') :
    Record.isStale row.record = false ∧ (deleteQuery ρ).selects row.stored = false := by
  have hdelete : t' = (t.upsert (stored steps)).deleteStale := h.finished hc
  constructor
  · rw [hdelete] at hrow
    simpa using (List.mem_filter.mp hrow).2
  · rw [hdelete, deleteStale_eq_delete] at hrow
    simpa using (List.mem_filter.mp hrow).2

variable [LawfulStored ρ]

/-- The effect of a run, if the rows are known that its answers make. -/
theorem runEffect {keeps : ν → Prop} {reported : (client createdBy : String) → ν → ρ}
    {unknown : (client createdBy code : String) → ρ}
    (hkeeps : ∀ report, Entity.isEmptyReport ρ report = false ↔ keeps report)
    (hreported : ∀ client createdBy report,
      Record.withCreatedBy createdBy (Entity.ofReport client provider report) =
        reported client createdBy report)
    (hunknown : ∀ client createdBy code,
      Record.withCreatedBy createdBy (Entity.degraded client provider true (some code)) =
        unknown client createdBy code)
    (h : Account provider .scheduled steps completed t t') (ht : t.Sorted) (hc : completed) :
    RunEffect provider (consulted steps) keeps reported unknown t t' where
  asked client := by
    rw [h.askedAll hc, Table.mem_list ht]
    simp [RefreshMode.isInstant]
  once := h.nodup_asked ht
  selected := (h.askedAll hc).trans (list_eq_select provider false t)
  kept client report hasked := by
    obtain ⟨row, hrow⟩ := h.exists_of_mem_consulted ht hasked
    rw [h.find?_of_completed ht hc hasked hrow, ← hkeeps, Entity.empties]
    cases Entity.isEmptyReport ρ report <;> simp
  reported client report row' hasked hrow' := by
    obtain ⟨row, hrow⟩ := h.exists_of_mem_consulted ht hasked
    refine ⟨row, hrow, ?_⟩
    rw [h.find?_of_completed ht hc hasked hrow] at hrow'
    split at hrow'
    · cases hrow'
    · rw [← hreported, ← Option.some.inj hrow']
      rfl
  unknown client e hasked he := by
    obtain ⟨row, hrow⟩ := h.exists_of_mem_consulted ht hasked
    refine ⟨row, Entity.notFoundCode ρ client, hrow, he, ?_⟩
    rw [h.find?_of_unknown ht hc hasked he hrow, ← hunknown]
    rfl
  written client answer row row' batch hasked hrow hrow' := by
    -- which columns change does not depend on the batch
    have hkey : row.key = Record.key (Entity.ofAnswer provider (client, answer) : ρ) := by
      rw [Table.key_of_find? hrow, Entity.key_ofAnswer]
    rw [h.find?_of_completed ht hc hasked hrow] at hrow'
    split at hrow'
    · cases hrow'
    · rw [← Option.some.inj hrow']
      exact overwritten_eq_upsert batch _ row hkey
  clean _ hrow := h.not_stale hc hrow

end Account

/-! ### Both jobs -/

/-- **The effect of a scheduled run.** Whatever the table, the provider, the batch size and the
vendor's answers: a scheduled run that completes asks about the clients of the provider's rows that
are not invalid, once about each. After a report the client's row is there exactly if the report says
that there is something, and holds what was reported; it keeps its creator and its request for a
refresh. The row of a client that the vendor does not know holds nothing but the vendor's code. No
valid row is left that is stale. -/
theorem scheduled_run_effect :
    (∀ (σ : Type) (env : Backend NetWorth PortfolioRecord σ) (s : σ) (l : Launch),
      (env.table s).Sorted → l.mode = .scheduled →
      (env.launch l s).1.outcome = .completed →
      RunEffect l.settings.provider (consulted (env.steps l s))
        (fun worth => worth.activeDeposits ≠ 0)
        (fun client createdBy worth => {
          client := client
          provider := l.settings.provider
          activeDeposits := worth.activeDeposits
          invested := worth.invested
          current := worth.current
          interest := worth.interest
          returns := worth.interest
          returnsPercentage := returnsPercentage worth.invested worth.interest
          isInvalid := false
          apiError := none
          createdBy := createdBy
          updatedBy := "portfolio_update_job" })
        (fun client createdBy code => {
          client := client
          provider := l.settings.provider
          activeDeposits := 0
          invested := .zero
          current := .zero
          interest := .zero
          returns := .zero
          returnsPercentage := .zero
          isInvalid := true
          apiError := some code
          createdBy := createdBy
          updatedBy := "portfolio_update_job" })
        (env.table s) (env.table (env.launch l s).2)) ∧
    ∀ (σ : Type) (env : Backend Journey PendingJourneyRecord σ) (s : σ) (l : Launch),
      (env.table s).Sorted → l.mode = .scheduled →
      (env.launch l s).1.outcome = .completed →
      RunEffect l.settings.provider (consulted (env.steps l s))
        (fun journey => journey.pending = true)
        (fun client createdBy journey => {
          client := client
          provider := l.settings.provider
          pending := journey.pending
          paymentPending := journey.paymentPending
          kycPending := journey.kycPending
          isInvalid := false
          apiError := none
          createdBy := createdBy
          updatedBy := "pending_journey_update_job" })
        (fun client createdBy code => {
          client := client
          provider := l.settings.provider
          pending := false
          paymentPending := false
          kycPending := false
          isInvalid := true
          apiError := some code
          createdBy := createdBy
          updatedBy := "pending_journey_update_job" })
        (env.table s) (env.table (env.launch l s).2) := by
  constructor
  · intro σ env s l hs hmode hc
    have haccount := account_launch env l s
    rw [hmode] at haccount
    refine haccount.runEffect ?_ (fun _ _ _ => rfl) (fun _ _ _ => rfl) hs hc
    intro worth
    simp
  · intro σ env s l hs hmode hc
    have haccount := account_launch env l s
    rw [hmode] at haccount
    refine haccount.runEffect ?_ (fun _ _ _ => rfl) (fun _ _ _ => rfl) hs hc
    intro journey
    simp

/-- A store with a client that the vendor does not know, and one without deposits. -/
def threeClients : MemoryStore NetWorth PortfolioRecord :=
  .usual ["a", "b", "c"] [("b", .error (.api 404 (some VendorError.netWorthNotFound) none)),
    ("c", .ok .none)] []

/-- A store of journeys, of which one is not pending any more. -/
def twoJourneys : MemoryStore Journey PendingJourneyRecord where
  table := Table.upsert (["a", "b"].map fun client =>
    .ofJourney client upswingProvider Rehearsal.usualJourney) []
  replies := [("b", .ok .none)]
  fallback := Rehearsal.usualJourney
  failures := []

theorem scheduled_run_effect_threeClients :
    (∃ row code, threeClients.table.find? ("b", upswingProvider) = some row ∧
      (MemoryStore.backend.table (MemoryStore.backend.launch (.usual 2) threeClients).2).find?
          ("b", upswingProvider) =
        some ⟨.degraded "b" upswingProvider true (some code), row.refresh⟩) ∧
    ((MemoryStore.backend.table (MemoryStore.backend.launch (.usual 2) twoJourneys).2).find?
      ("a", upswingProvider)).isSome = true := by
  obtain ⟨portfolios, journeys⟩ := scheduled_run_effect
  have hthree :=
    portfolios _ MemoryStore.backend threeClients (.usual 2) (by decide) rfl (by decide)
  have htwo := journeys _ MemoryStore.backend twoJourneys (.usual 2) (by decide) rfl (by decide)
  constructor
  · have hasked : ("b", .error (.api 404 (some VendorError.netWorthNotFound) none)) ∈
        consulted (MemoryStore.backend.steps (.usual 2) threeClients) :=
      List.mem_of_getElem? (i := 1) rfl
    obtain ⟨row, code, hrow, -, hrow'⟩ := hthree.unknown "b" _ hasked rfl
    have hcreator : Record.createdBy row.record = "portfolio_update_job" := by
      rw [← Option.some.inj hrow]
      rfl
    rw [hcreator] at hrow'
    exact ⟨row, code, hrow, hrow'⟩
  · have hasked : ("a", .ok Rehearsal.usualJourney) ∈
        consulted (MemoryStore.backend.steps (.usual 2) twoJourneys) :=
      List.mem_of_getElem? (i := 0) rfl
    exact (htwo.kept "a" _ hasked).mpr rfl

end DepositSync
