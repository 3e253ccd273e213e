import DepositSync.Proofs.Cleanup
import DepositSync.Proofs.ProviderFrame
import DepositSync.Proofs.StatementMeaning

/-!
# DepositSync.Proofs.InstantRun

The table after an instant run that completes, row by row. The rows that it deals with are those of
its provider that are not invalid and in which a refresh is asked for. Each of them is written
twice: the row for the vendor's answer comes into its place, and then its request is cleared, which
is what signs it. All other rows stay as they are, and no row is taken away, whatever the vendor
answered.

So no request of the provider is left that a run would serve (`Account.list_eq_nil`), and an instant
run that follows has nothing to do: where no client is listed it asks nothing and changes nothing
(`Account.eq_of_list_eq_nil`).
-/

namespace DepositSync

variable {ν ρ : Type} [Entity ν ρ]

/-- What an instant run makes of a table `t`, given what the vendor answered: `t'`. The row of a
client is `refreshed`, which depends on who created the row that was there. -/
structure InstantEffect [Stored ρ] (provider : String)
    (answers : List (String × Except VendorError ν))
    (refreshed : (client createdBy : String) → Except VendorError ν → ρ) (t t' : Table ρ) :
    Prop where
  /-- The vendor was asked about the clients of the rows that are not invalid and in which a refresh
  is asked for, once about each. -/
  asked : ∀ client, client ∈ answers.map Prod.fst ↔
    ∃ row, t.find? (client, provider) = some row ∧ row.refresh = true ∧
      Record.isInvalid row.record = false
  once : (answers.map Prod.fst).Nodup
  /-- They are the clients that the listing statement selects. -/
  selected : answers.map Prod.fst =
    (t.filter fun row => (listQuery ρ provider true).selects row.stored).map
      fun row => Record.client row.record
  /-- No row is taken away, and none is added. -/
  kept : ∀ key, (t'.find? key).isSome = (t.find? key).isSome
  /-- The rows of other clients, and those of other providers, stay as they are. -/
  spared : ∀ key : String × String, (key.2 = provider → key.1 ∉ answers.map Prod.fst) →
    t'.find? key = t.find? key
  /-- The row of a client that was asked about is made of the answer. It keeps its creator, and the
  request is gone. -/
  refreshed : ∀ client answer, (client, answer) ∈ answers →
    ∃ row, t.find? (client, provider) = some row ∧
      t'.find? (client, provider) =
        some ⟨refreshed client (Record.createdBy row.record) answer, false⟩
  /-- It is what the two writing statements make of the row before, one after the other. -/
  written : ∀ client answer row row' batch, (client, answer) ∈ answers →
    t.find? (client, provider) = some row → t'.find? (client, provider) = some row' →
    ∃ between : Row ρ,
      (upsertQuery (ρ := ρ) batch).Changes
        (Stored.row (Entity.ofAnswer provider (client, answer) : ρ)) row.stored between.stored ∧
      (markQuery ρ (Entity.refresher ρ) provider (answers.map Prod.fst)).selects
        between.stored = true ∧
      (markQuery ρ (Entity.refresher ρ) provider (answers.map Prod.fst)).Changes []
        between.stored row'.stored

omit [Entity ν ρ] in
/-- To clear the requests of no client changes nothing. -/
theorem Table.mark_nil [Record ρ] (actor provider : String) (t : Table ρ) :
    t.mark actor provider [] = t := by
  simp [mark]

namespace Account

variable {σ : Type} {provider : String} {steps : List (RunStep ν ρ σ)} {completed : Prop}
  {t t' : Table ρ}

/-! ### The effect of an instant run -/

/-- A client is asked about if there is a row of it that is not invalid, with a request. -/
theorem mem_asked_iff (h : Account provider .instant steps completed t t') (ht : t.Sorted)
    (hc : completed) (client : String) :
    client ∈ (consulted steps).map Prod.fst ↔
      ∃ row, t.find? (client, provider) = some row ∧ row.refresh = true ∧
        Record.isInvalid row.record = false := by
  rw [h.askedAll hc, Table.mem_list ht]
  constructor
  · rintro ⟨row, hrow, hvalid, hrefresh⟩
    exact ⟨row, hrow, hrefresh rfl, hvalid⟩
  · rintro ⟨row, hrow, hrefresh, hvalid⟩
    exact ⟨row, hrow, hvalid, fun _ => hrefresh⟩

variable [LawfulEntity ρ]

/-- The row for an answer, in the place of a row of its client, is one of those that are signed. -/
theorem signs_overwritten {client : String} {answer : Except VendorError ν}
    (hasked : (client, answer) ∈ consulted steps) (old : Option (Row ρ)) :
    let written := Table.overwritten old (Entity.ofAnswer provider (client, answer))
    Record.provider written.record = provider ∧
      Record.client written.record ∈ (consulted steps).map Prod.fst := by
  intro written
  have hkey : written.key = (client, provider) := by
    rw [Table.key_overwritten, Entity.key_ofAnswer]
  obtain ⟨hclient, hprovider⟩ := Prod.mk.inj hkey
  refine ⟨hprovider, ?_⟩
  rw [hclient]
  exact List.mem_map_of_mem (f := Prod.fst) hasked

/-- An instant run that completes leaves the row for the vendor's answer, signed by the one who
clears the requests. -/
theorem find?_of_refreshed (h : Account provider .instant steps completed t t') (ht : t.Sorted)
    (hc : completed) {client : String} {answer : Except VendorError ν}
    (hasked : (client, answer) ∈ consulted steps) {row : Row ρ}
    (hrow : t.find? (client, provider) = some row) :
    t'.find? (client, provider) = some (Table.marked (Entity.refresher ρ).name provider
      ((consulted steps).map Prod.fst)
      (Table.overwritten (some row) (Entity.ofAnswer provider (client, answer)))) := by
  have hmark : t' = (t.upsert (stored steps)).mark (Entity.refresher ρ).name provider
      ((consulted steps).map Prod.fst) := by
    rw [h.askedAll hc]
    exact h.finished hc
  have hstored : Entity.ofAnswer provider (client, answer) ∈ stored steps := by
    rw [h.writtenAll hc]
    exact List.mem_map_of_mem hasked
  rcases h.find?_upsert_stored ht hasked hrow with ⟨-, hfind⟩ | ⟨hnot, -⟩
  · rw [hmark, Table.find?_mark, hfind, Option.map_some]
  · exact absurd hstored hnot

/-- A row whose client was not asked about stays as it is. -/
theorem find?_of_spared (h : Account provider .instant steps completed t t') (ht : t.Sorted)
    (hc : completed) {key : String × String}
    (hkey : key.2 = provider → key.1 ∉ (consulted steps).map Prod.fst) :
    t'.find? key = t.find? key := by
  classical
  rw [h.askedAll hc] at hkey
  simpa using h.find?_of_not_listed ht hkey

section

variable [Stored ρ] [LawfulStored ρ]

/-- The effect of a run, if the rows are known that its answers make. -/
theorem instantEffect {refreshed : (client createdBy : String) → Except VendorError ν → ρ}
    (hrefreshed : ∀ client createdBy answer,
      Record.withUpdatedBy (Entity.refresher ρ).name
        (Record.withCreatedBy createdBy (Entity.ofAnswer provider (client, answer))) =
      refreshed client createdBy answer)
    (h : Account provider .instant steps completed t t') (ht : t.Sorted) (hc : completed) :
    InstantEffect provider (consulted steps) refreshed t t' := by
  have hleft {client : String} {answer : Except VendorError ν}
      (hasked : (client, answer) ∈ consulted steps) :
      ∃ row, t.find? (client, provider) = some row ∧ t'.find? (client, provider) =
        some ⟨refreshed client (Record.createdBy row.record) answer, false⟩ := by
    obtain ⟨row, hrow, -⟩ := (h.mem_asked_iff ht hc client).mp
      (List.mem_map_of_mem (f := Prod.fst) hasked)
    refine ⟨row, hrow, ?_⟩
    rw [h.find?_of_refreshed ht hc hasked hrow, Table.marked, if_pos (signs_overwritten hasked _),
      ← hrefreshed]
    rfl
  refine ⟨h.mem_asked_iff ht hc, h.nodup_asked ht, ?_, ?_, ?_, ?_, ?_⟩
  · exact (h.askedAll hc).trans (list_eq_select provider true t)
  · intro key
    by_cases hkey : key.2 = provider ∧ key.1 ∈ (consulted steps).map Prod.fst
    · obtain ⟨client, p⟩ := key
      obtain ⟨rfl, hmem⟩ := hkey
      obtain ⟨⟨_, answer⟩, hasked, rfl⟩ := List.mem_map.mp hmem
      obtain ⟨row, hrow, hrow'⟩ := hleft hasked
      simp [hrow, hrow']
    · rw [h.find?_of_spared ht hc fun hprovider hmem => hkey ⟨hprovider, hmem⟩]
  · intro key hkey
    exact h.find?_of_spared ht hc hkey
  · intro client answer hasked
    exact hleft hasked
  · intro client answer row row' batch hasked hrow hrow'
    have hkey : row.key = Record.key (Entity.ofAnswer provider (client, answer) : ρ) := by
      rw [Table.key_of_find? hrow, Entity.key_ofAnswer]
    have hselects := (selects_mark (Entity.refresher ρ) provider _ _).mpr
      (signs_overwritten hasked (some row))
    have hupdate := marked_eq_update (Entity.refresher ρ) provider ((consulted steps).map Prod.fst)
      (Table.overwritten (some row) (Entity.ofAnswer provider (client, answer)))
    rw [if_pos hselects] at hupdate
    rw [h.find?_of_refreshed ht hc hasked hrow] at hrow'
    obtain rfl := Option.some.inj hrow'
    exact ⟨_, overwritten_eq_upsert batch _ row hkey, hselects, hupdate⟩

end

/-! ### The run after it -/

/-- No request is left that an instant run would serve. -/
theorem list_eq_nil (h : Account provider .instant steps completed t t') (ht : t.Sorted)
    (ht' : t'.Sorted) (hc : completed) : t'.list provider true = [] := by
  refine List.eq_nil_iff_forall_not_mem.mpr fun client hclient => ?_
  obtain ⟨row', hrow', hvalid, hrefresh⟩ := (Table.mem_list ht').mp hclient
  by_cases hmem : client ∈ (consulted steps).map Prod.fst
  · -- the client was asked about, so its request was cleared
    obtain ⟨⟨_, answer⟩, hasked, rfl⟩ := List.mem_map.mp hmem
    obtain ⟨row, hrow, -⟩ := (h.mem_asked_iff ht hc _).mp hmem
    rw [h.find?_of_refreshed ht hc hasked hrow, Table.marked,
      if_pos (signs_overwritten hasked _)] at hrow'
    obtain rfl := Option.some.inj hrow'
    simp at hrefresh
  · -- it was not: its row is as before, when it had no request that would have been served
    rw [h.find?_of_spared ht hc fun _ => hmem] at hrow'
    exact hmem ((h.mem_asked_iff ht hc client).mpr ⟨row', hrow', hrefresh rfl, hvalid⟩)

omit [LawfulEntity ρ] in
/-- Where no client is listed an instant run asks nothing and changes nothing. -/
theorem eq_of_list_eq_nil (h : Account provider .instant steps completed t t')
    (hnone : t.list provider true = []) : consulted steps = [] ∧ t' = t := by
  have hasked : consulted steps = [] := by
    have hprefix := h.asked
    simpa [RefreshMode.isInstant, hnone] using hprefix
  have hstored : stored steps = [] := by
    have hprefix := h.written
    simpa [verdicts, hasked] using hprefix
  refine ⟨hasked, ?_⟩
  by_cases hc : completed
  · have hmark : t' = (t.upsert (stored steps)).mark (Entity.refresher ρ).name provider
        (t.list provider true) := h.finished hc
    rw [hmark, hnone, hstored, Table.mark_nil]
    rfl
  · rw [h.stopped hc, hstored]
    rfl

end Account

/-- An instant run that follows one that completed asks nothing and changes nothing. -/
theorem following_instant_run [LawfulEntity ρ] {σ : Type} (env : Backend ν ρ σ) {s : σ}
    (hs : (env.table s).Sorted) {l next : Launch} (hmode : l.mode = .instant)
    (hc : (env.launch l s).1.outcome = .completed) (hnext : next.mode = .instant)
    (hprovider : next.settings.provider = l.settings.provider) :
    let s' := (env.launch l s).2
    consulted (env.steps next s') = [] ∧ env.table (env.launch next s').2 = env.table s' := by
  intro s'
  have hfirst := account_launch env l s
  have hsecond := account_launch env next s'
  rw [hmode] at hfirst
  rw [hnext, hprovider] at hsecond
  exact hsecond.eq_of_list_eq_nil (hfirst.list_eq_nil hs (env.sorted_run (l.program ρ) hs) hc)

/-! ### Both jobs -/

/-- **The effect of an instant run.** Whatever the table, the provider, the batch size and the
vendor's answers: an instant run that completes asks about the clients of the provider's rows that
are not invalid and in which a refresh is asked for, once about each. Their rows hold what the
answers say, keep their creators, have no request any more and are signed by the one who clears
requests. No row is taken away, and all others are as before. The next instant run asks nothing and
changes nothing. -/
theorem instant_run_effect :
    (∀ (σ : Type) (env : Backend NetWorth PortfolioRecord σ) (s : σ) (l : Launch),
      (env.table s).Sorted → l.mode = .instant →
      (env.launch l s).1.outcome = .completed →
      InstantEffect l.settings.provider (consulted (env.steps l s))
        (fun client createdBy answer => match answer with
          | .ok worth => {
              client := client
              provider := l.settings.provider
              activeDeposits := worth.activeDeposits
              invested := worth.invested
              current := worth.current
              interest := worth.interest
              returns := worth.interest
              returnsPercentage := returnsPercentage worth.invested worth.interest
              isInvalid := false
              apiError := none
              createdBy := createdBy
              updatedBy := "portfolio_refresher_api" }
          | .error e => {
              client := client
              provider := l.settings.provider
              activeDeposits := 0
              invested := .zero
              current := .zero
              interest := .zero
              returns := .zero
              returnsPercentage := .zero
              isInvalid := e.code? == some VendorError.netWorthNotFound
              apiError := e.apiError?
              createdBy := createdBy
              updatedBy := "portfolio_refresher_api" })
        (env.table s) (env.table (env.launch l s).2) ∧
      ∀ next : Launch, next.mode = .instant → next.settings.provider = l.settings.provider →
        let s' := (env.launch l s).2
        consulted (env.steps next s') = [] ∧
          env.table (env.launch next s').2 = env.table s') ∧
    ∀ (σ : Type) (env : Backend Journey PendingJourneyRecord σ) (s : σ) (l : Launch),
      (env.table s).Sorted → l.mode = .instant →
      (env.launch l s).1.outcome = .completed →
      InstantEffect l.settings.provider (consulted (env.steps l s))
        (fun client createdBy answer => match answer with
          | .ok journey => {
              client := client
              provider := l.settings.provider
              pending := journey.pending
              paymentPending := journey.paymentPending
              kycPending := journey.kycPending
              isInvalid := false
              apiError := none
              createdBy := createdBy
              updatedBy := "pending_journey_refresher_api" }
          | .error e => {
              client := client
              provider := l.settings.provider
              pending := false
              paymentPending := false
              kycPending := false
              isInvalid := e.code? == some (VendorError.pendingJourneyNotFound client)
              apiError := e.apiError?
              createdBy := createdBy
              updatedBy := "pending_journey_refresher_api" })
        (env.table s) (env.table (env.launch l s).2) ∧
      ∀ next : Launch, next.mode = .instant → next.settings.provider = l.settings.provider →
        let s' := (env.launch l s).2
        consulted (env.steps next s') = [] ∧
          env.table (env.launch next s').2 = env.table s' := by
  constructor
  · intro σ env s l hs hmode hc
    have haccount := account_launch env l s
    rw [hmode] at haccount
    refine ⟨haccount.instantEffect ?_ hs hc, fun next hnext hprovider =>
      following_instant_run env hs hmode hc hnext hprovider⟩
    intro client createdBy answer
    cases answer <;> rfl
  · intro σ env s l hs hmode hc
    have haccount := account_launch env l s
    rw [hmode] at haccount
    refine ⟨haccount.instantEffect ?_ hs hc, fun next hnext hprovider =>
      following_instant_run env hs hmode hc hnext hprovider⟩
    intro client createdBy answer
    cases answer <;> rfl

/-- A store in which refreshes are asked for: of a client that the vendor does not know, and of one
that has no deposits any more. -/
def twoRequests : MemoryStore NetWorth PortfolioRecord :=
  let store := MemoryStore.usual ["a", "b", "c"]
    [("a", .error (.api 404 (some VendorError.netWorthNotFound) none)), ("b", .ok .none)] []
  let requested := store.table.setRefresh "a" upswingProvider true
  { store with table := requested.setRefresh "b" upswingProvider true }

/-- A store with a journey, of which a refresh is asked for. -/
def oneRequestedJourney : MemoryStore Journey PendingJourneyRecord where
  table := [⟨.ofJourney "a" upswingProvider .none, true⟩]
  replies := []
  fallback := Rehearsal.usualJourney
  failures := []

/-- A run that an operator starts for the requests. -/
def Launch.onRequest : Launch where
  settings := ⟨false, upswingProvider, 1⟩
  trigger := .operator
  mode := .instant

theorem instant_run_effect_twoRequests :
    let s' := (MemoryStore.backend.launch .onRequest twoRequests).2
    (∃ row, twoRequests.table.find? ("b", upswingProvider) = some row ∧
      (MemoryStore.backend.table s').find? ("b", upswingProvider) =
        some ⟨{ PortfolioRecord.ofNetWorth "b" upswingProvider .none with
          createdBy := row.record.createdBy
          updatedBy := "portfolio_refresher_api" }, false⟩) ∧
      consulted (MemoryStore.backend.steps .onRequest s') = [] ∧
      ((MemoryStore.backend.table
        (MemoryStore.backend.launch .onRequest oneRequestedJourney).2).find?
          ("a", upswingProvider)).isSome = true := by
  intro s'
  obtain ⟨portfolios, journeys⟩ := instant_run_effect
  obtain ⟨htwo, hnext⟩ :=
    portfolios _ MemoryStore.backend twoRequests .onRequest (by decide) rfl (by decide)
  obtain ⟨hone, -⟩ :=
    journeys _ MemoryStore.backend oneRequestedJourney .onRequest (by decide) rfl (by decide)
  have hasked : ("b", .ok NetWorth.none) ∈
      consulted (MemoryStore.backend.steps .onRequest twoRequests) :=
    List.mem_of_getElem? (i := 1) rfl
  refine ⟨?_, (hnext .onRequest rfl rfl).1, ?_⟩
  · obtain ⟨row, hrow, hrow'⟩ := htwo.refreshed "b" _ hasked
    exact ⟨row, hrow, hrow'⟩
  · rw [hone.kept]
    rfl

end DepositSync
