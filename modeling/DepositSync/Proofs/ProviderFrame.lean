import DepositSync.Proofs.Account
import Mathlib.Tactic.ByContra

/-!
# DepositSync.Proofs.ProviderFrame

Which rows a run may touch. Every call of a run but the cleanup names the provider of the run, and
deals with clients that the store listed for it. So a run changes only rows of its own provider and
of clients that it got from the store, at each of its calls.

The cleanup names no provider: it deletes the stale rows of the whole table. A scheduled run that
completes therefore takes the stale rows of other providers away as well. It does nothing else to
rows of other providers.
-/

namespace DepositSync

variable {ν ρ σ : Type} [Entity ν ρ]

/-! ### What the run got from the store -/

/-- The client is one that the run got from the store when it listed the clients. -/
def Obtained (steps : List (RunStep ν ρ σ)) (provider : String) (instantOnly : Bool)
    (client : String) : Prop :=
  ∃ clients after, ⟨.list provider instantOnly, .ok clients, after⟩ ∈ steps ∧ client ∈ clients

/-- A run gets the clients of its provider from the store, or it does nothing but ask for them. -/
theorem listing_cases (env : Backend ν ρ σ) (l : Launch) (s : σ) :
    (∀ client ∈ (env.table s).list l.settings.provider l.mode.isInstant,
        Obtained (env.steps l s) l.settings.provider l.mode.isInstant client) ∨
      ∀ e ∈ env.steps l s, e.call = .list l.settings.provider l.mode.isInstant := by
  rw [Backend.steps]
  rcases l.program_cases (ρ := ρ) with hprogram | hprogram <;> rw [hprogram]
  · exact .inr (by simp)
  rw [Program.trace_map, Run.execute, Program.trace_call]
  generalize hlisting : (env.answer (.list l.settings.provider l.mode.isInstant) s).1 = listing
  cases listing with
  | error e => exact .inr (by simp [Run.abort])
  | ok clients =>
      refine .inl fun client hclient => ⟨clients, _, List.mem_cons_self .., ?_⟩
      rwa [env.list_eq _ _ s clients hlisting]

variable [LawfulEntity ρ]

/-! ### The rows that no call is about -/

/-- Calls about other clients, or about another provider, leave a row alone. -/
theorem find?_applied (provider : String) (clients : List String) {steps : List (RunStep ν ρ σ)}
    (h : ∀ e ∈ steps, e.call.Within provider clients ∧ e.call ≠ .delete) {key : String × String}
    (hkey : key.2 = provider → key.1 ∉ clients) (t : Table ρ) :
    (applied steps t).find? key = t.find? key := by
  induction steps generalizing t with
  | nil => rfl
  | cons e rest ih =>
      obtain ⟨hwithin, hdelete⟩ := h e (List.mem_cons_self ..)
      rw [applied_cons, ih fun e he => h e (List.mem_cons_of_mem _ he)]
      split
      · rfl
      · exact hwithin.find?_effect hdelete hkey t

/-- What a run leaves of a row that none of its calls but the cleanup is about. -/
theorem Account.find?_of_not_listed {provider : String} {mode : RefreshMode}
    {steps : List (RunStep ν ρ σ)} {completed : Prop} [Decidable completed] {t t' : Table ρ}
    (h : Account provider mode steps completed t t') (ht : t.Sorted) {key : String × String}
    (hkey : key.2 = provider → key.1 ∉ t.list provider mode.isInstant) :
    t'.find? key = if mode = .scheduled ∧ completed then
        (t.find? key).filter fun row => !Record.isStale row.record
      else t.find? key := by
  have hstored : (t.upsert (stored steps)).find? key = t.find? key :=
    Table.find?_upsert_of_not_mem
      (h.not_mem_stored fun hprovider hmem => hkey hprovider (h.asked.subset hmem)) t
  by_cases hc : completed
  · rw [h.finished hc]
    cases mode with
    | instant =>
        have hmark : (Ideal.lastCall .instant provider (t.list provider true) :
            Call ν ρ).Within provider (t.list provider true) := ⟨rfl, List.Subset.refl _⟩
        rw [if_neg (by simp), ← hstored]
        exact hmark.find?_effect (by simp [Ideal.lastCall]) hkey _
    | scheduled =>
        rw [if_pos ⟨rfl, hc⟩, ← hstored]
        exact Table.find?_deleteStale (ht.upsert _) key
  · rw [if_neg fun hboth => hc hboth.2, h.stopped hc, hstored]

/-- The cleanup spares the rows of the provider that were not listed: they are invalid. -/
theorem filter_stale_of_not_listed {t : Table ρ} (ht : t.Sorted) {key : String × String}
    (hkey : key.1 ∉ t.list key.2 false) :
    (t.find? key).filter (fun row => !Record.isStale row.record) = t.find? key := by
  cases hrow : t.find? key with
  | none => rfl
  | some row =>
      have hinvalid : Record.isInvalid row.record = true := by
        by_contra hvalid
        exact hkey ((Table.mem_list ht).mpr ⟨row, hrow, by simpa using hvalid, nofun⟩)
      simp [LawfulRecord.isStale_of_isInvalid _ hinvalid]

/-- A row of the provider whose client the run did not get from the store stays as it is. -/
theorem find?_launch_of_not_obtained (env : Backend ν ρ σ) {l : Launch} {s : σ}
    (hs : (env.table s).Sorted) {key : String × String} (hprovider : key.2 = l.settings.provider)
    (hnot : ¬Obtained (env.steps l s) l.settings.provider l.mode.isInstant key.1) :
    (env.table (env.launch l s).2).find? key = (env.table s).find? key := by
  rcases listing_cases env l s with hlisted | hlist
  · have hkey : key.1 ∉ (env.table s).list l.settings.provider l.mode.isInstant :=
      fun hmem => hnot (hlisted _ hmem)
    rw [(account_launch env l s).find?_of_not_listed hs fun _ => hkey]
    split
    · next hcleaned =>
      rw [← hprovider, hcleaned.1] at hkey
      exact filter_stale_of_not_listed hs hkey
    · rfl
  · rw [Backend.launch, env.table_run]
    refine find?_applied l.settings.provider [] (fun e he => ?_) (fun _ => List.not_mem_nil) _
    rw [hlist e he]
    refine ⟨rfl, ?_⟩
    rintro ⟨⟩

/-- Up to the cleanup a run changes rows of its own provider, and of clients that it got from the
store. -/
theorem obtained_of_changed (env : Backend ν ρ σ) {l : Launch} {s : σ} {e : RunStep ν ρ σ}
    (he : e ∈ env.steps l s) (hdelete : e.call ≠ .delete) {key : String × String}
    (hchanged : (env.table e.after).find? key ≠ (env.table s).find? key) :
    key.2 = l.settings.provider ∧
      Obtained (env.steps l s) l.settings.provider l.mode.isInstant key.1 := by
  obtain ⟨before, later, hsteps⟩ := List.append_of_mem he
  have hspares : ∀ e' ∈ before ++ [e], e'.call ≠ .delete := by
    intro e' he'
    rcases List.mem_append.mp he' with he' | he'
    · exact ne_delete_of_before env hsteps he'
    · exact List.mem_singleton.mp he' ▸ hdelete
  have hmem : ∀ e' ∈ before ++ [e], e' ∈ env.steps l s := by
    intro e' he'
    rw [hsteps, List.append_cons]
    exact List.mem_append_left later he'
  rw [env.table_after hsteps] at hchanged
  rcases listing_cases env l s with hlisted | hlist
  · -- the calls are about listed clients, so a row that changed is one of theirs
    by_contra hother
    refine hchanged (find?_applied _ _ (fun e' he' =>
      ⟨within_of_mem_steps env l s (hmem e' he'), hspares e' he'⟩) (fun hprovider hclient => ?_) _)
    exact hother ⟨hprovider, hlisted _ hclient⟩
  · refine absurd (find?_applied l.settings.provider [] (fun e' he' => ⟨?_, hspares e' he'⟩)
      (fun _ => List.not_mem_nil) _) hchanged
    rw [hlist e' (hmem e' he')]
    exact rfl

/-! ### Runs and other providers -/

/-- **Which rows a run touches.** Up to the cleanup, every row that a run inserts, changes or takes
away is of the provider of the run, and of a client that the run got from the store. The same holds
of the run as a whole, apart from stale rows of other providers, which a scheduled run takes away
if it completes. All other rows of other providers stay exactly as they are. -/
theorem run_changes_own_rows (env : Backend ν ρ σ) {s : σ} (hs : (env.table s).Sorted)
    (l : Launch) :
    let provider := l.settings.provider
    let steps := env.steps l s
    let t := env.table s
    let t' := env.table (env.launch l s).2
    (∀ e ∈ steps, e.call ≠ .delete → ∀ key, (env.table e.after).find? key ≠ t.find? key →
      key.2 = provider ∧ Obtained steps provider l.mode.isInstant key.1) ∧
    (∀ key, t'.find? key ≠ t.find? key →
      (key.2 = provider ∧ Obtained steps provider l.mode.isInstant key.1) ∨
      (key.2 ≠ provider ∧ l.mode = .scheduled ∧ (env.launch l s).1.outcome = .completed ∧
        ∃ row, t.find? key = some row ∧ Record.isStale row.record = true ∧
          t'.find? key = none)) ∧
    ∀ key, key.2 ≠ provider → t'.find? key =
      if l.mode = .scheduled ∧ (env.launch l s).1.outcome = .completed then
        (t.find? key).filter fun row => !Record.isStale row.record
      else t.find? key := by
  intro provider steps t t'
  have hforeign (key : String × String) (hkey : key.2 ≠ provider) : t'.find? key = _ :=
    (account_launch env l s).find?_of_not_listed hs fun h => absurd h hkey
  refine ⟨fun e he hdelete key => obtained_of_changed env he hdelete, fun key hchanged => ?_,
    hforeign⟩
  by_cases hprovider : key.2 = provider
  · refine .inl ⟨hprovider, ?_⟩
    by_contra hnot
    exact hchanged (find?_launch_of_not_obtained env hs hprovider hnot)
  · have hleft := hforeign key hprovider
    by_cases hcleaned : l.mode = .scheduled ∧ (env.launch l s).1.outcome = .completed
    · rw [if_pos hcleaned] at hleft
      refine .inr ⟨hprovider, hcleaned.1, hcleaned.2, ?_⟩
      -- the row that is gone was there, and it was stale
      cases hrow : t.find? key with
      | none => exact absurd (hleft.trans (by simp [t, hrow])) hchanged
      | some row =>
          cases hstale : Record.isStale row.record with
          | true => exact ⟨row, rfl, hstale, hleft.trans (by simp [t, hrow, hstale])⟩
          | false => exact absurd (hleft.trans (by simp [t, hrow, hstale])) hchanged
    · exact absurd (hleft.trans (if_neg hcleaned)) hchanged

/-- A store with a client that the vendor does not know, and with a row of another provider that
holds nothing. -/
def idleElsewhere : MemoryStore NetWorth PortfolioRecord where
  table := Table.upsert [.ofNetWorth "a" upswingProvider Rehearsal.usualNetWorth,
    .ofNetWorth "b" "elsewhere" .none] []
  replies := [("a", .error (.api 404 (some VendorError.netWorthNotFound) none))]
  fallback := Rehearsal.usualNetWorth
  failures := []

theorem run_changes_own_rows_idleElsewhere :
    idleElsewhere.table.Sorted ∧
      Obtained (MemoryStore.backend.steps (.usual 1) idleElsewhere) upswingProvider false "a" ∧
      (MemoryStore.backend.table (MemoryStore.backend.launch (.usual 1) idleElsewhere).2).find?
        ("b", "elsewhere") = none := by
  have hs : idleElsewhere.table.Sorted := by decide
  obtain ⟨-, hchanged, hforeign⟩ :=
    run_changes_own_rows MemoryStore.backend (s := idleElsewhere) hs (.usual 1)
  refine ⟨hs, ?_, hforeign ("b", "elsewhere") (by decide)⟩
  -- the row of "a" says now that the vendor does not know the client
  have hrow : (MemoryStore.backend.table
      (MemoryStore.backend.launch (.usual 1) idleElsewhere).2).find? ("a", upswingProvider) ≠
        idleElsewhere.table.find? ("a", upswingProvider) := by
    intro h
    have hinvalid := congrArg (Option.map fun row : Row PortfolioRecord => row.record.isInvalid) h
    exact absurd hinvalid (by decide)
  rcases hchanged _ hrow with hown | hother
  · exact hown.2
  · exact absurd rfl hother.1

/-- The run of one provider takes away a row of another. -/
theorem cleanup_deletes_foreign_row :
    (MemoryStore.backend.launch (.usual 1) idleElsewhere).1.outcome = .completed ∧
      ¬∀ key : String × String, key.2 ≠ (Launch.usual 1).settings.provider →
        (MemoryStore.backend.table
          (MemoryStore.backend.launch (.usual 1) idleElsewhere).2).find? key =
            idleElsewhere.table.find? key := by
  refine ⟨by decide, fun hkept => ?_⟩
  have hgone := congrArg Option.isSome (hkept ("b", "elsewhere") (by decide))
  exact absurd hgone (by decide)

end DepositSync
