import DepositSync.Proofs.Account

/-!
# DepositSync.Proofs.InvalidRows

That the vendor does not know a client is on record for good. Once a row is invalid, no run lists
its client, asks the vendor about it or touches the row, whatever answers the calls and wherever
runs are aborted.

Each of the calls of a run spares the row for a reason of its own: rows are written and requests
are cleared for clients that are listed, and an invalid row is never stale. The first two need more
than the call itself: a run deals only with the clients that were listed when it started.
-/

namespace DepositSync

variable {ν ρ σ : Type} [Entity ν ρ] [LawfulEntity ρ]

/-- The row is in the table and says that the vendor does not know its client. -/
structure OnRecord (row : Row ρ) (t : Table ρ) : Prop where
  sorted : t.Sorted
  found : t.find? row.key = some row
  invalid : Record.isInvalid row.record = true

namespace OnRecord

variable {row : Row ρ} {t : Table ρ}

omit [LawfulEntity ρ] in
theorem not_mem_list (h : OnRecord row t) (instantOnly : Bool) :
    Record.client row.record ∉ t.list (Record.provider row.record) instantOnly := by
  intro hmem
  obtain ⟨row', hrow', hvalid, -⟩ := (Table.mem_list h.sorted).mp hmem
  obtain rfl : row = row' := Option.some.inj (h.found.symm.trans hrow')
  exact Bool.noConfusion (hvalid.symm.trans h.invalid)

/-- A call that does not deal with its client leaves the row alone. -/
theorem find?_effect (h : OnRecord row t) {c : Call ν ρ} {provider : String}
    {clients : List String} (hwithin : c.Within provider clients)
    (hother : Record.provider row.record = provider → Record.client row.record ∉ clients) :
    (c.effect t).find? row.key = some row := by
  by_cases hc : c = .delete
  · subst hc
    rw [Call.effect, Table.find?_deleteStale h.sorted, h.found]
    simp [LawfulRecord.isStale_of_isInvalid row.record h.invalid]
  · exact (hwithin.find?_effect hc hother t).trans h.found

/-- The calls of a run that starts when the row is on record keep it there. -/
theorem answer {env : Backend ν ρ σ} {l : Launch} {s : σ} (h : OnRecord row (env.table s))
    {e : RunStep ν ρ σ} (he : e ∈ env.steps l s) {s' : σ} (h' : OnRecord row (env.table s')) :
    OnRecord row (env.table (env.answer e.call s').2) := by
  refine ⟨env.sorted_answer h'.sorted e.call, ?_, h'.invalid⟩
  rw [env.table_eq]
  split
  · exact h'.found
  · refine h'.find?_effect (within_of_mem_steps env l s he) ?_
    intro hprovider
    rw [← hprovider]
    exact h.not_mem_list _

theorem launch {env : Backend ν ρ σ} {s : σ} (h : OnRecord row (env.table s)) (l : Launch) :
    (∀ e ∈ env.steps l s, OnRecord row (env.table e.after)) ∧
      OnRecord row (env.table (env.launch l s).2) :=
  Program.trace_invariant env.answer (fun s' => OnRecord row (env.table s')) (l.program ρ) s h
    fun _ he _ h' => h.answer he h'

theorem after {env : Backend ν ρ σ} {s : σ} (h : OnRecord row (env.table s))
    (launches : List Launch) : OnRecord row (env.table (env.after launches s)) :=
  env.after_invariant (fun s' => OnRecord row (env.table s')) launches h fun l _ _ h' =>
    (h'.launch l).2

end OnRecord

/-- **An invalid row stays.** Once a row is invalid, every later run leaves it as it is, at each of
its calls; no listing names its client, and a run for its provider does not ask the vendor about
it. -/
theorem invalid_row_stays (env : Backend ν ρ σ) {s : σ} (hs : (env.table s).Sorted)
    (earlier between : List Launch) {client provider : String} {row : Row ρ}
    (hrow : (env.table (env.after earlier s)).find? (client, provider) = some row)
    (hinvalid : Record.isInvalid row.record = true) (l : Launch) :
    let now := env.after (earlier ++ between) s
    (∀ e ∈ env.steps l now, (env.table e.after).find? (client, provider) = some row) ∧
      (env.table (env.launch l now).2).find? (client, provider) = some row ∧
      (∀ instantOnly clients after,
        ⟨.list provider instantOnly, .ok clients, after⟩ ∈ env.steps l now → client ∉ clients) ∧
      (l.settings.provider = provider → ∀ e ∈ env.steps l now, e.call ≠ .fetch client) := by
  intro now
  obtain ⟨rfl, rfl⟩ := Prod.mk.inj (Table.key_of_find? hrow)
  have hnow : OnRecord row (env.table now) := by
    rw [show now = _ from env.after_append earlier between s]
    exact OnRecord.after ⟨env.sorted_after earlier hs, hrow, hinvalid⟩ between
  refine ⟨fun e he => ((hnow.launch l).1 e he).found, (hnow.launch l).2.found, ?_, ?_⟩
  · intro instantOnly clients after he
    obtain ⟨s', hs', hanswer, -⟩ := Program.exists_of_mem_trace env.answer
      (I := fun s' => OnRecord row (env.table s')) hnow (fun _ he _ h' => hnow.answer he h') he
    rw [env.list_eq _ _ s' clients hanswer.symm]
    exact hs'.not_mem_list instantOnly
  · intro hprovider e he hcall
    have hwithin := within_of_mem_steps env l now he
    rw [hcall, hprovider] at hwithin
    exact hnow.not_mem_list _ hwithin

/-- The row that says so once the vendor was asked about its client. -/
def unknownRow : Row PortfolioRecord :=
  ⟨.degraded "b" upswingProvider true (some VendorError.netWorthNotFound), false⟩

theorem invalid_row_stays_oneUnknownClient :
    let now := MemoryStore.backend.after ([.usual 1, .usual 1] ++ [.usual 3]) oneUnknownClient
    (MemoryStore.backend.table (MemoryStore.backend.launch (.usual 2) now).2).find?
        ("b", upswingProvider) = some unknownRow ∧
      ∀ e ∈ MemoryStore.backend.steps (.usual 2) now, e.call ≠ .fetch "b" := by
  intro now
  have hrow : (MemoryStore.backend.table (MemoryStore.backend.after [.usual 1, .usual 1]
      oneUnknownClient)).find? ("b", upswingProvider) = some unknownRow := by
    rfl
  obtain ⟨-, hkept, -, hnot⟩ := invalid_row_stays MemoryStore.backend (by decide)
    [.usual 1, .usual 1] [.usual 3] hrow rfl (.usual 2)
  exact ⟨hkept, hnot rfl⟩

end DepositSync
