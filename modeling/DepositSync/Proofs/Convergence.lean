import DepositSync.Proofs.Account

/-!
# DepositSync.Proofs.Convergence

Scheduled runs converge. While the vendor sticks to its verdicts, a sequence of scheduled runs, each
of which may be aborted at any call, leaves the same table as one run that completes, as soon as its
last run completes.

Runs do not repeat each other: later ones list fewer clients, since rows became invalid or are gone.
What carries the proof is the table that a run would leave if it completed now (`settled`). A run
that is aborted does not change it, and neither does one that completes, after which it is the table
itself.
-/

namespace DepositSync

variable {ν ρ σ σ₁ : Type} [Entity ν ρ]

/-! ### One run that completes -/

/-- The row for the vendor's verdict on a client. -/
def verdictRow (provider : String) (verdict : String → Except VendorError ν)
    (client : String) : ρ :=
  Entity.ofAnswer provider (client, verdict client)

/-- A row after the verdict on its client was written, if it is listed. -/
def refreshed (provider : String) (verdict : String → Except VendorError ν) (row : Row ρ) : Row ρ :=
  if Record.provider row.record = provider ∧ Record.isInvalid row.record = false then
    Table.overwritten (some row) (verdictRow provider verdict (Record.client row.record))
  else row

/-- The table after a scheduled run that completes. -/
def settled (provider : String) (verdict : String → Except VendorError ν) (t : Table ρ) : Table ρ :=
  (t.upsert ((t.list provider false).map (verdictRow provider verdict))).deleteStale

section

variable [LawfulEntity ρ] (provider : String) (verdict : String → Except VendorError ν)

@[simp] theorem key_verdictRow (client : String) :
    Record.key (verdictRow provider verdict client : ρ) = (client, provider) :=
  Entity.key_ofAnswer provider _

@[simp] theorem key_refreshed (row : Row ρ) :
    (refreshed provider verdict row).key = row.key := by
  unfold refreshed
  split
  · next h => rw [Table.key_overwritten, key_verdictRow, ← h.1]; rfl
  · rfl

/-- Writing the verdict again changes nothing: a row that became invalid is not listed any more,
and any other one is written as it is. -/
@[simp] theorem refreshed_refreshed (row : Row ρ) :
    refreshed provider verdict (refreshed provider verdict row) =
      refreshed provider verdict row := by
  by_cases hlisted : Record.provider row.record = provider ∧ Record.isInvalid row.record = false
  · have hclient : Record.client (refreshed provider verdict row).record =
        Record.client row.record := congrArg Prod.fst (key_refreshed provider verdict row)
    rw [refreshed, hclient]
    split
    · rw [refreshed, if_pos hlisted, Table.overwritten_overwritten]
    · rfl
  · have hrow : refreshed provider verdict row = row := if_neg hlisted
    rw [hrow, hrow]

/-- Writing the verdicts on some of the clients that are listed refreshes their rows. -/
theorem find?_upsert_verdicts {t : Table ρ} (ht : t.Sorted) {clients : List String}
    (hclients : clients.Sublist (t.list provider false)) (key : String × String) :
    (t.upsert (clients.map (verdictRow provider verdict))).find? key =
      (t.find? key).map fun row =>
        if key.1 ∈ clients ∧ key.2 = provider then refreshed provider verdict row else row := by
  have hkeys : (clients.map (verdictRow provider verdict)).map (Record.key (ρ := ρ)) =
      clients.map fun client => (client, provider) := by
    simp
  by_cases h : key.1 ∈ clients ∧ key.2 = provider
  · obtain ⟨hmem, rfl⟩ := h
    obtain ⟨row, hrow, hvalid, -⟩ := (Table.mem_list ht).mp (hclients.subset hmem)
    have hkey := Table.key_of_find? hrow
    have hnodup : ((clients.map (verdictRow key.2 verdict)).map (Record.key (ρ := ρ))).Nodup := by
      rw [hkeys]
      exact List.Pairwise.map _ (fun _ _ hne heq => hne (congrArg Prod.fst heq))
        ((Table.nodup_list ht key.2 false).sublist hclients)
    have hfind := Table.find?_upsert_of_mem hnodup
      (List.mem_map_of_mem (f := verdictRow key.2 verdict) hmem) t
    rw [key_verdictRow, hrow] at hfind
    rw [hfind, hrow, Option.map_some, if_pos ⟨hmem, rfl⟩, refreshed,
      if_pos ⟨congrArg Prod.snd hkey, hvalid⟩]
    rw [show Record.client row.record = key.1 from congrArg Prod.fst hkey]
  · have hnot : key ∉ (clients.map (verdictRow provider verdict)).map (Record.key (ρ := ρ)) := by
      rw [hkeys]
      rintro hmem
      obtain ⟨client, hclient, rfl⟩ := List.mem_map.mp hmem
      exact h ⟨hclient, rfl⟩
    simp only [Table.find?_upsert_of_not_mem hnot, if_neg h, Option.map_id']

omit [LawfulEntity ρ] in
theorem sorted_settled {t : Table ρ} (ht : t.Sorted) : (settled provider verdict t).Sorted :=
  (ht.upsert _).deleteStale

theorem find?_settled {t : Table ρ} (ht : t.Sorted) (key : String × String) :
    (settled provider verdict t).find? key =
      ((t.find? key).map (refreshed provider verdict)).filter fun row =>
        !Record.isStale row.record := by
  rw [settled, Table.find?_deleteStale (ht.upsert _),
    find?_upsert_verdicts provider verdict ht (List.Sublist.refl _)]
  congr 1
  refine Option.map_congr fun row hrow => ?_
  split
  · rfl
  · next hnot =>
    refine (if_neg fun hlisted => hnot ?_).symm
    obtain rfl := Table.key_of_find? hrow
    refine ⟨(Table.mem_list ht).mpr ⟨row, ?_, hlisted.2, fun h => absurd h Bool.false_ne_true⟩,
      hlisted.1⟩
    rw [← hrow, ← hlisted.1]
    rfl

/-- A run that wrote some verdicts does not change what one that completes will leave. -/
theorem settled_upsert {t : Table ρ} (ht : t.Sorted) {clients : List String}
    (hclients : clients.Sublist (t.list provider false)) :
    settled provider verdict (t.upsert (clients.map (verdictRow provider verdict))) =
      settled provider verdict t := by
  refine Table.ext (sorted_settled _ _ (ht.upsert _)) (sorted_settled _ _ ht) fun key => ?_
  rw [find?_settled _ _ (ht.upsert _), find?_settled _ _ ht,
    find?_upsert_verdicts _ _ ht hclients, Option.map_map]
  congr 2
  funext row
  rw [Function.comp_apply]
  split
  · exact refreshed_refreshed provider verdict row
  · rfl

/-- A run that completed does not change it either. -/
theorem settled_settled {t : Table ρ} (ht : t.Sorted) :
    settled provider verdict (settled provider verdict t) = settled provider verdict t := by
  have hsettled := sorted_settled provider verdict ht
  refine Table.ext (sorted_settled _ _ hsettled) hsettled fun key => ?_
  rw [find?_settled _ _ hsettled, find?_settled _ _ ht]
  cases t.find? key with
  | none => rfl
  | some row =>
      cases hstale : Record.isStale (refreshed provider verdict row).record <;>
        simp [Option.filter, hstale]

end

/-! ### Runs while the vendor sticks to its verdicts -/

/-- From this state on, whenever the vendor gives a verdict on a client, it is this one. -/
def Backend.Honours (env : Backend ν ρ σ) (verdict : String → Except VendorError ν)
    (s : σ) : Prop :=
  ∀ s', env.Reachable s s' → ∀ client, isVerdict (env.answer (.fetch client) s').1 = true →
    (env.answer (.fetch client) s').1 = verdict client

theorem Backend.Honours.run {env : Backend ν ρ σ} {verdict : String → Except VendorError ν} {s : σ}
    (h : env.Honours verdict s) {α : Type} (p : Program (Call ν ρ) Call.Answer α) :
    env.Honours verdict (p.run env.answer s).2 :=
  fun s' hs' => h s' ((env.reachable_run p s).trans hs')

/-- The vendor of the service in memory sticks to the answers that are set. -/
theorem MemoryStore.honours_reply (s : MemoryStore ν ρ) :
    MemoryStore.backend.Honours s.reply s := by
  have hreply (s' : MemoryStore ν ρ) (h : MemoryStore.backend.Reachable s s') :
      s'.reply = s.reply := by
    induction h with
    | start => rfl
    | call _ c ih => exact (MemoryStore.reply_answer _ c).trans ih
  exact fun s' hs' client _ => congrFun (hreply s' hs') client

/-- The run covers the clients of a provider: it is one of those that the scheduler starts. -/
def Launch.Covers (l : Launch) (provider : String) : Prop :=
  l.mode = .scheduled ∧ l.settings.provider = provider

section

variable {env : Backend ν ρ σ} {verdict : String → Except VendorError ν}

theorem eq_verdict_of_mem {s : σ} (h : env.Honours verdict s) {l : Launch}
    {asked : String × Except VendorError ν} (hmem : asked ∈ verdicts (env.steps l s)) :
    asked.2 = verdict asked.1 := by
  obtain ⟨client, answer⟩ := asked
  obtain ⟨hasked, hverdict⟩ := List.mem_filter.mp hmem
  obtain ⟨after, hstep⟩ := mem_consulted.mp hasked
  obtain ⟨s', hs', hanswer, -⟩ := Program.exists_of_mem_trace env.answer Backend.Reachable.start
    (fun e _ _ h => h.call e.call) hstep
  obtain rfl : answer = (env.answer (.fetch client) s').1 := hanswer
  exact h s' hs' client hverdict

/-- What a run writes are the rows for the verdicts on some of the clients that it lists. -/
theorem exists_stored_eq {s : σ} (h : env.Honours verdict s) (l : Launch) :
    ∃ clients : List String,
      clients.Sublist ((env.table s).list l.settings.provider l.mode.isInstant) ∧
      stored (env.steps l s) = clients.map (verdictRow l.settings.provider verdict) := by
  have haccount := account_launch env l s
  obtain ⟨n, hn⟩ : ∃ n, stored (env.steps l s) =
      ((verdicts (env.steps l s)).take n).map (Entity.ofAnswer l.settings.provider) :=
    ⟨_, by rw [List.map_take]; exact List.prefix_iff_eq_take.mp haccount.written⟩
  refine ⟨((verdicts (env.steps l s)).take n).map Prod.fst, ?_, ?_⟩
  · exact (((List.take_sublist n _).trans List.filter_sublist).map Prod.fst).trans
      haccount.asked.sublist
  · rw [hn, List.map_map]
    refine List.map_congr_left fun asked hasked => ?_
    rw [Function.comp_apply, verdictRow, ← eq_verdict_of_mem h (List.mem_of_mem_take hasked)]

variable [LawfulEntity ρ]

/-- A run leaves a table from which another one makes the same as from the table before. If it
completes, it has made that table itself. -/
theorem settled_launch {s : σ} (h : env.Honours verdict s) {l : Launch} {provider : String}
    (hl : l.Covers provider) (hs : (env.table s).Sorted) :
    settled provider verdict (env.table (env.launch l s).2) =
        settled provider verdict (env.table s) ∧
      ((env.launch l s).1.outcome = .completed →
        env.table (env.launch l s).2 = settled provider verdict (env.table s)) := by
  obtain ⟨hmode, rfl⟩ := hl
  have haccount := account_launch env l s
  rw [hmode] at haccount
  have hcompleted : (env.launch l s).1.outcome = .completed →
      env.table (env.launch l s).2 = settled l.settings.provider verdict (env.table s) := by
    intro hc
    have hasked : (consulted (env.steps l s)).map Prod.fst =
        (env.table s).list l.settings.provider false := haccount.askedAll hc
    have hstored : stored (env.steps l s) = ((env.table s).list l.settings.provider false).map
        (verdictRow l.settings.provider verdict) := by
      rw [haccount.writtenAll hc, ← hasked, List.map_map]
      refine List.map_congr_left fun asked hasked => ?_
      rw [← haccount.decided hc] at hasked
      rw [Function.comp_apply, verdictRow, ← eq_verdict_of_mem h hasked]
    rw [haccount.finished hc, hstored]
    rfl
  refine ⟨?_, hcompleted⟩
  by_cases hc : (env.launch l s).1.outcome = .completed
  · rw [hcompleted hc, settled_settled _ _ hs]
  · obtain ⟨clients, hclients, hstored⟩ := exists_stored_eq h l
    rw [hmode] at hclients
    rw [haccount.stopped hc, hstored, settled_upsert _ _ hs hclients]

end

/-! ### Convergence -/

/-- **Scheduled runs converge.** While the vendor sticks to its verdicts, the last run of a
sequence, if it completes, leaves the same table as one run that completes on the table at the
start; the runs before it may have been aborted at any call, or have completed. -/
theorem scheduled_runs_converge [LawfulEntity ρ] (env : Backend ν ρ σ) (env₁ : Backend ν ρ σ₁)
    (verdict : String → Except VendorError ν) (s : σ) (s₁ : σ₁)
    (h : env.Honours verdict s) (h₁ : env₁.Honours verdict s₁)
    (hs : (env.table s).Sorted) (hsame : env₁.table s₁ = env.table s)
    (provider : String) (launches : List Launch) (last once : Launch)
    (hlaunches : ∀ l ∈ launches, l.Covers provider) (hlast : last.Covers provider)
    (honce : once.Covers provider)
    (hlastCompleted : (env.launch last (env.after launches s)).1.outcome = .completed)
    (honceCompleted : (env₁.launch once s₁).1.outcome = .completed) :
    env.table (env.launch last (env.after launches s)).2 = env₁.table (env₁.launch once s₁).2 := by
  have hafter : env.Honours verdict (env.after launches s) ∧
      (env.table (env.after launches s)).Sorted ∧
      settled provider verdict (env.table (env.after launches s)) =
        settled provider verdict (env.table s) := by
    refine env.after_invariant (fun s' => env.Honours verdict s' ∧ (env.table s').Sorted ∧
      settled provider verdict (env.table s') = settled provider verdict (env.table s))
      launches ⟨h, hs, rfl⟩ fun l hl s' ⟨h', hs', hsettled⟩ => ?_
    exact ⟨h'.run (l.program ρ), env.sorted_run (l.program ρ) hs',
      (settled_launch h' (hlaunches l hl) hs').1.trans hsettled⟩
  obtain ⟨hhonours, hsorted, hsettled⟩ := hafter
  rw [(settled_launch hhonours hlast hsorted).2 hlastCompleted, hsettled,
    (settled_launch h₁ honce (hsame ▸ hs)).2 honceCompleted, hsame]

theorem scheduled_runs_converge_oneUnknownClient :
    (MemoryStore.backend.launch (.usual 1) oneUnknownClient).1.outcome = .aborted ∧
      MemoryStore.backend.table (MemoryStore.backend.launch (.usual 1)
        (MemoryStore.backend.after [.usual 1] oneUnknownClient)).2 =
      MemoryStore.backend.table
        (MemoryStore.backend.launch (.usual 2) { oneUnknownClient with failures := [] }).2 := by
  refine ⟨by decide, ?_⟩
  refine scheduled_runs_converge MemoryStore.backend MemoryStore.backend oneUnknownClient.reply
    oneUnknownClient { oneUnknownClient with failures := [] }
    (MemoryStore.honours_reply _)
    (MemoryStore.honours_reply { oneUnknownClient with failures := [] })
    (by decide) rfl upswingProvider [.usual 1] (.usual 1) (.usual 2) ?_ ⟨rfl, rfl⟩ ⟨rfl, rfl⟩
    (by decide) (by decide)
  intro l hl
  obtain rfl := List.mem_singleton.mp hl
  exact ⟨rfl, rfl⟩

end DepositSync
