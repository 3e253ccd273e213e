import DepositSync.Proofs.IdealRun

/-!
# DepositSync.Proofs.RunTrace

Which calls a run makes, whatever answers them. The calls of the ideal run are spelled out by the
answers about the clients: one listing, for each group of clients the questions and the writing of
their rows, and one last call (`Ideal.trace_run`). The run itself makes the same calls up to and
including the first one that fails.
-/

namespace DepositSync

open Sql (grouped)

variable {ν ρ σ : Type}

/-! ### Reading a trace -/

/-- The steps of a run of a job. -/
abbrev RunStep (ν ρ σ : Type) := Step (Call ν ρ) Call.Answer σ

/-- The clients that the vendor was asked about, with its answers. -/
def consulted (steps : List (RunStep ν ρ σ)) : List (String × Except VendorError ν) :=
  steps.filterMap fun
    | ⟨.fetch client, answer, _⟩ => some (client, answer)
    | _ => none

@[simp] theorem consulted_nil : consulted ([] : List (RunStep ν ρ σ)) = [] := rfl

@[simp] theorem consulted_append (l l' : List (RunStep ν ρ σ)) :
    consulted (l ++ l') = consulted l ++ consulted l' :=
  List.filterMap_append

@[simp] theorem consulted_fetch (client : String) (answer : Except VendorError ν) (after : σ)
    (rest : List (RunStep ν ρ σ)) :
    consulted (⟨.fetch client, answer, after⟩ :: rest) = (client, answer) :: consulted rest := rfl

@[simp] theorem consulted_list (provider : String) (instantOnly : Bool)
    (answer : Except StoreError (List String)) (after : σ) (rest : List (RunStep ν ρ σ)) :
    consulted (⟨.list provider instantOnly, answer, after⟩ :: rest) = consulted rest := rfl

@[simp] theorem consulted_upsert (rows : List ρ) (answer : Except StoreError Nat) (after : σ)
    (rest : List (RunStep ν ρ σ)) :
    consulted (⟨.upsert rows, answer, after⟩ :: rest) = consulted rest := rfl

@[simp] theorem consulted_lastCall (mode : RefreshMode) (provider : String) (clients : List String)
    (answer : (Ideal.lastCall mode provider clients : Call ν ρ).Answer) (after : σ) :
    consulted [⟨Ideal.lastCall mode provider clients, answer, after⟩] = [] := by
  cases mode <;> rfl

theorem mem_consulted {client : String} {answer : Except VendorError ν}
    {steps : List (RunStep ν ρ σ)} :
    (client, answer) ∈ consulted steps ↔ ∃ after, ⟨.fetch client, answer, after⟩ ∈ steps := by
  constructor
  · intro h
    obtain ⟨e, he, heq⟩ := List.mem_filterMap.mp h
    match e, heq with
    | ⟨.fetch _, _, after⟩, rfl => exact ⟨after, he⟩
  · rintro ⟨after, h⟩
    exact List.mem_filterMap.mpr ⟨_, h, rfl⟩

/-! ### The calls of the ideal run -/

namespace Ideal

variable [Entity ν ρ]

/-- The calls about the clients of one batch, given the vendor's answers about them. -/
def batchCalls (provider : String) (batch : List (String × Except VendorError ν)) :
    List (Call ν ρ) :=
  (batch.map Prod.fst).map .fetch ++ [.upsert (batch.map (Entity.ofAnswer provider))]

variable (handle : (c : Call ν ρ) → σ → c.Answer × σ) (provider : String)

/-- The vendor is asked about the clients one by one, and the rows are made of its answers. -/
theorem trace_fetchAll (clients : List String) (s : σ) :
    let steps := (fetchAll provider clients : Program _ _ (List ρ)).trace handle s
    (consulted steps).map Prod.fst = clients ∧
      steps.map Step.call = clients.map .fetch ∧
      ((fetchAll provider clients).run handle s).1 =
        (consulted steps).map (Entity.ofAnswer provider) := by
  induction clients generalizing s with
  | nil => exact ⟨rfl, rfl, rfl⟩
  | cons client rest ih =>
      obtain ⟨hclients, hcalls, hrows⟩ := ih (handle (.fetch client) s).2
      simp only [fetchAll, Program.trace_call, Program.trace_map, Program.run_call,
        Program.run_map, consulted_fetch, List.map_cons]
      exact ⟨by rw [hclients], by rw [hcalls], by rw [hrows]⟩

/-- The clients are covered group by group. -/
theorem trace_writeAll {size : Nat} (hsize : 0 < size) (clients : List String) (s : σ) :
    let steps := (writeAll provider (grouped size clients)).trace handle s
    (consulted steps).map Prod.fst = clients ∧
      steps.map Step.call = (grouped size (consulted steps)).flatMap (batchCalls provider) := by
  induction clients using grouped_induction hsize generalizing s with
  | nil => simp [writeAll]
  | cons clients hne ih =>
      obtain ⟨hfirst, hfetch, hrows⟩ := trace_fetchAll handle provider (clients.take size) s
      rw [grouped_eq_cons hsize hne]
      simp only [writeAll, write, Program.trace_bind, Program.trace_call, consulted_append,
        consulted_upsert, List.map_append, List.map_cons, hfirst, hfetch, hrows]
      generalize (fetchAll provider (clients.take size)).trace handle s = first at hfirst hrows ⊢
      generalize (handle _ _).2 = s'
      obtain ⟨hrest, hcalls⟩ := ih s'
      refine ⟨by rw [hrest, List.take_append_drop], ?_⟩
      -- the answers of the first batch are a group of their own: it is full, or no other follows
      have hlength : (consulted first).length = min size clients.length := by
        rw [← List.length_take, ← hfirst, List.length_map]
      have hpos := List.length_pos_iff.mpr hne
      rw [hcalls, grouped_append, List.flatMap_cons, batchCalls, hfirst, List.append_assoc]
      · rfl
      · exact List.length_pos_iff.mp (by omega)
      · omega
      · by_cases hle : size ≤ clients.length
        · exact .inl (by omega)
        · refine .inr (List.map_eq_nil_iff.mp (hrest.trans ?_))
          exact List.drop_of_length_le (by omega)

/-- The calls of the ideal run: the listing, the calls about each group of clients, and the last
call, about all of them. -/
theorem trace_run (batchSize : Nat) (mode : RefreshMode) (s : σ) :
    let clients := (handle (.list provider mode.isInstant) s).1.toOption.getD []
    let steps := (run provider batchSize mode).trace handle s
    (consulted steps).map Prod.fst = clients ∧
      steps.map Step.call = .list provider mode.isInstant ::
        (grouped (max batchSize 1) (consulted steps)).flatMap (batchCalls provider) ++
          [lastCall mode provider clients] := by
  intro clients steps
  have hsize : 0 < max batchSize 1 := by omega
  obtain ⟨hclients, hcalls⟩ := trace_writeAll handle provider hsize clients
    (handle (.list provider mode.isInstant) s).2
  have hsteps : consulted steps =
      consulted ((writeAll provider (grouped (max batchSize 1) clients)).trace handle
        (handle (.list provider mode.isInstant) s).2) := by
    simp only [steps, run, cover, finish, Program.trace_call, Program.trace_bind, consulted_list,
      consulted_append, Program.trace_done, consulted_lastCall, List.append_nil]
    rfl
  rw [hsteps]
  refine ⟨hclients, ?_⟩
  rw [← hcalls]
  simp only [steps, run, cover, finish, Program.trace_call, Program.trace_bind, Program.trace_done,
    List.map_cons, List.map_append, List.map_nil]
  rfl

end Ideal

/-! ### The calls of a run -/

section

variable [Entity ν ρ] (handle : (c : Call ν ρ) → σ → c.Answer × σ)

theorem trace_execute (provider : String) (batchSize : Nat) (mode : RefreshMode) (s : σ) :
    (Run.execute provider batchSize mode : Run ν ρ).trace handle s =
      throughFirst (Step.failed Call.fails)
        ((Ideal.run provider batchSize mode).trace handle s) := by
  rw [← Program.trace_untilFailure, ← Program.trace_map _ Option.isSome, ← Ideal.held,
    ← Run.execute_refines, Run.completion, Program.trace_map]

/-- A run is complete exactly if no call of the ideal run fails. -/
theorem isNone_run_execute (provider : String) (batchSize : Nat) (mode : RefreshMode) (s : σ) :
    ((Run.execute provider batchSize mode : Run ν ρ).run handle s).1.2.isNone =
      !((Ideal.run provider batchSize mode).trace handle s).any (Step.failed Call.fails) := by
  rw [← Program.isSome_run_untilFailure]
  have h := congrArg (fun p => (p.run handle s).1)
    (Run.execute_refines (ρ := ρ) provider batchSize mode)
  simpa only [Run.completion, Ideal.held, Program.run_map] using h

/-- A run that an operator starts, or the scheduler if the job is switched on. -/
theorem reconcile_eq_map {settings : ReconciliationSettings} {trigger : Trigger}
    (h : trigger = .operator ∨ settings.enabled = true) (mode : RefreshMode) :
    reconcile ρ settings trigger mode =
      (Run.execute settings.provider settings.batchSize mode : Run ν ρ).map
        (RunEnding.report (Entity.job ρ) mode settings.provider) := by
  unfold reconcile
  rw [if_neg]
  · rfl
  · rintro ⟨rfl, hoff⟩
    simp [hoff] at h

/-- The report says that the run is complete if it was not aborted. -/
theorem outcome_report (job : Job) (mode : RefreshMode) (provider : String) (ending : RunEnding) :
    (ending.report job mode provider).outcome =
      if ending.2.isNone then .completed else .aborted := by
  obtain ⟨t, error⟩ := ending
  cases error <;> rfl

/-- **What a run calls.** Whatever answers the calls, a run that an operator starts makes those of
the ideal run, up to and including the first one that fails; it is complete if none fails, and
aborted otherwise. The ideal run lists the clients, asks the vendor about them group by group and
writes each group's rows, and finishes with one last call. The groups are as long as the batch size
says, at least one, apart from the last one; none is empty. -/
theorem trace_reconcile (settings : ReconciliationSettings) (mode : RefreshMode) (s : σ) :
    let clients := (handle (.list settings.provider mode.isInstant) s).1.toOption.getD []
    let size := max settings.batchSize 1
    let ideal := (Ideal.run settings.provider settings.batchSize mode).trace handle s
    let groups := grouped size (consulted ideal)
    (reconcile ρ settings .operator mode).trace handle s =
        throughFirst (Step.failed Call.fails) ideal ∧
      ((reconcile ρ settings .operator mode).run handle s).1.outcome =
        (if ideal.any (Step.failed Call.fails) then .aborted else .completed) ∧
      ideal.map Step.call = .list settings.provider mode.isInstant ::
        groups.flatMap (Ideal.batchCalls settings.provider) ++
          [Ideal.lastCall mode settings.provider clients] ∧
      (consulted ideal).map Prod.fst = clients ∧
      groups.flatten = consulted ideal ∧
      (∀ group ∈ groups, group ≠ [] ∧ group.length ≤ size) ∧
      ∀ group ∈ groups.dropLast, group.length = size := by
  intro clients size ideal groups
  have hsize : 0 < size := by omega
  obtain ⟨hclients, hcalls⟩ :=
    Ideal.trace_run handle settings.provider settings.batchSize mode s
  refine ⟨?_, ?_, hcalls, hclients, flatten_grouped hsize _, fun group hgroup =>
    ⟨ne_nil_of_mem_grouped hsize hgroup, length_le_of_mem_grouped hsize hgroup⟩,
    fun group hgroup => length_of_mem_dropLast_grouped hsize hgroup⟩
  · rw [reconcile_eq_map (.inl rfl), Program.trace_map, trace_execute]
  · rw [reconcile_eq_map (.inl rfl), Program.run_map, outcome_report, isNone_run_execute]
    cases ideal.any (Step.failed Call.fails) <;> rfl

end

end DepositSync
