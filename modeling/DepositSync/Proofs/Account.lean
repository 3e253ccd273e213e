import DepositSync.Proofs.Backend

/-!
# DepositSync.Proofs.Account

What one run does to the table, told by what the vendor answered. The vendor is asked about clients
that are listed, in their order; of the rows for its verdicts a first part is written. A run that
does not complete leaves it at that. One that completes has asked about all the clients and written
all their rows, and it has done what is last (`Account`). Every run is like this, also one that is
switched off (`account_launch`).
-/

namespace DepositSync

open Sql (grouped)

variable {ν ρ σ : Type}

/-! ### Reading a trace -/

/-- Is the answer a verdict on the client: a report, or a rejection? -/
def isVerdict : Except VendorError ν → Bool
  | .ok _ => true
  | .error e => !e.abortsRun

/-- The answers that are no verdict: the payload makes no sense, none came, or there was no token to
ask with. -/
theorem isVerdict_eq_false_iff {answer : Except VendorError ν} :
    isVerdict answer = false ↔ (∃ status body, answer = .error (.malformed status body)) ∨
      (∃ failure, answer = .error (.transport failure)) ∨
      ∃ reason, answer = .error (.token reason) := by
  rcases answer with e | report
  · cases e <;> simp [isVerdict, VendorError.abortsRun]
  · simp [isVerdict]

/-- The clients on which there was a verdict, with the verdicts. -/
def verdicts (steps : List (RunStep ν ρ σ)) : List (String × Except VendorError ν) :=
  (consulted steps).filter fun asked => isVerdict asked.2

/-- The rows that were written. -/
def stored (steps : List (RunStep ν ρ σ)) : List ρ :=
  steps.flatMap fun
    | ⟨.upsert rows, .ok _, _⟩ => rows
    | _ => []

@[simp] theorem verdicts_append (l l' : List (RunStep ν ρ σ)) :
    verdicts (l ++ l') = verdicts l ++ verdicts l' := by
  simp only [verdicts, consulted_append, List.filter_append]

@[simp] theorem verdicts_upsert (rows : List ρ) (answer : Except StoreError Nat) (after : σ)
    (rest : List (RunStep ν ρ σ)) :
    verdicts (⟨.upsert rows, answer, after⟩ :: rest) = verdicts rest := rfl

theorem failed_fetch (client : String) (answer : Except VendorError ν) (after : σ) :
    (⟨.fetch client, answer, after⟩ : RunStep ν ρ σ).failed Call.fails = !isVerdict answer := by
  cases answer with
  | ok report => rfl
  | error e => exact (Bool.not_not e.abortsRun).symm

/-- Where no call fails all answers of the vendor are verdicts. -/
theorem verdicts_eq_consulted {steps : List (RunStep ν ρ σ)}
    (h : steps.any (Step.failed Call.fails) = false) : verdicts steps = consulted steps := by
  refine List.filter_eq_self.mpr fun (client, answer) hasked => ?_
  obtain ⟨after, hmem⟩ := mem_consulted.mp hasked
  have hfetch := List.any_eq_false.mp h _ hmem
  rw [failed_fetch] at hfetch
  simpa using hfetch

@[simp] theorem stored_append (l l' : List (RunStep ν ρ σ)) :
    stored (l ++ l') = stored l ++ stored l' :=
  List.flatMap_append

@[simp] theorem stored_upsert_ok (rows : List ρ) (n : Nat) (after : σ)
    (rest : List (RunStep ν ρ σ)) :
    stored (⟨.upsert rows, .ok n, after⟩ :: rest) = rows ++ stored rest := rfl

@[simp] theorem stored_list (provider : String) (instantOnly : Bool)
    (answer : Except StoreError (List String)) (after : σ) (rest : List (RunStep ν ρ σ)) :
    stored (⟨.list provider instantOnly, answer, after⟩ :: rest) = stored rest := rfl

/-- The last call neither asks nor writes rows. -/
theorem reading_lastCall {mode : RefreshMode} {provider : String} {clients : List String}
    {e : RunStep ν ρ σ} (h : e.call = Ideal.lastCall mode provider clients) :
    consulted [e] = [] ∧ stored [e] = [] := by
  obtain ⟨call, answer, after⟩ := e
  obtain rfl : call = Ideal.lastCall mode provider clients := h
  cases mode <;> exact ⟨rfl, rfl⟩

/-- Asking writes nothing. -/
theorem stored_of_fetches {steps : List (RunStep ν ρ σ)}
    (h : ∀ e ∈ steps, ∃ client, e.call = .fetch client) : stored steps = [] := by
  refine List.flatMap_eq_nil_iff.mpr fun e he => ?_
  obtain ⟨client, hcall⟩ := h e he
  obtain ⟨call, answer, after⟩ := e
  obtain rfl : call = .fetch client := hcall
  rfl

variable [Entity ν ρ]

/-- Asking about clients and writing rows does to the table what writing those rows does. -/
theorem applied_eq_upsert {steps : List (RunStep ν ρ σ)}
    (h : ∀ e ∈ steps, (∃ client, e.call = .fetch client) ∨ ∃ rows, e.call = .upsert rows)
    (t : Table ρ) : applied steps t = t.upsert (stored steps) := by
  induction steps generalizing t with
  | nil => rfl
  | cons e rest ih =>
      have hrest := ih fun e he => h e (List.mem_cons_of_mem _ he)
      obtain ⟨call, answer, after⟩ := e
      rw [applied_cons, hrest]
      rcases h _ (List.mem_cons_self ..) with ⟨client, hcall⟩ | ⟨rows, hcall⟩
      · obtain rfl : call = .fetch client := hcall
        exact congrArg (Table.upsert (stored rest)) (ite_self t)
      · obtain rfl : call = .upsert rows := hcall
        cases answer with
        | ok n => exact (Table.upsert_append rows (stored rest) t).symm
        | error e => rfl

/-! ### Writing in batches -/

/-- However far the calls get: what is written are the rows for the verdicts, from the first one on.
Where no call fails it is all of them. -/
structure WritesVerdicts (provider : String) (ideal : List (RunStep ν ρ σ)) : Prop where
  cut : stored (throughFirst (Step.failed Call.fails) ideal) <+:
    (verdicts (throughFirst (Step.failed Call.fails) ideal)).map (Entity.ofAnswer provider)
  whole : ideal.any (Step.failed Call.fails) = false →
    stored ideal = (consulted ideal).map (Entity.ofAnswer provider)

/-- One more batch in front. It is written after all its clients were asked about. -/
theorem WritesVerdicts.batch {provider : String} {first rest : List (RunStep ν ρ σ)}
    (hfirst : ∀ e ∈ first, ∃ client, e.call = .fetch client) (hrest : WritesVerdicts provider rest)
    (answer : Except StoreError Nat) (after : σ) :
    WritesVerdicts provider (first ++
      ⟨.upsert ((consulted first).map (Entity.ofAnswer provider)), answer, after⟩ :: rest) := by
  have hnone : stored (throughFirst (Step.failed Call.fails) first) = [] :=
    stored_of_fetches fun e he => hfirst e ((throughFirst_isPrefix _ first).subset he)
  cases hany : first.any (Step.failed Call.fails) with
  | true =>
      -- a call to the vendor fails: the batch is dropped
      refine ⟨?_, fun h => by simp [hany] at h⟩
      rw [throughFirst_append_of_any hany, hnone]
      exact List.nil_prefix
  | false =>
      cases answer with
      | error e =>
          refine ⟨?_, fun h => by simp [Step.failed, Call.fails] at h⟩
          rw [throughFirst_append_of_not_any hany, throughFirst, if_pos (by rfl), stored_append,
            stored_of_fetches hfirst]
          exact List.nil_prefix
      | ok n =>
          constructor
          · rw [throughFirst_append_of_not_any hany, throughFirst,
              if_neg (by simp [Step.failed, Call.fails])]
            rw [stored_append, stored_of_fetches hfirst, stored_upsert_ok, verdicts_append,
              verdicts_upsert, verdicts_eq_consulted hany, List.map_append, List.nil_append]
            exact (List.prefix_append_right_inj _).mpr hrest.cut
          · intro h
            have := hrest.whole (by simp_all)
            simp only [stored_append, stored_of_fetches hfirst, stored_upsert_ok,
              consulted_append, consulted_upsert, List.map_append, ← this]
            rfl

theorem writesVerdicts_writeAll (handle : (c : Call ν ρ) → σ → c.Answer × σ) (provider : String)
    (batches : List (List String)) (s : σ) :
    WritesVerdicts provider ((Ideal.writeAll provider batches).trace handle s) := by
  induction batches generalizing s with
  | nil => exact ⟨List.prefix_refl [], fun _ => rfl⟩
  | cons batch rest ih =>
      obtain ⟨-, hcalls, hrows⟩ := Ideal.trace_fetchAll handle provider batch s
      simp only [Ideal.writeAll, Ideal.write, Program.trace_bind, Program.trace_call]
      rw [hrows]
      refine WritesVerdicts.batch (fun e he => ?_) (ih _) _ _
      have hcall := List.mem_map_of_mem (f := Step.call) he
      rw [hcalls] at hcall
      obtain ⟨client, -, hclient⟩ := List.mem_map.mp hcall
      exact ⟨client, hclient.symm⟩

/-! ### Accounts -/

/-- What a run did to a table `t`, of which `t'` is left. -/
structure Account (provider : String) (mode : RefreshMode) (steps : List (RunStep ν ρ σ))
    (completed : Prop) (t t' : Table ρ) : Prop where
  /-- The vendor is asked about listed clients, from the first one on. -/
  asked : (consulted steps).map Prod.fst <+: t.list provider mode.isInstant
  /-- The rows for its verdicts are written, from the first one on. -/
  written : stored steps <+: (verdicts steps).map (Entity.ofAnswer provider)
  /-- A run that does not complete leaves it at that. -/
  stopped : ¬completed → t' = t.upsert (stored steps)
  /-- One that completes had a verdict on every client that it asked about. -/
  decided : completed → verdicts steps = consulted steps
  /-- It has asked about all listed clients. -/
  askedAll : completed → (consulted steps).map Prod.fst = t.list provider mode.isInstant
  /-- It has written all their rows. -/
  writtenAll : completed → stored steps = (consulted steps).map (Entity.ofAnswer provider)
  /-- It has done what is last. -/
  finished : completed → t' = (Ideal.lastCall mode provider
    (t.list provider mode.isInstant) : Call ν ρ).effect (t.upsert (stored steps))

theorem Account.ofStopped {provider : String} {mode : RefreshMode} {steps : List (RunStep ν ρ σ)}
    {completed : Prop} {t t' : Table ρ} (h : ¬completed)
    (asked : (consulted steps).map Prod.fst <+: t.list provider mode.isInstant)
    (written : stored steps <+: (verdicts steps).map (Entity.ofAnswer provider))
    (stopped : t' = t.upsert (stored steps)) : Account provider mode steps completed t t' where
  asked := asked
  written := written
  stopped _ := stopped
  decided hc := absurd hc h
  askedAll hc := absurd hc h
  writtenAll hc := absurd hc h
  finished hc := absurd hc h

theorem Account.exists_of_mem_stored {provider : String} {mode : RefreshMode}
    {steps : List (RunStep ν ρ σ)} {completed : Prop} {t t' : Table ρ}
    (h : Account provider mode steps completed t t') {record : ρ} (hrecord : record ∈ stored steps) :
    ∃ asked ∈ verdicts steps, Entity.ofAnswer provider asked = record :=
  List.mem_map.mp (h.written.subset hrecord)

/-- No row is written for a client that was not asked about, or for another provider. -/
theorem Account.not_mem_stored [LawfulEntity ρ] {provider : String} {mode : RefreshMode}
    {steps : List (RunStep ν ρ σ)} {completed : Prop} {t t' : Table ρ}
    (h : Account provider mode steps completed t t') {key : String × String}
    (hnot : key.2 = provider → key.1 ∉ (consulted steps).map Prod.fst) :
    key ∉ (stored steps).map Record.key := by
  intro hmem
  obtain ⟨record, hrecord, rfl⟩ := List.mem_map.mp hmem
  obtain ⟨asked, hasked, rfl⟩ := h.exists_of_mem_stored hrecord
  rw [Entity.key_ofAnswer] at hnot
  exact hnot rfl (List.mem_map_of_mem (List.mem_filter.mp hasked).1)

section

variable {provider : String} {mode : RefreshMode} {t : Table ρ} {batches : List (RunStep ν ρ σ)}

/-- A run that stops in the middle of a batch, or where a batch is written. -/
theorem Account.ofCut
    (hcalls : ∀ e ∈ batches, (∃ client, e.call = .fetch client) ∨ ∃ rows, e.call = .upsert rows)
    (hasked : (consulted batches).map Prod.fst = t.list provider mode.isInstant)
    (hwrites : WritesVerdicts provider batches) {completed : Prop} (h : ¬completed)
    (listing : Except StoreError (List String)) (hlisting : listing.isOk = true) (listed : σ) :
    let steps := ⟨.list provider mode.isInstant, listing, listed⟩ ::
      throughFirst (Step.failed Call.fails) batches
    Account provider mode steps completed t (applied steps t) := by
  intro steps
  have hcut := throughFirst_isPrefix (Step.failed Call.fails) batches
  refine .ofStopped h ?_ hwrites.cut ?_
  · rw [consulted_list, ← hasked]
    exact (List.IsPrefix.filterMap _ hcut).map Prod.fst
  · cases listing with
    | error e => cases hlisting
    | ok clients => exact applied_eq_upsert (fun e he => hcalls e (hcut.subset he)) t

/-- A run that has written all batches. What is last may fail. -/
theorem Account.ofWhole
    (hcalls : ∀ e ∈ batches, (∃ client, e.call = .fetch client) ∨ ∃ rows, e.call = .upsert rows)
    (hasked : (consulted batches).map Prod.fst = t.list provider mode.isInstant)
    (hwrites : WritesVerdicts provider batches)
    (hbatches : batches.any (Step.failed Call.fails) = false) {last : RunStep ν ρ σ}
    (hlast : last.call = Ideal.lastCall mode provider (t.list provider mode.isInstant))
    (listing : Except StoreError (List String)) (hlisting : listing.isOk = true) (listed : σ) :
    let steps := ⟨.list provider mode.isInstant, listing, listed⟩ :: (batches ++ [last])
    Account provider mode steps (last.failed Call.fails = false) t (applied steps t) := by
  intro steps
  obtain ⟨hlastConsulted, hlastStored⟩ := reading_lastCall hlast
  have hconsulted : consulted steps = consulted batches := by
    rw [consulted_list, consulted_append, hlastConsulted, List.append_nil]
  have hverdicts : verdicts steps = consulted steps := by
    rw [verdicts, hconsulted, ← verdicts, verdicts_eq_consulted hbatches]
  have hstored : stored steps = (consulted steps).map (Entity.ofAnswer provider) := by
    rw [hconsulted, ← hwrites.whole hbatches, stored_list, stored_append, hlastStored,
      List.append_nil]
  have happlied : applied steps t = applied [last] (t.upsert (stored steps)) := by
    rw [hstored, hconsulted, ← hwrites.whole hbatches, ← applied_eq_upsert hcalls, applied_cons,
      applied_append]
    cases listing with
    | error e => cases hlisting
    | ok clients => rfl
  rw [← hconsulted] at hasked
  have hwritten : stored steps <+: (verdicts steps).map (Entity.ofAnswer provider) :=
    ⟨[], by rw [List.append_nil, hverdicts, hstored]⟩
  cases hfailed : last.failed Call.fails with
  | true =>
      refine .ofStopped Bool.true_eq_false.mp (hasked ▸ List.prefix_refl _) hwritten ?_
      rw [happlied, applied_cons, hfailed, if_pos rfl, applied_nil]
  | false =>
      refine ⟨hasked ▸ List.prefix_refl _, hwritten, absurd rfl, fun _ => hverdicts,
        fun _ => hasked, fun _ => hstored, fun _ => ?_⟩
      rw [happlied, applied_cons, hfailed, if_neg Bool.false_ne_true, applied_nil, hlast]

/-- The calls of an ideal run, up to the first one that fails, do to the table what an account
says. -/
theorem Account.ofIdeal {listing : Except StoreError (List String)} {clients : List String}
    {last : RunStep ν ρ σ}
    (hlisting : ∀ l, listing = .ok l → l = t.list provider mode.isInstant)
    (hclients : clients = listing.toOption.getD [])
    (hcalls : ∀ e ∈ batches, (∃ client, e.call = .fetch client) ∨ ∃ rows, e.call = .upsert rows)
    (hasked : (consulted batches).map Prod.fst = clients)
    (hwrites : WritesVerdicts provider batches)
    (hlast : last.call = Ideal.lastCall mode provider clients) (listed : σ) :
    let ideal := ⟨.list provider mode.isInstant, listing, listed⟩ :: (batches ++ [last])
    let steps := throughFirst (Step.failed Call.fails) ideal
    Account provider mode steps (ideal.any (Step.failed Call.fails) = false) t
      (applied steps t) := by
  intro ideal steps
  cases listing with
  | error e =>
      have hany : ideal.any (Step.failed Call.fails) = true := rfl
      exact .ofStopped (by simp [hany]) List.nil_prefix List.nil_prefix rfl
  | ok l =>
      obtain rfl := hlisting l rfl
      obtain rfl : clients = t.list provider mode.isInstant := hclients
      have hany : ideal.any (Step.failed Call.fails) =
          (batches.any (Step.failed Call.fails) || last.failed Call.fails) := by
        simp [ideal, Step.failed, Call.fails]
      have hsteps : steps = ⟨.list provider mode.isInstant, .ok _, listed⟩ ::
          throughFirst (Step.failed Call.fails) (batches ++ [last]) := rfl
      rw [hany, hsteps]
      cases hbatches : batches.any (Step.failed Call.fails) with
      | true =>
          rw [throughFirst_append_of_any hbatches]
          exact .ofCut hcalls hasked hwrites (by simp) _ rfl listed
      | false =>
          rw [throughFirst_append_of_not_any hbatches, throughFirst_singleton, Bool.false_or]
          exact .ofWhole hcalls hasked hwrites hbatches hlast _ rfl listed

end

/-! ### The account of a run -/

theorem fetch_or_upsert_of_mem {provider : String}
    {groups : List (List (String × Except VendorError ν))} {c : Call ν ρ}
    (h : c ∈ groups.flatMap (Ideal.batchCalls provider)) :
    (∃ client, c = .fetch client) ∨ ∃ rows, c = .upsert rows := by
  obtain ⟨group, -, hc⟩ := List.mem_flatMap.mp h
  rcases List.mem_append.mp hc with hc | hc
  · obtain ⟨client, -, rfl⟩ := List.mem_map.mp hc
    exact .inl ⟨client, rfl⟩
  · exact .inr ⟨_, List.mem_singleton.mp hc⟩

theorem account_execute (env : Backend ν ρ σ) (provider : String) (batchSize : Nat)
    (mode : RefreshMode) (s : σ) :
    let run : Run ν ρ := Run.execute provider batchSize mode
    Account provider mode (run.trace env.answer s) ((run.run env.answer s).1.2.isNone = true)
      (env.table s) (env.table (run.run env.answer s).2) := by
  intro run
  have hsize : 0 < max batchSize 1 := by omega
  obtain ⟨hasked, hcalls⟩ := Ideal.trace_writeAll env.answer provider hsize
    ((env.answer (.list provider mode.isInstant) s).1.toOption.getD [])
    (env.answer (.list provider mode.isInstant) s).2
  rw [env.table_run, isNone_run_execute, trace_execute, Bool.not_eq_true']
  simp only [Ideal.run, Ideal.cover, Ideal.finish, Program.trace_call, Program.trace_bind,
    Program.trace_done]
  refine .ofIdeal (env.list_eq provider mode.isInstant s) rfl (fun e he => ?_) hasked
    (writesVerdicts_writeAll env.answer provider _ _) rfl _
  exact fetch_or_upsert_of_mem (hcalls ▸ List.mem_map_of_mem he)

/-- A run that is started makes no call, or it is a whole run. -/
theorem Launch.program_cases (l : Launch) :
    l.program ρ = .done (.disabled (Entity.job ρ) l.mode l.settings.provider) ∨
      l.program ρ = (Run.execute l.settings.provider l.settings.batchSize l.mode : Run ν ρ).map
        (RunEnding.report (Entity.job ρ) l.mode l.settings.provider) := by
  by_cases hoff : l.trigger = .schedule ∧ l.settings.enabled = false
  · exact .inl (if_pos hoff)
  · refine .inr (reconcile_eq_map ?_ l.mode)
    rcases l with ⟨settings, trigger, mode⟩
    cases trigger <;> simp_all

/-- Whatever a backend answers, what a run does to its table is told by an account. -/
theorem account_launch (env : Backend ν ρ σ) (l : Launch) (s : σ) :
    Account l.settings.provider l.mode (env.steps l s) ((env.launch l s).1.outcome = .completed)
      (env.table s) (env.table (env.launch l s).2) := by
  rw [Backend.steps, Backend.launch]
  rcases l.program_cases (ρ := ρ) with hprogram | hprogram <;> rw [hprogram]
  · exact .ofStopped (by simp [RunReport.disabled]) List.nil_prefix List.nil_prefix rfl
  · have haccount := account_execute env l.settings.provider l.settings.batchSize l.mode s
    rw [Program.trace_map, Program.run_map, outcome_report]
    simpa only [ite_eq_left_iff, reduceCtorEq, imp_false, Decidable.not_not] using haccount

/-- A run that made a call is aborted if it does not complete. -/
theorem outcome_eq_aborted (env : Backend ν ρ σ) {l : Launch} {s : σ} (hsteps : env.steps l s ≠ [])
    (h : (env.launch l s).1.outcome ≠ .completed) : (env.launch l s).1.outcome = .aborted := by
  rw [Backend.steps] at hsteps
  rw [Backend.launch] at h ⊢
  rcases l.program_cases (ρ := ρ) with hprogram | hprogram <;> rw [hprogram] at hsteps h ⊢
  · exact absurd rfl hsteps
  · rw [Program.run_map, outcome_report] at h ⊢
    split
    · next hnone => exact absurd (if_pos hnone) h
    · rfl

/-! ### Which clients a run deals with -/

/-- Is the call about this provider, and about no client but these? -/
def Call.Within (provider : String) (clients : List String) : Call ν ρ → Prop
  | .list p _ => p = provider
  | .fetch client => client ∈ clients
  | .upsert rows => ∀ row ∈ rows, ∃ client ∈ clients, Record.key row = (client, provider)
  | .mark p marked => p = provider ∧ marked ⊆ clients
  | .delete => True

theorem within_batchCalls [LawfulEntity ρ] {provider : String}
    {groups : List (List (String × Except VendorError ν))} {c : Call ν ρ}
    (h : c ∈ groups.flatMap (Ideal.batchCalls provider)) :
    c.Within provider (groups.flatten.map Prod.fst) := by
  obtain ⟨group, hgroup, hc⟩ := List.mem_flatMap.mp h
  have hclient {asked : String × Except VendorError ν} (hasked : asked ∈ group) :
      asked.1 ∈ groups.flatten.map Prod.fst :=
    List.mem_map_of_mem (List.mem_flatten_of_mem hgroup hasked)
  rcases List.mem_append.mp hc with hc | hc
  · obtain ⟨client, hclient', rfl⟩ := List.mem_map.mp hc
    obtain ⟨asked, hasked, rfl⟩ := List.mem_map.mp hclient'
    exact hclient hasked
  · obtain rfl := List.mem_singleton.mp hc
    intro row hrow
    obtain ⟨asked, hasked, rfl⟩ := List.mem_map.mp hrow
    exact ⟨asked.1, hclient hasked, Entity.key_ofAnswer provider asked⟩

theorem Call.Within.mono {provider : String} {clients more : List String} (h : clients ⊆ more)
    {c : Call ν ρ} (hc : c.Within provider clients) : c.Within provider more := by
  cases c with
  | list p instantOnly => exact hc
  | fetch client => exact h hc
  | upsert rows =>
      intro row hrow
      obtain ⟨client, hclient, hkey⟩ := hc row hrow
      exact ⟨client, h hclient, hkey⟩
  | mark p marked => exact ⟨hc.1, fun client hclient => h (hc.2 hclient)⟩
  | delete => trivial

/-- The calls of a run begin like those of an ideal run about clients that are listed. -/
theorem calls_steps (env : Backend ν ρ σ) (l : Launch) (s : σ) :
    ∃ (clients : List String) (groups : List (List (String × Except VendorError ν))),
      clients ⊆ (env.table s).list l.settings.provider l.mode.isInstant ∧
      groups.flatten.map Prod.fst = clients ∧
      (env.steps l s).map Step.call <+: .list l.settings.provider l.mode.isInstant ::
        groups.flatMap (Ideal.batchCalls l.settings.provider) ++
          [Ideal.lastCall l.mode l.settings.provider clients] := by
  rw [Backend.steps]
  rcases l.program_cases (ρ := ρ) with hprogram | hprogram <;> rw [hprogram]
  · exact ⟨[], [], List.nil_subset _, rfl, List.nil_prefix⟩
  have hsize : 0 < max l.settings.batchSize 1 := by omega
  obtain ⟨hasked, hcalls⟩ :=
    Ideal.trace_run env.answer l.settings.provider l.settings.batchSize l.mode s
  refine ⟨_, _, ?_, (congrArg _ (flatten_grouped hsize _)).trans hasked, ?_⟩
  · cases hlisting : (env.answer (.list l.settings.provider l.mode.isInstant) s).1 with
    | error e => exact List.nil_subset _
    | ok clients =>
        rw [← env.list_eq _ _ s clients hlisting]
        exact List.Subset.refl clients
  · rw [Program.trace_map, trace_execute, ← hcalls]
    exact (throughFirst_isPrefix _ _).map Step.call

/-- A run deals with its provider, and with no client but those that are listed when it starts. -/
theorem within_of_mem_steps [LawfulEntity ρ] (env : Backend ν ρ σ) (l : Launch) (s : σ)
    {e : RunStep ν ρ σ} (he : e ∈ env.steps l s) :
    e.call.Within l.settings.provider
      ((env.table s).list l.settings.provider l.mode.isInstant) := by
  obtain ⟨clients, groups, hlisted, rfl, hcalls⟩ := calls_steps env l s
  refine Call.Within.mono hlisted ?_
  have hcall := hcalls.subset (List.mem_map_of_mem (f := Step.call) he)
  rcases List.mem_append.mp hcall with hcall | hcall
  · rcases List.mem_cons.mp hcall with hcall | hcall
    · rw [hcall]
      rfl
    · exact within_batchCalls hcall
  · rw [List.mem_singleton.mp hcall]
    cases l.mode with
    | instant => exact ⟨rfl, List.Subset.refl _⟩
    | scheduled => trivial

/-- Only the last call of a run deletes rows. -/
theorem ne_delete_of_before (env : Backend ν ρ σ) {l : Launch} {s : σ} {e : RunStep ν ρ σ}
    {before later : List (RunStep ν ρ σ)} (hsteps : env.steps l s = before ++ e :: later)
    {e' : RunStep ν ρ σ} (he' : e' ∈ before) : e'.call ≠ .delete := by
  obtain ⟨clients, groups, -, -, hcalls⟩ := calls_steps env l s
  -- what is before a call of the run is not the last call
  have hbefore : before.map Step.call <+: .list l.settings.provider l.mode.isInstant ::
      groups.flatMap (Ideal.batchCalls l.settings.provider) := by
    have hupto : before.map Step.call ++ [e.call] <+: _ := List.IsPrefix.trans
      ⟨later.map Step.call, by simp [hsteps]⟩ hcalls
    rcases List.prefix_concat_iff.mp hupto with heq | hprefix
    · exact List.append_inj_left' heq rfl ▸ List.prefix_refl _
    · exact (List.prefix_append _ _).trans hprefix
  have hcall := hbefore.subset (List.mem_map_of_mem (f := Step.call) he')
  intro hdelete
  rw [hdelete] at hcall
  rcases List.mem_cons.mp hcall with hcall | hcall
  · cases hcall
  · rcases fetch_or_upsert_of_mem hcall with ⟨client, h⟩ | ⟨rows, h⟩ <;> cases h

/-- A call about other clients, or about another provider, leaves a row alone, unless it is the
cleanup. -/
theorem Call.Within.find?_effect [LawfulEntity ρ] {provider : String} {clients : List String}
    {c : Call ν ρ} (h : c.Within provider clients) (hc : c ≠ .delete) {key : String × String}
    (hkey : key.2 = provider → key.1 ∉ clients) (t : Table ρ) :
    (c.effect t).find? key = t.find? key := by
  cases c with
  | list p instantOnly => rfl
  | fetch client => rfl
  | upsert rows =>
      refine Table.find?_upsert_of_not_mem (fun hmem => ?_) t
      obtain ⟨record, hrecord, rfl⟩ := List.mem_map.mp hmem
      obtain ⟨client, hclient, hrow⟩ := h record hrecord
      rw [hrow] at hkey
      exact hkey rfl hclient
  | mark p marked =>
      obtain ⟨rfl, hsubset⟩ := h
      rw [Call.effect, Table.find?_mark]
      cases hrow : t.find? key with
      | none => rfl
      | some row =>
          obtain rfl := Table.key_of_find? hrow
          rw [Option.map_some, Table.marked, if_neg]
          exact fun hmarked => hkey hmarked.1 (hsubset hmarked.2)
  | delete => exact absurd rfl hc

end DepositSync
