import DepositSync.Job.Lane
import DepositSync.Proofs.KeyedTable
import DepositSync.Proofs.RunTrace
import DepositSync.Rehearsal

/-!
# DepositSync.Proofs.Backend

What answers the calls of runs. The vendor may say anything at any time, and any call may fail. The
store keeps a table: a listing that succeeds is read off it, a writing call that succeeds does its
work on it as a whole, and one that fails leaves it alone. The service in memory is such a backend;
that the statements sent to the database do this work is the subject of
`DepositSync.Proofs.StatementMeaning`.

What runs do to the table can then be read off their traces: the calls that succeeded did their
work, one after the other (`Backend.table_run`).
-/

namespace DepositSync

variable {ν ρ σ α : Type}

/-! ### Backends -/

/-- What a call that succeeds does to the table. -/
def Call.effect [Entity ν ρ] : Call ν ρ → Table ρ → Table ρ
  | .list _ _, t => t
  | .fetch _, t => t
  | .upsert rows, t => t.upsert rows
  | .mark provider clients, t => t.mark (Entity.refresher ρ).name provider clients
  | .delete, t => t.deleteStale

/-- Something that answers the calls of runs, and keeps a table. -/
structure Backend (ν ρ σ : Type) [Entity ν ρ] where
  /-- Answers a call. -/
  answer : (c : Call ν ρ) → σ → c.Answer × σ
  /-- The table. -/
  table : σ → Table ρ
  /-- Clients are listed from the table. -/
  list_eq : ∀ (provider : String) (instantOnly : Bool) (s : σ) (clients : List String),
    (answer (.list provider instantOnly) s).1 = .ok clients →
      clients = (table s).list provider instantOnly
  /-- A call does all of its work, or fails and does nothing. -/
  table_eq : ∀ (c : Call ν ρ) (s : σ), table (answer c s).2 =
    if c.fails (answer c s).1 then table s else c.effect (table s)

namespace MemoryStore

/-- A call that changes the table fails, or does its work. -/
theorem change_eq (s : MemoryStore ν ρ) (call : StoreCall) (f : Table ρ → Table ρ) :
    s.change call f = match (s.strike call).1 with
      | some e => (.error e, (s.strike call).2)
      | none => (.ok 0, { (s.strike call).2 with table := f s.table }) := by
  have htable : (s.strike call).2.table = s.table := rfl
  rw [← htable, change]
  rcases s.strike call with ⟨_ | e, s'⟩ <;> rfl

variable [Entity ν ρ]

/-- A listing fails, or is read off the table. -/
theorem answer_list_eq (s : MemoryStore ν ρ) (provider : String) (instantOnly : Bool) :
    s.answer (.list provider instantOnly) = match (s.strike .listClients).1 with
      | some e => (.error e, (s.strike .listClients).2)
      | none => (.ok (s.table.list provider instantOnly), (s.strike .listClients).2) := by
  have htable : (s.strike .listClients).2.table = s.table := rfl
  rw [← htable, answer]
  rcases s.strike .listClients with ⟨_ | e, s'⟩ <;> rfl

theorem table_answer (s : MemoryStore ν ρ) (c : Call ν ρ) :
    (s.answer c).2.table = if c.fails (s.answer c).1 then s.table else c.effect s.table := by
  cases c with
  | list provider instantOnly =>
      rw [answer_list_eq]
      cases (s.strike .listClients).1 <;> rfl
  | fetch client => exact (ite_self s.table).symm
  | upsert rows =>
      rw [answer, change_eq]
      cases (s.strike .upsertBatch).1 <;> rfl
  | mark provider clients =>
      rw [answer, change_eq]
      cases (s.strike .markRefreshed).1 <;> rfl
  | delete =>
      rw [answer, change_eq]
      cases (s.strike .deleteStale).1 <;> rfl

/-- The vendor's answers stay what they are. -/
theorem reply_answer (s : MemoryStore ν ρ) (c : Call ν ρ) : (s.answer c).2.reply = s.reply := by
  cases c with
  | list provider instantOnly =>
      rw [answer_list_eq]
      cases (s.strike .listClients).1 <;> rfl
  | fetch client => rfl
  | upsert rows =>
      rw [answer, change_eq]
      cases (s.strike .upsertBatch).1 <;> rfl
  | mark provider clients =>
      rw [answer, change_eq]
      cases (s.strike .markRefreshed).1 <;> rfl
  | delete =>
      rw [answer, change_eq]
      cases (s.strike .deleteStale).1 <;> rfl

/-- The store of one job is a backend of its runs. -/
def backend : Backend ν ρ (MemoryStore ν ρ) where
  answer c s := s.answer c
  table s := s.table
  list_eq provider instantOnly s clients h := by
    rw [answer_list_eq] at h
    cases hstrike : (s.strike .listClients).1 with
    | none => rw [hstrike] at h; exact (Except.ok.inj h).symm
    | some e => rw [hstrike] at h; cases h
  table_eq c s := s.table_answer c

end MemoryStore

/-- The store of portfolios of these clients, which are all as they usually are. -/
def MemoryStore.usual (clients : List String)
    (replies : List (String × Except VendorError NetWorth))
    (failures : List (StoreCall × PlannedFailure)) : MemoryStore NetWorth PortfolioRecord where
  table := Table.upsert (clients.map fun client =>
    .ofNetWorth client upswingProvider Rehearsal.usualNetWorth) []
  replies := replies
  fallback := Rehearsal.usualNetWorth
  failures := failures

/-- A store with a client that the vendor does not know, in which the second writing fails. -/
def oneUnknownClient : MemoryStore NetWorth PortfolioRecord :=
  .usual ["a", "b"] [("b", .error (.api 404 (some VendorError.netWorthNotFound) none))]
    [(.upsertBatch, ⟨.poolTimedOut, 1⟩)]

/-- The service in memory is a backend of the runs that keep the portfolios. -/
def Rehearsal.portfolioBackend : Backend NetWorth PortfolioRecord Rehearsal where
  answer := answerPortfolio
  table r := r.portfolio.table
  list_eq provider instantOnly r :=
    MemoryStore.backend.list_eq provider instantOnly r.portfolio
  table_eq c r := r.portfolio.table_answer c

/-- The service in memory is a backend of the runs that keep the pending journeys. -/
def Rehearsal.pendingJourneyBackend : Backend Journey PendingJourneyRecord Rehearsal where
  answer := answerPendingJourney
  table r := r.pendingJourney.table
  list_eq provider instantOnly r :=
    MemoryStore.backend.list_eq provider instantOnly r.pendingJourney
  table_eq c r := r.pendingJourney.table_answer c

/-! ### Runs against a backend -/

section

variable [Entity ν ρ]

/-- The table after calls: those that succeeded did their work, one after the other. -/
def applied (steps : List (RunStep ν ρ σ)) (t : Table ρ) : Table ρ :=
  steps.foldl (fun t e => if e.failed Call.fails then t else e.call.effect t) t

@[simp] theorem applied_nil (t : Table ρ) : applied ([] : List (RunStep ν ρ σ)) t = t := rfl

theorem applied_cons (e : RunStep ν ρ σ) (steps : List (RunStep ν ρ σ)) (t : Table ρ) :
    applied (e :: steps) t =
      applied steps (if e.failed Call.fails then t else e.call.effect t) := rfl

theorem applied_append (steps more : List (RunStep ν ρ σ)) (t : Table ρ) :
    applied (steps ++ more) t = applied more (applied steps t) :=
  List.foldl_append

namespace Backend

variable (env : Backend ν ρ σ)

theorem table_run (p : Program (Call ν ρ) Call.Answer α) (s : σ) :
    env.table (p.run env.answer s).2 = applied (p.trace env.answer s) (env.table s) := by
  induction p generalizing s with
  | done a => rfl
  | call c next ih =>
      rw [Program.run_call, Program.trace_call, applied_cons, ih, env.table_eq]
      rfl

/-- The table after one of the calls of a run is that after the calls so far. -/
theorem table_after {p : Program (Call ν ρ) Call.Answer α} {s : σ} {e : RunStep ν ρ σ}
    {before later : List (RunStep ν ρ σ)} (h : p.trace env.answer s = before ++ e :: later) :
    env.table e.after = applied (before ++ [e]) (env.table s) := by
  induction p generalizing s before with
  | done a => simp at h
  | call c next ih =>
      have hc : env.table (env.answer c s).2 =
          applied [⟨c, (env.answer c s).1, (env.answer c s).2⟩] (env.table s) := env.table_eq c s
      rw [Program.trace_call] at h
      cases before with
      | nil =>
          obtain ⟨rfl, -⟩ := List.cons.inj h
          exact hc
      | cons first before =>
          obtain ⟨rfl, hrest⟩ := List.cons.inj h
          rw [ih _ hrest, hc, List.cons_append, ← applied_append]
          rfl

/-- The states that calls lead to. -/
inductive Reachable (s : σ) : σ → Prop where
  | start : Reachable s s
  | call {s' : σ} (h : Reachable s s') (c : Call ν ρ) : Reachable s (env.answer c s').2

theorem Reachable.trans {env : Backend ν ρ σ} {s s' s'' : σ} (h : env.Reachable s s')
    (h' : env.Reachable s' s'') : env.Reachable s s'' := by
  induction h' with
  | start => exact h
  | call _ c ih => exact ih.call c

theorem reachable_run (p : Program (Call ν ρ) Call.Answer α) (s : σ) :
    env.Reachable s (p.run env.answer s).2 :=
  (Program.trace_invariant env.answer (env.Reachable s) p s .start fun e _ _ h => h.call e.call).2

variable [LawfulRecord ρ]

/-- Calls keep the table sorted. -/
theorem sorted_answer {s : σ} (hs : (env.table s).Sorted) (c : Call ν ρ) :
    (env.table (env.answer c s).2).Sorted := by
  rw [env.table_eq]
  split
  · exact hs
  · cases c with
    | list provider instantOnly => exact hs
    | fetch client => exact hs
    | upsert rows => exact hs.upsert rows
    | mark provider clients => exact hs.mark _ provider clients
    | delete => exact hs.deleteStale

theorem sorted_run (p : Program (Call ν ρ) Call.Answer α) {s : σ} (hs : (env.table s).Sorted) :
    (env.table (p.run env.answer s).2).Sorted :=
  (Program.trace_invariant env.answer (fun s => (env.table s).Sorted) p s hs
    fun e _ _ hs => env.sorted_answer hs e.call).2

end Backend

end

/-! ### Histories -/

/-- A run that is started: with which settings, by whom and in which mode. -/
structure Launch where
  settings : ReconciliationSettings
  trigger : Trigger
  mode : RefreshMode
  deriving DecidableEq, Repr

/-- The usual run of the scheduler, with this batch size. -/
def Launch.usual (batchSize : Nat) : Launch where
  settings := ⟨true, upswingProvider, batchSize⟩
  trigger := .schedule
  mode := .scheduled

/-- What the run does. -/
def Launch.program (ρ : Type) [Entity ν ρ] (l : Launch) :
    Program (Call ν ρ) Call.Answer RunReport :=
  reconcile ρ l.settings l.trigger l.mode

namespace Backend

variable [Entity ν ρ] (env : Backend ν ρ σ)

/-- Runs once. -/
def launch (l : Launch) (s : σ) : RunReport × σ :=
  (l.program ρ).run env.answer s

/-- The calls of one run. -/
def steps (l : Launch) (s : σ) : List (RunStep ν ρ σ) :=
  (l.program ρ).trace env.answer s

/-- The state after runs that follow one another. -/
def after (launches : List Launch) (s : σ) : σ :=
  (Lane.runAll env.answer (launches.map (Launch.program ρ)) s).2

theorem after_append (launches more : List Launch) (s : σ) :
    env.after (launches ++ more) s = env.after more (env.after launches s) := by
  induction launches generalizing s with
  | nil => rfl
  | cons l rest ih => exact ih _

/-- What holds at the start and is preserved by every run holds at the end. -/
theorem after_invariant (I : σ → Prop) (launches : List Launch) {s : σ} (hs : I s)
    (hrun : ∀ l ∈ launches, ∀ s, I s → I (env.launch l s).2) : I (env.after launches s) := by
  induction launches generalizing s with
  | nil => exact hs
  | cons l rest ih =>
      exact ih (hrun l (List.mem_cons_self ..) s hs) fun l hl => hrun l (List.mem_cons_of_mem _ hl)

theorem sorted_after [LawfulRecord ρ] (launches : List Launch) {s : σ}
    (hs : (env.table s).Sorted) : (env.table (env.after launches s)).Sorted :=
  env.after_invariant (fun s => (env.table s).Sorted) launches hs
    fun l _ _ hs => env.sorted_run (l.program ρ) hs

end Backend

end DepositSync
