import DepositSync.Proofs.ConnectedRun
import DepositSync.Proofs.UpsertMeaning
import Mathlib.Data.List.Infix
import Mathlib.Data.List.Nodup

/-!
# DepositSync.Proofs.WriteLimits

No statement that writes rows is refused for its form. A statement may have 65535 placeholders, it
must have a row, and it must not write two rows with the same key. Settings that pass their check keep
to this, however many clients are listed and whatever the vendor answers.

A connected run sends what the run would send against answers given one by one: what the connected
calls come to are such answers (`Connected.handle`). So the rows that a run writes are known from its
calls (`inserts_reconcile`), a batch is as long as the settings say, and the settings' bound on
batches is made for the widest row.
-/

namespace DepositSync

open Sql (Value Expression Insert StoredRow)

variable {ν ρ σ α : Type}

/-! ### Statements that insert rows -/

/-- A statement that inserts rows, with the values of its placeholders. -/
abbrev Insertion := Insert × List Value

/-- The statements among the steps that insert rows, in the order in which they were sent. -/
def inserts (steps : List (WorldStep σ)) : List Insertion :=
  steps.filterMap fun e => match e.call with
    | .database ⟨.insert i, parameters⟩ => some (i, parameters)
    | _ => none

/-- The statement that writes rows. -/
def insertion [Stored ρ] (rows : List ρ) : Insertion :=
  (upsertInsert ρ rows.length, rows.flatMap rowValues)

/-- What a call of a run inserts. -/
def Call.inserts [Stored ρ] : Call ν ρ → List Insertion
  | .upsert rows => if rows.isEmpty then [] else [insertion rows]
  | _ => []

theorem inserts_append (steps more : List (WorldStep σ)) :
    inserts (steps ++ more) = inserts steps ++ inserts more :=
  List.filterMap_append

/-! ### Runs that are connected -/

/-- An answer that ends a run. -/
def Call.failure : (c : Call ν ρ) → c.Answer
  | .list _ _ => .error .poolClosed
  | .fetch _ => .error (.token "")
  | .upsert _ => .error .poolClosed
  | .mark _ _ => .error .poolClosed
  | .delete => .error .poolClosed

namespace Connected

variable [Entity ν ρ] [Stored ρ] (world : (c : WorldCall) → σ → c.Answer × σ)
  (fetch : String → TokenCache → Exchange (Held ν))

/-- Answers the calls of a run with what the connected calls come to. After one that comes to
nothing all calls fail. -/
def handle (c : Call ν ρ) : Option (TokenCache × σ) → c.Answer × Option (TokenCache × σ)
  | some (cache, s) => match (answer fetch c).result world cache s with
    | (some (a, kept), s') => (a, some (kept, s'))
    | (none, _) => (c.failure, none)
  | none => (c.failure, none)

theorem inserts_answer (c : Call ν ρ) (cache : TokenCache) (s : σ) :
    inserts ((answer fetch c).trace world cache s) = c.inserts := by
  cases c with
  | list provider instantOnly => rfl
  | fetch client =>
      show inserts ((exchange (fetch client)).trace world cache s) = []
      rw [trace_exchange, inserts, List.filterMap_map]
      exact List.filterMap_eq_nil_iff.mpr fun _ _ => rfl
  | upsert rows =>
      show inserts ((session (upsertBatch rows)).trace world cache s) = _
      rw [upsertBatch, Call.inserts]
      split <;> rfl
  | mark provider clients =>
      show inserts ((session (markRefreshed ρ _ provider clients)).trace world cache s) = []
      rw [markRefreshed]
      split <;> rfl
  | delete => rfl

/-- A connected run inserts what the calls insert that the run makes when it is answered so; it may
stop before. -/
theorem inserts_runM (p : Program (Call ν ρ) Call.Answer α) (cache : TokenCache) (s : σ) :
    let connected : Connected α := p.runM (answer fetch)
    inserts (connected.trace world cache s) <+:
      ((p.trace (handle world fetch) (some (cache, s))).map Step.call).flatMap Call.inserts := by
  intro connected
  induction p generalizing cache s with
  | done a => exact List.nil_prefix
  | call c next ih =>
      have hconnected : connected = answer fetch c >>= fun a => (next a).runM (answer fetch) := rfl
      rw [hconnected, trace_bind, inserts_append, inserts_answer, Program.trace_call, List.map_cons,
        List.flatMap_cons]
      refine (List.prefix_append_right_inj _).mpr ?_
      -- after a call that came to nothing the connected run is over, and the other one may go on
      rw [handle]
      split
      · next a kept s' hresult =>
        simp only [hresult]
        exact ih a kept s'
      · exact List.nil_prefix

end Connected

/-! ### What a run inserts -/

section

variable [Entity ν ρ] [Stored ρ]

/-- The calls about a batch insert its rows, with one statement. -/
theorem inserts_batchCalls (provider : String) {batch : List (String × Except VendorError ν)}
    (hbatch : batch ≠ []) :
    (Ideal.batchCalls provider batch : List (Call ν ρ)).flatMap Call.inserts =
      [insertion (batch.map (Entity.ofAnswer (ρ := ρ) provider))] := by
  have hfetch : ((batch.map Prod.fst).map .fetch : List (Call ν ρ)).flatMap Call.inserts = [] := by
    rw [List.flatMap_map]
    exact List.flatMap_eq_nil_iff.mpr fun _ _ => rfl
  have hrows : (batch.map (Entity.ofAnswer (ρ := ρ) provider)).isEmpty = false := by
    simpa using hbatch
  rw [Ideal.batchCalls, List.flatMap_append, hfetch, List.flatMap_singleton, Call.inserts, hrows]
  rfl

/-- The rows for the answers about clients, in the batches in which they are written. -/
def batches (ρ : Type) {ν : Type} [Entity ν ρ] (provider : String) (size : Nat)
    (answers : List (String × Except VendorError ν)) : List (List ρ) :=
  (Sql.grouped size answers).map fun batch => batch.map (Entity.ofAnswer provider)

/-- The calls of the ideal run insert the batches, each with one statement. -/
theorem inserts_ideal (handle : (c : Call ν ρ) → σ → c.Answer × σ) (provider : String)
    (batchSize : Nat) (mode : RefreshMode) (s : σ) :
    let steps := (Ideal.run provider batchSize mode).trace handle s
    (steps.map Step.call).flatMap Call.inserts =
      (batches ρ provider (max batchSize 1) (consulted steps)).map insertion := by
  intro steps
  have hsize : 0 < max batchSize 1 := by omega
  obtain ⟨-, hcalls⟩ := Ideal.trace_run handle provider batchSize mode s
  have hlast (clients : List String) :
      (Ideal.lastCall mode provider clients : Call ν ρ).inserts = [] := by
    cases mode <;> rfl
  rw [hcalls, List.flatMap_append, List.flatMap_cons, List.flatMap_singleton, hlast,
    List.append_nil, List.flatMap_assoc, batches, List.map_map, List.map_eq_flatMap]
  exact List.flatMap_congr fun batch hbatch =>
    inserts_batchCalls provider (ne_nil_of_mem_grouped hsize hbatch)

omit [Stored ρ] in
theorem batches_spec [LawfulEntity ρ] {size : Nat} (hsize : 0 < size) (provider : String)
    (answers : List (String × Except VendorError ν)) :
    (∀ batch ∈ batches ρ provider size answers, batch ≠ [] ∧ batch.length ≤ size) ∧
      (batches ρ provider size answers).flatten.map Record.key =
        (answers.map Prod.fst).map fun client => (client, provider) := by
  constructor
  · intro batch hbatch
    obtain ⟨group, hgroup, rfl⟩ := List.mem_map.mp hbatch
    rw [List.length_map]
    refine ⟨?_, length_le_of_mem_grouped hsize hgroup⟩
    simpa using ne_nil_of_mem_grouped hsize hgroup
  · rw [batches, ← List.map_flatten, flatten_grouped hsize, List.map_map, List.map_map]
    exact List.map_congr_left fun asked _ => Entity.key_ofAnswer provider asked

/-- What a run inserts is a first part of the batches: statements that have rows, but not too many,
and together at most one row for each client that is listed. -/
theorem inserts_reconcile [LawfulEntity ρ] (handle : (c : Call ν ρ) → σ → c.Answer × σ)
    (settings : ReconciliationSettings) (trigger : Trigger) (mode : RefreshMode) (s : σ) :
    let clients := (handle (.list settings.provider mode.isInstant) s).1.toOption.getD []
    let calls := ((reconcile ρ settings trigger mode).trace handle s).map Step.call
    ∃ all : List (List ρ), calls.flatMap Call.inserts <+: all.map insertion ∧
      (∀ batch ∈ all, batch ≠ [] ∧ batch.length ≤ max settings.batchSize 1) ∧
      all.flatten.map Record.key = clients.map fun client => (client, settings.provider) := by
  intro clients calls
  have hsize : 0 < max settings.batchSize 1 := by omega
  let ideal := (Ideal.run settings.provider settings.batchSize mode : Program (Call ν ρ) _ _).trace
    handle s
  have hclients : (consulted ideal).map Prod.fst = clients :=
    (Ideal.trace_run handle settings.provider settings.batchSize mode s).1
  have hall := batches_spec (ρ := ρ) hsize settings.provider (consulted ideal)
  rw [hclients] at hall
  refine ⟨_, ?_, hall⟩
  -- a run that is switched off makes none of the calls of the ideal run, any other the first of them
  rw [← inserts_ideal]
  rcases (⟨settings, trigger, mode⟩ : Launch).program_cases (ρ := ρ) with hprogram | hprogram
  · have hcalls : calls = [] := by
      simp only [calls, show reconcile ρ settings trigger mode = _ from hprogram,
        Program.trace_done, List.map_nil]
    rw [hcalls]
    exact List.nil_prefix
  · simp only [calls, show reconcile ρ settings trigger mode = _ from hprogram, Program.trace_map,
      trace_execute]
    exact ((throughFirst_isPrefix _ _).map Step.call).flatMap _

end

/-! ### What one statement may hold -/

/-- The key of a row as a statement says it. -/
def storedKey (row : StoredRow) : Option Value × Option Value :=
  (row.lookup clientColumn, row.lookup providerColumn)

/-- The keys of the rows that a statement inserts. -/
def Insertion.keys (q : Insertion) : List (Option Value × Option Value) :=
  ((q.1.rows? q.2).getD []).map storedKey

/-- A key as a row keeps it. -/
def keyValues (key : String × String) : Option Value × Option Value :=
  (some (.text key.1), some (.text key.2))

/-- A database takes the statement: its placeholders are numbered without a gap, there are as many
values and not too many, and it has rows, of which no two are the same to it. -/
structure Fits (table : String) (q : Insertion) : Prop where
  table : q.1.table = table
  placeholders : q.1.tuples.flatten = (List.range q.2.length).map fun k => .bound (k + 1)
  limit : q.2.length ≤ 65535
  rows : ∃ rows, q.1.rows? q.2 = some rows ∧ rows ≠ [] ∧ (rows.map storedKey).Nodup
  /-- Rows are the same to it if client and provider are. -/
  conflict : q.1.conflict.map Sql.Conflict.key = some ["client_code", "provider"]

theorem keyValues_injective : Function.Injective keyValues := by
  rintro ⟨client, provider⟩ ⟨client', provider'⟩ h
  simpa [keyValues] using h

section

variable [Record ρ] [Stored ρ] [LawfulStored ρ]

theorem map_storedKey_row (rows : List ρ) :
    (rows.map Stored.row).map storedKey = (rows.map Record.key).map keyValues := by
  rw [List.map_map, List.map_map]
  refine List.map_congr_left fun record _ => ?_
  rw [Function.comp, storedKey, LawfulStored.lookup_client, LawfulStored.lookup_provider]
  rfl

theorem keys_insertion (rows : List ρ) :
    (insertion rows).keys = (rows.map Record.key).map keyValues := by
  have hrows : (insertion rows).1.rows? (insertion rows).2 = some (rows.map Stored.row) :=
    rows?_upsert rows
  rw [Insertion.keys, hrows, Option.getD_some, map_storedKey_row]

theorem flatMap_keys (batches : List (List ρ)) :
    (batches.map insertion).flatMap Insertion.keys =
      (batches.flatten.map Record.key).map keyValues := by
  induction batches with
  | nil => rfl
  | cons rows rest ih =>
      rw [List.map_cons, List.flatMap_cons, ih, keys_insertion, List.flatten_cons, List.map_append,
        List.map_append]

theorem fits_insertion (hwidth : (columnNames ρ).length ≤ Settings.widestRow) {rows : List ρ}
    (hne : rows ≠ []) (hlength : rows.length ≤ Settings.maxBatch)
    (hkeys : (rows.map Record.key).Nodup) : Fits (Stored.table ρ) (insertion rows) := by
  have hcount : (insertion rows).2.length = rows.length * (columnNames ρ).length :=
    length_flatMap_of_length length_rowValues rows
  refine ⟨rfl, ?_, ?_, ⟨_, rows?_upsert rows, by simpa using hne, ?_⟩, rfl⟩
  · rw [hcount]
    exact flatten_boundTuples _ _
  · -- so many of the widest rows are just not too many
    calc (insertion rows).2.length = rows.length * (columnNames ρ).length := hcount
      _ ≤ Settings.maxBatch * Settings.widestRow := Nat.mul_le_mul hlength hwidth
      _ ≤ 65535 := by decide
  · rw [map_storedKey_row]
    exact hkeys.map keyValues_injective

end

/-! ### Settings that pass their check -/

theorem batchSize_le_of_complaint? {name : String} {s : ReconciliationSettings}
    (h : Settings.complaint? name s = none) : s.batchSize ≤ Settings.maxBatch := by
  unfold Settings.complaint? at h
  split at h
  · cases h
  · split at h
    · cases h
    · next hle => exact Nat.not_lt.mp hle

theorem batchSize_le_of_check {s : Settings} (h : s.check = none) :
    s.jobs.portfolio.batchSize ≤ Settings.maxBatch ∧
      s.jobs.pendingJourney.batchSize ≤ Settings.maxBatch := by
  rw [Settings.check] at h
  cases hportfolio : Settings.complaint? "portfolio" s.jobs.portfolio with
  | some complaint =>
      rw [hportfolio] at h
      cases h
  | none =>
      rw [hportfolio] at h
      exact ⟨batchSize_le_of_complaint? hportfolio, batchSize_le_of_complaint? h⟩

/-! ### Connected runs -/

section

variable [Entity ν ρ] [Stored ρ] (world : (c : WorldCall) → σ → c.Answer × σ)

/-- The clients that the database lists if it is asked in this state. -/
def listed (ρ : Type) [Stored ρ] (world : (c : WorldCall) → σ → c.Answer × σ) (provider : String)
    (mode : RefreshMode) (s : σ) : List String :=
  ((world (.database (listQuery ρ provider mode.isInstant)) s).1.bind Reply.texts).toOption.getD []

/-- The database takes all the statements, and each of the clients is written about at most once. -/
structure WritesFit (table provider : String) (clients : List String) (sent : List Insertion) :
    Prop where
  fits : ∀ q ∈ sent, Fits table q
  keys : sent.flatMap Insertion.keys <+:
    clients.map fun client : String => (some (.text (some client)), some (.text (some provider)))
  once : (sent.flatMap Insertion.keys).Nodup

theorem writesFit_reconcile [LawfulEntity ρ] [LawfulStored ρ]
    (hwidth : (columnNames ρ).length ≤ Settings.widestRow)
    (fetch : String → TokenCache → Exchange (Held ν)) {settings : ReconciliationSettings}
    (hbatch : settings.batchSize ≤ Settings.maxBatch) (trigger : Trigger) (mode : RefreshMode)
    (cache : TokenCache) (s : σ) :
    let clients := listed ρ world settings.provider mode s
    let connected : Connected RunReport :=
      (reconcile ρ settings trigger mode).runM (Connected.answer fetch)
    clients.Nodup → WritesFit (Stored.table ρ) settings.provider clients
      (inserts (connected.trace world cache s)) := by
  intro clients connected hclients
  obtain ⟨all, hcalls, hall, hkeys⟩ := inserts_reconcile (Connected.handle (ρ := ρ) world fetch)
    settings trigger mode (some (cache, s))
  have hsent : inserts (connected.trace world cache s) <+: all.map insertion :=
    (Connected.inserts_runM world fetch _ cache s).trans hcalls
  -- the run is told the clients that the database lists
  replace hkeys : all.flatten.map Record.key =
      clients.map fun client => (client, settings.provider) := hkeys
  have hnodup : (all.flatten.map Record.key).Nodup := by
    rw [hkeys]
    exact hclients.map fun _ _ h => congrArg Prod.fst h
  have hwritten : (inserts (connected.trace world cache s)).flatMap Insertion.keys <+:
      (all.flatten.map Record.key).map keyValues := by
    rw [← flatMap_keys]
    exact hsent.flatMap Insertion.keys
  refine ⟨fun q hq => ?_, ?_, (hnodup.map keyValues_injective).sublist hwritten.sublist⟩
  · obtain ⟨batch, hbatch', rfl⟩ := List.mem_map.mp (hsent.subset hq)
    obtain ⟨hne, hle⟩ := hall batch hbatch'
    refine fits_insertion hwidth hne (hle.trans (Nat.max_le.mpr ⟨hbatch, by decide⟩)) ?_
    exact hnodup.sublist ((List.sublist_flatten_of_mem hbatch').map Record.key)
  · rw [hkeys, List.map_map] at hwritten
    exact hwritten

end

/-! ### Both jobs -/

/-- **No statement that writes rows is refused for its form.** Whatever answers a connected run, with
settings that pass their check: if the database lists no client twice, each statement of the run that
inserts rows has at most 65535 placeholders, has a row, and has no two rows with the same client and
provider; and in the whole run each client that is listed is written about at most once. -/
theorem checked_settings_fit (settings : Settings) (hcheck : settings.check = none)
    (world : (c : WorldCall) → σ → c.Answer × σ) (trigger : Trigger) (mode : RefreshMode)
    (cache : TokenCache) (s : σ) :
    (let provider := settings.jobs.portfolio.provider
      let clients := listed PortfolioRecord world provider mode s
      clients.Nodup → WritesFit "portfolio" provider clients
        (inserts ((Connected.refresh settings .portfolio trigger mode).trace world cache s))) ∧
    (let provider := settings.jobs.pendingJourney.provider
      let clients := listed PendingJourneyRecord world provider mode s
      clients.Nodup → WritesFit "pending_journey" provider clients
        (inserts ((Connected.refresh settings .pendingJourney trigger mode).trace world cache s))) := by
  obtain ⟨hportfolio, hpendingJourney⟩ := batchSize_le_of_check hcheck
  constructor
  · exact writesFit_reconcile world (by decide) _ hportfolio trigger mode cache s
  · exact writesFit_reconcile world (by decide) _ hpendingJourney trigger mode cache s

/-- A world with two clients, both of which the vendor rejects. -/
def rejecting (c : WorldCall) (s : Unit) : c.Answer × Unit :=
  match c with
  | .vendor .now => (.ofMillis 0, s)
  | .vendor (.pause _) => ((), s)
  | .vendor (.send _) =>
    let body := "\x7b\"errorCode\":\"CLOSED\"\x7d".toList.map fun c => UInt8.ofNat c.toNat
    (.ok ⟨404, body, true⟩, s)
  | .connect _ => (.ok (), s)
  | .database ⟨.select .., _⟩ => (.ok (.rows [some "a", some "b"]), s)
  | .database _ => (.ok (.affected 1), s)

/-- A token that is good for another hour. -/
def freshToken : TokenCache := ⟨0, some ⟨"token", .ofMillis 3600000⟩⟩

theorem checked_settings_fit_rejecting :
    let sent (target : Web.Target) := inserts ((Connected.refresh .standard target .operator
      .scheduled).trace rejecting freshToken ())
    (sent .portfolio).length = 1 ∧
      WritesFit "portfolio" upswingProvider ["a", "b"] (sent .portfolio) ∧
      WritesFit "pending_journey" upswingProvider ["a", "b"] (sent .pendingJourney) := by
  intro sent
  obtain ⟨hportfolio, hpendingJourney⟩ := checked_settings_fit .standard (by decide) rejecting
    .operator .scheduled freshToken ()
  exact ⟨by decide +kernel, hportfolio (by decide), hpendingJourney (by decide)⟩

end DepositSync
