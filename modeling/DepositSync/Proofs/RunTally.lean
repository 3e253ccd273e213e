import DepositSync.Proofs.AbortedRun

/-!
# DepositSync.Proofs.RunTally

The numbers that a run reports agree with the calls that it made, wherever it ended. They are added
up while the run goes; what carries the proof is that every part of a run adds to the tally what its
own calls say (`Counted`), whatever is in the buffer.

How far the numbers get follows from where the run stops: a run that completes has written a row for
every client, in as few batches as there can be, and one that breaks off when it asks about a client
has written whole batches only.
-/

namespace DepositSync

open Sql (grouped)

variable {ν ρ σ : Type}

/-! ### Reading a trace -/

/-- The clients that a run listed: the answer to its first call, unless that failed. -/
def listing : List (RunStep ν ρ σ) → List String
  | ⟨.list _ _, .ok clients, _⟩ :: _ => clients
  | _ => []

/-- The batches that were written. -/
def batchesWritten (steps : List (RunStep ν ρ σ)) : List (List ρ) :=
  steps.filterMap fun
    | ⟨.upsert rows, .ok _, _⟩ => some rows
    | _ => none

/-- The batch that a call is to write, if it is to write one. -/
def Call.batch? : Call ν ρ → Option (List ρ)
  | .upsert rows => some rows
  | _ => none

/-- The clients that the vendor rejected, each with what it said. -/
def rejections (steps : List (RunStep ν ρ σ)) : List (String × VendorError) :=
  steps.filterMap fun
    | ⟨.fetch client, .error (.api status code message), _⟩ =>
      some (client, .api status code message)
    | _ => none

@[simp] theorem batchesWritten_append (l l' : List (RunStep ν ρ σ)) :
    batchesWritten (l ++ l') = batchesWritten l ++ batchesWritten l' :=
  List.filterMap_append

@[simp] theorem rejections_append (l l' : List (RunStep ν ρ σ)) :
    rejections (l ++ l') = rejections l ++ rejections l' :=
  List.filterMap_append

theorem stored_eq_flatten (steps : List (RunStep ν ρ σ)) :
    stored steps = (batchesWritten steps).flatten := by
  induction steps with
  | nil => rfl
  | cons e rest ih =>
      obtain ⟨call, answer, after⟩ := e
      cases call with
      | upsert rows =>
          cases answer with
          | ok n => exact congrArg (rows ++ ·) ih
          | error error => exact ih
      | _ => exact ih

theorem length_rejections_le (steps : List (RunStep ν ρ σ)) :
    (rejections steps).length ≤ (consulted steps).length := by
  induction steps with
  | nil => exact Nat.le_refl 0
  | cons e rest ih =>
      obtain ⟨call, answer, after⟩ := e
      cases call with
      | fetch client =>
          rcases answer with (_ | _ | _ | _) | report
          · exact Nat.succ_le_succ ih
          all_goals exact Nat.le_succ_of_le ih
      | _ => exact ih

/-- Where nothing fails, the batches written are those that were to be written. -/
theorem batchesWritten_of_calls {steps : List (RunStep ν ρ σ)}
    (h : steps.any (Step.failed Call.fails) = false) :
    batchesWritten steps = (steps.map Step.call).filterMap Call.batch? := by
  induction steps with
  | nil => rfl
  | cons e rest ih =>
      rw [List.any_cons, Bool.or_eq_false_iff] at h
      obtain ⟨call, answer, after⟩ := e
      cases call with
      | upsert rows =>
          cases answer with
          | ok n => exact congrArg (rows :: ·) (ih h.2)
          | error error => cases h.1
      | _ => exact ih h.2

variable [Entity ν ρ]

/-! ### Adding up -/

/-- A tally has become another one, to which these calls are added. -/
structure Counted (steps : List (RunStep ν ρ σ)) (t t' : Tally) : Prop where
  clients : t'.clients = t.clients
  batches : t'.batches = t.batches + (batchesWritten steps).length
  records : t'.records = t.records + (batchesWritten steps).flatten.length
  degraded : t'.degraded = t.degraded + (rejections steps).length
  invalid : t'.invalid = t.invalid +
    (rejections steps).countP fun rejected => Entity.isNotFound ρ rejected.2 rejected.1

theorem Counted.append {steps more : List (RunStep ν ρ σ)} {t t₁ t' : Tally}
    (h : Counted steps t t₁) (h' : Counted more t₁ t') : Counted (steps ++ more) t t' where
  clients := h'.clients.trans h.clients
  batches := by
    rw [h'.batches, h.batches, batchesWritten_append, List.length_append, Nat.add_assoc]
  records := by
    rw [h'.records, h.records, batchesWritten_append, List.flatten_append, List.length_append,
      Nat.add_assoc]
  degraded := by
    rw [h'.degraded, h.degraded, rejections_append, List.length_append, Nat.add_assoc]
  invalid := by
    rw [h'.invalid, h.invalid, rejections_append, List.countP_append, Nat.add_assoc]

/-- Calls that write no batch and end in no rejection count for nothing. -/
theorem Counted.same {steps : List (RunStep ν ρ σ)} (hbatches : batchesWritten steps = [])
    (hrejections : rejections steps = []) (t : Tally) : Counted steps t t where
  clients := rfl
  batches := by rw [hbatches]; rfl
  records := by rw [hbatches]; rfl
  degraded := by rw [hrejections]; rfl
  invalid := by rw [hrejections]; rfl

theorem Counted.batch (rows : List ρ) (n : Nat) (after : σ) (t : Tally) :
    Counted [(⟨.upsert rows, .ok n, after⟩ : RunStep ν ρ σ)] t
      { t with batches := t.batches + 1, records := t.records + rows.length } where
  clients := rfl
  batches := rfl
  records := by
    have hwritten : batchesWritten [(⟨.upsert rows, .ok n, after⟩ : RunStep ν ρ σ)] = [rows] := rfl
    rw [hwritten, List.flatten_singleton]
  degraded := rfl
  invalid := rfl

theorem Counted.rejection (client : String) (status : Nat) (code message : Option String)
    (after : σ) (t : Tally) :
    Counted [(⟨.fetch client, .error (.api status code message), after⟩ : RunStep ν ρ σ)] t
      (Run.countRejection ρ t client (.api status code message)) where
  clients := rfl
  batches := rfl
  records := rfl
  degraded := rfl
  invalid := by
    rw [Run.countRejection, rejections, List.filterMap_cons, List.filterMap_nil,
      List.countP_singleton]
    dsimp only
    split <;> rfl

namespace Run

variable (handle : (c : Call ν ρ) → σ → c.Answer × σ)

/-- Whenever the run starts with this tally, it ends with one to which its calls are added. -/
def Counts (p : Run ν ρ) (t : Tally) : Prop :=
  ∀ s, Counted (p.trace handle s) t (p.run handle s).1.1

variable {handle}

/-- One call, after which the run goes on. -/
theorem Counts.call {c : Call ν ρ} {next : c.Answer → Run ν ρ} {t : Tally}
    (h : ∀ (answer : c.Answer) (after : σ),
      ∃ t₁, Counted [⟨c, answer, after⟩] t t₁ ∧ Counts handle (next answer) t₁) :
    Counts handle (.call c next) t := by
  intro s
  obtain ⟨t₁, hcall, hnext⟩ := h (handle c s).1 (handle c s).2
  exact hcall.append (hnext (handle c s).2)

theorem counts_done (t : Tally) (error : Option JobError) :
    Counts handle (.done (t, error)) t :=
  fun _ => .same rfl rfl t

theorem counts_finish (mode : RefreshMode) (provider : String) (clients : List String)
    (t : Tally) : Counts handle (finish mode provider clients t) t := by
  cases mode with
  | instant =>
      refine .call fun answer after => ⟨t, .same rfl rfl t, ?_⟩
      cases answer <;> exact counts_done t _
  | scheduled =>
      refine .call fun answer after => ⟨t, .same rfl rfl t, ?_⟩
      cases answer <;> exact counts_done t _

theorem counts_flush (batch : List ρ) (t : Tally) {next : Tally → Run ν ρ}
    (hnext : ∀ t, Counts handle (next t) t) : Counts handle (flush batch t next) t := by
  refine .call fun answer after => ?_
  cases answer with
  | ok n => exact ⟨_, .batch batch n after t, hnext _⟩
  | error e => exact ⟨t, .same rfl rfl t, counts_done t _⟩

theorem counts_flushRemaining (buffer : BatchBuffer ρ) (t : Tally) {next : Tally → Run ν ρ}
    (hnext : ∀ t, Counts handle (next t) t) : Counts handle (flushRemaining buffer t next) t := by
  rw [flushRemaining, BatchBuffer.takeRemaining]
  cases buffer.items.isEmpty with
  | true => exact hnext t
  | false => exact counts_flush buffer.items t hnext

theorem counts_push (row : ρ) (buffer : BatchBuffer ρ) (t : Tally)
    {next : BatchBuffer ρ → Tally → Run ν ρ} (hnext : ∀ buffer t, Counts handle (next buffer t) t) :
    Counts handle (push row buffer t next) t := by
  rw [push_eq]
  split
  · exact counts_flush _ t (hnext _)
  · exact hnext _ t

theorem counts_each (provider : String) {next : BatchBuffer ρ → Tally → Run ν ρ}
    (hnext : ∀ buffer t, Counts handle (next buffer t) t) (clients : List String)
    (buffer : BatchBuffer ρ) (t : Tally) :
    Counts handle (each provider next clients buffer t) t := by
  induction clients generalizing buffer t with
  | nil => exact hnext buffer t
  | cons client rest ih =>
      refine .call fun answer after => ?_
      match answer with
      | .ok report => exact ⟨t, .same rfl rfl t, counts_push _ buffer t ih⟩
      | .error (.api status code message) =>
          exact ⟨_, .rejection client status code message after t, counts_push _ buffer _ ih⟩
      | .error (.malformed _ _) | .error (.transport _) | .error (.token _) =>
          exact ⟨t, .same rfl rfl t, counts_done t _⟩

/-- The tally of a run is that of its calls: the clients are those of the listing, and everything
else is added up from nothing. -/
theorem counted_execute (provider : String) (batchSize : Nat) (mode : RefreshMode) (s : σ) :
    let run : Run ν ρ := execute provider batchSize mode
    Counted (run.trace handle s)
      { Tally.zero with clients := (listing (run.trace handle s)).length }
      (run.run handle s).1.1 := by
  simp only [execute, Program.trace_call, Program.run_call]
  generalize (handle (.list provider mode.isInstant) s).2 = after
  cases (handle (.list provider mode.isInstant) s).1 with
  | error e => exact .same rfl rfl _
  | ok clients =>
      let t : Tally := { Tally.zero with clients := clients.length }
      -- the clients are counted before the first one is asked about
      have hlisting : Counted [(⟨.list provider mode.isInstant, .ok clients, after⟩ :
        RunStep ν ρ σ)] t t := .same rfl rfl t
      exact hlisting.append (counts_each provider (fun buffer t =>
        counts_flushRemaining buffer t (counts_finish mode provider clients)) clients
        (.empty batchSize) t after)

end Run

/-! ### How far the numbers get -/

theorem length_grouped {α : Type} {size : Nat} (hsize : 0 < size) (l : List α) :
    (grouped size l).length = (l.length + size - 1) / size := by
  induction l using grouped_induction hsize with
  | nil =>
      rw [grouped_nil, List.length_nil, List.length_nil, Nat.zero_add]
      exact (Nat.div_eq_of_lt (by omega)).symm
  | cons l hl ih =>
      have hpos : 0 < l.length := List.length_pos_iff.mpr hl
      rw [grouped_eq_cons hsize hl, List.length_cons, ih, List.length_drop]
      by_cases hle : size ≤ l.length
      · have hnext : l.length + size - 1 = (l.length - size + size - 1) + size := by omega
        rw [hnext, Nat.add_div_right _ hsize]
      · have hlast : l.length + size - 1 = (l.length - 1) + size := by omega
        rw [hlast, Nat.add_div_right _ hsize, Nat.div_eq_of_lt (by omega),
          Nat.div_eq_of_lt (by omega)]

variable (handle : (c : Call ν ρ) → σ → c.Answer × σ)

theorem listing_execute (provider : String) (batchSize : Nat) (mode : RefreshMode) (s : σ) :
    listing ((Run.execute provider batchSize mode : Run ν ρ).trace handle s) =
      (handle (.list provider mode.isInstant) s).1.toOption.getD [] := by
  rw [Run.execute, Program.trace_call]
  cases (handle (.list provider mode.isInstant) s).1 <;> rfl

omit [Entity ν ρ] in
theorem batch?_lastCall (mode : RefreshMode) (provider : String) (clients : List String) :
    (Ideal.lastCall mode provider clients : Call ν ρ).batch? = none := by
  cases mode <;> rfl

/-- For each group one batch is to be written. -/
theorem filterMap_batchCalls (provider : String)
    (groups : List (List (String × Except VendorError ν))) :
    (groups.flatMap (Ideal.batchCalls provider) : List (Call ν ρ)).filterMap Call.batch? =
      groups.map (List.map (Entity.ofAnswer provider)) := by
  induction groups with
  | nil => rfl
  | cons group rest ih =>
      have hfetch (clients : List String) :
          (clients.map .fetch : List (Call ν ρ)).filterMap Call.batch? = [] :=
        List.filterMap_eq_nil_iff.mpr fun c hc => by
          obtain ⟨client, -, rfl⟩ := List.mem_map.mp hc
          rfl
      rw [List.flatMap_cons, List.filterMap_append, ih, Ideal.batchCalls, List.filterMap_append,
        hfetch]
      rfl

/-- A run that completes has written a row for every client, in batches that are groups of them. -/
theorem batchesWritten_of_complete (provider : String) (batchSize : Nat) (mode : RefreshMode)
    (s : σ)
    (h : ((Run.execute provider batchSize mode : Run ν ρ).run handle s).1.2.isNone = true) :
    let steps := (Run.execute provider batchSize mode : Run ν ρ).trace handle s
    ((consulted steps).map Prod.fst = listing steps) ∧
      batchesWritten steps = (grouped (max batchSize 1) (consulted steps)).map
        (List.map (Entity.ofAnswer provider)) := by
  rw [isNone_run_execute, Bool.not_eq_true'] at h
  intro steps
  -- nothing failed, so the calls are all those of the ideal run
  have hsteps : steps = (Ideal.run provider batchSize mode).trace handle s := by
    have hwhole := throughFirst_append_of_not_any h []
    rw [List.append_nil, throughFirst, List.append_nil] at hwhole
    exact (trace_execute handle provider batchSize mode s).trans hwhole
  obtain ⟨hclients, hcalls⟩ := Ideal.trace_run handle provider batchSize mode s
  rw [← hsteps] at h hclients hcalls
  refine ⟨hclients.trans (listing_execute handle provider batchSize mode s).symm, ?_⟩
  rw [batchesWritten_of_calls h, hcalls, List.cons_append, List.filterMap_cons_none rfl,
    List.filterMap_append, filterMap_batchCalls, List.filterMap_cons_none (batch?_lastCall ..)]
  exact List.append_nil _

/-- A run that breaks off when it asks about a client had asked about those listed before, and has
written the batches that they fill. -/
theorem records_of_aborting_fetch {provider : String} {batchSize : Nat} {mode : RefreshMode} {s : σ}
    {before : List (RunStep ν ρ σ)} {client : String} {error : VendorError} {after : σ}
    (hsteps : (Run.execute provider batchSize mode : Run ν ρ).trace handle s =
      before ++ [⟨.fetch client, .error error, after⟩])
    (herror : error.abortsRun = true) :
    let run : Run ν ρ := Run.execute provider batchSize mode
    let k := (consulted before).length
    (run.run handle s).1.2.isNone = false ∧
      (listing (run.trace handle s))[k]? = some client ∧
      (batchesWritten (run.trace handle s)).flatten.length =
        max batchSize 1 * (k / max batchSize 1) := by
  intro run k
  -- the failing call is one of the ideal run
  have hstopped : (run.run handle s).1.2.isNone = false := by
    rw [isNone_run_execute, Bool.not_eq_false']
    have hprefix := throughFirst_isPrefix (Step.failed Call.fails)
      ((Ideal.run provider batchSize mode).trace handle s)
    rw [← trace_execute, hsteps] at hprefix
    have hmem := hprefix.subset (List.mem_append_right _ (List.mem_singleton_self _))
    exact List.any_eq_true.mpr ⟨_, hmem, herror⟩
  refine ⟨hstopped, ?_⟩
  have hlisting (clients : List String)
      (hanswer : (handle (.list provider mode.isInstant) s).1 = .ok clients) :
      clients = listing (run.trace handle s) := by
    rw [listing_execute, hanswer]
    rfl
  obtain ⟨before', e, m, htrace, -, -, hbreakdown, hstored⟩ :=
    breakdown_of_execute handle hlisting hstopped
  obtain ⟨rfl, he⟩ := List.append_inj' (hsteps.symm.trans htrace) rfl
  obtain rfl := (List.cons.inj he).1
  have hrecords : (batchesWritten (run.trace handle s)).flatten.length = m := by
    rw [← stored_eq_flatten, htrace, stored_append,
      stored_of_failed (e := ⟨.fetch client, .error error, after⟩) herror, List.append_nil, hstored,
      List.length_map, List.length_take, Nat.min_eq_left hbreakdown.le_length]
  cases hbreakdown with
  | listing hcall hbefore hm => cases hcall
  | finishing hcall hasked hm => cases mode <;> cases hcall
  | covering h =>
      cases h with
      | writing j hcall hasked hbatch hfull hm => cases hcall
      | asking i asked hcall hclient hasked hm =>
          obtain rfl : client = asked := Call.fetch.inj hcall
          have hi : i < (listing (run.trace handle s)).length :=
            (List.getElem?_eq_some_iff.mp hclient).1
          obtain rfl : k = i := by
            rw [show k = min i _ from length_consulted hasked, Nat.min_eq_left (Nat.le_of_lt hi)]
          exact ⟨hclient, hrecords.trans hm⟩

/-! ### The report -/

section

variable (l : Launch) (s : σ)

/-- The tally that is reported is that of the calls. A job that is switched off makes none. -/
theorem counted_report :
    let steps := (l.program ρ).trace handle s
    Counted steps { Tally.zero with clients := (listing steps).length }
      ((l.program ρ).run handle s).1.tally := by
  rcases l.program_cases (ρ := ρ) with hprogram | hprogram <;> rw [hprogram]
  · exact .same rfl rfl _
  · rw [Program.trace_map, Program.run_map]
    exact Run.counted_execute l.settings.provider l.settings.batchSize l.mode s

theorem isSome_error_report : ((l.program ρ).run handle s).1.error.isSome = true ↔
    ((l.program ρ).run handle s).1.outcome = .aborted := by
  rcases l.program_cases (ρ := ρ) with hprogram | hprogram <;> rw [hprogram]
  · exact ⟨nofun, nofun⟩
  · rw [Program.run_map]
    obtain ⟨t, error⟩ := (Program.run handle (Run.execute l.settings.provider
      l.settings.batchSize l.mode : Run ν ρ) s).1
    cases error with
    | none => exact ⟨nofun, nofun⟩
    | some e => exact ⟨fun _ => rfl, fun _ => rfl⟩

theorem batchesWritten_of_completed
    (h : ((l.program ρ).run handle s).1.outcome = .completed) :
    let steps := (l.program ρ).trace handle s
    let size := max l.settings.batchSize 1
    (batchesWritten steps).flatten.length = (listing steps).length ∧
      (batchesWritten steps).length = ((listing steps).length + size - 1) / size := by
  intro steps size
  have hsize : 0 < size := by omega
  rcases l.program_cases (ρ := ρ) with hprogram | hprogram
  · rw [hprogram] at h
    cases h
  rw [hprogram, Program.run_map, outcome_report] at h
  have hsteps : steps = (Run.execute l.settings.provider l.settings.batchSize l.mode :
      Run ν ρ).trace handle s := by
    simp only [steps, hprogram, Program.trace_map]
  obtain ⟨hasked, hwritten⟩ := batchesWritten_of_complete handle l.settings.provider
    l.settings.batchSize l.mode s (by simpa using h)
  rw [← hsteps] at hasked hwritten
  have hlength : (consulted steps).length = (listing steps).length := by
    rw [← hasked, List.length_map]
  constructor
  · rw [hwritten, ← List.map_flatten, List.length_map, flatten_grouped hsize, hlength]
  · rw [hwritten, List.length_map, length_grouped hsize, hlength]

theorem aborted_of_aborting_fetch {before : List (RunStep ν ρ σ)} {client : String}
    {error : VendorError} {after : σ}
    (hsteps : (l.program ρ).trace handle s = before ++ [⟨.fetch client, .error error, after⟩])
    (herror : error.abortsRun = true) :
    let steps := (l.program ρ).trace handle s
    let size := max l.settings.batchSize 1
    let k := (consulted before).length
    ((l.program ρ).run handle s).1.outcome = .aborted ∧ (listing steps)[k]? = some client ∧
      (batchesWritten steps).flatten.length = size * (k / size) := by
  intro steps size k
  rcases l.program_cases (ρ := ρ) with hprogram | hprogram
  · rw [hprogram] at hsteps
    simp at hsteps
  · rw [hprogram, Program.trace_map] at hsteps
    obtain ⟨hstopped, hclient, hrecords⟩ := records_of_aborting_fetch handle hsteps herror
    simp only [steps, hprogram, Program.trace_map, Program.run_map, outcome_report, hstopped]
    exact ⟨rfl, hclient, hrecords⟩

/-- **What a run reports.** Whatever answers the calls, and wherever the run ends: the numbers that
it reports are those of its calls, and it gives a reason exactly if it was aborted. If it completes,
a row is written for every client, and the batches are as few as there can be; if it breaks off at
the `k`-th client, the batches that the clients before it fill are written. -/
theorem report_tells_calls :
    let report := ((l.program ρ).run handle s).1
    let steps := (l.program ρ).trace handle s
    let size := max l.settings.batchSize 1
    report.tally.clients = (listing steps).length ∧
      report.tally.batches = (batchesWritten steps).length ∧
      report.tally.records = (batchesWritten steps).flatten.length ∧
      report.tally.degraded = (rejections steps).length ∧
      report.tally.invalid = ((rejections steps).countP fun rejected =>
        rejected.2.code? == some (Entity.notFoundCode ρ rejected.1)) ∧
      (report.error.isSome = true ↔ report.outcome = .aborted) ∧
      (report.outcome = .completed →
        report.tally.records = (listing steps).length ∧
          report.tally.batches = ((listing steps).length + size - 1) / size) ∧
      (∀ before client error after, steps = before ++ [⟨.fetch client, .error error, after⟩] →
        error.abortsRun = true →
          let k := (consulted before).length
          report.outcome = .aborted ∧ (listing steps)[k]? = some client ∧
            report.tally.records = size * (k / size)) ∧
      report.tally.invalid ≤ report.tally.degraded ∧
      report.tally.degraded ≤ (consulted steps).length := by
  intro report steps size
  have hcounted : Counted steps { Tally.zero with clients := (listing steps).length }
    report.tally := counted_report handle l s
  have hbatches : report.tally.batches = (batchesWritten steps).length :=
    hcounted.batches.trans (Nat.zero_add _)
  have hrecords : report.tally.records = (batchesWritten steps).flatten.length :=
    hcounted.records.trans (Nat.zero_add _)
  have hdegraded : report.tally.degraded = (rejections steps).length :=
    hcounted.degraded.trans (Nat.zero_add _)
  have hinvalid := hcounted.invalid.trans (Nat.zero_add _)
  refine ⟨hcounted.clients, hbatches, hrecords, hdegraded, hinvalid, isSome_error_report handle l s,
    ?_, ?_, ?_, ?_⟩
  · intro hcompleted
    rw [hrecords, hbatches]
    exact batchesWritten_of_completed handle l s hcompleted
  · intro before client error after hlast herror k
    rw [hrecords]
    exact aborted_of_aborting_fetch handle l s hlast herror
  · rw [hinvalid, hdegraded]
    exact List.countP_le_length
  · rw [hdegraded]
    exact length_rejections_le steps

end

end DepositSync
