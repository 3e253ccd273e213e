import DepositSync.Proofs.Account

/-!
# DepositSync.Proofs.AbortedRun

What a run leaves behind that is aborted. The calls of the run end with the one that failed. What is
in the table are the rows of the batches that were written before, and nothing else has happened to
it: the batches are whole, no row is gone, no request is cleared, and the clients behind those of the
last batch written have the rows that they had.

How many clients that are depends on the call that failed (`Breakdown`). The proof goes through the
batches; what carries it is that a batch is written after all its clients were asked about, so that a
failure among the questions drops the batch as a whole.
-/

namespace DepositSync

open Sql (grouped)

variable {ν ρ σ : Type} [Entity ν ρ]

/-! ### Where a run breaks off -/

/-- A run breaks off at `e` while it covers the clients. `before` are its calls before that, and the
rows of the first `m` clients are written. -/
inductive Interrupted (provider : String) (size : Nat) (clients : List String)
    (before : List (RunStep ν ρ σ)) (e : RunStep ν ρ σ) (m : Nat) : Prop where
  /-- The vendor gives no verdict on a client, of which `k` are asked about before. -/
  | asking (k : Nat) (client : String) (hcall : e.call = .fetch client)
      (hclient : clients[k]? = some client)
      (hasked : (consulted before).map Prod.fst = clients.take k) (hm : m = size * (k / size))
  /-- A batch is not written, before which `j` are written, all of them full. -/
  | writing (j : Nat)
      (hcall : e.call = .upsert
        (((consulted before).drop (size * j)).map (Entity.ofAnswer provider)))
      (hasked : (consulted before).map Prod.fst = clients.take (size * (j + 1)))
      (hbatch : size * j < clients.length)
      (hfull : ∀ rows n after, ⟨.upsert rows, .ok n, after⟩ ∈ before → rows.length = size)
      (hm : m = size * j)

/-- A run breaks off at `e`. `before` are its calls before that, and the rows of the first `m`
clients are written. -/
inductive Breakdown (provider : String) (mode : RefreshMode) (size : Nat) (clients : List String)
    (before : List (RunStep ν ρ σ)) (e : RunStep ν ρ σ) (m : Nat) : Prop where
  /-- The clients cannot be listed. -/
  | listing (hcall : e.call = .list provider mode.isInstant) (hbefore : before = []) (hm : m = 0)
  /-- The run does not get through the clients. -/
  | covering (h : Interrupted provider size clients before e m)
  /-- All clients are covered, but the last call fails. -/
  | finishing (hcall : e.call = Ideal.lastCall mode provider clients)
      (hasked : (consulted before).map Prod.fst = clients) (hm : m = clients.length)

variable {provider : String} {mode : RefreshMode} {size m : Nat} {clients : List String}
  {before : List (RunStep ν ρ σ)} {e : RunStep ν ρ σ}

omit [Entity ν ρ] in
theorem length_consulted {steps : List (RunStep ν ρ σ)} {n : Nat}
    (hasked : (consulted steps).map Prod.fst = clients.take n) :
    (consulted steps).length = min n clients.length := by
  rw [← List.length_take, ← hasked, List.length_map]

/-- Rows are written for clients that were asked about. -/
theorem Interrupted.le_length (h : Interrupted provider size clients before e m) :
    m ≤ (consulted before).length := by
  cases h with
  | asking k client hcall hclient hasked hm =>
      have hk : k < clients.length := (List.getElem?_eq_some_iff.mp hclient).1
      have hdiv : size * (k / size) ≤ k := Nat.mul_div_le k size
      rw [length_consulted hasked, hm]
      omega
  | writing j hcall hasked hbatch hfull hm =>
      have hnext : size * (j + 1) = size * j + size := Nat.mul_succ size j
      rw [length_consulted hasked, hm]
      omega

theorem Breakdown.le_length (h : Breakdown provider mode size clients before e m) :
    m ≤ (consulted before).length := by
  cases h with
  | listing hcall hbefore hm => omega
  | covering h => exact h.le_length
  | finishing hcall hasked hm => exact Nat.le_of_eq (hm.trans (by rw [← hasked, List.length_map]))

/-- The clients asked about are listed, from the first one on. -/
theorem Breakdown.take_asked (h : Breakdown provider mode size clients before e m) :
    ((consulted before).take m).map Prod.fst = clients.take m := by
  have hle := h.le_length
  have htake {n : Nat} (hasked : (consulted before).map Prod.fst = clients.take n) :
      ((consulted before).take m).map Prod.fst = clients.take m := by
    have hlength := length_consulted hasked
    rw [List.map_take, hasked, List.take_take, Nat.min_eq_left (by omega)]
  -- the clients asked about are the first ones of the list, however far the run came
  cases h with
  | listing hcall hbefore hm => rw [hm, List.take_zero, List.take_zero, List.map_nil]
  | covering h =>
      cases h with
      | asking k client hcall hclient hasked hm => exact htake hasked
      | writing j hcall hasked hbatch hfull hm => exact htake hasked
  | finishing hcall hasked hm => exact htake (hasked.trans List.take_length.symm)

/-- The client on which there is no verdict comes behind those whose rows are written. -/
theorem Breakdown.mem_drop (h : Breakdown provider mode size clients before e m) {client : String}
    (hcall : e.call = .fetch client) : client ∈ clients.drop m := by
  cases h with
  | listing hlist hbefore hm => cases hcall.symm.trans hlist
  | covering h =>
      cases h with
      | asking k client' hfetch hclient hasked hm =>
          obtain rfl : client = client' := Call.fetch.inj (hcall.symm.trans hfetch)
          have hle : m ≤ k := hm ▸ Nat.mul_div_le k size
          refine List.mem_iff_getElem?.mpr ⟨k - m, ?_⟩
          rw [List.getElem?_drop, Nat.add_sub_cancel' hle, hclient]
      | writing j hupsert hasked hbatch hfull hm => cases hcall.symm.trans hupsert
  | finishing hlast hasked hm => cases mode <;> cases hcall.symm.trans hlast

/-! ### Through the batches -/

omit [Entity ν ρ] in
/-- While clients are asked about, a failure concerns the client that comes next. -/
theorem asking_of_fetches {later : List (RunStep ν ρ σ)}
    (hcalls : (before ++ e :: later).map Step.call = clients.map .fetch) :
    ∃ client, e.call = .fetch client ∧ clients[before.length]? = some client ∧
      (consulted before).map Prod.fst = clients.take before.length := by
  induction before generalizing clients with
  | nil =>
      cases clients with
      | nil => cases hcalls
      | cons client rest => exact ⟨client, (List.cons.inj hcalls).1, rfl, rfl⟩
  | cons first before ih =>
      cases clients with
      | nil => cases hcalls
      | cons client rest =>
          obtain ⟨call, answer, after⟩ := first
          obtain ⟨hcall, hrest⟩ := List.cons.inj hcalls
          obtain rfl : call = .fetch client := hcall
          obtain ⟨next, he, hnext, hasked⟩ := ih hrest
          exact ⟨next, he, hnext, congrArg (client :: ·) hasked⟩

omit [Entity ν ρ] in
theorem exists_fetch {first : List (RunStep ν ρ σ)}
    (hcalls : first.map Step.call = clients.map .fetch) {e : RunStep ν ρ σ} (he : e ∈ first) :
    ∃ client, e.call = .fetch client := by
  obtain ⟨client, -, hclient⟩ := List.mem_map.mp (hcalls ▸ List.mem_map_of_mem (f := Step.call) he)
  exact ⟨client, hclient.symm⟩

omit [Entity ν ρ] in
/-- Only writing writes: among questions there is no batch. -/
theorem not_mem_of_fetches {first : List (RunStep ν ρ σ)}
    (hcalls : first.map Step.call = clients.map .fetch) (rows : List ρ)
    (answer : Except StoreError Nat) (after : σ) : ⟨.upsert rows, answer, after⟩ ∉ first := by
  intro hmem
  obtain ⟨client, hclient⟩ := exists_fetch hcalls hmem
  cases hclient

section

variable {first rest tail : List (RunStep ν ρ σ)} {w : RunStep ν ρ σ}

/-- The vendor gives no verdict on a client of the first batch. -/
theorem Interrupted.inFirst
    (hcalls : (before ++ e :: tail).map Step.call = (clients.take size).map .fetch) :
    Interrupted provider size clients before e 0 := by
  obtain ⟨client, hcall, hclient, hasked⟩ := asking_of_fetches hcalls
  have hlt : before.length < size := by
    have := (List.getElem?_eq_some_iff.mp hclient).1
    rw [List.length_take] at this
    omega
  rw [List.getElem?_take_of_lt hlt] at hclient
  rw [List.take_take, Nat.min_eq_left (Nat.le_of_lt hlt)] at hasked
  refine .asking before.length client hcall hclient hasked ?_
  rw [Nat.div_eq_of_lt hlt, Nat.mul_zero]

/-- The first batch is not written. -/
theorem Interrupted.atFirst (hne : clients ≠ [])
    (hcalls : first.map Step.call = (clients.take size).map .fetch)
    (hasked : (consulted first).map Prod.fst = clients.take size)
    (hcall : w.call = .upsert ((consulted first).map (Entity.ofAnswer provider))) :
    Interrupted provider size clients first w 0 :=
  .writing 0 hcall (by rwa [Nat.mul_one]) (List.length_pos_iff.mpr hne)
    (fun rows n after hmem => absurd hmem (not_mem_of_fetches hcalls rows (.ok n) after)) rfl

/-- The first batch is written, and the run breaks off further on in the list. -/
theorem Interrupted.afterFirst (hsize : 0 < size) (hlt : size < clients.length)
    (hcalls : first.map Step.call = (clients.take size).map .fetch)
    (hasked : (consulted first).map Prod.fst = clients.take size)
    (hcall : w.call = .upsert ((consulted first).map (Entity.ofAnswer provider)))
    (h : Interrupted provider size (clients.drop size) rest e m) :
    Interrupted provider size clients (first ++ w :: rest) e (size + m) := by
  obtain ⟨call, answer, after⟩ := w
  obtain rfl : call = .upsert _ := hcall
  have hlength : (consulted first).length = size := by
    rw [length_consulted hasked, Nat.min_eq_left (Nat.le_of_lt hlt)]
  have hconsulted : consulted (first ++ ⟨.upsert _, answer, after⟩ :: rest) =
      consulted first ++ consulted rest := consulted_append first _
  have htake (n : Nat) (hrest : (consulted rest).map Prod.fst = (clients.drop size).take n) :
      (consulted first ++ consulted rest).map Prod.fst = clients.take (size + n) := by
    rw [List.map_append, hasked, hrest, ← List.take_add]
  cases h with
  | asking k client hcall hclient hrest hm =>
      refine .asking (size + k) client hcall (List.getElem?_drop ▸ hclient)
        (hconsulted ▸ htake k hrest) ?_
      rw [hm, Nat.add_div_left k hsize, Nat.mul_succ, Nat.add_comm]
  | writing j hcall hrest hbatch hfull hm =>
      have hnext (i : Nat) : size * (i + 1) = size + size * i := by
        rw [Nat.mul_succ, Nat.add_comm]
      have hdrop : (consulted first ++ consulted rest).drop (size + size * j) =
          (consulted rest).drop (size * j) := hlength ▸ List.drop_length_add_append _
      rw [List.length_drop] at hbatch
      refine .writing (j + 1) ?_ ?_ (by rw [hnext]; omega) (fun rows n after' hmem => ?_)
        (by rw [hm, hnext])
      · rw [hcall, hconsulted, hnext, hdrop]
      · rw [hconsulted, hnext (j + 1)]
        exact htake _ hrest
      · rcases List.mem_append.mp hmem with hmem | hmem
        · exact absurd hmem (not_mem_of_fetches hcalls rows (.ok n) after')
        · rcases List.mem_cons.mp hmem with heq | hmem
          · obtain rfl : rows = _ := Call.upsert.inj (congrArg Step.call heq)
            rw [List.length_map, hlength]
          · exact hfull rows n after' hmem

end

omit [Entity ν ρ] in
/-- A batch that is written is in the table. -/
theorem stored_of_written {w : RunStep ν ρ σ} {rows : List ρ} (hcall : w.call = .upsert rows)
    (hw : w.failed Call.fails = false) (rest : List (RunStep ν ρ σ)) :
    stored (w :: rest) = rows ++ stored rest := by
  obtain ⟨call, answer, after⟩ := w
  obtain rfl : call = .upsert rows := hcall
  cases answer with
  | ok n => rfl
  | error e => cases hw

omit [Entity ν ρ] in
theorem consulted_of_upsert {w : RunStep ν ρ σ} {rows : List ρ} (hcall : w.call = .upsert rows)
    (rest : List (RunStep ν ρ σ)) : consulted (w :: rest) = consulted rest := by
  obtain ⟨call, answer, after⟩ := w
  obtain rfl : call = .upsert rows := hcall
  rfl

/-- A run that breaks off while it covers the clients has written the rows of the batches that it
got through, and no others. -/
theorem interrupted_writeAll (handle : (c : Call ν ρ) → σ → c.Answer × σ) (hsize : 0 < size)
    {later : List (RunStep ν ρ σ)} {s : σ}
    (htrace : (Ideal.writeAll provider (grouped size clients)).trace handle s =
      before ++ e :: later)
    (hbefore : before.any (Step.failed Call.fails) = false) :
    ∃ m, Interrupted provider size clients before e m ∧
      stored before = ((consulted before).take m).map (Entity.ofAnswer provider) := by
  induction clients using grouped_induction hsize generalizing s before with
  | nil => simp [Ideal.writeAll] at htrace
  | cons clients hne ih =>
      obtain ⟨hasked, hcalls, hrows⟩ :=
        Ideal.trace_fetchAll handle provider (clients.take size) s
      rw [grouped_eq_cons hsize hne] at htrace
      simp only [Ideal.writeAll, Ideal.write, Program.trace_bind, Program.trace_call] at htrace
      rw [hrows] at htrace
      generalize (Ideal.fetchAll provider (clients.take size)).trace handle s = first
        at hasked hcalls htrace
      generalize hw : (⟨.upsert ((consulted first).map (Entity.ofAnswer provider)), _, _⟩ :
        RunStep ν ρ σ) = w at htrace
      have hcall : w.call = .upsert ((consulted first).map (Entity.ofAnswer provider)) := hw ▸ rfl
      have hnone : stored first = [] := stored_of_fetches fun e he => exists_fetch hcalls he
      rcases append_cons_eq_append htrace with ⟨tail, rfl⟩ | ⟨rest, rfl, hrest⟩
      · refine ⟨0, .inFirst hcalls, stored_of_fetches fun e he => ?_⟩
        exact exists_fetch hcalls (List.mem_append_left _ he)
      · cases rest with
        | nil =>
            obtain ⟨rfl, -⟩ := List.cons.inj hrest
            rw [List.append_nil]
            exact ⟨0, .atFirst hne hcalls hasked hcall, hnone⟩
        | cons _ rest =>
            obtain ⟨rfl, hlater⟩ := List.cons.inj hrest
            simp only [List.any_append, List.any_cons, Bool.or_eq_false_iff] at hbefore
            obtain ⟨m, hinterrupted, hstored⟩ := ih hlater hbefore.2.2
            -- nothing follows a batch that is not full
            have hlt : size < clients.length := by
              refine Nat.lt_of_not_le fun hle => ?_
              rw [List.drop_of_length_le hle, grouped_nil] at hlater
              simp [Ideal.writeAll] at hlater
            refine ⟨_, hinterrupted.afterFirst hsize hlt hcalls hasked hcall, ?_⟩
            have hlength : (consulted first).length = size := by
              rw [length_consulted hasked, Nat.min_eq_left (Nat.le_of_lt hlt)]
            rw [stored_append, stored_of_written hcall hbefore.2.1, hnone, hstored,
              List.nil_append, ← List.map_append, consulted_append, consulted_of_upsert hcall,
              ← hlength, List.take_length_add_append]

/-! ### Through the run -/

/-- The clients were listed, and the run breaks off when it covers them. -/
theorem Interrupted.afterListing {listing : RunStep ν ρ σ} {p : String} {o : Bool}
    (hcall : listing.call = .list p o)
    (h : Interrupted provider size clients before e m) :
    Interrupted provider size clients (listing :: before) e m := by
  obtain ⟨call, answer, after⟩ := listing
  obtain rfl : call = .list p o := hcall
  cases h with
  | asking k client hcall hclient hasked hm => exact .asking k client hcall hclient hasked hm
  | writing j hcall hasked hbatch hfull hm =>
      refine .writing j hcall hasked hbatch (fun rows n after' hmem => ?_) hm
      exact hfull rows n after' ((List.mem_cons.mp hmem).resolve_left nofun)

/-- An ideal run of which a call is the first one to fail. -/
theorem breakdown_of_ideal (handle : (c : Call ν ρ) → σ → c.Answer × σ) (hsize : 0 < size)
    {listing : Except StoreError (List String)} {listed : σ} {last : RunStep ν ρ σ}
    {later : List (RunStep ν ρ σ)} (hlisting : ∀ l, listing = .ok l → l = clients)
    (hlast : last.call = Ideal.lastCall mode provider (listing.toOption.getD []))
    (hideal : ⟨.list provider mode.isInstant, listing, listed⟩ ::
      ((Ideal.writeAll provider (grouped size (listing.toOption.getD []))).trace handle listed ++
        [last]) = before ++ e :: later)
    (hbefore : before.any (Step.failed Call.fails) = false) :
    ∃ m, Breakdown provider mode size clients before e m ∧
      stored before = ((consulted before).take m).map (Entity.ofAnswer provider) := by
  cases before with
  | nil =>
      obtain ⟨rfl, -⟩ := List.cons.inj hideal
      exact ⟨0, .listing rfl rfl rfl, rfl⟩
  | cons _ before =>
      obtain ⟨rfl, hrest⟩ := List.cons.inj hideal
      obtain ⟨hok, hbefore⟩ := Bool.or_eq_false_iff.mp hbefore
      cases listing with
      | error e => cases hok
      | ok l =>
          obtain rfl : l = clients := hlisting l rfl
          rcases append_cons_eq_append hrest with ⟨tail, hbatches⟩ | ⟨rest, rfl, hend⟩
          · obtain ⟨m, hinterrupted, hstored⟩ := interrupted_writeAll handle hsize hbatches hbefore
            exact ⟨m, .covering (hinterrupted.afterListing rfl), hstored⟩
          · -- nothing comes after the last call, so it is the one that failed
            obtain ⟨rfl, rfl⟩ : rest = [] ∧ last = e := by
              cases rest with
              | nil => exact ⟨rfl, (List.cons.inj hend).1⟩
              | cons _ rest => simp at hend
            rw [List.append_nil] at hbefore ⊢
            have hasked := (Ideal.trace_writeAll handle provider hsize l listed).1
            have hwritten := (writesVerdicts_writeAll handle provider _ listed).whole hbefore
            refine ⟨l.length, .finishing hlast hasked rfl, ?_⟩
            rw [consulted_list, stored_list, List.take_of_length_le, hwritten]
            exact Nat.le_of_eq ((List.length_map _).symm.trans (congrArg List.length hasked))

/-- Whatever answers the calls, those of a run that does not complete end with the first one that
fails. -/
theorem breakdown_of_execute (handle : (c : Call ν ρ) → σ → c.Answer × σ) {batchSize : Nat} {s : σ}
    (hlisting : ∀ l, (handle (.list provider mode.isInstant) s).1 = .ok l → l = clients)
    (h : ((Run.execute provider batchSize mode : Run ν ρ).run handle s).1.2.isNone = false) :
    ∃ before e m,
      (Run.execute provider batchSize mode : Run ν ρ).trace handle s = before ++ [e] ∧
      before.any (Step.failed Call.fails) = false ∧ e.failed Call.fails = true ∧
      Breakdown provider mode (max batchSize 1) clients before e m ∧
      stored before = ((consulted before).take m).map (Entity.ofAnswer provider) := by
  rw [isNone_run_execute, Bool.not_eq_false'] at h
  rw [trace_execute]
  obtain ⟨before, e, later, hideal, hsteps, hbefore, he⟩ :=
    exists_throughFirst (p := Step.failed Call.fails) h
  simp only [Ideal.run, Ideal.cover, Ideal.finish, Program.trace_call, Program.trace_bind,
    Program.trace_done] at hideal
  obtain ⟨m, hbreakdown, hstored⟩ :=
    breakdown_of_ideal handle (by omega) hlisting rfl hideal hbefore
  exact ⟨before, e, m, hsteps, hbefore, he, hbreakdown, hstored⟩

/-- The calls of a run that is aborted end with the first one that fails. -/
theorem breakdown_of_aborted (env : Backend ν ρ σ) {l : Launch} {s : σ}
    (h : (env.launch l s).1.outcome = .aborted) :
    ∃ before e m, env.steps l s = before ++ [e] ∧ before.any (Step.failed Call.fails) = false ∧
      e.failed Call.fails = true ∧
      Breakdown l.settings.provider l.mode (max l.settings.batchSize 1)
        ((env.table s).list l.settings.provider l.mode.isInstant) before e m ∧
      stored before = ((consulted before).take m).map (Entity.ofAnswer l.settings.provider) := by
  rw [Backend.launch] at h
  rw [Backend.steps]
  rcases l.program_cases (ρ := ρ) with hprogram | hprogram <;> rw [hprogram] at h ⊢
  · cases h
  rw [Program.run_map, outcome_report] at h
  rw [Program.trace_map]
  refine breakdown_of_execute env.answer (env.list_eq _ _ s) ?_
  rw [Bool.eq_false_iff]
  intro hnone
  rw [if_pos hnone] at h
  cases h

omit [Entity ν ρ] in
/-- The call that failed wrote nothing. -/
theorem stored_of_failed (he : e.failed Call.fails = true) : stored [e] = [] := by
  obtain ⟨call, answer, after⟩ := e
  cases call with
  | upsert rows =>
      cases answer with
      | ok n => cases he
      | error error => rfl
  | _ => rfl

variable [LawfulEntity ρ]

section

variable {t : Table ρ} {instantOnly : Bool} {rows : List ρ}

/-- Rows for the first clients of the list leave those of the other clients alone. -/
theorem find?_upsert_of_mem_drop (hs : t.Sorted)
    (hrows : ∀ record ∈ rows, ∃ client ∈ (t.list provider instantOnly).take m,
      Record.key record = (client, provider))
    {client : String} (hclient : client ∈ (t.list provider instantOnly).drop m) :
    (t.upsert rows).find? (client, provider) = t.find? (client, provider) := by
  refine Table.find?_upsert_of_not_mem (fun hmem => ?_) t
  obtain ⟨record, hrecord, heq⟩ := List.mem_map.mp hmem
  obtain ⟨written, hwritten, hrow⟩ := hrows record hrecord
  obtain rfl : written = client := (Prod.mk.inj (hrow.symm.trans heq)).1
  -- no client is listed twice
  have hnodup : (t.list provider instantOnly).Nodup := Table.nodup_list hs provider instantOnly
  rw [← List.take_append_drop m (t.list provider instantOnly)] at hnodup
  exact (List.nodup_append.mp hnodup).2.2 written hwritten written hclient rfl

/-- Rows for listed clients clear no request, and make none. -/
theorem refresh_find?_upsert_of_listed (hs : t.Sorted)
    (hrows : ∀ record ∈ rows, ∃ client ∈ (t.list provider instantOnly).take m,
      Record.key record = (client, provider)) (key : String × String) :
    ((t.upsert rows).find? key).map Row.refresh = (t.find? key).map Row.refresh := by
  refine Table.refresh_find?_upsert (fun record hrecord => ?_) key
  obtain ⟨client, hclient, hrow⟩ := hrows record hrecord
  obtain ⟨row, hfound, -⟩ := (Table.mem_list hs).mp (List.mem_of_mem_take hclient)
  rw [hrow, hfound]
  rfl

end

/-- **What an aborted run leaves.** The calls of a run that is aborted end with the first one that
fails, and it depends on this call for how many clients the rows are written (`Breakdown`). Exactly
the rows for the vendor's verdicts on so many clients are in the table, in the order in which the
clients are listed. No row is gone, no request is cleared or made, and the clients further on in the
list have the rows that they had, as has the one on which there was no verdict. -/
theorem aborted_run_keeps_batches (env : Backend ν ρ σ) {s : σ} (hs : (env.table s).Sorted)
    {l : Launch} (h : (env.launch l s).1.outcome = .aborted) :
    let provider := l.settings.provider
    let t := env.table s
    let t' := env.table (env.launch l s).2
    let clients := t.list provider l.mode.isInstant
    ∃ before e m,
      env.steps l s = before ++ [e] ∧
      before.any (Step.failed Call.fails) = false ∧ e.failed Call.fails = true ∧
      Breakdown provider l.mode (max l.settings.batchSize 1) clients before e m ∧
      ((consulted before).take m).map Prod.fst = clients.take m ∧
      (stored (env.steps l s)).length = m ∧
      t' = t.upsert (((consulted before).take m).map (Entity.ofAnswer provider)) ∧
      (∀ key, (t'.find? key).map Row.refresh = (t.find? key).map Row.refresh) ∧
      (∀ client ∈ clients.drop m, t'.find? (client, provider) = t.find? (client, provider)) ∧
      ∀ client, e.call = .fetch client → t'.find? (client, provider) = t.find? (client, provider)
    := by
  intro provider t t' clients
  obtain ⟨before, e, m, hsteps, hbefore, he, hbreakdown, hstored⟩ := breakdown_of_aborted env h
  have hclients := hbreakdown.take_asked
  have hwritten : stored (env.steps l s) =
      ((consulted before).take m).map (Entity.ofAnswer provider) := by
    rw [hsteps, stored_append, stored_of_failed he, List.append_nil, hstored]
  have hlength : (stored (env.steps l s)).length = m := by
    rw [hwritten, List.length_map, List.length_take, Nat.min_eq_left hbreakdown.le_length]
  have ht' : t' = t.upsert (((consulted before).take m).map (Entity.ofAnswer provider)) :=
    hwritten ▸ (account_launch env l s).stopped (by rw [h]; nofun)
  have hkey : ∀ record ∈ ((consulted before).take m).map (Entity.ofAnswer provider),
      ∃ client ∈ clients.take m, Record.key (record : ρ) = (client, provider) := by
    intro record hrecord
    obtain ⟨asked, hasked, rfl⟩ := List.mem_map.mp hrecord
    exact ⟨asked.1, hclients ▸ List.mem_map_of_mem hasked, Entity.key_ofAnswer provider asked⟩
  have hdrop : ∀ client ∈ clients.drop m,
      t'.find? (client, provider) = t.find? (client, provider) := by
    intro client hclient
    rw [ht']
    exact find?_upsert_of_mem_drop hs hkey hclient
  have hrefresh : ∀ key, (t'.find? key).map Row.refresh = (t.find? key).map Row.refresh := by
    intro key
    rw [ht']
    exact refresh_find?_upsert_of_listed hs hkey key
  exact ⟨before, e, m, hsteps, hbefore, he, hbreakdown, hclients, hlength, ht', hrefresh, hdrop,
    fun client hcall => hdrop client (hbreakdown.mem_drop hcall)⟩

/-- Against the store whose second writing fails, the row of the first client is written. -/
theorem aborted_run_keeps_batches_oneUnknownClient :
    oneUnknownClient.table.Sorted ∧
      (MemoryStore.backend.launch (.usual 1) oneUnknownClient).1.outcome = .aborted ∧
      (MemoryStore.backend.table (MemoryStore.backend.launch (.usual 1) oneUnknownClient).2).find?
        ("b", upswingProvider) = oneUnknownClient.table.find? ("b", upswingProvider) := by
  have hs : oneUnknownClient.table.Sorted := by decide
  have h : (MemoryStore.backend.launch (.usual 1) oneUnknownClient).1.outcome = .aborted := by
    decide
  obtain ⟨before, e, m, -, -, -, -, -, hlength, -, -, hdrop, -⟩ :=
    aborted_run_keeps_batches MemoryStore.backend (s := oneUnknownClient) hs h
  obtain rfl : m = 1 := hlength.symm.trans (by decide)
  exact ⟨hs, h, hdrop "b" (by decide)⟩

end DepositSync
