import DepositSync.Proofs.Account

/-!
# DepositSync.Proofs.RefreshRequests

Requests for a refresh come from outside, at any moment, also while a run is under way. An instant
run lists the clients with a request, asks the vendor about each of them, and clears the requests of
those that it listed. What happens is told by a timeline, in which the requests stand between the
calls of the run.

A request that is cleared was there when the clients were listed, and stayed until it was cleared;
so the vendor was asked about the client after the request was made (`clears_after_fetch`). There is
one exception: that a request is made once more leaves no mark on a row that has one, so that it goes
unnoticed when it is made after the vendor was asked (`repeated_request_is_lost`).
-/

namespace DepositSync

open Sql (grouped)

variable {ν ρ σ : Type}

/-! ### Requests in a table -/

namespace Table

section

variable [Record ρ]

/-- Is a refresh asked for in the row of this key? -/
def isRequested (t : Table ρ) (key : String × String) : Bool :=
  (t.find? key).any Row.refresh

theorem isRequested_iff {t : Table ρ} {key : String × String} :
    t.isRequested key = true ↔ ∃ row, t.find? key = some row ∧ row.refresh = true := by
  rw [isRequested, Option.any_eq_true]

theorem isRequested_setRefresh {t : Table ρ} {key : String × String}
    (h : t.isRequested key = true) (client provider : String) :
    (t.setRefresh client provider true).isRequested key = true := by
  obtain ⟨row, hrow, hrefresh⟩ := isRequested_iff.mp h
  rw [isRequested, find?_setRefresh, hrow, Option.map_some, Option.any_some]
  split
  · rfl
  · exact hrefresh

variable [LawfulRecord ρ]

/-- A row that is written over keeps its request. -/
theorem isRequested_upsert {t : Table ρ} {key : String × String}
    (h : t.isRequested key = true) (records : List ρ) :
    (t.upsert records).isRequested key = true := by
  induction records generalizing t with
  | nil => exact h
  | cons record rest ih =>
      refine ih ?_
      obtain ⟨row, hrow, hrefresh⟩ := isRequested_iff.mp h
      rw [isRequested, find?_upsertOne, hrow]
      split <;> exact hrefresh

/-- Requests that are cleared are those of the clients named. -/
theorem isRequested_mark {t : Table ρ} {key : String × String} (h : t.isRequested key = true)
    {actor provider : String} {clients : List String}
    (hcleared : (t.mark actor provider clients).isRequested key = false) :
    key.1 ∈ clients ∧ key.2 = provider := by
  obtain ⟨row, hrow, hrefresh⟩ := isRequested_iff.mp h
  obtain rfl := key_of_find? hrow
  rw [isRequested, find?_mark, hrow, Option.map_some, Option.any_some, marked] at hcleared
  split at hcleared
  · next hnamed => exact ⟨hnamed.2, hnamed.1⟩
  · rw [hrefresh] at hcleared
    cases hcleared

omit [LawfulRecord ρ] in
theorem isRequested_of_mem_list {t : Table ρ} (ht : t.Sorted) {client provider : String}
    (h : client ∈ t.list provider true) : t.isRequested (client, provider) = true := by
  obtain ⟨row, hrow, -, hrefresh⟩ := (mem_list ht).mp h
  exact isRequested_iff.mpr ⟨row, hrow, hrefresh rfl⟩

end

end Table

/-! ### Requests from outside -/

/-- A backend in whose table others make requests. -/
structure OpenBackend (ν ρ σ : Type) [Entity ν ρ] extends Backend ν ρ σ where
  /-- Someone asks for a refresh. -/
  request : String × String → σ → σ
  request_eq : ∀ (key : String × String) (s : σ),
    table (request key s) = (table s).setRefresh key.1 key.2 true

/-- The store of one job, in which requests are made. -/
def MemoryStore.openBackend [Entity ν ρ] : OpenBackend ν ρ (MemoryStore ν ρ) where
  toBackend := MemoryStore.backend
  request key s := { s with table := s.table.setRefresh key.1 key.2 true }
  request_eq _ _ := rfl

/-- The requests that arrive before each call of a run. -/
abbrev Arrivals := List (List (String × String))

/-- What happens while a run is under way. -/
inductive Event (ν ρ σ : Type) where
  | request (key : String × String)
  | call (e : RunStep ν ρ σ)

/-- The requests and the calls, in their order. -/
def timeline (arrivals : Arrivals) : List (RunStep ν ρ σ) → List (Event ν ρ σ)
  | [] => []
  | e :: rest => (arrivals.headD []).map .request ++ .call e :: timeline arrivals.tail rest

theorem timeline_append (arrivals : Arrivals) (l l' : List (RunStep ν ρ σ)) :
    timeline arrivals (l ++ l') = timeline arrivals l ++ timeline (arrivals.drop l.length) l' := by
  induction l generalizing arrivals with
  | nil => rfl
  | cons e rest ih =>
      rw [List.cons_append, timeline, ih, timeline, List.append_assoc, List.length_cons,
        List.drop_tail]
      rfl

/-- A call on the timeline is one of the run; before it are the calls before, and the requests that
have arrived since. -/
theorem split_timeline {arrivals : Arrivals} {steps : List (RunStep ν ρ σ)} {e : RunStep ν ρ σ}
    {past future : List (Event ν ρ σ)} (h : timeline arrivals steps = past ++ .call e :: future) :
    ∃ before later, ∃ keys : List (String × String), steps = before ++ e :: later ∧
      past = timeline arrivals before ++ keys.map .request := by
  induction steps generalizing arrivals past with
  | nil => simp [timeline] at h
  | cons first rest ih =>
      rcases append_cons_eq_append h with ⟨tail, hrequests⟩ | ⟨middle, rfl, hmiddle⟩
      · -- a call is not one of the requests
        have hmem : Event.call e ∈ (arrivals.headD []).map Event.request :=
          hrequests ▸ List.mem_append_right _ (List.mem_cons_self ..)
        obtain ⟨key, -, hkey⟩ := List.mem_map.mp hmem
        cases hkey
      · cases middle with
        | nil =>
            obtain ⟨hfirst, -⟩ := List.cons.inj hmiddle
            obtain rfl := Event.call.inj hfirst
            exact ⟨[], rest, arrivals.headD [], rfl, List.append_nil _⟩
        | cons _ middle =>
            obtain ⟨rfl, hrest⟩ := List.cons.inj hmiddle
            obtain ⟨before, later, keys, rfl, rfl⟩ := ih hrest
            refine ⟨first :: before, later, keys, rfl, ?_⟩
            rw [timeline, List.append_assoc, List.cons_append]

theorem mem_timeline {arrivals : Arrivals} {steps : List (RunStep ν ρ σ)} {e : RunStep ν ρ σ}
    (h : .call e ∈ timeline arrivals steps) : e ∈ steps := by
  obtain ⟨past, future, hsplit⟩ := List.append_of_mem h
  obtain ⟨before, later, keys, rfl, -⟩ := split_timeline hsplit
  exact List.mem_append_right _ (List.mem_cons_self ..)

theorem exists_split_timeline (arrivals : Arrivals) {steps : List (RunStep ν ρ σ)}
    {e : RunStep ν ρ σ} (h : e ∈ steps) :
    ∃ past future, timeline arrivals steps = past ++ .call e :: future := by
  obtain ⟨before, later, rfl⟩ := List.append_of_mem h
  rw [timeline_append, timeline, ← List.append_assoc]
  exact ⟨_, _, rfl⟩

variable [Entity ν ρ]

/-- What an event does to the table. -/
def Event.effect : Event ν ρ σ → Table ρ → Table ρ
  | request key, t => t.setRefresh key.1 key.2 true
  | call e, t => if e.failed Call.fails then t else e.call.effect t

/-- The table after events. -/
def happened (events : List (Event ν ρ σ)) (t : Table ρ) : Table ρ :=
  events.foldl (fun t event => event.effect t) t

theorem happened_append (events more : List (Event ν ρ σ)) (t : Table ρ) :
    happened (events ++ more) t = happened more (happened events t) :=
  List.foldl_append

namespace OpenBackend

variable (env : OpenBackend ν ρ σ)

/-- The state after requests. -/
def requested (keys : List (String × String)) (s : σ) : σ :=
  keys.foldl (fun s key => env.request key s) s

/-- Answers a call after the requests that arrive before it. -/
def amid (c : Call ν ρ) (s : σ × Arrivals) : c.Answer × (σ × Arrivals) :=
  let (answer, after) := env.answer c (env.requested (s.2.headD []) s.1)
  (answer, (after, s.2.tail))

theorem table_requested {τ : Type} (keys : List (String × String)) (s : σ) :
    env.table (env.requested keys s) =
      happened (keys.map .request : List (Event ν ρ τ)) (env.table s) := by
  induction keys generalizing s with
  | nil => rfl
  | cons key rest ih =>
      rw [requested, List.foldl_cons, ← requested, ih, env.request_eq]
      rfl

/-- After a call, what is left to happen goes on from the table that the call left. -/
theorem happened_call (c : Call ν ρ) (s : σ) (arrivals : Arrivals)
    (rest : List (RunStep ν ρ (σ × Arrivals))) :
    happened (timeline arrivals
        (⟨c, (env.amid c (s, arrivals)).1, (env.amid c (s, arrivals)).2⟩ :: rest)) (env.table s) =
      happened (timeline arrivals.tail rest) (env.table (env.amid c (s, arrivals)).2.1) := by
  have hcall := env.table_eq c (env.requested (arrivals.headD []) s)
  rw [env.table_requested (τ := σ × Arrivals)] at hcall
  rw [timeline, happened_append]
  exact congrArg (happened (timeline arrivals.tail rest)) hcall.symm

/-- The table after a call is what the events so far have made of it. -/
theorem table_amid {α : Type} {p : Program (Call ν ρ) Call.Answer α} {s : σ} {arrivals : Arrivals}
    {e : RunStep ν ρ (σ × Arrivals)} {before later : List (RunStep ν ρ (σ × Arrivals))}
    (h : p.trace env.amid (s, arrivals) = before ++ e :: later) :
    env.table e.after.1 = happened (timeline arrivals (before ++ [e])) (env.table s) := by
  induction p generalizing s arrivals before with
  | done a => simp at h
  | call c next ih =>
      rw [Program.trace_call] at h
      cases before with
      | nil =>
          obtain ⟨rfl, -⟩ := List.cons.inj h
          rw [List.nil_append, happened_call]
          rfl
      | cons first before =>
          obtain ⟨rfl, hrest⟩ := List.cons.inj h
          rw [List.cons_append, happened_call]
          exact ih _ hrest

end OpenBackend

/-- Does the event leave requests as they are, or make some? Only clearing them and the cleanup do
not. -/
def Event.keepsRequests : Event ν ρ σ → Prop
  | call ⟨.mark _ _, _, _⟩ | call ⟨.delete, _, _⟩ => False
  | _ => True

section

variable [LawfulRecord ρ] {event : Event ν ρ σ} {t : Table ρ} {key : String × String}

theorem Event.isRequested_effect (hkeeps : event.keepsRequests) (h : t.isRequested key = true) :
    (event.effect t).isRequested key = true := by
  match event with
  | .request asked => exact Table.isRequested_setRefresh h asked.1 asked.2
  | .call ⟨.list _ _, _, _⟩ | .call ⟨.fetch _, _, _⟩ =>
      rw [Event.effect]
      split <;> exact h
  | .call ⟨.upsert rows, .ok _, _⟩ => exact Table.isRequested_upsert h rows
  | .call ⟨.upsert _, .error _, _⟩ => exact h

theorem isRequested_happened {events : List (Event ν ρ σ)}
    (hkeeps : ∀ event ∈ events, event.keepsRequests) (h : t.isRequested key = true) :
    (happened events t).isRequested key = true := by
  induction events generalizing t with
  | nil => exact h
  | cons event rest ih =>
      exact ih (fun event hevent => hkeeps event (List.mem_cons_of_mem _ hevent))
        (Event.isRequested_effect (hkeeps event (List.mem_cons_self ..)) h)

omit [LawfulRecord ρ] in
theorem OpenBackend.sorted_requested (env : OpenBackend ν ρ σ) {s : σ} (hs : (env.table s).Sorted)
    (keys : List (String × String)) : (env.table (env.requested keys s)).Sorted := by
  induction keys generalizing s with
  | nil => exact hs
  | cons key rest ih => exact ih (env.request_eq key s ▸ hs.setRefresh key.1 key.2 true)

end

omit [Entity ν ρ] in
theorem keepsRequests_timeline {steps : List (RunStep ν ρ σ)}
    (h : ∀ e ∈ steps, (Event.call e).keepsRequests) (arrivals : Arrivals)
    (keys : List (String × String)) :
    ∀ event ∈ timeline arrivals steps ++ keys.map .request, event.keepsRequests := by
  intro event hevent
  match event with
  | .request _ => trivial
  | .call e =>
      rcases List.mem_append.mp hevent with hcall | hkey
      · exact h e (mem_timeline hcall)
      · obtain ⟨_, -, hrequest⟩ := List.mem_map.mp hkey
        cases hrequest

/-! ### Where a run clears requests -/

theorem keepsRequests_of_mem {provider : String} {instantOnly : Bool}
    {groups : List (List (String × Except VendorError ν))} {e : RunStep ν ρ σ}
    (h : e.call ∈ .list provider instantOnly :: groups.flatMap (Ideal.batchCalls provider)) :
    (Event.call e).keepsRequests := by
  obtain ⟨call, answer, after⟩ := e
  rcases List.mem_cons.mp h with hlist | hbatch
  · obtain rfl : call = _ := hlist
    trivial
  · rcases fetch_or_upsert_of_mem hbatch with ⟨client, hfetch⟩ | ⟨rows, hupsert⟩
    · obtain rfl : call = _ := hfetch
      trivial
    · obtain rfl : call = _ := hupsert
      trivial

/-- A call of an instant run that leaves fewer requests comes last: the clients were listed, and the
vendor was asked about all of them. -/
theorem before_clearing (handle : (c : Call ν ρ) → σ → c.Answer × σ) {provider : String}
    {batchSize : Nat} {s : σ} {before later : List (RunStep ν ρ σ)} {e : RunStep ν ρ σ}
    (h : (Run.execute provider batchSize .instant : Run ν ρ).trace handle s = before ++ e :: later)
    (he : ¬(Event.call e).keepsRequests) :
    ∃ clients middle,
      (handle (.list provider true) s).1 = .ok clients ∧ e.call = .mark provider clients ∧
      before = ⟨.list provider true, .ok clients, (handle (.list provider true) s).2⟩ :: middle ∧
      (∀ e ∈ middle, (Event.call e).keepsRequests) ∧
      (consulted middle).map Prod.fst = clients ∧ middle.any (Step.failed Call.fails) = false := by
  rw [trace_execute] at h
  have hclean := not_any_of_throughFirst h
  obtain ⟨rest, hideal⟩ := throughFirst_isPrefix (Step.failed Call.fails)
    ((Ideal.run provider batchSize .instant : Program _ _ Unit).trace handle s)
  rw [h, List.append_assoc, List.cons_append] at hideal
  obtain ⟨hasked, hcalls⟩ := Ideal.trace_run (ρ := ρ) handle provider batchSize .instant s
  have hhead : ∃ tail, (Ideal.run provider batchSize .instant).trace handle s =
      ⟨.list provider true, (handle (.list provider true) s).1,
        (handle (.list provider true) s).2⟩ :: tail := ⟨_, rfl⟩
  rw [← hideal] at hasked hcalls hhead
  rw [List.map_append, List.map_cons] at hcalls
  rcases append_cons_eq_append hcalls.symm with ⟨tail, hmem⟩ | ⟨tail, hbefore, hlast⟩
  · have hcall : e.call ∈ before.map Step.call ++ e.call :: tail :=
      List.mem_append_right _ (List.mem_cons_self ..)
    rw [← hmem] at hcall
    exact absurd (keepsRequests_of_mem hcall) he
  -- the call is the last one of the ideal run
  obtain ⟨rfl, hmark, hnothing⟩ :
      tail = [] ∧ e.call = Ideal.lastCall .instant provider _ ∧ later ++ rest = [] := by
    cases tail with
    | nil =>
        obtain ⟨hmark, hnothing⟩ := List.cons.inj hlast
        exact ⟨rfl, hmark.symm, List.map_eq_nil_iff.mp hnothing.symm⟩
    | cons _ tail => simp at hlast
  have hkeeps (e : RunStep ν ρ σ) (he : e ∈ before) : (Event.call e).keepsRequests := by
    have hcall := List.mem_map_of_mem (f := Step.call) he
    rw [hbefore, List.append_nil] at hcall
    exact keepsRequests_of_mem hcall
  rw [hnothing] at hasked hhead
  rw [consulted_append, (reading_lastCall hmark).1, List.append_nil] at hasked
  cases before with
  | nil => cases hbefore
  | cons first middle =>
      obtain ⟨_, hfirst⟩ := hhead
      obtain ⟨rfl, -⟩ := List.cons.inj hfirst
      rw [List.any_cons, Bool.or_eq_false_iff] at hclean
      rw [consulted_list] at hasked
      cases hlisting : (handle (.list provider true) s).1 with
      | error error =>
          rw [hlisting] at hclean
          cases hclean.1
      | ok clients =>
          have hclients : (handle (.list provider RefreshMode.instant.isInstant) s).1 =
            .ok clients := hlisting
          rw [hclients] at hasked hmark
          exact ⟨clients, middle, rfl, hmark, rfl, fun e he => hkeeps e (List.mem_cons_of_mem _ he),
            hasked, hclean.2⟩

/-! ### Requests are served before they are cleared -/

section

variable [LawfulRecord ρ] (env : OpenBackend ν ρ σ)

/-- A request that the run clears. -/
theorem OpenBackend.cleared {provider : String} {batchSize : Nat} {s : σ}
    (hs : (env.table s).Sorted) {arrivals : Arrivals}
    {past future : List (Event ν ρ (σ × Arrivals))} {e : RunStep ν ρ (σ × Arrivals)}
    {key : String × String}
    (h : timeline arrivals ((Run.execute provider batchSize .instant : Run ν ρ).trace env.amid
      (s, arrivals)) = past ++ .call e :: future)
    (hasked : (happened past (env.table s)).isRequested key = true)
    (hcleared : (happened (past ++ [.call e]) (env.table s)).isRequested key = false) :
    ∃ clients first listing middle fetch last,
      e.call = .mark provider clients ∧ key.1 ∈ clients ∧ key.2 = provider ∧
      past = first ++ .call listing :: middle ++ .call fetch :: last ∧
      listing.call = .list provider true ∧ fetch.call = .fetch key.1 ∧
      fetch.failed Call.fails = false ∧
      (happened first (env.table s)).isRequested key = true ∧
      ∀ event ∈ .call listing :: middle ++ .call fetch :: last, event.keepsRequests := by
  obtain ⟨before, later, keys, hsteps, rfl⟩ := split_timeline h
  rw [happened_append] at hcleared
  -- the call that clears the request is the last one
  have hkeeps : ¬(Event.call e).keepsRequests := fun hkeeps => by
    rw [isRequested_happened (by simpa using hkeeps) hasked] at hcleared
    cases hcleared
  obtain ⟨clients, middle, hlisting, hmark, rfl, hmiddle, hclients, hclean⟩ :=
    before_clearing env.amid hsteps hkeeps
  obtain ⟨call, answer, after⟩ := e
  obtain rfl : call = .mark provider clients := hmark
  obtain ⟨hmem, hprovider⟩ : key.1 ∈ clients ∧ key.2 = provider := by
    cases answer with
    | ok n => exact Table.isRequested_mark hasked hcleared
    | error error => cases hasked.symm.trans hcleared
  -- the client is one of those that were listed and asked about
  rw [← hclients] at hmem
  obtain ⟨⟨client, reply⟩, hconsulted, rfl⟩ := List.mem_map.mp hmem
  obtain ⟨after', hfetch⟩ := mem_consulted.mp hconsulted
  have hverdict := List.any_eq_false.mp hclean _ hfetch
  have hkept := keepsRequests_timeline hmiddle arrivals.tail keys
  obtain ⟨past, rest, hpast⟩ := exists_split_timeline arrivals.tail hfetch
  rw [hpast, List.append_assoc, List.cons_append] at hkept
  refine ⟨clients, (arrivals.headD []).map .request,
    ⟨.list provider true, .ok clients, (env.amid (.list provider true) (s, arrivals)).2⟩, past,
    ⟨.fetch key.1, reply, after'⟩, rest ++ keys.map .request, rfl, hclients ▸ hmem, hprovider, ?_,
    rfl, rfl, by simpa using hverdict, ?_, ?_⟩
  · rw [timeline, hpast]
    simp only [List.append_assoc, List.cons_append]
  · -- a client that is listed has a request
    have hrequested := env.list_eq provider true _ clients hlisting
    have hsorted := env.sorted_requested hs (arrivals.headD [])
    rw [env.table_requested (τ := σ × Arrivals)] at hrequested hsorted
    subst hprovider
    exact Table.isRequested_of_mem_list hsorted (hrequested ▸ hclients ▸ hmem)
  · intro event hevent
    rcases List.mem_cons.mp hevent with rfl | hevent
    · trivial
    · exact hkept event hevent

/-- **A request is served before it is cleared.** While an instant run is under way, requests may
arrive at any moment. If one of its calls takes the request of a row away, then this is the call that
clears the requests of the clients listed; this client was listed because of its request, and since
then the request was there. The vendor was asked about the client after the clients were listed, and
gave a verdict; so it was asked after the last moment at which a request was made for the row that
had none. -/
theorem clears_after_fetch {s : σ} (hs : (env.table s).Sorted) (settings : ReconciliationSettings)
    (trigger : Trigger) (arrivals : Arrivals) :
    let steps := (reconcile ρ settings trigger .instant).trace env.amid (s, arrivals)
    let t := env.table s
    (∀ before e later, steps = before ++ e :: later →
      env.table e.after.1 = happened (timeline arrivals (before ++ [e])) t) ∧
    ∀ past e future key, timeline arrivals steps = past ++ .call e :: future →
      (happened past t).isRequested key = true →
      (happened (past ++ [.call e]) t).isRequested key = false →
        ∃ clients first listing middle fetch last,
          e.call = .mark settings.provider clients ∧ key.1 ∈ clients ∧ key.2 = settings.provider ∧
          past = first ++ .call listing :: middle ++ .call fetch :: last ∧
          listing.call = .list settings.provider true ∧ fetch.call = .fetch key.1 ∧
          fetch.failed Call.fails = false ∧
          (∀ since later, .call listing :: middle ++ .call fetch :: last = since ++ later →
            (happened (first ++ since) t).isRequested key = true) ∧
          ∀ before later, past = before ++ .request key :: later →
            (happened before t).isRequested key = false → .call fetch ∈ later := by
  intro steps t
  refine ⟨fun before e later hsteps => env.table_amid hsteps, ?_⟩
  intro past e future key htimeline hasked hcleared
  rcases Launch.program_cases (ρ := ρ) ⟨settings, trigger, .instant⟩ with hprogram | hprogram <;>
    rw [Launch.program] at hprogram
  · simp only [steps, hprogram, Program.trace_done, timeline] at htimeline
    simp at htimeline
  simp only [steps, hprogram, Program.trace_map] at htimeline
  obtain ⟨clients, first, listing, middle, fetch, last, hmark, hmem, hprovider, rfl, hlisting,
    hfetch, hverdict, hrequested, hkeeps⟩ := env.cleared hs htimeline hasked hcleared
  have hsince (since later : List (Event ν ρ (σ × Arrivals)))
      (h : .call listing :: middle ++ .call fetch :: last = since ++ later) :
      (happened (first ++ since) t).isRequested key = true := by
    rw [happened_append]
    refine isRequested_happened (fun event hevent => hkeeps event ?_) hrequested
    exact h ▸ List.mem_append_left _ hevent
  refine ⟨clients, first, listing, middle, fetch, last, hmark, hmem, hprovider, rfl, hlisting,
    hfetch, hverdict, hsince, fun before later hbefore hnone => ?_⟩
  rw [List.append_assoc] at hbefore
  rcases append_cons_eq_append hbefore with ⟨tail, rfl⟩ | ⟨since, rfl, hlater⟩
  · -- the request was made before the clients were listed
    rw [List.append_assoc, List.cons_append] at hbefore
    have hrest := (List.cons.inj (List.append_cancel_left hbefore)).2
    rw [← hrest]
    simp
  · rw [hsince since _ hlater] at hnone
    cases hnone

/-- A request for one of two clients arrives before the run: it is served, and cleared. -/
theorem clears_after_fetch_oneRequest :
    let s : MemoryStore NetWorth PortfolioRecord := .usual ["a", "b"] [] []
    let settings : ReconciliationSettings := ⟨true, upswingProvider, 1⟩
    let arrivals : Arrivals := [[("a", upswingProvider)]]
    let steps := (reconcile PortfolioRecord settings .schedule .instant).trace
      MemoryStore.openBackend.amid (s, arrivals)
    s.table.Sorted ∧ ∃ past e future, timeline arrivals steps = past ++ .call e :: future ∧
      (happened past s.table).isRequested ("a", upswingProvider) = true ∧
      (happened (past ++ [.call e]) s.table).isRequested ("a", upswingProvider) = false ∧
      ∃ fetch, .call fetch ∈ past ∧ fetch.call = .fetch "a" := by
  intro s settings arrivals steps
  have hs : s.table.Sorted := by decide
  have htimeline : timeline arrivals steps =
      (timeline arrivals steps).take 4 ++ .call (steps.get ⟨3, by decide⟩) :: [] := rfl
  have hasked : (happened ((timeline arrivals steps).take 4) s.table).isRequested
      ("a", upswingProvider) = true := by decide
  have hcleared : (happened ((timeline arrivals steps).take 4 ++ [.call (steps.get ⟨3, by decide⟩)])
      s.table).isRequested ("a", upswingProvider) = false := by decide
  obtain ⟨_, _, _, _, fetch, _, -, -, -, hpast, -, hfetch, -⟩ :=
    (clears_after_fetch MemoryStore.openBackend (s := s) hs settings .schedule arrivals).2 _ _ _ _
      htimeline hasked hcleared
  refine ⟨hs, _, _, _, htimeline, hasked, hcleared, fetch, ?_, hfetch⟩
  rw [hpast]
  exact List.mem_append_right _ (List.mem_cons_self ..)

end

omit [Entity ν ρ] in
/-- A request at the end comes after every call. -/
theorem mem_of_append_request {past first last : List (Event ν ρ σ)} {key : String × String}
    {e : RunStep ν ρ σ} (h : past ++ [.request key] = first ++ .call e :: last) :
    .request key ∈ last := by
  rcases append_cons_eq_append h with ⟨tail, rfl⟩ | ⟨rest, -, hrest⟩
  · rw [List.append_assoc, List.cons_append] at h
    have hlast := (List.cons.inj (List.append_cancel_left h)).2
    rw [← hlast]
    exact List.mem_append_right _ (List.mem_singleton_self _)
  · cases rest with
    | nil => cases hrest
    | cons _ rest => simp at hrest

/-- A request that is made once more, after the vendor was asked about the client, is cleared with
the first one, and nobody asks the vendor again. A request is cleared as well where the vendor's
answer is no more than a rejection: the row then holds nothing. -/
theorem repeated_request_is_lost :
    (¬∀ (s : MemoryStore NetWorth PortfolioRecord) (settings : ReconciliationSettings)
      (trigger : Trigger) (arrivals : Arrivals), s.table.Sorted →
      ∀ past e future key,
        timeline arrivals ((reconcile PortfolioRecord settings trigger .instant).trace
          MemoryStore.openBackend.amid (s, arrivals)) = past ++ .call e :: future →
        (happened past s.table).isRequested key = true →
        (happened (past ++ [.call e]) s.table).isRequested key = false →
          ∃ first fetch last, past = first ++ .call fetch :: last ∧
            fetch.call = .fetch key.1 ∧ .request key ∉ last) ∧
      let s : MemoryStore NetWorth PortfolioRecord :=
        .usual ["a", "b"] [("b", .error (.api 503 (some "SERVICE_UNAVAILABLE") none))] []
      let settings : ReconciliationSettings := ⟨true, upswingProvider, 2⟩
      let steps := (reconcile PortfolioRecord settings .schedule .instant).trace
        MemoryStore.openBackend.amid (s, [[("b", upswingProvider)]])
      let t := happened (timeline [[("b", upswingProvider)]] steps) s.table
      t.isRequested ("b", upswingProvider) = false ∧
        (t.find? ("b", upswingProvider)).map (fun row => row.record.apiError) =
          some (some "SERVICE_UNAVAILABLE") := by
  refine ⟨fun h => ?_, by decide, by decide⟩
  let s : MemoryStore NetWorth PortfolioRecord := .usual ["a"] [] []
  let key : String × String := ("a", upswingProvider)
  let arrivals : Arrivals := [[key], [], [], [key]]
  let steps := (reconcile PortfolioRecord ⟨true, upswingProvider, 1⟩ .schedule .instant).trace
    MemoryStore.openBackend.amid (s, arrivals)
  have htimeline : timeline arrivals steps =
      ((timeline arrivals steps).take 4 ++ [.request key]) ++
        .call (steps.get ⟨3, by decide⟩) :: [] := rfl
  obtain ⟨first, fetch, last, hpast, -, hnone⟩ :=
    h s ⟨true, upswingProvider, 1⟩ .schedule arrivals (by decide) _ _ _ key htimeline (by decide)
      (by decide)
  exact hnone (mem_of_append_request hpast)

end DepositSync
