import DepositSync.Connected
import DepositSync.Proofs.Account
import DepositSync.Proofs.VendorExchange

/-!
# DepositSync.Proofs.ConnectedRun

What a connected run writes about clients. A run makes every row that it writes of a verdict that it
got on the client (`Grounded`); this is seen from the tree of its calls, where the rows in the buffer
are those for verdicts so far. Connected, the run gets a verdict on a client from the vendor's own
answer to a request for the client's report, and from nothing else. So each row that is sent to the
database goes back to such an answer (`WritesSupported`).
-/

namespace DepositSync

open Http (Request Response)
open Sql (Query)

variable {ν ρ σ α β : Type}

/-! ### Runs write what they were told -/

/-- What an answer tells about a client. -/
def Call.told : (c : Call ν ρ) → c.Answer → List (String × Except VendorError ν)
  | .fetch client, answer => [(client, answer)]
  | _, _ => []

section

variable [Entity ν ρ]

/-- The row is made of one of these answers, which is a verdict. -/
def IsFor (provider : String) (known : List (String × Except VendorError ν)) (row : ρ) : Prop :=
  ∃ asked ∈ known, isVerdict asked.2 = true ∧ row = Entity.ofAnswer provider asked

/-- The rows that a call writes are made of these answers. -/
def Call.WritesFor (provider : String) (known : List (String × Except VendorError ν)) :
    Call ν ρ → Prop
  | .upsert rows => ∀ row ∈ rows, IsFor provider known row
  | _ => True

/-- Every row that is written is made of an answer, which is known or comes before it. -/
def Grounded (provider : String) :
    List (String × Except VendorError ν) → Program (Call ν ρ) Call.Answer α → Prop
  | _, .done _ => True
  | known, .call c next =>
    c.WritesFor provider known ∧ ∀ answer, Grounded provider (c.told answer ++ known) (next answer)

theorem IsFor.mono {provider : String} {known more : List (String × Except VendorError ν)}
    {row : ρ} (h : IsFor provider known row) (hmore : known ⊆ more) : IsFor provider more row := by
  obtain ⟨asked, hasked, hrow⟩ := h
  exact ⟨asked, hmore hasked, hrow⟩

theorem Grounded.bind_done {provider : String} {known : List (String × Except VendorError ν)}
    {p : Program (Call ν ρ) Call.Answer α} (h : Grounded provider known p) (f : α → β) :
    Grounded provider known (p.bind fun a => .done (f a)) := by
  induction p generalizing known with
  | done a => trivial
  | call c next ih => exact ⟨h.1, fun answer => ih answer (h.2 answer)⟩

namespace Run

variable {provider : String} {known : List (String × Except VendorError ν)}

theorem grounded_flush {batch : List ρ} (hbatch : ∀ row ∈ batch, IsFor provider known row)
    (t : Tally) {next : Tally → Run ν ρ} (hnext : ∀ t, Grounded provider known (next t)) :
    Grounded provider known (flush batch t next) := by
  refine ⟨hbatch, fun answer => ?_⟩
  cases answer with
  | ok n => exact hnext _
  | error e => trivial

theorem grounded_finish (mode : RefreshMode) (clients : List String) (t : Tally) :
    Grounded provider known (finish mode provider clients t : Run ν ρ) := by
  cases mode <;>
  · refine ⟨trivial, fun answer => ?_⟩
    cases answer <;> trivial

/-- A row that is put into a buffer of grounded rows is written with them, now or later. -/
theorem grounded_push {row : ρ} (hrow : IsFor provider known row) {buffer : BatchBuffer ρ}
    (hbuffer : ∀ row ∈ buffer.items, IsFor provider known row) (t : Tally)
    {next : BatchBuffer ρ → Tally → Run ν ρ}
    (hnext : ∀ buffer t, (∀ row ∈ buffer.items, IsFor provider known row) →
      Grounded provider known (next buffer t)) :
    Grounded provider known (push row buffer t next) := by
  have hitems : ∀ r ∈ buffer.items ++ [row], IsFor provider known r := by
    intro r hr
    rcases List.mem_append.mp hr with hr | hr
    · exact hbuffer r hr
    · exact List.mem_singleton.mp hr ▸ hrow
  rw [push_eq]
  split
  · exact grounded_flush hitems t fun t => hnext _ t nofun
  · exact hnext _ t hitems

/-- From any client on, if the rows in the buffer are made of what is known. -/
theorem grounded_each {finish : Tally → Run ν ρ}
    (hfinish : ∀ known t, Grounded provider known (finish t)) (clients : List String)
    (buffer : BatchBuffer ρ) (t : Tally)
    (hbuffer : ∀ row ∈ buffer.items, IsFor provider known row) :
    Grounded provider known
      (each provider (fun buffer t => flushRemaining buffer t finish) clients buffer t) := by
  induction clients generalizing known buffer t with
  | nil =>
      rw [each, flushRemaining, BatchBuffer.takeRemaining]
      by_cases hitems : buffer.items.isEmpty
      · simp only [hitems, if_true]
        exact hfinish known t
      · simp only [hitems, Bool.false_eq_true, if_false]
        exact grounded_flush hbuffer t fun t => hfinish known t
  | cons client rest ih =>
      refine ⟨trivial, fun (answer : Except VendorError ν) => ?_⟩
      have hnew {row : ρ} (hverdict : isVerdict answer = true)
          (hrow : row = Entity.ofAnswer provider (client, answer)) :
          IsFor provider ((client, answer) :: known) row :=
        ⟨(client, answer), List.mem_cons_self .., hverdict, hrow⟩
      have hold : ∀ row ∈ buffer.items, IsFor provider ((client, answer) :: known) row :=
        fun row hrow => (hbuffer row hrow).mono (List.subset_cons_self ..)
      cases answer with
      | ok report => exact grounded_push (hnew rfl rfl) hold t fun buffer t h => ih buffer t h
      | error e =>
          cases haborts : e.abortsRun with
          | true =>
              simp only [haborts, if_true]
              trivial
          | false =>
              simp only [haborts, Bool.false_eq_true, if_false]
              exact grounded_push (hnew (by simp [isVerdict, haborts]) rfl) hold _
                fun buffer t h => ih buffer t h

theorem grounded_execute (batchSize : Nat) (mode : RefreshMode) :
    Grounded provider [] (execute provider batchSize mode : Run ν ρ) := by
  refine ⟨trivial, fun (answer : Except StoreError (List String)) => ?_⟩
  cases answer with
  | error e => trivial
  | ok clients => exact grounded_each (fun known t => grounded_finish mode clients t) clients _ _ nofun

end Run

theorem grounded_reconcile (settings : ReconciliationSettings) (trigger : Trigger)
    (mode : RefreshMode) :
    Grounded settings.provider [] (reconcile ρ settings trigger mode) := by
  unfold reconcile
  split
  · trivial
  · exact (Run.grounded_execute settings.batchSize mode).bind_done _

end

/-! ### Connected computations -/

/-- The steps of a computation that calls the world. -/
abbrev WorldStep (σ : Type) := Step WorldCall WorldCall.Answer σ

/-- A step of the vendor's client, as one that calls the world. -/
def Step.outward (e : ClientStep σ) : WorldStep σ :=
  ⟨.vendor e.call, e.answer, e.after⟩

section

variable (world : (c : WorldCall) → σ → c.Answer × σ)

theorem run_ofExchange (p : Exchange α) (s : σ) :
    (World.ofExchange p).run world s = p.run (fun c => world (.vendor c)) s := by
  induction p generalizing s with
  | done a => rfl
  | call c next ih => exact ih _ _

theorem trace_ofExchange (p : Exchange α) (s : σ) :
    (World.ofExchange p).trace world s =
      (p.trace (fun c => world (.vendor c)) s).map Step.outward := by
  induction p generalizing s with
  | done a => rfl
  | call c next ih =>
      rw [Program.trace_call, List.map_cons, ← ih]
      rfl

namespace Connected

/-- The steps of a connected computation. -/
def trace (x : Connected α) (cache : TokenCache) (s : σ) : List (WorldStep σ) :=
  (x cache).run.trace world s

/-- Its result, if it has one, and what it leaves. -/
def result (x : Connected α) (cache : TokenCache) (s : σ) : Option (α × TokenCache) × σ :=
  (x cache).run.run world s

/-- A computation that goes on does so if there is a result to go on with. -/
theorem bind_eq (x : Connected α) (f : α → Connected β) (cache : TokenCache) :
    ((x >>= f) cache).run = (x cache).run.bind fun
      | some (a, cache) => (f a cache).run
      | none => .done none := by
  refine congrArg (Program.bind (x cache).run) (funext fun result => ?_)
  rcases result with _ | ⟨a, cache⟩ <;> rfl

theorem trace_bind (x : Connected α) (f : α → Connected β) (cache : TokenCache) (s : σ) :
    (x >>= f).trace world cache s = x.trace world cache s ++
      match x.result world cache s with
      | (some (a, cache), s) => (f a).trace world cache s
      | (none, _) => [] := by
  rw [trace, bind_eq, Program.trace_bind, trace, result]
  rcases (x cache).run.run world s with ⟨_ | ⟨a, cache⟩, s⟩ <;> rfl

/-- What a use of the vendor's client gives a connected computation. -/
def settled : Held α → Option (Except VendorError α × TokenCache)
  | (cache, .ok a) => some (.ok a, cache)
  | (cache, .error (.vendor e)) => some (.error e, cache)
  | (_, .error .beyondCalendar) => none

theorem exchange_eq (p : TokenCache → Exchange (Held α)) (cache : TokenCache) :
    (exchange p cache).run = (World.ofExchange (p cache)).bind fun held => .done (settled held) := by
  refine (Program.bind_assoc (World.ofExchange (p cache)) (fun a => .done (some a)) _).trans ?_
  refine congrArg (Program.bind (World.ofExchange (p cache))) (funext fun held => ?_)
  rcases held with ⟨cache, (_ | _) | a⟩ <;> rfl

theorem trace_exchange (p : TokenCache → Exchange (Held α)) (cache : TokenCache) (s : σ) :
    (exchange p).trace world cache s =
      ((p cache).trace (fun c => world (.vendor c)) s).map Step.outward := by
  rw [trace, exchange_eq, Program.trace_bind, trace_ofExchange]
  exact List.append_nil _

theorem result_exchange (p : TokenCache → Exchange (Held α)) (cache : TokenCache) (s : σ) :
    (exchange p).result world cache s =
      (settled ((p cache).run (fun c => world (.vendor c)) s).1,
        ((p cache).run (fun c => world (.vendor c)) s).2) := by
  rw [result, exchange_eq, Program.run_bind, run_ofExchange]
  rfl

end Connected

end

/-! ### Rows go back to answers about their clients -/

section

variable (request? : (client token : String) → Option Request)

/-- The vendor gave the answer, in one of these steps, to a request for the client's report. -/
def Received (past : List (WorldStep σ)) (client : String) (answer : Response) : Prop :=
  ∃ token r after, request? client token = some r ∧ ⟨.vendor (.send r), .ok answer, after⟩ ∈ past

variable (read : Json.Tree → Except Json.ReadError ν)

/-- The row goes back to what the vendor answered to a request for the client's report: to the
report, or to a rejection. -/
inductive Supported [Entity ν ρ] (provider : String) (past : List (WorldStep σ)) (row : ρ) :
    Prop where
  | report (client : String) (answer : Response) (report : ν)
      (hreceived : Received request? past client answer)
      (hreport : readAnswer read answer = .ok report)
      (hrow : row = Entity.ofReport client provider report)
  | rejection (client : String) (answer : Response) (body : String)
      (hreceived : Received request? past client answer) (hrejection : IsRejection answer)
      (hbody : answer.text? = some body)
      (hrow : row = Entity.ofError client provider (.ofBody answer.status body))

/-- What a verdict goes back to. -/
def Heard (past : List (WorldStep σ)) (asked : String × Except VendorError ν) : Prop :=
  isVerdict asked.2 = true →
    ∃ answer, Received request? past asked.1 answer ∧ readAnswer read answer = asked.2

/-- Every statement that inserts rows writes rows that go back to answers of the vendor, which came
before it. -/
def WritesSupported (ρ : Type) [Entity ν ρ] [Stored ρ] (provider : String)
    (past steps : List (WorldStep σ)) : Prop :=
  ∀ before e later, steps = before ++ e :: later →
    ∀ i parameters, e.call = .database ⟨.insert i, parameters⟩ →
      ∃ rows : List ρ, e.call = .database (upsertQuery rows) ∧
        ∀ row ∈ rows, Supported request? read provider (past ++ before) row

end

section

variable [Entity ν ρ] [Stored ρ] {request? : (client token : String) → Option Request}
  {read : Json.Tree → Except Json.ReadError ν} {provider : String}
  {past steps more : List (WorldStep σ)}

theorem Heard.mono {asked : String × Except VendorError ν}
    (h : Heard request? read past asked) (hmore : past ⊆ more) :
    Heard request? read more asked := by
  intro hverdict
  obtain ⟨answer, ⟨token, r, after, hr, hmem⟩, hread⟩ := h hverdict
  exact ⟨answer, ⟨token, r, after, hr, hmore hmem⟩, hread⟩

theorem WritesSupported.append (h : WritesSupported request? read ρ provider past steps)
    (hmore : WritesSupported request? read ρ provider (past ++ steps) more) :
    WritesSupported request? read ρ provider past (steps ++ more) := by
  intro before e later hsteps i parameters hcall
  rcases append_cons_eq_append hsteps with ⟨tail, hsteps⟩ | ⟨rest, rfl, hrest⟩
  · exact h before e tail hsteps i parameters hcall
  · rw [← List.append_assoc]
    exact hmore rest e later hrest i parameters hcall

/-- Steps that insert nothing. -/
theorem WritesSupported.ofNone
    (h : ∀ e ∈ steps, ∀ i parameters, e.call ≠ .database ⟨.insert i, parameters⟩) :
    WritesSupported request? read ρ provider past steps := by
  intro before e later hsteps i parameters hcall
  exact absurd hcall (h e (hsteps ▸ List.mem_append_right _ (List.mem_cons_self ..)) i parameters)

theorem WritesSupported.nil : WritesSupported request? read ρ provider past [] :=
  .ofNone fun _ he => absurd he List.not_mem_nil

/-- One statement that writes rows. -/
theorem WritesSupported.ofUpsert {rows : List ρ}
    (h : ∀ row ∈ rows, Supported request? read provider past row)
    (answer : (WorldCall.database (upsertQuery rows)).Answer) (after : σ) :
    WritesSupported request? read ρ provider past
      [⟨.database (upsertQuery rows), answer, after⟩] := by
  intro before e later hsteps i parameters hcall
  cases before with
  | nil =>
      obtain ⟨rfl, -⟩ := List.cons.inj hsteps
      exact ⟨rows, rfl, by rwa [List.append_nil]⟩
  | cons first before => simp at hsteps

omit [Stored ρ] in
/-- A row that is made of what was heard goes back to it. -/
theorem IsFor.supported {known : List (String × Except VendorError ν)} {row : ρ}
    (h : IsFor provider known row) (hknown : ∀ asked ∈ known, Heard request? read past asked) :
    Supported request? read provider past row := by
  obtain ⟨⟨client, verdict⟩, hasked, hverdict, hrow⟩ := h
  obtain ⟨answer, hreceived, hread⟩ := hknown _ hasked hverdict
  cases verdict with
  | ok report => exact .report client answer report hreceived hread hrow
  | error e =>
      have haborts : e.abortsRun = false := by simpa [isVerdict] using hverdict
      obtain ⟨status, code, message, rfl⟩ := VendorError.abortsRun_eq_false.mp haborts
      have hrejection := readAnswer_eq_api_iff.mp ⟨status, code, message, hread⟩
      obtain ⟨-, body, members, hbody, -⟩ := id hrejection
      have herror := hread.symm.trans (readAnswer_of_isRejection hrejection hbody)
      refine .rejection client answer body hreceived hrejection hbody ?_
      rw [hrow, Except.error.inj herror]
      rfl

end

/-! ### Calls of a connected run -/

section

variable (world : (c : WorldCall) → σ → c.Answer × σ) [Entity ν ρ] [Stored ρ]
  (settings : VendorSettings) (read : Json.Tree → Except Json.ReadError ν)
  (url : String → String) (query : String → List (String × String)) (provider : String)

/-- A verdict that a connected run gets goes back to an answer to a request for the client's
report. -/
theorem heard_fetch (client : String) (cache : TokenCache) (s : σ) {verdict : Except VendorError ν}
    {kept : TokenCache} {s' : σ} :
    let x : Connected _ := Connected.exchange (fetchReport settings read (url client) (query client))
    x.result world cache s = (some (verdict, kept), s') →
      Heard (fun client token => reportRequest? settings token (url client) (query client)) read
        (x.trace world cache s) (client, verdict) := by
  intro x hresult hverdict
  obtain ⟨reportSteps, hsteps, hserved⟩ := served_fetchReport settings
    (fun c => world (.vendor c)) read (url client) (query client) cache s
  -- what the last request was answered with was received
  have hanswered (answer : Response) (hlast : (outcomes reportSteps).getLast? = some (.ok answer)) :
      Received (fun client token => reportRequest? settings token (url client) (query client))
        (x.trace world cache s) client answer := by
    obtain ⟨r, after, hmem⟩ := mem_outcomes (List.mem_of_getLast? hlast)
    obtain ⟨-, held, -, -, hr, -⟩ := hserved.signed _ hmem r rfl
    refine ⟨held.value, r, after, hr, ?_⟩
    rw [Connected.trace_exchange, hsteps]
    exact List.mem_map_of_mem (f := Step.outward) (List.mem_append_right _ hmem)
  rw [Connected.result_exchange] at hresult
  generalize (fetchReport settings read (url client) (query client) cache).run _ s = ended
    at hserved hresult
  obtain ⟨⟨kept', report⟩, s''⟩ := ended
  rcases report with (e | -) | a
  · obtain rfl : .error e = verdict := (Prod.mk.inj (Option.some.inj (Prod.mk.inj hresult).1)).1
    have haborts : e.abortsRun = false := by simpa [isVerdict] using hverdict
    obtain ⟨status, code, message, rfl⟩ := VendorError.abortsRun_eq_false.mp haborts
    obtain ⟨answer, hlast, hrejection⟩ := hserved.rejected_iff.mp ⟨status, code, message, rfl⟩
    obtain ⟨-, body, members, hbody, -⟩ := id hrejection
    have herror := hserved.rejection answer body hlast hrejection hbody
    refine ⟨answer, hanswered answer hlast, ?_⟩
    rw [readAnswer_of_isRejection hrejection hbody,
      ← ClientError.vendor.inj (Except.error.inj herror)]
  · cases (Prod.mk.inj hresult).1
  · obtain rfl : .ok a = verdict := (Prod.mk.inj (Option.some.inj (Prod.mk.inj hresult).1)).1
    obtain ⟨answer, hlast, hreport⟩ := hserved.reported a rfl
    exact ⟨answer, hanswered answer hlast, hreport⟩

/-- The connected calls to the store, and those to the vendor, write rows that go back to what was
heard before. -/
theorem writes_answer (c : Call ν ρ) (cache : TokenCache) (s : σ) {past : List (WorldStep σ)}
    {known : List (String × Except VendorError ν)} (hwrites : c.WritesFor provider known) :
    let request? := fun client token => reportRequest? settings token (url client) (query client)
    let x : Connected c.Answer := Connected.answer
      (fun client => fetchReport settings read (url client) (query client)) c
    (∀ asked ∈ known, Heard request? read past asked) →
      WritesSupported request? read ρ provider past (x.trace world cache s) ∧
        ∀ answer kept s', x.result world cache s = (some (answer, kept), s') →
          ∀ asked ∈ c.told answer, Heard request? read (x.trace world cache s) asked := by
  intro request? x hknown
  have hquiet {q : Query} (hq : ∀ i, q.statement ≠ .insert i)
      (answer : (WorldCall.database q).Answer) (after : σ) :
      WritesSupported request? read ρ provider past [⟨.database q, answer, after⟩] := by
    refine .ofNone fun e he i parameters hcall => ?_
    rw [List.mem_singleton.mp he] at hcall
    exact hq i (congrArg Query.statement (WorldCall.database.inj hcall))
  cases c with
  | list p instantOnly =>
      exact ⟨hquiet (fun i h => by cases h) _ _, fun _ _ _ _ _ hasked => nomatch hasked⟩
  | fetch client =>
      have hx : x = Connected.exchange (fetchReport settings read (url client) (query client)) := rfl
      constructor
      · refine .ofNone fun e he i parameters hcall => ?_
        rw [hx, Connected.trace_exchange] at he
        obtain ⟨step, -, rfl⟩ := List.mem_map.mp he
        cases hcall
      · intro answer kept s' hresult asked hasked
        obtain rfl := List.mem_singleton.mp hasked
        exact heard_fetch world settings read url query client cache s hresult
  | upsert rows =>
      refine ⟨?_, fun _ _ _ _ _ hasked => nomatch hasked⟩
      by_cases hrows : rows.isEmpty
      · have hx : x = Connected.session (.done (.ok 0)) := by
          simp only [x, Connected.answer, upsertBatch, hrows, if_true]
        rw [hx]
        exact .nil
      · have hx : x = Connected.session (.execute (upsertQuery rows)) := by
          simp only [x, Connected.answer, upsertBatch, hrows, Bool.false_eq_true, if_false]
        rw [hx]
        exact .ofUpsert (fun row hrow => (hwrites row hrow).supported hknown) _ _
  | mark p clients =>
      refine ⟨?_, fun _ _ _ _ _ hasked => nomatch hasked⟩
      by_cases hclients : clients.isEmpty
      · have hx : x = Connected.session (.done (.ok 0)) := by
          simp only [x, Connected.answer, markRefreshed, hclients, if_true]
        rw [hx]
        exact .nil
      · have hx : x = Connected.session
            (.execute (markQuery ρ (Entity.refresher ρ) p clients)) := by
          simp only [x, Connected.answer, markRefreshed, hclients, Bool.false_eq_true, if_false]
        rw [hx]
        exact hquiet (fun i h => by cases h) _ _
  | delete =>
      exact ⟨hquiet (fun i h => by cases h) _ _, fun _ _ _ _ _ hasked => nomatch hasked⟩

/-- However a computation that makes calls of a run is connected: if it writes nothing but what it
was told, what it writes goes back to answers of the vendor. -/
theorem writes_runM (p : Program (Call ν ρ) Call.Answer α) (cache : TokenCache) (s : σ)
    {past : List (WorldStep σ)} {known : List (String × Except VendorError ν)}
    (hp : Grounded provider known p) :
    let request? := fun client token => reportRequest? settings token (url client) (query client)
    let connected : Connected α := p.runM (Connected.answer
      fun client => fetchReport settings read (url client) (query client))
    (∀ asked ∈ known, Heard request? read past asked) →
      WritesSupported request? read ρ provider past (connected.trace world cache s) := by
  intro request? connected hknown
  induction p generalizing cache s past known with
  | done a => exact .nil
  | call c next ih =>
      obtain ⟨hwrites, hnext⟩ := hp
      obtain ⟨hfirst, htold⟩ := writes_answer world settings read url query provider c cache s
        hwrites hknown
      have hconnected : connected = Connected.answer
          (fun client => fetchReport settings read (url client) (query client)) c >>=
          fun answer => (next answer).runM _ := rfl
      rw [hconnected, Connected.trace_bind]
      refine hfirst.append ?_
      split
      · next answer kept s' hresult =>
        refine ih answer kept s' (hnext answer) fun asked hasked => ?_
        rcases List.mem_append.mp hasked with hasked | hasked
        · exact (htold answer kept s' hresult asked hasked).mono (List.subset_append_right _ _)
        · exact (hknown asked hasked).mono (List.subset_append_left _ _)
      · exact .nil

end

/-! ### Who can condemn a client -/

/-- **Only an answer about a client condemns it.** Whatever the settings, whatever token is kept,
and whatever answers the requests: every use of the vendor's client, one after the other, keeps the
token and the reports apart (`ServedApart`). A report is asked for only after the token step went
well, with the token that is kept then; where it did not, the result is that there is no token, and
the run ends. A client is rejected exactly if the last answer to a request for its report is a
rejection, and no such answer changes which token is kept. So whatever a connected run writes about
a client, a row for a rejection included, goes back to an answer that the vendor gave before to a
request for this client's report. -/
theorem only_reports_condemn (settings : Settings) :
    (∀ (handle : (c : ClientCall) → σ → c.Answer × σ) (services : List Service)
      (cache : TokenCache) (s : σ), ∀ u ∈ uses settings.vendor handle services cache s,
        u.Apart settings.vendor handle) ∧
    ∀ (world : (c : WorldCall) → σ → c.Answer × σ) (trigger : Trigger) (mode : RefreshMode)
      (cache : TokenCache) (s : σ),
      WritesSupported (fun client token => (Inquiry.netWorth client).request? settings.vendor token)
        NetWorth.ofReport PortfolioRecord settings.jobs.portfolio.provider []
        ((Connected.refresh settings .portfolio trigger mode).trace world cache s) ∧
      WritesSupported
        (fun client token => (Inquiry.pendingJourney client).request? settings.vendor token)
        Journey.ofReport PendingJourneyRecord settings.jobs.pendingJourney.provider []
        ((Connected.refresh settings .pendingJourney trigger mode).trace world cache s) := by
  refine ⟨fun handle services cache s u _ => u.apart settings.vendor handle,
    fun world trigger mode cache s => ⟨?_, ?_⟩⟩
  · exact writes_runM world settings.vendor NetWorth.ofReport settings.vendor.netWorthUrlFor
      (fun _ => []) _ _ cache s (grounded_reconcile settings.jobs.portfolio trigger mode) nofun
  · exact writes_runM world settings.vendor Journey.ofReport
      (fun _ => settings.vendor.pendingJourneyUrl) (fun client => [("pci", client)]) _ _ cache s
      (grounded_reconcile settings.jobs.pendingJourney trigger mode) nofun

end DepositSync
