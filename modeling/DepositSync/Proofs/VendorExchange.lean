import DepositSync.Proofs.Trace
import DepositSync.Vendor.Client

/-!
# DepositSync.Proofs.VendorExchange

What the vendor's client does when it is asked for something: which requests it sends, what its
result says about the answers to them, and what becomes of the token that it keeps.

Every use of the client has two parts. In the token step nothing but a token is asked for. Only if
there is one a report is asked for, with requests that are signed with the token kept; what becomes
of these decides on the result and changes nothing about the token (`ServedApart`). The vendor's
rejection of a client is therefore an answer to a request for its report. A rejection in the token
step has the same form, but does not get out of it as what it is.
-/

namespace DepositSync

open Http (Request Response Outcome)

variable {σ α : Type}

/-! ### Reading a trace -/

/-- The steps of a use of the vendor's client. -/
abbrev ClientStep (σ : Type) := Step ClientCall ClientCall.Answer σ

/-- What became of the requests, in their order. -/
def outcomes (steps : List (ClientStep σ)) : List Outcome :=
  steps.filterMap fun
    | ⟨.send _, outcome, _⟩ => some outcome
    | _ => none

@[simp] theorem outcomes_nil : outcomes ([] : List (ClientStep σ)) = [] := rfl

@[simp] theorem outcomes_send (r : Request) (outcome : Outcome) (after : σ)
    (rest : List (ClientStep σ)) :
    outcomes (⟨.send r, outcome, after⟩ :: rest) = outcome :: outcomes rest := rfl

@[simp] theorem outcomes_pause (length : Time.Span) (answer : Unit) (after : σ)
    (rest : List (ClientStep σ)) :
    outcomes (⟨.pause length, answer, after⟩ :: rest) = outcomes rest := rfl

theorem mem_outcomes {steps : List (ClientStep σ)} {outcome : Outcome}
    (h : outcome ∈ outcomes steps) : ∃ r after, ⟨.send r, outcome, after⟩ ∈ steps := by
  obtain ⟨e, he, heq⟩ := List.mem_filterMap.mp h
  match e, heq with
  | ⟨.send r, _, after⟩, rfl => exact ⟨r, after, he⟩

/-- All requests that are sent have the property. -/
def Sends (steps : List (ClientStep σ)) (P : Request → Prop) : Prop :=
  ∀ e ∈ steps, ∀ r, e.call = .send r → P r

theorem Sends.nil (P : Request → Prop) : Sends ([] : List (ClientStep σ)) P := by
  simp [Sends]

theorem Sends.cons {e : ClientStep σ} {steps : List (ClientStep σ)} {P : Request → Prop}
    (he : ∀ r, e.call = .send r → P r) (h : Sends steps P) : Sends (e :: steps) P := by
  intro e' he' r hr
  rcases List.mem_cons.mp he' with rfl | he'
  · exact he r hr
  · exact h e' he' r hr

/-- To look at the clock sends nothing. -/
theorem Sends.now {steps : List (ClientStep σ)} {P : Request → Prop} (h : Sends steps P)
    (time : Time.Moment) (after : σ) : Sends (⟨.now, time, after⟩ :: steps) P :=
  .cons (fun _ hr => ClientCall.noConfusion hr) h

/-- Nor does waiting. -/
theorem Sends.pause {steps : List (ClientStep σ)} {P : Request → Prop} (h : Sends steps P)
    (length : Time.Span) (answer : Unit) (after : σ) :
    Sends (⟨.pause length, answer, after⟩ :: steps) P :=
  .cons (fun _ hr => ClientCall.noConfusion hr) h

theorem Sends.append {steps more : List (ClientStep σ)} {P : Request → Prop} (h : Sends steps P)
    (hmore : Sends more P) : Sends (steps ++ more) P := by
  intro e he
  rcases List.mem_append.mp he with he | he
  · exact h e he
  · exact hmore e he

theorem Sends.mono {steps : List (ClientStep σ)} {P Q : Request → Prop} (h : Sends steps P)
    (hPQ : ∀ r, P r → Q r) : Sends steps Q :=
  fun e he r hr => hPQ r (h e he r hr)

/-! ### Rejections -/

/-- The answer is no success, and its body is an object in JSON. -/
def IsRejection (answer : Response) : Prop :=
  isSuccess answer.status = false ∧
    ∃ body members, answer.text? = some body ∧ Json.Value.ofText body = .ok (.object members)

/-- The error of an answer that is no success is a rejection exactly if the body is an object. -/
theorem ofBody_eq_api_iff {status : Nat} {body : String} :
    (∃ status' code message, VendorError.ofBody status body = .api status' code message) ↔
      ∃ members, Json.Value.ofText body = .ok (.object members) := by
  unfold VendorError.ofBody
  constructor
  · rintro ⟨status', code, message, h⟩
    split at h
    · next members hobject => exact ⟨members, hobject⟩
    · cases h
  · rintro ⟨members, hobject⟩
    rw [hobject]
    exact ⟨_, _, _, rfl⟩

section

variable {read : Json.Tree → Except Json.ReadError α} {answer : Response}

/-- The error of a rejection is the one that its body states. -/
theorem readAnswer_of_isRejection (h : IsRejection answer) {body : String}
    (hbody : answer.text? = some body) :
    readAnswer read answer = .error (.ofBody answer.status body) := by
  simp only [readAnswer, hbody, readBody, h.1, Bool.false_eq_true, if_false]

theorem readAnswer_eq_api_iff :
    (∃ status code message, readAnswer read answer = .error (.api status code message)) ↔
      IsRejection answer := by
  constructor
  · rintro ⟨status, code, message, h⟩
    unfold readAnswer at h
    cases hbody : answer.text? with
    | none =>
        rw [hbody] at h
        cases h
    | some body =>
        simp only [hbody, readBody] at h
        cases hsuccess : isSuccess answer.status with
        | true =>
            -- a success that makes no sense is unreadable, which is no rejection
            rw [hsuccess, if_pos rfl] at h
            split at h <;> cases h
        | false =>
            rw [hsuccess, if_neg Bool.false_ne_true] at h
            obtain ⟨members, hobject⟩ :=
              ofBody_eq_api_iff.mp ⟨status, code, message, Except.error.inj h⟩
            exact ⟨hsuccess, body, members, hbody, hobject⟩
  · intro h
    obtain ⟨-, body, members, hbody, hobject⟩ := id h
    obtain ⟨status, code, message, herror⟩ := ofBody_eq_api_iff.mpr ⟨members, hobject⟩
    exact ⟨status, code, message, by rw [readAnswer_of_isRejection h hbody, herror]⟩

/-- What the result says about the answers to the requests that were sent for it: what the last one
reports, or that this one is a rejection; nothing of the kind otherwise. -/
structure TellsLast (read : Json.Tree → Except Json.ReadError α) (steps : List (ClientStep σ))
    (result : Except VendorError α) : Prop where
  reported : ∀ a, result = .ok a →
    ∃ answer, (outcomes steps).getLast? = some (.ok answer) ∧ readAnswer read answer = .ok a
  rejected_iff : (∃ status code message, result = .error (.api status code message)) ↔
    ∃ answer, (outcomes steps).getLast? = some (.ok answer) ∧ IsRejection answer
  rejection : ∀ answer body, (outcomes steps).getLast? = some (.ok answer) → IsRejection answer →
    answer.text? = some body → result = .error (.ofBody answer.status body)

theorem TellsLast.ofOutcome {steps : List (ClientStep σ)} {outcome : Outcome} (r : Request)
    (h : (outcomes steps).getLast? = some outcome) :
    TellsLast read steps (readOutcome read r outcome) := by
  cases outcome with
  | error e =>
      refine ⟨nofun, ⟨?_, ?_⟩, fun answer body hlast => ?_⟩
      · rintro ⟨_, _, _, hread⟩
        cases hread
      · rintro ⟨answer, hlast, -⟩
        cases h.symm.trans hlast
      · cases h.symm.trans hlast
  | ok answer =>
      have hanswer {other : Response} (hlast : (outcomes steps).getLast? = some (.ok other)) :
          other = answer := (Except.ok.inj (Option.some.inj (h.symm.trans hlast))).symm
      refine ⟨fun a hread => ⟨answer, h, hread⟩, ⟨?_, ?_⟩, ?_⟩
      · exact fun hread => ⟨answer, h, readAnswer_eq_api_iff.mp hread⟩
      · rintro ⟨other, hlast, hrejection⟩
        obtain rfl := hanswer hlast
        exact readAnswer_eq_api_iff.mpr hrejection
      · intro other body hlast hrejection hbody
        obtain rfl := hanswer hlast
        exact readAnswer_of_isRejection hrejection hbody

/-! ### Asking -/

section

variable (handle : (c : ClientCall) → σ → c.Answer × σ)

/-- However often it is tried: it is the same request, and what becomes of it the last time is the
result. -/
theorem trace_sendFrom (b : Backoff) (r : Request) (retries attempt : Nat) (s : σ) :
    let steps := (sendFrom b r retries attempt).trace handle s
    Sends steps (· = r) ∧
      (outcomes steps).getLast? = some ((sendFrom b r retries attempt).run handle s).1 := by
  have hsame : ∀ r', ClientCall.send r = .send r' → r' = r :=
    fun r' hr => (ClientCall.send.inj hr).symm
  induction retries generalizing attempt s with
  | zero => exact ⟨.cons hsame (.nil _), rfl⟩
  | succ retries ih =>
      simp only [sendFrom, Program.trace_call, Program.run_call, outcomes_send]
      cases hretry : isWorthRetrying (handle (.send r) s).1 with
      | true =>
          obtain ⟨hsends, hlast⟩ :=
            ih (attempt + 1) (handle (.pause (b.delay attempt)) (handle (.send r) s).2).2
          simp only [if_true, Program.trace_call, Program.run_call, outcomes_pause]
          refine ⟨.cons hsame (hsends.pause _ _ _), ?_⟩
          rw [List.getLast?_cons, hlast]
          rfl
      | false =>
          simp only [Bool.false_eq_true, if_false, Program.trace_done, Program.run_done]
          exact ⟨.cons hsame (.nil _), rfl⟩

/-- Where something is asked for, no other request is sent, and the result tells the last answer. -/
theorem trace_ask (settings : VendorSettings) (read : Json.Tree → Except Json.ReadError α)
    (request : Option Request) (s : σ) :
    let steps := (ask settings read request).trace handle s
    Sends steps (request = some ·) ∧
      TellsLast read steps ((ask settings read request).run handle s).1 := by
  cases request with
  | none =>
      refine ⟨.nil _, nofun, ⟨?_, ?_⟩, fun answer body hlast => by cases hlast⟩
      · rintro ⟨_, _, _, hresult⟩
        cases hresult
      · rintro ⟨answer, hlast, -⟩
        cases hlast
  | some r =>
      obtain ⟨hsends, hlast⟩ :=
        trace_sendFrom handle settings.backoff r settings.backoff.maxRetries 0 s
      simp only [ask, send, Program.trace_bind, Program.trace_done, List.append_nil,
        Program.run_bind, Program.run_done]
      exact ⟨hsends.mono fun r' hr => congrArg some hr.symm, .ofOutcome r hlast⟩

end

end

/-! ### Requests -/

@[simp] theorem method_withDefault (h : Http.Header) (r : Request) :
    (r.withDefault h).method = r.method := by
  unfold Request.withDefault
  split <;> rfl

theorem mem_headers_withDefault {h header : Http.Header} {r : Request} (hmem : h ∈ r.headers) :
    h ∈ (r.withDefault header).headers := by
  unfold Request.withDefault
  split
  · exact hmem
  · exact List.mem_append_left _ hmem

variable {settings : VendorSettings} {r : Request}

theorem method_baseRequest? {method : Http.Method} {url : String}
    (h : baseRequest? settings method url = some r) : r.method = method := by
  simp only [baseRequest?, Option.bind_eq_bind, Option.bind_eq_some_iff, Option.pure_def] at h
  obtain ⟨url, -, headers, -, h⟩ := h
  obtain rfl := Option.some.inj h
  rfl

/-- Tokens are asked for by posting a form. -/
theorem method_tokenRequest? (h : tokenRequest? settings = some r) : r.method = .post := by
  simp only [tokenRequest?, Option.bind_eq_bind, Option.bind_eq_some_iff, Option.pure_def] at h
  obtain ⟨base, hbase, h⟩ := h
  obtain rfl := Option.some.inj h
  rw [method_withDefault]
  exact (method_withDefault _ base).trans (method_baseRequest? hbase)

/-- Reports are asked for by getting them, with a signature. -/
theorem reportRequest?_eq_some {token url : String} {query : List (String × String)}
    (h : reportRequest? settings token url query = some r) :
    r.method = .get ∧ ⟨"authorization", s!"Bearer {token}"⟩ ∈ r.headers := by
  simp only [reportRequest?, Option.bind_eq_bind, Option.bind_eq_some_iff, Option.pure_def] at h
  obtain ⟨base, hbase, signed, hsigned, h⟩ := h
  obtain ⟨header, hheader, rfl⟩ := Option.map_eq_some_iff.mp hsigned
  obtain rfl := Option.some.inj h
  obtain rfl : header = ⟨"authorization", s!"Bearer {token}"⟩ := by
    unfold Http.Header.ofPair? at hheader
    split at hheader
    · exact (Option.some.inj hheader).symm
    · cases hheader
  refine ⟨?_, mem_headers_withDefault (List.mem_append_right _ (List.mem_singleton_self _))⟩
  rw [method_withDefault]
  show base.method = .get
  exact method_baseRequest? hbase

/-! ### The token step -/

section

variable (settings) (handle : (c : ClientCall) → σ → c.Answer × σ)

theorem sends_fetchToken (s : σ) :
    Sends ((fetchToken settings).trace handle s) (tokenRequest? settings = some ·) := by
  rw [fetchToken, Program.trace_bind]
  refine (trace_ask handle settings TokenGrant.ofJson (tokenRequest? settings) s).1.append ?_
  split
  · exact .nil _
  · exact (Sends.nil _).now _ _

/-- In the token step nothing but a token is asked for. It ends with the token that is kept then;
or it fails, which leaves what was kept. -/
theorem trace_ensureToken (cache : TokenCache) (s : σ) :
    let (kept, issued) := ((ensureToken settings cache).run handle s).1
    Sends ((ensureToken settings cache).trace handle s) (tokenRequest? settings = some ·) ∧
      match issued with
      | .ok issued => ∃ token, kept.held = some token ∧ issued.value = token.value
      | .error _ => kept = cache := by
  simp only [ensureToken, Program.trace_call, Program.run_call, Program.trace_bind,
    Program.run_bind]
  generalize (handle .now s).1 = now
  generalize (handle .now s).2 = s
  unfold TokenCache.issue
  cases hneeded : cache.needsRenewal? now with
  | none => exact ⟨(Sends.nil _).now _ _, rfl⟩
  | some needed =>
      cases needed with
      | false =>
          refine ⟨(Sends.nil _).now _ _, ?_⟩
          cases hheld : cache.held with
          | none => rw [TokenCache.needsRenewal?_of_empty hheld] at hneeded; cases hneeded
          | some token => exact ⟨token, hheld, by simp [TokenCache.value, hheld]⟩
      | true =>
          have hsends := sends_fetchToken settings handle s
          simp only [Program.bind_eq, Program.trace_bind, Program.run_bind]
          generalize ((fetchToken settings).run handle s).1 = fetched
          cases fetched with
          | error e => exact ⟨((hsends.append (.nil _)).append (.nil _)).now _ _, rfl⟩
          | ok token =>
              exact ⟨((hsends.append (.nil _)).append (.nil _)).now _ _, token, rfl, rfl⟩

/-- To make sure that there is a token is the token step, and no more. -/
theorem run_validateToken (cache : TokenCache) (s : σ) :
    (validateToken settings cache).trace handle s =
        (ensureToken settings cache).trace handle s ∧
      ((validateToken settings cache).run handle s).1.1 =
        ((ensureToken settings cache).run handle s).1.1 := by
  rw [validateToken, Program.trace_bind, Program.run_bind]
  exact ⟨List.append_nil _, rfl⟩

/-! ### Reports -/

/-- What happens when a report is asked for, told by the token step and by what is done then. -/
structure ServedApart (settings : VendorSettings) (read : Json.Tree → Except Json.ReadError α)
    (request? : String → Option Request) (tokenSteps reportSteps : List (ClientStep σ))
    (token : Held IssuedToken) (report : Held α) : Prop where
  /-- In the token step nothing but a token is asked for. -/
  tokenOnly : Sends tokenSteps fun r => tokenRequest? settings = some r ∧ r.method = .post
  /-- Afterwards nothing but the report is asked for, and only if there is a token. Every request
  is signed with the token that is kept then. -/
  signed : Sends reportSteps fun r => ∃ issued held, token.2 = .ok issued ∧
    token.1.held = some held ∧ request? held.value = some r ∧ r.method = .get ∧
      ⟨"authorization", s!"Bearer {held.value}"⟩ ∈ r.headers
  /-- If the token step fails, for whatever reason, the report is not asked for, and the result is
  that there is no token, which ends a run. -/
  refused : ∀ e, token.2 = .error (.vendor e) → reportSteps = [] ∧
    report.2 = .error (.vendor (.token e.message)) ∧ (VendorError.token e.message).abortsRun = true
  /-- If it needs a point in time beyond the supported calendar it has no result, and neither has
  the whole. The report is not asked for then either. -/
  lost : token.2 = .error .beyondCalendar → reportSteps = [] ∧ report.2 = .error .beyondCalendar
  /-- A report is in the last answer to a request for it. -/
  reported : ∀ a, report.2 = .ok a →
    ∃ answer, (outcomes reportSteps).getLast? = some (.ok answer) ∧ readAnswer read answer = .ok a
  /-- The client is rejected exactly if the last answer to a request for the report rejects it. -/
  rejected_iff : (∃ status code message, report.2 = .error (.vendor (.api status code message))) ↔
    ∃ answer, (outcomes reportSteps).getLast? = some (.ok answer) ∧ IsRejection answer
  /-- The error is the one that this answer states. -/
  rejection : ∀ answer body, (outcomes reportSteps).getLast? = some (.ok answer) →
    IsRejection answer → answer.text? = some body →
      report.2 = .error (.vendor (.ofBody answer.status body))
  /-- What is kept is what the token step left. -/
  kept : report.1 = token.1

theorem served_fetchReport (read : Json.Tree → Except Json.ReadError α) (url : String)
    (query : List (String × String)) (cache : TokenCache) (s : σ) :
    let tokenStep := ensureToken settings cache
    let whole := fetchReport settings read url query cache
    ∃ reportSteps, whole.trace handle s = tokenStep.trace handle s ++ reportSteps ∧
      ServedApart settings read (reportRequest? settings · url query)
        (tokenStep.trace handle s) reportSteps (tokenStep.run handle s).1
        (whole.run handle s).1 := by
  intro tokenStep whole
  obtain ⟨hsends, hissued⟩ := trace_ensureToken settings handle cache s
  have htokenOnly := hsends.mono fun r hr => And.intro hr (method_tokenRequest? hr)
  simp only [whole, tokenStep, fetchReport, Program.trace_bind, Program.run_bind]
  refine ⟨_, rfl, ?_⟩
  generalize (ensureToken settings cache).run handle s = ended at hissued
  obtain ⟨⟨kept, issued⟩, s⟩ := ended
  cases issued with
  | error e =>
      refine ⟨htokenOnly, .nil _, ?_, ?_, nofun, ⟨?_, ?_⟩, ?_, rfl⟩
      · rintro e' ⟨⟩
        exact ⟨rfl, rfl, rfl⟩
      · rintro ⟨⟩
        exact ⟨rfl, rfl⟩
      · rintro ⟨status, code, message, hreport⟩
        cases e <;> cases hreport
      · rintro ⟨answer, hlast, -⟩
        cases hlast
      · intro answer body hlast
        cases hlast
  | ok issued =>
      obtain ⟨held, hheld, hvalue⟩ := hissued
      obtain ⟨hasks, htells⟩ :=
        trace_ask handle settings read (reportRequest? settings issued.value url query) s
      simp only [Program.trace_bind, Program.run_bind, Program.trace_done, Program.run_done,
        List.append_nil]
      generalize ((ask settings read _).run handle s).1 = result at htells
      refine ⟨htokenOnly, hasks.mono fun r hr => ?_, nofun, nofun, fun a ha => ?_, ?_, ?_, rfl⟩
      · rw [hvalue] at hr
        exact ⟨issued, held, rfl, hheld, hr, reportRequest?_eq_some hr⟩
      · cases result with
        | error e => cases ha
        | ok a' => exact htells.reported a (congrArg Except.ok (Except.ok.inj ha))
      · rw [← htells.rejected_iff]
        constructor
        · rintro ⟨status, code, message, hreport⟩
          cases result with
          | error e => cases hreport; exact ⟨status, code, message, rfl⟩
          | ok a => cases hreport
        · rintro ⟨status, code, message, rfl⟩
          exact ⟨status, code, message, rfl⟩
      · intro answer body hlast hrejection hbody
        rw [htells.rejection answer body hlast hrejection hbody]
        rfl

end

/-! ### Uses of the client -/

/-- What the vendor is asked to report. -/
inductive Inquiry where
  | netWorth (client : String)
  | pendingJourney (client : String)
  deriving DecidableEq, Repr

namespace Inquiry

/-- What it reports. -/
abbrev Report : Inquiry → Type
  | netWorth _ => NetWorth
  | pendingJourney _ => Journey

/-- How a report is read. -/
def read : (q : Inquiry) → Json.Tree → Except Json.ReadError q.Report
  | netWorth _ => NetWorth.ofReport
  | pendingJourney _ => Journey.ofReport

/-- The request for it, signed with a token. -/
def request? (settings : VendorSettings) (token : String) : Inquiry → Option Request
  | netWorth client => reportRequest? settings token (settings.netWorthUrlFor client) []
  | pendingJourney client =>
    reportRequest? settings token settings.pendingJourneyUrl [("pci", client)]

/-- Asks for it. -/
def exchange (settings : VendorSettings) : (q : Inquiry) → TokenCache → Exchange (Held q.Report)
  | netWorth client => fetchNetWorth settings client
  | pendingJourney client => fetchJourney settings client

end Inquiry

theorem served_inquiry (settings : VendorSettings)
    (handle : (c : ClientCall) → σ → c.Answer × σ) (q : Inquiry) (cache : TokenCache) (s : σ) :
    let tokenStep := ensureToken settings cache
    let whole := q.exchange settings cache
    ∃ reportSteps, whole.trace handle s = tokenStep.trace handle s ++ reportSteps ∧
      ServedApart settings q.read (q.request? settings) (tokenStep.trace handle s) reportSteps
        (tokenStep.run handle s).1 (whole.run handle s).1 := by
  cases q with
  | netWorth client => exact served_fetchReport settings handle NetWorth.ofReport _ _ cache s
  | pendingJourney client => exact served_fetchReport settings handle Journey.ofReport _ _ cache s

/-- What the client is used for. -/
inductive Service where
  | report (q : Inquiry)
  | validateToken
  deriving DecidableEq, Repr

/-- One use of the client: what for, and what there was before. -/
structure Use (σ : Type) where
  service : Service
  cache : TokenCache
  before : σ

namespace Use

variable (settings : VendorSettings) (handle : (c : ClientCall) → σ → c.Answer × σ)

/-- What the use leaves. -/
def after (u : Use σ) : TokenCache × σ :=
  match u.service with
  | .report q =>
    let ((cache, _), s) := (q.exchange settings u.cache).run handle u.before
    (cache, s)
  | .validateToken =>
    let ((cache, _), s) := (validateToken settings u.cache).run handle u.before
    (cache, s)

/-- What holds of a use. -/
def Apart (u : Use σ) : Prop :=
  let tokenStep := ensureToken settings u.cache
  let tokenSteps := tokenStep.trace handle u.before
  let token := (tokenStep.run handle u.before).1
  match u.service with
  | .report q =>
    let whole := q.exchange settings u.cache
    ∃ reportSteps, whole.trace handle u.before = tokenSteps ++ reportSteps ∧
      ServedApart settings q.read (q.request? settings) tokenSteps reportSteps token
        (whole.run handle u.before).1
  | .validateToken =>
    let whole := validateToken settings u.cache
    whole.trace handle u.before = tokenSteps ∧
      (Sends tokenSteps fun r => tokenRequest? settings = some r ∧ r.method = .post) ∧
      (whole.run handle u.before).1.1 = token.1

theorem apart (u : Use σ) : u.Apart settings handle := by
  obtain ⟨service, cache, s⟩ := u
  cases service with
  | report q => exact served_inquiry settings handle q cache s
  | validateToken =>
      obtain ⟨hsteps, hkept⟩ := run_validateToken settings handle cache s
      have hsends := (trace_ensureToken settings handle cache s).1
      exact ⟨hsteps, hsends.mono fun r hr => ⟨hr, method_tokenRequest? hr⟩, hkept⟩

end Use

/-- Uses of the client that follow one another. -/
def uses (settings : VendorSettings) (handle : (c : ClientCall) → σ → c.Answer × σ) :
    List Service → TokenCache → σ → List (Use σ)
  | [], _, _ => []
  | service :: rest, cache, s =>
    let u : Use σ := ⟨service, cache, s⟩
    u :: uses settings handle rest (u.after settings handle).1 (u.after settings handle).2

end DepositSync
