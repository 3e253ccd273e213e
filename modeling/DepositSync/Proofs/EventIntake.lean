import DepositSync.Proofs.Trace
import DepositSync.Rehearsal
import Mathlib.Data.List.Forall2

/-!
# DepositSync.Proofs.EventIntake

Which of the events that are posted get stored. A post whose body can be read takes one of five
courses (`Post.course`): the token is missing, the payload names no client, the tenure makes no
sense, the store fails, or the event is stored. What the store is called with, and what each caller
is told, is read off the five cases; over a sequence of posts the store gets the accepted events, in
the order of the posts.

The body is read before the token is looked at. So a caller without the token is not always told so:
what cannot be read is refused first, with an answer of another kind (`serve_eq_done`). The answers
are told as in `DepositSync.Web.Service`, without the limit on the length of a body and without the
detail in the texts that refuse one.
-/

namespace DepositSync.Web

variable {σ : Type}

/-! ### Presenting the token -/

/-- Where there is a token, the first authorization header, in whatever case its name is written,
consists of visible characters, spaces and tabs, and reads "Bearer " with the token behind it. -/
def Presents (token : Option String) (r : Request) : Prop :=
  ∀ t, token = some t → ∃ before header later, r.headers = before ++ header :: later ∧
    (∀ h ∈ before, Request.lower h.name ≠ "authorization") ∧
    Request.lower header.name = "authorization" ∧
    (∀ b ∈ header.value, (32 ≤ b.toNat ∧ b.toNat ≤ 126) ∨ b.toNat = 9) ∧
    header.value.map (fun b => Char.ofNat b.toNat) = "Bearer ".toList ++ t.toList

theorem header?_eq_some {r : Request} {name : String} {value : List UInt8} :
    r.header? name = some value ↔ ∃ before header later, r.headers = before ++ header :: later ∧
      (∀ h ∈ before, Request.lower h.name ≠ name) ∧ Request.lower header.name = name ∧
      header.value = value := by
  rw [Request.header?, Option.map_eq_some_iff]
  constructor
  · rintro ⟨header, hfind, rfl⟩
    obtain ⟨hname, before, later, hheaders, hbefore⟩ := List.find?_eq_some_iff_append.mp hfind
    exact ⟨before, header, later, hheaders, by simpa using hbefore, by simpa using hname, rfl⟩
  · rintro ⟨before, header, later, hheaders, hbefore, hname, rfl⟩
    refine ⟨header, List.find?_eq_some_iff_append.mpr ⟨?_, before, later, hheaders, ?_⟩, rfl⟩
    · simp [hname]
    · simpa using hbefore

theorem headerText?_eq_some {r : Request} {name text : String} :
    r.headerText? name = some text ↔ ∃ value, r.header? name = some value ∧
      (∀ b ∈ value, (32 ≤ b.toNat ∧ b.toNat ≤ 126) ∨ b.toNat = 9) ∧
      value.map (fun b => Char.ofNat b.toNat) = text.toList := by
  rw [Request.headerText?]
  cases r.header? name with
  | none => simp
  | some value =>
      have hvisible : value.all Request.isVisible = true ↔
          ∀ b ∈ value, (32 ≤ b.toNat ∧ b.toNat ≤ 126) ∨ b.toNat = 9 := by
        simp [Request.isVisible]
      simp [← hvisible, ← String.toList_inj]

theorem isAuthorized_iff {token : Option String} {r : Request} :
    isAuthorized token r = true ↔ Presents token r := by
  cases token with
  | none => simp [isAuthorized, Presents]
  | some t =>
      rw [isAuthorized, beq_iff_eq, headerText?_eq_some, bearer, String.toList_append]
      constructor
      · rintro ⟨value, hvalue, hvisible, htext⟩ t' ht
        obtain rfl := Option.some.inj ht
        obtain ⟨before, header, later, hheaders, hbefore, hname, rfl⟩ := header?_eq_some.mp hvalue
        exact ⟨before, header, later, hheaders, hbefore, hname, hvisible, htext⟩
      · intro h
        obtain ⟨before, header, later, hheaders, hbefore, hname, hvisible, htext⟩ := h t rfl
        exact ⟨header.value,
          header?_eq_some.mpr ⟨before, header, later, hheaders, hbefore, hname, rfl⟩, hvisible, htext⟩

instance (token : Option String) (r : Request) : Decidable (Presents token r) :=
  decidable_of_iff (isAuthorized token r = true) isAuthorized_iff

/-! ### Posts -/

/-- The request is a POST to the place of the events. -/
structure IsPost (r : Request) : Prop where
  method : r.method = "POST"
  path : r.path = webhookPath

theorem IsPost.route {r : Request} (h : IsPost r) : Web.route r = .event := by
  have hplace : place? r.path = some .webhook := by rw [place?, if_pos h.path]
  rw [Web.route, hplace]
  exact if_pos h.method

/-- A post whose body can be read as a payload. -/
structure Post where
  request : Request
  payload : Payload
  isPost : IsPost request
  read : Web.payload request = .ok payload

/-- The event of a payload with this tenure. -/
def eventWith (p : Payload) (tenure : Tenure) : WebhookEvent where
  client := Text.trim p.pci
  vendor := "upswing"
  trackingId := Text.nonBlank p.journeyId
  eventType := Text.nonBlank p.eventType
  institution := Text.nonBlank p.fsi
  depositType := Text.nonBlank p.termDepositType
  amount := p.amount
  tenure := tenure
  failureReason := Text.nonBlank p.reason
  createdBy := "webhook-api"
  updatedBy := "webhook-api"

/-- The post is accepted as this event: its caller presents the token, it names a client, and its
tenure makes sense. -/
structure Post.AcceptedAs (post : Post) (token : Option String) (event : WebhookEvent) : Prop where
  presents : Presents token post.request
  client : Text.trim post.payload.pci ≠ ""
  tenure : Tenure.parse (post.payload.tenure.getD "") = .ok event.tenure
  event : event = eventWith post.payload event.tenure

def Post.accepted? (post : Post) (token : Option String) : Option WebhookEvent :=
  if Presents token post.request ∧ Text.trim post.payload.pci ≠ "" then
    ((Tenure.parse (post.payload.tenure.getD "")).toOption.map (eventWith post.payload))
  else none

theorem Post.accepted?_eq_some {post : Post} {token : Option String} {event : WebhookEvent} :
    post.accepted? token = some event ↔ post.AcceptedAs token event := by
  rw [accepted?]
  constructor
  · intro h
    split at h
    · next hpresents =>
      cases htenure : Tenure.parse (post.payload.tenure.getD "") with
      | error e => simp [htenure, Except.toOption] at h
      | ok tenure =>
          rw [htenure] at h
          obtain rfl := Option.some.inj h
          exact ⟨hpresents.1, hpresents.2, htenure, rfl⟩
    · cases h
  · intro h
    rw [if_pos ⟨h.presents, h.client⟩, h.tenure]
    exact congrArg some h.event.symm

/-! ### Requests that are answered -/

abbrev ServiceStep (σ : Type) := Step ServiceCall ServiceCall.Answer σ

/-- Something that keeps events: it fails to store one and leaves the others alone, or puts it behind
them. -/
structure EventStore (σ : Type) where
  answer : (c : ServiceCall) → σ → c.Answer × σ
  events : σ → List WebhookEvent
  events_eq : ∀ (event : WebhookEvent) (s : σ), events (answer (.save event) s).2 =
    match (answer (.save event) s).1 with
    | .ok () => events s ++ [event]
    | .error _ => events s

/-- A request that was answered: the calls that it took, and the answer. -/
structure Exchange (σ : Type) where
  steps : List (ServiceStep σ)
  response : Response

/-- The event that a step stored. -/
def stored? : ServiceStep σ → Option WebhookEvent
  | ⟨.save event, .ok (), _⟩ => some event
  | _ => none

def EventStore.exchange (store : EventStore σ) (token : Option String) (r : Request) (s : σ) :
    Exchange σ :=
  ⟨(serve token r).trace store.answer s, ((serve token r).run store.answer s).1⟩

/-- Requests that are answered one after another. -/
def EventStore.exchanges (store : EventStore σ) (token : Option String) :
    List Request → σ → List (Exchange σ)
  | [], _ => []
  | r :: rest, s =>
    store.exchange token r s ::
      store.exchanges token rest ((serve token r).run store.answer s).2

theorem trace_store (handle : (c : ServiceCall) → σ → c.Answer × σ) (event : WebhookEvent) (s : σ) :
    (store event).trace handle s =
      [⟨.save event, (handle (.save event) s).1, (handle (.save event) s).2⟩] := by
  rw [store, Program.trace_call]
  cases (handle (.save event) s).1 <;> rfl

theorem run_store (handle : (c : ServiceCall) → σ → c.Answer × σ) (event : WebhookEvent) (s : σ) :
    (store event).run handle s =
      (match (handle (.save event) s).1 with
        | .ok () => .json 200 (.object [])
        | .error e => complaint 500 ("storing webhook event failed: " ++ e.message),
        (handle (.save event) s).2) := by
  rw [store, Program.run_call]
  cases (handle (.save event) s).1 <;> rfl

/-! ### The course of a post -/

/-- The ways in which a post is dealt with: as which event it is accepted, what is exchanged, and
which state is left. -/
inductive Post.Course (post : Post) (token : Option String) (store : EventStore σ) (s : σ) :
    Option WebhookEvent → Exchange σ → σ → Prop where
  | forbidden (h : ¬Presents token post.request) :
      Course post token store s none ⟨[], complaint 403 "invalid token"⟩ s
  | noClient (hpresents : Presents token post.request) (h : Text.trim post.payload.pci = "") :
      Course post token store s none ⟨[], complaint 400 "pci is required"⟩ s
  | badTenure (e : TenureError) (hpresents : Presents token post.request)
      (hclient : Text.trim post.payload.pci ≠ "")
      (h : Tenure.parse (post.payload.tenure.getD "") = .error e) :
      Course post token store s none ⟨[], complaint 400 e.message⟩ s
  | failed (event : WebhookEvent) (h : post.AcceptedAs token event) (e : StoreError) (after : σ)
      (hanswer : store.answer (.save event) s = (.error e, after)) :
      Course post token store s (some event)
        ⟨[⟨.save event, .error e, after⟩],
          complaint 500 ("storing webhook event failed: " ++ e.message)⟩ after
  | stored (event : WebhookEvent) (h : post.AcceptedAs token event) (after : σ)
      (hanswer : store.answer (.save event) s = (.ok (), after)) :
      Course post token store s (some event)
        ⟨[⟨.save event, .ok (), after⟩], .json 200 (.object [])⟩ after

theorem Post.Course.ofStore {post : Post} {token : Option String} {store : EventStore σ} {s : σ}
    {event : WebhookEvent} (h : post.AcceptedAs token event) :
    post.Course token store s (some event)
      ⟨(Web.store event).trace store.answer s, ((Web.store event).run store.answer s).1⟩
      ((Web.store event).run store.answer s).2 := by
  rw [trace_store, run_store]
  cases hanswer : store.answer (.save event) s with
  | mk answer after =>
      cases answer with
      | ok _ => exact .stored event h after hanswer
      | error e => exact .failed event h e after hanswer

theorem Post.course (post : Post) (token : Option String) (store : EventStore σ) (s : σ) :
    post.Course token store s (post.accepted? token) (store.exchange token post.request s)
      ((serve token post.request).run store.answer s).2 := by
  have hserve : serve token post.request = receive token post.request := by
    rw [serve, post.isPost.route]
  rw [EventStore.exchange, hserve, receive, post.read]
  dsimp only
  -- the order of the cases is the order in which the service looks
  by_cases hpresents : Presents token post.request
  · rw [if_pos (isAuthorized_iff.mpr hpresents), Payload.event]
    by_cases hclient : Text.trim post.payload.pci = ""
    · rw [if_pos hclient, accepted?, if_neg fun h => h.2 hclient]
      exact .noClient hpresents hclient
    · rw [if_neg hclient, accepted?, if_pos ⟨hpresents, hclient⟩]
      cases htenure : Tenure.parse (post.payload.tenure.getD "") with
      | error e => exact .badTenure e hpresents hclient htenure
      | ok tenure =>
          have haccepted : post.AcceptedAs token (eventWith post.payload tenure) :=
            ⟨hpresents, hclient, htenure, rfl⟩
          exact .ofStore haccepted
  · rw [if_neg fun h => hpresents (isAuthorized_iff.mp h), accepted?, if_neg fun h => hpresents h.1]
    exact .forbidden hpresents

section Course

variable {post : Post} {token : Option String} {store : EventStore σ} {s s' : σ}
  {accepted : Option WebhookEvent} {x : Exchange σ}

/-- A post takes one call if it is accepted, and none otherwise. -/
theorem Post.Course.calls (h : post.Course token store s accepted x s') :
    x.steps.map Step.call = accepted.toList.map .save := by
  cases h <;> rfl

theorem Post.Course.events (h : post.Course token store s accepted x s') :
    store.events s' = store.events s ++ x.steps.filterMap stored? := by
  cases h with
  | failed event h e after hanswer =>
      have hevents := store.events_eq event s
      rw [hanswer] at hevents
      rw [List.filterMap_cons_none rfl, List.filterMap_nil, List.append_nil]
      exact hevents
  | stored event h after hanswer =>
      have hevents := store.events_eq event s
      rw [hanswer] at hevents
      exact hevents
  | _ => exact (List.append_nil _).symm

end Course

/-! ### Posts one after another -/

/-- The calls and the answer are those that the post asks for. -/
structure Handled (token : Option String) (post : Post) (x : Exchange σ) : Prop where
  /-- The store is called with the event as which the post is accepted, if it is, -/
  called : ∀ event, .save event ∈ x.steps.map Step.call ↔ post.AcceptedAs token event
  /-- and no other call is made. -/
  once : x.steps.length ≤ 1
  forbidden : ¬Presents token post.request → x.response = complaint 403 "invalid token"
  noClient : Presents token post.request → Text.trim post.payload.pci = "" →
    x.response = complaint 400 "pci is required"
  badTenure : ∀ e, Presents token post.request → Text.trim post.payload.pci ≠ "" →
    Tenure.parse (post.payload.tenure.getD "") = .error e → x.response = complaint 400 e.message
  failed : ∀ event e after, ⟨.save event, .error e, after⟩ ∈ x.steps →
    x.response = complaint 500 ("storing webhook event failed: " ++ e.message)
  stored : ∀ event after, ⟨.save event, .ok (), after⟩ ∈ x.steps →
    x.response = .json 200 (.object [])

/-- A post that is not accepted takes no call; it is left to say what answers it. -/
theorem Handled.ofRefusal {token : Option String} {post : Post} {response : Response}
    (hnot : post.accepted? token = none)
    (forbidden : ¬Presents token post.request → response = complaint 403 "invalid token")
    (noClient : Presents token post.request → Text.trim post.payload.pci = "" →
      response = complaint 400 "pci is required")
    (badTenure : ∀ e, Presents token post.request → Text.trim post.payload.pci ≠ "" →
      Tenure.parse (post.payload.tenure.getD "") = .error e → response = complaint 400 e.message) :
    Handled token post (⟨[], response⟩ : Exchange σ) where
  called event := by
    rw [← Post.accepted?_eq_some, hnot]
    simp
  once := Nat.zero_le 1
  forbidden := forbidden
  noClient := noClient
  badTenure := badTenure
  failed _ _ _ hmem := absurd hmem List.not_mem_nil
  stored _ _ hmem := absurd hmem List.not_mem_nil

/-- An accepted post takes one call; it is left to say what answers it. -/
theorem Handled.ofSave {token : Option String} {post : Post} {event : WebhookEvent}
    {response : Response} {answer : Except StoreError Unit} {after : σ}
    (h : post.AcceptedAs token event)
    (failed : ∀ e, answer = .error e →
      response = complaint 500 ("storing webhook event failed: " ++ e.message))
    (stored : answer = .ok () → response = .json 200 (.object [])) :
    Handled token post ⟨[⟨.save event, answer, after⟩], response⟩ where
  called event' := by
    rw [← Post.accepted?_eq_some, Post.accepted?_eq_some.mpr h]
    simp [eq_comm]
  once := Nat.le_refl 1
  forbidden h' := absurd h.presents h'
  noClient _ h' := absurd h' h.client
  badTenure e _ _ h' := by cases h.tenure.symm.trans h'
  failed event' e after' hmem := by
    cases List.mem_singleton.mp hmem
    exact failed e rfl
  stored event' after' hmem := by
    cases List.mem_singleton.mp hmem
    exact stored rfl

theorem Post.handled (post : Post) (token : Option String) (store : EventStore σ) (s : σ) :
    Handled token post (store.exchange token post.request s) := by
  have hcourse := post.course token store s
  generalize haccepted : post.accepted? token = accepted at hcourse
  generalize store.exchange token post.request s = x at hcourse ⊢
  generalize ((serve token post.request).run store.answer s).2 = s' at hcourse
  cases hcourse with
  -- each of the first three cases is excluded by the conditions of the other two
  | forbidden h =>
      exact .ofRefusal haccepted (fun _ => rfl) (fun h' => absurd h' h) (fun _ h' => absurd h' h)
  | noClient hpresents h =>
      exact .ofRefusal haccepted (fun h' => absurd hpresents h') (fun _ _ => rfl)
        (fun _ _ h' => absurd h h')
  | badTenure e hpresents hclient h =>
      refine .ofRefusal haccepted (fun h' => absurd hpresents h') (fun _ h' => absurd h' hclient) ?_
      intro e' _ _ h'
      rw [← Except.error.inj (h.symm.trans h')]
  | failed event h e after _ =>
      refine .ofSave h (fun e' he => ?_) nofun
      rw [Except.error.inj he]
  | stored event h after _ => exact .ofSave h nofun (fun _ => rfl)

/-- **Accepted events are stored, and nothing else.** Whatever the token, whatever the store answers,
and however many posts there are: the store is called for a post exactly if its caller presents the
token, its payload names a client and its tenure makes sense, and then once, with the event of the
payload. The store is called for the accepted posts in their order, and the events that it keeps are
those that it did not fail to store, behind those that were there. A caller without the token is told
so, whatever the payload says; then a blank client counts, then the tenure, then the store. -/
theorem accepted_posts_stored (store : EventStore σ) (token : Option String) (posts : List Post)
    (s : σ) :
    let exchanges := store.exchanges token (posts.map Post.request) s
    let ended := Lane.runAll store.answer (posts.map fun post => serve token post.request) s
    ended.1 = exchanges.map Exchange.response ∧
      List.Forall₂ (Handled token) posts exchanges ∧
      (exchanges.flatMap Exchange.steps).map Step.call =
        (posts.filterMap fun post => post.accepted? token).map .save ∧
      store.events ended.2 =
        store.events s ++ (exchanges.flatMap Exchange.steps).filterMap stored? := by
  induction posts generalizing s with
  | nil => simp [EventStore.exchanges, Lane.runAll]
  | cons post rest ih =>
      obtain ⟨hresponses, hhandled, hcalls, hevents⟩ :=
        ih ((serve token post.request).run store.answer s).2
      have hcourse := post.course token store s
      refine ⟨?_, .cons (post.handled token store s) hhandled, ?_, ?_⟩
      · exact congrArg (_ :: ·) hresponses
      · rw [List.map_cons, EventStore.exchanges, List.flatMap_cons, List.map_append, hcourse.calls,
          hcalls, List.filterMap_cons]
        cases post.accepted? token <;> rfl
      · rw [List.map_cons (f := Post.request), EventStore.exchanges, List.flatMap_cons,
          List.filterMap_append, ← List.append_assoc, ← hcourse.events]
        exact hevents

/-- A POST to the place of the events, with this token and this body. -/
def plainPost (token body : String) : Request where
  method := "POST"
  target := "/webhook/upswing/external/capture/event"
  headers := [⟨"Content-Type", "application/json".toList.map fun c => UInt8.ofNat c.toNat⟩,
    ⟨"Authorization", (bearer token).toList.map fun c => UInt8.ofNat c.toNat⟩]
  body := body.toList.map fun c => UInt8.ofNat c.toNat

theorem payload_eq_ok {r : Request} {p : Payload} (h : (payload r).toOption = some p) :
    payload r = .ok p := by
  cases hread : payload r with
  | ok p' =>
    rw [hread] at h
    exact congrArg Except.ok (Option.some.inj h)
  | error refusal =>
    rw [hread] at h
    cases h

/-- A post that names a client, by a caller with the token. -/
def knownPost : Post where
  request := plainPost "secret" "\x7b\"pci\":\"c\"\x7d"
  payload := { Payload.blank with pci := "c" }
  isPost := ⟨rfl, by decide +kernel⟩
  read := payload_eq_ok (by decide +kernel)

def strangePost : Post where
  request := plainPost "wrong" "\x7b\"pci\":\"c\"\x7d"
  payload := { Payload.blank with pci := "c" }
  isPost := ⟨rfl, by decide +kernel⟩
  read := payload_eq_ok (by decide +kernel)

/-- The service in memory keeps the events that it stores. -/
def rehearsalStore : EventStore Rehearsal where
  answer := Rehearsal.answerService
  events r := r.events
  events_eq event r := by
    simp only [Rehearsal.answerService, Rehearsal.save]
    rcases PlannedFailure.strike? r.eventFailure with ⟨_ | e, left⟩ <;> rfl

/-- The service in memory at its start, asking for a token. -/
def guarded : Rehearsal := .start .standard (some "secret") [] []

theorem accepted_posts_stored_twoPosts :
    let exchanges := rehearsalStore.exchanges (some "secret")
      [strangePost.request, knownPost.request] guarded
    exchanges.head?.map Exchange.response = some (complaint 403 "invalid token") ∧
      (exchanges.flatMap Exchange.steps).map Step.call =
        [.save (eventWith knownPost.payload .zero)] := by
  obtain ⟨-, hhandled, hcalls, -⟩ :=
    accepted_posts_stored rehearsalStore (some "secret") [strangePost, knownPost] guarded
  have haccepted : ([strangePost, knownPost].filterMap fun post => post.accepted? (some "secret")) =
      [eventWith knownPost.payload .zero] := by
    decide +kernel
  constructor
  · have hfirst := (List.forall₂_cons.mp hhandled).1
    exact congrArg some (hfirst.forbidden (by decide +kernel))
  · rw [haccepted] at hcalls
    exact hcalls

/-! ### Callers without the token -/

/-- The answer to a body that cannot be read as a payload. -/
def refusal? (r : Request) : Option Response :=
  match payload r with
  | .error refusal => some refusal
  | .ok _ => none

/-- What cannot be read is refused in plain text, and never with status 403. -/
theorem refusal?_eq_some {r : Request} {refusal : Response} (h : refusal? r = some refusal) :
    refusal.status ∈ [400, 415, 422] ∧ refusal.contentType = some "text/plain; charset=utf-8" := by
  rw [refusal?, payload] at h
  split at h
  · next hread =>
    obtain rfl := Option.some.inj h
    -- the media type is looked at first, then the body
    split at hread
    · cases hbody : (Json.Document.ofBytes r.body).read Payload.ofJson with
      | ok p =>
        rw [hbody] at hread
        cases hread
      | error e =>
        rw [hbody] at hread
        rw [← Except.error.inj hread]
        cases e <;> exact ⟨by decide, rfl⟩
    · rw [← Except.error.inj hread]
      exact ⟨by decide, rfl⟩
  · cases h

/-- A caller without the token takes no call. The answer depends on how far the body can be read. -/
theorem serve_eq_done {token : String} {r : Request} (hr : IsPost r)
    (h : ¬Presents (some token) r) :
    serve (some token) r = .done ((refusal? r).getD (complaint 403 "invalid token")) := by
  rw [serve, hr.route]
  simp only [receive, refusal?]
  cases payload r with
  | error refusal => rfl
  | ok p => exact if_neg fun h' => h (isAuthorized_iff.mp h')

theorem refusal?_ne_forbidden (r : Request) : refusal? r ≠ some (complaint 403 "invalid token") := by
  intro h
  have hmem := (refusal?_eq_some h).1
  revert hmem
  decide

/-- What is refused for the token and what is refused for the body can be told apart. -/
theorem getD_refusal?_inj {r r' : Request}
    (h : (refusal? r).getD (complaint 403 "invalid token") =
      (refusal? r').getD (complaint 403 "invalid token")) : refusal? r = refusal? r' := by
  have hr := refusal?_ne_forbidden r
  have hr' := refusal?_ne_forbidden r'
  cases hrefusal : refusal? r <;> cases hrefusal' : refusal? r' <;> simp_all

/-- **What callers without the token learn.** Whatever they post, nothing is stored and the service
stays as it is. A body that can be read as a payload is answered by saying that the token is invalid.
One that cannot be read is refused before the token is looked at, in plain text and with another
status. So two such callers are told the same exactly if their bodies can be read, or are refused in
the same way. -/
theorem unauthorized_posts_answer (token : String) {r r' : Request} (hr : IsPost r) (hr' : IsPost r')
    (h : ¬Presents (some token) r) (h' : ¬Presents (some token) r') (store : EventStore σ)
    (s s' : σ) :
    let x := store.exchange (some token) r s
    let x' := store.exchange (some token) r' s'
    (x.steps = [] ∧ ((serve (some token) r).run store.answer s).2 = s) ∧
      (refusal? r = none → x.response = complaint 403 "invalid token") ∧
      (∀ refusal, refusal? r = some refusal → x.response = refusal ∧
        refusal.status ∈ [400, 415, 422] ∧
        refusal.contentType = some "text/plain; charset=utf-8") ∧
      (x.response = x'.response ↔ refusal? r = refusal? r') := by
  intro x x'
  have hx : x = ⟨[], (refusal? r).getD (complaint 403 "invalid token")⟩ := by
    simp only [x, EventStore.exchange, serve_eq_done hr h, Program.trace_done, Program.run_done]
  have hx' : x' = ⟨[], (refusal? r').getD (complaint 403 "invalid token")⟩ := by
    simp only [x', EventStore.exchange, serve_eq_done hr' h', Program.trace_done, Program.run_done]
  rw [hx, hx', serve_eq_done hr h]
  refine ⟨⟨rfl, rfl⟩, fun hnone => ?_, fun refusal hsome => ⟨?_, refusal?_eq_some hsome⟩, ?_⟩
  · simp only [hnone, Option.getD_none]
  · simp only [hsome, Option.getD_some]
  · exact ⟨getD_refusal?_inj, fun heq => by rw [heq]⟩

/-- A post of something that is no payload, by a caller without the token. -/
def strayPost : Request := plainPost "wrong" "not json"

theorem unauthorized_posts_answer_strayPost :
    (rehearsalStore.exchange (some "secret") strangePost.request guarded).response =
        complaint 403 "invalid token" ∧
      (rehearsalStore.exchange (some "secret") strayPost guarded).response ≠
        complaint 403 "invalid token" := by
  have hread : refusal? strangePost.request = none := by
    rw [refusal?, strangePost.read]
  have hunread : refusal? strayPost ≠ none := by
    have hpayload : (payload strayPost).toOption = none := by decide +kernel
    rw [refusal?]
    cases hrefused : payload strayPost with
    | error refusal => exact Option.some_ne_none refusal
    | ok p =>
      rw [hrefused] at hpayload
      cases hpayload
  have hpost : IsPost strayPost := ⟨rfl, by decide +kernel⟩
  obtain ⟨-, hforbidden, -, hsame⟩ := unauthorized_posts_answer "secret" strangePost.isPost hpost
    (by decide +kernel) (by decide +kernel) rehearsalStore guarded guarded
  refine ⟨hforbidden hread, fun hstray => hunread ?_⟩
  rw [← hread]
  exact (hsame.mp ((hforbidden hread).trans hstray.symm)).symm

/-- Two callers without the token are told different things. -/
theorem unauthorized_answers_differ :
    ∃ (token : String) (r r' : Request), IsPost r ∧ IsPost r' ∧
      ¬Presents (some token) r ∧ ¬Presents (some token) r' ∧
      (rehearsalStore.exchange (some token) r guarded).response.status = 403 ∧
      (rehearsalStore.exchange (some token) r' guarded).response.status = 400 := by
  refine ⟨"secret", strangePost.request, strayPost, strangePost.isPost, ⟨rfl, by decide +kernel⟩,
    by decide +kernel, by decide +kernel, ?_, ?_⟩
  · decide +kernel
  · decide +kernel

end DepositSync.Web
