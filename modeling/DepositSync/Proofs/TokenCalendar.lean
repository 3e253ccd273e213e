import DepositSync.Proofs.Retries
import Mathlib.Control.Monad.Basic

/-!
# DepositSync.Proofs.TokenCalendar

When a use of the vendor's client comes to nothing, with neither a report nor a failure of the
vendor: a point in time that it needs is beyond the supported calendar (`Use.Lost`).

Two such points are needed, both in the token step. The token in hand is held against the clock and
the margin; a token that is granted lives from its arrival for the lifetime that the vendor states.
The first is only computed when a token is held, the second only when one has to be fetched, so
which of them matters depends on what happened before. `lost_ensureToken_iff` says both for one use.
All that has to be followed from one use to the next is the margin, which stays what the settings
make it (`margin_of_mem_uses`).
-/

namespace DepositSync

open Http (Request Response Outcome)
open Time (Moment)

variable {σ α : Type}

/-! ### Points in time -/

/-- So many nanoseconds later the supported calendar is over, or has not begun. -/
def Time.Moment.Leaves (m : Moment) (ns : Int) : Prop :=
  ¬(Moment.ofNanos (m.toNanos + ns)).InRange

instance (m : Moment) (ns : Int) : Decidable (m.Leaves ns) :=
  inferInstanceAs (Decidable (¬_))

theorem addNanos?_eq_none_iff {m : Moment} {ns : Int} : m.addNanos? ns = none ↔ m.Leaves ns := by
  unfold Moment.addNanos? Moment.Leaves
  simp only [ite_eq_right_iff, reduceCtorEq, imp_false]

/-- The expiry of a grant is out of reach: its lifetime is no length of time that can be added to a
point in time, or leads out of the calendar. -/
def TokenGrant.OutlivesCalendar (g : TokenGrant) (arrival : Moment) : Prop :=
  maxLifetime < g.lifetime ∨ arrival.Leaves (max g.lifetime 0 * Time.nanosPerSecond)

theorem token?_eq_none_iff {g : TokenGrant} {arrival : Moment} :
    g.token? arrival = none ↔ g.OutlivesCalendar arrival := by
  have hlifetime : maxLifetime < max g.lifetime 0 ↔ maxLifetime < g.lifetime := by
    have : 0 ≤ maxLifetime := by decide
    omega
  unfold TokenGrant.token? TokenGrant.OutlivesCalendar
  rw [← hlifetime, ← addNanos?_eq_none_iff]
  simp only [ite_eq_left_iff, Option.map_eq_none_iff]
  exact Classical.or_iff_not_imp_left.symm

/-- The token that is held cannot be held against the clock. -/
theorem needsRenewal?_eq_none_iff {cache : TokenCache} {now : Moment} :
    cache.needsRenewal? now = none ↔ cache.held ≠ none ∧ now.Leaves cache.margin := by
  unfold TokenCache.needsRenewal?
  cases cache.held with
  | none => simp
  | some token => simp [addNanos?_eq_none_iff]

/-- No token is held that lives on beyond the margin. -/
def TokenCache.Stale (cache : TokenCache) (now : Moment) : Prop :=
  ∀ token, cache.held = some token →
    ∃ limit, now.addNanos? cache.margin = some limit ∧ token.expiresAt.le limit = true

theorem needsRenewal?_eq_true_iff {cache : TokenCache} {now : Moment} :
    cache.needsRenewal? now = some true ↔ cache.Stale now := by
  unfold TokenCache.needsRenewal? TokenCache.Stale
  cases cache.held with
  | none => simp
  | some token => simp

/-! ### The token step -/

section

variable (settings : VendorSettings) (handle : (c : ClientCall) → σ → c.Answer × σ)

/-- What is asked for has a value exactly if the last answer states one. -/
theorem ask_eq_ok_iff (read : Json.Tree → Except Json.ReadError α) (request : Option Request)
    (s : σ) (a : α) :
    ((ask settings read request).run handle s).1 = .ok a ↔
      ∃ answer, (outcomes ((ask settings read request).trace handle s)).getLast? =
        some (.ok answer) ∧ readAnswer read answer = .ok a := by
  constructor
  · exact (trace_ask handle settings read request s).2.reported a
  · rintro ⟨answer, hlast, hread⟩
    cases request with
    | none => cases hlast
    | some r =>
        have hsent := (trace_sendFrom handle settings.backoff r settings.backoff.maxRetries 0 s).2
        simp only [ask, send, Program.trace_bind, Program.trace_done, List.append_nil] at hlast
        have hresult := Option.some.inj (hsent.symm.trans hlast)
        simp only [ask, send, Program.run_bind, Program.run_done, hresult]
        exact hread

/-- The vendor, asked for a token, grants one: so its last answer reads. The clock is looked at when
it has arrived. -/
structure Grants (s : σ) (grant : TokenGrant) (arrival : Moment) : Prop where
  answered : ∃ answer,
    (outcomes ((ask settings TokenGrant.ofJson (tokenRequest? settings)).trace handle s)).getLast? =
      some (.ok answer) ∧ readAnswer TokenGrant.ofJson answer = .ok grant
  clock :
    (handle .now ((ask settings TokenGrant.ofJson (tokenRequest? settings)).run handle s).2).1 =
      arrival

theorem lost_fetchToken_iff (s : σ) :
    ((fetchToken settings).run handle s).1 = .error .beyondCalendar ↔
      ∃ grant arrival, Grants settings handle s grant arrival ∧ grant.OutlivesCalendar arrival := by
  have hok := ask_eq_ok_iff settings handle TokenGrant.ofJson (tokenRequest? settings) s
  rw [fetchToken, Program.run_bind]
  constructor
  · intro hlost
    cases hasked : ((ask settings TokenGrant.ofJson (tokenRequest? settings)).run handle s).1 with
    | error e =>
        rw [hasked] at hlost
        cases hlost
    | ok grant =>
        refine ⟨grant, _, ⟨(hok grant).mp hasked, rfl⟩, token?_eq_none_iff.mp ?_⟩
        simp only [hasked, Program.run_call, Program.run_done] at hlost
        split at hlost
        · cases hlost
        · next hnone => exact hnone
  · rintro ⟨grant, arrival, ⟨hanswered, hclock⟩, houtlives⟩
    rw [(hok grant).mpr hanswered]
    simp only [Program.run_call, Program.run_done, hclock, token?_eq_none_iff.mpr houtlives]

/-- The token step is lost in two ways: over the token in hand, or over the one that is granted. -/
theorem lost_ensureToken_iff (cache : TokenCache) (s : σ) :
    ((ensureToken settings cache).run handle s).1.2 = .error .beyondCalendar ↔
      (cache.held ≠ none ∧ (handle .now s).1.Leaves cache.margin) ∨
      (cache.Stale (handle .now s).1 ∧ ∃ grant arrival,
        Grants settings handle (handle .now s).2 grant arrival ∧
          grant.OutlivesCalendar arrival) := by
  simp only [ensureToken, Program.run_call, Program.run_bind]
  generalize (handle .now s).1 = now
  generalize (handle .now s).2 = s
  rw [← needsRenewal?_eq_none_iff, ← needsRenewal?_eq_true_iff, ← lost_fetchToken_iff]
  unfold TokenCache.issue
  cases cache.needsRenewal? now with
  | none => simp
  | some needed =>
      cases needed with
      | false => simp
      | true =>
          simp only [Program.bind_eq, Program.run_bind]
          generalize ((fetchToken settings).run handle s).1 = fetched
          cases fetched <;> simp

/-- A use is lost exactly if its token step is. -/
theorem lost_fetchReport_iff (read : Json.Tree → Except Json.ReadError α) (url : String)
    (query : List (String × String)) (cache : TokenCache) (s : σ) :
    ((fetchReport settings read url query cache).run handle s).1.2 = .error .beyondCalendar ↔
      ((ensureToken settings cache).run handle s).1.2 = .error .beyondCalendar := by
  rw [fetchReport, Program.run_bind]
  generalize (ensureToken settings cache).run handle s = ended
  obtain ⟨⟨kept, issued⟩, s⟩ := ended
  cases issued with
  | error e => cases e <;> simp [ClientError.asTokenFailure]
  | ok token =>
      simp only [Program.run_bind, Program.run_done]
      generalize ((ask settings read _).run handle s).1 = answer
      cases answer <;> simp [Except.mapError]

theorem margin_ensureToken (cache : TokenCache) (s : σ) :
    ((ensureToken settings cache).run handle s).1.1.margin = cache.margin := by
  simp only [ensureToken, Program.run_call, Program.run_bind]
  unfold TokenCache.issue
  cases cache.needsRenewal? (handle .now s).1 with
  | none => rfl
  | some needed =>
      cases needed with
      | false => rfl
      | true =>
          simp only [Program.bind_eq, Program.run_bind]
          cases ((fetchToken settings).run handle (handle .now s).2).1 <;> rfl

end

/-! ### Uses of the client -/

namespace Use

variable (settings : VendorSettings) (handle : (c : ClientCall) → σ → c.Answer × σ)

/-- The use comes to nothing. The result of any other is a report, or that there is a token, or an
error of the vendor. -/
def Lost (u : Use σ) : Prop :=
  match u.service with
  | .report q => ((q.exchange settings u.cache).run handle u.before).1.2 = .error .beyondCalendar
  | .validateToken =>
    ((validateToken settings u.cache).run handle u.before).1.2 = .error .beyondCalendar

theorem lost_iff (u : Use σ) :
    u.Lost settings handle ↔
      ((ensureToken settings u.cache).run handle u.before).1.2 = .error .beyondCalendar := by
  obtain ⟨service, cache, s⟩ := u
  cases service with
  | report q =>
      cases q with
      | netWorth client => exact lost_fetchReport_iff settings handle NetWorth.ofReport _ _ cache s
      | pendingJourney client =>
          exact lost_fetchReport_iff settings handle Journey.ofReport _ _ cache s
  | validateToken =>
      simp only [Lost, validateToken, Program.run_bind, Program.run_done]
      generalize ((ensureToken settings cache).run handle s).1.2 = issued
      cases issued <;> simp [Except.map]

/-- What becomes of the token is decided in the token step. -/
theorem after_cache (u : Use σ) :
    (u.after settings handle).1 = ((ensureToken settings u.cache).run handle u.before).1.1 := by
  have h := u.apart settings handle
  obtain ⟨service, cache, s⟩ := u
  cases service with
  | report q =>
      obtain ⟨reportSteps, -, happart⟩ := h
      exact happart.kept
  | validateToken => exact h.2.2

/-- A use that is lost leaves the token that there was, or none. -/
theorem after_of_lost {u : Use σ} (h : u.Lost settings handle) :
    (u.after settings handle).1 = u.cache := by
  have hfailed := (trace_ensureToken settings handle u.cache u.before).2
  rw [(u.lost_iff settings handle).mp h] at hfailed
  rw [after_cache, hfailed]

end Use

/-- The margin stays what it is from one use to the next. -/
theorem margin_of_mem_uses {settings : VendorSettings}
    {handle : (c : ClientCall) → σ → c.Answer × σ} {services : List Service} {cache : TokenCache}
    {s : σ} {u : Use σ}
    (h : u ∈ uses settings handle services cache s) : u.cache.margin = cache.margin := by
  induction services generalizing cache s with
  | nil => cases h
  | cons service rest ih =>
      rcases List.mem_cons.mp h with rfl | h
      · rfl
      · rw [ih h, Use.after_cache, margin_ensureToken]

/-- The margin of the settings, in nanoseconds. One that cannot be counted in so many milliseconds
counts as none. -/
def VendorSettings.margin (settings : VendorSettings) : Nat :=
  if settings.tokenMarginSeconds * 1000 ≤ Width.maxNat 63 then
    settings.tokenMarginSeconds * Time.nanosPerSecond
  else 0

theorem margin_emptyCache (settings : VendorSettings) :
    settings.emptyCache.margin = settings.margin := by
  have hnanos : (Time.Span.ofSeconds settings.tokenMarginSeconds).nanos =
      settings.tokenMarginSeconds * 1000 * 1000000 := by
    simp only [Time.Span.ofSeconds, Time.Span.of, Time.nanosPerSecond]
    omega
  have hfits : settings.tokenMarginSeconds * 1000 * 1000000 ≤ TokenCache.maxMargin ↔
      settings.tokenMarginSeconds * 1000 ≤ Width.maxNat 63 :=
    Nat.mul_le_mul_right_iff (by decide)
  simp only [VendorSettings.emptyCache, TokenCache.empty, VendorSettings.margin, hnanos, hfits]
  split
  · simp only [Time.nanosPerSecond]
    omega
  · rfl

/-! ### Lost uses -/

/-- **When the client comes to nothing.** Of the uses of a client that follow one another, one is
lost exactly if it finds a token while the margin leads from the clock out of the supported
calendar; or needs a new token, and the vendor grants one whose expiry is out of reach. A use that
is lost leaves what the client holds as it was. -/
theorem use_lost_iff (settings : VendorSettings) (handle : (c : ClientCall) → σ → c.Answer × σ)
    (services : List Service) (s : σ) {u : Use σ}
    (hu : u ∈ uses settings handle services settings.emptyCache s) :
    u.cache.margin = settings.margin ∧
    (u.Lost settings handle ↔
      (u.cache.held ≠ none ∧ (handle .now u.before).1.Leaves settings.margin) ∨
      (u.cache.Stale (handle .now u.before).1 ∧ ∃ grant arrival,
        Grants settings handle (handle .now u.before).2 grant arrival ∧
          grant.OutlivesCalendar arrival)) ∧
    (u.Lost settings handle → (u.after settings handle).1 = u.cache) := by
  have hmargin : u.cache.margin = settings.margin := by
    rw [margin_of_mem_uses hu, margin_emptyCache]
  refine ⟨hmargin, ?_, Use.after_of_lost settings handle⟩
  rw [Use.lost_iff, lost_ensureToken_iff, hmargin]

/-- The settings where nothing is said but a margin of 9·10¹² seconds. The supported calendar is
over before. -/
def wideMargin : VendorSettings :=
  { VendorSettings.standard with tokenMarginSeconds := 9000000000000 }

/-- A world in which every request is answered with this body, at the beginning of 1970. -/
def answering (body : String) : (c : ClientCall) → Nat → c.Answer × Nat :=
  let answer : Response := ⟨200, body.toList.map fun c => UInt8.ofNat c.toNat, true⟩
  scripted (fun _ => .ok answer) ⟨0, 0⟩

/-- The vendor grants a token for an hour. -/
def hourly : (c : ClientCall) → Nat → c.Answer × Nat :=
  answering "\x7b\"access_token\":\"t\",\"expires_in\":3600\x7d"

/-- It grants one for the longest time that an answer can state. -/
def everlasting : (c : ClientCall) → Nat → c.Answer × Nat :=
  answering "\x7b\"access_token\":\"t\",\"expires_in\":9223372036854775807\x7d"

/-- It is made sure that there is a token, where there was none. -/
def firstUse : Use Nat := ⟨.validateToken, wideMargin.emptyCache, 0⟩

/-- And once more, an hour's token having been granted. -/
def secondUse : Use Nat :=
  ⟨.validateToken, (firstUse.after wideMargin hourly).1, (firstUse.after wideMargin hourly).2⟩

theorem cache_secondUse :
    secondUse.cache = ⟨9000000000000 * Time.nanosPerSecond, some ⟨"t", ⟨3600, 0⟩⟩⟩ := by
  decide +kernel

theorem mem_uses_secondUse :
    secondUse ∈ uses wideMargin hourly [.validateToken, .validateToken] wideMargin.emptyCache 0 :=
  List.mem_cons_of_mem firstUse (List.mem_cons_self ..)

theorem use_lost_iff_secondUse :
    secondUse ∈ uses wideMargin hourly [.validateToken, .validateToken] wideMargin.emptyCache 0 ∧
      secondUse.Lost wideMargin hourly ∧
      (secondUse.after wideMargin hourly).1.held = some ⟨"t", ⟨3600, 0⟩⟩ := by
  obtain ⟨-, hlost, hkept⟩ := use_lost_iff wideMargin hourly _ 0 mem_uses_secondUse
  rw [cache_secondUse] at hlost hkept
  have hsecond := hlost.mpr (.inl ⟨Option.some_ne_none _, by decide⟩)
  exact ⟨mem_uses_secondUse, hsecond, by rw [hkept hsecond]⟩

/-- A margin that can be set makes the second use come to nothing, and a lifetime that can be
granted the first one. -/
theorem uses_can_be_lost :
    wideMargin.tokenMarginSeconds ≤ VendorSettings.maxNumber ∧
    (¬∀ u ∈ uses wideMargin hourly [.validateToken, .validateToken] wideMargin.emptyCache 0,
      ¬u.Lost wideMargin hourly) ∧
    ¬∀ u ∈ uses .standard everlasting [.validateToken] VendorSettings.standard.emptyCache 0,
      ¬u.Lost .standard everlasting := by
  refine ⟨by decide, ?_, ?_⟩
  · intro hnone
    refine hnone secondUse mem_uses_secondUse ?_
    rw [Use.lost_iff, lost_ensureToken_iff, cache_secondUse]
    exact .inl ⟨Option.some_ne_none _, by decide⟩
  · intro hnone
    refine hnone _ (List.mem_cons_self ..) ?_
    show ((validateToken .standard VendorSettings.standard.emptyCache).run everlasting 0).1.2 =
      .error .beyondCalendar
    decide +kernel

end DepositSync
