import DepositSync.Proofs.TokenSlot
import DepositSync.Vendor.Error

/-!
# DepositSync.Proofs.TokenMargin

How long a token lives on that is handed out again. Calls for the token come one after the other,
with any clocks and any renewals, and each finds the place as the one before it left it. A token that
is not renewed for a call lives on for longer than the margin that the place keeps to, counted from
the clock of that call (`Reuses.outlives`).

The place keeps to the margin that it is made with only if this is not too long, and else to none
(`margin_empty`). That is the one point where a longer margin does less than a shorter one: up to
`TokenCache.maxMargin` the margin asked for is honoured in every sequence of calls, and no margin
beyond it is (`honoured_iff`, `safelyRaised_iff`).
-/

namespace DepositSync

open Time (Moment Span)

/-! ### Points in time as nanoseconds -/

section

variable {a b c : Moment} {ns : Int}

theorem toNanos_ofNanos (ns : Int) : (Moment.ofNanos ns).toNanos = ns := by
  simp only [Moment.ofNanos, Moment.toNanos, Time.nanosPerSecond]
  omega

theorem nanos_ofNanos_lt (ns : Int) : (Moment.ofNanos ns).nanos < Time.nanosPerSecond := by
  simp only [Moment.ofNanos, Time.nanosPerSecond]
  omega

theorem addNanos?_eq_some (h : a.addNanos? ns = some b) :
    b.toNanos = a.toNanos + ns ∧ b.nanos < Time.nanosPerSecond := by
  unfold Moment.addNanos? at h
  simp only [Option.ite_none_right_eq_some, Option.some.injEq] at h
  rw [← h.2]
  exact ⟨toNanos_ofNanos _, nanos_ofNanos_lt _⟩

/-- A point that is not before a full one and does not come after it counts more nanoseconds. -/
theorem toNanos_lt_of_not_le (hb : b.nanos < Time.nanosPerSecond) (h : a.le b = false) :
    b.toNanos < a.toNanos := by
  simp only [Moment.le, Bool.or_eq_false_iff, Bool.and_eq_false_iff, decide_eq_false_iff_not,
    beq_eq_false_iff_ne] at h
  simp only [Moment.toNanos, Time.nanosPerSecond] at *
  omega

theorem le_of_le_of_toNanos_le (hb : b.nanos < Time.nanosPerSecond)
    (hc : c.nanos < Time.nanosPerSecond) (h : a.le b = true) (hbc : b.toNanos ≤ c.toNanos) :
    a.le c = true := by
  simp only [Moment.le, Bool.or_eq_true, Bool.and_eq_true, decide_eq_true_eq, beq_iff_eq] at *
  simp only [Moment.toNanos, Time.nanosPerSecond] at *
  omega

end

/-! ### The margin that is kept to -/

namespace TokenCache

variable {cache : TokenCache} {margin : Span} {now : Moment} {token : Token}

theorem margin_empty (h : margin.nanos ≤ maxMargin) : (empty margin).margin = margin.nanos :=
  if_pos h

theorem empty_of_lt (h : maxMargin < margin.nanos) : empty margin = ⟨0, none⟩ :=
  congrArg (TokenCache.mk · none) (if_neg (Nat.not_le.mpr h))

/-- A token that need not be renewed lives on for longer than the margin. -/
theorem toNanos_lt_of_needsRenewal? (hheld : cache.held = some token)
    (h : cache.needsRenewal? now = some false) :
    now.toNanos + cache.margin < token.expiresAt.toNanos := by
  rw [needsRenewal?, hheld] at h
  obtain ⟨limit, hlimit, hlater⟩ := Option.map_eq_some_iff.mp h
  obtain ⟨hnanos, hfull⟩ := addNanos?_eq_some hlimit
  rw [← hnanos]
  exact toNanos_lt_of_not_le hfull hlater

/-- Where a shorter margin has a token renewed, a longer one does not have it shared. -/
theorem needsRenewal?_of_le {margin' : Nat} {held : Option Token} {now : Moment} {margin : Nat}
    (hle : margin ≤ margin') (h : needsRenewal? ⟨margin, held⟩ now = some true) :
    needsRenewal? ⟨margin', held⟩ now ≠ some false := by
  cases held with
  | none => simp [needsRenewal?]
  | some token =>
      simp only [needsRenewal?] at h ⊢
      obtain ⟨limit, hlimit, hsoon⟩ := Option.map_eq_some_iff.mp h
      intro hshared
      obtain ⟨limit', hlimit', hlater⟩ := Option.map_eq_some_iff.mp hshared
      obtain ⟨hnanos, hfull⟩ := addNanos?_eq_some hlimit
      obtain ⟨hnanos', hfull'⟩ := addNanos?_eq_some hlimit'
      have hsoon' := le_of_le_of_toNanos_le hfull hfull' hsoon (by omega)
      exact absurd (hlater.symm.trans hsoon') Bool.false_ne_true

end TokenCache

/-! ### One call after the other -/

/-- A call for the token: when it comes, and what its renewal would yield. -/
structure SlotCall where
  now : Moment
  outcome : Except VendorError Token

namespace SlotCall

/-- What the call leaves and is given, if it does not come to nothing. -/
def serve (c : SlotCall) (cache : TokenCache) :
    Option (TokenCache × Except VendorError IssuedToken) :=
  Id.run (cache.issue c.now (pure c.outcome))

/-- What it leaves. A call that comes to nothing leaves the place as it was. -/
def after (cache : TokenCache) (c : SlotCall) : TokenCache :=
  ((c.serve cache).map Prod.fst).getD cache

/-- The call is given the token that is there, and the place stays as it was. -/
def Reuses (c : SlotCall) (cache : TokenCache) (token : Token) : Prop :=
  cache.held = some token ∧ c.serve cache = some (cache, .ok ⟨token.value, false⟩)

variable {c : SlotCall} {cache kept : TokenCache} {issued : IssuedToken} {token : Token}

theorem serve_eq (c : SlotCall) (cache : TokenCache) :
    c.serve cache = match cache.needsRenewal? c.now with
      | none => none
      | some false => some (cache, .ok ⟨cache.value, false⟩)
      | some true => some (cache.renewed c.outcome) := by
  unfold serve TokenCache.issue
  cases cache.needsRenewal? c.now with
  | none => rfl
  | some needed =>
      cases needed with
      | false => rfl
      | true => cases c.outcome <;> rfl

/-- A call that comes to something shares what is there, or renews it. -/
theorem serve_cases {served : TokenCache × Except VendorError IssuedToken}
    (h : c.serve cache = some served) :
    (cache.needsRenewal? c.now = some false ∧ served = (cache, .ok ⟨cache.value, false⟩)) ∨
    (cache.needsRenewal? c.now = some true ∧ served = cache.renewed c.outcome) := by
  rw [serve_eq] at h
  cases hneeds : cache.needsRenewal? c.now with
  | none =>
      rw [hneeds] at h
      cases h
  | some needed =>
      rw [hneeds] at h
      cases needed with
      | false => exact .inl ⟨rfl, (Option.some.inj h).symm⟩
      | true => exact .inr ⟨rfl, (Option.some.inj h).symm⟩

/-- A token that is not renewed for the call is the one that is there. -/
theorem needsRenewal?_of_not_renewed (h : c.serve cache = some (kept, .ok issued))
    (hissued : issued.renewed = false) :
    cache.needsRenewal? c.now = some false ∧ kept = cache ∧ issued = ⟨cache.value, false⟩ := by
  obtain ⟨hneeds, hshared⟩ | ⟨-, hrenewed⟩ := serve_cases h
  · obtain ⟨hkept, hok⟩ := Prod.mk.inj hshared
    exact ⟨hneeds, hkept, Except.ok.inj hok⟩
  · cases houtcome : c.outcome with
    | error e =>
        rw [houtcome] at hrenewed
        cases hrenewed
    | ok fresh =>
        rw [houtcome] at hrenewed
        obtain ⟨-, hfresh⟩ := Prod.mk.inj hrenewed
        rw [Except.ok.inj hfresh] at hissued
        cases hissued

theorem exists_reuses (h : c.serve cache = some (kept, .ok issued))
    (hissued : issued.renewed = false) :
    ∃ token, c.Reuses cache token ∧ kept = cache ∧ issued.value = token.value := by
  obtain ⟨hneeds, rfl, rfl⟩ := needsRenewal?_of_not_renewed h hissued
  cases hheld : kept.held with
  | none => simp [TokenCache.needsRenewal?, hheld] at hneeds
  | some token =>
      have hvalue : kept.value = token.value := by simp [TokenCache.value, hheld]
      exact ⟨token, ⟨hheld, by rw [h, hvalue]⟩, rfl, hvalue⟩

theorem reuses_iff :
    c.Reuses cache token ↔ cache.held = some token ∧ cache.needsRenewal? c.now = some false := by
  refine and_congr_right fun hheld => ⟨fun h => (needsRenewal?_of_not_renewed h rfl).1, fun h => ?_⟩
  rw [serve_eq, h]
  simp [TokenCache.value, hheld]

/-- What is handed out again lives on for longer than the margin that is kept to. -/
theorem Reuses.outlives (h : c.Reuses cache token) :
    c.now.toNanos + cache.margin < token.expiresAt.toNanos := by
  obtain ⟨hheld, hneeds⟩ := reuses_iff.mp h
  exact TokenCache.toNanos_lt_of_needsRenewal? hheld hneeds

/-- The margin stays what it is from one call to the next. -/
theorem margin_after (cache : TokenCache) (c : SlotCall) : (after cache c).margin = cache.margin := by
  rw [after]
  cases hserved : c.serve cache with
  | none => rfl
  | some served =>
      obtain ⟨-, rfl⟩ | ⟨-, rfl⟩ := serve_cases hserved
      · rfl
      · cases c.outcome <;> rfl

end SlotCall

/-- The place for the token after calls that followed one another. -/
def TokenCache.afterCalls (cache : TokenCache) (calls : List SlotCall) : TokenCache :=
  calls.foldl SlotCall.after cache

theorem margin_afterCalls (cache : TokenCache) (calls : List SlotCall) :
    (cache.afterCalls calls).margin = cache.margin := by
  induction calls generalizing cache with
  | nil => rfl
  | cons c rest ih => exact (ih (c.after cache)).trans (SlotCall.margin_after cache c)

/-! ### The margin asked for -/

/-- In a place made with the margin, whatever calls there were before: a token that is handed out
again lives on for longer than so many nanoseconds. -/
def Honoured (margin : Span) (length : Nat) : Prop :=
  ∀ (calls : List SlotCall) (c : SlotCall) (token : Token),
    c.Reuses ((TokenCache.empty margin).afterCalls calls) token →
      c.now.toNanos + length < token.expiresAt.toNanos

/-- A place made with the margin does not hand out a token again that one with a shorter margin
would have renewed. -/
def SafelyRaised (margin : Span) : Prop :=
  ∀ (shorter : Span) (c : SlotCall) (token : Token), shorter.nanos ≤ margin.nanos →
    ((TokenCache.empty shorter).hold token).needsRenewal? c.now = some true →
      ¬c.Reuses ((TokenCache.empty margin).hold token) token

/-- The margin that is kept to is honoured in any case. -/
theorem honoured_margin (margin : Span) : Honoured margin (TokenCache.empty margin).margin := by
  intro calls c token h
  rw [← margin_afterCalls _ calls]
  exact h.outlives

/-- A token that is good for the first second of 1970. -/
def briefToken : Token := ⟨"t", ⟨1, 0⟩⟩

/-- A call at the beginning of 1970, for which this token would be fetched. -/
def earlyCall : SlotCall := ⟨⟨0, 0⟩, .ok briefToken⟩

/-- Without a margin the token is fetched by such a call and shared with the next one. -/
theorem afterCalls_earlyCall : TokenCache.afterCalls ⟨0, none⟩ [earlyCall] = ⟨0, some briefToken⟩ := by
  decide

theorem reuses_earlyCall : earlyCall.Reuses ⟨0, some briefToken⟩ briefToken :=
  SlotCall.reuses_iff.mpr ⟨rfl, by decide⟩

theorem honoured_iff {margin : Span} :
    Honoured margin margin.nanos ↔ margin.nanos ≤ TokenCache.maxMargin := by
  constructor
  · intro h
    rw [← Nat.not_lt]
    intro hlong
    have hreuses : earlyCall.Reuses ((TokenCache.empty margin).afterCalls [earlyCall]) briefToken := by
      rw [TokenCache.empty_of_lt hlong, afterCalls_earlyCall]
      exact reuses_earlyCall
    have hlives : 0 + (margin.nanos : Int) < 1000000000 := h [earlyCall] earlyCall briefToken hreuses
    have hmax : TokenCache.maxMargin = 9223372036854775807000000 := by decide
    omega
  · intro h
    have hkept := honoured_margin margin
    rwa [TokenCache.margin_empty h] at hkept

theorem safelyRaised_iff {margin : Span} :
    SafelyRaised margin ↔ margin.nanos ≤ TokenCache.maxMargin := by
  constructor
  · intro h
    rw [← Nat.not_lt]
    intro hlong
    have hmax : TokenCache.maxMargin = 9223372036854775807000000 := by decide
    -- a margin of two seconds has the token renewed that is good for one
    refine h (.ofSeconds 2) earlyCall briefToken ?_ (by decide) ?_
    · show 2000000000 ≤ margin.nanos
      omega
    · rw [TokenCache.empty_of_lt hlong]
      exact reuses_earlyCall
  · intro h shorter c token hle hrenewed hreuses
    obtain ⟨-, hshared⟩ := SlotCall.reuses_iff.mp hreuses
    have hkept : (TokenCache.empty shorter).margin ≤ (TokenCache.empty margin).margin := by
      rwa [TokenCache.margin_empty h, TokenCache.margin_empty (Nat.le_trans hle h)]
    exact TokenCache.needsRenewal?_of_le hkept hrenewed hshared

/-! ### Tokens that are handed out again -/

/-- **How long a token lives on that is handed out again.** Whatever calls there were, a token that
is not renewed for a call is the one in the place, and lives on for longer than the margin asked for,
if this is not longer than the longest one that counts, and at all, if it is. So the margin asked for
is honoured in every sequence of calls exactly up to the longest one, and exactly up to there a longer
margin never has a token shared that a shorter one would have renewed. -/
theorem reused_token_outlives_margin (margin : Span) :
    (∀ (calls : List SlotCall) (c : SlotCall) (kept : TokenCache) (issued : IssuedToken),
      c.serve ((TokenCache.empty margin).afterCalls calls) = some (kept, .ok issued) →
      issued.renewed = false →
      ∃ token, ((TokenCache.empty margin).afterCalls calls).held = some token ∧
        kept = (TokenCache.empty margin).afterCalls calls ∧ issued.value = token.value ∧
        c.now.toNanos + (if margin.nanos ≤ TokenCache.maxMargin then margin.nanos else 0 : Nat) <
          token.expiresAt.toNanos) ∧
    (Honoured margin margin.nanos ↔ margin.nanos ≤ TokenCache.maxMargin) ∧
    (SafelyRaised margin ↔ margin.nanos ≤ TokenCache.maxMargin) := by
  refine ⟨?_, honoured_iff, safelyRaised_iff⟩
  intro calls c kept issued hserved hissued
  obtain ⟨token, hreuses, hkept, hvalue⟩ := SlotCall.exists_reuses hserved hissued
  exact ⟨token, hreuses.1, hkept, hvalue, honoured_margin margin calls c token hreuses⟩

/-- A call at the beginning of 1970, for which an hour's token would be fetched. -/
def hourlyCall : SlotCall := ⟨⟨0, 0⟩, .ok ⟨"t", ⟨3600, 0⟩⟩⟩

/-- A call 61 seconds before this token expires. -/
def lateCall : SlotCall := ⟨⟨3539, 0⟩, .error (.token "down")⟩

theorem serve_lateCall :
    lateCall.serve ((TokenCache.empty (.ofSeconds 60)).afterCalls [hourlyCall]) =
      some (⟨60000000000, some ⟨"t", ⟨3600, 0⟩⟩⟩, .ok ⟨"t", false⟩) := rfl

theorem reused_token_outlives_margin_lateCall :
    lateCall.serve ((TokenCache.empty (.ofSeconds 60)).afterCalls [hourlyCall]) =
      some (⟨60000000000, some ⟨"t", ⟨3600, 0⟩⟩⟩, .ok ⟨"t", false⟩) ∧
    (⟨"t", false⟩ : IssuedToken).renewed = false ∧
    ∃ token : Token, token.value = "t" ∧ 3539 * 1000000000 + 60000000000 < token.expiresAt.toNanos := by
  obtain ⟨token, -, -, hvalue, hlives⟩ :=
    (reused_token_outlives_margin (.ofSeconds 60)).1 [hourlyCall] lateCall _ _ serve_lateCall rfl
  exact ⟨serve_lateCall, rfl, token, hvalue.symm, hlives⟩

/-- A margin of 9223372036854776 seconds, which can be set, is not honoured: a token is shared that
has one second left, and that a margin of two seconds would have renewed. -/
theorem long_margin_is_dropped :
    9223372036854776 < Width.count 64 ∧
    earlyCall.Reuses ((TokenCache.empty (.ofSeconds 9223372036854776)).afterCalls [earlyCall])
      briefToken ∧
    ¬Honoured (.ofSeconds 9223372036854776) (Span.ofSeconds 9223372036854776).nanos ∧
    ¬SafelyRaised (.ofSeconds 9223372036854776) := by
  have hlong : TokenCache.maxMargin < (Span.ofSeconds 9223372036854776).nanos := by decide
  refine ⟨by decide, ?_, ?_, ?_⟩
  · rw [TokenCache.empty_of_lt hlong, afterCalls_earlyCall]
    exact reuses_earlyCall
  · rw [honoured_iff]
    exact Nat.not_le.mpr hlong
  · rw [safelyRaised_iff]
    exact Nat.not_le.mpr hlong

end DepositSync
