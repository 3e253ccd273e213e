import DepositSync.Program
import DepositSync.Vendor.Token

/-!
# DepositSync.Proofs.TokenSlot

The place for the token under contention. Calls come at any time, each with a clock of its own, and
wait. One of them, any of them, takes the place when it is free, holds it while it looks at the token
and renews it if it must, and then gives the place free again (`TokenLock.Step`).

What carries the proofs is that nobody but its holder changes the place, so that it is found as it
was left (`TokenLock.Inv`). Every call is then served as if it were alone (`Turn.Lawful`), in the
order in which the calls took the place (`Linked`). All else is read off that sequence of turns.
-/

namespace DepositSync

open Time (Moment)

variable {ε : Type} {margin : Nat}

/-! ### Calls -/

/-- A call for the token: when it comes, and what its renewal would yield. A token counts as expired
that lives no longer than until the limit, which is within the supported calendar. -/
structure TokenDemand (ε : Type) (margin : Nat) where
  now : Moment
  limit : Moment
  limit_eq : now.addNanos? margin = some limit
  outcome : Except ε Token

/-- Must the call renew what it finds in the place? -/
def TokenDemand.needs (d : TokenDemand ε margin) : Option Token → Bool
  | none => true
  | some token => token.expiresAt.le d.limit

/-- A call with its turn done: what it found in the place, how often it renewed the token, what it
was given, and what it left in the place. -/
structure Turn (ε : Type) (margin : Nat) where
  demand : TokenDemand ε margin
  found : Option Token
  renewals : Nat
  result : Except ε IssuedToken
  left : Option Token

/-- What happens in a turn. -/
structure Turn.Lawful (t : Turn ε margin) : Prop where
  /-- The token is renewed, once, exactly if there is none or it expires too early. -/
  renewals_eq : t.renewals = if t.demand.needs t.found then 1 else 0
  /-- If it is not renewed the call is given the one that is there. -/
  shared : t.demand.needs t.found = false →
    ∃ token, t.found = some token ∧ t.result = .ok ⟨token.value, false⟩ ∧ t.left = t.found
  /-- A token that is fetched is kept and given to the call. -/
  renewed : t.demand.needs t.found = true → ∀ token, t.demand.outcome = .ok token →
    t.result = .ok ⟨token.value, true⟩ ∧ t.left = some token
  /-- If none can be fetched the call is given the error, and what is kept stays. -/
  failed : t.demand.needs t.found = true → ∀ e, t.demand.outcome = .error e →
    t.result = .error e ∧ t.left = t.found

/-! ### The lock of the place -/

/-- What a call with the place in hand does; its only call outside is for a renewal. -/
abbrev Renewing (ε : Type) (α : Type) := Program Unit (fun _ => Except ε Token) α

/-- A call with the place in hand: what it found, how often it renewed the token so far, and what it
still does. -/
structure Holding (ε : Type) (margin : Nat) where
  demand : TokenDemand ε margin
  found : Option Token
  renewals : Nat
  todo : Renewing ε (Option (TokenCache × Except ε IssuedToken))

/-- The lock of the place for the token: what is in the place, the call that holds the lock, those
that wait for it, and the turns that are done, in their order. -/
structure TokenLock (ε : Type) (margin : Nat) where
  cache : TokenCache
  holder : Option (Holding ε margin)
  waiting : List (TokenDemand ε margin)
  turns : List (Turn ε margin)

namespace TokenLock

/-- What can happen next. -/
inductive Step : TokenLock ε margin → TokenLock ε margin → Prop where
  /-- A call comes. -/
  | arrive (d : TokenLock ε margin) (demand : TokenDemand ε margin) :
      Step d { d with waiting := d.waiting ++ [demand] }
  /-- One of those waiting takes the place, which is free. -/
  | enter (d : TokenLock ε margin) (before after : List (TokenDemand ε margin))
      (demand : TokenDemand ε margin) (hfree : d.holder = none)
      (hwaiting : d.waiting = before ++ demand :: after) :
      Step d { d with
        holder := some ⟨demand, d.cache.held, 0, d.cache.issue demand.now (Program.perform ())⟩
        waiting := before ++ after }
  /-- The renewal of the call with the place in hand yields what it yields. -/
  | renew (d : TokenLock ε margin) (h : Holding ε margin) (hholder : d.holder = some h)
      (next : Except ε Token → Renewing ε _) (htodo : h.todo = .call () next) :
      Step d { d with
        holder := some { h with renewals := h.renewals + 1, todo := next h.demand.outcome } }
  /-- It is done, and gives the place free. -/
  | leave (d : TokenLock ε margin) (h : Holding ε margin) (hholder : d.holder = some h)
      (cache : TokenCache) (result : Except ε IssuedToken)
      (htodo : h.todo = .done (some (cache, result))) :
      Step d { d with
        cache := cache
        holder := none
        turns := d.turns ++ [⟨h.demand, h.found, h.renewals, result, cache.held⟩] }

/-- The states of the lock that there can be when the place was as given at the start. -/
inductive Reachable (cache : TokenCache) : TokenLock ε cache.margin → Prop where
  | start : Reachable cache ⟨cache, none, [], []⟩
  | step {d d' : TokenLock ε cache.margin} (h : Reachable cache d) (hstep : Step d d') :
      Reachable cache d'

end TokenLock

/-! ### One call alone -/

/-- What a call that renews the token leaves and is given. -/
def TokenCache.renewed (cache : TokenCache) :
    Except ε Token → TokenCache × Except ε IssuedToken
  | .error e => (cache, .error e)
  | .ok token => (cache.hold token, .ok ⟨token.value, true⟩)

theorem needsRenewal?_eq {cache : TokenCache} (hmargin : cache.margin = margin)
    (d : TokenDemand ε margin) : cache.needsRenewal? d.now = some (d.needs cache.held) := by
  unfold TokenCache.needsRenewal? TokenDemand.needs
  cases cache.held with
  | none => rfl
  | some token => rw [hmargin, d.limit_eq]; rfl

/-- A call that need not renew the token is done. -/
theorem issue_of_not_needs {cache : TokenCache} (hmargin : cache.margin = margin)
    {d : TokenDemand ε margin} (h : d.needs cache.held = false) :
    (cache.issue d.now (Program.perform ()) : Renewing ε _) =
      .done (some (cache, .ok ⟨cache.value, false⟩)) := by
  rw [TokenCache.issue, needsRenewal?_eq hmargin, h]
  rfl

/-- One that must asks for a renewal, once, and is done with what this yields. -/
theorem issue_of_needs {cache : TokenCache} (hmargin : cache.margin = margin)
    {d : TokenDemand ε margin} (h : d.needs cache.held = true) :
    (cache.issue d.now (Program.perform ()) : Renewing ε _) =
      .call () fun fetched => .done (some (cache.renewed fetched)) := by
  rw [TokenCache.issue, needsRenewal?_eq hmargin, h]
  refine congrArg (Program.call ()) (funext fun fetched => ?_)
  cases fetched <;> rfl

/-! ### One step after the other -/

/-- Where the call with the place in hand is: it has not begun, or it has renewed the token. It finds
what is in the place until it leaves. -/
structure Underway (cache : TokenCache) (h : Holding ε margin) : Prop where
  found_eq : h.found = cache.held
  stage : (h.renewals = 0 ∧ h.todo = cache.issue h.demand.now (Program.perform ())) ∨
    (h.demand.needs cache.held = true ∧ h.renewals = 1 ∧
      h.todo = .done (some (cache.renewed h.demand.outcome)))

/-- A renewal is asked for if there must be one, and only once. -/
theorem Underway.renew {cache : TokenCache} (hmargin : cache.margin = margin)
    {h : Holding ε margin} (hunderway : Underway cache h)
    {next : Except ε Token → Renewing ε (Option (TokenCache × Except ε IssuedToken))}
    (htodo : h.todo = .call () next) :
    Underway cache { h with renewals := h.renewals + 1, todo := next h.demand.outcome } := by
  refine ⟨hunderway.found_eq, .inr ?_⟩
  rcases hunderway.stage with ⟨hnone, hissue⟩ | ⟨-, -, hdone⟩
  · cases hneeds : h.demand.needs cache.held with
    | false =>
        rw [issue_of_not_needs hmargin hneeds] at hissue
        cases htodo.symm.trans hissue
    | true =>
        rw [issue_of_needs hmargin hneeds] at hissue
        obtain rfl := (Program.call.inj (htodo.symm.trans hissue)).2
        exact ⟨rfl, congrArg (· + 1) hnone, rfl⟩
  · cases htodo.symm.trans hdone

/-- To share what is in the place is lawful. -/
theorem Turn.Lawful.ofShared {cache : TokenCache} {d : TokenDemand ε margin}
    (h : d.needs cache.held = false) :
    Turn.Lawful ⟨d, cache.held, 0, .ok ⟨cache.value, false⟩, cache.held⟩ where
  renewals_eq := by rw [h]; rfl
  shared _ := by
    cases hheld : cache.held with
    | none => rw [hheld] at h; cases h
    | some token => exact ⟨token, rfl, by rw [TokenCache.value, hheld]; rfl, rfl⟩
  renewed hneeds := absurd (h.symm.trans hneeds) Bool.false_ne_true
  failed hneeds := absurd (h.symm.trans hneeds) Bool.false_ne_true

/-- To renew it is lawful if that is necessary. -/
theorem Turn.Lawful.ofRenewed {cache : TokenCache} {d : TokenDemand ε margin}
    (h : d.needs cache.held = true) :
    Turn.Lawful ⟨d, cache.held, 1, (cache.renewed d.outcome).2,
      (cache.renewed d.outcome).1.held⟩ where
  renewals_eq := by rw [h]; rfl
  shared hneeds := absurd (hneeds.symm.trans h) Bool.false_ne_true
  renewed _ token houtcome := by rw [houtcome]; exact ⟨rfl, rfl⟩
  failed _ e houtcome := by rw [houtcome]; exact ⟨rfl, rfl⟩

/-- A call that is done had a lawful turn. -/
theorem Underway.lawful {cache cache' : TokenCache} (hmargin : cache.margin = margin)
    {h : Holding ε margin} (hunderway : Underway cache h) {result : Except ε IssuedToken}
    (htodo : h.todo = .done (some (cache', result))) :
    cache'.margin = margin ∧
      Turn.Lawful ⟨h.demand, h.found, h.renewals, result, cache'.held⟩ := by
  obtain ⟨demand, found, renewals, todo⟩ := h
  obtain rfl : todo = .done (some (cache', result)) := htodo
  obtain ⟨rfl, ⟨rfl, hissue⟩ | ⟨hneeds, rfl, hdone⟩⟩ := hunderway
  · cases hneeds : demand.needs cache.held with
    | false =>
        obtain ⟨rfl, rfl⟩ : cache' = cache ∧ result = .ok ⟨cache.value, false⟩ := by
          simpa using hissue.trans (issue_of_not_needs hmargin hneeds)
        exact ⟨hmargin, .ofShared hneeds⟩
    | true => cases hissue.trans (issue_of_needs hmargin hneeds)
  · obtain ⟨rfl, rfl⟩ : cache' = (cache.renewed demand.outcome).1 ∧
        result = (cache.renewed demand.outcome).2 :=
      Prod.mk.inj (Option.some.inj (Program.done.inj hdone))
    refine ⟨?_, .ofRenewed hneeds⟩
    cases demand.outcome <;> exact hmargin

/-- Every turn finds what the turn before it left. -/
def Linked : Option Token → List (Turn ε margin) → Option Token → Prop
  | slot, [], last => slot = last
  | slot, t :: rest, last => t.found = slot ∧ Linked t.left rest last

theorem Linked.append {first middle last : Option Token} {turns more : List (Turn ε margin)}
    (h : Linked first turns middle) (hmore : Linked middle more last) :
    Linked first (turns ++ more) last := by
  induction turns generalizing first with
  | nil => exact h ▸ hmore
  | cons t rest ih => exact ⟨h.1, ih h.2⟩

theorem Linked.split {first last : Option Token} {turns more : List (Turn ε margin)}
    (h : Linked first (turns ++ more) last) :
    ∃ middle, Linked first turns middle ∧ Linked middle more last := by
  induction turns generalizing first with
  | nil => exact ⟨first, rfl, h⟩
  | cons t rest ih =>
      obtain ⟨middle, hrest, hmore⟩ := ih h.2
      exact ⟨middle, ⟨h.1, hrest⟩, hmore⟩

/-- What holds of the lock at any time, where `slot` was in the place at the start. -/
structure TokenLock.Inv (slot : Option Token) (d : TokenLock ε margin) : Prop where
  margin_eq : d.cache.margin = margin
  underway : ∀ h, d.holder = some h → Underway d.cache h
  linked : Linked slot d.turns d.cache.held
  lawful : ∀ t ∈ d.turns, t.Lawful

theorem TokenLock.Inv.step {slot : Option Token} {d d' : TokenLock ε margin} (h : d.Inv slot)
    (hstep : Step d d') : d'.Inv slot := by
  cases hstep with
  | arrive demand => exact ⟨h.margin_eq, h.underway, h.linked, h.lawful⟩
  | enter before after demand hfree hwaiting =>
      refine ⟨h.margin_eq, ?_, h.linked, h.lawful⟩
      rintro _ ⟨⟩
      exact ⟨rfl, .inl ⟨rfl, rfl⟩⟩
  | renew holding hholder next htodo =>
      refine ⟨h.margin_eq, ?_, h.linked, h.lawful⟩
      rintro _ ⟨⟩
      exact (h.underway _ hholder).renew h.margin_eq htodo
  | leave holding hholder cache result htodo =>
      have hunderway := h.underway _ hholder
      obtain ⟨hmargin, hlawful⟩ := hunderway.lawful h.margin_eq htodo
      refine ⟨hmargin, nofun, h.linked.append ⟨hunderway.found_eq, rfl⟩, fun t ht => ?_⟩
      rcases List.mem_append.mp ht with ht | ht
      · exact h.lawful t ht
      · exact List.mem_singleton.mp ht ▸ hlawful

theorem TokenLock.Reachable.inv {cache : TokenCache} {d : TokenLock ε cache.margin}
    (h : Reachable cache d) : d.Inv cache.held := by
  induction h with
  | start => exact ⟨rfl, nofun, rfl, fun t ht => absurd ht List.not_mem_nil⟩
  | step _ hstep ih => exact ih.step hstep

namespace TokenLock

/-- The lock after one of those waiting had a turn. -/
def serve (d : TokenLock ε margin) (demand : TokenDemand ε margin)
    (waiting : List (TokenDemand ε margin)) : TokenLock ε margin :=
  if demand.needs d.cache.held then
    let (cache, result) := d.cache.renewed demand.outcome
    ⟨cache, none, waiting, d.turns ++ [⟨demand, d.cache.held, 1, result, cache.held⟩]⟩
  else
    let shared : Turn ε margin :=
      ⟨demand, d.cache.held, 0, .ok ⟨d.cache.value, false⟩, d.cache.held⟩
    ⟨d.cache, none, waiting, d.turns ++ [shared]⟩

/-- Whoever waits for a place that is free can have a turn. -/
theorem Reachable.serve {cache : TokenCache} {d : TokenLock ε cache.margin} (h : Reachable cache d)
    (hfree : d.holder = none) {before after : List (TokenDemand ε cache.margin)}
    {demand : TokenDemand ε cache.margin} (hwaiting : d.waiting = before ++ demand :: after) :
    Reachable cache (d.serve demand (before ++ after)) := by
  have hentered := h.step (.enter d before after demand hfree hwaiting)
  have hmargin := h.inv.margin_eq
  unfold TokenLock.serve
  cases hneeds : demand.needs d.cache.held with
  | false =>
      have hissue := issue_of_not_needs hmargin hneeds
      exact hentered.step (.leave _ ⟨demand, d.cache.held, 0, _⟩ rfl _ _ hissue)
  | true =>
      have hrenewed := hentered.step (.renew _ _ rfl _ (issue_of_needs hmargin hneeds))
      exact hrenewed.step (.leave _ ⟨demand, d.cache.held, 1, _⟩ rfl _ _ rfl)

end TokenLock

/-! ### What the turns amount to -/

/-- The token that was fetched in the turn, if one was. -/
def Turn.fresh? (t : Turn ε margin) : Option Token :=
  if t.renewals = 0 then none else t.demand.outcome.toOption

/-- The token that was fetched last, or else the one from the start. -/
def latestToken (slot : Option Token) (turns : List (Turn ε margin)) : Option Token :=
  (turns.filterMap Turn.fresh?).getLast?.or slot

/-- How often the token was renewed in the turns. -/
def renewalCount : List (Turn ε margin) → Nat
  | [] => 0
  | t :: rest => t.renewals + renewalCount rest

theorem renewalCount_append (turns more : List (Turn ε margin)) :
    renewalCount (turns ++ more) = renewalCount turns + renewalCount more := by
  induction turns with
  | nil => exact (Nat.zero_add _).symm
  | cons t rest ih => rw [List.cons_append, renewalCount, renewalCount, ih, Nat.add_assoc]

/-- Was there a renewal in the turn that does not help the calls that come at the same time? It
failed, or it yielded a token that expires too early. -/
def Turn.isWasted (t : Turn ε margin) : Bool :=
  t.renewals != 0 && t.demand.needs t.demand.outcome.toOption

theorem Turn.Lawful.left_eq {t : Turn ε margin} (h : t.Lawful) : t.left = t.fresh?.or t.found := by
  unfold Turn.fresh?
  rw [h.renewals_eq]
  cases hneeds : t.demand.needs t.found with
  | false =>
      obtain ⟨token, -, -, hleft⟩ := h.shared hneeds
      exact hleft
  | true =>
      cases houtcome : t.demand.outcome with
      | error e => exact (h.failed hneeds e houtcome).2
      | ok token => exact (h.renewed hneeds token houtcome).2

/-- In the place there is always the token that was fetched last. -/
theorem Linked.last_eq {slot last : Option Token} {turns : List (Turn ε margin)}
    (h : Linked slot turns last) (hlawful : ∀ t ∈ turns, t.Lawful) :
    last = latestToken slot turns := by
  induction turns generalizing slot with
  | nil => exact h.symm
  | cons t rest ih =>
      obtain ⟨rfl, hrest⟩ := h
      rw [ih hrest fun t ht => hlawful t (List.mem_cons_of_mem _ ht),
        (hlawful t (List.mem_cons_self ..)).left_eq, latestToken, latestToken, List.filterMap_cons]
      cases t.fresh? with
      | none => rfl
      | some token =>
          rw [List.getLast?_cons]
          cases (rest.filterMap Turn.fresh?).getLast? <;> rfl

/-- Calls that come at the same time need a token to live equally long. -/
theorem TokenDemand.limit_eq_of_now {d d' : TokenDemand ε margin} (h : d.now = d'.now) :
    d.limit = d'.limit := by
  have hlimit := d'.limit_eq
  rw [← h, d.limit_eq] at hlimit
  exact Option.some.inj hlimit

theorem TokenDemand.needs_of_now {d d' : TokenDemand ε margin} (h : d.now = d'.now) :
    d.needs = d'.needs := by
  funext slot
  cases slot with
  | none => rfl
  | some token => rw [needs, needs, limit_eq_of_now h]

/-- Where the token in the place lives long enough for all that come, it is shared by all. -/
theorem Linked.shared {token : Token} {last : Option Token} {turns : List (Turn ε margin)}
    (h : Linked (some token) turns last) (hlawful : ∀ t ∈ turns, t.Lawful)
    (hneeds : ∀ t ∈ turns, t.demand.needs (some token) = false) :
    ∀ t ∈ turns, t.renewals = 0 ∧ t.result = .ok ⟨token.value, false⟩ := by
  induction turns with
  | nil => exact fun t ht => absurd ht List.not_mem_nil
  | cons t rest ih =>
      obtain ⟨hfound, hrest⟩ := h
      have ht := hlawful t (List.mem_cons_self ..)
      have hno : t.demand.needs t.found = false := hfound ▸ hneeds t (List.mem_cons_self ..)
      obtain ⟨token', htoken', hresult, hleft⟩ := ht.shared hno
      obtain rfl : token = token' := Option.some.inj (hfound.symm.trans htoken')
      rw [hleft, hfound] at hrest
      intro x hx
      rcases List.mem_cons.mp hx with rfl | hx
      · exact ⟨by rw [ht.renewals_eq, hno]; rfl, hresult⟩
      · exact ih hrest (fun t ht => hlawful t (List.mem_cons_of_mem _ ht))
          (fun t ht => hneeds t (List.mem_cons_of_mem _ ht)) x hx

/-- After a turn in which a token was fetched that lives long enough, it is shared by the calls that
come at the same time. -/
theorem Linked.shared_after {slot last : Option Token} {t : Turn ε margin}
    {rest : List (Turn ε margin)} (h : Linked slot (t :: rest) last)
    (hlawful : ∀ x ∈ t :: rest, x.Lawful) (hnow : ∀ x ∈ rest, x.demand.now = t.demand.now)
    (hrenewed : t.renewals ≠ 0) {token : Token} (houtcome : t.demand.outcome = .ok token)
    (hlong : t.demand.needs (some token) = false) :
    ∀ x ∈ rest, x.renewals = 0 ∧ x.result = .ok ⟨token.value, false⟩ := by
  have hleft : t.left = some token := by
    rw [(hlawful t (List.mem_cons_self ..)).left_eq, Turn.fresh?, if_neg hrenewed, houtcome]
    rfl
  have hrest : Linked (some token) rest last := hleft ▸ h.2
  refine hrest.shared (fun x hx => hlawful x (List.mem_cons_of_mem _ hx)) fun x hx => ?_
  rw [TokenDemand.needs_of_now (hnow x hx)]
  exact hlong

theorem renewalCount_of_wasted {turns : List (Turn ε margin)}
    (h : ∀ t ∈ turns, t.renewals = if t.isWasted then 1 else 0) :
    renewalCount turns = (turns.filter Turn.isWasted).length := by
  induction turns with
  | nil => rfl
  | cons t rest ih =>
      rw [renewalCount, ih fun t ht => h t (List.mem_cons_of_mem _ ht),
        h t (List.mem_cons_self ..), List.filter_cons]
      split
      · rw [List.length_cons, Nat.add_comm]
      · exact Nat.zero_add _

theorem renewalCount_of_shared {turns : List (Turn ε margin)} (h : ∀ t ∈ turns, t.renewals = 0) :
    renewalCount turns = 0 := by
  induction turns with
  | nil => rfl
  | cons t rest ih =>
      rw [renewalCount, h t (List.mem_cons_self ..), Nat.zero_add]
      exact ih fun t ht => h t (List.mem_cons_of_mem _ ht)

/-- Among calls that come at the same time, a renewal that comes before another one was in vain. -/
theorem needs_of_renewed_later {slot last : Option Token} {before after : List (Turn ε margin)}
    {t : Turn ε margin} (h : Linked slot (before ++ t :: after) last)
    (hlawful : ∀ x ∈ before ++ t :: after, x.Lawful)
    (hnow : ∀ x ∈ before ++ t :: after, x.demand.now = t.demand.now) (hrenewed : t.renewals ≠ 0)
    {x : Turn ε margin} (hx : x ∈ before) (hearlier : x.renewals ≠ 0) :
    x.demand.needs x.demand.outcome.toOption = true := by
  cases houtcome : x.demand.outcome with
  | error e => rfl
  | ok token =>
      cases hlong : x.demand.needs (some token) with
      | true => exact hlong
      | false =>
          -- the later call would have been given this token, and would not have renewed it
          obtain ⟨b, b', rfl⟩ := List.append_of_mem hx
          rw [List.append_assoc] at h hlawful hnow
          obtain ⟨middle, -, hrest⟩ := h.split
          have hsame : ∀ y ∈ b' ++ t :: after, y.demand.now = x.demand.now := fun y hy =>
            (hnow y (List.mem_append_right _ (List.mem_cons_of_mem _ hy))).trans
              (hnow x (List.mem_append_right _ (List.mem_cons_self ..))).symm
          have hshared := hrest.shared_after
            (fun y hy => hlawful y (List.mem_append_right _ hy)) hsame hearlier houtcome hlong t
            (List.mem_append_right _ (List.mem_cons_self ..))
          exact absurd hshared.1 hrenewed

/-- Among calls that come at the same time, those before one that renews the token renew it in vain,
or not at all. -/
theorem renewals_before {slot last : Option Token} {before after : List (Turn ε margin)}
    {t : Turn ε margin} (h : Linked slot (before ++ t :: after) last)
    (hlawful : ∀ x ∈ before ++ t :: after, x.Lawful)
    (hnow : ∀ x ∈ before ++ t :: after, x.demand.now = t.demand.now) (hrenewed : t.renewals ≠ 0) :
    ∀ x ∈ before, x.renewals = if x.isWasted then 1 else 0 := by
  intro x hx
  have hrenewals := (hlawful x (List.mem_append_left _ hx)).renewals_eq
  unfold Turn.isWasted
  cases hneeds : x.demand.needs x.found with
  | false => rw [hrenewals, hneeds]; rfl
  | true =>
      rw [hneeds, if_pos rfl] at hrenewals
      have hvain := needs_of_renewed_later h hlawful hnow hrenewed hx
        (by rw [hrenewals]; exact Nat.one_ne_zero)
      rw [hrenewals, hvain]
      rfl

/-- Among calls that come at the same time: if one of them fetches a token that lives long enough,
the token is renewed once for it and once for each call before it whose renewal is in vain, and the
calls after it are given this token. -/
theorem Linked.renewals_of_group {slot last : Option Token} {before after : List (Turn ε margin)}
    {t : Turn ε margin} (h : Linked slot (before ++ t :: after) last)
    (hlawful : ∀ x ∈ before ++ t :: after, x.Lawful)
    (hnow : ∀ x ∈ before ++ t :: after, x.demand.now = t.demand.now) (hrenewed : t.renewals ≠ 0)
    {token : Token} (houtcome : t.demand.outcome = .ok token)
    (hlong : t.demand.needs (some token) = false) :
    renewalCount (before ++ t :: after) = 1 + (before.filter Turn.isWasted).length ∧
      ∀ x ∈ after, x.renewals = 0 ∧ x.result = .ok ⟨token.value, false⟩ := by
  have hbefore := renewalCount_of_wasted (renewals_before h hlawful hnow hrenewed)
  obtain ⟨_, -, hrest⟩ := h.split
  have hshared := hrest.shared_after (fun x hx => hlawful x (List.mem_append_right _ hx))
    (fun x hx => hnow x (List.mem_append_right _ (List.mem_cons_of_mem _ hx))) hrenewed houtcome
    hlong
  have hafter : renewalCount after = 0 := renewalCount_of_shared fun x hx => (hshared x hx).1
  have hone : t.renewals = 1 := by
    have ht := (hlawful t (List.mem_append_right _ (List.mem_cons_self ..))).renewals_eq
    split at ht
    · exact ht
    · exact absurd ht hrenewed
  refine ⟨?_, hshared⟩
  rw [renewalCount_append, renewalCount, hbefore, hafter, hone]
  exact Nat.add_comm _ _

/-! ### Every call gets its turn -/

/-- How much the call with the place in hand still does. -/
def Holding.work (h : Holding ε margin) : Nat :=
  match h.todo with
  | .call _ _ => 2
  | .done _ => 1

theorem Holding.work_le (h : Holding ε margin) : h.work ≤ 2 := by
  unfold work
  split <;> omega

theorem Holding.work_pos (h : Holding ε margin) : 0 < h.work := by
  unfold work
  split <;> omega

/-- After the renewal there is nothing left but to leave. -/
theorem Underway.work_of_renewed {cache : TokenCache} {h : Holding ε margin}
    (hunderway : Underway cache h) (hrenewals : h.renewals ≠ 0) : h.work = 1 := by
  rcases hunderway.stage with ⟨hnone, -⟩ | ⟨-, -, hdone⟩
  · exact absurd hnone hrenewals
  · rw [Holding.work, hdone]

namespace TokenLock

/-- How much there is to do for the calls that have come. -/
def work (d : TokenLock ε margin) : Nat :=
  3 * d.waiting.length + (d.holder.map Holding.work).getD 0

/-- Whatever happens but that a call comes leaves less to do. -/
theorem Inv.work_lt {slot : Option Token} {d d' : TokenLock ε margin} (h : d.Inv slot)
    (hstep : Step d d') (hcome : d'.waiting.length ≤ d.waiting.length) : d'.work < d.work := by
  cases hstep with
  | arrive demand =>
      simp only [List.length_append, List.length_singleton] at hcome
      omega
  | enter before after demand hfree hwaiting =>
      simp only [work, hfree, hwaiting, Option.map_some, Option.map_none, Option.getD_some,
        Option.getD_none, List.length_append, List.length_cons]
      have := Holding.work_le (⟨demand, d.cache.held, 0, d.cache.issue demand.now
        (Program.perform ())⟩ : Holding ε margin)
      omega
  | renew holding hholder next htodo =>
      have hrenewed := ((h.underway _ hholder).renew h.margin_eq htodo).work_of_renewed
        (Nat.succ_ne_zero _)
      have hbefore : holding.work = 2 := by rw [Holding.work, htodo]
      simp only [work, hholder, Option.map_some, Option.getD_some, hrenewed, hbefore]
      omega
  | leave holding hholder cache result htodo =>
      have := holding.work_pos
      simp only [work, hholder, Option.map_some, Option.map_none, Option.getD_some, Option.getD_none]
      omega

/-- As long as a call waits, or has the place in hand, there is something that happens next. -/
theorem Inv.exists_step {slot : Option Token} {d : TokenLock ε margin} (h : d.Inv slot)
    (hwork : d.work ≠ 0) : ∃ d', Step d d' ∧ d'.waiting.length ≤ d.waiting.length := by
  cases hholder : d.holder with
  | none =>
      cases hwaiting : d.waiting with
      | nil => exact absurd (by simp [work, hholder, hwaiting]) hwork
      | cons demand rest =>
          exact ⟨_, .enter d [] rest demand hholder hwaiting, Nat.le_succ _⟩
  | some holding =>
      rcases (h.underway _ hholder).stage with ⟨-, hissue⟩ | ⟨-, -, hdone⟩
      · cases hneeds : holding.demand.needs d.cache.held with
        | false =>
            rw [issue_of_not_needs h.margin_eq hneeds] at hissue
            exact ⟨_, .leave d holding hholder _ _ hissue, Nat.le_refl _⟩
        | true =>
            rw [issue_of_needs h.margin_eq hneeds] at hissue
            exact ⟨_, .renew d holding hholder _ hissue, Nat.le_refl _⟩
      · exact ⟨_, .leave d holding hholder _ _ hdone, Nat.le_refl _⟩

end TokenLock

/-! ### The place for the token -/

/-- **The place for the token serves one call after the other.** In whatever order the calls that
come take the place, and whatever their clocks say and their renewals yield: each finds what the one
before it left, and is served as if it were alone (`Turn.Lawful`). So there is always the token in
the place that was fetched last. Among calls that come at the same time and are served one after the
other, if one of them fetches a token that lives long enough, the token is renewed once for it and
once for each call before it whose renewal was in vain, and all calls after it are given this token.
As long as there is a call that was not served something happens next, and whatever happens but that
another call comes leaves less to do. -/
theorem token_slot_serves_in_turn (cache : TokenCache) {d : TokenLock ε cache.margin}
    (h : TokenLock.Reachable cache d) :
    Linked cache.held d.turns d.cache.held ∧
    (∀ t ∈ d.turns, t.Lawful) ∧
    d.cache.held = latestToken cache.held d.turns ∧
    (∀ earlier before t after later token,
      d.turns = earlier ++ (before ++ t :: after) ++ later →
      (∀ x ∈ before ++ t :: after, x.demand.now = t.demand.now) →
      t.renewals ≠ 0 → t.demand.outcome = .ok token → t.demand.needs (some token) = false →
      renewalCount (before ++ t :: after) = 1 + (before.filter Turn.isWasted).length ∧
        ∀ x ∈ after, x.renewals = 0 ∧ x.result = .ok ⟨token.value, false⟩) ∧
    (d.work ≠ 0 → ∃ d', TokenLock.Step d d' ∧ d'.waiting.length ≤ d.waiting.length) ∧
    ∀ d', TokenLock.Step d d' → d'.waiting.length ≤ d.waiting.length → d'.work < d.work := by
  have hinv := h.inv
  refine ⟨hinv.linked, hinv.lawful, hinv.linked.last_eq hinv.lawful, ?_, hinv.exists_step,
    fun d' => hinv.work_lt⟩
  intro earlier before t after later token hturns hnow hrenewed houtcome hlong
  have hlinked := hinv.linked
  rw [hturns] at hlinked
  obtain ⟨_, hlinked, -⟩ := hlinked.split
  obtain ⟨_, -, hlinked⟩ := hlinked.split
  refine hlinked.renewals_of_group (fun x hx => hinv.lawful x ?_) hnow hrenewed houtcome hlong
  rw [hturns]
  exact List.mem_append_left _ (List.mem_append_right _ hx)

/-- A place with nothing in it, and a margin of a minute. -/
def emptySlot : TokenCache := ⟨60 * Time.nanosPerSecond, none⟩

/-- A call with a clock that shows a thousand seconds. -/
def demandAt1000 (outcome : Except String Token) : TokenDemand String emptySlot.margin :=
  ⟨⟨1000, 0⟩, ⟨1060, 0⟩, by decide, outcome⟩

/-- Three calls at the same time: the renewal of the first one fails, that of the second one yields
a token for an hour. -/
def rivals : List (TokenDemand String emptySlot.margin) :=
  [demandAt1000 (.error "unreachable"), demandAt1000 (.ok ⟨"t2", ⟨4600, 0⟩⟩),
    demandAt1000 (.ok ⟨"t3", ⟨4600, 0⟩⟩)]

/-- The lock when they all had their turns. -/
def contendedLock : TokenLock String emptySlot.margin :=
  rivals.foldl (fun d demand => d.serve demand (d.waiting.drop 1)) ⟨emptySlot, none, rivals, []⟩

theorem token_slot_serves_in_turn_contendedLock :
    TokenLock.Reachable emptySlot contendedLock ∧
      renewalCount contendedLock.turns = 2 ∧
      ∀ t ∈ contendedLock.turns.drop 2, t.renewals = 0 ∧ t.result = .ok ⟨"t2", false⟩ := by
  have hcome : TokenLock.Reachable emptySlot ⟨emptySlot, none, rivals, []⟩ :=
    ((TokenLock.Reachable.start.step (.arrive _ _)).step (.arrive _ _)).step (.arrive _ _)
  have hreachable : TokenLock.Reachable emptySlot contendedLock :=
    ((hcome.serve rfl (List.nil_append _).symm).serve rfl (List.nil_append _).symm).serve rfl
      (List.nil_append _).symm
  obtain ⟨-, -, -, hgroup, -⟩ := token_slot_serves_in_turn emptySlot hreachable
  have hturns : contendedLock.turns = [] ++ (contendedLock.turns.take 1 ++
      contendedLock.turns[1] :: contendedLock.turns.drop 2) ++ [] := rfl
  exact ⟨hreachable, hgroup _ _ _ _ _ ⟨"t2", ⟨4600, 0⟩⟩ hturns (by decide) (by decide) rfl rfl⟩

end DepositSync
