import DepositSync.Time.Span
import DepositSync.Width

/-!
# DepositSync.Vendor.Token

The access token, kept until shortly before it expires. There is one place for it. Whoever needs
a token holds the place while looking at it, and while renewing the token if that is necessary, so
that calls at the same time share one renewal.
-/

namespace DepositSync

open Time (Moment Span)

/-- An access token. -/
structure Token where
  value : String
  expiresAt : Moment
  deriving DecidableEq, Repr, Inhabited

/-- A token as handed out. -/
structure IssuedToken where
  value : String
  /-- Was the token renewed for this call? -/
  renewed : Bool
  deriving DecidableEq, Repr, Inhabited

/-- The place for the token. -/
structure TokenCache where
  /-- A token counts as expired so many nanoseconds before it is. -/
  margin : Nat
  held : Option Token
  deriving DecidableEq, Repr, Inhabited

namespace TokenCache

/-- A longer margin, in nanoseconds, counts as none. -/
def maxMargin : Nat := Width.maxNat 63 * 1000000

/-- An empty place. -/
def empty (margin : Span) : TokenCache :=
  ⟨if margin.nanos ≤ maxMargin then margin.nanos else 0, none⟩

/-- Does a token have to be fetched? There is no answer when a token is held and the time at which
it would have to live on is beyond the supported calendar. -/
def needsRenewal? (cache : TokenCache) (now : Moment) : Option Bool :=
  match cache.held with
  | none => some true
  | some token => (now.addNanos? cache.margin).map token.expiresAt.le

/-- The place with a token in it. -/
def hold (cache : TokenCache) (token : Token) : TokenCache :=
  { cache with held := some token }

/-- The token held. -/
def value (cache : TokenCache) : String :=
  (cache.held.map Token.value).getD ""

/-- Hands out the token: the one that is held, or a fresh one from `renew`. A failed renewal leaves
the place as it was. There is no result when `needsRenewal?` has none. -/
def issue {m : Type → Type} [Monad m] {ε : Type} (cache : TokenCache) (now : Moment)
    (renew : m (Except ε Token)) : m (Option (TokenCache × Except ε IssuedToken)) :=
  match cache.needsRenewal? now with
  | none => pure none
  | some false => pure (some (cache, .ok ⟨cache.value, false⟩))
  | some true => do
    match ← renew with
    | .error e => pure (some (cache, .error e))
    | .ok token => pure (some (cache.hold token, .ok ⟨token.value, true⟩))

@[simp] theorem needsRenewal?_of_empty {cache : TokenCache} (h : cache.held = none)
    (now : Moment) : cache.needsRenewal? now = some true := by
  simp [needsRenewal?, h]

end TokenCache

end DepositSync
