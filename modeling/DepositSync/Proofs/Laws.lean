import DepositSync.Job.Entity

/-!
# DepositSync.Proofs.Laws

What proofs need to know about rows, whichever kind they are of: what changing a signature leaves
alone, and what a row that is made for a report or a rejection holds. Both kinds of rows have these
properties.
-/

namespace DepositSync

/-- Rows that change in nothing else when they are signed, and are never stale when they are
invalid. -/
class LawfulRecord (ρ : Type) [Record ρ] : Prop where
  key_withCreatedBy (name : String) (r : ρ) :
    Record.key (Record.withCreatedBy name r) = Record.key r
  key_withUpdatedBy (name : String) (r : ρ) :
    Record.key (Record.withUpdatedBy name r) = Record.key r
  isInvalid_withCreatedBy (name : String) (r : ρ) :
    Record.isInvalid (Record.withCreatedBy name r) = Record.isInvalid r
  isInvalid_withUpdatedBy (name : String) (r : ρ) :
    Record.isInvalid (Record.withUpdatedBy name r) = Record.isInvalid r
  isStale_withCreatedBy (name : String) (r : ρ) :
    Record.isStale (Record.withCreatedBy name r) = Record.isStale r
  createdBy_withCreatedBy (name : String) (r : ρ) :
    Record.createdBy (Record.withCreatedBy name r) = name
  isStale_of_isInvalid (r : ρ) : Record.isInvalid r = true → Record.isStale r = false

attribute [simp] LawfulRecord.key_withCreatedBy LawfulRecord.key_withUpdatedBy
  LawfulRecord.isInvalid_withCreatedBy LawfulRecord.isInvalid_withUpdatedBy
  LawfulRecord.isStale_withCreatedBy LawfulRecord.createdBy_withCreatedBy

/-- Does a report say that the client has nothing that is worth a row? -/
def Entity.isEmptyReport (ρ : Type) {ν : Type} [Entity ν ρ] (report : ν) : Bool :=
  Record.isStale (ofReport "" "" report : ρ)

/-- Rows that are made for their client, and say of it what the vendor says. -/
class LawfulEntity (ρ : Type) {ν : outParam Type} [Entity ν ρ] : Prop extends LawfulRecord ρ where
  key_ofReport (client provider : String) (report : ν) :
    Record.key (Entity.ofReport client provider report : ρ) = (client, provider)
  key_degraded (client provider : String) (isInvalid : Bool) (apiError : Option String) :
    Record.key (Entity.degraded client provider isInvalid apiError : ρ) = (client, provider)
  isInvalid_ofReport (client provider : String) (report : ν) :
    Record.isInvalid (Entity.ofReport client provider report : ρ) = false
  isInvalid_degraded (client provider : String) (isInvalid : Bool) (apiError : Option String) :
    Record.isInvalid (Entity.degraded client provider isInvalid apiError : ρ) = isInvalid
  isStale_ofReport (client provider : String) (report : ν) :
    Record.isStale (Entity.ofReport client provider report : ρ) = Entity.isEmptyReport ρ report
  isStale_degraded (client provider : String) (isInvalid : Bool) (apiError : Option String) :
    Record.isStale (Entity.degraded client provider isInvalid apiError : ρ) = !isInvalid

attribute [simp] LawfulEntity.key_ofReport LawfulEntity.key_degraded
  LawfulEntity.isInvalid_ofReport LawfulEntity.isInvalid_degraded
  LawfulEntity.isStale_ofReport LawfulEntity.isStale_degraded

instance : LawfulEntity PortfolioRecord where
  key_withCreatedBy _ _ := rfl
  key_withUpdatedBy _ _ := rfl
  isInvalid_withCreatedBy _ _ := rfl
  isInvalid_withUpdatedBy _ _ := rfl
  isStale_withCreatedBy _ _ := rfl
  createdBy_withCreatedBy _ _ := rfl
  isStale_of_isInvalid r h := by
    change (!r.isInvalid && r.activeDeposits == 0) = false
    rw [show r.isInvalid = true from h]
    rfl
  key_ofReport _ _ _ := rfl
  key_degraded _ _ _ _ := rfl
  isInvalid_ofReport _ _ _ := rfl
  isInvalid_degraded _ _ _ _ := rfl
  isStale_ofReport _ _ _ := rfl
  isStale_degraded _ _ isInvalid _ := by cases isInvalid <;> rfl

instance : LawfulEntity PendingJourneyRecord where
  key_withCreatedBy _ _ := rfl
  key_withUpdatedBy _ _ := rfl
  isInvalid_withCreatedBy _ _ := rfl
  isInvalid_withUpdatedBy _ _ := rfl
  isStale_withCreatedBy _ _ := rfl
  createdBy_withCreatedBy _ _ := rfl
  isStale_of_isInvalid r h := by
    change (!r.isInvalid && !r.pending) = false
    rw [show r.isInvalid = true from h]
    rfl
  key_ofReport _ _ _ := rfl
  key_degraded _ _ _ _ := rfl
  isInvalid_ofReport _ _ _ := rfl
  isInvalid_degraded _ _ _ _ := rfl
  isStale_ofReport _ _ _ := rfl
  isStale_degraded _ _ isInvalid _ := by cases isInvalid <;> rfl

/-- A report on a net worth is empty if there are no active deposits. -/
@[simp] theorem isEmptyReport_portfolio (worth : NetWorth) :
    Entity.isEmptyReport PortfolioRecord worth = (worth.activeDeposits == 0) := rfl

/-- A report on a journey is empty if nothing is pending. -/
@[simp] theorem isEmptyReport_pendingJourney (journey : Journey) :
    Entity.isEmptyReport PendingJourneyRecord journey = !journey.pending := rfl

/-! ### Rows for answers -/

namespace Entity

variable {ν ρ : Type} [Entity ν ρ]

/-- The row for a client the vendor was asked about: what it reported, or that it rejected the
client. -/
def ofAnswer (provider : String) : String × Except VendorError ν → ρ
  | (client, .ok report) => ofReport client provider report
  | (client, .error e) => ofError client provider e

/-- Does the vendor say that it does not know the client? -/
def disowns (ρ : Type) {ν : Type} [Entity ν ρ] (client : String) : Except VendorError ν → Bool
  | .ok _ => false
  | .error e => isNotFound ρ e client

/-- Does the answer leave the client with a row that is not worth keeping? A report does that is
empty, and so does every rejection of a client that the vendor knows. -/
def empties (ρ : Type) {ν : Type} [Entity ν ρ] (client : String) : Except VendorError ν → Bool
  | .ok report => isEmptyReport ρ report
  | .error e => !isNotFound ρ e client

variable [LawfulEntity ρ]

@[simp] theorem key_ofAnswer (provider : String) (asked : String × Except VendorError ν) :
    Record.key (ofAnswer provider asked : ρ) = (asked.1, provider) := by
  rcases asked with ⟨client, e | report⟩
  · exact LawfulEntity.key_degraded client provider _ _
  · exact LawfulEntity.key_ofReport client provider _

@[simp] theorem isInvalid_ofAnswer (provider : String) (asked : String × Except VendorError ν) :
    Record.isInvalid (ofAnswer provider asked : ρ) = disowns ρ asked.1 asked.2 := by
  rcases asked with ⟨client, e | report⟩
  · exact LawfulEntity.isInvalid_degraded client provider _ _
  · exact LawfulEntity.isInvalid_ofReport client provider _

@[simp] theorem isStale_ofAnswer (provider : String) (asked : String × Except VendorError ν) :
    Record.isStale (ofAnswer provider asked : ρ) = empties ρ asked.1 asked.2 := by
  rcases asked with ⟨client, e | report⟩
  · exact LawfulEntity.isStale_degraded client provider _ _
  · exact LawfulEntity.isStale_ofReport client provider _

end Entity

end DepositSync
