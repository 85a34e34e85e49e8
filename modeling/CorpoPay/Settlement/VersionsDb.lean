import CorpoPay.Settlement.Operations

/-!
# Versioned configuration (`fees-db.ts`, `policy-db.ts`)

A fee schedule or a settlement policy is never changed: a new version is added, and the active one before it is
deactivated.
-/

namespace CorpoPay.Settlement

/-! ## Tables with versions -/

/-- A table in which each tenant has versions, with a unique index over the tenant and the version. -/
structure VersionTable (Row : Type) where
  rows : Db → List Row
  put : List Row → Db → Db
  id : Row → Id
  tenantId : Row → Id
  version : Row → Nat
  isActive : Row → Bool
  deactivate : Row → Row
  rowLock : Id → DbLock
  versionLock : Id → Nat → DbLock
  rows_put : ∀ rs db, rows (put rs db) = rs
  tenantId_deactivate : ∀ r, tenantId (deactivate r) = tenantId r
  version_deactivate : ∀ r, version (deactivate r) = version r
  isActive_deactivate : ∀ r, isActive (deactivate r) = false

def feeScheduleTable : VersionTable FeeSchedule where
  rows db := db.feeSchedules
  put rs db := { db with feeSchedules := rs }
  id := (·.id)
  tenantId := (·.tenantId)
  version := (·.version)
  isActive := (·.isActive)
  deactivate r := { r with isActive := false }
  rowLock := .feeSchedule
  versionLock := .feeScheduleVersion
  rows_put _ _ := rfl
  tenantId_deactivate _ := rfl
  version_deactivate _ := rfl
  isActive_deactivate _ := rfl

def settlementPolicyTable : VersionTable SettlementPolicy where
  rows db := db.settlementPolicies
  put rs db := { db with settlementPolicies := rs }
  id := (·.id)
  tenantId := (·.tenantId)
  version := (·.version)
  isActive := (·.isActive)
  deactivate r := { r with isActive := false }
  rowLock := .settlementPolicy
  versionLock := .settlementPolicyVersion
  rows_put _ _ := rfl
  tenantId_deactivate _ := rfl
  version_deactivate _ := rfl
  isActive_deactivate _ := rfl

namespace VersionTable

variable {Row : Type} (T : VersionTable Row)

/-- The versions of one tenant. -/
def ofTenant (tenantId : Id) (db : Db) : List Row := (T.rows db).filter fun r => T.tenantId r = tenantId

/-- `aggregate({ where: { tenantId }, _max: { version: true } })` -/
def maxVersion (tenantId : Id) (db : Db) : Option Nat := ((T.ofTenant tenantId db).map T.version).max?

/-- The rows of the ids `ids` that are active versions of the tenant, set inactive. -/
def setInactive (tenantId : Id) (ids : List Id) (rows : List Row) : List Row :=
  rows.map fun r => if T.tenantId r = tenantId ∧ T.isActive r ∧ T.id r ∈ ids then T.deactivate r else r

/-- `updateMany({ where: { tenantId, isActive: true }, data: { isActive: false } })`. The statement finds its rows first,
waits for the lock of each one, and looks at the condition again. -/
def deactivateActive (tenantId : Id) : Tx Unit := do
  let ids ← select fun db => ((T.ofTenant tenantId db).filter T.isActive).map T.id
  forEach (fun id => Backend.lock (T.rowLock id)) ids
  change fun db => T.put (T.setInactive tenantId ids (T.rows db)) db

/-- Whether the primary key or the version is in the table. -/
def taken (tenantId : Id) (version : Nat) (id : Id) (db : Db) : Bool :=
  (T.rows db).any fun r => T.id r = id ∨ (T.tenantId r = tenantId ∧ T.version r = version)

/-- Insert a row of a tenant. `refersTo` is what its foreign keys ask of the tables. -/
def insert (row : Row) (refersTo : Db → Bool) : Tx Row := do
  let found ← select refersTo
  if found then do
    change fun db => T.put (T.rows db ++ [row]) db
    pure row
  else Backend.fail (.prismaError "P2003")

/-- The body of the transaction that adds a version: the next number, the active version off, the new one in. -/
def createVersion (tenantId : Id) (row : Id → Nat → Row) (refersTo : Db → Bool) : Tx Row := do
  let max ← select (T.maxVersion tenantId)
  let version := max.getD 0 + 1
  T.deactivateActive tenantId
  let id ← freshId
  Backend.lock (T.versionLock tenantId version)
  let taken ← select (T.taken tenantId version id)
  if taken then Backend.fail (.prismaError "P2002")
  else T.insert (row id version) refersTo

end VersionTable

/-! ## Fee schedules -/

structure FeeScheduleInput extends FeeScheduleSpec where
  name : Option String
  currency : Option Currency
  deriving DecidableEq, Repr

/-- Create a new active version (deactivating the prior one) atomically. -/
def createFeeSchedule (tenantId : Id) (input : FeeScheduleInput) : Job FeeSchedule :=
  transaction (feeScheduleTable.createVersion tenantId
    (fun id version =>
      { toFeeScheduleSpec := input.toFeeScheduleSpec, id, tenantId, version, name := input.name,
        currency := input.currency.getD .mad, isActive := true })
    fun _ => true)

/-! ## Settlement policies -/

structure PolicyOverrides where
  industry : Option String := none
  mcc : Option String := none
  availabilityMode : Option AvailabilityMode := none
  availabilityDelayDays : Option Int := none
  reserveType : Option ReserveType := none
  reservePercentageBps : Option Int := none
  reserveHoldDays : Option Int := none
  reserveFixedCents : Option Int := none
  payoutSchedule : Option PayoutSchedule := none
  payoutMinCents : Option Int := none
  reversalFunding : Option ReversalFundingPolicy := none
  allowNegative : Option Bool := none
  splittingEnabled : Option Bool := none
  payoutRail : Option PayoutRail := none
  deriving DecidableEq, Repr

/-- The bounds of `createSettlementPolicySchema` on the numbers. -/
structure PolicyOverrides.Accepted (overrides : PolicyOverrides) : Prop where
  availabilityDelayDays : ∀ n ∈ overrides.availabilityDelayDays, 0 ≤ n
  reservePercentageBps : ∀ n ∈ overrides.reservePercentageBps, 0 ≤ n
  reserveHoldDays : ∀ n ∈ overrides.reserveHoldDays, 0 ≤ n
  reserveFixedCents : ∀ n ∈ overrides.reserveFixedCents, 0 ≤ n
  payoutMinCents : ∀ n ∈ overrides.payoutMinCents, 0 ≤ n

/-- `resolvePolicy` with overrides: each dimension is the override, or else the preset. -/
def resolvePolicyWith (preset : IndustryPreset) (overrides : PolicyOverrides) : PolicySpec where
  industry := some (overrides.industry.getD preset.industry)
  mcc := overrides.mcc.or preset.mcc
  availabilityMode := overrides.availabilityMode.getD preset.availabilityMode
  availabilityDelayDays := overrides.availabilityDelayDays.or preset.availabilityDelayDays
  reserveType := overrides.reserveType.getD preset.reserveType
  reservePercentageBps := overrides.reservePercentageBps.or preset.reservePercentageBps
  reserveHoldDays := overrides.reserveHoldDays.or preset.reserveHoldDays
  reserveFixedCents := overrides.reserveFixedCents.or preset.reserveFixedCents
  payoutSchedule := overrides.payoutSchedule.getD preset.payoutSchedule
  payoutMinCents := overrides.payoutMinCents.or preset.payoutMinCents
  reversalFunding := overrides.reversalFunding.getD preset.reversalFunding
  allowNegative := overrides.allowNegative.getD preset.allowNegative
  splittingEnabled := overrides.splittingEnabled.getD preset.splittingEnabled
  payoutRail := (overrides.payoutRail.or preset.payoutRail).getD .manual

/-- The industry and the mcc of the input are no overrides. -/
structure SettlementPolicyInput extends PolicyOverrides where
  name : Option String
  feeScheduleId : Option Id
  deriving DecidableEq, Repr

/-- The preset and the overrides as a complete policy, with the industry and the mcc as the tenant gave them. -/
def resolveInput (input : SettlementPolicyInput) : PolicySpec :=
  { resolvePolicyWith (presetForIndustry input.industry) { input.toPolicyOverrides with industry := none, mcc := none } with
    industry := input.industry, mcc := input.mcc }

/-- Create a new active version (deactivating the prior one) atomically. -/
def createSettlementPolicy (tenantId : Id) (input : SettlementPolicyInput) : Job SettlementPolicy := do
  let resolved := resolveInput input
  Transaction.Job.ofExcept (validatePolicy resolved)
  transaction (settlementPolicyTable.createVersion tenantId
    (fun id version =>
      { toPolicySpec := resolved, id, tenantId, version, name := input.name, feeScheduleId := input.feeScheduleId,
        isActive := true })
    fun db => input.feeScheduleId.all fun id => db.feeSchedules.any (·.id = id))

/-! ## Requests -/

inductive VersionRequest
  | feeSchedule (tenantId : Id) (input : FeeScheduleInput)
  | settlementPolicy (tenantId : Id) (input : SettlementPolicyInput)

def VersionRequest.job : VersionRequest → Job Unit
  | .feeSchedule tenantId input => discard (createFeeSchedule tenantId input)
  | .settlementPolicy tenantId input => discard (createSettlementPolicy tenantId input)

end CorpoPay.Settlement
