import CorpoPay.Onboarding.Onboarding
import CorpoPay.Transaction.Pool

/-!
# Onboarding persistence

`onboarding-db.ts`: the record of a tenant, which its owner drafts and submits and a reviewer approves, rejects or sends
back. Each operation reads the record in one statement and writes it in another.
-/

namespace CorpoPay.Onboarding

open Settlement (PolicySpec)

structure MerchantOnboarding extends KycFields where
  id : String
  tenantId : String
  status : OnboardingStatus
  riskTier : RiskTier
  submittedAt : Option Nat
  reviewerId : Option String
  reviewNotes : Option String
  rejectionReason : Option String
  approvedAt : Option Nat
  deriving DecidableEq, Repr

/-- The table of the records. -/
structure Db where
  merchantOnboardings : List MerchantOnboarding
  deriving DecidableEq, Repr

/-! ## The outside world -/

inductive Query
  | now
  | cuid
  deriving Repr

abbrev Answer : Query → Type
  | .now => Nat
  | .cuid => String

structure World where
  answered : Nat
  clock : Nat → Nat
  cuid : Nat → String

def World.reply (w : World) (q : Query) : Answer q × World :=
  (match q with
    | .now => w.clock w.answered
    | .cuid => w.cuid w.answered,
    { w with answered := w.answered + 1 })

inductive Failure
  | onboardingError (e : OnboardingError)
  /-- The row to update is not there. -/
  | recordNotFound
  | aborted
  deriving DecidableEq, Repr

abbrev Backend : Transaction.Interface where
  Store := Db
  Lock := Empty
  World := World
  Query := Query
  Answer := Answer
  reply := World.reply
  Err := Failure
  aborted := .aborted

abbrev Tx := Transaction.Tx Backend

abbrev Job := Transaction.Job Backend

export Transaction (select change transaction)

/-- A check that throws. -/
def check (r : Except OnboardingError Unit) : Job Unit :=
  @Transaction.Job.ofExcept Backend Unit (r.mapError .onboardingError)

/-! ## Statements -/

def Db.onboarding (db : Db) (tenantId : String) : Option MerchantOnboarding :=
  db.merchantOnboardings.find? (·.tenantId = tenantId)

/-- `UPDATE … WHERE tenantId = …` -/
def Db.updateOnboarding (db : Db) (tenantId : String) (f : MerchantOnboarding → MerchantOnboarding) : Db :=
  { db with merchantOnboardings := db.merchantOnboardings.map fun r => if r.tenantId = tenantId then f r else r }

/-- `INSERT … ON CONFLICT (tenantId) DO UPDATE …` -/
def Db.upsertOnboarding (db : Db) (row : MerchantOnboarding) (f : MerchantOnboarding → MerchantOnboarding) : Db :=
  match db.onboarding row.tenantId with
  | some _ => db.updateOnboarding row.tenantId f
  | none => { db with merchantOnboardings := db.merchantOnboardings ++ [row] }

/-- A write returns the row as it is afterwards. -/
def returning (tenantId : String) : Tx MerchantOnboarding := do
  match ← select (·.onboarding tenantId) with
  | some row => pure row
  | none => .throw .recordNotFound

/-- `prisma.merchantOnboarding.update(…)` -/
def update (tenantId : String) (f : MerchantOnboarding → MerchantOnboarding) : Job MerchantOnboarding :=
  transaction do
    change (·.updateOnboarding tenantId f)
    returning tenantId

/-! ## Operations -/

def getOnboarding (tenantId : String) : Job (Option MerchantOnboarding) :=
  @Transaction.Job.get Backend _ (·.onboarding tenantId)

/-- The fields of a request in a row. -/
def MerchantOnboarding.setFields (row : MerchantOnboarding) (input : OnboardingFields) : MerchantOnboarding :=
  { row with
    toKycFields := input.toKycFields
    riskTier := input.riskTier.getD (suggestedRiskTier input.industry) }

/-- The row of a tenant that has none. -/
def draft (id tenantId : String) (input : OnboardingFields) : MerchantOnboarding :=
  { input.toKycFields with
    id, tenantId
    status := .draft
    riskTier := input.riskTier.getD (suggestedRiskTier input.industry)
    submittedAt := none
    reviewerId := none
    reviewNotes := none
    rejectionReason := none
    approvedAt := none }

/-- Create (or update) the tenant's onboarding, whatever its status. -/
def upsertOnboarding (tenantId : String) (input : OnboardingFields) : Job MerchantOnboarding := do
  let id ← Backend.ask .cuid
  transaction do
    change (·.upsertOnboarding (draft id tenantId input) (·.setFields input))
    returning tenantId

/-- The record of the tenant, or the error of an operation that needs one. -/
def existing (tenantId message : String) : Job MerchantOnboarding := do
  match ← getOnboarding tenantId with
  | some onboarding => pure onboarding
  | none => .throw (.onboardingError ⟨message, 404, "ONBOARDING_NOT_FOUND"⟩)

def submitOnboarding (tenantId : String) : Job MerchantOnboarding := do
  let onboarding ← existing tenantId "onboarding not found — create it first"
  check (assertTransition onboarding.status .submitted)
  check (validateOnboarding onboarding.toKycFields)
  let now ← Backend.ask .now
  update tenantId fun r => { r with status := .submitted, submittedAt := some now }

def approveOnboarding (tenantId reviewerId : String) : Job (MerchantOnboarding × PolicySpec) := do
  let onboarding ← existing tenantId "onboarding not found"
  check (assertTransition onboarding.status .approved)
  let now ← Backend.ask .now
  let approved ← update tenantId fun r =>
    { r with status := .approved, approvedAt := some now, reviewerId := some reviewerId }
  pure (approved, policySpecForIndustry onboarding.industry onboarding.mcc)

def rejectOnboarding (tenantId reviewerId reason : String) : Job MerchantOnboarding := do
  let onboarding ← existing tenantId "onboarding not found"
  check (assertTransition onboarding.status .rejected)
  update tenantId fun r =>
    { r with status := .rejected, reviewerId := some reviewerId, rejectionReason := some reason }

def requestInfoOnboarding (tenantId reviewerId notes : String) : Job MerchantOnboarding := do
  let onboarding ← existing tenantId "onboarding not found"
  check (assertTransition onboarding.status .needsInfo)
  update tenantId fun r =>
    { r with status := .needsInfo, reviewerId := some reviewerId, reviewNotes := some notes }

/-- A call of one of the operations. -/
inductive Operation
  | upsert (tenantId : String) (input : OnboardingFields)
  | submit (tenantId : String)
  | approve (tenantId reviewerId : String)
  | reject (tenantId reviewerId reason : String)
  | requestInfo (tenantId reviewerId notes : String)
  deriving DecidableEq, Repr

def Operation.job : Operation → Job Unit
  | .upsert tenantId input => do let _ ← upsertOnboarding tenantId input
  | .submit tenantId => do let _ ← submitOnboarding tenantId
  | .approve tenantId reviewerId => do let _ ← approveOnboarding tenantId reviewerId
  | .reject tenantId reviewerId reason => do let _ ← rejectOnboarding tenantId reviewerId reason
  | .requestInfo tenantId reviewerId notes => do let _ ← requestInfoOnboarding tenantId reviewerId notes

end CorpoPay.Onboarding
