import CorpoPay.Billing.Queue
import CorpoPay.Settlement.Registry

/-!
# Charges and dunning (`dunning.ts`)

One attempt to charge a subscription or an installment, and the ladder of attempts. The masked response of the provider
is left out: nothing reads it.
-/

namespace CorpoPay.Settlement

def SubscriptionStatus.code : SubscriptionStatus → String
  | .pending => "PENDING"
  | .active => "ACTIVE"
  | .paused => "PAUSED"
  | .cancelled => "CANCELLED"
  | .pastDue => "PAST_DUE"
  | .expired => "EXPIRED"

def InstallmentAgreementStatus.code : InstallmentAgreementStatus → String
  | .pendingCheckout => "PENDING_CHECKOUT"
  | .active => "ACTIVE"
  | .completed => "COMPLETED"
  | .defaulted => "DEFAULTED"
  | .cancelled => "CANCELLED"

def Db.subscription (db : Db) (id : String) : Option Subscription := db.subscriptions.find? (·.id = id)

def Db.installmentAgreement (db : Db) (id : String) : Option InstallmentAgreement :=
  db.installmentAgreements.find? (·.id = id)

def InstallmentAgreementStatus.isClosed (status : InstallmentAgreementStatus) : Bool :=
  status = .cancelled || status = .completed || status = .defaulted

/-- The connected provider of the stored profiles. -/
def Db.vpsConfig (db : Db) (tenantId : Id) : Option ProviderConfig :=
  db.providerConfigs.find? fun r => r.tenantId = tenantId ∧ r.provider = .vps ∧ r.status = .connected

end CorpoPay.Settlement

namespace CorpoPay.Billing

open Settlement (BillingEvent ChargeStatus Db Failure Id InstallmentAgreement InstallmentAgreementStatus InstallmentCharge
  Subscription SubscriptionStatus getAdapter)
open Data (DAY_MS)

/-- What the jobs call outside their own source and without any effect. -/
structure Runtime extends Settlement.Runtime where
  /-- `decrypt(…)` of a stored profile. -/
  decrypt : String → Except Failure String

/-! ## Rows -/

def notFound : Failure := .prismaError "P2025"

/-- Update a `Subscription` row by id and return it. -/
def updateSubscription (id : String) (f : Subscription → Subscription) : Tx Subscription := do
  Backend.lock (.subscription id)
  match ← select (·.subscription id) with
  | none => Backend.fail notFound
  | some row => do
      change fun db => { db with subscriptions := db.subscriptions.map fun r => if r.id = id then f r else r }
      pure (f row)

/-- Update an `InstallmentAgreement` row by id and return it. -/
def updateAgreement (id : String) (f : InstallmentAgreement → InstallmentAgreement) : Tx InstallmentAgreement := do
  Backend.lock (.installmentAgreement id)
  match ← select (·.installmentAgreement id) with
  | none => Backend.fail notFound
  | some row => do
      change fun db =>
        { db with installmentAgreements := db.installmentAgreements.map fun r => if r.id = id then f r else r }
      pure (f row)

/-- Insert a `BillingEvent` row: its id is unique. -/
def createBillingEvent (row : BillingEvent) : Tx Unit := do
  Backend.lock (.billingEvent row.id)
  if ← select (·.billingEvents.any (·.id = row.id)) then Backend.fail (.prismaError "P2002")
  else change fun db => { db with billingEvents := db.billingEvents ++ [row] }

/-- Update the row with the id, or insert it. -/
def upsertBillingEvent (row : BillingEvent) : Tx Unit := do
  Backend.lock (.billingEvent row.id)
  if ← select (·.billingEvents.any (·.id = row.id)) then
    change fun db =>
      { db with
        billingEvents := db.billingEvents.map fun r =>
          if r.id = row.id then
            { r with
              vpsTransactionId := row.vpsTransactionId
              status := row.status
              processedAt := row.processedAt
              errorMessage := row.errorMessage }
          else r }
  else change fun db => { db with billingEvents := db.billingEvents ++ [row] }

def createInstallmentCharge (row : String → InstallmentCharge) : Tx Unit := do
  let id ← cuid
  Backend.lock (.installmentCharge id)
  if ← select (·.installmentCharges.any (·.id = id)) then Backend.fail (.prismaError "P2002")
  else change fun db => { db with installmentCharges := db.installmentCharges ++ [row id] }

def updateInstallmentCharge (id : String) (f : InstallmentCharge → InstallmentCharge) : Tx Unit := do
  Backend.lock (.installmentCharge id)
  if ← select (·.installmentCharges.any (·.id = id)) then
    change fun db =>
      { db with installmentCharges := db.installmentCharges.map fun r => if r.id = id then f r else r }
  else Backend.fail notFound

/-! ## Attempts -/

structure ChargeAttemptResult where
  success : Bool
  vpsTransactionId : Option String
  errorMessage : Option String
  deriving DecidableEq, Repr

def refused (errorMessage : String) : ChargeAttemptResult :=
  { success := false, vpsTransactionId := none, errorMessage := some errorMessage }

def ChargeRenewalResult.attempt (result : ChargeRenewalResult) : ChargeAttemptResult :=
  { success := result.success, vpsTransactionId := result.providerTransactionId
    errorMessage := if result.success then none else some (result.message.getD "Charge declined") }

def ChargeRenewalResult.status (result : ChargeRenewalResult) : ChargeStatus :=
  if result.success then .charged else .declined

/-- The call of the adapter with the stored profile. The adapter of the demo mode has no such method. -/
def chargeProfile (rt : Runtime) (tenantId : Id) (encryptedProfileId : String) (charge : String → RenewalCharge)
    (record : ChargeRenewalResult → Job Unit) : Job ChargeAttemptResult := do
  match ← selectOnce (·.vpsConfig tenantId) with
  | none => pure (refused "VPS provider config not found or disconnected")
  | some config => do
      let adapter ← ofExcept (getAdapter rt.toRuntime .vps config.encryptedCredentials)
      let profileId ← ofExcept (rt.decrypt encryptedProfileId)
      match adapter with
      | .vps _ => do
          match ← Backend.ask (.chargeRenewal (charge profileId)) with
          | .error message => Backend.throw (.providerError message)
          | .ok result => do
              record result
              pure result.attempt
      | _ => Backend.throw (.error "adapter.chargeRenewal is not a function")

/-- The row of an attempt. Its id is the text of the attempt, cut off. -/
def recordBillingEvent (data : RenewalDue) (attempt : Nat) (result : ChargeRenewalResult) : Job Unit := do
  let processedAt ← now
  let row (id : String) : BillingEvent :=
    { id, subscriptionId := data.subscriptionId, chargeId := retryText data.key.chargeId attempt,
      vpsTransactionId := result.providerTransactionId, amount := data.amount, currency := data.currency,
      status := result.status, attemptNumber := attempt, processedAt, errorMessage := result.attempt.errorMessage }
  let text := data.subscriptionId ++ "-" ++ retryText data.key.idempotencyId attempt ++ "-" ++ toString attempt
  (transaction (upsertBillingEvent (row (String.ofList (text.toList.take 25))))).orElse fun _ =>
    transaction do
      let id ← cuid
      createBillingEvent (row id)

/-- Attempt a single renewal charge for a subscription. -/
def chargeSubscription (rt : Runtime) (data : RenewalDue) (attempt : Nat) : Job ChargeAttemptResult := do
  match ← selectOnce (·.subscription data.subscriptionId) with
  | none => Backend.throw notFound
  | some subscription =>
      if subscription.status = .cancelled ∨ subscription.status = .expired then
        pure (refused ("Subscription is " ++ subscription.status.code))
      else
        chargeProfile rt data.tenantId subscription.encryptedStoredProfileId
          (fun profileId =>
            { source := data.subscriptionId, profileId, amountCentimes := data.amount, currency := data.currency,
              key := data.key, attempt })
          (recordBillingEvent data attempt)

/-- The row of an installment, one for all its attempts. -/
def recordInstallmentCharge (agreement : InstallmentAgreement) (data : InstallmentDue) (attempt : Nat)
    (result : ChargeRenewalResult) : Job Unit := do
  let processedAt ← now
  match ← selectOnce (·.installmentCharges.find? fun r =>
      r.agreementId = data.agreementId ∧ r.installmentNumber = data.installmentNumber) with
  | some existing =>
      transaction (updateInstallmentCharge existing.id fun r =>
        { r with
          status := result.status
          vpsTransactionId := result.providerTransactionId
          attemptNumber := attempt
          processedAt
          errorMessage := result.attempt.errorMessage })
  | none => do
      let dueDate ← now
      transaction (createInstallmentCharge fun id =>
        { id, agreementId := data.agreementId, installmentNumber := data.installmentNumber, dueDate,
          amount := agreement.installmentAmount, currency := agreement.currency, status := result.status,
          chargeId := retryText data.key.chargeId attempt, vpsTransactionId := result.providerTransactionId,
          attemptNumber := attempt, processedAt, errorMessage := result.attempt.errorMessage })

/-- Attempt a single renewal charge for one installment. -/
def chargeInstallment (rt : Runtime) (data : InstallmentDue) (attempt : Nat) : Job ChargeAttemptResult := do
  match ← selectOnce (·.installmentAgreement data.agreementId) with
  | none => Backend.throw notFound
  | some agreement =>
      if agreement.status.isClosed then pure (refused ("Agreement is " ++ agreement.status.code))
      else
        chargeProfile rt data.tenantId agreement.encryptedStoredProfileId
          (fun profileId =>
            { source := data.agreementId, profileId, amountCentimes := agreement.installmentAmount,
              currency := agreement.currency, key := data.key, attempt })
          (recordInstallmentCharge agreement data attempt)

/-! ## The ladder -/

/-- What a ladder does around its attempts. The number is the one of the attempt. The result of the attempt is passed on too,
and nothing reads it. -/
structure DunningLadder (α : Type) where
  maxAttempts : Nat
  /-- In days, before the attempts from the second one on. -/
  delays : List Nat
  attempt : Nat → Job ChargeAttemptResult
  /-- The reason to stop, if there is one. -/
  shouldStop : Nat → Job (Option String)
  onSuccess : Nat → Job α
  onFailure : Nat → Job Unit
  onExhausted : Job α

inductive LadderResult (α : Type)
  | done (result : α)
  | skipped (reason : String)
  deriving DecidableEq, Repr

/-- The attempts from the `n`-th one on, `left` of them. -/
def DunningLadder.climb {α : Type} (ladder : DunningLadder α) : Nat → Nat → Job (LadderResult α)
  | 0, _ => do
      let result ← ladder.onExhausted
      pure (.done result)
  | left + 1, n => do
      let attempted ← ladder.attempt n
      if attempted.success then do
        let result ← ladder.onSuccess n
        pure (.done result)
      else if n < ladder.maxAttempts then do
        ladder.onFailure n
        sleep ((ladder.delays.getD (n - 1) 0) * DAY_MS)
        match ← ladder.shouldStop (n + 1) with
        | some reason => pure (.skipped reason)
        | none => ladder.climb left (n + 1)
      else ladder.climb left (n + 1)

/-- Attempt, then sleep and retry up to `maxAttempts` times. -/
def runDunningLadder {α : Type} (ladder : DunningLadder α) : Job (LadderResult α) := ladder.climb ladder.maxAttempts 1

end CorpoPay.Billing
