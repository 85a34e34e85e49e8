import CorpoPay.Billing.Subscriptions

/-!
# Installment agreements (`installmentCharge.inngest.ts`, `webhookProcessor.inngest.ts`, `routes/installmentAgreements.ts`)

The first installment is paid at the checkout, and its notification starts the chain: the job of an installment charges it
and sends the event of the next one. The random bytes of `encrypt(…)`, the audit log and the event that asks a run to stop
are left out: nothing reads them.
-/

namespace CorpoPay.Billing

open Settlement (Db Failure Id InstallmentAgreement InstallmentAgreementStatus InstallmentCharge Json)

structure AgreementRuntime extends toBilling : Runtime where
  /-- `encrypt(…)` of a profile. -/
  encrypt : String → Except Failure String

/-! ## Events -/

/-- `agreementId.slice(-8)` -/
def lastEight (id : String) : String := String.ofList (id.toList.drop (id.toList.length - 8))

/-- The texts of the charge of an installment. -/
def installmentKey (agreementId : String) (number dueDate : Nat) : ChargeKey :=
  { chargeId := "inst-" ++ lastEight agreementId ++ "-" ++ toString number
    idempotencyId := agreementId ++ "-inst-" ++ toString number
    dueDate }

def installmentOf (agreementId : String) (tenantId : Id) (number dueDate : Nat) : InstallmentDue :=
  { agreementId, installmentNumber := number, tenantId, key := installmentKey agreementId number dueDate }

/-! ## `billing/installment.charge.due` -/

inductive InstallmentResult
  | complete
  | scheduled (nextInstallment nextChargeDate : Nat)
  | defaulted (installmentNumber : Nat)
  deriving DecidableEq, Repr

/-- Shared success handler. -/
def onInstallmentSuccess (data : InstallmentDue) : Job InstallmentResult := do
  match ← selectOnce (·.installmentAgreement data.agreementId) with
  | none => Backend.throw notFound
  | some agreement =>
      let newPaidCount := agreement.paidCount + 1
      if agreement.totalInstallments ≤ newPaidCount then do
        let _ ← transaction (updateAgreement data.agreementId fun r =>
          { r with paidCount := newPaidCount, status := .completed, inngestRunId := none, nextChargeDate := none })
        pure .complete
      else do
        let now ← now
        let nextChargeDate := Data.addMonths now 1
        let _ ← transaction (updateAgreement data.agreementId fun r =>
          { r with paidCount := newPaidCount, nextChargeDate := some nextChargeDate, inngestRunId := none })
        let nextNumber := data.installmentNumber + 1
        send [.installmentDue (installmentOf data.agreementId agreement.tenantId nextNumber nextChargeDate)]
        pure (.scheduled nextNumber nextChargeDate)

def defaulted (r : InstallmentAgreement) : InstallmentAgreement := { r with status := .defaulted, inngestRunId := none }

/-- Step `mark-defaulted`. -/
def markDefaulted (data : InstallmentDue) : Job InstallmentResult := do
  let _ ← transaction (updateAgreement data.agreementId defaulted)
  pure (.defaulted data.installmentNumber)

/-- The status is checked again before a retry. -/
def stopsInstallment (data : InstallmentDue) (nextAttempt : Nat) : Job (Option String) := do
  match ← selectOnce (·.installmentAgreement data.agreementId) with
  | none => pure none
  | some agreement =>
      if agreement.status = .cancelled then pure (some ("Cancelled before retry " ++ toString nextAttempt)) else pure none

def installmentLadder (rt : Runtime) (data : InstallmentDue) : DunningLadder InstallmentResult where
  maxAttempts := 4
  delays := [1, 2, 4]
  attempt := chargeInstallment rt data
  shouldStop := stopsInstallment data
  onSuccess _ := onInstallmentSuccess data
  onFailure _ := pure ()
  onExhausted := markDefaulted data

def startedBy (runId : Nat) (r : InstallmentAgreement) : InstallmentAgreement := { r with inngestRunId := some runId }

/-- The job has no retries. -/
def installmentCharge (rt : Runtime) (data : InstallmentDue) : Job (LadderResult InstallmentResult) := do
  let runId ← Backend.ask .runId
  match ← selectOnce (·.installmentAgreement data.agreementId) with
  | none => Backend.throw notFound
  | some agreement =>
      if agreement.status.isClosed then pure (.skipped ("Agreement is " ++ agreement.status.code))
      else do
        let _ ← transaction (updateAgreement data.agreementId (startedBy runId))
        runDunningLadder (installmentLadder rt data)

/-! ## The checkout -/

/-- `encrypt(storedProfileId)` -/
def encryptProfile (rt : AgreementRuntime) : Json → Except Failure String
  | .str profileId => rt.encrypt profileId
  | _ => .error (.error "The data argument must be of type string")

/-- The row of the down payment. -/
def downPaymentCharge (agreementId : String) (agreement : InstallmentAgreement) (dueDate processedAt : Nat) (id : String) :
    InstallmentCharge :=
  { id, agreementId, installmentNumber := 1, dueDate, amount := agreement.downPayment, currency := agreement.currency,
    status := .charged, chargeId := "down-" ++ agreementId, vpsTransactionId := none, attemptNumber := 1, processedAt,
    errorMessage := none }

def activated (encryptedProfileId : String) (nextChargeDate : Nat) (r : InstallmentAgreement) : InstallmentAgreement :=
  { r with
    encryptedStoredProfileId := encryptedProfileId
    status := .active
    paidCount := 1
    nextChargeDate := some nextChargeDate }

/-- `prisma.$transaction([…])` of the activation and the row of the down payment. -/
def activate (agreementId : String) (agreement : InstallmentAgreement) (encryptedProfileId : String)
    (nextChargeDate dueDate processedAt : Nat) : Tx Unit := do
  let _ ← updateAgreement agreementId (activated encryptedProfileId nextChargeDate)
  createInstallmentCharge (downPaymentCharge agreementId agreement dueDate processedAt)

/-- The event of the second installment. An agreement of a single one is complete. -/
def startInstallments (agreementId : String) (agreement : InstallmentAgreement) (nextChargeDate : Nat) : Job Unit :=
  if 1 < agreement.totalInstallments then
    send [.installmentDue (installmentOf agreementId agreement.tenantId 2 nextChargeDate)]
  else
    discard (transaction (updateAgreement agreementId fun r => { r with status := .completed, nextChargeDate := none }))

/-- Step `bootstrap-installment-agreement`, for a payment of an intent that is tagged with the agreement. -/
def bootstrapInstallmentAgreement (rt : AgreementRuntime) (agreementId : String) (payload : Json) : Job Unit := do
  let found ← ofExcept (payload.coalesce ["storedPaymentProfileId", "paymentProfileId", "profileId"])
  match found.filter (·.truthy) with
  | none => pure ()
  | some storedProfileId => do
      match ← selectOnce (·.installmentAgreement agreementId) with
      | none => pure ()
      | some agreement =>
          if agreement.status ≠ .pendingCheckout then pure ()
          else do
            let encryptedProfileId ← ofExcept (encryptProfile rt storedProfileId)
            let nextChargeDate := Data.addMonths (← now) 1
            let dueDate ← now
            let processedAt ← now
            transaction (activate agreementId agreement encryptedProfileId nextChargeDate dueDate processedAt)
            startInstallments agreementId agreement nextChargeDate

/-! ## Routes -/

def agreementNotFound : Failure := .appError 404 "AGREEMENT_NOT_FOUND" "Installment agreement not found"

def cancelled (r : InstallmentAgreement) : InstallmentAgreement := { r with status := .cancelled, inngestRunId := none }

/-- `POST /installment-agreements/:id/cancel` -/
def cancelAgreement (tenantId : Id) (id : String) : Job InstallmentAgreementStatus := do
  match ← selectOnce fun db => db.installmentAgreements.find? fun r => r.id = id ∧ r.tenantId = tenantId with
  | none => Backend.throw agreementNotFound
  | some agreement =>
      if agreement.status ≠ .active ∧ agreement.status ≠ .pendingCheckout then
        Backend.throw (.appError 400 "INVALID_STATE" ("Cannot cancel agreement in " ++ agreement.status.code ++ " state"))
      else do
        let updated ← transaction (updateAgreement agreement.id cancelled)
        pure updated.status

/-! ## What happens to agreements -/

/-- The jobs that the queue starts, the notifications of down payments, and the requests of merchants. -/
inductive AgreementRequest
  | due (data : InstallmentDue)
  | bootstrap (agreementId : String) (payload : Json)
  | cancel (tenantId : Id) (id : String)

def AgreementRequest.job (rt : AgreementRuntime) : AgreementRequest → Job Unit
  | .due data => onEvent (.installmentDue data) (installmentCharge rt.toBilling data)
  | .bootstrap agreementId payload =>
      stepRun DEFAULT_RETRIES (bootstrapInstallmentAgreement rt agreementId payload)
  | .cancel tenantId id => discard (cancelAgreement tenantId id)

end CorpoPay.Billing
