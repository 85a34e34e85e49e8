import CorpoPay.Settlement.IntentDb
import CorpoPay.Settlement.RefundDb

/-!
# Refund route (`routes/refunds.ts`)

The caller is the owner of a tenant. The rows of the audit log and the record of the provider's answer are left out:
nothing reads them.
-/

namespace CorpoPay.Settlement

/-! ## Rows -/

/-- The rows that the partial unique index covers. -/
def Refund.isActive (r : Refund) : Bool := r.status = .pending || r.status = .succeeded

def Db.refundsOf (db : Db) (intentId : Id) : List Refund := db.refunds.filter (·.paymentIntentId = intentId)

/-- Insert a `Refund` row: its id is unique, and an intent has one active refund. -/
def Refund.create (row : Id → Refund) : Tx Refund := do
  let id ← freshId
  let refund := row id
  Backend.lock (.activeRefundOf refund.paymentIntentId)
  let taken ← select fun db =>
    db.refunds.any (·.id = id) || refund.isActive && (db.refundsOf refund.paymentIntentId).any (·.isActive)
  if taken then Backend.fail (.prismaError "P2002")
  else do
    change fun db => { db with refunds := db.refunds ++ [refund] }
    pure refund

/-- Update a `Refund` row by id and return it. -/
def Refund.update (id : Id) (f : Refund → Refund) : Tx Refund := do
  Backend.lock (.refund id)
  let row ← select (·.refunds.find? (·.id = id))
  match row with
  | none => Backend.fail (.prismaError "P2025")
  | some row => do
      change fun db => { db with refunds := db.refunds.map fun r => if r.id = id then f r else r }
      pure (f row)

/-! ## The request -/

def alreadyRefunded (message : String) : Failure := .appError 409 "ALREADY_REFUNDED" message

/-- What the route refuses before it looks for the provider. -/
def checkRefundable (intent : IntentWithLink) (refunds : List Refund) : Except Failure String :=
  if intent.status ≠ .succeeded then
    .error (.appError 400 "NOT_REFUNDABLE" "Only succeeded payments can be refunded")
  else if refunds.any (·.isActive) then
    .error (alreadyRefunded "A refund for this transaction is already in progress or completed")
  else
    match intent.providerRef with
    | none | some "" => .error (.appError 400 "NO_PROVIDER_REF" "Provider reference not available")
    | some providerRef => .ok providerRef

/-- The amount and the currency of a refund. -/
def refundCharge (rt : Runtime) (intent : IntentWithLink) : Except Failure (Int × Json) :=
  let charge := resolveIntentCharge rt intent
  match charge.amountCents with
  | none | some 0 => .error (.appError 400 "MISSING_AMOUNT" "Cannot determine refund amount")
  | some amount => .ok (amount, charge.currency)

def refundConflict : Failure → Failure
  | .prismaError "P2002" => alreadyRefunded "A refund for this transaction is already in progress"
  | e => e

/-- The PENDING row, which keeps other refunds of the intent out. -/
def openRefund (tenantId intentId : Id) (amount : Int) (currency : String) : Job Refund :=
  (transaction (Refund.create fun id =>
    { id, paymentIntentId := intentId, tenantId, status := .pending, providerRefundRef := none, amount,
      currency })).mapError refundConflict

/-- The final statuses of the refund and of the intent. -/
def closeRefund (refundId intentId : Id) (result : RefundResult) : Tx Refund := do
  let updatedRefund ← Refund.update refundId fun r =>
    { r with status := if result.success then .succeeded else .failed, providerRefundRef := result.providerRefundRef }
  let _ ← PaymentIntent.setStatus intentId (if result.success then .refunded else .succeeded)
  pure updatedRefund

/-- The capture of a refund that the provider accepted is reversed. -/
def settleAccepted (tenantId intentId refundId : Id) (result : RefundResult) : Job Bool :=
  if result.success then settleRefund tenantId { intentId, refundId } else pure false

/-- What follows the answer of the provider. -/
def finishRefund (tenantId intentId refundId : Id) (result : RefundResult) : Job Refund := do
  let _ ← settleAccepted tenantId intentId refundId result
  transaction (closeRefund refundId intentId result)

/-- The call of the adapter and what follows it. -/
def refundAtProvider (tenantId : Id) (intent : IntentWithLink) (refundId : Id) (providerRef : String) (amount : Int)
    (currency : Json) : Job Refund := do
  let result ← @Transaction.Job.query Backend
    (.refund { provider := intent.provider, providerRef, amount, currency })
  match result with
  | .error message => Transaction.Job.throw (Failure.providerError message)
  | .ok result => finishRefund tenantId intent.id refundId result

/-- The intent of a tenant with its link and its refunds. -/
def Db.refundedIntent (db : Db) (tenantId id : Id) : Option (IntentWithLink × List Refund) :=
  (db.paymentIntents.find? fun r => r.id = id ∧ r.tenantId = tenantId).map fun intent =>
    (db.withLink intent, db.refundsOf intent.id)

/-- `POST /transactions/:id/refund` -/
def refundRoute (rt : Runtime) (tenantId id : Id) : Job Refund := do
  let found ← selectOnce (·.refundedIntent tenantId id)
  match found with
  | none => Transaction.Job.throw (Failure.appError 404 "TRANSACTION_NOT_FOUND" "Transaction not found")
  | some (intent, refunds) => do
      let providerRef ← @Transaction.Job.ofExcept Backend _ (checkRefundable intent refunds)
      let config ← selectOnce (·.providerConfig tenantId intent.provider)
      match config with
      | none => Transaction.Job.throw (Failure.appError 400 "PROVIDER_NOT_CONFIGURED" "Provider config missing")
      | some config => do
          let _ ← @Transaction.Job.ofExcept Backend _ (getAdapter rt intent.provider config.encryptedCredentials)
          let charge ← @Transaction.Job.ofExcept Backend _ (refundCharge rt intent)
          let currency ← @Transaction.Job.ofExcept Backend _ (textColumn charge.2)
          let refund ← openRefund tenantId intent.id charge.1 currency
          refundAtProvider tenantId intent refund.id providerRef charge.1 charge.2

end CorpoPay.Settlement
