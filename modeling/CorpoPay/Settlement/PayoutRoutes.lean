import CorpoPay.Settlement.PayoutDb
import CorpoPay.Settlement.Registry

/-!
# Payout routes (`routes/payouts.ts`, `schemas/payouts.ts`)

The caller is the owner of a tenant. A route returns the payout that it answers with, and its items.
-/

namespace CorpoPay.Settlement

structure PayoutWithItems where
  payout : Payout
  items : List PayoutItem
  deriving DecidableEq, Repr

def Db.payoutWithItems (db : Db) (tenantId id : Id) : Option PayoutWithItems :=
  (db.payout tenantId id).map fun payout => { payout, items := db.payoutItems.filter (·.payoutId = payout.id) }

def getPayout (tenantId id : Id) : Job (Option PayoutWithItems) := selectOnce (·.payoutWithItems tenantId id)

/-- `toResponse(full!)` -/
def respond (tenantId id : Id) : Job PayoutWithItems := do
  let full ← getPayout tenantId id
  match full with
  | none => Transaction.Job.throw (Failure.error "Cannot read properties of null (reading 'id')")
  | some full => pure full

/-! ## Cancel -/

/-- `POST /payouts/:id/cancel` -/
def cancelRoute (tenantId id : Id) : Job PayoutWithItems := do
  let _ ← cancelPayout tenantId id
  respond tenantId id

/-! ## Process -/

/-- The number of UTF-16 units. -/
def utf16Length (s : String) : Nat := (s.toList.map fun c => if c.val < 0x10000 then 1 else 2).sum

def validationFailed : Failure := .appError 422 "VALIDATION_ERROR" "Validation failed"

/-- The transfer reference of the body, which may be missing altogether. -/
def processPayoutSchema (body : Option Json) : Except Failure (Option String) :=
  match body with
  | none => .ok none
  | some (.obj fields) =>
      match fields.find? (·.1 = "providerTransferId") with
      | none | some (_, .null) => .ok none
      | some (_, .str s) => if utf16Length s ≤ 200 then .ok (some s) else .error validationFailed
      | some _ => .error validationFailed
  | _ => .error validationFailed

def payoutConflict : Failure → Failure
  | .payoutError message => .appError 409 "PAYOUT_CONFLICT" message
  | e => e

/-- `markPayoutPaid`, with a conflict of money or state as a 409. -/
def settlePayout (tenantId id : Id) (providerTransferId : Option String) : Job Payout :=
  (markPayoutPaid tenantId id providerTransferId).mapError payoutConflict

/-- The `PAYOUT_MARKED_PAID` entry of the audit log. -/
def AuditLog.create (tenantId entityId : Id) (providerTransferId : Option String) : Job Unit :=
  transaction (change fun db =>
    { db with auditLogs := db.auditLogs ++ [({ tenantId, entityId, providerTransferId } : AuditLog)] })

/-- The settlement and what follows it, on both rails. -/
def settleAndRespond (tenantId id : Id) (providerTransferId : Option String) : Job PayoutWithItems := do
  let _ ← settlePayout tenantId id providerTransferId
  AuditLog.create tenantId id providerTransferId
  respond tenantId id

def payoutParams (payout : Payout) : CreatePayoutParams :=
  { amount := payout.amount, currency := payout.currency, reference := payout.idempotencyKey, method := payout.method }

/-- The STRIPE_CONNECT rail: call the provider's disbursement, then settle. -/
def disburse (rt : Runtime) (tenantId : Id) (payout : Payout) : Job PayoutWithItems := do
  let config ← selectOnce (·.providerConfig tenantId payout.provider)
  match config with
  | none => Transaction.Job.throw (Failure.appError 400 "PROVIDER_NOT_CONFIGURED" "Provider config missing")
  | some config => do
      let _ ← @Transaction.Job.ofExcept Backend _ (getAdapter rt payout.provider config.encryptedCredentials)
      let result ← @Transaction.Job.query Backend (.createPayout payout.provider (payoutParams payout))
      match result with
      | .error message => Transaction.Job.throw (Failure.providerError message)
      | .ok result =>
          if result.success then settleAndRespond tenantId payout.id result.providerTransferId
          else do
            let _ ← markPayoutFailed tenantId payout.id
            Transaction.Job.throw (Failure.appError 502 "PAYOUT_FAILED" "Provider payout failed")

/-- `POST /payouts/:id/process` -/
def processRoute (rt : Runtime) (tenantId id : Id) (body : Option Json) : Job PayoutWithItems := do
  let payout ← getPayout tenantId id
  match payout with
  | none => Transaction.Job.throw (Failure.appError 404 "PAYOUT_NOT_FOUND" "Payout not found")
  | some payout => do
      let policy ← selectOnce (·.activeSettlementPolicy tenantId)
      match (policy.map (·.payoutRail)).getD .manual with
      | .manual => do
          let providerTransferId ← @Transaction.Job.ofExcept Backend _ (processPayoutSchema body)
          settleAndRespond tenantId payout.payout.id providerTransferId
      | .stripeConnect => disburse rt tenantId payout.payout

end CorpoPay.Settlement
