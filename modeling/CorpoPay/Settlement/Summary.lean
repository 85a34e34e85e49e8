import CorpoPay.Settlement.PayoutDb

/-!
# The settlement summary (`settlement-summary.ts`, `settlement-summary-db.ts`, `routes/settlement.ts`)
-/

namespace CorpoPay.Settlement

structure SettlementSummary where
  availableCents : Int
  scheduledCents : Int
  /-- `available − scheduled`, floored at zero: what can be paid right now. -/
  eligibleCents : Int
  feesCents : Int
  reserveCents : Int
  paidOutCents : Int
  deriving DecidableEq, Repr

/-- The summary of the account balances and of what open payouts reserve. -/
def computeSettlementSummary (balances : LedgerAccount → Int) (scheduledCents : Int) : SettlementSummary where
  availableCents := balances .available
  scheduledCents
  eligibleCents := max 0 (balances .available - scheduledCents)
  feesCents := balances .fees
  reserveCents := balances .reserve
  paidOutCents := balances .paidOut

structure SettlementSummaryView where
  summary : SettlementSummary
  payoutRail : Option PayoutRail
  deriving DecidableEq, Repr

/-- The open payouts of a tenant, in every currency. -/
def Db.openPayouts (db : Db) (tenantId : Id) : List Payout :=
  db.payouts.filter fun p => p.tenantId = tenantId ∧ p.status.isOpen

/-- The tenant's net-owed settlement position and payout rail. -/
def getSettlementSummary (tenantId : Id) : Job SettlementSummaryView := do
  let ledger ← getTenantLedger tenantId
  let openPayouts ← selectOnce (·.openPayouts tenantId)
  let scheduledCents := (openPayouts.map (·.amount)).sum
  let summary := computeSettlementSummary ledger.balances scheduledCents
  let policy ← selectOnce (·.activeSettlementPolicy tenantId)
  pure { summary, payoutRail := policy.map (·.payoutRail) }

structure SettlementSummaryResponse extends SettlementSummary where
  currency : Currency
  payoutRail : Option PayoutRail
  deriving DecidableEq, Repr

/-- `GET /settlement/summary` -/
def settlementSummaryRoute (tenantId : Id) : Job SettlementSummaryResponse := do
  let view ← getSettlementSummary tenantId
  pure { toSettlementSummary := view.summary, currency := .mad, payoutRail := view.payoutRail }

end CorpoPay.Settlement
