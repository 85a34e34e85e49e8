import CorpoPay.Settlement.LedgerDb

/-!
# Refund of a card capture (`refund-db.ts`)
-/

namespace CorpoPay.Settlement

/-- A capture's settlement credits. -/
def REFUNDED_ACCOUNTS : List LedgerAccount := [.available, .fees, .reserve]

structure SettleRefundInput where
  intentId : Id
  refundId : Id
  deriving DecidableEq, Repr

/-- A credit that a refund of the intent reverses. -/
def Movement.isRefundable (m : Movement) (tenantId intentId : Id) : Bool :=
  m.tenantId = tenantId ∧ m.sourceType = some .paymentIntent ∧ m.sourceId = some intentId ∧
    m.direction = .credit ∧ m.account ∈ REFUNDED_ACCOUNTS

/-- The row that shows that the refund was already booked. -/
def Movement.isRefundOf (m : Movement) (tenantId refundId : Id) : Bool :=
  m.tenantId = tenantId ∧ m.sourceType = some .refund ∧ m.sourceId = some refundId

/-- Reverse the settlement of a capture. The result says whether this call booked it. -/
def settleRefund (tenantId : Id) (input : SettleRefundInput) : Job Bool :=
  transaction do
    Backend.lock (.tenant tenantId)
    let existing ← select (·.ledgerEntries.any (·.toMovement.isRefundOf tenantId input.refundId))
    if existing then pure false
    else do
      let credits ← select fun db =>
        (db.ledgerEntries.filter (·.toMovement.isRefundable tenantId input.intentId)).map (·.toMovement)
      match credits with
      | [] => pure false
      | first :: _ => do
          let currency := first.currency
          let availableBalance ← accountBalanceCents tenantId .available currency
          let netCents := ((credits.find? (·.account = .available)).map (·.amount)).getD 0
          if availableBalance < netCents then
            Backend.fail (.appError 409 "REFUND_AFTER_PAYOUT"
              "Refund would over-draw AVAILABLE — funds already paid out; reconcile manually.")
          else do
            let source : Meta := ⟨some .refund, some input.refundId⟩
            forEach (fun row : Movement => when (0 < row.amount) do
              post tenantId (debit row.account row.amount .refund none currency)
                (credit .cash row.amount .refund none currency) source)
              credits
            pure true

end CorpoPay.Settlement
