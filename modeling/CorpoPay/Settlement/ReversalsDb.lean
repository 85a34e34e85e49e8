import CorpoPay.Settlement.SettlementDb

/-!
# Disputes and reversals (`reversals.ts`, `reversals-db.ts`)
-/

namespace CorpoPay.Settlement

/-! ## Statuses and funding -/

namespace DisputeStatus

def code : DisputeStatus → String
  | .open => "OPEN"
  | .won => "WON"
  | .lost => "LOST"

def TRANSITIONS : DisputeStatus → List DisputeStatus
  | .open => [.won, .lost]
  | .won => []
  | .lost => []

def assertTransition (current next : DisputeStatus) : Except Failure Unit :=
  if next ∈ current.TRANSITIONS then .ok ()
  else .error (.reversalError ("illegal dispute transition " ++ current.code ++ " -> " ++ next.code))

end DisputeStatus

structure ClawbackAllocation where
  fromAvailable : Int
  fromReserve : Int
  uncovered : Int
  deriving DecidableEq, Repr

/-- Where a reversal of `grossCents` is funded from. -/
def fundReversal (reversalFunding : ReversalFundingPolicy) (grossCents availableCents reserveCents : Int) :
    Except Failure ClawbackAllocation :=
  if grossCents < 0 then .error (.reversalError "gross must be non-negative")
  else if availableCents < 0 then .error (.reversalError "available balance must be non-negative")
  else if reserveCents < 0 then .error (.reversalError "reserve balance must be non-negative")
  else
    match reversalFunding with
    | .netFromAvailable =>
        let fromAvailable := min grossCents availableCents
        .ok { fromAvailable, fromReserve := 0, uncovered := grossCents - fromAvailable }
    | .debitReserve =>
        let fromReserve := min grossCents reserveCents
        let remaining := grossCents - fromReserve
        let fromAvailable := min remaining availableCents
        .ok { fromAvailable, fromReserve, uncovered := remaining - fromAvailable }
    | .invoiceTenant => .ok { fromAvailable := 0, fromReserve := 0, uncovered := grossCents }
    | .allowNegative => .ok { fromAvailable := grossCents, fromReserve := 0, uncovered := 0 }

/-- Total covered immediately. -/
def coveredAmount (allocation : ClawbackAllocation) : Int := allocation.fromAvailable + allocation.fromReserve

/-! ## Disputes -/

structure CreateDisputeInput where
  providerDisputeId : String
  provider : Provider
  amountCents : Int
  feeCents : Option Int
  currency : Option Currency
  reason : Option String
  paymentIntentId : Option Id
  evidenceDueDate : Option Nat
  deriving DecidableEq, Repr

/-- Insert a `Dispute` row: its id and its provider id are unique. -/
def Dispute.create (row : Id → Dispute) : Tx Dispute := do
  let id ← freshId
  let dispute := row id
  Backend.lock (.disputeKey dispute.tenantId dispute.providerDisputeId)
  let taken ← select (·.disputes.any fun d =>
    d.id = id ∨ (d.tenantId = dispute.tenantId ∧ d.providerDisputeId = dispute.providerDisputeId))
  if taken then Backend.fail (.prismaError "P2002")
  else do
    change fun db => { db with disputes := db.disputes ++ [dispute] }
    pure dispute

/-- Record an inbound dispute, idempotently by `providerDisputeId`. -/
def createDispute (tenantId : Id) (input : CreateDisputeInput) : Job Dispute := do
  let existing ← selectOnce (·.disputes.find? fun d =>
    d.tenantId = tenantId ∧ d.providerDisputeId = input.providerDisputeId)
  match existing with
  | some dispute => pure dispute
  | none =>
      transaction (Dispute.create fun id =>
        { id, tenantId, paymentIntentId := input.paymentIntentId, provider := input.provider,
          providerDisputeId := input.providerDisputeId, status := .open, amount := input.amountCents,
          feeAmount := input.feeCents.getD 0, currency := input.currency.getD .mad, reason := input.reason,
          evidenceDueDate := input.evidenceDueDate })

/-- The dispute `id` of a tenant. -/
def Db.dispute (db : Db) (tenantId id : Id) : Option Dispute :=
  db.disputes.find? fun d => d.id = id ∧ d.tenantId = tenantId

/-- The recovery of a dispute. -/
def Db.recoveryOf (db : Db) (disputeId : Id) : Option Recovery := db.recoveries.find? (·.disputeId = disputeId)

/-- Update a `Dispute` row by id and return it. -/
def Dispute.update (id : Id) (f : Dispute → Dispute) : Tx Dispute := do
  Backend.lock (.dispute id)
  let row ← select (·.disputes.find? (·.id = id))
  match row with
  | none => Backend.fail (.prismaError "P2025")
  | some row => do
      change fun db => { db with disputes := db.disputes.map fun r => if r.id = id then f r else r }
      pure (f row)

/-- Insert a `Recovery` row: its id and its dispute are unique. -/
def Recovery.create (row : Id → Recovery) : Tx Recovery := do
  let id ← freshId
  let recovery := row id
  Backend.lock (.recoveryOf recovery.disputeId)
  let taken ← select (·.recoveries.any fun r => r.id = id ∨ r.disputeId = recovery.disputeId)
  if taken then Backend.fail (.prismaError "P2002")
  else do
    change fun db => { db with recoveries := db.recoveries ++ [recovery] }
    pure recovery

/-! ## Resolution -/

/-- The dispute must exist and be able to move to `next`. -/
def checkDispute (dispute : Option Dispute) (next : DisputeStatus) : Except Failure Dispute := do
  match dispute with
  | none => .error (.reversalError "dispute not found")
  | some dispute => do
      dispute.status.assertTransition next
      .ok dispute

/-- The clawback postings, the status and the recovery. -/
def executeClawback (tenantId id : Id) (currency : Currency) (allocation : ClawbackAllocation) :
    Tx (Dispute × Option Recovery) := do
  let source : Meta := ⟨some .dispute, some id⟩
  postPositive tenantId allocation.fromAvailable
    (debit .available allocation.fromAvailable .chargeback none currency)
    (credit .cash allocation.fromAvailable .chargeback none currency) source
  postPositive tenantId allocation.fromReserve
    (debit .reserve allocation.fromReserve .chargeback none currency)
    (credit .cash allocation.fromReserve .chargeback none currency) source
  let disputed ← Dispute.update id fun d => { d with status := .lost }
  let existing ← select (·.recoveryOf id)
  if 0 < allocation.uncovered then do
    let recovery ← Recovery.create fun recoveryId =>
      { id := recoveryId, tenantId, disputeId := id, status := .pending, amount := allocation.uncovered, currency }
    pure (disputed, some recovery)
  else pure (disputed, existing)

/-- The outcome of a dispute. -/
inductive Outcome
  | won | lost
  deriving DecidableEq, Repr

/-- Resolve a dispute. LOST takes the amount back from the tenant. -/
def resolveDispute (tenantId id : Id) (outcome : Outcome) : Job (Dispute × Option Recovery) :=
  match outcome with
  | .won =>
      transaction do
        let dispute ← select (·.dispute tenantId id)
        let _ ← lift (checkDispute dispute .won)
        let disputed ← Dispute.update id fun d => { d with status := .won }
        let recovery ← select (·.recoveryOf id)
        pure (disputed, recovery)
  | .lost => do
      let found ← selectOnce (·.dispute tenantId id)
      let dispute ← @Transaction.Job.ofExcept Backend _ (checkDispute found .lost)
      let currency := dispute.currency
      let ledger ← getTenantLedger tenantId
      let policy ← selectOnce (·.activeSettlementPolicy tenantId)
      let allocation ← @Transaction.Job.ofExcept Backend _ (fundReversal
        ((policy.map (·.reversalFunding)).getD DEFAULT_PRESET.reversalFunding) dispute.amount
        (ledger.balancesByCurrency currency .available) (ledger.balancesByCurrency currency .reserve))
      transaction do
        let current ← select (·.dispute tenantId id)
        let _ ← lift (checkDispute current .lost)
        executeClawback tenantId id currency allocation

end CorpoPay.Settlement
