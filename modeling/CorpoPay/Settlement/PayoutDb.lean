import CorpoPay.Data.Allocation
import CorpoPay.Settlement.FxSettlement
import CorpoPay.Settlement.SettlementDb

/-!
# Payouts (`payout.ts`, `payout-db.ts`)
-/

namespace CorpoPay.Settlement

/-! ## Statuses -/

namespace PayoutStatus

def code : PayoutStatus → String
  | .draft => "DRAFT"
  | .scheduled => "SCHEDULED"
  | .pending => "PENDING"
  | .processing => "PROCESSING"
  | .paid => "PAID"
  | .failed => "FAILED"
  | .cancelled => "CANCELLED"

/-- A payout that still reserves funds. -/
def isOpen : PayoutStatus → Bool
  | .draft | .scheduled | .pending | .processing => true
  | .paid | .failed | .cancelled => false

def TERMINAL : List PayoutStatus := [.paid, .failed, .cancelled]

def TRANSITIONS : PayoutStatus → List PayoutStatus
  | .draft => [.scheduled, .cancelled]
  | .scheduled => [.pending, .cancelled]
  | .pending => [.processing, .failed, .cancelled]
  | .processing => [.paid, .failed]
  | .paid => []
  | .failed => []
  | .cancelled => []

def assertTransition (current next : PayoutStatus) : Except Failure Unit :=
  if next ∈ current.TRANSITIONS then .ok ()
  else .error (.payoutError ("illegal payout transition " ++ current.code ++ " -> " ++ next.code))

theorem mem_terminal_iff (s : PayoutStatus) : s ∈ TERMINAL ↔ s.isOpen = false := by cases s <;> decide

/-- Only an open payout has a next status. -/
theorem isOpen_of_assertTransition {current next : PayoutStatus} (h : current.assertTransition next = .ok ()) :
    current.isOpen = true := by
  cases current <;> first | rfl | simp [assertTransition, TRANSITIONS] at h

end PayoutStatus

/-! ## Rows -/

/-- Update a `Payout` row by id and return it. -/
def Payout.update (id : Id) (f : Payout → Payout) : Tx Payout := do
  Backend.lock (.payout id)
  let row ← select (·.payouts.find? (·.id = id))
  match row with
  | none => Backend.fail (.prismaError "P2025")
  | some row => do
      change fun db => { db with payouts := db.payouts.map fun r => if r.id = id then f r else r }
      pure (f row)

/-- `payoutItem.deleteMany({ where: { payoutId } })` -/
def PayoutItem.deleteMany (payoutId : Id) : Tx Unit := do
  let rows ← select (·.payoutItems.filter (·.payoutId = payoutId))
  forEach (fun row : PayoutItem => Backend.lock (.payoutItem row.id)) rows
  change fun db => { db with payoutItems := db.payoutItems.filter (·.payoutId ≠ payoutId) }

/-- Insert a `PayoutItem` row: its id and its ledger entry are unique. -/
def PayoutItem.create (payoutId ledgerEntryId : Id) (amount : Int) : Tx Unit := do
  let id ← freshId
  Backend.lock (.payoutItemOf ledgerEntryId)
  let taken ← select (·.payoutItems.any fun i => i.id = id ∨ i.ledgerEntryId = ledgerEntryId)
  if taken then Backend.fail (.prismaError "P2002")
  else
    change fun db =>
      { db with payoutItems := db.payoutItems ++ [({ id, payoutId, ledgerEntryId, amount } : PayoutItem)] }

/-- Insert a `Payout` row: its id and its key are unique. -/
def Payout.create (row : Id → Payout) : Tx Payout := do
  let id ← freshId
  let payout := row id
  Backend.lock (.payoutKey payout.tenantId payout.idempotencyKey)
  let taken ← select (·.payouts.any fun p =>
    p.id = id ∨ (p.tenantId = payout.tenantId ∧ p.idempotencyKey = payout.idempotencyKey))
  if taken then Backend.fail (.prismaError "P2002")
  else do
    change fun db => { db with payouts := db.payouts ++ [payout] }
    pure payout

/-! ## Creation -/

/-- Unpaid AVAILABLE credits, oldest first. -/
def Db.unpaidCredits (db : Db) (tenantId : Id) (currency : Currency) : List LedgerEntry :=
  oldestFirst (db.ledgerEntries.filter fun e =>
    e.tenantId = tenantId ∧ e.account = .available ∧ e.direction = .credit ∧ e.currency = currency ∧
      db.payoutItems.all (·.ledgerEntryId ≠ e.id))

/-- AVAILABLE debits that no payout made. -/
def Db.otherDebits (db : Db) (tenantId : Id) (currency : Currency) : List LedgerEntry :=
  db.ledgerEntries.filter fun e =>
    e.tenantId = tenantId ∧ e.account = .available ∧ e.direction = .debit ∧ e.currency = currency ∧
      e.category ≠ .payout

/-- The loop over the credits: the last credit may be taken in part. -/
def allocate (payable : Int) (credits : List LedgerEntry) : List (LedgerEntry × Int) :=
  Data.fifo (·.amount) payable credits

structure CreatePayoutInput where
  idempotencyKey : String
  provider : Provider
  method : Option PayoutMethod
  deriving DecidableEq, Repr

def Config.settlementCurrency (c : Config) (tenantId : Id) : Currency :=
  ((c.tenant tenantId).map (·.settlementCurrency)).getD .mad

/-- What `createPayout` does after the sweep. -/
def createPayoutAfterSweep (tenantId : Id) (input : CreatePayoutInput) (currency : Currency) : Tx Payout := do
  let credits ← select (·.unpaidCredits tenantId currency)
  let debitRows ← select (·.otherDebits tenantId currency)
  let unpaidCredits := (credits.map (·.amount)).sum
  let otherDebits := (debitRows.map (·.amount)).sum
  let payable := unpaidCredits - otherDebits
  if payable ≤ 0 then Backend.fail (.payoutError "no eligible funds to pay out")
  else do
    let items := allocate payable credits
    let payout ← Payout.create fun id =>
      { id, tenantId, amount := payable, currency, status := .draft, provider := input.provider,
        providerTransferId := none, method := input.method.getD .bankTransfer,
        idempotencyKey := input.idempotencyKey }
    forEach (fun item : LedgerEntry × Int => PayoutItem.create payout.id item.1.id item.2) items
    pure payout

/-- The payout of an idempotency key. -/
def Db.payoutOfKey (db : Db) (tenantId : Id) (key : String) : Option Payout :=
  db.payouts.find? fun p => p.tenantId = tenantId ∧ p.idempotencyKey = key

/-- The transaction of `createPayout`. -/
def createPayoutInTx (tenantId : Id) (input : CreatePayoutInput) : Tx Payout := do
  Backend.lock (.tenant tenantId)
  let currency ← select (·.settlementCurrency tenantId)
  convertForeignBalancesToSettlement tenantId currency
  createPayoutAfterSweep tenantId input currency

/-- Snapshot the tenant's net eligible AVAILABLE balance into a DRAFT payout. -/
def createPayout (tenantId : Id) (input : CreatePayoutInput) : Job Payout := do
  let existing ← selectOnce (·.payoutOfKey tenantId input.idempotencyKey)
  match existing with
  | some payout => pure payout
  | none => transaction (createPayoutInTx tenantId input)

/-! ## Closing a payout -/

/-- The payout `id` of a tenant. -/
def Db.payout (db : Db) (tenantId id : Id) : Option Payout :=
  db.payouts.find? fun p => p.id = id ∧ p.tenantId = tenantId

/-- Release the reserved credits and set the status, in one transaction. -/
def releasePayout (id : Id) (status : PayoutStatus) : Tx Payout := do
  PayoutItem.deleteMany id
  Payout.update id fun p => { p with status }

def cancelPayout (tenantId id : Id) : Job Payout := do
  let payout ← selectOnce (·.payout tenantId id)
  match payout with
  | none => Transaction.Job.throw (Failure.payoutError "payout not found")
  | some payout => do
      Transaction.Job.ofExcept (payout.status.assertTransition .cancelled)
      transaction (releasePayout id .cancelled)

def alreadyClosed (status : PayoutStatus) : Failure := .payoutError ("payout is already " ++ status.code)

def markPayoutFailed (tenantId id : Id) : Job Payout := do
  let payout ← selectOnce (·.payout tenantId id)
  match payout with
  | none => Transaction.Job.throw (Failure.payoutError "payout not found")
  | some payout =>
      if payout.status ∈ PayoutStatus.TERMINAL then Transaction.Job.throw (alreadyClosed payout.status)
      else transaction (releasePayout id .failed)

/-- What `markPayoutPaid` does with an open payout. -/
def settlePaidInTx (tenantId : Id) (payout : Payout) (providerTransferId : Option String) : Tx Payout := do
  let availableCents ← accountBalanceCents tenantId .available payout.currency
  if availableCents < payout.amount then
    Backend.fail (.payoutError "payout exceeds current eligible funds — recreate the payout")
  else do
    post tenantId (debit .available payout.amount .payout none payout.currency)
      (credit .paidOut payout.amount .payout none payout.currency) ⟨some .payout, some payout.id⟩
    Payout.update payout.id fun p => { p with status := .paid, providerTransferId }

/-- The transaction of `markPayoutPaid`. -/
def markPayoutPaidInTx (tenantId id : Id) (providerTransferId : Option String) : Tx Payout := do
  Backend.lock (.tenant tenantId)
  let payout ← select (·.payout tenantId id)
  match payout with
  | none => Backend.fail (.payoutError "payout not found")
  | some payout =>
      if payout.status ∈ PayoutStatus.TERMINAL then Backend.fail (alreadyClosed payout.status)
      else settlePaidInTx tenantId payout providerTransferId

/-- Post the settlement movement and mark the payout PAID in one transaction. -/
def markPayoutPaid (tenantId id : Id) (providerTransferId : Option String) : Job Payout :=
  transaction (markPayoutPaidInTx tenantId id providerTransferId)

end CorpoPay.Settlement
