import Mathlib.Algebra.Group.Int.Defs
import Mathlib.Algebra.Group.Nat.Defs
import Mathlib.Algebra.Group.Prod
import CorpoPay.Data.Tally
import CorpoPay.Settlement.LedgerDb

/-!
# Settlement statements (`statements.ts`, `statements-db.ts`)

A statement takes the AVAILABLE balance before and at the end of a period, and the volume of each category within it.
-/

namespace CorpoPay.Settlement

/-! ## Building a statement -/

/-- One ledger leg, with the instant that the statement windows on. -/
structure StatementEntry where
  category : LedgerCategory
  account : LedgerAccount
  direction : LedgerDirection
  amountCents : Int
  createdAt : Int
  deriving DecidableEq, Repr

structure StatementResult where
  openingBalanceCents : Int
  closingBalanceCents : Int
  netCents : Int
  items : List StatementItem
  deriving DecidableEq, Repr

/-- The place of a category in the order of the names, which stands for `localeCompare`. -/
def LedgerCategory.place : LedgerCategory → Nat
  | .adjustment => 0
  | .capture => 1
  | .chargeback => 2
  | .disbursement => 3
  | .fee => 4
  | .fxAdjustment => 5
  | .payout => 6
  | .refund => 7
  | .reserveRelease => 8
  | .split => 9
  | .tax => 10

def StatementItem.before (a b : StatementItem) : Prop := a.category.place ≤ b.category.place

instance : DecidableRel StatementItem.before := fun a b => inferInstanceAs (Decidable (a.category.place ≤ b.category.place))

/-- The variables of the loop over the entries. -/
structure StatementSums where
  opening : Int
  closing : Int
  volumeByCategory : List (LedgerCategory × Int × Nat)
  deriving DecidableEq, Repr

/-- The body of the loop over the entries. -/
def statementEntry (periodStart periodEnd : Int) (sums : StatementSums) (entry : StatementEntry) : StatementSums where
  opening :=
    if entry.account = .available ∧ entry.createdAt < periodStart then
      sums.opening + delta entry.direction entry.amountCents
    else sums.opening
  closing :=
    if entry.account = .available ∧ entry.createdAt < periodEnd then
      sums.closing + delta entry.direction entry.amountCents
    else sums.closing
  volumeByCategory :=
    if periodStart ≤ entry.createdAt ∧ entry.createdAt < periodEnd ∧ entry.direction = .debit then
      Data.addTotal entry.category (entry.amountCents, 1) sums.volumeByCategory
    else sums.volumeByCategory

/-- The items of the categories, in the order of their names. -/
def statementItems (volumeByCategory : List (LedgerCategory × Int × Nat)) : List StatementItem :=
  (volumeByCategory.map fun v => { category := v.1, amountCents := v.2.1, entryCount := v.2.2 }).insertionSort
    StatementItem.before

/-- Aggregate ledger legs over a period: `periodStart` is inclusive and `periodEnd` exclusive. -/
def buildStatement (entries : List StatementEntry) (periodStart periodEnd : Int) : Except Failure StatementResult :=
  if periodEnd ≤ periodStart then .error (.statementError "periodStart must be before periodEnd")
  else
    let sums := entries.foldl (statementEntry periodStart periodEnd) ⟨0, 0, []⟩
    .ok
      { openingBalanceCents := sums.opening, closingBalanceCents := sums.closing,
        netCents := sums.closing - sums.opening, items := statementItems sums.volumeByCategory }

/-! ## Persistence -/

structure CreateSettlementStatementInput where
  periodStart : Int
  periodEnd : Int
  currency : Option String
  deriving DecidableEq, Repr

def LedgerEntry.toStatementEntry (row : LedgerEntry) : StatementEntry where
  category := row.category
  account := row.account
  direction := row.direction
  amountCents := row.amount
  createdAt := row.createdAt

/-- The legs of the tenant, oldest first. -/
def Db.statementEntries (db : Db) (tenantId : Id) : List StatementEntry :=
  (oldestFirst (db.ledgerEntries.filter (·.tenantId = tenantId))).map (·.toStatementEntry)

def SettlementStatement.create (row : Id → SettlementStatement) : Tx SettlementStatement := do
  let id ← freshId
  let taken ← select (·.settlementStatements.any (·.id = id))
  if taken then Backend.fail (.prismaError "P2002")
  else do
    change fun db => { db with settlementStatements := db.settlementStatements ++ [row id] }
    pure (row id)

/-- Snapshot the ledger of a tenant over a period. -/
def createSettlementStatement (tenantId : Id) (input : CreateSettlementStatementInput) : Job SettlementStatement := do
  let entries ← selectOnce (·.statementEntries tenantId)
  let result ← @Transaction.Job.ofExcept Backend _ (buildStatement entries input.periodStart input.periodEnd)
  let currency := input.currency.getD "MAD"
  transaction (SettlementStatement.create fun id =>
    { id, tenantId, periodStart := input.periodStart, periodEnd := input.periodEnd, currency, status := .draft,
      openingBalance := result.openingBalanceCents, closingBalance := result.closingBalanceCents,
      netAmount := result.netCents, items := result.items })

end CorpoPay.Settlement
