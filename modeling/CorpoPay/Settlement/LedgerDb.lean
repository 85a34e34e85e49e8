import CorpoPay.Settlement.Db
import Mathlib.Logic.Function.Basic

/-!
# Ledger persistence (`ledger-db.ts`)

`postEntry` writes a balanced posting as two rows, each with a `balanceAfter` snapshot. `getTenantLedger` derives
the balances by summing the rows.
-/

namespace CorpoPay.Settlement

/-! ## Balances -/

/-- The rows of one account of a tenant in one currency. -/
def Db.accountRows (db : Db) (tenantId : Id) (account : LedgerAccount) (currency : Currency) : List LedgerEntry :=
  db.ledgerEntries.filter fun e => e.tenantId = tenantId ∧ e.account = account ∧ e.currency = currency

/-- `_sum: { amount }` of the rows of one direction. -/
def sumAmount (rows : List LedgerEntry) (direction : LedgerDirection) : Int :=
  ((rows.filter (·.direction = direction)).map (·.amount)).sum

/-- Σ credits − Σ debits. -/
def Db.accountBalance (db : Db) (tenantId : Id) (account : LedgerAccount) (currency : Currency) : Int :=
  let rows := db.accountRows tenantId account currency
  sumAmount rows .credit - sumAmount rows .debit

def accountBalanceCents (tenantId : Id) (account : LedgerAccount) (currency : Currency) : Tx Int :=
  select (·.accountBalance tenantId account currency)

/-- `createdAt` first, then `id`. -/
def LedgerEntry.before (a b : LedgerEntry) : Prop := a.createdAt < b.createdAt ∨ (a.createdAt = b.createdAt ∧ a.id ≤ b.id)

instance : DecidableRel LedgerEntry.before := fun a b => by unfold LedgerEntry.before; infer_instance

/-- `orderBy: [{ createdAt: "asc" }, { id: "asc" }]`. -/
def oldestFirst (rows : List LedgerEntry) : List LedgerEntry := rows.insertionSort LedgerEntry.before

/-! ## Writing -/

/-- Insert a row. The database checks the primary key and the reference to the party. -/
def LedgerEntry.create (movement : Movement) (postingId : Id) (balanceAfter : Int) : Tx LedgerEntry := do
  let id ← freshId
  let createdAt ← now
  let row : LedgerEntry := { toMovement := movement, id, postingId, balanceAfter, createdAt }
  let idTaken ← select (·.ledgerEntries.any (·.id = id))
  let partyMissing ← select fun db => row.partyId.any fun p => db.splitParties.all (·.id ≠ p)
  if idTaken then Backend.fail (.prismaError "P2002")
  else if partyMissing then Backend.fail (.prismaError "P2003")
  else do
    change fun db => { db with ledgerEntries := db.ledgerEntries ++ [row] }
    pure row

/-- Persist a posting as a debit and a credit row, inside the caller's transaction. -/
def postEntry (tenantId : Id) (p : LedgerPosting) : Tx (LedgerEntry × LedgerEntry) := do
  let p ← lift (posting p.debit p.credit p.source)
  let postingId ← freshId
  let currency := p.debit.currency
  Backend.lock (.tenant tenantId)
  let debitBefore ← accountBalanceCents tenantId p.debit.account currency
  let debitAfter := debitBefore + delta p.debit.direction p.debit.amountCents
  let creditBefore ← accountBalanceCents tenantId p.credit.account currency
  let creditAfter := creditBefore + delta p.credit.direction p.credit.amountCents
  let debitRow ← LedgerEntry.create (p.debit.movement tenantId p.source) postingId debitAfter
  let creditRow ← LedgerEntry.create (p.credit.movement tenantId p.source) postingId creditAfter
  pure (debitRow, creditRow)

/-- `postEntry(tenantId, posting(debit, credit, meta), tx)`. -/
def post (tenantId : Id) (debitLeg creditLeg : LedgerLeg) (source : Meta) : Tx Unit := do
  let p ← lift (posting debitLeg creditLeg source)
  let _ ← postEntry tenantId p
  pure ()

/-! ## The ledger of a tenant -/

def Movement.leg (m : Movement) : LedgerLeg :=
  { account := m.account, direction := m.direction, amountCents := m.amount, category := m.category,
    currency := m.currency, partyId := m.partyId }

/-- All accounts at a zero balance. -/
def zeroBalances : LedgerAccount → Int := fun _ => 0

/-- One currency's account balances (Σ credits − Σ debits over that currency's legs). -/
def computeBalances (legs : List LedgerLeg) (currency : Currency) : LedgerAccount → Int :=
  legs.foldl
    (fun balances leg account =>
      if leg.currency = currency ∧ leg.account = account then balances account + delta leg.direction leg.amountCents
      else balances account)
    zeroBalances

/-- Apply a posting to a single-currency account-balance map. -/
def applyPosting (balances : LedgerAccount → Int) (p : LedgerPosting) : LedgerAccount → Int :=
  let next := Function.update balances p.debit.account
    (balances p.debit.account + delta p.debit.direction p.debit.amountCents)
  Function.update next p.credit.account (next p.credit.account + delta p.credit.direction p.credit.amountCents)

/-- Per-(account, currency) balances of a list of legs. -/
def computeBalancesByCurrency (legs : List LedgerLeg) : Currency → LedgerAccount → Int :=
  legs.foldl
    (fun balances leg currency account =>
      if leg.currency = currency ∧ leg.account = account then
        balances currency account + delta leg.direction leg.amountCents
      else balances currency account)
    fun _ _ => 0

/-- Σ debits = Σ credits within each currency. -/
def isBalanced (legs : List LedgerLeg) : Bool :=
  SUPPORTED_CURRENCIES.all fun currency =>
    ((legs.filter (·.currency = currency)).map fun leg => delta leg.direction leg.amountCents).sum = 0

structure LedgerView where
  balances : LedgerAccount → Int
  balancesByCurrency : Currency → LedgerAccount → Int
  balanced : Bool
  entries : List LedgerEntry

def getTenantLedger (tenantId : Id) : Job LedgerView := do
  let rows ← selectOnce fun db => oldestFirst (db.ledgerEntries.filter (·.tenantId = tenantId))
  let legs := rows.map (·.toMovement.leg)
  pure
    { balances := computeBalances legs .mad, balancesByCurrency := computeBalancesByCurrency legs,
      balanced := isBalanced legs, entries := rows }

end CorpoPay.Settlement
