import CorpoPay.Settlement.SettlementDb

/-!
# Wallets (`wallet.ts`, `wallet-db.ts`)

A customer's stored value. Every operation records a movement of the wallet and posts the matching ledger
movements.
-/

namespace CorpoPay.Settlement

/-! ## Movements -/

structure WalletMovement where
  signedAmountCents : Int
  balanceAfterCents : Int
  deriving DecidableEq, Repr

structure WalletDebit extends WalletMovement where
  feeCents : Int
  netCents : Int
  deriving DecidableEq, Repr

structure WalletTopUp extends WalletMovement where
  grossCents : Int
  feeCents : Int
  netCents : Int
  deriving DecidableEq, Repr

def applyMovement (balanceCents signedAmountCents : Int) : Int := balanceCents + signedAmountCents

/-- Credit the wallet. The two uses differ in the message. -/
def creditMovement (message : String) (balanceCents amountCents : Int) : Except Failure WalletMovement :=
  if amountCents ≤ 0 then .error (.walletError message "WALLET_INVALID_AMOUNT")
  else .ok { signedAmountCents := amountCents, balanceAfterCents := applyMovement balanceCents amountCents }

def walletTopUp : Int → Int → Except Failure WalletMovement :=
  creditMovement "top-up amount must be positive"

def walletRefund : Int → Int → Except Failure WalletMovement :=
  creditMovement "refund amount must be positive"

def walletDebit (balanceCents amountCents : Int) : Except Failure WalletMovement :=
  if amountCents ≤ 0 then .error (.walletError "debit amount must be positive" "WALLET_INVALID_AMOUNT")
  else if balanceCents < amountCents then
    .error (.walletError "insufficient wallet balance" "WALLET_INSUFFICIENT_BALANCE")
  else .ok { signedAmountCents := -amountCents, balanceAfterCents := applyMovement balanceCents (-amountCents) }

def debitWithFee (balanceCents amountCents : Int) (schedule : FeeScheduleSpec) (method : Option String) :
    Except Failure WalletDebit := do
  let feeCents ← computeFee schedule amountCents method
  let movement ← walletDebit balanceCents amountCents
  pure { toWalletMovement := movement, feeCents, netCents := amountCents - feeCents }

def topUpWithFee (balanceCents grossCents : Int) (schedule : FeeScheduleSpec) (method : Option String) :
    Except Failure WalletTopUp := do
  if grossCents ≤ 0 then .error (.walletError "top-up amount must be positive" "WALLET_INVALID_AMOUNT")
  else
    let feeCents ← computeFee schedule grossCents method
    let netCents := grossCents - feeCents
    if netCents ≤ 0 then
      .error (.walletError "top-up fee exceeds the top-up amount" "WALLET_FEE_EXCEEDS_AMOUNT")
    else
      pure { signedAmountCents := netCents, balanceAfterCents := applyMovement balanceCents netCents, grossCents,
             feeCents, netCents }

def walletAdjustment (balanceCents signedAmountCents : Int) : Except Failure WalletMovement :=
  let balanceAfterCents := applyMovement balanceCents signedAmountCents
  if balanceAfterCents < 0 then
    .error (.walletError "adjustment would overdraw the wallet" "WALLET_INSUFFICIENT_BALANCE")
  else .ok { signedAmountCents, balanceAfterCents }

/-! ## Rows -/

/-- Insert a `Wallet` row: its id and its owner are unique. -/
def Wallet.create (row : Id → Wallet) : Tx Wallet := do
  let id ← freshId
  let wallet := row id
  let taken ← select (·.wallets.any (·.id = id))
  if taken then Backend.fail (.prismaError "P2002")
  else do
    change fun db => { db with wallets := db.wallets ++ [wallet] }
    pure wallet

/-- Create the wallet of an owner, or return the existing one. -/
def createWallet (tenantId : Id) (ownerType : WalletOwnerType) (ownerId : String) (currency : Option Currency) :
    Job Wallet :=
  transaction do
    Backend.lock (.walletOwner tenantId ownerType ownerId)
    let existing ← select (·.wallets.find? fun w =>
      w.tenantId = tenantId ∧ w.ownerType = ownerType ∧ w.ownerId = ownerId)
    match existing with
    | some wallet => pure wallet
    | none => Wallet.create fun id =>
        { id, tenantId, ownerType, ownerId, balance := 0, currency := currency.getD .mad, status := .active }

/-- Serialize money movement for this tenant and load the wallet. -/
def loadActiveWallet (tenantId walletId : Id) : Tx Wallet := do
  Backend.lock (.tenant tenantId)
  let wallet ← select (·.wallets.find? fun w => w.id = walletId ∧ w.tenantId = tenantId)
  match wallet with
  | none => Backend.fail (.walletError "wallet not found" "WALLET_NOT_FOUND")
  | some wallet =>
      if wallet.status ≠ .active then Backend.fail (.walletError "wallet is not active" "WALLET_NOT_ACTIVE")
      else pure wallet

/-- Insert a `WalletTransaction` row. -/
def WalletTransaction.create (row : Id → WalletTransaction) : Tx WalletTransaction := do
  let id ← freshId
  let taken ← select (·.walletTransactions.any (·.id = id))
  if taken then Backend.fail (.prismaError "P2002")
  else do
    change fun db => { db with walletTransactions := db.walletTransactions ++ [row id] }
    pure (row id)

/-- Update a `Wallet` row by id and return it. -/
def Wallet.update (id : Id) (f : Wallet → Wallet) : Tx Wallet := do
  Backend.lock (.wallet id)
  let row ← select (·.wallets.find? (·.id = id))
  match row with
  | none => Backend.fail (.prismaError "P2025")
  | some row => do
      change fun db => { db with wallets := db.wallets.map fun r => if r.id = id then f r else r }
      pure (f row)

structure WalletOpResult where
  wallet : Wallet
  transaction : WalletTransaction
  deriving DecidableEq, Repr

/-- Persist a signed movement and the updated balance snapshot. -/
def recordMovement (tenantId : Id) (wallet : Wallet) (type : WalletTransactionType) (movement : WalletMovement)
    (sourceType : SourceType) (sourceId : Id) : Tx WalletOpResult := do
  let transaction ← WalletTransaction.create fun id =>
    { id, walletId := wallet.id, tenantId, type, amount := movement.signedAmountCents, currency := wallet.currency,
      balanceAfter := movement.balanceAfterCents, sourceType, sourceId }
  let updated ← Wallet.update wallet.id fun w => { w with balance := movement.balanceAfterCents }
  pure { wallet := updated, transaction }

/-! ## Operations -/

def Config.walletCommissionBasis (c : Config) (tenantId : Id) : WalletCommissionBasis :=
  match c.financeConfigs.find? (·.tenantId = tenantId) with
  | some row => row.walletCommissionBasis
  | none => .usage

/-- The fee schedule of a wallet operation: the same fallback as for a capture. -/
def walletFeeSpec (tenantId : Id) : Tx FeeScheduleSpec := do
  let scheduleRow ← select (·.activeFeeSchedule tenantId)
  let policyRow ← select (·.activeSettlementPolicy tenantId)
  pure (resolveFeeSpec (scheduleRow.map toFeeSpec) (policyRow.bind (·.industry)))

/-- `sourceType` and `sourceId` of the ledger postings of a wallet. -/
def Wallet.source (wallet : Wallet) : Meta := ⟨some .wallet, some wallet.id⟩

def topUpWallet (tenantId id : Id) (amountCents : Int) (paymentIntentId : Option Id) : Job WalletOpResult :=
  transaction do
    let wallet ← loadActiveWallet tenantId id
    let currency := wallet.currency
    let basis ← select (·.walletCommissionBasis tenantId)
    let sourceType : SourceType := if paymentIntentId.isSome then .paymentIntent else .walletTopup
    let sourceId := paymentIntentId.getD wallet.id
    if basis = .load then do
      let schedule ← walletFeeSpec tenantId
      let movement ← lift (topUpWithFee wallet.balance amountCents schedule none)
      post tenantId (debit .cash movement.grossCents .capture none currency)
        (credit .wallet movement.grossCents .capture none currency) wallet.source
      postPositive tenantId movement.feeCents (debit .wallet movement.feeCents .fee none currency)
        (credit .fees movement.feeCents .fee none currency) wallet.source
      recordMovement tenantId wallet .topUp movement.toWalletMovement sourceType sourceId
    else do
      let movement ← lift (walletTopUp wallet.balance amountCents)
      post tenantId (debit .cash amountCents .capture none currency)
        (credit .wallet amountCents .capture none currency) wallet.source
      recordMovement tenantId wallet .topUp movement sourceType sourceId

def debitWallet (tenantId id : Id) (amountCents : Int) (method : Option String) : Job WalletOpResult :=
  transaction do
    let wallet ← loadActiveWallet tenantId id
    let currency := wallet.currency
    let basis ← select (·.walletCommissionBasis tenantId)
    if basis = .load then do
      let movement ← lift (walletDebit wallet.balance amountCents)
      post tenantId (debit .wallet amountCents .capture none currency)
        (credit .available amountCents .capture none currency) wallet.source
      recordMovement tenantId wallet .debit movement .walletDebit wallet.id
    else do
      let schedule ← walletFeeSpec tenantId
      let movement ← lift (debitWithFee wallet.balance amountCents schedule method)
      post tenantId (debit .wallet amountCents .capture none currency)
        (credit .available amountCents .capture none currency) wallet.source
      postPositive tenantId movement.feeCents (debit .available movement.feeCents .fee none currency)
        (credit .fees movement.feeCents .fee none currency) wallet.source
      recordMovement tenantId wallet .debit movement.toWalletMovement .walletDebit wallet.id

def refundWallet (tenantId id : Id) (amountCents : Int) : Job WalletOpResult :=
  transaction do
    let wallet ← loadActiveWallet tenantId id
    let currency := wallet.currency
    let movement ← lift (walletRefund wallet.balance amountCents)
    post tenantId (debit .available amountCents .refund none currency)
      (credit .wallet amountCents .refund none currency) wallet.source
    recordMovement tenantId wallet .refund movement .walletRefund wallet.id

/-- Manual correction: positive credits the wallet, negative debits it. -/
def adjustWallet (tenantId id : Id) (amountCents : Int) : Job WalletOpResult :=
  transaction do
    let wallet ← loadActiveWallet tenantId id
    let currency := wallet.currency
    let movement ← lift (walletAdjustment wallet.balance amountCents)
    let abs : Int := amountCents.natAbs
    when (0 < amountCents) do
      post tenantId (debit .available abs .adjustment none currency)
        (credit .wallet abs .adjustment none currency) wallet.source
    when (amountCents < 0) do
      post tenantId (debit .wallet abs .adjustment none currency)
        (credit .available abs .adjustment none currency) wallet.source
    recordMovement tenantId wallet .adjustment movement .walletAdjust wallet.id

end CorpoPay.Settlement
