import CorpoPay.Settlement.Money

/-!
# The double-entry ledger: legs and postings (`ledger.ts`)
-/

namespace CorpoPay.Settlement

inductive LedgerAccount
  | cash | pending | collected | available | reserve | fees | paidOut | wallet | taxPayable
  deriving DecidableEq, Repr

inductive LedgerDirection
  | debit | credit
  deriving DecidableEq, Repr

inductive LedgerCategory
  | capture | refund | fee | split | payout | chargeback | reserveRelease | adjustment | fxAdjustment
  | disbursement | tax
  deriving DecidableEq, Repr

/-- What a posting is for. The first seven are the words the code itself uses; a split names its own. -/
inductive SourceType
  | paymentIntent | refund | dispute | payout | wallet | split | fxConversion | fxAdjustment
  | walletTopup | walletDebit | walletRefund | walletAdjust
  | other (name : String)
  deriving DecidableEq, Repr

structure LedgerLeg where
  account : LedgerAccount
  direction : LedgerDirection
  amountCents : Int
  category : LedgerCategory
  currency : Currency
  partyId : Option Id
  deriving DecidableEq, Repr

/-- `sourceType` and `sourceId` of a posting. -/
structure Meta where
  sourceType : Option SourceType
  sourceId : Option Id
  deriving DecidableEq, Repr

structure LedgerPosting where
  debit : LedgerLeg
  credit : LedgerLeg
  source : Meta
  deriving DecidableEq, Repr

/-- A debit leg (reduces the account's balance). -/
def debit (account : LedgerAccount) (amountCents : Int) (category : LedgerCategory) (partyId : Option Id)
    (currency : Currency) : LedgerLeg :=
  { account, direction := .debit, amountCents, category, currency, partyId }

/-- A credit leg (increases the account's balance). -/
def credit (account : LedgerAccount) (amountCents : Int) (category : LedgerCategory) (partyId : Option Id)
    (currency : Currency) : LedgerLeg :=
  { account, direction := .credit, amountCents, category, currency, partyId }

/-- Signed contribution of a leg to its account's balance: credit +, debit −. -/
def delta (direction : LedgerDirection) (amountCents : Int) : Int :=
  match direction with
  | .credit => amountCents
  | .debit => -amountCents

/-- Build a balanced posting, rejecting anything that would unbalance the ledger. -/
def posting (debitLeg creditLeg : LedgerLeg) (source : Meta) : Except Failure LedgerPosting :=
  if debitLeg.direction ≠ .debit then .error (.ledgerError "debit leg must be DEBIT")
  else if creditLeg.direction ≠ .credit then .error (.ledgerError "credit leg must be CREDIT")
  else if debitLeg.currency ≠ creditLeg.currency then
    .error (.ledgerError ("posting must use a single currency (debit " ++ debitLeg.currency.code ++ " != credit "
      ++ creditLeg.currency.code ++ ")"))
  else if debitLeg.amountCents ≠ creditLeg.amountCents then
    .error (.ledgerError ("posting must balance (debit " ++ toString debitLeg.amountCents ++ " != credit "
      ++ toString creditLeg.amountCents ++ ")"))
  else if debitLeg.amountCents < 0 then .error (.ledgerError "amount must be non-negative")
  else if debitLeg.account = creditLeg.account ∧ debitLeg.partyId = creditLeg.partyId then
    .error (.ledgerError "debit and credit must differ (account or party)")
  else .ok { debit := debitLeg, credit := creditLeg, source }

/-- What `posting` accepts. -/
structure LedgerPosting.Valid (p : LedgerPosting) : Prop where
  debit_direction : p.debit.direction = .debit
  credit_direction : p.credit.direction = .credit
  currency : p.debit.currency = p.credit.currency
  amount : p.debit.amountCents = p.credit.amountCents
  nonneg : 0 ≤ p.debit.amountCents
  differ : ¬ (p.debit.account = p.credit.account ∧ p.debit.partyId = p.credit.partyId)

theorem posting_eq_ok {d c : LedgerLeg} {m : Meta} {p : LedgerPosting} :
    posting d c m = .ok p ↔ p = ⟨d, c, m⟩ ∧ p.Valid := by
  unfold posting
  constructor
  · intro h
    split_ifs at h with h₁ h₂ h₃ h₄ h₅ h₆
    cases h
    exact ⟨rfl, not_not.mp h₁, not_not.mp h₂, not_not.mp h₃, not_not.mp h₄, not_lt.mp h₅, h₆⟩
  · rintro ⟨rfl, h₁, h₂, h₃, h₄, h₅, h₆⟩
    dsimp only at h₁ h₂ h₃ h₄ h₅ h₆
    rw [if_neg (not_not.mpr h₁), if_neg (not_not.mpr h₂), if_neg (not_not.mpr h₃), if_neg (not_not.mpr h₄),
      if_neg (not_lt.mpr h₅), if_neg h₆]

theorem posting_self {p : LedgerPosting} (h : p.Valid) : posting p.debit p.credit p.source = .ok p :=
  posting_eq_ok.mpr ⟨rfl, h⟩

/-- The part of a ledger row that says what moved. -/
structure Movement where
  tenantId : Id
  account : LedgerAccount
  direction : LedgerDirection
  category : LedgerCategory
  amount : Int
  currency : Currency
  sourceType : Option SourceType
  sourceId : Option Id
  partyId : Option Id
  deriving DecidableEq, Repr

def Movement.delta (m : Movement) : Int := Settlement.delta m.direction m.amount

def LedgerLeg.movement (l : LedgerLeg) (tenantId : Id) (source : Meta) : Movement :=
  { tenantId, account := l.account, direction := l.direction, category := l.category, amount := l.amountCents,
    currency := l.currency, sourceType := source.sourceType, sourceId := source.sourceId, partyId := l.partyId }

/-- The two movements of a posting. -/
def LedgerPosting.movements (p : LedgerPosting) (tenantId : Id) : List Movement :=
  [p.debit.movement tenantId p.source, p.credit.movement tenantId p.source]

end CorpoPay.Settlement
