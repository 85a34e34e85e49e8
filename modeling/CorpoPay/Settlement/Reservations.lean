import CorpoPay.Settlement.PayoutDb

/-!
# What payouts reserve

An open payout reserves its amount. A payout that is open or paid claims credits through its items.
-/

namespace CorpoPay.Settlement

/-- Open or paid: the items of the payout are kept. -/
def PayoutStatus.isLive (s : PayoutStatus) : Bool := s.isOpen || s = .paid

namespace Db

variable (db : Db) (tenantId : Id) (currency : Currency)

/-- The sum of the payouts of a tenant in one currency whose status is in `sel`. -/
def payoutSum (sel : PayoutStatus → Bool) : Int :=
  ((db.payouts.filter fun p => p.tenantId = tenantId ∧ p.currency = currency ∧ sel p.status).map (·.amount)).sum

/-- What the other open payouts reserve. -/
def otherOpen (id : Id) : Int :=
  ((db.payouts.filter fun p =>
    p.tenantId = tenantId ∧ p.currency = currency ∧ p.status.isOpen ∧ p.id ≠ id).map (·.amount)).sum

/-- What a new payout should come to: the AVAILABLE balance less what open payouts reserve. -/
def eligible : Int := db.accountBalance tenantId .available currency - db.payoutSum tenantId currency PayoutStatus.isOpen

/-- What `createPayout` pays: the unpaid credits less the debits that no payout made. -/
def payable : Int :=
  ((db.unpaidCredits tenantId currency).map (·.amount)).sum - ((db.otherDebits tenantId currency).map (·.amount)).sum

def itemsOf (payoutId : Id) : List PayoutItem := db.payoutItems.filter (·.payoutId = payoutId)

/-- What payouts claim of a ledger entry. -/
def claimed (entryId : Id) : Int := ((db.payoutItems.filter (·.ledgerEntryId = entryId)).map (·.amount)).sum

/-- The AVAILABLE credits that a payout claims. -/
def claimedCredits : List LedgerEntry :=
  db.ledgerEntries.filter fun e =>
    e.tenantId = tenantId ∧ e.account = .available ∧ e.direction = .credit ∧ e.currency = currency ∧
      db.payoutItems.any (·.ledgerEntryId = e.id)

/-- Every credit that a payout claims is claimed in full. -/
def ClaimsWhole : Prop := ∀ e ∈ db.claimedCredits tenantId currency, db.claimed e.id = e.amount

instance : Decidable (db.ClaimsWhole tenantId currency) := by unfold ClaimsWhole; infer_instance

end Db

end CorpoPay.Settlement
