import CorpoPay.Settlement.Lemmas.Effects

/-!
# One relation for all operations

`Change op db db'` lists everything that `op`, run alone, can do. The invariants of runs are proved by cases on it.
-/

namespace CorpoPay.Settlement

open Transaction.Tx

inductive Change : Operation → Db → Db → Prop
  /-- The operation fails, or there is nothing to do. -/
  | same (op : Operation) (db : Db) : Change op db db
  | configured (config : Config) (db : Db) : Change (.configure config) db { db with toConfig := config }
  | captured {t input cp db db'} (h : Captured t input cp db db') : Change (.settleCapture t input) db db'
  | refunded {t input first rest db db'} (hledger : OnlyLedger db db') (h : Refunded t input first rest db db') :
      Change (.settleRefund t input) db db'
  | refundRequested {rt t id refundId db db'} (h : RefundRequested t id refundId db db') :
      Change (.refundRoute rt t id) db db'
  | disputeCreated {t input d db db'} (h : DisputeCreated t input d db db') : Change (.createDispute t input) db db'
  | disputeWon {t id d db db'} (h : DisputeWon t id d db db') : Change (.resolveDispute t id .won) db db'
  | disputeLost {t id d a db db'} (h : DisputeLost t id d a db db') : Change (.resolveDispute t id .lost) db db'
  | walletCreated {t ownerType ownerId currency db db'} (h : Booked [] db db') :
      Change (.createWallet t ownerType ownerId currency) db db'
  | toppedUp {t id amount paymentIntentId fee db db'} (h : WalletBooked t id (topUpMovements t amount fee) db db') :
      Change (.topUpWallet t id amount paymentIntentId) db db'
  | debited {t id amount method fee db db'} (hfee : db.debitFee t amount method = .ok fee)
      (hdrawable : db.Drawable t id amount) (h : WalletBooked t id (debitMovements t amount fee) db db') : Change (.debitWallet t id amount method) db db'
  | walletRefunded {t id amount db db'} (h : WalletBooked t id (refundWalletMovements t amount) db db') :
      Change (.refundWallet t id amount) db db'
  | adjusted {t id amount db db'} (h : WalletBooked t id (adjustMovements t amount) db db') :
      Change (.adjustWallet t id amount) db db'
  | splitExecuted {t input trigger shares result db db'} (hrule : db.splitRequest t input = some (trigger, shares))
      (hresult : split input.sourceCents shares = .ok result) (h : SplitExecuted t input trigger result db db') :
      Change (.executeSplit t input) db db'
  | splitReleased {t id r db db'} (h : SplitReleased t id r db db') : Change (.releaseSplit t id) db db'
  | payoutCreated {t input db db'} (h : Swept t db db') : Change (.createPayout t input) db db'
  | payoutCancelled {t id db db'} (h : Booked [] db db') : Change (.cancelPayout t id) db db'
  | payoutFailed {t id db db'} (h : Booked [] db db') : Change (.markPayoutFailed t id) db db'
  | payoutPaid {t id providerTransferId db db'} {p : Payout}
      (hcovered : p.amount ≤ db.accountBalance t .available p.currency)
      (h : Booked (p.settlement.movements t) db db') : Change (.markPayoutPaid t id providerTransferId) db db'

theorem Change.of_or {op : Operation} {db db' : Db} {P : Prop} (h : db' = db ∨ P) (hp : P → Change op db db') :
    Change op db db' := by
  rcases h with rfl | h
  · exact .same op db'
  · exact hp h

theorem Operation.change (op : Operation) (db : Db) : op.job.Ensures (fun _ db' => Change op db db') db := by
  cases op with
  | configure config => exact .configured config db
  | settleCapture t input =>
      exact ensures_discard ((settleCapture_effect t input db).mono fun _ _ h => .of_or h fun ⟨_, hc⟩ => .captured hc)
  | settleRefund t input =>
      exact ensures_discard ((settleRefund_effect t input db).mono fun _ _ h =>
        .of_or h fun ⟨hl, _, _, hr⟩ => .refunded hl hr)
  | refundRoute rt t id =>
      exact ensures_discard ((refundRoute_effect rt t id db).mono fun _ _ h => .of_or h fun ⟨_, hr⟩ => .refundRequested hr)
  | createDispute t input =>
      exact ensures_discard ((createDispute_effect t input db).mono fun _ _ h => .of_or h fun ⟨_, hd⟩ => .disputeCreated hd)
  | resolveDispute t id outcome =>
      cases outcome with
      | won => exact ensures_discard ((resolveWon_effect t id db).mono fun _ _ h => .of_or h fun ⟨_, hd⟩ => .disputeWon hd)
      | lost =>
          exact ensures_discard ((resolveLost_effect t id db).mono fun _ _ h =>
            .of_or h fun ⟨_, _, hd⟩ => .disputeLost hd)
  | createWallet t ownerType ownerId currency =>
      have hkeeps : (Settlement.createWallet t ownerType ownerId currency).Keeps (Booked []) := keeps_createWallet booked_ignoresWallets
      exact ensures_discard ((hkeeps db).mono fun _ _ h => .walletCreated h)
  | topUpWallet t id amount paymentIntentId =>
      exact ensures_discard ((topUpWallet_effect amount paymentIntentId).mono fun _ _ h =>
        .of_or h fun ⟨_, hw⟩ => .toppedUp hw)
  | debitWallet t id amount method =>
      exact ensures_discard ((debitWallet_effect amount method).mono fun _ _ h =>
        .of_or h fun ⟨_, hfee, hd, hw⟩ => .debited hfee hd hw)
  | refundWallet t id amount =>
      exact ensures_discard ((refundWallet_effect amount).mono fun _ _ h => .of_or h .walletRefunded)
  | adjustWallet t id amount =>
      exact ensures_discard ((adjustWallet_effect amount).mono fun _ _ h => .of_or h .adjusted)
  | executeSplit t input =>
      exact ensures_discard ((executeSplit_effect t input db).mono fun _ _ h =>
        .of_or h fun ⟨_, _, _, hrule, hresult, hs⟩ => .splitExecuted hrule hresult hs)
  | releaseSplit t id =>
      exact ensures_discard ((releaseSplit_effect t id db).mono fun _ _ h => .of_or h fun ⟨_, hs⟩ => .splitReleased hs)
  | createPayout t input => exact ensures_discard ((createPayout_effect t input db).mono fun _ _ h => .payoutCreated h)
  | cancelPayout t id => exact ensures_discard ((cancelPayout_spec t id).mono fun _ _ h => .payoutCancelled h.booked)
  | markPayoutFailed t id =>
      exact ensures_discard ((markPayoutFailed_spec t id).mono fun _ _ h => .payoutFailed h.booked)
  | markPayoutPaid t id providerTransferId =>
      refine ensures_discard ((markPayoutPaid_spec t id providerTransferId).mono fun _ db' h => .of_or h fun hp => ?_)
      obtain ⟨p, hle, hb⟩ := hp.booked
      exact .payoutPaid hle hb

/-- The rule for the invariants of runs whose steps meet a condition. -/
theorem ReachedIf.change_invariant {cond : Operation → Db → Prop} {P : Db → Prop} (hinit : ∀ config, P (.empty config))
    (hstep : ∀ op db db', cond op db → P db → Change op db db' → P db') {db : Db} (h : ReachedIf cond db) : P db :=
  h.invariant hinit fun op db hcond hp => (op.change db).mono fun _ db' hc => hstep op db db' hcond hp hc

end CorpoPay.Settlement
