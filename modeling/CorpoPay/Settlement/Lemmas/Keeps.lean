import CorpoPay.Settlement.Lemmas.Capture
import CorpoPay.Settlement.Operations

/-!
# What the operations leave as it was

An operation keeps a relation between databases when its statements do. What a statement writes besides the ledger is a
hypothesis of the operations that use it.
-/

namespace CorpoPay.Settlement

open Transaction.Tx
open Transaction (Job.keeps_bind Job.keeps_ret Job.keeps_throw Job.keeps_get Job.keeps_transaction Job.keeps_ofExcept
  Job.keeps_query Job.keeps_mapError)

/-- The postings of all operations but the payment of a payout keep `R`. -/
structure Postings (R : Db → Db → Prop) : Prop where
  post {t : Id} {d c : LedgerLeg} {m : Meta} (h : d.category ≠ .payout) : (post t d c m).Keeps R
  postEntry {t : Id} {p : LedgerPosting} (h : p.debit.category ≠ .payout) : (postEntry t p).Keeps R

variable {R : Db → Db → Prop} [IsPreorder Db R]

theorem Postings.postPositive (hp : Postings R) {t : Id} {amount : Int} {d c : LedgerLeg} {m : Meta}
    (h : d.category ≠ .payout) : (postPositive t amount d c m).Keeps R := keeps_when fun _ => hp.post h

/-! ## Captures, splits and refunds -/

/-- The status of the rows of a split. -/
def ExecuteSplitInput.status (input : ExecuteSplitInput) : SplitStatus :=
  if input.held.getD false then .pending else .settled

section Captures

variable (hp : Postings R)
include hp
theorem keeps_executeSplitInTx {t : Id} {input : ExecuteSplitInput} {trigger : SplitTrigger} {shares : List ShareSpec}
    (hsplits : ∀ row : Id → Split, (∀ id, (row id).id = id ∧ (row id).status = input.status) →
      (Split.create row).Keeps R) :
    (executeSplitInTx t input trigger shares).Keeps R := by
  refine keeps_bind (keeps_lift _) fun result => keeps_bind (keeps_collect fun a _ => ?_) fun _ =>
    keeps_bind (keeps_when fun _ => hp.post (by simp [debit])) fun _ => keeps_ret _
  exact keeps_bind (hp.post (by simp [debit])) fun _ => hsplits _ fun _ => ⟨rfl, rfl⟩

theorem keeps_bookCapture {t : Id} {input : SettleCaptureInput} {rule : Option SplitRule} {plan : CaptureSettlementPlan}
    (hsplits : ∀ row : Id → Split, (∀ id, (row id).id = id ∧ (row id).status = .settled) →
      (Split.create row).Keeps R) :
    (bookCapture t input rule plan).Keeps R := by
  have hrest : ∀ feeFrom : LedgerAccount, ∀ isNone : Bool, ((postPositive t plan.feeCents
      (debit feeFrom plan.feeCents .fee none (input.currency.getD .mad))
      (credit .fees plan.feeCents .fee none (input.currency.getD .mad))
      ⟨some CAPTURE_SOURCE_TYPE, some input.intentId⟩).bind fun _ => (postPositive t plan.taxCents
      (debit feeFrom plan.taxCents .tax none (input.currency.getD .mad))
      (credit .taxPayable plan.taxCents .tax none (input.currency.getD .mad))
      ⟨some CAPTURE_SOURCE_TYPE, some input.intentId⟩).bind fun _ => (postPositive t plan.reserveCents
      (debit feeFrom plan.reserveCents .capture none (input.currency.getD .mad))
      (credit .reserve plan.reserveCents .capture none (input.currency.getD .mad))
      ⟨some CAPTURE_SOURCE_TYPE, some input.intentId⟩).bind fun _ => (when isNone (postPositive t plan.netCents
      (debit .collected plan.netCents .capture none (input.currency.getD .mad))
      (credit .available plan.netCents .capture none (input.currency.getD .mad))
      ⟨some CAPTURE_SOURCE_TYPE, some input.intentId⟩)).bind fun _ => (.ret true : Tx Bool)).Keeps R := fun _ _ =>
    keeps_bind (hp.postPositive (by simp [debit])) fun _ => keeps_bind (hp.postPositive (by simp [debit]))
      fun _ => keeps_bind (hp.postPositive (by simp [debit])) fun _ =>
        keeps_bind (keeps_when fun _ => hp.postPositive (by simp [debit])) fun _ => keeps_ret _
  refine keeps_bind (hp.post (by simp [debit])) fun _ => ?_
  cases rule with
  | none => exact hrest _ _
  | some rule => exact keeps_bind (keeps_executeSplitInTx hp hsplits) fun _ => hrest _ _

theorem keeps_settleCapture {t : Id} {input : SettleCaptureInput}
    (hsplits : ∀ row : Id → Split, (∀ id, (row id).id = id ∧ (row id).status = .settled) →
      (Split.create row).Keeps R) :
    (settleCapture t input).Keeps R := by
  unfold settleCapture
  split
  · exact Job.keeps_ret _
  · refine Job.keeps_transaction (keeps_bind (keeps_get _) fun _ => ?_)
    split
    · exact keeps_ret _
    · refine keeps_bind (keeps_get _) fun _ => keeps_bind (keeps_get _) fun _ => keeps_bind (keeps_get _) fun _ => ?_
      split
      · exact keeps_bind (keeps_get _) fun _ => keeps_bind (keeps_lift _) fun _ => keeps_bind (keeps_lift _) fun _ =>
          keeps_bookCapture hp hsplits
      · exact keeps_bind (keeps_ret _) fun _ => keeps_bind (keeps_lift _) fun _ => keeps_bind (keeps_lift _) fun _ =>
          keeps_bookCapture hp hsplits

theorem keeps_settleRefund {t : Id} {input : SettleRefundInput} : (settleRefund t input).Keeps R := by
  refine Job.keeps_transaction (keeps_bind (keeps_acquire _) fun _ => keeps_bind (keeps_get _) fun _ => ?_)
  split
  · exact keeps_ret _
  · refine keeps_bind (keeps_get _) fun credits => ?_
    split
    · exact keeps_ret _
    · refine keeps_bind (keeps_get _) fun _ => ?_
      dsimp only
      split
      · exact keeps_throw _
      · exact keeps_bind (keeps_forEach fun _ _ => keeps_when fun _ => hp.post (by simp [debit])) fun _ => keeps_ret _

theorem keeps_executeSplit {t : Id} {input : ExecuteSplitInput}
    (hsplits : ∀ row : Id → Split, (∀ id, (row id).id = id ∧ (row id).status = input.status) →
      (Split.create row).Keeps R) :
    (executeSplit t input).Keeps R := by
  refine Job.keeps_transaction (keeps_bind ?_ fun _ => keeps_executeSplitInTx hp hsplits)
  unfold resolveSplitRule
  split
  · refine keeps_bind (keeps_get _) fun rule => ?_
    split
    · exact keeps_throw _
    · exact keeps_ret _
  · exact keeps_ret _

theorem keeps_releaseSplit {t id : Id} (hsplits : ∀ db ss, R db { db with splits := ss }) :
    (releaseSplit t id).Keeps R := by
  refine Job.keeps_transaction (keeps_bind (keeps_get _) fun existing => ?_)
  split
  · exact keeps_throw _
  · refine keeps_bind (keeps_lift _) fun _ => keeps_bind (hp.post (by simp [debit])) fun _ =>
      keeps_bind (keeps_acquire _) fun _ => keeps_bind (keeps_get _) fun row => ?_
    split
    · exact keeps_throw _
    · exact keeps_bind (keeps_modify fun db => hsplits db _) fun _ => keeps_ret _

end Captures

/-! ## The refund route -/

theorem keeps_refundCreate {row : Id → Refund} (h : ∀ db rs, R db { db with refunds := rs }) :
    (Refund.create row).Keeps R := by
  refine keeps_bind (keeps_query _) fun id => keeps_bind (keeps_acquire _) fun _ => keeps_bind (keeps_get _) fun _ => ?_
  split
  · exact keeps_throw _
  · exact keeps_bind (keeps_modify fun db => h db _) fun _ => keeps_ret _

theorem keeps_refundUpdate {id : Id} {f : Refund → Refund} (h : ∀ db rs, R db { db with refunds := rs }) :
    (Refund.update id f).Keeps R := by
  refine keeps_bind (keeps_acquire _) fun _ => keeps_bind (keeps_get _) fun row => ?_
  split
  · exact keeps_throw _
  · exact keeps_bind (keeps_modify fun db => h db _) fun _ => keeps_ret _

theorem keeps_intentUpdate {id : Id} {f : PaymentIntent → PaymentIntent}
    (h : ∀ db is, R db { db with paymentIntents := is }) : (PaymentIntent.update id f).Keeps R := by
  refine keeps_bind (keeps_acquire _) fun _ => keeps_bind (keeps_get _) fun row => ?_
  split
  · exact keeps_throw _
  · exact keeps_bind (keeps_modify fun db => h db _) fun _ => keeps_ret _

/-- The route does to the other tables what `settleRefund` does. -/
theorem keeps_refundRoute {rt : Runtime} {t id : Id} (hrefunds : ∀ db rs, R db { db with refunds := rs })
    (hintents : ∀ db is, R db { db with paymentIntents := is }) (hsettle : ∀ input, (settleRefund t input).Keeps R) :
    (refundRoute rt t id).Keeps R := by
  refine Job.keeps_bind (Job.keeps_get _) fun found => ?_
  split
  · exact Job.keeps_throw _
  · refine Job.keeps_bind (Job.keeps_ofExcept _) fun _ => Job.keeps_bind (Job.keeps_get _) fun config => ?_
    split
    · exact Job.keeps_throw _
    · refine Job.keeps_bind (Job.keeps_ofExcept _) fun _ => Job.keeps_bind (Job.keeps_ofExcept _) fun _ =>
        Job.keeps_bind (Job.keeps_ofExcept _) fun _ =>
        Job.keeps_bind (Job.keeps_mapError (Job.keeps_transaction (keeps_refundCreate hrefunds)) _) fun _ =>
        Job.keeps_bind (Job.keeps_query _) fun result => ?_
      split
      · exact Job.keeps_throw _
      · refine Job.keeps_bind ?_ fun _ => Job.keeps_transaction (keeps_bind (keeps_refundUpdate hrefunds) fun _ =>
          keeps_bind (keeps_intentUpdate hintents) fun _ => keeps_ret _)
        unfold settleAccepted
        split
        · exact hsettle _
        · exact Job.keeps_ret _

/-! ## Disputes -/

theorem keeps_createDispute {t : Id} {input : CreateDisputeInput} (hdisputes : ∀ db ds, R db { db with disputes := ds }) :
    (createDispute t input).Keeps R := by
  refine Job.keeps_bind (Job.keeps_get _) fun existing => ?_
  split
  · exact Job.keeps_ret _
  · refine Job.keeps_transaction (keeps_bind (keeps_query _) fun id => keeps_bind (keeps_acquire _) fun _ =>
      keeps_bind (keeps_get _) fun _ => ?_)
    split
    · exact keeps_throw _
    · exact keeps_bind (keeps_modify fun db => hdisputes db _) fun _ => keeps_ret _

theorem keeps_disputeUpdate {id : Id} {f : Dispute → Dispute} (hdisputes : ∀ db ds, R db { db with disputes := ds }) :
    (Dispute.update id f).Keeps R := by
  refine keeps_bind (keeps_acquire _) fun _ => keeps_bind (keeps_get _) fun row => ?_
  split
  · exact keeps_throw _
  · exact keeps_bind (keeps_modify fun db => hdisputes db _) fun _ => keeps_ret _

theorem keeps_executeClawback (hp : Postings R) {t id : Id} {currency : Currency} {allocation : ClawbackAllocation}
    (hdisputes : ∀ db ds, R db { db with disputes := ds }) (hrecoveries : ∀ db rs, R db { db with recoveries := rs }) :
    (executeClawback t id currency allocation).Keeps R := by
  refine keeps_bind (hp.postPositive (by simp [debit])) fun _ => keeps_bind (hp.postPositive (by simp [debit]))
    fun _ => keeps_bind (keeps_disputeUpdate hdisputes) fun _ => keeps_bind (keeps_get _) fun _ => ?_
  split
  · refine keeps_bind (keeps_bind (keeps_query _) fun id => keeps_bind (keeps_acquire _) fun _ =>
      keeps_bind (keeps_get _) fun _ => ?_) fun _ => keeps_ret _
    split
    · exact keeps_throw _
    · exact keeps_bind (keeps_modify fun db => hrecoveries db _) fun _ => keeps_ret _
  · exact keeps_ret _

theorem keeps_resolveDispute (hp : Postings R) {t id : Id} {outcome : Outcome}
    (hdisputes : ∀ db ds, R db { db with disputes := ds }) (hrecoveries : ∀ db rs, R db { db with recoveries := rs }) :
    (resolveDispute t id outcome).Keeps R := by
  cases outcome with
  | won =>
      exact Job.keeps_transaction (keeps_bind (keeps_get _) fun _ => keeps_bind (keeps_lift _) fun _ =>
        keeps_bind (keeps_disputeUpdate hdisputes) fun _ => keeps_bind (keeps_get _) fun _ => keeps_ret _)
  | lost =>
      refine Job.keeps_bind (Job.keeps_get _) fun _ => Job.keeps_bind (Job.keeps_ofExcept _) fun _ =>
        Job.keeps_bind (Job.keeps_bind (Job.keeps_get _) fun _ => Job.keeps_ret _) fun _ =>
        Job.keeps_bind (Job.keeps_get _) fun _ => Job.keeps_bind (Job.keeps_ofExcept _) fun _ =>
        Job.keeps_transaction ?_
      exact keeps_bind (keeps_get _) fun _ => keeps_bind (keeps_lift _) fun _ =>
        keeps_executeClawback hp hdisputes hrecoveries

/-! ## Wallets -/

/-- The tables of the wallets are not looked at. -/
structure IgnoresWallets (R : Db → Db → Prop) : Prop where
  wallets : ∀ db ws, R db { db with wallets := ws }
  walletTransactions : ∀ db ts, R db { db with walletTransactions := ts }

section Wallets

variable (hp : Postings R) (hw : IgnoresWallets R)

theorem keeps_loadActiveWallet {t id : Id} : (loadActiveWallet t id).Keeps R := by
  refine keeps_bind (keeps_acquire _) fun _ => keeps_bind (keeps_get _) fun wallet => ?_
  split
  · exact keeps_throw _
  · split
    · exact keeps_throw _
    · exact keeps_ret _

include hw

theorem keeps_recordMovement {t : Id} {wallet : Wallet} {type : WalletTransactionType} {movement : WalletMovement}
    {sourceType : SourceType} {sourceId : Id} :
    (recordMovement t wallet type movement sourceType sourceId).Keeps R := by
  have hcreate : ∀ row, (WalletTransaction.create row).Keeps R := by
    intro row
    refine keeps_bind (keeps_query _) fun id => keeps_bind (keeps_get _) fun _ => ?_
    split
    · exact keeps_throw _
    · exact keeps_bind (keeps_modify fun db => hw.walletTransactions db _) fun _ => keeps_ret _
  have hupdate : ∀ id f, (Wallet.update id f).Keeps R := by
    intro id f
    refine keeps_bind (keeps_acquire _) fun _ => keeps_bind (keeps_get _) fun row => ?_
    split
    · exact keeps_throw _
    · exact keeps_bind (keeps_modify fun db => hw.wallets db _) fun _ => keeps_ret _
  exact keeps_bind (hcreate _) fun _ => keeps_bind (hupdate _ _) fun _ => keeps_ret _

theorem keeps_createWallet {t : Id} {ownerType : WalletOwnerType} {ownerId : String} {currency : Option Currency} :
    (createWallet t ownerType ownerId currency).Keeps R := by
  refine Job.keeps_transaction (keeps_bind (keeps_acquire _) fun _ => keeps_bind (keeps_get _) fun existing => ?_)
  split
  · exact keeps_ret _
  · refine keeps_bind (keeps_query _) fun id => keeps_bind (keeps_get _) fun _ => ?_
    split
    · exact keeps_throw _
    · exact keeps_bind (keeps_modify fun db => hw.wallets db _) fun _ => keeps_ret _

omit hw in
theorem keeps_walletFeeSpec {t : Id} : (walletFeeSpec t).Keeps R :=
  keeps_bind (keeps_get _) fun _ => keeps_bind (keeps_get _) fun _ => keeps_ret _

include hp

theorem keeps_topUpWallet {t id : Id} {amountCents : Int} {paymentIntentId : Option Id} :
    (topUpWallet t id amountCents paymentIntentId).Keeps R := by
  refine Job.keeps_transaction (keeps_bind keeps_loadActiveWallet fun _ => keeps_bind (keeps_get _) fun _ => ?_)
  dsimp only
  split
  · exact keeps_bind keeps_walletFeeSpec fun _ => keeps_bind (keeps_lift _) fun _ =>
      keeps_bind (hp.post (by simp [debit])) fun _ => keeps_bind (hp.postPositive (by simp [debit])) fun _ =>
        keeps_recordMovement hw
  · exact keeps_bind (keeps_lift _) fun _ => keeps_bind (hp.post (by simp [debit])) fun _ => keeps_recordMovement hw

theorem keeps_debitWallet {t id : Id} {amountCents : Int} {method : Option String} :
    (debitWallet t id amountCents method).Keeps R := by
  refine Job.keeps_transaction (keeps_bind keeps_loadActiveWallet fun _ => keeps_bind (keeps_get _) fun _ => ?_)
  split
  · exact keeps_bind (keeps_lift _) fun _ => keeps_bind (hp.post (by simp [debit])) fun _ => keeps_recordMovement hw
  · exact keeps_bind keeps_walletFeeSpec fun _ => keeps_bind (keeps_lift _) fun _ =>
      keeps_bind (hp.post (by simp [debit])) fun _ => keeps_bind (hp.postPositive (by simp [debit])) fun _ =>
        keeps_recordMovement hw

theorem keeps_refundWallet {t id : Id} {amountCents : Int} : (refundWallet t id amountCents).Keeps R :=
  Job.keeps_transaction (keeps_bind keeps_loadActiveWallet fun _ => keeps_bind (keeps_lift _) fun _ =>
    keeps_bind (hp.post (by simp [debit])) fun _ => keeps_recordMovement hw)

theorem keeps_adjustWallet {t id : Id} {amountCents : Int} : (adjustWallet t id amountCents).Keeps R :=
  Job.keeps_transaction (keeps_bind keeps_loadActiveWallet fun _ => keeps_bind (keeps_lift _) fun _ =>
    keeps_bind (keeps_when fun _ => hp.post (by simp [debit])) fun _ =>
      keeps_bind (keeps_when fun _ => hp.post (by simp [debit])) fun _ => keeps_recordMovement hw)

end Wallets

/-! ## The FX sweep -/

theorem planFxConversion_category {base quote : Currency} {amount : Int} {locked reference : Nat}
    {plan : FxConversionPlan} (h : planFxConversion base quote amount locked reference = .ok plan) :
    ∀ p ∈ plan.postings, p.debit.category ≠ .payout := by
  unfold planFxConversion at h
  split_ifs at h with hne
  dsimp only [Bind.bind, Except.bind] at h
  split at h
  · cases h
  · rename_i p₁ hp₁
    obtain ⟨rfl, -⟩ := posting_eq_ok.mp hp₁
    split at h
    · cases h
    · rename_i p₂ hp₂
      obtain ⟨rfl, -⟩ := posting_eq_ok.mp hp₂
      split_ifs at h
      · split at h
        · cases h
        · rename_i p₃ hp₃
          obtain ⟨rfl, -⟩ := posting_eq_ok.mp hp₃
          cases h; simp [debit]
      · split at h
        · cases h
        · rename_i p₃ hp₃
          obtain ⟨rfl, -⟩ := posting_eq_ok.mp hp₃
          cases h; simp [debit]
      · cases h; simp [debit]

theorem keeps_convertForeignBalances (hp : Postings R) {t : Id} {currency : Currency} :
    (convertForeignBalancesToSettlement t currency).Keeps R := by
  refine keeps_forEach fun base _ => keeps_when fun _ => keeps_bind (keeps_get _) fun balance => keeps_when fun _ =>
    keeps_bind (keeps_query _) fun rate => keeps_bind_lift fun plan hplan => keeps_forEach fun p hmem => ?_
  exact keeps_bind (hp.postEntry (planFxConversion_category hplan p hmem)) fun _ => keeps_ret _

/-! ## Payouts -/

/-- `R` ignores payouts and their items. -/
def IgnoresPayouts (R : Db → Db → Prop) : Prop := ∀ db ps is, R db { db with payouts := ps, payoutItems := is }

section Payouts

variable (hi : IgnoresPayouts R)
include hi

theorem keeps_payoutUpdate {id : Id} {f : Payout → Payout} : (Payout.update id f).Keeps R := by
  refine keeps_bind (keeps_acquire _) fun _ => keeps_bind (keeps_get _) fun row => ?_
  split
  · exact keeps_throw _
  · exact keeps_bind (keeps_modify fun db => hi db _ db.payoutItems) fun _ => keeps_ret _

theorem keeps_payoutCreate {row : Id → Payout} : (Payout.create row).Keeps R := by
  refine keeps_bind (keeps_query _) fun id => keeps_bind (keeps_acquire _) fun _ => keeps_bind (keeps_get _) fun _ => ?_
  split
  · exact keeps_throw _
  · exact keeps_bind (keeps_modify fun db => hi db _ db.payoutItems) fun _ => keeps_ret _

theorem keeps_payoutItemCreate {payoutId ledgerEntryId : Id} {amount : Int} :
    (PayoutItem.create payoutId ledgerEntryId amount).Keeps R := by
  refine keeps_bind (keeps_query _) fun id => keeps_bind (keeps_acquire _) fun _ => keeps_bind (keeps_get _) fun _ => ?_
  split
  · exact keeps_throw _
  · exact keeps_modify fun db => hi db db.payouts _

theorem keeps_releasePayout {id : Id} {status : PayoutStatus} : (releasePayout id status).Keeps R := by
  refine keeps_bind (keeps_bind (keeps_get _) fun rows => keeps_bind (keeps_forEach fun _ _ => keeps_acquire _) fun _ =>
    keeps_modify fun db => hi db db.payouts _) fun _ => keeps_payoutUpdate hi

theorem keeps_createPayout (hp : Postings R) {t : Id} {input : CreatePayoutInput} : (createPayout t input).Keeps R := by
  refine Job.keeps_bind (Job.keeps_get _) fun existing => ?_
  split
  · exact Job.keeps_ret _
  · refine Job.keeps_transaction (keeps_bind (keeps_acquire _) fun _ => keeps_bind (keeps_get _) fun _ =>
      keeps_bind (keeps_convertForeignBalances hp) fun _ => keeps_bind (keeps_get _) fun _ => keeps_bind (keeps_get _)
        fun _ => ?_)
    dsimp only
    split
    · exact keeps_throw _
    · exact keeps_bind (keeps_payoutCreate hi) fun _ => keeps_bind (keeps_forEach fun _ _ => keeps_payoutItemCreate hi)
        fun _ => keeps_ret _

theorem keeps_cancelPayout {t id : Id} : (cancelPayout t id).Keeps R := by
  refine Job.keeps_bind (Job.keeps_get _) fun payout => ?_
  split
  · exact Job.keeps_throw _
  · exact Job.keeps_bind (Job.keeps_ofExcept _) fun _ => Job.keeps_transaction (keeps_releasePayout hi)

theorem keeps_markPayoutFailed {t id : Id} : (markPayoutFailed t id).Keeps R := by
  refine Job.keeps_bind (Job.keeps_get _) fun payout => ?_
  split
  · exact Job.keeps_throw _
  · split
    · exact Job.keeps_throw _
    · exact Job.keeps_transaction (keeps_releasePayout hi)

theorem keeps_markPayoutPaid (hp : ∀ {t d c m}, (post t d c m).Keeps R) {t id : Id} {providerTransferId : Option String} :
    (markPayoutPaid t id providerTransferId).Keeps R := by
  refine Job.keeps_transaction (keeps_bind (keeps_acquire _) fun _ => keeps_bind (keeps_get _) fun payout => ?_)
  split
  · exact keeps_throw _
  · split
    · exact keeps_throw _
    · refine keeps_bind (keeps_get _) fun _ => ?_
      split
      · exact keeps_throw _
      · exact keeps_bind hp fun _ => keeps_payoutUpdate hi

end Payouts

/-! ## All operations -/

/-- `R` ignores every table but the ledger and the wallets. -/
structure IgnoresTables (R : Db → Db → Prop) : Prop where
  config : ∀ db c, R db { db with toConfig := c }
  splits : ∀ db ss, R db { db with splits := ss }
  disputes : ∀ db ds, R db { db with disputes := ds }
  recoveries : ∀ db rs, R db { db with recoveries := rs }
  refunds : ∀ db rs, R db { db with refunds := rs }
  paymentIntents : ∀ db is, R db { db with paymentIntents := is }
  payouts : IgnoresPayouts R

/-- The operations on one wallet. -/
def Operation.isWallet : Operation → Bool
  | .createWallet .. | .topUpWallet .. | .debitWallet .. | .refundWallet .. | .adjustWallet .. => true
  | _ => false

theorem keeps_operation (hi : IgnoresTables R) (hp : Postings R) (hpaid : ∀ {t d c m}, (post t d c m).Keeps R)
    (op : Operation) (hw : op.isWallet = true → IgnoresWallets R) : op.job.Keeps R := by
  have hdiscard : ∀ {α : Type} {j : Job α}, j.Keeps R → (discard j).Keeps R := fun hj =>
    Job.keeps_bind hj fun _ => Job.keeps_ret _
  cases op with
  | configure config => exact Job.keeps_transaction (keeps_modify fun db => hi.config db _)
  | settleCapture t input =>
      exact hdiscard (keeps_settleCapture hp fun _ _ => keeps_splitCreate fun db _ => hi.splits db _)
  | settleRefund t input => exact hdiscard (keeps_settleRefund hp)
  | refundRoute rt t id =>
      exact hdiscard (keeps_refundRoute hi.refunds hi.paymentIntents fun _ => keeps_settleRefund hp)
  | createDispute t input => exact hdiscard (keeps_createDispute hi.disputes)
  | resolveDispute t id outcome => exact hdiscard (keeps_resolveDispute hp hi.disputes hi.recoveries)
  | createWallet t ownerType ownerId currency => exact hdiscard (keeps_createWallet (hw rfl))
  | topUpWallet t id amountCents paymentIntentId => exact hdiscard (keeps_topUpWallet hp (hw rfl))
  | debitWallet t id amountCents method => exact hdiscard (keeps_debitWallet hp (hw rfl))
  | refundWallet t id amountCents => exact hdiscard (keeps_refundWallet hp (hw rfl))
  | adjustWallet t id amountCents => exact hdiscard (keeps_adjustWallet hp (hw rfl))
  | executeSplit t input =>
      exact hdiscard (keeps_executeSplit hp fun _ _ => keeps_splitCreate fun db _ => hi.splits db _)
  | releaseSplit t id => exact hdiscard (keeps_releaseSplit hp hi.splits)
  | createPayout t input => exact hdiscard (keeps_createPayout hi.payouts hp)
  | cancelPayout t id => exact hdiscard (keeps_cancelPayout hi.payouts)
  | markPayoutFailed t id => exact hdiscard (keeps_markPayoutFailed hi.payouts)
  | markPayoutPaid t id providerTransferId => exact hdiscard (keeps_markPayoutPaid hi.payouts hpaid)

end CorpoPay.Settlement
