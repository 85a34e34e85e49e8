import CorpoPay.Settlement.Lemmas.Booked

/-!
# What each operation does

One specification for each operation: what it appends to the ledger, and what it does to the splits, the disputes, the
recoveries and the refunds, when it changes anything.
-/

namespace CorpoPay.Settlement

open Transaction.Tx

/-! ## Captures and refunds -/

/-- The capture was not booked before, and its plan is. -/
structure Captured (t : Id) (input : SettleCaptureInput) (cp : CapturePlan) (db db' : Db) : Prop where
  pos : 0 < input.amountCents
  fresh : db.movements.any (·.isCaptureOf t input.intentId) = false
  plan : capturePlan db.toConfig t input = .ok cp
  booked : Booked (captureMovements t input cp) db db'

theorem settleCapture_effect (t : Id) (input : SettleCaptureInput) (db : Db) :
    (settleCapture t input).Ensures (fun _ db' => db' = db ∨ ∃ cp, Captured t input cp db db') db := by
  have hkeeps : (settleCapture t input).Keeps Aside := keeps_settleCapture aside_postings fun _ => aside_splitCreate
  refine ((settleCapture_spec t input db).and (hkeeps db)).mono fun r db' h => ?_
  obtain ⟨⟨-, hpos, hfresh, cp, hcp, happ⟩ | ⟨-, rfl⟩, ha⟩ := h
  · exact .inr ⟨cp, hpos, hfresh, hcp, .of_appends happ ha⟩
  · exact .inl rfl

theorem onlyLedger_postings : Postings OnlyLedger := ⟨fun _ => keeps_post_only, fun _ => keeps_postEntry_only⟩

theorem settleRefund_effect (t : Id) (input : SettleRefundInput) (db : Db) :
    (settleRefund t input).Ensures (fun _ db' =>
      db' = db ∨ OnlyLedger db db' ∧ ∃ first rest, Refunded t input first rest db db') db := by
  have hkeeps : (settleRefund t input).Keeps OnlyLedger := keeps_settleRefund onlyLedger_postings
  refine ((settleRefund_spec t input db).and (hkeeps db)).mono fun r db' h => ?_
  obtain ⟨hr | ⟨-, rfl⟩, hl⟩ := h
  · exact .inr ⟨hl, hr⟩
  · exact .inl rfl

/-! ## Wallets -/

section Wallets

variable {t id : Id} {db : Db}

def Db.activeWallet (db : Db) (t id : Id) : Option Wallet :=
  (db.wallets.find? fun w => w.id = id ∧ w.tenantId = t).filter (·.status = .active)

theorem ensures_loadActiveWallet {Q : Wallet → Db → Prop} (h : ∀ wallet, db.activeWallet t id = some wallet → Q wallet db) :
    (loadActiveWallet t id).Ensures Q (fun _ => True) db := by
  simp only [loadActiveWallet, bind_eq, pure_eq, ensures_bind, ensures_acquire, ensures_get]
  cases hfind : db.wallets.find? fun w => w.id = id ∧ w.tenantId = t with
  | none => trivial
  | some wallet =>
      dsimp only
      split_ifs with hstatus
      · trivial
      · exact h wallet (by rw [Db.activeWallet, hfind]; simp [not_not.mp hstatus])

theorem ensures_recordMovement {wallet : Wallet} {type : WalletTransactionType} {movement : WalletMovement}
    {sourceType : SourceType} {sourceId : Id} {Q : WalletOpResult → Db → Prop} (h : ∀ r db', Booked [] db db' → Q r db') :
    (recordMovement t wallet type movement sourceType sourceId).Ensures Q (fun _ => True) db :=
  (keeps_recordMovement booked_ignoresWallets db).mono h fun _ h => h

/-- Money moves between two accounts of the tenant. -/
def walletPosting (wallet : Wallet) (src dst : LedgerAccount) (amount : Int) (category : LedgerCategory) :
    LedgerPosting :=
  ⟨debit src amount category none wallet.currency, credit dst amount category none wallet.currency, wallet.source⟩

def walletFeeMovements (t : Id) (wallet : Wallet) (src : LedgerAccount) (fee : Int) : List Movement :=
  positiveMovements t fee (debit src fee .fee none wallet.currency) (credit .fees fee .fee none wallet.currency)
    wallet.source

/-- The fee of a draw-down: none when the commission was taken at the load. -/
def Config.debitFee (c : Config) (t : Id) (amountCents : Int) (method : Option String) : Except Failure Int :=
  match c.walletCommissionBasis t with
  | .load => .ok 0
  | .usage => computeFee (c.captureFee t) amountCents method

theorem ensures_walletFeeSpec {Q : FeeScheduleSpec → Db → Prop} (h : Q (db.captureFee t) db) :
    (walletFeeSpec t).Ensures Q (fun _ => True) db := h

/-- A transaction that fails changes nothing. -/
theorem ensures_transaction_or {α : Type} {body : Tx α} {P : Db → Prop}
    (h : body.Ensures (fun _ db' => P db') (fun _ => True) db) :
    (transaction body).Ensures (fun _ db' => db' = db ∨ P db') db :=
  h.mono (fun _ _ h => .inr h) fun _ _ => .inl rfl

theorem topUpWithFee_movement {balance gross : Int} {schedule : FeeScheduleSpec} {method : Option String} {r : WalletTopUp}
    (h : topUpWithFee balance gross schedule method = .ok r) : r.grossCents = gross ∧
      computeFee schedule gross method = .ok r.feeCents ∧ r.feeCents < gross ∧
      r.signedAmountCents = gross - r.feeCents ∧ r.balanceAfterCents = balance + r.signedAmountCents := by
  unfold topUpWithFee at h
  split_ifs at h
  cases hfee : computeFee schedule gross method with
  | error e => rw [hfee] at h; cases h
  | ok fee =>
      rw [hfee] at h
      dsimp only [Bind.bind, Except.bind] at h
      split_ifs at h with hnet
      cases h
      exact ⟨rfl, rfl, show fee < gross by omega, rfl, rfl⟩

theorem walletDebit_movement {balance amount : Int} {m : WalletMovement} (h : walletDebit balance amount = .ok m) :
    m = ⟨-amount, balance - amount⟩ ∧ 0 < amount ∧ amount ≤ balance := by
  unfold walletDebit at h
  split_ifs at h with hpos hle
  cases h
  exact ⟨rfl, not_le.mp hpos, not_lt.mp hle⟩

theorem debitWithFee_movement {balance amount : Int} {schedule : FeeScheduleSpec} {method : Option String} {r : WalletDebit}
    (h : debitWithFee balance amount schedule method = .ok r) : computeFee schedule amount method = .ok r.feeCents ∧
      r.toWalletMovement = ⟨-amount, balance - amount⟩ ∧ 0 < amount ∧ amount ≤ balance := by
  unfold debitWithFee at h
  cases hfee : computeFee schedule amount method with
  | error e => rw [hfee] at h; cases h
  | ok fee =>
      cases hdebit : walletDebit balance amount with
      | error e => rw [hfee, hdebit] at h; cases h
      | ok m =>
          rw [hfee, hdebit] at h
          cases h
          exact ⟨rfl, walletDebit_movement hdebit⟩

/-- The wallet `id` took part in the movements `ms` of the ledger. -/
structure WalletBooked (t id : Id) (ms : Wallet → List Movement) (db db' : Db) : Prop where
  booked : ∃ wallet, db.activeWallet t id = some wallet ∧ Booked (ms wallet) db db'

def topUpMovements (t : Id) (amount fee : Int) (wallet : Wallet) : List Movement :=
  (walletPosting wallet .cash .wallet amount .capture).movements t ++ walletFeeMovements t wallet .wallet fee

theorem topUpWallet_effect (amountCents : Int) (paymentIntentId : Option Id) :
    (topUpWallet t id amountCents paymentIntentId).Ensures
      (fun _ db' => db' = db ∨ ∃ fee, WalletBooked t id (topUpMovements t amountCents fee) db db') db := by
  refine ensures_transaction_or ?_
  simp only [bind_eq, ensures_bind, ensures_get, ensures_ite]
  refine ensures_loadActiveWallet fun wallet hwallet => ⟨fun _ => ?_, fun _ => ?_⟩
  · refine ensures_walletFeeSpec ((ensures_lift _).mpr ⟨fun movement hm => ?_, fun _ _ => trivial⟩)
    rw [(topUpWithFee_movement hm).1]
    refine booked_post fun db₁ _ h₁ => booked_postPositive fun db₂ h₂ => ensures_recordMovement fun r db₃ h₃ => ?_
    exact ⟨movement.feeCents, wallet, hwallet, (h₁.trans h₂).trans_nil h₃⟩
  · refine (ensures_lift _).mpr ⟨fun movement hm => ?_, fun _ _ => trivial⟩
    refine booked_post fun db₁ _ h₁ => ensures_recordMovement fun r db₂ h₂ => ?_
    exact ⟨0, wallet, hwallet, h₁.trans h₂⟩

def debitMovements (t : Id) (amount fee : Int) (wallet : Wallet) : List Movement :=
  (walletPosting wallet .wallet .available amount .capture).movements t ++ walletFeeMovements t wallet .available fee

/-- The wallet holds the amount. -/
def Db.Drawable (db : Db) (t id : Id) (amount : Int) : Prop :=
  ∃ wallet, db.activeWallet t id = some wallet ∧ 0 < amount ∧ amount ≤ wallet.balance

theorem debitWallet_effect (amountCents : Int) (method : Option String) :
    (debitWallet t id amountCents method).Ensures
      (fun _ db' => db' = db ∨ ∃ fee, db.debitFee t amountCents method = .ok fee ∧ db.Drawable t id amountCents ∧
        WalletBooked t id (debitMovements t amountCents fee) db db') db := by
  refine ensures_transaction_or ?_
  simp only [bind_eq, ensures_bind, ensures_get, ensures_ite]
  refine ensures_loadActiveWallet fun wallet hwallet => ⟨fun hload => ?_, fun hload => ?_⟩
  · refine (ensures_lift _).mpr ⟨fun movement hm => ?_, fun _ _ => trivial⟩
    have hdrawable : db.Drawable t id amountCents := ⟨wallet, hwallet, (walletDebit_movement hm).2⟩
    refine booked_post fun db₁ _ h₁ => ensures_recordMovement fun r db₂ h₂ => ?_
    exact ⟨0, by rw [Config.debitFee, hload], hdrawable, wallet, hwallet, h₁.trans h₂⟩
  · refine ensures_walletFeeSpec ((ensures_lift _).mpr ⟨fun movement hm => ?_, fun _ _ => trivial⟩)
    obtain ⟨hfee, -, hamount⟩ := debitWithFee_movement hm
    refine booked_post fun db₁ _ h₁ => booked_postPositive fun db₂ h₂ => ensures_recordMovement fun r db₃ h₃ => ?_
    have husage : db.walletCommissionBasis t = .usage := by
      cases hb : db.walletCommissionBasis t with
      | usage => rfl
      | load => exact absurd hb hload
    refine ⟨movement.feeCents, by rw [Config.debitFee, husage]; exact hfee, ⟨wallet, hwallet, hamount⟩, wallet, hwallet, ?_⟩
    exact (h₁.trans h₂).trans_nil h₃

def refundWalletMovements (t : Id) (amount : Int) (wallet : Wallet) : List Movement :=
  (walletPosting wallet .available .wallet amount .refund).movements t

theorem refundWallet_effect (amountCents : Int) :
    (refundWallet t id amountCents).Ensures
      (fun _ db' => db' = db ∨ WalletBooked t id (refundWalletMovements t amountCents) db db') db := by
  refine ensures_transaction_or ?_
  simp only [bind_eq, ensures_bind]
  refine ensures_loadActiveWallet fun wallet hwallet => (ensures_lift _).mpr ⟨fun movement hm => ?_, fun _ _ => trivial⟩
  refine booked_post fun db₁ _ h₁ => ensures_recordMovement fun r db₂ h₂ => ?_
  exact ⟨wallet, hwallet, h₁.trans_nil h₂⟩

def adjustMovements (t : Id) (amount : Int) (wallet : Wallet) : List Movement :=
  if 0 < amount then (walletPosting wallet .available .wallet amount .adjustment).movements t
  else if amount < 0 then (walletPosting wallet .wallet .available (-amount) .adjustment).movements t
  else []

theorem adjustWallet_effect (amountCents : Int) :
    (adjustWallet t id amountCents).Ensures
      (fun _ db' => db' = db ∨ WalletBooked t id (adjustMovements t amountCents) db db') db := by
  refine ensures_transaction_or ?_
  simp only [bind_eq, ensures_bind, ensures_when]
  refine ensures_loadActiveWallet fun wallet hwallet => (ensures_lift _).mpr ⟨fun movement hm => ?_, fun _ _ => trivial⟩
  rcases lt_trichotomy amountCents 0 with hneg | rfl | hpos
  · refine ⟨fun h => absurd h (not_lt.mpr hneg.le), fun _ => ⟨fun _ => ?_, fun h => absurd hneg h⟩⟩
    have habs : (amountCents.natAbs : Int) = -amountCents := by omega
    rw [habs]
    refine booked_post fun db₁ _ h₁ => ensures_recordMovement fun r db₂ h₂ => ⟨wallet, hwallet, ?_⟩
    rw [adjustMovements, if_neg (not_lt.mpr hneg.le), if_pos hneg]
    exact h₁.trans_nil h₂
  · refine ⟨fun h => absurd h (lt_irrefl _), fun _ => ⟨fun h => absurd h (lt_irrefl _), fun _ => ?_⟩⟩
    exact ensures_recordMovement fun r db₁ h₁ => ⟨wallet, hwallet, h₁⟩
  · have habs : (amountCents.natAbs : Int) = amountCents := by omega
    rw [habs]
    refine ⟨fun _ => booked_post fun db₁ _ h₁ => ⟨fun h => absurd h (not_lt.mpr hpos.le), fun _ => ?_⟩,
      fun h => absurd hpos h⟩
    refine ensures_recordMovement fun r db₂ h₂ => ⟨wallet, hwallet, ?_⟩
    rw [adjustMovements, if_pos hpos]
    exact h₁.trans_nil h₂

end Wallets

/-! ## Splits -/

section Splits

variable {t id : Id} {db : Db}

/-- The ledger grows by `ms` and the splits by `rows`. -/
structure SplitBooked (ms : List Movement) (rows : List Split) (db db' : Db) : Prop where
  movements : db'.movements = db.movements ++ ms
  splits : db'.splits = db.splits ++ rows
  splitIds : db.splitIds.Nodup → db'.splitIds.Nodup
  disputes : db'.disputes = db.disputes
  recoveries : db'.recoveries = db.recoveries
  refunds : db'.refunds = db.refunds

theorem SplitBooked.refl (db : Db) : SplitBooked [] [] db db := ⟨by simp, by simp, id, rfl, rfl, rfl⟩

theorem SplitBooked.trans {ms ms' : List Movement} {rows rows' : List Split} {db₁ db₂ db₃ : Db}
    (h : SplitBooked ms rows db₁ db₂) (h' : SplitBooked ms' rows' db₂ db₃) :
    SplitBooked (ms ++ ms') (rows ++ rows') db₁ db₃ where
  movements := by rw [h'.movements, h.movements, List.append_assoc]
  splits := by rw [h'.splits, h.splits, List.append_assoc]
  splitIds := fun hn => h'.splitIds (h.splitIds hn)
  disputes := h'.disputes.trans h.disputes
  recoveries := h'.recoveries.trans h.recoveries
  refunds := h'.refunds.trans h.refunds

theorem splitBooked_post {d c : LedgerLeg} {m : Meta} {Q : Unit → Db → Prop}
    (h : ∀ db', (⟨d, c, m⟩ : LedgerPosting).Valid →
      SplitBooked ((⟨d, c, m⟩ : LedgerPosting).movements t) [] db db' → Q () db') :
    (post t d c m).Ensures Q (fun _ => True) db := by
  have hrows : (post t d c m).Ensures (fun _ db' => (⟨d, c, m⟩ : LedgerPosting).Valid ∧
      Appends ((⟨d, c, m⟩ : LedgerPosting).movements t) db db') (fun _ => True) db := ensures_post fun _ hv ha => ⟨hv, ha⟩
  refine (hrows.and (keeps_post_only db)).mono (fun _ db' hdb => ?_) fun _ _ => trivial
  obtain ⟨⟨hv, ha⟩, hs⟩ := hdb
  refine h db' hv ⟨ha.movements_eq, ?_, ?_, ?_, ?_, ?_⟩ <;> rw [hs] <;> simp [Db.splitIds]

/-- What is recorded of a share. -/
def Split.share (r : Split) : Id × Currency × SplitStatus × Int := (r.tenantId, r.currency, r.status, r.amount)

/-- The split was posted and its shares are recorded. -/
structure SplitExecuted (t : Id) (input : ExecuteSplitInput) (trigger : SplitTrigger) (result : SplitResult)
    (db db' : Db) : Prop where
  shares : ∃ rows : List Split, SplitBooked (splitMovements t trigger (input.held.getD false) (input.currency.getD .mad)
      ⟨some input.sourceType, some input.sourceId⟩ result) rows db db' ∧
    rows.map (·.share) = result.shares.map fun a => (t, input.currency.getD .mad, input.status, a.amountCents)
  nonneg : ∀ a ∈ result.shares, 0 ≤ a.amountCents

theorem ensures_shares {currency : Currency} {source : Meta} {src dst : LedgerAccount} {s : SplitStatus}
    {row : ShareAllocation → Id → Split}
    (hrow : ∀ a id, (row a id).id = id ∧ (row a id).share = (t, currency, s, a.amountCents))
    (shares : List ShareAllocation) :
    (collect (fun a : ShareAllocation =>
      (post t (debit src a.amountCents .split none currency) (credit dst a.amountCents .split (some a.partyId) currency)
        source).bind fun _ => Split.create (row a)) shares).Ensures
      (fun rows db' => SplitBooked (shares.flatMap (shareMovements t src dst currency source)) rows db db' ∧
        rows.map (·.share) = shares.map fun a => (t, currency, s, a.amountCents)) (fun _ => True) db := by
  induction shares generalizing db with
  | nil => exact ⟨.refl db, rfl⟩
  | cons a shares ih =>
      simp only [Transaction.Tx.collect, ensures_bind]
      refine splitBooked_post fun db₁ _ h₁ => ensures_splitCreate fun sid hid => ?_
      refine ih.mono (fun rows db₂ h₂ => ?_) fun _ h => h
      have hsplit : SplitBooked [] [row a sid] db₁ { db₁ with splits := db₁.splits ++ [row a sid] } :=
        ⟨by simp [Db.movements], rfl, nodup_splitIds_append (by simpa [hrow] using hid), rfl, rfl, rfl⟩
      exact ⟨(h₁.trans hsplit).trans h₂.1, by simp [h₂.2, hrow]⟩

/-- The trigger and the shares of a request. -/
def Config.splitRequest (c : Config) (t : Id) (input : ExecuteSplitInput) : Option (SplitTrigger × List ShareSpec) :=
  match input.splitRuleId with
  | some ruleId => (c.splitRules.find? fun r => r.id = ruleId ∧ r.tenantId = t).map fun r => (r.trigger, r.shares)
  | none => some (input.trigger.getD .atCapture, input.shares.getD [])

theorem ensures_resolveSplitRule {input : ExecuteSplitInput} {Q : SplitTrigger × List ShareSpec → Db → Prop}
    (h : ∀ rule, db.splitRequest t input = some rule → Q rule db) :
    (resolveSplitRule t input).Ensures Q (fun _ => True) db := by
  unfold resolveSplitRule
  unfold Config.splitRequest at h
  cases hrule : input.splitRuleId with
  | none => exact h _ (by rw [hrule])
  | some ruleId =>
      simp only [bind_eq, ensures_bind, ensures_get]
      cases hfind : db.splitRules.find? fun r => r.id = ruleId ∧ r.tenantId = t with
      | none => trivial
      | some rule => exact h _ (by rw [hrule]; dsimp only; rw [hfind]; rfl)

theorem executeSplit_effect (t : Id) (input : ExecuteSplitInput) (db : Db) :
    (executeSplit t input).Ensures (fun _ db' => db' = db ∨ ∃ trigger shares result,
      db.splitRequest t input = some (trigger, shares) ∧ split input.sourceCents shares = .ok result ∧
      SplitExecuted t input trigger result db db') db := by
  refine ensures_transaction_or ?_
  simp only [bind_eq, ensures_bind]
  refine ensures_resolveSplitRule fun rule hrule => ?_
  simp only [executeSplitInTx, bind_eq, pure_eq, ensures_bind]
  refine (ensures_lift _).mpr ⟨fun result hresult => ?_, fun _ _ => trivial⟩
  have hnonneg := (split_spec hresult).2.1
  refine (ensures_shares (s := input.status) (fun a id => ⟨rfl, rfl⟩) _).mono (fun rows db₁ h₁ => ?_) fun _ h => h
  obtain ⟨hbooked, hrows⟩ := h₁
  rw [ensures_when]
  constructor
  · intro hp
    refine splitBooked_post fun db₂ _ h₂ => ⟨rule.1, rule.2, result, hrule, hresult, ⟨rows, ?_, hrows⟩, hnonneg⟩
    rw [splitMovements, platformMovements, if_pos hp]
    simpa using hbooked.trans h₂
  · intro hp
    refine ⟨rule.1, rule.2, result, hrule, hresult, ⟨rows, ?_, hrows⟩, hnonneg⟩
    rw [splitMovements, platformMovements, if_neg hp, List.append_nil]
    exact hbooked

/-- The posting of a release. -/
def Split.release (r : Split) : LedgerPosting :=
  ⟨debit .reserve r.amount .reserveRelease (some r.partyId) r.currency,
    credit .available r.amount .reserveRelease (some r.partyId) r.currency, ⟨some .split, some r.id⟩⟩

def Db.settleSplit (db : Db) (id : Id) : List Split :=
  db.splits.map fun r => if r.id = id then { r with status := .settled, heldUntil := none } else r

theorem splitIds_settleSplit (db : Db) (id : Id) : (db.settleSplit id).map (·.id) = db.splitIds := by
  rw [Db.settleSplit, Db.splitIds, List.map_map]
  refine List.map_congr_left fun r _ => ?_
  dsimp only [Function.comp_apply]
  split_ifs <;> rfl

/-- The pending split `r` is settled and its amount is posted. -/
structure SplitReleased (t id : Id) (r : Split) (db db' : Db) : Prop where
  mem : r ∈ db.splits
  id_eq : r.id = id
  tenantId : r.tenantId = t
  pending : r.status = .pending
  nonneg : 0 ≤ r.amount
  movements : db'.movements = db.movements ++ r.release.movements t
  splits : db'.splits = db.settleSplit id
  disputes : db'.disputes = db.disputes
  recoveries : db'.recoveries = db.recoveries
  refunds : db'.refunds = db.refunds

theorem pending_of_assertTransition {current next : SplitStatus} (h : current.assertTransition next = .ok ()) :
    current = .pending := by
  cases current with
  | pending => rfl
  | settled => simp [SplitStatus.assertTransition, SplitStatus.TRANSITIONS] at h
  | reversed => simp [SplitStatus.assertTransition, SplitStatus.TRANSITIONS] at h

theorem releaseSplit_effect (t id : Id) (db : Db) :
    (releaseSplit t id).Ensures (fun _ db' => db' = db ∨ ∃ r, SplitReleased t id r db db') db := by
  refine ensures_transaction_or ?_
  simp only [bind_eq, ensures_bind, ensures_get]
  cases hfind : db.splits.find? fun s => s.id = id ∧ s.tenantId = t with
  | none => trivial
  | some r =>
      obtain ⟨rfl, htenant⟩ : r.id = id ∧ r.tenantId = t := by simpa using List.find?_some hfind
      dsimp only
      rw [ensures_bind]
      refine (ensures_lift _).mpr ⟨fun _ hstatus => ?_, fun _ _ => trivial⟩
      simp only [ensures_bind]
      refine splitBooked_post fun db₁ hv h₁ => ?_
      simp only [Split.update, bind_eq, pure_eq, ensures_bind, ensures_acquire, ensures_get]
      cases db₁.splits.find? (·.id = r.id) with
      | none => trivial
      | some row =>
          refine ⟨r, List.mem_of_find?_eq_some hfind, rfl, htenant, pending_of_assertTransition hstatus, hv.nonneg,
            h₁.movements, ?_, h₁.disputes, h₁.recoveries, h₁.refunds⟩
          simp only [Db.settleSplit, h₁.splits, List.append_nil]

end Splits

/-! ## Disputes -/

section Disputes

variable {t id : Id} {db : Db}

/-- The ledger and the splits, recoveries and refunds stay. -/
structure DisputesOnly (db db' : Db) : Prop where
  movements : db'.movements = db.movements
  splits : db'.splits = db.splits
  recoveries : db'.recoveries = db.recoveries
  refunds : db'.refunds = db.refunds

/-- A new dispute. -/
structure DisputeCreated (t : Id) (input : CreateDisputeInput) (d : Dispute) (db db' : Db) : Prop where
  fresh : ∀ d' ∈ db.disputes, d'.id ≠ d.id
  tenantId : d.tenantId = t
  paymentIntentId : d.paymentIntentId = input.paymentIntentId
  status : d.status = .open
  disputes : db'.disputes = db.disputes ++ [d]
  only : DisputesOnly db db'

theorem createDispute_effect (t : Id) (input : CreateDisputeInput) (db : Db) :
    (createDispute t input).Ensures (fun _ db' => db' = db ∨ ∃ d, DisputeCreated t input d db db') db := by
  simp only [createDispute, Transaction.Job.bind_eq, Transaction.Job.ensures_bind, Transaction.Job.ensures_get]
  cases db.disputes.find? fun d => d.tenantId = t ∧ d.providerDisputeId = input.providerDisputeId with
  | some d => exact .inl rfl
  | none =>
      refine ensures_transaction_or ?_
      simp only [Dispute.create, bind_eq, pure_eq, ensures_bind, ensures_acquire, ensures_get, ensures_ite,
        ensures_throw, ensures_modify, ensures_ret]
      refine fun did => ⟨fun _ => trivial, fun htaken => ⟨_, ?_, rfl, rfl, rfl, rfl, ⟨rfl, rfl, rfl, rfl⟩⟩⟩
      intro d hd heq
      exact htaken (List.any_eq_true.mpr ⟨d, hd, by simp [heq]⟩)

/-- The open dispute `d` is won. -/
structure DisputeWon (t id : Id) (d : Dispute) (db db' : Db) : Prop where
  found : db.dispute t id = some d
  status : d.status = .open
  disputes : db'.disputes = (db.updateDispute id fun d => { d with status := .won }).disputes
  only : DisputesOnly db db'

/-- The amount of the open dispute `d` is taken back. -/
structure DisputeLost (t id : Id) (d : Dispute) (a : ClawbackAllocation) (db db' : Db) : Prop where
  found : db.dispute t id = some d
  status : d.status = .open
  funding : fundReversal (db.capturePolicy t).reversalFunding d.amount (db.accountBalance t .available d.currency)
    (db.accountBalance t .reserve d.currency) = .ok a
  movements : db'.movements = db.movements ++ clawbackMovements t id d.currency a
  disputes : db'.disputes = (db.updateDispute id fun d => { d with status := .lost }).disputes
  recoveries : ∃ rows : List Recovery, db'.recoveries = db.recoveries ++ rows ∧
    rows.map (fun r => (r.tenantId, r.disputeId, r.currency, r.amount)) =
      if 0 < a.uncovered then [(t, id, d.currency, a.uncovered)] else []
  splits : db'.splits = db.splits
  refunds : db'.refunds = db.refunds

theorem resolveWon_effect (t id : Id) (db : Db) :
    (resolveDispute t id .won).Ensures (fun _ db' => db' = db ∨ ∃ d, DisputeWon t id d db db') db := by
  refine ensures_transaction_or ?_
  simp only [bind_eq, ensures_bind, ensures_get]
  refine (ensures_lift _).mpr ⟨fun d hd => ?_, fun _ _ => trivial⟩
  obtain ⟨hfound, hopen⟩ := checkDispute_ok hd
  exact ensures_disputeUpdate fun _ => ⟨d, hfound, hopen, rfl, ⟨rfl, rfl, rfl, rfl⟩⟩

theorem executeClawback_effect {d : Dispute} {a : ClawbackAllocation} (hfound : db.dispute t id = some d)
    (hopen : d.status = .open) (ha : fundReversal (db.capturePolicy t).reversalFunding d.amount
      (db.accountBalance t .available d.currency) (db.accountBalance t .reserve d.currency) = .ok a) :
    (executeClawback t id d.currency a).Ensures (fun _ db' => DisputeLost t id d a db db') (fun _ => True) db :=
  (executeClawback_spec t id d.currency a db).mono
    (fun _ _ h => ⟨hfound, hopen, ha, h.movements, h.disputes, h.recoveries, h.splits, h.refunds⟩) fun _ h => h

theorem resolveLost_effect (t id : Id) (db : Db) :
    (resolveDispute t id .lost).Ensures (fun _ db' => db' = db ∨ ∃ d a, DisputeLost t id d a db db') db := by
  simp only [resolveDispute, getTenantLedger, Transaction.Job.bind_eq, Transaction.Job.pure_eq,
    Transaction.Job.ensures_bind, Transaction.Job.ensures_get]
  cases hcheck : checkDispute (db.dispute t id) .lost with
  | error e => exact .inl rfl
  | ok d =>
      obtain ⟨hfound, hopen⟩ := checkDispute_ok hcheck
      simp only [Transaction.Job.ofExcept, Transaction.Job.ensures_ret, Db.ledgerView_balance]
      have hpolicy : ((db.activeSettlementPolicy t).map (·.reversalFunding)).getD DEFAULT_PRESET.reversalFunding =
          (db.capturePolicy t).reversalFunding := by
        unfold Config.capturePolicy
        cases db.activeSettlementPolicy t <;> rfl
      rw [hpolicy, ← Db.accountBalance_eq, ← Db.accountBalance_eq]
      cases ha : fundReversal (db.capturePolicy t).reversalFunding d.amount (db.accountBalance t .available d.currency)
          (db.accountBalance t .reserve d.currency) with
      | error e => exact .inl rfl
      | ok a =>
          refine ensures_transaction_or ?_
          simp only [bind_eq, ensures_bind, ensures_get]
          refine (ensures_lift _).mpr ⟨fun _ _ => ?_, fun _ _ => trivial⟩
          exact (executeClawback_effect hfound hopen ha).mono (fun _ _ h => ⟨d, a, h⟩) fun _ h => h

end Disputes

/-! ## Payouts -/

section Payouts

variable {t id : Id} {db : Db}

/-- A movement of a conversion. -/
structure Movement.IsFx (m : Movement) (t : Id) : Prop where
  tenantId : m.tenantId = t
  account : m.account = .cash ∨ m.account = .available ∨ m.account = .fees
  sourceType : m.sourceType = some .fxConversion ∨ m.sourceType = some .fxAdjustment
  category : m.category = .adjustment ∨ m.category = .fxAdjustment
  nonneg : 0 ≤ m.amount

/-- The sweep moves money between accounts that hold the tenant's own, and overdraws nothing. -/
structure Swept (t : Id) (db db' : Db) : Prop where
  movements : ∃ ms, db'.movements = db.movements ++ ms ∧ ∀ m ∈ ms, m.IsFx t
  available : ∀ c, 0 ≤ db.accountBalance t .available c → 0 ≤ db'.accountBalance t .available c
  aside : Aside db db'

instance : IsPreorder Db (Swept t) where
  refl := fun db => ⟨⟨[], by simp, by simp⟩, fun _ h => h, refl_of Aside db⟩
  trans := by
    rintro db₁ db₂ db₃ ⟨⟨ms, hm, hfx⟩, ha, hs⟩ ⟨⟨ms', hm', hfx'⟩, ha', hs'⟩
    refine ⟨⟨ms ++ ms', by rw [hm', hm, List.append_assoc], fun m hmem => ?_⟩, fun c h => ha' c (ha c h), trans_of Aside hs hs'⟩
    rcases List.mem_append.mp hmem with h | h
    · exact hfx m h
    · exact hfx' m h

/-- A posting of a conversion. -/
structure LedgerPosting.IsFx (p : LedgerPosting) : Prop where
  valid : p.Valid
  accounts : (p.debit.account = .cash ∨ p.debit.account = .available ∨ p.debit.account = .fees) ∧
    (p.credit.account = .cash ∨ p.credit.account = .available ∨ p.credit.account = .fees)
  sourceType : p.source.sourceType = some .fxConversion ∨ p.source.sourceType = some .fxAdjustment
  category : (p.debit.category = .adjustment ∨ p.debit.category = .fxAdjustment) ∧
    (p.credit.category = .adjustment ∨ p.credit.category = .fxAdjustment)

theorem LedgerPosting.IsFx.movements {p : LedgerPosting} (h : p.IsFx) : ∀ m ∈ p.movements t, m.IsFx t := by
  intro m hm
  simp only [LedgerPosting.movements, List.mem_cons, List.not_mem_nil, or_false] at hm
  rcases hm with rfl | rfl
  · exact ⟨rfl, h.accounts.1, h.sourceType, h.category.1, h.valid.nonneg⟩
  · exact ⟨rfl, h.accounts.2, h.sourceType, h.category.2, h.valid.nonneg.trans_eq h.valid.amount⟩

/-- The first posting drains the foreign balance, and the others do not debit AVAILABLE. -/
theorem planFxConversion_spec {base quote : Currency} {amount : Int} {locked reference : Nat} {plan : FxConversionPlan}
    (h : planFxConversion base quote amount locked reference = .ok plan) : ∃ drain rest, plan.postings = drain :: rest ∧
      drain.IsFx ∧ drain.debit.currency = base ∧ drain.debit.amountCents = amount ∧
      ∀ p ∈ rest, p.IsFx ∧ p.debit.account ≠ .available := by
  unfold planFxConversion at h
  split_ifs at h with hne
  dsimp only [Bind.bind, Except.bind] at h
  split at h
  · cases h
  · rename_i p₁ hp₁
    obtain ⟨rfl, hv₁⟩ := posting_eq_ok.mp hp₁
    split at h
    · cases h
    · rename_i p₂ hp₂
      obtain ⟨rfl, hv₂⟩ := posting_eq_ok.mp hp₂
      have h₁ : LedgerPosting.IsFx ⟨debit .available amount .adjustment none base,
          credit .cash amount .adjustment none base, ⟨some .fxConversion, none⟩⟩ :=
        ⟨hv₁, by simp [debit, credit], by simp, by simp [debit, credit]⟩
      have h₂ : LedgerPosting.IsFx ⟨debit .cash (convertMinor amount locked) .adjustment none quote,
          credit .available (convertMinor amount locked) .adjustment none quote, ⟨some .fxConversion, none⟩⟩ :=
        ⟨hv₂, by simp [debit, credit], by simp, by simp [debit, credit]⟩
      split_ifs at h
      · split at h
        · cases h
        · rename_i p₃ hp₃
          obtain ⟨rfl, hv₃⟩ := posting_eq_ok.mp hp₃
          cases h
          have h₃ := LedgerPosting.IsFx.mk hv₃ (by simp [debit, credit]) (by simp) (by simp [debit, credit])
          refine ⟨_, _, rfl, h₁, rfl, rfl, fun p hp => ?_⟩
          simp only [List.mem_cons, List.not_mem_nil, or_false] at hp
          rcases hp with rfl | rfl
          · exact ⟨h₂, by simp [debit]⟩
          · exact ⟨h₃, by simp [debit]⟩
      · split at h
        · cases h
        · rename_i p₃ hp₃
          obtain ⟨rfl, hv₃⟩ := posting_eq_ok.mp hp₃
          cases h
          have h₃ := LedgerPosting.IsFx.mk hv₃ (by simp [debit, credit]) (by simp) (by simp [debit, credit])
          refine ⟨_, _, rfl, h₁, rfl, rfl, fun p hp => ?_⟩
          simp only [List.mem_cons, List.not_mem_nil, or_false] at hp
          rcases hp with rfl | rfl
          · exact ⟨h₂, by simp [debit]⟩
          · exact ⟨h₃, by simp [debit]⟩
      · cases h
        refine ⟨_, _, rfl, h₁, rfl, rfl, fun p hp => ?_⟩
        obtain rfl := List.mem_singleton.mp hp
        exact ⟨h₂, by simp [debit]⟩

theorem LedgerPosting.Valid.balance_ge {p : LedgerPosting} (h : p.Valid) (a : LedgerAccount) (c : Currency) :
    -(if p.debit.account = a ∧ p.debit.currency = c then p.debit.amountCents else 0) ≤ balance (p.movements t) t a c := by
  have hcredit : 0 ≤ (p.credit.movement t p.source).on t a c := by
    simp only [Movement.on, Movement.delta, LedgerLeg.movement, h.credit_direction, delta]
    have := h.nonneg.trans_eq h.amount
    split_ifs <;> omega
  simp only [LedgerPosting.movements, balance_cons, balance_nil, Movement.on, Movement.delta, LedgerLeg.movement,
    h.debit_direction, delta, true_and] at hcredit ⊢
  split_ifs at hcredit ⊢ <;> omega

/-- A posting of a conversion that debits at most what AVAILABLE holds. -/
theorem ensures_postFx {p : LedgerPosting} (h : p.IsFx) (hcovered : p.debit.account = .available →
    p.debit.amountCents ≤ db.accountBalance t .available p.debit.currency) :
    (postEntry t p).Ensures (fun _ db' => Swept t db db') (fun _ => True) db := by
  have hrows : (postEntry t p).Ensures (fun _ db' => Appends (p.movements t) db db') (fun _ => True) db :=
    ensures_postEntry fun _ _ _ ha => ha
  have hkeeps : (postEntry t p).Keeps Aside := keeps_postEntry fun _ _ => .of_eq rfl rfl rfl rfl
  refine (hrows.and (hkeeps db)).mono (fun _ db' hdb => ?_) fun _ _ => trivial
  refine ⟨⟨_, hdb.1.movements_eq, h.movements⟩, fun c hc => ?_, hdb.2⟩
  have hge := h.valid.balance_ge (t := t) .available c
  rw [(Booked.of_appends hdb.1 hdb.2).balance_eq]
  split_ifs at hge with hdebit
  · have := hcovered hdebit.1
    rw [hdebit.2] at this
    omega
  · omega

theorem convertForeignBalance_effect (settlementCurrency base : Currency) :
    (convertForeignBalance t settlementCurrency base).Keeps (Swept t) := by
  refine keeps_when fun _ db => ?_
  simp only [bind_eq, accountBalanceCents, ensures_bind, ensures_get, ensures_when]
  refine ⟨fun hpos rate => (ensures_lift _).mpr ⟨fun plan hplan => ?_, fun _ _ => trivial⟩, fun _ => refl_of _ db⟩
  obtain ⟨drain, rest, hpostings, hdrain, hbase, hamount, hrest⟩ := planFxConversion_spec hplan
  rw [hpostings]
  simp only [Transaction.Tx.forEach, ensures_bind]
  refine (ensures_postFx hdrain fun _ => by rw [hbase, hamount]).mono (fun _ db₁ h₁ => ?_) fun _ h => h
  have hkeeps : (forEach (fun p => (postEntry t p).bind fun _ => (.ret () : Tx Unit)) rest).Keeps (Swept t) :=
    keeps_forEach fun p hp => keeps_bind (fun db => ensures_postFx (hrest p hp).1 fun ha => absurd ha (hrest p hp).2)
      fun _ => keeps_ret _
  exact (hkeeps db₁).mono (fun _ _ h₂ => trans_of (Swept t) h₁ h₂) fun _ h => h

theorem createPayout_effect (t : Id) (input : CreatePayoutInput) (db : Db) :
    (createPayout t input).Ensures (fun _ db' => Swept t db db') db := by
  simp only [createPayout, Transaction.Job.bind_eq, Transaction.Job.ensures_bind, Transaction.Job.ensures_get]
  cases hkey : db.payoutOfKey t input.idempotencyKey with
  | some payout => exact refl_of (Swept t) db
  | none =>
      have hor : ∀ db', db' = db ∨ Swept t db db' → Swept t db db' := by
        rintro db' (rfl | h)
        · exact refl_of (Swept t) db'
        · exact h
      refine (ensures_transaction_or ?_).mono fun _ => hor
      simp only [createPayoutInTx, bind_eq, ensures_bind, ensures_acquire, ensures_get]
      have hsweep : (convertForeignBalancesToSettlement t (db.settlementCurrency t)).Keeps (Swept t) :=
        keeps_forEach fun base _ => convertForeignBalance_effect _ base
      refine (hsweep db).mono (fun _ db₁ h₁ => ?_) fun _ h => h
      refine (createPayoutAfterSweep_spec db₁ t input _).mono (fun payout db' hc => ?_) fun _ _ => trivial
      obtain ⟨items, -, -, rfl⟩ := hc.rows
      exact ⟨h₁.movements, h₁.available, h₁.aside.splits, h₁.aside.splitIds, h₁.aside.disputes, h₁.aside.recoveries,
        h₁.aside.refunds⟩

theorem Released.booked {status : PayoutStatus} {db' : Db} (h : Released id status db db') : Booked [] db db' := by
  rcases h with rfl | ⟨p, -, -, -, rfl⟩
  · exact .refl _
  · exact ⟨by simp [Db.movements, Db.release, Db.updatePayout], .of_eq rfl rfl rfl rfl⟩

theorem Paid.booked {providerTransferId : Option String} {db' : Db} (h : Paid t id providerTransferId db db') :
    ∃ p : Payout, p.amount ≤ db.accountBalance t .available p.currency ∧ Booked (p.settlement.movements t) db db' := by
  obtain ⟨p, -, -, hle, db₁, happ, honly, -, rfl⟩ := h
  refine ⟨p, hle, happ.movements_eq, ?_⟩
  refine .of_eq ?_ ?_ ?_ ?_ <;> rw [honly] <;> rfl

end Payouts

/-! ## The refund route -/

section RefundRoute

variable {t id : Id} {db : Db}

/-- Whose refund a row is. -/
def Refund.key (r : Refund) : Id × Id × Id := (r.id, r.paymentIntentId, r.tenantId)

/-- The refund reverses the credits of the intent. -/
structure Reversed (t intentId refundId : Id) (first : Movement) (rest : List Movement) (db db' : Db) : Prop where
  credits : db.refundable t intentId = first :: rest
  covered : (((first :: rest).find? (·.account = .available)).map (·.amount)).getD 0 ≤
    db.accountBalance t .available first.currency
  movements : db'.movements = db.movements ++ (first :: rest).flatMap (reversal t refundId first.currency)

/-- A request for a refund of the intent passes the checks of the route. -/
def Db.RefundAccepted (db : Db) (t intentId : Id) : Prop :=
  ∃ intent refunds providerRef, db.refundedIntent t intentId = some (intent, refunds) ∧
    checkRefundable intent refunds = .ok providerRef

/-- The refund `refundId` of the intent is recorded, and perhaps booked. -/
structure RefundRequested (t intentId refundId : Id) (db db' : Db) : Prop where
  accepted : db.RefundAccepted t intentId
  fresh : ∀ r ∈ db.refunds, r.id ≠ refundId
  refunds : db'.refunds.map (·.key) = db.refunds.map (·.key) ++ [(refundId, intentId, t)]
  movements : db'.movements = db.movements ∨ ∃ first rest, Reversed t intentId refundId first rest db db'
  splits : db'.splits = db.splits
  disputes : db'.disputes = db.disputes
  recoveries : db'.recoveries = db.recoveries

theorem refund_keys_update (refundId : Id) (f : Refund → Refund) (hf : ∀ r, (f r).key = r.key) (rows : List Refund) :
    (rows.map fun r => if r.id = refundId then f r else r).map (·.key) = rows.map (·.key) := by
  rw [List.map_map]
  refine List.map_congr_left fun r _ => ?_
  dsimp only [Function.comp_apply]
  split_ifs
  · exact hf r
  · rfl

theorem ensures_refundCreate {row : Id → Refund} {Q : Refund → Db → Prop}
    (h : ∀ rid, (∀ r ∈ db.refunds, r.id ≠ rid) → Q (row rid) { db with refunds := db.refunds ++ [row rid] }) :
    (Refund.create row).Ensures Q (fun _ => True) db := by
  simp only [Refund.create, bind_eq, pure_eq, ensures_bind, ensures_acquire, ensures_get, ensures_ite, ensures_throw,
    ensures_modify, ensures_ret]
  refine fun rid => ⟨fun _ => trivial, fun htaken => h rid fun r hr heq => htaken ?_⟩
  rw [Bool.or_eq_true]
  exact .inl (List.any_eq_true.mpr ⟨r, hr, by simp [heq]⟩)

theorem closeRefund_effect (refundId intentId : Id) (result : RefundResult) (db : Db) :
    (closeRefund refundId intentId result).Ensures (fun _ (db' : Db) => db'.refunds.map (·.key) = db.refunds.map (·.key) ∧
      db'.ledgerEntries = db.ledgerEntries ∧ db'.splits = db.splits ∧ db'.disputes = db.disputes ∧
      db'.recoveries = db.recoveries) (fun _ => True) db := by
  simp only [closeRefund, Refund.update, PaymentIntent.setStatus, PaymentIntent.update, bind_eq, pure_eq, ensures_bind,
    ensures_acquire, ensures_get]
  cases db.refunds.find? (·.id = refundId) with
  | none => trivial
  | some row =>
      simp only [ensures_bind, ensures_modify, ensures_ret]
      split
      · trivial
      · exact ⟨refund_keys_update refundId (fun r : Refund => { r with
          status := if result.success then .succeeded else .failed, providerRefundRef := result.providerRefundRef })
          (fun _ => rfl) _, rfl, rfl, rfl, rfl⟩

/-- What follows the answer of the provider, from a database where the refund is recorded. -/
theorem finishRefund_effect {t intentId refundId : Id} {db₁ : Db} (result : RefundResult)
    (h : RefundRequested t intentId refundId db db₁) (hledger : db₁.ledgerEntries = db.ledgerEntries) :
    (finishRefund t intentId refundId result).Ensures (fun _ db' => RefundRequested t intentId refundId db db') db₁ := by
  have hsettle : (settleAccepted t intentId refundId result).Ensures
      (fun _ db' => RefundRequested t intentId refundId db db') db₁ := by
    unfold settleAccepted
    split_ifs
    · refine (settleRefund_effect t _ db₁).mono fun _ db' heffect => ?_
      rcases heffect with rfl | ⟨hl, first, rest, hr⟩
      · exact h
      · have hmovements : db₁.movements = db.movements := by rw [Db.movements, Db.movements, hledger]
        have hcredits : db.refundable t intentId = first :: rest := by
          rw [Db.refundable, ← hmovements]; exact hr.credits
        have hcovered := hr.covered
        rw [Db.accountBalance_eq, hmovements, ← Db.accountBalance_eq] at hcovered
        refine ⟨h.accepted, h.fresh, ?_, .inr ⟨first, rest, hcredits, hcovered, ?_⟩, ?_, ?_, ?_⟩
        · rw [hl]; exact h.refunds
        · rw [hr.appends.movements_eq, hmovements]
        · rw [hl]; exact h.splits
        · rw [hl]; exact h.disputes
        · rw [hl]; exact h.recoveries
    · exact h
  simp only [finishRefund, Transaction.Job.bind_eq, Transaction.Job.ensures_bind]
  refine hsettle.mono fun r db₂ h₂ => ?_
  cases r with
  | error e => exact h₂
  | ok _ =>
      refine (ensures_transaction_or (closeRefund_effect refundId intentId result db₂)).mono fun _ db' hclose => ?_
      rcases hclose with rfl | ⟨hk, hl, hs, hd, hr⟩
      · exact h₂
      · have hm : db'.movements = db₂.movements := by rw [Db.movements, Db.movements, hl]
        refine ⟨h₂.accepted, h₂.fresh, hk.trans h₂.refunds, ?_, hs.trans h₂.splits, hd.trans h₂.disputes, hr.trans h₂.recoveries⟩
        rcases h₂.movements with hsame | ⟨first, rest, hrev⟩
        · exact .inl (hm.trans hsame)
        · exact .inr ⟨first, rest, hrev.credits, hrev.covered, hm.trans hrev.movements⟩

theorem refundRoute_effect (rt : Runtime) (t id : Id) (db : Db) :
    (refundRoute rt t id).Ensures (fun _ db' => db' = db ∨ ∃ refundId, RefundRequested t id refundId db db') db := by
  simp only [refundRoute, Transaction.Job.bind_eq, Transaction.Job.ensures_bind, Transaction.Job.ensures_get]
  cases hfound : db.refundedIntent t id with
  | none => exact .inl rfl
  | some found =>
      obtain ⟨intent, refunds⟩ := found
      have hid : intent.id = id := by
        unfold Db.refundedIntent at hfound
        obtain ⟨row, hrow, heq⟩ := Option.map_eq_some_iff.mp hfound
        have := List.find?_some hrow
        cases heq
        exact (of_decide_eq_true this).1
      refine Transaction.Job.ensures_ofExcept_bind (fun providerRef hcheck => ?_) fun _ _ => .inl rfl
      simp only [Transaction.Job.ensures_bind, Transaction.Job.ensures_get]
      cases db.providerConfig t intent.provider with
      | none => exact .inl rfl
      | some config =>
          refine Transaction.Job.ensures_ofExcept_bind (fun _ _ => ?_) fun _ _ => .inl rfl
          refine Transaction.Job.ensures_ofExcept_bind (fun charge _ => ?_) fun _ _ => .inl rfl
          refine Transaction.Job.ensures_ofExcept_bind (fun currency _ => ?_) fun _ _ => .inl rfl
          simp only [openRefund, Transaction.Job.ensures_bind, Transaction.Job.ensures_mapError]
          refine (ensures_refundCreate fun rid hfresh => ?_).mono (fun _ _ h => h) fun _ _ => .inl rfl
          have hrequested : RefundRequested t id rid db { db with refunds := db.refunds ++ [
              { id := rid, paymentIntentId := id, tenantId := t, status := .pending, providerRefundRef := none,
                amount := charge.1, currency }] } :=
            ⟨⟨intent, refunds, providerRef, hfound, hcheck⟩, hfresh, by rw [List.map_append]; rfl, .inl rfl, rfl, rfl, rfl⟩
          subst hid
          simp only [Except.mapError, refundAtProvider, Transaction.Job.bind_eq, Transaction.Job.ensures_bind]
          intro answer
          cases answer with
          | error message => exact .inr ⟨rid, hrequested⟩
          | ok result => exact (finishRefund_effect result hrequested rfl).mono fun _ _ h => .inr ⟨rid, h⟩

end RefundRoute

end CorpoPay.Settlement
