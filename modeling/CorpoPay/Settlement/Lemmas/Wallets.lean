import CorpoPay.Settlement.Lemmas.ChangeBalance

/-!
# What wallet operations write

A wallet operation that changes anything writes three records of one amount: the balance of the wallet, a wallet transaction
and postings on WALLET. No other operation writes any of them.
-/

namespace CorpoPay.Settlement

open Transaction.Tx

/-! ## Movements of a wallet -/

/-- The wallet `id` moves by `n`, `row` is recorded and `ms` is posted. -/
structure WalletMoved (t id : Id) (n : Int) (ms : List Movement) (wallet : Wallet) (row : WalletTransaction) (db db' : Db) :
    Prop where
  mem : wallet ∈ db.wallets
  id_eq : wallet.id = id
  tenantId : wallet.tenantId = t
  nonneg : 0 ≤ wallet.balance → 0 ≤ wallet.balance + n
  walletId : row.walletId = id
  tenant : row.tenantId = t
  amount : row.amount = n
  balanceAfter : row.balanceAfter = wallet.balance + n
  transactions : db'.walletTransactions = db.walletTransactions ++ [row]
  wallets : db'.wallets = db.wallets.map fun r => if r.id = id then { r with balance := wallet.balance + n } else r
  movements : db'.movements = db.movements ++ ms

section Moves

variable {t id : Id} {db db₁ : Db} {ms : List Movement}

theorem activeWallet_mem {wallet : Wallet} (h : db.activeWallet t id = some wallet) :
    wallet ∈ db.wallets ∧ wallet.id = id ∧ wallet.tenantId = t := by
  have hfind : db.wallets.find? (fun w => w.id = id ∧ w.tenantId = t) = some wallet := by
    unfold Db.activeWallet at h
    exact (Option.filter_eq_some_iff.mp h).1
  exact ⟨List.mem_of_find?_eq_some hfind, by simpa using List.find?_some hfind⟩

/-- The ledger grew by `ms`, and nothing else changed. -/
structure OnlyPosted (ms : List Movement) (db db₁ : Db) : Prop where
  movements : db₁.movements = db.movements ++ ms
  only : OnlyLedger db db₁

theorem OnlyPosted.refl (db : Db) : OnlyPosted [] db db := ⟨by simp, refl_of OnlyLedger db⟩

theorem OnlyPosted.trans {ms' : List Movement} {db₂ : Db} (h : OnlyPosted ms db db₁) (h' : OnlyPosted ms' db₁ db₂) :
    OnlyPosted (ms ++ ms') db db₂ :=
  ⟨by rw [h'.movements, h.movements, List.append_assoc], trans_of OnlyLedger h.only h'.only⟩

theorem onlyPosted_post {d c : LedgerLeg} {m : Meta} {Q : Unit → Db → Prop}
    (h : ∀ db', OnlyPosted ((⟨d, c, m⟩ : LedgerPosting).movements t) db db' → Q () db') :
    (post t d c m).Ensures Q (fun _ => True) db := by
  have hrows : (post t d c m).Ensures (fun _ db' => Appends ((⟨d, c, m⟩ : LedgerPosting).movements t) db db')
      (fun _ => True) db := ensures_post fun _ _ ha => ha
  exact (hrows.and (keeps_post_only db)).mono (fun _ db' hdb => h db' ⟨hdb.1.movements_eq, hdb.2⟩) fun _ _ => trivial

theorem onlyPosted_postPositive {amount : Int} {d c : LedgerLeg} {m : Meta} {Q : Unit → Db → Prop}
    (h : ∀ db', OnlyPosted (positiveMovements t amount d c m) db db' → Q () db') :
    (postPositive t amount d c m).Ensures Q (fun _ => True) db := by
  unfold postPositive positiveMovements at *
  rw [ensures_when]
  constructor
  · intro hpos
    exact onlyPosted_post fun db' hp => h db' (by rwa [if_pos hpos])
  · intro hpos
    exact h db (by rw [if_neg hpos]; exact .refl db)

/-- The last statement of a wallet operation. -/
theorem moved_recordMovement {wallet : Wallet} {type : WalletTransactionType} {movement : WalletMovement} {sourceType : SourceType}
    {sourceId : Id} {Q : Db → Prop} (hwallet : db.activeWallet t id = some wallet) (hposted : OnlyPosted ms db db₁)
    (hafter : movement.balanceAfterCents = wallet.balance + movement.signedAmountCents)
    (hnonneg : 0 ≤ wallet.balance → 0 ≤ wallet.balance + movement.signedAmountCents)
    (h : ∀ row db', row.sourceType = sourceType → row.sourceId = sourceId →
      WalletMoved t id movement.signedAmountCents ms wallet row db db' → Q db') :
    (recordMovement t wallet type movement sourceType sourceId).Ensures (fun _ db' => Q db') (fun _ => True) db₁ := by
  obtain ⟨hmem, hid, htenant⟩ := activeWallet_mem hwallet
  have honly := hposted.only
  simp only [recordMovement, WalletTransaction.create, Wallet.update, bind_eq, pure_eq, ensures_bind, ensures_get,
    ensures_ite, ensures_throw, ensures_modify, ensures_ret, ensures_acquire, implies_true, true_and]
  intro rowId _
  cases db₁.wallets.find? (·.id = wallet.id) with
  | none => trivial
  | some found =>
      let row : WalletTransaction :=
        { id := rowId, walletId := wallet.id, tenantId := t, type, amount := movement.signedAmountCents,
          currency := wallet.currency, balanceAfter := movement.balanceAfterCents, sourceType, sourceId }
      refine h row _ rfl rfl ⟨hmem, hid, htenant, hnonneg, hid, rfl, rfl, hafter, ?_, ?_, hposted.movements⟩
      · rw [honly]
      · rw [honly, hafter, hid]

theorem creditMovement_ok {message : String} {balance amount : Int} {m : WalletMovement}
    (h : creditMovement message balance amount = .ok m) : 0 < amount ∧ m = ⟨amount, balance + amount⟩ := by
  unfold creditMovement at h
  split_ifs at h with hpos
  cases h
  exact ⟨not_le.mp hpos, rfl⟩

theorem walletAdjustment_movement {balance n : Int} {m : WalletMovement} (h : walletAdjustment balance n = .ok m) :
    m = ⟨n, balance + n⟩ ∧ 0 ≤ balance + n := by
  unfold walletAdjustment at h
  dsimp only at h
  split_ifs at h with hneg
  cases h
  exact ⟨rfl, not_lt.mp hneg⟩

/-- The wallet takes the amount: what is left after the fee is positive. -/
structure Db.TopUp (db : Db) (t id : Id) (amountCents fee : Int) (wallet : Wallet) : Prop where
  found : db.activeWallet t id = some wallet
  nonneg : 0 ≤ fee
  less : fee < amountCents
  charged : match db.walletCommissionBasis t with
    | .load => computeFee (db.captureFee t) amountCents none = .ok fee
    | .usage => fee = 0

theorem topUpWallet_moves (amountCents : Int) (paymentIntentId : Option Id) :
    (topUpWallet t id amountCents paymentIntentId).Ensures (fun _ db' => db' = db ∨ ∃ fee wallet row,
      db.TopUp t id amountCents fee wallet ∧
        (∀ i ∈ paymentIntentId, row.sourceType = .paymentIntent ∧ row.sourceId = i) ∧
        WalletMoved t id (amountCents - fee) (topUpMovements t amountCents fee wallet) wallet row db db') db := by
  refine ensures_transaction_or ?_
  simp only [bind_eq, ensures_bind, ensures_get, ensures_ite]
  have hsource : ∀ (row : WalletTransaction) (other : Id),
      row.sourceType = (if paymentIntentId.isSome then .paymentIntent else .walletTopup) →
        row.sourceId = paymentIntentId.getD other →
          ∀ i ∈ paymentIntentId, row.sourceType = .paymentIntent ∧ row.sourceId = i := by
    rintro row other htype hid i rfl
    exact ⟨htype, hid⟩
  refine ensures_loadActiveWallet fun wallet hwallet => ⟨fun hload => ?_, fun husage => ?_⟩
  · refine ensures_walletFeeSpec ((ensures_lift _).mpr ⟨fun movement hm => ?_, fun _ _ => trivial⟩)
    obtain ⟨hgross, hcharged, hlt, hsigned, hafter⟩ := topUpWithFee_movement hm
    have hfee : 0 ≤ movement.feeCents := computeFee_nonneg hcharged
    rw [hgross]
    refine onlyPosted_post fun db₁ h₁ => onlyPosted_postPositive fun db₂ h₂ => ?_
    refine moved_recordMovement hwallet (h₁.trans h₂) hafter (fun _ => by omega) fun row db' htype hid hmoved => ?_
    rw [hsigned] at hmoved
    exact ⟨movement.feeCents, wallet, row, ⟨hwallet, hfee, hlt, by rw [hload]; exact hcharged⟩,
      hsource row wallet.id htype hid, hmoved⟩
  · refine (ensures_lift _).mpr ⟨fun movement hm => ?_, fun _ _ => trivial⟩
    obtain ⟨hpos, rfl⟩ := creditMovement_ok hm
    have hbasis : db.walletCommissionBasis t = .usage := by
      cases hb : db.walletCommissionBasis t with
      | usage => rfl
      | load => exact absurd hb husage
    refine onlyPosted_post fun db₁ h₁ => ?_
    refine moved_recordMovement hwallet h₁ rfl (fun _ => add_nonneg ‹_› hpos.le) fun row db' htype hid hmoved => ?_
    have hmovements : topUpMovements t amountCents 0 wallet =
        (walletPosting wallet .cash .wallet amountCents .capture).movements t := by
      simp [topUpMovements, walletFeeMovements, positiveMovements]
    refine ⟨0, wallet, row, ⟨hwallet, le_rfl, hpos, by rw [hbasis]⟩, hsource row wallet.id htype hid, ?_⟩
    rw [sub_zero, hmovements]
    exact hmoved

theorem debitWallet_moves (amountCents : Int) (method : Option String) :
    (debitWallet t id amountCents method).Ensures (fun _ db' => db' = db ∨ ∃ fee wallet row,
      WalletMoved t id (-amountCents) (debitMovements t amountCents fee wallet) wallet row db db') db := by
  refine ensures_transaction_or ?_
  simp only [bind_eq, ensures_bind, ensures_get, ensures_ite]
  refine ensures_loadActiveWallet fun wallet hwallet => ⟨fun _ => ?_, fun _ => ?_⟩
  · refine (ensures_lift _).mpr ⟨fun movement hm => ?_, fun _ _ => trivial⟩
    obtain ⟨rfl, -, hle⟩ := walletDebit_movement hm
    refine onlyPosted_post fun db₁ h₁ => ?_
    refine moved_recordMovement hwallet h₁ (sub_eq_add_neg _ _) (fun _ => by dsimp only; omega) fun row db' _ _ hmoved => ?_
    have hmovements : debitMovements t amountCents 0 wallet =
        (walletPosting wallet .wallet .available amountCents .capture).movements t := by
      simp [debitMovements, walletFeeMovements, positiveMovements]
    refine ⟨0, wallet, row, ?_⟩
    rw [hmovements]
    exact hmoved
  · refine ensures_walletFeeSpec ((ensures_lift _).mpr ⟨fun movement hm => ?_, fun _ _ => trivial⟩)
    obtain ⟨-, hmovement, -, hle⟩ := debitWithFee_movement hm
    refine onlyPosted_post fun db₁ h₁ => onlyPosted_postPositive fun db₂ h₂ => ?_
    rw [hmovement]
    refine moved_recordMovement hwallet (h₁.trans h₂) (sub_eq_add_neg _ _) (fun _ => by dsimp only; omega)
      fun row db' _ _ hmoved => ⟨movement.feeCents, wallet, row, hmoved⟩

theorem refundWallet_moves (amountCents : Int) :
    (refundWallet t id amountCents).Ensures (fun _ db' => db' = db ∨ ∃ wallet row,
      WalletMoved t id amountCents (refundWalletMovements t amountCents wallet) wallet row db db') db := by
  refine ensures_transaction_or ?_
  simp only [bind_eq, ensures_bind]
  refine ensures_loadActiveWallet fun wallet hwallet => (ensures_lift _).mpr ⟨fun movement hm => ?_, fun _ _ => trivial⟩
  obtain ⟨hpos, rfl⟩ := creditMovement_ok hm
  refine onlyPosted_post fun db₁ h₁ => ?_
  exact moved_recordMovement hwallet h₁ rfl (fun _ => add_nonneg ‹_› hpos.le) fun row db' _ _ hmoved => ⟨wallet, row, hmoved⟩

theorem adjustWallet_moves (amountCents : Int) :
    (adjustWallet t id amountCents).Ensures (fun _ db' => db' = db ∨ ∃ wallet row,
      WalletMoved t id amountCents (adjustMovements t amountCents wallet) wallet row db db') db := by
  refine ensures_transaction_or ?_
  simp only [bind_eq, ensures_bind, ensures_when]
  refine ensures_loadActiveWallet fun wallet hwallet => (ensures_lift _).mpr ⟨fun movement hm => ?_, fun _ _ => trivial⟩
  obtain ⟨rfl, hafter⟩ := walletAdjustment_movement hm
  have hrecord : ∀ {db₁ : Db}, OnlyPosted (adjustMovements t amountCents wallet) db db₁ →
      (recordMovement t wallet .adjustment ⟨amountCents, wallet.balance + amountCents⟩ .walletAdjust wallet.id).Ensures
        (fun _ db' => ∃ wallet row, WalletMoved t id amountCents (adjustMovements t amountCents wallet) wallet row db db')
        (fun _ => True) db₁ := fun h =>
    moved_recordMovement hwallet h rfl (fun _ => hafter) fun row db' _ _ hmoved => ⟨wallet, row, hmoved⟩
  rcases lt_trichotomy amountCents 0 with hneg | rfl | hpos
  · have habs : (amountCents.natAbs : Int) = -amountCents := by omega
    have hmovements : adjustMovements t amountCents wallet =
        (walletPosting wallet .wallet .available (-amountCents) .adjustment).movements t := by
      rw [adjustMovements, if_neg (not_lt.mpr hneg.le), if_pos hneg]
    rw [habs]
    refine ⟨fun h => absurd h (not_lt.mpr hneg.le), fun _ => ⟨fun _ => ?_, fun h => absurd hneg h⟩⟩
    exact onlyPosted_post fun db₁ h₁ => hrecord (hmovements ▸ h₁)
  · exact ⟨fun h => absurd h (lt_irrefl _), fun _ => ⟨fun h => absurd h (lt_irrefl _), fun _ => hrecord (.refl db)⟩⟩
  · have habs : (amountCents.natAbs : Int) = amountCents := by omega
    have hmovements : adjustMovements t amountCents wallet =
        (walletPosting wallet .available .wallet amountCents .adjustment).movements t := by
      rw [adjustMovements, if_pos hpos]
    rw [habs]
    refine ⟨fun _ => onlyPosted_post fun db₁ h₁ => ⟨fun h => absurd h (not_lt.mpr hpos.le), fun _ => ?_⟩,
      fun h => absurd hpos h⟩
    exact hrecord (hmovements ▸ h₁)

end Moves

/-! ## The other operations -/

/-- No movement is on the account. -/
def Spares (a : LedgerAccount) (ms : List Movement) : Prop := ∀ m ∈ ms, m.account ≠ a

section Spares

variable {t id : Id} {a : LedgerAccount}

theorem Spares.balance_eq {ms : List Movement} (h : Spares a ms) (t : Id) (c : Currency) : balance ms t a c = 0 := by
  refine List.sum_eq_zero fun v hv => ?_
  obtain ⟨m, hm, rfl⟩ := List.mem_map.mp hv
  exact if_neg fun hon => h m hm hon.2.1

theorem spares_nil : Spares a [] := by simp [Spares]

theorem spares_append {ms ms' : List Movement} (h : Spares a ms) (h' : Spares a ms') : Spares a (ms ++ ms') := fun m hm =>
  (List.mem_append.mp hm).elim (h m) (h' m)

theorem spares_flatMap {α : Type} {as : List α} {f : α → List Movement} (h : ∀ x ∈ as, Spares a (f x)) :
    Spares a (as.flatMap f) := by
  intro m hm
  obtain ⟨x, hx, hmx⟩ := List.mem_flatMap.mp hm
  exact h x hx m hmx

theorem spares_posting {p : LedgerPosting} (hd : p.debit.account ≠ a) (hc : p.credit.account ≠ a) :
    Spares a (p.movements t) := by
  intro m hm
  rcases mem_posting hm with rfl | rfl
  · exact hd
  · exact hc

theorem spares_positive {amount : Int} {d c : LedgerLeg} {m : Meta} (hd : d.account ≠ a) (hc : c.account ≠ a) :
    Spares a (positiveMovements t amount d c m) := by
  intro row hrow
  rcases mem_positive hrow with rfl | rfl
  · exact hd
  · exact hc

section Outside

variable (ha : a = .wallet ∨ a = .cash)
include ha

theorem spares_split {trigger : SplitTrigger} {held : Bool} {currency : Currency} {source : Meta} {result : SplitResult} :
    Spares a (splitMovements t trigger held currency source result) := by
  have hsource : sourceAccountFor trigger ≠ a := by rcases ha with rfl | rfl <;> cases trigger <;> decide
  have hdst : ∀ held : Bool, (if held then .reserve else .available : LedgerAccount) ≠ a := by
    rcases ha with rfl | rfl <;> decide
  refine spares_append (spares_flatMap fun x _ => spares_posting hsource (hdst held)) ?_
  unfold platformMovements
  split_ifs
  · exact spares_posting hsource (hdst false)
  · exact spares_nil

/-- What a capture moves after the gross. -/
theorem spares_captureRest {input : SettleCaptureInput} {cp : CapturePlan} : ∃ rest, Spares a rest ∧
    captureMovements t input cp = grossMovements t input ++ rest := by
  have hfrom : cp.feeFrom ≠ a := by
    unfold CapturePlan.feeFrom
    rcases ha with rfl | rfl <;> split_ifs <;> decide
  have hdst : LedgerAccount.fees ≠ a ∧ LedgerAccount.taxPayable ≠ a ∧ LedgerAccount.reserve ≠ a ∧ LedgerAccount.collected ≠ a ∧
      LedgerAccount.available ≠ a := by rcases ha with rfl | rfl <;> decide
  have hmoved : ∀ {amount category src dst}, src ≠ a → dst ≠ a → Spares a (moved t input amount category src dst) :=
    fun hsrc hdst => spares_positive hsrc hdst
  refine ⟨_, spares_append ?_ (spares_append (hmoved hfrom hdst.1) (spares_append (hmoved hfrom hdst.2.1)
    (spares_append (hmoved hfrom hdst.2.2.1) ?_))), rfl⟩
  · unfold ruleMovements
    split
    · exact spares_split ha
    · exact spares_nil
  · unfold netMovements
    split
    · exact spares_nil
    · exact hmoved hdst.2.2.2.1 hdst.2.2.2.2

end Outside

theorem spares_capture {input : SettleCaptureInput} {cp : CapturePlan} : Spares .wallet (captureMovements t input cp) := by
  obtain ⟨rest, hrest, heq⟩ := spares_captureRest (a := .wallet) (.inl rfl)
  rw [heq]
  exact spares_append (spares_posting (by simp [debit]) (by simp [credit])) hrest

theorem spares_reversals {db : Db} {intentId refundId : Id} {credits : List Movement} {currency : Currency}
    (h : db.refundable t intentId = credits) : Spares .wallet (credits.flatMap (reversal t refundId currency)) := by
  refine spares_flatMap fun m hm => spares_positive ?_ (by simp [credit])
  rw [← h] at hm
  rcases mem_refundedAccounts m t intentId (List.mem_filter.mp hm).2 with ha | ha | ha <;> simp [debit, ha]

end Spares

theorem Change.spares {op : Operation} {db db' : Db} (h : Change op db db') (hop : op.isWallet = false) :
    ∃ ms, db'.movements = db.movements ++ ms ∧ Spares .wallet ms := by
  cases h with
  | same => exact ⟨[], by simp, spares_nil⟩
  | configured => exact ⟨[], by simp [Db.movements], spares_nil⟩
  | captured h => exact ⟨_, h.booked.movements, spares_capture⟩
  | refunded _ h => exact ⟨_, h.appends.movements_eq, spares_reversals h.credits⟩
  | refundRequested h =>
      rcases h.movements with hm | ⟨first, rest, hm⟩
      · exact ⟨[], by simp [hm], spares_nil⟩
      · exact ⟨_, hm.movements, spares_reversals hm.credits⟩
  | disputeCreated h => exact ⟨[], by simp [h.only.movements], spares_nil⟩
  | disputeWon h => exact ⟨[], by simp [h.only.movements], spares_nil⟩
  | disputeLost h =>
      exact ⟨_, h.movements, spares_append (spares_positive (by simp [debit]) (by simp [credit]))
        (spares_positive (by simp [debit]) (by simp [credit]))⟩
  | walletCreated | toppedUp | debited | walletRefunded | adjusted => cases hop
  | splitExecuted _ _ h =>
      obtain ⟨rows, hbooked, -⟩ := h.shares
      exact ⟨_, hbooked.movements, spares_split (.inl rfl)⟩
  | splitReleased h => exact ⟨_, h.movements, spares_posting (by simp [Split.release, debit]) (by simp [Split.release, credit])⟩
  | payoutCreated h =>
      obtain ⟨ms, hm, hfx⟩ := h.movements
      refine ⟨ms, hm, fun m hmem ha => ?_⟩
      rcases (hfx m hmem).account with h | h | h <;> simp [h] at ha
  | payoutCancelled h => exact ⟨[], h.movements, spares_nil⟩
  | payoutFailed h => exact ⟨[], h.movements, spares_nil⟩
  | payoutPaid _ h =>
      exact ⟨_, h.movements, spares_posting (by simp [Payout.settlement, debit]) (by simp [Payout.settlement, credit])⟩

/-- The rows of wallets stay. -/
def SameWallets (db db' : Db) : Prop := db'.wallets = db.wallets ∧ db'.walletTransactions = db.walletTransactions

instance : IsPreorder Db SameWallets where
  refl := fun _ => ⟨rfl, rfl⟩
  trans := fun _ _ _ h h' => ⟨h'.1.trans h.1, h'.2.trans h.2⟩

theorem sameWallets_postings : Postings SameWallets where
  post _ := keeps_post fun _ _ => ⟨rfl, rfl⟩
  postEntry _ := keeps_postEntry fun _ _ => ⟨rfl, rfl⟩

theorem sameWallets_ignoresTables : IgnoresTables SameWallets :=
  ⟨fun _ _ => ⟨rfl, rfl⟩, fun _ _ => ⟨rfl, rfl⟩, fun _ _ => ⟨rfl, rfl⟩, fun _ _ => ⟨rfl, rfl⟩, fun _ _ => ⟨rfl, rfl⟩,
    fun _ _ => ⟨rfl, rfl⟩, fun _ _ _ => ⟨rfl, rfl⟩⟩

theorem keeps_sameWallets {op : Operation} (hop : op.isWallet = false) : op.job.Keeps SameWallets :=
  keeps_operation sameWallets_ignoresTables sameWallets_postings (keeps_post fun _ _ => ⟨rfl, rfl⟩) op
    fun h => absurd h (by rw [hop]; decide)

/-! ## One relation for all operations -/

/-- A new wallet. -/
def WalletCreated (db db' : Db) : Prop :=
  ∃ wallet : Wallet, (∀ w ∈ db.wallets, w.id ≠ wallet.id) ∧ wallet.balance = 0 ∧
    db' = { db with wallets := db.wallets ++ [wallet] }

theorem createWallet_effect (t : Id) (ownerType : WalletOwnerType) (ownerId : String) (currency : Option Currency) (db : Db) :
    (createWallet t ownerType ownerId currency).Ensures (fun _ db' => db' = db ∨ WalletCreated db db') db := by
  refine (ensures_transaction_or (P := fun db' => db' = db ∨ WalletCreated db db') ?_).mono fun _ db' h => h.elim .inl id
  simp only [bind_eq, pure_eq]
  simp only [ensures_bind, ensures_acquire, ensures_get]
  cases db.wallets.find? fun w => w.tenantId = t ∧ w.ownerType = ownerType ∧ w.ownerId = ownerId with
  | some wallet => exact .inl rfl
  | none =>
      simp only [Wallet.create, bind_eq, pure_eq, ensures_bind, ensures_get, ensures_ite, ensures_throw, ensures_modify,
        ensures_ret]
      refine fun id => ⟨fun _ => trivial, fun hid => .inr ⟨_, fun w hw heq => hid ?_, rfl, rfl⟩⟩
      exact List.any_eq_true.mpr ⟨w, hw, by simpa using heq⟩

/-- What any operation does to the wallets. -/
inductive WalletStep (db db' : Db) : Prop
  | spared {ms : List Movement} (hsame : SameWallets db db') (hm : db'.movements = db.movements ++ ms) (h : Spares .wallet ms)
  | created (h : WalletCreated db db')
  | moved {t id : Id} {n : Int} {ms : List Movement} {wallet : Wallet} {row : WalletTransaction}
      (h : WalletMoved t id n ms wallet row db db') (hof : Of t ms)
      (hworth : ∀ c, balance ms t .wallet c = if wallet.currency = c then n else 0)

theorem WalletStep.same (db : Db) : WalletStep db db := .spared ⟨rfl, rfl⟩ (by simp) spares_nil

theorem WalletStep.of_or {db db' : Db} {P : Prop} (h : db' = db ∨ P) (hp : P → WalletStep db db') : WalletStep db db' := by
  rcases h with rfl | h
  · exact .same db'
  · exact hp h

theorem Operation.walletStep (op : Operation) (db : Db) : op.job.Ensures (fun _ db' => WalletStep db db') db := by
  cases hop : op.isWallet with
  | false =>
      refine ((op.change db).and (keeps_sameWallets hop db)).mono fun _ db' h => ?_
      obtain ⟨ms, hm, hspares⟩ := h.1.spares hop
      exact .spared h.2 hm hspares
  | true =>
      cases op with
      | createWallet t ownerType ownerId currency =>
          exact ensures_discard ((createWallet_effect t ownerType ownerId currency db).mono fun _ _ h =>
            .of_or h .created)
      | topUpWallet t id amount paymentIntentId =>
          refine ensures_discard ((topUpWallet_moves amount paymentIntentId).mono fun _ _ h => .of_or h ?_)
          rintro ⟨fee, wallet, row, htopUp, -, hmoved⟩
          refine .moved hmoved (of_topUp _ _ _ _) fun c => ?_
          rw [balance_topUp, max_eq_left htopUp.nonneg]
          simp only [hit, true_and, reduceCtorEq, false_and, ↓reduceIte]
          split_ifs <;> omega
      | debitWallet t id amount method =>
          refine ensures_discard ((debitWallet_moves amount method).mono fun _ _ h => .of_or h ?_)
          rintro ⟨fee, wallet, row, hmoved⟩
          refine .moved hmoved (of_debit _ _ _ _) fun c => ?_
          rw [balance_debit]
          simp only [hit, true_and, reduceCtorEq, false_and, ↓reduceIte]
          split_ifs <;> omega
      | refundWallet t id amount =>
          refine ensures_discard ((refundWallet_moves amount).mono fun _ _ h => .of_or h ?_)
          rintro ⟨wallet, row, hmoved⟩
          refine .moved hmoved (of_refundWallet _ _ _) fun c => ?_
          rw [balance_refundWallet]
          simp only [hit, true_and, reduceCtorEq, false_and, ↓reduceIte, sub_zero]
      | adjustWallet t id amount =>
          refine ensures_discard ((adjustWallet_moves amount).mono fun _ _ h => .of_or h ?_)
          rintro ⟨wallet, row, hmoved⟩
          refine .moved hmoved (of_adjust _ _ _) fun c => ?_
          rw [balance_adjust]
          simp only [hit, true_and, reduceCtorEq, false_and, ↓reduceIte, sub_zero]
      | _ => cases hop

end CorpoPay.Settlement
