import CorpoPay.Settlement.Lemmas.Change

/-!
# What each operation adds to each account
-/

namespace CorpoPay.Settlement

theorem Db.accountBalance_append {db db' : Db} {ms : List Movement} (h : db'.movements = db.movements ++ ms) (t : Id)
    (a : LedgerAccount) (c : Currency) : db'.accountBalance t a c = db.accountBalance t a c + balance ms t a c := by
  rw [Db.accountBalance_eq, Db.accountBalance_eq, h, balance_append]

theorem Db.accountBalance_same {db db' : Db} (h : db'.movements = db.movements) (t : Id) (a : LedgerAccount)
    (c : Currency) : db'.accountBalance t a c = db.accountBalance t a c := by
  rw [Db.accountBalance_eq, Db.accountBalance_eq, h]

/-- What a posting of the tenant credits. -/
theorem creditTotal_posting (kind : Movement → Bool) (t : Id) (c currency : Currency) (src dst : LedgerAccount)
    (amount : Int) (category : LedgerCategory) (p q : Option Id) (source : Meta) :
    creditTotal kind ((⟨debit src amount category p currency, credit dst amount category q currency, source⟩ :
        LedgerPosting).movements t) t c =
      if currency = c ∧ kind ((credit dst amount category q currency).movement t source) then amount else 0 := by
  simp only [LedgerPosting.movements, LedgerLeg.movement, debit, credit, Movement.credited, creditTotal_cons,
    creditTotal_nil, reduceCtorEq, false_and, and_false, ↓reduceIte, true_and, zero_add, add_zero]
  exact if_congr Iff.rfl rfl rfl

/-! ## Wallets -/

section

variable (t : Id) (a : LedgerAccount) (c : Currency) (wallet : Wallet) (amount fee : Int)

theorem balance_wallet (src dst : LedgerAccount) (category : LedgerCategory) :
    balance ((walletPosting wallet src dst amount category).movements t) t a c =
      hit dst wallet.currency a c amount - hit src wallet.currency a c amount := balance_posting ..

theorem balance_walletFee (src : LedgerAccount) :
    balance (walletFeeMovements t wallet src fee) t a c =
      hit .fees wallet.currency a c (max fee 0) - hit src wallet.currency a c (max fee 0) := balance_positive ..

theorem balance_topUp :
    balance (topUpMovements t amount fee wallet) t a c =
      hit .wallet wallet.currency a c amount - hit .cash wallet.currency a c amount
        + (hit .fees wallet.currency a c (max fee 0) - hit .wallet wallet.currency a c (max fee 0)) := by
  rw [topUpMovements, balance_append, balance_wallet, balance_walletFee]

theorem balance_debit :
    balance (debitMovements t amount fee wallet) t a c =
      hit .available wallet.currency a c amount - hit .wallet wallet.currency a c amount
        + (hit .fees wallet.currency a c (max fee 0) - hit .available wallet.currency a c (max fee 0)) := by
  rw [debitMovements, balance_append, balance_wallet, balance_walletFee]

theorem balance_refundWallet :
    balance (refundWalletMovements t amount wallet) t a c =
      hit .wallet wallet.currency a c amount - hit .available wallet.currency a c amount := balance_wallet ..

theorem balance_adjust :
    balance (adjustMovements t amount wallet) t a c =
      hit .wallet wallet.currency a c amount - hit .available wallet.currency a c amount := by
  unfold adjustMovements
  split_ifs with hpos hneg
  · exact balance_wallet ..
  · rw [balance_wallet]
    unfold hit
    split_ifs <;> omega
  · obtain rfl : amount = 0 := by omega
    simp

theorem of_topUp : Of t (topUpMovements t amount fee wallet) := of_append (of_posting t _) (of_positive t _ _ _ _)

theorem of_debit : Of t (debitMovements t amount fee wallet) := of_append (of_posting t _) (of_positive t _ _ _ _)

theorem of_refundWallet : Of t (refundWalletMovements t amount wallet) := of_posting t _

theorem of_adjust : Of t (adjustMovements t amount wallet) := by
  unfold adjustMovements
  split_ifs
  · exact of_posting t _
  · exact of_posting t _
  · exact of_nil t

end

/-! ## Splits -/

section

variable (t : Id) (a : LedgerAccount) (c : Currency)

theorem balance_release (r : Split) :
    balance (r.release.movements t) t a c =
      hit .available r.currency a c r.amount - hit .reserve r.currency a c r.amount := balance_posting ..

end

/-! ## Refunds, disputes and payouts -/

section

variable (t : Id) (a : LedgerAccount) (c : Currency)

theorem balance_refund {db : Db} {intentId : Id} {credits : List Movement} (h : db.refundable t intentId = credits)
    (refundId : Id) (cur : Currency) :
    balance (credits.flatMap (reversal t refundId cur)) t a c =
      hit .cash cur a c (refundedSum db.movements t intentId .available + refundedSum db.movements t intentId .fees +
          refundedSum db.movements t intentId .reserve)
        - hit .available cur a c (refundedSum db.movements t intentId .available)
        - hit .fees cur a c (refundedSum db.movements t intentId .fees)
        - hit .reserve cur a c (refundedSum db.movements t intentId .reserve) := by
  rw [← h]
  exact balance_reversals ..

theorem balance_clawback (id : Id) (currency : Currency) {allocation : ClawbackAllocation} {gross : Int}
    (h : allocation.Covers gross) :
    balance (clawbackMovements t id currency allocation) t a c =
      hit .cash currency a c (allocation.fromAvailable + allocation.fromReserve)
        - hit .available currency a c allocation.fromAvailable - hit .reserve currency a c allocation.fromReserve := by
  rw [clawbackMovements, balance_append, balance_positive, balance_positive, max_eq_left h.fromAvailable,
    max_eq_left h.fromReserve]
  unfold hit
  split_ifs <;> omega

/-- A sweep books on CASH, AVAILABLE and FEES only. -/
theorem balance_fx {t' : Id} {ms : List Movement} (h : ∀ m ∈ ms, m.IsFx t') (hcash : a ≠ .cash)
    (havailable : a ≠ .available) (hfees : a ≠ .fees) : balance ms t a c = 0 := by
  refine List.sum_eq_zero fun v hv => ?_
  obtain ⟨m, hm, rfl⟩ := List.mem_map.mp hv
  refine if_neg fun hon => ?_
  rcases (h m hm).account with ha | ha | ha
  · exact hcash (hon.2.1.symm.trans ha)
  · exact havailable (hon.2.1.symm.trans ha)
  · exact hfees (hon.2.1.symm.trans ha)

theorem balance_settlement (p : Payout) :
    balance (p.settlement.movements t) t a c =
      hit .paidOut p.currency a c p.amount - hit .available p.currency a c p.amount := balance_posting ..

end

/-! ## One account of one tenant -/

/-- The movements of another tenant change nothing, and those of the tenant itself leave the balance at zero or more. -/
theorem nonneg_of_movements {db db' : Db} {ms : List Movement} {t t' : Id} {a : LedgerAccount}
    (hm : db'.movements = db.movements ++ ms) (hof : Of t' ms) (h : ∀ c, 0 ≤ db.accountBalance t a c)
    (hself : t' = t → ∀ c, 0 ≤ db.accountBalance t a c + balance ms t a c) (c : Currency) :
    0 ≤ db'.accountBalance t a c := by
  rw [Db.accountBalance_append hm]
  by_cases ht : t' = t
  · exact hself ht c
  · rw [hof.balance_eq_zero ht, add_zero]
    exact h c

end CorpoPay.Settlement
