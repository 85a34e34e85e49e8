import CorpoPay.Settlement.Lemmas.Wallets

/-!
# Wallets agree with their transactions and with the ledger

The balance of a wallet is what its transactions add up to, and WALLET holds what the wallets hold together.
-/

namespace CorpoPay.Settlement

/-! ## The three records -/

/-- The transactions of a wallet, oldest first. -/
def Db.transactionsOf (db : Db) (walletId : Id) : List WalletTransaction :=
  db.walletTransactions.filter (·.walletId = walletId)

/-- What the wallets of a tenant in a currency hold together. -/
def Db.walletTotal (db : Db) (t : Id) (c : Currency) : Int :=
  ((db.wallets.filter fun w => w.tenantId = t ∧ w.currency = c).map (·.balance)).sum

/-- Balances, transactions and the ledger agree. -/
structure Db.WalletsAgree (db : Db) : Prop where
  recorded : ∀ w ∈ db.wallets, w.balance = ((db.transactionsOf w.id).map (·.amount)).sum
  latest : ∀ w ∈ db.wallets, ∀ r ∈ (db.transactionsOf w.id).getLast?, r.balanceAfter = w.balance
  nonneg : ∀ w ∈ db.wallets, 0 ≤ w.balance
  posted : ∀ t c, db.accountBalance t .wallet c = db.walletTotal t c

/-- Wallets have unique ids, and a transaction has its wallet. -/
structure Db.WalletsSound (db : Db) : Prop extends db.WalletsAgree where
  ids : (db.wallets.map (·.id)).Nodup
  known : ∀ r ∈ db.walletTransactions, ∃ w ∈ db.wallets, w.id = r.walletId

theorem walletsSound_empty (config : Config) : (Db.empty config).WalletsSound where
  recorded := by simp [Db.empty]
  latest := by simp [Db.empty]
  nonneg := by simp [Db.empty]
  posted := fun _ _ => rfl
  ids := by simp [Db.empty]
  known := by simp [Db.empty]

/-! ## One operation -/

section Step

variable {db db' : Db} (h : db.WalletsSound)
include h

theorem Db.WalletsSound.spared {ms : List Movement} (hsame : SameWallets db db') (hm : db'.movements = db.movements ++ ms)
    (hspares : Spares .wallet ms) : db'.WalletsSound := by
  obtain ⟨hwallets, htransactions⟩ := hsame
  have hof : ∀ id, db'.transactionsOf id = db.transactionsOf id := fun id => by
    rw [Db.transactionsOf, htransactions, Db.transactionsOf]
  refine ⟨⟨fun w hw => ?_, fun w hw => ?_, fun w hw => ?_, fun t c => ?_⟩, ?_, fun r hr => ?_⟩
  · rw [hof]; exact h.recorded w (hwallets ▸ hw)
  · rw [hof]; exact h.latest w (hwallets ▸ hw)
  · exact h.nonneg w (hwallets ▸ hw)
  · rw [Db.accountBalance_append hm, hspares.balance_eq, add_zero, h.posted, Db.walletTotal, Db.walletTotal, hwallets]
  · rw [hwallets]; exact h.ids
  · rw [hwallets]; exact h.known r (htransactions ▸ hr)

theorem Db.WalletsSound.created (hnew : WalletCreated db db') : db'.WalletsSound := by
  obtain ⟨wallet, hfresh, hbalance, rfl⟩ := hnew
  have hnone : db.transactionsOf wallet.id = [] := by
    refine List.filter_eq_nil_iff.mpr fun r hr heq => ?_
    obtain ⟨w, hw, hid⟩ := h.known r hr
    exact hfresh w hw (hid.trans (of_decide_eq_true heq))
  have hcases : ∀ w ∈ db.wallets ++ [wallet], w ∈ db.wallets ∨ w = wallet := fun w hw => by simpa using hw
  refine ⟨⟨fun w hw => ?_, fun w hw r hr => ?_, fun w hw => ?_, fun t c => ?_⟩, ?_, fun r hr => ?_⟩
  · rcases hcases w hw with hw | rfl
    · exact h.recorded w hw
    · rw [hbalance]
      exact (congrArg (fun rs => (rs.map (·.amount)).sum) hnone).symm
  · rcases hcases w hw with hw | rfl
    · exact h.latest w hw r hr
    · have hlast : r ∈ (db.transactionsOf w.id).getLast? := hr
      rw [hnone] at hlast
      cases hlast
  · rcases hcases w hw with hw | rfl
    · exact h.nonneg w hw
    · exact hbalance.ge
  · have htotal : ((db.wallets ++ [wallet]).filter (fun w => w.tenantId = t ∧ w.currency = c) |>.map (·.balance)).sum =
        db.walletTotal t c := by
      rw [List.filter_append, List.map_append, List.sum_append, Db.walletTotal, add_eq_left]
      rw [List.filter_cons]
      split_ifs <;> simp [hbalance]
    exact (h.posted t c).trans htotal.symm
  · rw [List.map_append, List.map_singleton]
    exact List.nodup_append.mpr ⟨h.ids, by simp, by simpa using hfresh⟩
  · obtain ⟨w, hw, hid⟩ := h.known r hr
    exact ⟨w, List.mem_append_left _ hw, hid⟩

variable {t id : Id} {n : Int} {ms : List Movement} {wallet : Wallet} {row : WalletTransaction}

/-- The wallets after a movement: the one that moved and the others. -/
theorem Db.WalletsSound.moved_cases (hm : WalletMoved t id n ms wallet row db db') {w : Wallet} (hw : w ∈ db'.wallets) :
    (w = { wallet with balance := wallet.balance + n } ∧ w.id = id ∧
        db'.transactionsOf id = db.transactionsOf id ++ [row]) ∨
      (w ∈ db.wallets ∧ db'.transactionsOf w.id = db.transactionsOf w.id) := by
  rw [hm.wallets] at hw
  obtain ⟨r, hr, rfl⟩ := List.mem_map.mp hw
  by_cases hid : r.id = id
  · obtain rfl : r = wallet := List.inj_on_of_nodup_map h.ids hr hm.mem (hid.trans hm.id_eq.symm)
    refine .inl ⟨if_pos hid, ?_, ?_⟩
    · rw [if_pos hid]; exact hid
    · rw [Db.transactionsOf, hm.transactions, List.filter_append, List.filter_cons_of_pos (by simp [hm.walletId])]
      rfl
  · refine .inr ?_
    rw [if_neg hid]
    refine ⟨hr, ?_⟩
    have hne : ¬ row.walletId = r.id := fun heq => hid (heq.symm.trans hm.walletId)
    rw [Db.transactionsOf, hm.transactions, List.filter_append, List.filter_cons_of_neg (by simp [hne]), List.filter_nil,
      List.append_nil]
    rfl

theorem Db.WalletsSound.moved_total (hm : WalletMoved t id n ms wallet row db db') (t' : Id) (c : Currency) :
    db'.walletTotal t' c = db.walletTotal t' c + if t = t' ∧ wallet.currency = c then n else 0 := by
  have hsum := Data.sum_update h.ids hm.mem (fun w => if w.tenantId = t' ∧ w.currency = c then w.balance else 0)
    fun r => { r with balance := wallet.balance + n }
  rw [Db.walletTotal, Data.sum_filter, hm.wallets, ← hm.id_eq, hsum, Db.walletTotal, Data.sum_filter, hm.tenantId]
  split_ifs <;> ring

theorem Db.WalletsSound.moved (hm : WalletMoved t id n ms wallet row db db') (hof : Of t ms)
    (hworth : ∀ c, balance ms t .wallet c = if wallet.currency = c then n else 0) : db'.WalletsSound := by
  have hids : db'.wallets.map (·.id) = db.wallets.map (·.id) := by
    rw [hm.wallets, List.map_map]
    refine List.map_congr_left fun r _ => ?_
    dsimp only [Function.comp_apply]
    split_ifs <;> rfl
  refine ⟨⟨fun w hw => ?_, fun w hw r hr => ?_, fun w hw => ?_, fun t' c => ?_⟩, hids ▸ h.ids, fun r hr => ?_⟩
  · rcases h.moved_cases hm hw with ⟨rfl, hid, htransactions⟩ | ⟨hold, htransactions⟩
    · rw [hid, htransactions, List.map_append, List.sum_append, ← hm.id_eq, ← h.recorded wallet hm.mem]
      simp [hm.amount]
    · rw [htransactions]
      exact h.recorded w hold
  · rcases h.moved_cases hm hw with ⟨rfl, hid, htransactions⟩ | ⟨hold, htransactions⟩
    · rw [hid, htransactions, List.getLast?_append, List.getLast?_singleton] at hr
      obtain rfl : row = r := by simpa using hr
      exact hm.balanceAfter
    · rw [htransactions] at hr
      exact h.latest w hold r hr
  · rcases h.moved_cases hm hw with ⟨rfl, -, -⟩ | ⟨hold, -⟩
    · exact hm.nonneg (h.nonneg wallet hm.mem)
    · exact h.nonneg w hold
  · rw [Db.accountBalance_append hm.movements, h.posted, h.moved_total hm]
    by_cases ht : t = t'
    · subst ht
      rw [hworth]
      simp
    · rw [hof.balance_eq_zero ht, if_neg fun hc => ht hc.1]
  · have hmem : r.walletId ∈ db.wallets.map (·.id) := by
      rw [hm.transactions] at hr
      rcases List.mem_append.mp hr with hr | hr
      · obtain ⟨w, hw, hid⟩ := h.known r hr
        exact List.mem_map.mpr ⟨w, hw, hid⟩
      · rw [List.mem_singleton.mp hr, hm.walletId, ← hm.id_eq]
        exact List.mem_map_of_mem hm.mem
    rw [← hids] at hmem
    exact List.mem_map.mp hmem

theorem Db.WalletsSound.step (hstep : WalletStep db db') : db'.WalletsSound := by
  cases hstep with
  | spared hsame hm hspares => exact h.spared hsame hm hspares
  | created hnew => exact h.created hnew
  | moved hm hof hworth => exact h.moved hm hof hworth

end Step

/-! ## Runs -/

theorem wallets_agree {db : Db} (h : Reached db) : db.WalletsAgree := by
  have hsound : db.WalletsSound := h.invariant walletsSound_empty fun op db hdb =>
    (op.walletStep db).mono fun _ _ hstep => hdb.step hstep
  exact hsound.toWalletsAgree

/-- A wallet is created and moved in every way, with a switch of the commission basis between. -/
def mixedWalletRun : List Operation :=
  [.createWallet 1 .customer "c" (some .usd), .topUpWallet 1 0 1000 none,
    .configure { plainConfig with financeConfigs := [⟨1, .load⟩] }, .topUpWallet 1 0 500 (some 7), .debitWallet 1 0 300 none,
    .refundWallet 1 0 100, .adjustWallet 1 0 (-50)]

theorem wallets_agree_mixed :
    (execute mixedWalletRun (.empty plainConfig) .counting).1.walletTotal 1 .usd = 1250 ∧
      (execute mixedWalletRun (.empty plainConfig) .counting).1.WalletsAgree :=
  ⟨by decide +kernel, wallets_agree (Reached.execute mixedWalletRun (.init plainConfig) .counting)⟩

end CorpoPay.Settlement
