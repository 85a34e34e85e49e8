import CorpoPay.Settlement.Lemmas.ChangeBalance

/-!
# AVAILABLE over runs

Payouts and the resolution of disputes compare what they take with the balance. Other operations debit AVAILABLE
without such a check, or with one that looks at a part of the amount. When these take at most what is there, the
balance never becomes negative.
-/

namespace CorpoPay.Settlement

/-! ## The policy -/

/-- The stored policies passed their check, and the one of the tenant does not allow a negative balance. -/
structure Config.NoNegative (c : Config) (t : Id) : Prop where
  settlementPolicies : ∀ p ∈ c.settlementPolicies, p.toPolicySpec.Valid
  allowNegative : (c.capturePolicy t).allowNegative = false

instance (c : Config) (t : Id) : Decidable (c.NoNegative t) :=
  decidable_of_iff ((∀ p ∈ c.settlementPolicies, p.toPolicySpec.Valid) ∧ (c.capturePolicy t).allowNegative = false)
    ⟨fun h => ⟨h.1, h.2⟩, fun h => ⟨h.1, h.2⟩⟩

theorem PolicySpec.Valid.reversalFunding_ne {p : PolicySpec} (h : p.Valid) (hn : p.allowNegative = false) :
    p.reversalFunding ≠ .allowNegative := by
  intro hfunding
  unfold Valid validatePolicy at h
  simp only [hfunding, hn, and_self, ↓reduceIte] at h
  cases h₁ : nonNeg p.reservePercentageBps "reservePercentageBps" with
  | error e => rw [h₁] at h; cases h
  | ok _ =>
  cases h₂ : nonNeg p.reserveFixedCents "reserveFixedCents" with
  | error e => rw [h₁, h₂] at h; cases h
  | ok _ =>
  cases h₃ : nonNeg p.availabilityDelayDays "availabilityDelayDays" with
  | error e => rw [h₁, h₂, h₃] at h; cases h
  | ok _ =>
  cases h₄ : nonNeg p.reserveHoldDays "reserveHoldDays" with
  | error e => rw [h₁, h₂, h₃, h₄] at h; cases h
  | ok _ =>
  cases h₅ : nonNeg p.payoutMinCents "payoutMinCents" with
  | error e => rw [h₁, h₂, h₃, h₄, h₅] at h; cases h
  | ok _ =>
      rw [h₁, h₂, h₃, h₄, h₅] at h
      simp only [bind, Except.bind] at h
      split_ifs at h

theorem Config.NoNegative.reversalFunding_ne {c : Config} {t : Id} (h : c.NoNegative t) :
    (c.capturePolicy t).reversalFunding ≠ .allowNegative :=
  (c.capturePolicy_valid h.settlementPolicies t).reversalFunding_ne h.allowNegative

/-- A clawback takes at most what is there. -/
theorem fundReversal_le {funding : ReversalFundingPolicy} {gross available reserve : Int}
    {allocation : ClawbackAllocation} (h : fundReversal funding gross available reserve = .ok allocation)
    (hne : funding ≠ .allowNegative) : allocation.fromAvailable ≤ available ∧ allocation.fromReserve ≤ reserve := by
  unfold fundReversal at h
  split_ifs at h with hg ha hr
  cases funding with
  | allowNegative => exact absurd rfl hne
  | netFromAvailable => cases h; dsimp only; omega
  | debitReserve => cases h; dsimp only; omega
  | invoiceTenant => cases h; dsimp only; omega

/-! ## The condition -/

/-- A refund of the intent that passes the check of the code takes at most what is there. -/
def Db.RefundFunded (db : Db) (t intentId : Id) : Prop :=
  ∀ first rest, db.refundable t intentId = first :: rest →
    (((first :: rest).find? (·.account = .available)).map (·.amount)).getD 0 ≤
      db.accountBalance t .available first.currency →
    refundedSum db.movements t intentId .available ≤ db.accountBalance t .available first.currency

/-- What the operation takes from AVAILABLE of the tenant without comparing it with the balance is there. -/
def Operation.Funded (t : Id) (db : Db) : Operation → Prop
  | .settleCapture t' input => t' = t → 0 < input.amountCents →
      db.movements.any (·.isCaptureOf t input.intentId) = false →
      ∀ cp, capturePlan db.toConfig t input = .ok cp → cp.rule.isSome →
        cp.plan.feeCents + cp.plan.taxCents + cp.plan.reserveCents ≤
          db.accountBalance t .available input.captureCurrency + input.amountCents
  | .settleRefund t' input => t' = t → db.movements.any (·.isRefundOf t input.refundId) = false →
      db.RefundFunded t input.intentId
  | .refundRoute _ t' id => t' = t → db.RefundAccepted t id → db.RefundFunded t id
  | .debitWallet t' id amount method => t' = t → db.Drawable t id amount → ∀ wallet ∈ db.activeWallet t id,
      ∀ fee, db.debitFee t amount method = .ok fee → fee ≤ db.accountBalance t .available wallet.currency + amount
  | .refundWallet t' id amount => t' = t → ∀ wallet ∈ db.activeWallet t id,
      amount ≤ db.accountBalance t .available wallet.currency
  | .adjustWallet t' id amount => t' = t → ∀ wallet ∈ db.activeWallet t id,
      amount ≤ db.accountBalance t .available wallet.currency
  | .executeSplit t' input => t' = t → input.held.getD false = true →
      ∀ trigger shares result, db.splitRequest t input = some (trigger, shares) → trigger ≠ .atCapture →
        split input.sourceCents shares = .ok result →
        result.sharesCents ≤ db.accountBalance t .available (input.currency.getD .mad)
  | _ => True

/-! ## One operation -/

section Step

variable {t : Id} {db db' : Db} (h : ∀ c, 0 ≤ db.accountBalance t .available c)
include h

theorem available_captured {input : SettleCaptureInput} {cp : CapturePlan} {t' : Id} (hn : db.NoNegative t)
    (hf : (Operation.settleCapture t' input).Funded t db) (hc : Captured t' input cp db db') (c : Currency) :
    0 ≤ db'.accountBalance t .available c := by
  refine nonneg_of_movements hc.booked.movements (of_capture t' input cp) h (fun ht c => ?_) c
  subst ht
  rw [balance_capture hn.settlementPolicies hc.plan]
  simp only [hit, reduceCtorEq, false_and, ↓reduceIte, true_and, zero_add, sub_zero]
  split_ifs with hcur
  · subst hcur
    have hle := hf rfl hc.pos hc.fresh cp hc.plan
    have hb := h input.captureCurrency
    unfold CapturePlan.shortfall
    cases hrule : cp.rule with
    | none => simp only [Option.isSome_none, Bool.false_eq_true, ↓reduceIte]; omega
    | some rule =>
        have := hle (by rw [hrule]; rfl)
        simp only [Option.isSome_some, ↓reduceIte]; omega
  · simpa using h c

theorem available_reversed {t' intentId refundId : Id} {first : Movement} {rest : List Movement}
    (hf : t' = t → db.RefundFunded t intentId) (hr : Reversed t' intentId refundId first rest db db') (c : Currency) :
    0 ≤ db'.accountBalance t .available c := by
  refine nonneg_of_movements hr.movements (of_reversals t' refundId _ _) h (fun ht c => ?_) c
  subst ht
  rw [balance_refund _ _ _ hr.credits]
  simp only [hit, reduceCtorEq, false_and, ↓reduceIte, true_and, sub_zero, zero_sub]
  have hle := hf rfl first rest hr.credits hr.covered
  split_ifs with hcur
  · rw [← hcur]; omega
  · simpa using h c

theorem available_split {input : ExecuteSplitInput} {trigger : SplitTrigger} {shares : List ShareSpec}
    {result : SplitResult} {t' : Id} (hf : (Operation.executeSplit t' input).Funded t db)
    (hrule : db.splitRequest t' input = some (trigger, shares)) (hresult : split input.sourceCents shares = .ok result)
    (hs : SplitExecuted t' input trigger result db db') (c : Currency) : 0 ≤ db'.accountBalance t .available c := by
  obtain ⟨rows, hbooked, -⟩ := hs.shares
  obtain ⟨-, hnonneg, hplatform, -, -⟩ := split_spec hresult
  have hshares : 0 ≤ result.sharesCents := List.sum_nonneg (by simpa using hnonneg)
  refine nonneg_of_movements hbooked.movements (of_split t' _ _ _ _ _) h (fun ht c => ?_) c
  subst ht
  have hb := h c
  rw [balance_splitMovements _ _ _ _ _ _ _ hplatform]
  by_cases hcur : input.currency.getD .mad = c
  · cases trigger with
    | atCapture =>
        simp only [sourceAccountFor, hit, hcur, and_true, reduceCtorEq, ↓reduceIte]
        split_ifs <;> omega
    | onUsage =>
        cases hheld : input.held.getD false with
        | false => simp [sourceAccountFor, hit, hcur, hb]
        | true =>
            have hle := hf rfl hheld .onUsage shares result hrule (by decide) hresult
            rw [hcur] at hle
            simp only [sourceAccountFor, hit, hcur, and_true, reduceCtorEq, ↓reduceIte]
            omega
    | manual =>
        cases hheld : input.held.getD false with
        | false => simp [sourceAccountFor, hit, hcur, hb]
        | true =>
            have hle := hf rfl hheld .manual shares result hrule (by decide) hresult
            rw [hcur] at hle
            simp only [sourceAccountFor, hit, hcur, and_true, reduceCtorEq, ↓reduceIte]
            omega
  · simp [hit, hcur, hb]

/-- A debit that the balance covers. -/
theorem available_covered {currency : Currency} {amount : Int} (hle : amount ≤ db.accountBalance t .available currency)
    (c : Currency) : 0 ≤ db.accountBalance t .available c - hit .available currency .available c amount := by
  have hb := h c
  unfold hit
  split_ifs with hcur
  · rw [hcur.2] at hle; omega
  · omega

/-- A wallet operation, by what it does to AVAILABLE. -/
theorem available_wallet {t' id : Id} {ms : Wallet → List Movement} (hw : WalletBooked t' id ms db db')
    (hof : ∀ wallet, Of t' (ms wallet)) (hself : t' = t → ∀ wallet ∈ db.activeWallet t id, ∀ c,
      0 ≤ db.accountBalance t .available c + balance (ms wallet) t .available c) (c : Currency) :
    0 ≤ db'.accountBalance t .available c := by
  obtain ⟨wallet, hwallet, hb⟩ := hw.booked
  refine nonneg_of_movements hb.movements (hof wallet) h (fun ht => ?_) c
  subst ht
  exact hself rfl wallet hwallet

theorem available_lost {t' id : Id} {d : Dispute} {a : ClawbackAllocation} (hn : db.NoNegative t)
    (hd : DisputeLost t' id d a db db') (c : Currency) : 0 ≤ db'.accountBalance t .available c := by
  refine nonneg_of_movements hd.movements (of_clawback t' id d.currency a) h (fun ht c => ?_) c
  subst ht
  have hle := (fundReversal_le hd.funding hn.reversalFunding_ne).1
  have hcovered := available_covered h hle c
  rw [balance_clawback _ _ _ _ _ (fundReversal_covers hd.funding)]
  simp only [hit, reduceCtorEq, false_and, ↓reduceIte, true_and, sub_zero, zero_sub] at hcovered ⊢
  omega

theorem available_toppedUp {t' id : Id} {amount fee : Int}
    (hw : WalletBooked t' id (topUpMovements t' amount fee) db db') (c : Currency) :
    0 ≤ db'.accountBalance t .available c := by
  refine available_wallet h hw (of_topUp t' · amount fee) (fun ht wallet _ c => ?_) c
  subst ht
  rw [balance_topUp]
  simpa [hit] using h c

/-- The wallet pays the amount in before it pays the fee. -/
theorem available_debited {t' id : Id} {amount fee : Int} {method : Option String}
    (hf : (Operation.debitWallet t' id amount method).Funded t db) (hfee : db.debitFee t' amount method = .ok fee)
    (hdrawable : db.Drawable t' id amount) (hw : WalletBooked t' id (debitMovements t' amount fee) db db')
    (c : Currency) : 0 ≤ db'.accountBalance t .available c := by
  refine available_wallet h hw (of_debit t' · amount fee) (fun ht wallet hwallet c => ?_) c
  subst ht
  have hle := hf rfl hdrawable wallet hwallet fee hfee
  obtain ⟨-, -, hpos, -⟩ := hdrawable
  have hb := h c
  rw [balance_debit]
  simp only [hit, reduceCtorEq, false_and, ↓reduceIte, true_and, sub_zero, zero_sub]
  split_ifs with hcur
  · rw [hcur] at hle; omega
  · omega

/-- A refund or an adjustment takes the amount back. -/
theorem available_takenBack {t' id : Id} {amount : Int} {ms : Wallet → List Movement}
    (hf : t' = t → ∀ wallet ∈ db.activeWallet t id, amount ≤ db.accountBalance t .available wallet.currency)
    (hof : ∀ wallet, Of t' (ms wallet))
    (hms : ∀ wallet c, balance (ms wallet) t' .available c = - hit .available wallet.currency .available c amount)
    (hw : WalletBooked t' id ms db db') (c : Currency) : 0 ≤ db'.accountBalance t .available c := by
  refine available_wallet h hw hof (fun ht wallet hwallet c => ?_) c
  subst ht
  rw [hms]
  exact available_covered h (hf rfl wallet hwallet) c

theorem available_released {t' id : Id} {r : Split} (hs : SplitReleased t' id r db db') (c : Currency) :
    0 ≤ db'.accountBalance t .available c := by
  refine nonneg_of_movements hs.movements (of_posting t' _) h (fun ht c => ?_) c
  subst ht
  have hb := h c
  have hr := hs.nonneg
  rw [balance_release]
  simp only [hit, reduceCtorEq, false_and, ↓reduceIte, true_and, sub_zero]
  split_ifs <;> omega

theorem available_swept {t' : Id} (hs : Swept t' db db') (c : Currency) : 0 ≤ db'.accountBalance t .available c := by
  obtain ⟨ms, hm, hfx⟩ := hs.movements
  by_cases ht : t' = t
  · subst ht; exact hs.available c (h c)
  · exact nonneg_of_movements hm (fun m hmem => (hfx m hmem).tenantId) h (fun heq => absurd heq ht) c

theorem available_paid {t' : Id} {p : Payout} (hcovered : p.amount ≤ db.accountBalance t' .available p.currency)
    (hb : Booked (p.settlement.movements t') db db') (c : Currency) : 0 ≤ db'.accountBalance t .available c := by
  refine nonneg_of_movements hb.movements (of_posting t' _) h (fun ht c => ?_) c
  subst ht
  have hc := available_covered h hcovered c
  rw [balance_settlement]
  simp only [hit, reduceCtorEq, false_and, ↓reduceIte, zero_sub] at hc ⊢
  exact hc

end Step

/-- An operation that meets the condition leaves no negative balance. -/
theorem Change.available_kept {t : Id} {op : Operation} {db db' : Db} (hc : Change op db db') (hn : db.NoNegative t)
    (hf : op.Funded t db) (h : ∀ c, 0 ≤ db.accountBalance t .available c) (c : Currency) :
    0 ≤ db'.accountBalance t .available c := by
  cases hc with
  | same => exact h c
  | configured => exact h c
  | captured hcap => exact available_captured h hn hf hcap c
  | refunded hledger hr =>
      exact available_reversed h (fun ht => hf ht (ht ▸ hr.fresh)) ⟨hr.credits, hr.covered, hr.appends.movements_eq⟩ c
  | refundRequested hr =>
      rcases hr.movements with hsame | ⟨first, rest, hrev⟩
      · rw [Db.accountBalance_same hsame]; exact h c
      · exact available_reversed h (fun ht => hf ht (ht ▸ hr.accepted)) hrev c
  | disputeCreated hd => rw [Db.accountBalance_same hd.only.movements]; exact h c
  | disputeWon hd => rw [Db.accountBalance_same hd.only.movements]; exact h c
  | disputeLost hd => exact available_lost h hn hd c
  | walletCreated hb => rw [hb.balance_eq, balance_nil, add_zero]; exact h c
  | toppedUp hw => exact available_toppedUp h hw c
  | debited hfee hdrawable hw => exact available_debited h hf hfee hdrawable hw c
  | walletRefunded hw =>
      exact available_takenBack h hf (of_refundWallet _ · _) (fun wallet c => by rw [balance_refundWallet]; simp [hit])
        hw c
  | adjusted hw =>
      exact available_takenBack h hf (of_adjust _ · _) (fun wallet c => by rw [balance_adjust]; simp [hit]) hw c
  | splitExecuted hrule hresult hs => exact available_split h hf hrule hresult hs c
  | splitReleased hs => exact available_released h hs c
  | payoutCreated hs => exact available_swept h hs c
  | payoutCancelled hb => rw [hb.balance_eq, balance_nil, add_zero]; exact h c
  | payoutFailed hb => rw [hb.balance_eq, balance_nil, add_zero]; exact h c
  | payoutPaid hcovered hb => exact available_paid h hcovered hb c

/-! ## Runs -/

/-- AVAILABLE is never negative in a run where the unchecked debits are covered. -/
theorem available_nonneg (t : Id) {db : Db} (h : ReachedIf (fun op db => db.NoNegative t ∧ op.Funded t db) db)
    (c : Currency) : 0 ≤ db.accountBalance t .available c := by
  revert c
  refine h.change_invariant (P := fun db => ∀ c, 0 ≤ db.accountBalance t .available c) (fun config c => le_refl _) ?_
  intro op db db' hcond hb hc
  exact hc.available_kept hcond.1 hcond.2 hb

/-- A wallet that is loaded with 100.00, used for `used` and refunded 10.00. -/
def walletRun (used : Int) : List Operation :=
  [.createWallet 1 .customer "customer" none, .topUpWallet 1 0 10000 none, .debitWallet 1 0 used none,
    .refundWallet 1 0 1000]

/-- The refund takes 10.00 out of the 50.00 that were used. -/
theorem available_nonneg_walletRun :
    0 ≤ (execute (walletRun 5000) (.empty plainConfig) .counting).1.accountBalance 1 .available .mad := by
  refine available_nonneg 1 ((ReachedIf.init plainConfig).execute (walletRun 5000) .counting ?_) .mad
  refine ⟨⟨by decide, trivial⟩, ⟨by decide, trivial⟩, ⟨by decide, ?_⟩, ⟨by decide, ?_⟩, trivial⟩
  · rintro - - wallet hwallet fee hfee
    obtain rfl : (0 : Int) = fee := by cases hfee; rfl
    obtain rfl := Option.some.inj hwallet
    decide
  · rintro - wallet hwallet
    obtain rfl := Option.some.inj hwallet
    decide

/-- Without use the refund makes AVAILABLE negative. -/
theorem not_available_nonneg : ¬ ∀ (t : Id) (db : Db), ReachedIf (fun _ db => db.NoNegative t) db →
    ∀ c, 0 ≤ db.accountBalance t .available c := by
  intro h
  have hrun := h 1 _ ((ReachedIf.init plainConfig).execute (walletRun 0) .counting
    ⟨by decide, by decide, by decide, by decide, trivial⟩) .mad
  exact absurd hrun (by decide)

end CorpoPay.Settlement
