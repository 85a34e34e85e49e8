import CorpoPay.Settlement.Lemmas.ChangeBalance

/-!
# RESERVE covers the held splits

RESERVE holds the tenant's own reserve and what is held for beneficiaries. A clawback and a refund take from it without
looking at what is held. When they leave that much, every pending split can be released.
-/

namespace CorpoPay.Settlement

/-! ## What is held -/

def Split.isHeld (r : Split) (t : Id) (c : Currency) : Bool :=
  r.tenantId = t ∧ r.currency = c ∧ r.status = .pending

def escrowOf (rows : List Split) (t : Id) (c : Currency) : Int :=
  ((rows.filter (·.isHeld t c)).map (·.amount)).sum

/-- What is held for the beneficiaries of a tenant. -/
def Db.escrow (db : Db) (t : Id) (c : Currency) : Int := escrowOf db.splits t c

/-- RESERVE covers what is held, and held amounts are not negative. -/
structure Db.Escrowed (db : Db) (t : Id) : Prop where
  splitIds : db.splitIds.Nodup
  nonneg : ∀ r ∈ db.splits, r.status = .pending → 0 ≤ r.amount
  covered : ∀ c, db.escrow t c ≤ db.accountBalance t .reserve c

section Sums

variable (rows rows' : List Split) (t : Id) (c : Currency)

theorem escrowOf_append : escrowOf (rows ++ rows') t c = escrowOf rows t c + escrowOf rows' t c := by
  simp [escrowOf]

theorem escrowOf_eq_zero (h : ∀ r ∈ rows, r.isHeld t c = false) : escrowOf rows t c = 0 := by
  have hnil : rows.filter (·.isHeld t c) = [] := List.filter_eq_nil_iff.mpr fun r hr => by simp [h r hr]
  rw [escrowOf, hnil]; rfl

theorem escrowOf_settled (h : ∀ r ∈ rows, r.status = .settled) : escrowOf rows t c = 0 :=
  escrowOf_eq_zero rows t c fun r hr => by simp [Split.isHeld, h r hr]

/-- The rows of a held split. -/
theorem escrowOf_shares {currency : Currency} {t' : Id} {status : SplitStatus} (shares : List ShareAllocation)
    (h : rows.map (·.share) = shares.map fun a => (t', currency, status, a.amountCents)) :
    escrowOf rows t c =
      if t' = t ∧ currency = c ∧ status = .pending then (shares.map (·.amountCents)).sum else 0 := by
  induction shares generalizing rows with
  | nil =>
      obtain rfl : rows = [] := by simpa using h
      simp [escrowOf]
  | cons a shares ih =>
      obtain ⟨r, rows, rfl⟩ : ∃ r rest, rows = r :: rest := by
        cases rows with
        | nil => simp at h
        | cons r rest => exact ⟨r, rest, rfl⟩
      simp only [List.map_cons, List.cons.injEq, Split.share, Prod.mk.injEq] at h
      obtain ⟨⟨rfl, rfl, rfl, hamount⟩, hrest⟩ := h
      have hrows := ih rows hrest
      by_cases hheld : r.tenantId = t ∧ r.currency = c ∧ r.status = .pending
      · rw [if_pos hheld] at hrows ⊢
        have : escrowOf (r :: rows) t c = r.amount + escrowOf rows t c := by
          simp [escrowOf, Split.isHeld, hheld]
        rw [this, hrows, hamount]; simp
      · rw [if_neg hheld] at hrows ⊢
        have : escrowOf (r :: rows) t c = escrowOf rows t c := by
          have hnot : r.isHeld t c = false := by simpa [Split.isHeld] using hheld
          simp [escrowOf, hnot]
        rw [this, hrows]

end Sums

theorem escrowOf_eq (rows : List Split) (t : Id) (c : Currency) :
    escrowOf rows t c = (rows.map fun r => if r.isHeld t c then r.amount else 0).sum := by
  rw [escrowOf, ← Data.sum_filter]
  simp

/-- A release takes the amount of its split out of what is held. -/
theorem escrow_settleSplit {db : Db} (hids : (db.splits.map (·.id)).Nodup) {r : Split} (hr : r ∈ db.splits)
    (hpending : r.status = .pending) (t : Id) (c : Currency) :
    escrowOf (db.settleSplit r.id) t c = db.escrow t c - if r.tenantId = t ∧ r.currency = c then r.amount else 0 := by
  have hsum := Data.sum_update hids hr (fun s => if s.isHeld t c then s.amount else 0)
    fun s => { s with status := .settled, heldUntil := none }
  have hset : ({ r with status := .settled, heldUntil := none } : Split).isHeld t c = false := by simp [Split.isHeld]
  rw [Db.escrow, escrowOf_eq, escrowOf_eq, Db.settleSplit, hsum, hset]
  by_cases h : r.tenantId = t ∧ r.currency = c
  · have hheld : r.isHeld t c = true := by simp [Split.isHeld, h, hpending]
    simp [hheld, h]; ring
  · have hheld : r.isHeld t c = false := by simp only [Split.isHeld, decide_eq_false_iff_not]; tauto
    simp [hheld, h]

/-! ## The condition -/

/-- A refund of the intent that passes the check of the code leaves what is held. -/
def Db.RefundLeavesEscrow (db : Db) (t intentId : Id) : Prop :=
  ∀ first rest, db.refundable t intentId = first :: rest →
    (((first :: rest).find? (·.account = .available)).map (·.amount)).getD 0 ≤
      db.accountBalance t .available first.currency →
    refundedSum db.movements t intentId .reserve ≤
      db.accountBalance t .reserve first.currency - db.escrow t first.currency

/-- What a clawback or a refund takes from RESERVE of the tenant is not held for a beneficiary. -/
def Operation.LeavesEscrow (t : Id) (db : Db) : Operation → Prop
  | .resolveDispute t' id .lost => t' = t → (db.capturePolicy t).reversalFunding = .debitReserve →
      ∀ d ∈ db.dispute t id, d.status = .open →
        min d.amount (db.accountBalance t .reserve d.currency) ≤
          db.accountBalance t .reserve d.currency - db.escrow t d.currency
  | .settleRefund t' input => t' = t → db.movements.any (·.isRefundOf t input.refundId) = false →
      db.RefundLeavesEscrow t input.intentId
  | .refundRoute _ t' id => t' = t → db.RefundAccepted t id → db.RefundLeavesEscrow t id
  | _ => True

/-- Only the funding from RESERVE takes from it. -/
theorem fundReversal_fromReserve {funding : ReversalFundingPolicy} {gross available reserve : Int}
    {allocation : ClawbackAllocation} (h : fundReversal funding gross available reserve = .ok allocation) :
    (funding = .debitReserve ∧ allocation.fromReserve = min gross reserve) ∨ allocation.fromReserve = 0 := by
  unfold fundReversal at h
  split_ifs at h
  cases funding with
  | debitReserve => cases h; exact .inl ⟨rfl, rfl⟩
  | netFromAvailable => cases h; exact .inr rfl
  | invoiceTenant => cases h; exact .inr rfl
  | allowNegative => cases h; exact .inr rfl

/-! ## One operation -/

section Step

variable {t : Id} {db db' : Db} (h : db.Escrowed t)
include h

/-- RESERVE does not fall and nothing new is held. -/
theorem Db.Escrowed.of_settled {ms : List Movement} {rows : List Split} (hm : db'.movements = db.movements ++ ms)
    (hs : db'.splits = db.splits ++ rows) (hset : ∀ r ∈ rows, r.status = .settled) (hids : db'.splitIds.Nodup)
    (hreserve : ∀ c, db.escrow t c ≤ db.accountBalance t .reserve c + balance ms t .reserve c) : db'.Escrowed t where
  splitIds := hids
  nonneg := by
    intro r hr hpending
    rw [hs] at hr
    rcases List.mem_append.mp hr with hr | hr
    · exact h.nonneg r hr hpending
    · rw [hset r hr] at hpending; cases hpending
  covered := by
    intro c
    rw [Db.escrow, hs, escrowOf_append, escrowOf_settled rows t c hset, add_zero, Db.accountBalance_append hm]
    exact hreserve c

theorem Db.Escrowed.same {ms : List Movement} (hm : db'.movements = db.movements ++ ms) (hs : db'.splits = db.splits)
    (hreserve : ∀ c, db.escrow t c ≤ db.accountBalance t .reserve c + balance ms t .reserve c) : db'.Escrowed t := by
  have hnone : db'.splits = db.splits ++ [] := by rw [hs, List.append_nil]
  exact h.of_settled hm hnone (by simp) (by rw [Db.splitIds, hs]; exact h.splitIds) hreserve

/-- An operation that books movements which do not debit RESERVE of the tenant. -/
theorem Db.Escrowed.booked {ms : List Movement} (hb : Booked ms db db') (hreserve : ∀ c, 0 ≤ balance ms t .reserve c) :
    db'.Escrowed t := by
  obtain ⟨rows, hs, hset⟩ := hb.aside.splits
  refine h.of_settled hb.movements hs hset (hb.aside.splitIds h.splitIds) fun c => ?_
  have := h.covered c
  have := hreserve c
  omega

theorem escrowed_reversed {t' intentId refundId : Id} {first : Movement} {rest : List Movement}
    (hf : t' = t → db.RefundLeavesEscrow t intentId) (hr : Reversed t' intentId refundId first rest db db')
    (hs : db'.splits = db.splits) : db'.Escrowed t := by
  refine h.same hr.movements hs fun c => ?_
  have hc := h.covered c
  by_cases ht : t' = t
  · subst ht
    have hle := hf rfl first rest hr.credits hr.covered
    rw [balance_refund _ _ _ hr.credits]
    simp only [hit, reduceCtorEq, false_and, ↓reduceIte, true_and, sub_zero, zero_sub]
    split_ifs with hcur
    · rw [hcur] at hle; omega
    · omega
  · rw [(of_reversals t' refundId _ _).balance_eq_zero ht]; omega

theorem escrowed_split {input : ExecuteSplitInput} {trigger : SplitTrigger} {shares : List ShareSpec}
    {result : SplitResult} {t' : Id} (hresult : split input.sourceCents shares = .ok result)
    (hs : SplitExecuted t' input trigger result db db') : db'.Escrowed t := by
  obtain ⟨rows, hbooked, hrows⟩ := hs.shares
  obtain ⟨-, hnonneg, hplatform, -, -⟩ := split_spec hresult
  have hshares : 0 ≤ result.sharesCents := List.sum_nonneg (by simpa using hnonneg)
  refine ⟨hbooked.splitIds h.splitIds, fun r hr hpending => ?_, fun c => ?_⟩
  · rw [hbooked.splits] at hr
    rcases List.mem_append.mp hr with hr | hr
    · exact h.nonneg r hr hpending
    · have hmem : r.share ∈ result.shares.map fun a => (t', input.currency.getD .mad, input.status, a.amountCents) :=
        hrows ▸ List.mem_map_of_mem hr
      obtain ⟨a, ha, heq⟩ := List.mem_map.mp hmem
      have : r.amount = a.amountCents := by
        simp only [Split.share, Prod.mk.injEq] at heq
        exact heq.2.2.2.symm
      rw [this]; exact hnonneg a ha
  · have hc := h.covered c
    rw [Db.escrow] at hc ⊢
    rw [hbooked.splits, escrowOf_append, escrowOf_shares rows t c result.shares hrows,
      Db.accountBalance_append hbooked.movements]
    by_cases ht : t' = t
    · subst ht
      rw [balance_splitMovements _ _ _ _ _ _ _ hplatform]
      have hsrc : ∀ n, hit (sourceAccountFor trigger) (input.currency.getD .mad) .reserve c n = 0 := by
        intro n; cases trigger <;> simp [hit, sourceAccountFor]
      rw [hsrc]
      unfold ExecuteSplitInput.status
      cases input.held.getD false with
      | true =>
          simp only [hit, reduceCtorEq, false_and, true_and, ↓reduceIte, and_true, sub_zero, ite_self, add_zero]
          split_ifs <;> simp only [SplitResult.sharesCents] at * <;> omega
      | false => simp [hit]; omega
    · rw [(of_split t' _ _ _ _ _).balance_eq_zero ht]
      simp only [ht, false_and, ↓reduceIte]; omega

/-- Movements of any tenant, when those of `t` do not debit RESERVE. -/
theorem Db.Escrowed.booked_of {t' : Id} {ms : List Movement} (hb : Booked ms db db') (hof : Of t' ms)
    (hself : t' = t → ∀ c, 0 ≤ balance ms t .reserve c) : db'.Escrowed t := by
  refine h.booked hb fun c => ?_
  by_cases ht : t' = t
  · exact hself ht c
  · rw [hof.balance_eq_zero ht]

/-- Wallets have nothing to do with RESERVE. -/
theorem escrowed_wallet {t' id : Id} {ms : Wallet → List Movement} (hw : WalletBooked t' id ms db db')
    (hof : ∀ wallet, Of t' (ms wallet)) (hreserve : ∀ wallet c, balance (ms wallet) t' .reserve c = 0) :
    db'.Escrowed t := by
  obtain ⟨wallet, -, hb⟩ := hw.booked
  refine h.booked_of hb (hof wallet) fun ht c => ?_
  subst ht
  rw [hreserve]

theorem escrowed_captured {t' : Id} {input : SettleCaptureInput} {cp : CapturePlan}
    (hc : Captured t' input cp db db') : db'.Escrowed t := by
  refine h.booked_of hc.booked (of_capture t' input cp) fun ht c => ?_
  subst ht
  rw [balance_capture_any hc.plan]
  simp only [hit, reduceCtorEq, false_and, ↓reduceIte, true_and]
  split_ifs <;> omega

theorem escrowed_lost {t' id : Id} {d : Dispute} {a : ClawbackAllocation}
    (hf : (Operation.resolveDispute t' id .lost).LeavesEscrow t db) (hd : DisputeLost t' id d a db db') :
    db'.Escrowed t := by
  refine h.same hd.movements hd.splits fun c => ?_
  have hcov := h.covered c
  by_cases ht : t' = t
  · subst ht
    rw [balance_clawback _ _ _ _ _ (fundReversal_covers hd.funding)]
    simp only [hit, reduceCtorEq, false_and, ↓reduceIte, true_and, sub_zero, zero_sub]
    split_ifs with hcur
    · rcases fundReversal_fromReserve hd.funding with ⟨hfunding, hmin⟩ | hzero
      · have hle := hf rfl hfunding d hd.found hd.status
        rw [hcur] at hle hmin; omega
      · omega
    · omega
  · rw [(of_clawback t' id d.currency a).balance_eq_zero ht]; omega

/-- A release takes from RESERVE what it held for its split. -/
theorem escrowed_released {t' id : Id} {r : Split} (hs : SplitReleased t' id r db db') : db'.Escrowed t := by
  obtain rfl := hs.id_eq
  have hids : db'.splitIds = db.splitIds := by rw [Db.splitIds, hs.splits, splitIds_settleSplit]
  refine ⟨by rw [hids]; exact h.splitIds, fun s hmem hpending => ?_, fun c => ?_⟩
  · rw [hs.splits, Db.settleSplit] at hmem
    obtain ⟨s', hs', rfl⟩ := List.mem_map.mp hmem
    split_ifs at hpending with hid
    rw [if_neg hid]
    exact h.nonneg s' hs' hpending
  · have hcov := h.covered c
    rw [Db.escrow, hs.splits, escrow_settleSplit h.splitIds hs.mem hs.pending,
      Db.accountBalance_append hs.movements]
    by_cases ht : t' = t
    · subst ht
      rw [balance_release]
      simp only [hs.tenantId, hit, reduceCtorEq, false_and, ↓reduceIte, true_and, zero_sub]
      split_ifs <;> omega
    · rw [(of_posting t' _).balance_eq_zero ht, if_neg fun hr => ht (hs.tenantId.symm.trans hr.1)]
      omega

theorem escrowed_swept {t' : Id} (hs : Swept t' db db') : db'.Escrowed t := by
  obtain ⟨ms, hm, hfx⟩ := hs.movements
  refine h.booked ⟨hm, hs.aside⟩ fun c => ?_
  rw [balance_fx t .reserve c hfx (by decide) (by decide) (by decide)]

end Step

/-- An operation that meets the condition leaves RESERVE above what is held. -/
theorem Change.escrowed {t : Id} {op : Operation} {db db' : Db} (hc : Change op db db') (hf : op.LeavesEscrow t db)
    (h : db.Escrowed t) : db'.Escrowed t := by
  have hunposted : db'.movements = db.movements → db'.splits = db.splits → db'.Escrowed t := fun hm hs => by
    have hnone : db'.movements = db.movements ++ [] := by rw [hm, List.append_nil]
    exact h.same hnone hs fun c => by simpa using h.covered c
  cases hc with
  | same => exact h
  | configured => exact ⟨h.splitIds, h.nonneg, h.covered⟩
  | captured hcap => exact escrowed_captured h hcap
  | refunded hledger hr =>
      refine escrowed_reversed h (fun ht => hf ht (ht ▸ hr.fresh)) ⟨hr.credits, hr.covered, hr.appends.movements_eq⟩ ?_
      rw [hledger]
  | refundRequested hr =>
      rcases hr.movements with hsame | ⟨first, rest, hrev⟩
      · exact hunposted hsame hr.splits
      · exact escrowed_reversed h (fun ht => hf ht (ht ▸ hr.accepted)) hrev hr.splits
  | disputeCreated hd => exact hunposted hd.only.movements hd.only.splits
  | disputeWon hd => exact hunposted hd.only.movements hd.only.splits
  | disputeLost hd => exact escrowed_lost h hf hd
  | walletCreated hb => exact h.booked hb fun c => le_refl _
  | toppedUp hw => exact escrowed_wallet h hw (of_topUp _ · _ _) fun wallet c => by rw [balance_topUp]; simp [hit]
  | debited _ _ hw => exact escrowed_wallet h hw (of_debit _ · _ _) fun wallet c => by rw [balance_debit]; simp [hit]
  | walletRefunded hw =>
      exact escrowed_wallet h hw (of_refundWallet _ · _) fun wallet c => by rw [balance_refundWallet]; simp [hit]
  | adjusted hw => exact escrowed_wallet h hw (of_adjust _ · _) fun wallet c => by rw [balance_adjust]; simp [hit]
  | splitExecuted hrule hresult hs => exact escrowed_split h hresult hs
  | splitReleased hs => exact escrowed_released h hs
  | payoutCreated hs => exact escrowed_swept h hs
  | payoutCancelled hb => exact h.booked hb fun c => le_refl _
  | payoutFailed hb => exact h.booked hb fun c => le_refl _
  | payoutPaid _ hb =>
      refine h.booked_of hb (of_posting _ _) fun ht c => ?_
      subst ht
      rw [balance_settlement]; simp [hit]

/-! ## Runs -/

theorem escrowed_empty (config : Config) (t : Id) : (Db.empty config).Escrowed t where
  splitIds := List.nodup_nil
  nonneg := by simp [Db.empty]
  covered := fun _ => le_refl _

theorem escrowed_reached {t : Id} {db : Db} (h : ReachedIf (fun op db => op.LeavesEscrow t db) db) : db.Escrowed t :=
  h.change_invariant (escrowed_empty · t) fun _ _ _ hcond hp hc => hc.escrowed hcond hp

/-- In a run where clawbacks and refunds leave what is held, RESERVE covers the pending splits together and one by one. -/
theorem reserve_covers_pending (t : Id) {db : Db} (h : ReachedIf (fun op db => op.LeavesEscrow t db) db) :
    (∀ c, db.escrow t c ≤ db.accountBalance t .reserve c) ∧
      ∀ r ∈ db.splits, r.tenantId = t → r.status = .pending → r.amount ≤ db.accountBalance t .reserve r.currency := by
  have he := escrowed_reached h
  refine ⟨he.covered, fun r hr htenant hpending => le_trans ?_ (he.covered r.currency)⟩
  refine List.single_le_sum (fun n hn => ?_) _ (List.mem_map.mpr ⟨r, List.mem_filter.mpr ⟨hr, ?_⟩, rfl⟩)
  · obtain ⟨s, hs, rfl⟩ := List.mem_map.mp hn
    obtain ⟨hs, hheld⟩ := List.mem_filter.mp hs
    exact he.nonneg s hs (of_decide_eq_true hheld).2.2
  · simp [Split.isHeld, htenant, hpending]

/-- A tenant with a reserve of 5.00 for each capture, which also funds reversals. -/
def reserveConfig : Config :=
  { plainConfig with
    settlementPolicies := [{
      industry := none, mcc := none, availabilityMode := .immediate, availabilityDelayDays := none,
      reserveType := .fixed, reservePercentageBps := none, reserveHoldDays := none, reserveFixedCents := some 500,
      payoutSchedule := .manual, payoutMinCents := none, reversalFunding := .debitReserve, allowNegative := false,
      splittingEnabled := false, payoutRail := .manual, id := 1, tenantId := 1, version := 1, isActive := true }]
    splitParties := [{ id := 5, tenantId := 1 }] }

/-- 4.00 of a capture of 10.00 are held, and a dispute over it is lost. -/
def heldRun (disputed : Int) : List Operation :=
  [.settleCapture 1 plainCapture,
    .executeSplit 1
      { sourceType := .other "order", sourceId := 7, sourceCents := 400, currency := none, splitRuleId := none,
        trigger := some .manual, shares := some [{ partyId := 5, shareBps := 10000 }], held := some true,
        heldUntil := none },
    .createDispute 1
      { providerDisputeId := "dp", provider := .stripe, amountCents := disputed, feeCents := none, currency := none,
        reason := none, paymentIntentId := some 7, evidenceDueDate := none },
    .resolveDispute 1 21 .lost]

/-- A dispute over 3.00 leaves 6.00, of which 4.00 are held. -/
theorem reserve_covers_pending_heldRun :
    (execute (heldRun 300) (.empty reserveConfig) .counting).1.escrow 1 .mad ≤
      (execute (heldRun 300) (.empty reserveConfig) .counting).1.accountBalance 1 .reserve .mad := by
  refine (reserve_covers_pending 1 ((ReachedIf.init reserveConfig).execute (heldRun 300) .counting ?_)).1 .mad
  refine ⟨trivial, trivial, trivial, ?_, trivial⟩
  intro _ _ d hd _
  obtain rfl := Option.some.inj hd
  decide

/-- A dispute over 7.00 leaves 2.00 for the 4.00 that are held. -/
theorem not_reserve_covers_pending : ¬ ∀ (t : Id) (db : Db), Reached db →
    ∀ c, db.escrow t c ≤ db.accountBalance t .reserve c := by
  intro h
  have hrun := h 1 _ ((Reached.init reserveConfig).execute (heldRun 700) .counting) .mad
  exact absurd hrun (by decide)

end CorpoPay.Settlement
