import CorpoPay.Settlement.Lemmas.Change
import CorpoPay.Settlement.Lemmas.FreshIds

/-!
# Lost disputes that can be resolved

The funding of a reversal refuses negative balances, and `ALLOW_NEGATIVE` makes them. An open dispute can be lost exactly
when AVAILABLE and RESERVE are not negative.
-/

namespace CorpoPay.Settlement

open Transaction.Tx

/-! ## Disputes of a run -/

/-- A recovery belongs to a lost dispute, and disputes have unique ids. -/
structure Db.DisputesSound (db : Db) : Prop where
  ids : (db.disputes.map (·.id)).Nodup
  recoveries : ∀ r ∈ db.recoveries, ∃ d ∈ db.disputes, d.id = r.disputeId ∧ d.status = .lost

section Step

variable {db db' : Db} (h : db.DisputesSound)
include h

theorem Db.DisputesSound.same (hd : db'.disputes = db.disputes) (hr : db'.recoveries = db.recoveries) :
    db'.DisputesSound := ⟨by rw [hd]; exact h.ids, by rw [hd, hr]; exact h.recoveries⟩

theorem Db.DisputesSound.created {t : Id} {input : CreateDisputeInput} {d : Dispute} (hc : DisputeCreated t input d db db') :
    db'.DisputesSound := by
  refine ⟨?_, fun r hr => ?_⟩
  · rw [hc.disputes, List.map_append, List.map_singleton]
    exact List.nodup_append.mpr ⟨h.ids, by simp, by simpa using hc.fresh⟩
  · rw [hc.only.recoveries] at hr
    obtain ⟨d', hd', hlost⟩ := h.recoveries r hr
    exact ⟨d', by rw [hc.disputes]; exact List.mem_append_left _ hd', hlost⟩

/-- The status of the open dispute `d` is set, and recoveries are added when it is lost. -/
theorem Db.DisputesSound.resolved {t id : Id} {d : Dispute} {status : DisputeStatus} (hfound : db.dispute t id = some d)
    (hopen : d.status = .open) (hd : db'.disputes = (db.updateDispute id fun d => { d with status }).disputes)
    {rows : List Recovery} (hr : db'.recoveries = db.recoveries ++ rows)
    (hrows : ∀ r ∈ rows, r.disputeId = id ∧ status = .lost) : db'.DisputesSound := by
  have hmem : d ∈ db.disputes := List.mem_of_find?_eq_some hfound
  obtain ⟨hid, -⟩ : d.id = id ∧ d.tenantId = t := by simpa using List.find?_some hfound
  refine ⟨?_, fun r hmemr => ?_⟩
  · have hids : (db.updateDispute id fun d => { d with status }).disputes.map (·.id) = db.disputes.map (·.id) := by
      rw [Db.updateDispute, List.map_map]
      refine List.map_congr_left fun r _ => ?_
      dsimp only [Function.comp_apply]
      split_ifs <;> rfl
    rw [hd, hids]
    exact h.ids
  · rw [hd, Db.updateDispute]
    rw [hr] at hmemr
    rcases List.mem_append.mp hmemr with hold | hnew
    · obtain ⟨d', hd', hrid, hlost⟩ := h.recoveries r hold
      have hne : d'.id ≠ id := by
        intro heq
        obtain rfl : d' = d := List.inj_on_of_nodup_map h.ids hd' hmem (heq.trans hid.symm)
        rw [hopen] at hlost
        cases hlost
      exact ⟨d', List.mem_map.mpr ⟨d', hd', if_neg hne⟩, hrid, hlost⟩
    · obtain ⟨hrid, hlost⟩ := hrows r hnew
      exact ⟨{ d with status }, List.mem_map.mpr ⟨d, hmem, if_pos hid⟩, hid.trans hrid.symm, hlost⟩

end Step

theorem Change.disputesSound {op : Operation} {db db' : Db} (hc : Change op db db') (h : db.DisputesSound) :
    db'.DisputesSound := by
  have hbooked : ∀ {ms}, Booked ms db db' → db'.DisputesSound := fun hb => h.same hb.aside.disputes hb.aside.recoveries
  cases hc with
  | same => exact h
  | configured => exact ⟨h.ids, h.recoveries⟩
  | captured hcap => exact hbooked hcap.booked
  | refunded hledger _ => exact h.same (by rw [hledger]) (by rw [hledger])
  | refundRequested hr => exact h.same hr.disputes hr.recoveries
  | disputeCreated hd => exact h.created hd
  | disputeWon hd =>
      exact h.resolved hd.found hd.status hd.disputes (hd.only.recoveries.trans (List.append_nil _).symm) (by simp)
  | disputeLost hd =>
      obtain ⟨rows, hrows, hdata⟩ := hd.recoveries
      refine h.resolved hd.found hd.status hd.disputes hrows fun r hr => ⟨?_, rfl⟩
      have hrow := List.mem_map_of_mem (f := fun r : Recovery => (r.tenantId, r.disputeId, r.currency, r.amount)) hr
      rw [hdata] at hrow
      split_ifs at hrow
      · simpa using congrArg (·.2.1) (List.mem_singleton.mp hrow)
      · cases hrow
  | walletCreated hb => exact hbooked hb
  | toppedUp hw | walletRefunded hw | adjusted hw => obtain ⟨_, _, hb⟩ := hw.booked; exact hbooked hb
  | debited _ _ hw => obtain ⟨_, _, hb⟩ := hw.booked; exact hbooked hb
  | splitExecuted _ _ hs => obtain ⟨_, hb, _⟩ := hs.shares; exact h.same hb.disputes hb.recoveries
  | splitReleased hs => exact h.same hs.disputes hs.recoveries
  | payoutCreated hs => exact h.same hs.aside.disputes hs.aside.recoveries
  | payoutCancelled hb => exact hbooked hb
  | payoutFailed hb => exact hbooked hb
  | payoutPaid _ hb => exact hbooked hb

theorem Reached.disputesSound {db : Db} (h : Reached db) : db.DisputesSound :=
  h.invariant (fun config => ⟨by simp [Db.empty], by simp [Db.empty]⟩) fun op db hdb =>
    (op.change db).mono fun _ _ hc => hc.disputesSound hdb

/-! ## A loss that goes through -/

/-- No id that is still to be generated is one of the ledger or of a recovery. -/
structure FreshRecoveries (db : Db) (w : World) : Prop extends FreshEntries db w where
  recoveries : ∀ n, w.clock ≤ n → ∀ r ∈ db.recoveries, r.id ≠ w.oracle n .freshId

/-- The legs and the recovery of a loss make up the amount of the dispute. -/
structure LossBooked (t id : Id) (d : Dispute) (db db' : Db) : Prop where
  booked : ∃ a : ClawbackAllocation, a.Covers d.amount ∧
    db'.movements = db.movements ++ clawbackMovements t id d.currency a ∧
    db'.recoveryAmounts id = if 0 < a.uncovered then [a.uncovered] else []

section Loss

variable {t id : Id} {db : Db} {w : World} {d : Dispute}

/-- The funding refuses negative numbers and nothing else. -/
theorem fundReversal_ok_iff {funding : ReversalFundingPolicy} {gross available reserve : Int} :
    (∃ a, fundReversal funding gross available reserve = .ok a) ↔ 0 ≤ gross ∧ 0 ≤ available ∧ 0 ≤ reserve := by
  unfold fundReversal
  split_ifs with hgross havailable hreserve
  · simp [not_le.mpr hgross]
  · simp [not_le.mpr havailable]
  · simp [not_le.mpr hreserve]
  · refine iff_of_true ?_ ⟨not_lt.mp hgross, not_lt.mp havailable, not_lt.mp hreserve⟩
    cases funding <;> exact ⟨_, rfl⟩

theorem succeeds_postPositive {amount : Int} {category : LedgerCategory} {src dst : LedgerAccount} {currency : Currency}
    {source : Meta} (h : FreshEntries db w) (hne : src ≠ dst) :
    (postPositive t amount (debit src amount category none currency) (credit dst amount category none currency)
      source).Succeeds (fun _ => Posted db w) db w := by
  have hsame : Posted db w db w := ⟨h, refl_of OnlyLedger db, .refl w⟩
  refine (succeeds_when _ _).mpr ⟨fun hpos => ?_, fun _ => hsame⟩
  exact succeeds_post h ⟨rfl, rfl, rfl, rfl, hpos.le, fun hd => hne hd.1⟩ ⟨db.hasParty_none, db.hasParty_none⟩

theorem succeeds_executeClawback {currency : Currency} {a : ClawbackAllocation} (hfresh : FreshRecoveries db w)
    (hmem : d ∈ db.disputes) (hid : d.id = id) (hnone : ∀ r ∈ db.recoveries, r.disputeId ≠ id) :
    (executeClawback t id currency a).Succeeds (fun _ _ _ => True) db w := by
  simp only [executeClawback, bind_eq, pure_eq, succeeds_bind]
  refine (succeeds_postPositive hfresh.toFreshEntries (by decide)).mono fun _ db₁ w₁ h₁ => ?_
  refine (succeeds_postPositive h₁.1 (by decide)).mono fun _ db₂ w₂ h₂ => ?_
  obtain ⟨-, honly, hbefore⟩ := h₁.trans h₂
  have hfind : ∃ row, db₂.disputes.find? (·.id = id) = some row := by
    rw [honly]
    exact Option.isSome_iff_exists.mp (List.find?_isSome.mpr ⟨d, hmem, decide_eq_true hid⟩)
  obtain ⟨row, hrow⟩ := hfind
  simp only [Dispute.update, bind_eq, pure_eq, succeeds_bind, succeeds_acquire, succeeds_get, hrow, succeeds_modify,
    succeeds_ret]
  split_ifs
  · simp only [Recovery.create, bind_eq, pure_eq, succeeds_bind, succeeds_freshId, succeeds_acquire, succeeds_get]
    rw [if_neg]
    · trivial
    · intro htaken
      obtain ⟨r, hr, heq⟩ := List.any_eq_true.mp htaken
      have hold : r ∈ db.recoveries := by rw [honly] at hr; exact hr
      rcases of_decide_eq_true heq with heq | heq
      · refine hfresh.recoveries w₂.clock hbefore.clock r hold ?_
        rw [← hbefore.oracle]
        exact heq
      · exact hnone r hold heq
  · trivial

theorem checkDispute_open (hfound : db.dispute t id = some d) (hopen : d.status = .open) :
    checkDispute (db.dispute t id) .lost = .ok d := by
  rw [hfound]
  simp [checkDispute, hopen, DisputeStatus.assertTransition, DisputeStatus.TRANSITIONS, Bind.bind, Except.bind]

theorem resolveLost_eq (hfound : db.dispute t id = some d) (hopen : d.status = .open) :
    (resolveDispute t id .lost).run db w =
      match fundReversal (db.capturePolicy t).reversalFunding d.amount (db.accountBalance t .available d.currency)
        (db.accountBalance t .reserve d.currency) with
      | .error e => (.error e, db, w)
      | .ok a => (transaction (do
          let current ← select fun db : Db => db.dispute t id
          let _ ← lift (checkDispute current .lost)
          executeClawback t id d.currency a : Tx _)).run db w := by
  have hcheck := checkDispute_open hfound hopen
  have hpolicy : ((db.activeSettlementPolicy t).map (·.reversalFunding)).getD DEFAULT_PRESET.reversalFunding =
      (db.capturePolicy t).reversalFunding := by
    unfold Config.capturePolicy
    cases db.activeSettlementPolicy t <;> rfl
  simp only [resolveDispute, getTenantLedger, Transaction.Job.bind_eq, Transaction.Job.pure_eq,
    Transaction.Job.run_bind, Transaction.Job.run_get, hcheck, Transaction.Job.ofExcept, Transaction.Job.run, hpolicy,
    Db.ledgerView_balance, ← Db.accountBalance_eq]
  cases fundReversal (db.capturePolicy t).reversalFunding d.amount (db.accountBalance t .available d.currency)
      (db.accountBalance t .reserve d.currency) with
  | error e => rfl
  | ok a => rfl

/-- An open dispute can be lost exactly when no number of the funding is negative. -/
theorem resolveDispute_lost_iff (hreached : Reached db) (hfound : db.dispute t id = some d) (hopen : d.status = .open)
    (hfresh : FreshRecoveries db w) :
    (∃ r db' w', (resolveDispute t id .lost).run db w = (.ok r, db', w') ∧ LossBooked t id d db db') ↔
      0 ≤ d.amount ∧ 0 ≤ db.accountBalance t .available d.currency ∧ 0 ≤ db.accountBalance t .reserve d.currency := by
  have hmem : d ∈ db.disputes := List.mem_of_find?_eq_some hfound
  obtain ⟨hid, -⟩ : d.id = id ∧ d.tenantId = t := by simpa using List.find?_some hfound
  have hsound := hreached.disputesSound
  have hnone : ∀ r ∈ db.recoveries, r.disputeId ≠ id := by
    intro r hr heq
    obtain ⟨d', hd', hrid, hlost⟩ := hsound.recoveries r hr
    obtain rfl : d' = d := List.inj_on_of_nodup_map hsound.ids hd' hmem (hrid.trans (heq.trans hid.symm))
    rw [hopen] at hlost
    cases hlost
  rw [← @fundReversal_ok_iff (db.capturePolicy t).reversalFunding, resolveLost_eq hfound hopen]
  cases hfunding : fundReversal (db.capturePolicy t).reversalFunding d.amount (db.accountBalance t .available d.currency)
      (db.accountBalance t .reserve d.currency) with
  | error e => simp
  | ok a =>
      refine iff_of_true ?_ ⟨a, rfl⟩
      let body : Tx (Dispute × Option Recovery) := do
        let current ← select (·.dispute t id)
        let _ ← lift (checkDispute current .lost)
        executeClawback t id d.currency a
      have hsucceeds : body.Succeeds (fun _ _ _ => True) db w := by
        simp only [body, bind_eq, succeeds_bind, succeeds_get]
        exact succeeds_lift.mpr ⟨d, checkDispute_open hfound hopen, succeeds_executeClawback hfresh hmem hid hnone⟩
      have hclawed : body.Ensures (fun _ db' => Clawed t id d.currency a db db') (fun _ => True) db := by
        simp only [body, bind_eq, ensures_bind, ensures_get]
        exact (ensures_lift _).mpr ⟨fun _ _ => executeClawback_spec t id d.currency a db, fun _ _ => trivial⟩
      obtain ⟨r, db', w', hrun, -⟩ := hsucceeds.run
      have hloss := (hclawed.run w).1 r db' w' hrun
      refine ⟨r, db', w', ?_, a, fundReversal_covers hfunding, hloss.movements, ?_⟩
      · dsimp only
        rw [Transaction.Job.run_transaction, hrun]
      · rw [hloss.recoveryAmounts, Db.recoveryAmounts, List.filter_eq_nil_iff.mpr fun r hr => by simp [hnone r hr]]
        rfl

end Loss

/-! ## Two disputes under ALLOW_NEGATIVE -/

/-- Policies are stored after their check. -/
def Operation.PoliciesAccepted : Operation → Prop
  | .configure config => ∀ p ∈ config.settlementPolicies, p.toPolicySpec.Valid
  | _ => True

/-- The lending posture: AVAILABLE may become negative. -/
def lendingConfig : Config :=
  { plainConfig with
    settlementPolicies := [{
      resolvePolicy DEFAULT_PRESET with
        reversalFunding := .allowNegative, allowNegative := true, id := 1, tenantId := 1, version := 1, isActive := true }] }

def disputeNamed (providerDisputeId : String) (amountCents : Int) : CreateDisputeInput :=
  { providerDisputeId, provider := .stripe, amountCents, feeCents := none, currency := none, reason := none,
    paymentIntentId := some 7, evidenceDueDate := none }

/-- Two disputes over a capture of 10.00, and the loss of the first one. -/
def lendingRun : List Operation :=
  [.configure lendingConfig, .settleCapture 1 plainCapture, .createDispute 1 (disputeNamed "first" 1200),
    .createDispute 1 (disputeNamed "second" 300), .resolveDispute 1 15 .lost]

/-- The world counts, and what it has counted is behind it. -/
theorem freshRecoveries_counting {db : Db} {w : World} (horacle : w.oracle = World.counting.oracle)
    (hentries : ∀ e ∈ db.ledgerEntries, e.id < w.clock) (hrecoveries : ∀ r ∈ db.recoveries, r.id < w.clock) :
    FreshRecoveries db w where
  distinct := fun n m _ hlt => by rw [horacle]; exact hlt.ne
  entries := fun n hn e he => by rw [horacle]; exact ((hentries e he).trans_le hn).ne
  recoveries := fun n hn r hr => by rw [horacle]; exact ((hrecoveries r hr).trans_le hn).ne

/-- The first dispute takes more than AVAILABLE. -/
theorem resolveDispute_lost_first : ∃ d, (execute (lendingRun.take 4) (.empty plainConfig) .counting).1.dispute 1 15 = some d ∧
    ∃ r db' w', (resolveDispute 1 15 .lost).run (execute (lendingRun.take 4) (.empty plainConfig) .counting).1
      (execute (lendingRun.take 4) (.empty plainConfig) .counting).2 = (.ok r, db', w') ∧
        LossBooked 1 15 d (execute (lendingRun.take 4) (.empty plainConfig) .counting).1 db' := by
  have hfresh : FreshRecoveries (execute (lendingRun.take 4) (.empty plainConfig) .counting).1
      (execute (lendingRun.take 4) (.empty plainConfig) .counting).2 :=
    freshRecoveries_counting rfl (by decide +kernel) (by decide +kernel)
  exact ⟨_, rfl, (resolveDispute_lost_iff (Reached.execute _ (.init plainConfig) .counting) rfl rfl hfresh).mpr
    ⟨by decide +kernel, by decide +kernel, by decide +kernel⟩⟩

/-- After it the second dispute cannot be lost. -/
theorem not_resolveDispute_lost : ¬ ∀ (t id : Id) (d : Dispute) (db : Db) (w : World),
    ReachedIf (fun op _ => op.PoliciesAccepted) db → db.dispute t id = some d → d.status = .open → FreshRecoveries db w →
      ∃ r db' w', (resolveDispute t id .lost).run db w = (.ok r, db', w') ∧ LossBooked t id d db db' := by
  intro h
  have hreached : ReachedIf (fun op _ => op.PoliciesAccepted) (execute lendingRun (.empty plainConfig) .counting).1 :=
    (ReachedIf.init plainConfig).execute lendingRun .counting
      ⟨by simp [Operation.PoliciesAccepted, lendingConfig]; rfl, trivial, trivial, trivial, trivial, trivial⟩
  have hfresh : FreshRecoveries (execute lendingRun (.empty plainConfig) .counting).1
      (execute lendingRun (.empty plainConfig) .counting).2 :=
    freshRecoveries_counting rfl (by decide +kernel) (by decide +kernel)
  obtain ⟨r, db', w', hrun, -⟩ := h 1 16 _ _ _ hreached rfl rfl hfresh
  have herror : ((resolveDispute 1 16 .lost).run (execute lendingRun (.empty plainConfig) .counting).1
      (execute lendingRun (.empty plainConfig) .counting).2).1.isOk = false := by decide +kernel
  rw [hrun] at herror
  cases herror

end CorpoPay.Settlement
