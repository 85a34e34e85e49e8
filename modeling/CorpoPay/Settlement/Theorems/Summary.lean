import CorpoPay.Settlement.Summary
import CorpoPay.Settlement.Theorems.LockedRate
import CorpoPay.Settlement.Theorems.Payout

/-!
# The summary and the payout

The summary reads the MAD balance and every open payout; `createPayout` reads the settlement currency after a sweep. They
come to the same figure exactly when the tenant has no money in other currencies that either of them counts.
-/

namespace CorpoPay.Settlement

open Transaction.Tx

/-! ## What the two figures are made of -/

namespace Db

variable (db : Db) (t : Id) (c : Currency)

/-- What the open payouts of a tenant reserve, in every currency. -/
def scheduled : Int := ((db.openPayouts t).map (·.amount)).sum

/-- What open payouts reserve in other currencies than `c`. -/
def scheduledElsewhere : Int :=
  ((db.payouts.filter fun p => p.tenantId = t ∧ p.currency ≠ c ∧ p.status.isOpen).map (·.amount)).sum

/-- What claims leave unclaimed of the credits they claim. -/
def unclaimedRest : Int := ((db.claimedCredits t c).map fun e => e.amount - db.claimed e.id).sum

theorem scheduled_eq : db.scheduled t = db.payoutSum t c PayoutStatus.isOpen + db.scheduledElsewhere t c := by
  simp only [scheduled, scheduledElsewhere, payoutSum, openPayouts, Data.sum_filter]
  rw [← List.sum_map_add]
  refine Data.sum_map_congr fun p _ => ?_
  by_cases hopen : p.tenantId = t ∧ p.status.isOpen = true
  · by_cases hc : p.currency = c <;> simp [hopen, hc]
  · have hn : ∀ q : Prop, ¬ (p.tenantId = t ∧ q ∧ p.status.isOpen = true) := fun q h => hopen ⟨h.1, h.2.2⟩
    rw [if_neg hopen, if_neg (hn _), if_neg (hn _), add_zero]

end Db

theorem settlementSummaryRoute_run (t : Id) (db : Db) (w : World) :
    ∃ response, (settlementSummaryRoute t).run db w = (.ok response, db, w) ∧ response.currency = .mad ∧
      response.eligibleCents = max 0 (db.accountBalance t .available .mad - db.scheduled t) := by
  refine ⟨_, rfl, rfl, ?_⟩
  rw [Db.accountBalance_eq, ← Db.ledgerView_balance, ← computeBalances_eq]
  rfl

/-! ## What the payout takes -/

section Payable

variable {db db₁ : Db} {t : Id} {c : Currency}

theorem payable_eq (h : db.PayoutsSound) : db.payable t c = db.eligible t c - db.unclaimedRest t c := by
  rw [eligible_eq t c h, Db.unclaimedRest, add_sub_cancel_right]

/-- The sweep adds what it credits. -/
theorem payable_grows (h : db.PayoutsSound) (hg : Grows db db₁) :
    db₁.payable t c = db.payable t c + (db₁.accountBalance t .available c - db.accountBalance t .available c) := by
  obtain ⟨hclaimed, hcredits⟩ := claims_grows h hg t c
  have hrest : db₁.unclaimedRest t c = db.unclaimedRest t c := by
    simp only [Db.unclaimedRest, hclaimed, hcredits]
  have hopen : db₁.payoutSum t c PayoutStatus.isOpen = db.payoutSum t c PayoutStatus.isOpen := by
    rw [Db.payoutSum, Db.payoutSum, hg.2.1]
  rw [payable_eq (h.grows hg), payable_eq h, hrest, Db.eligible, Db.eligible, hopen]
  ring

end Payable

/-! ## Payouts that go through -/

/-- No id that is still to be generated is one of the ledger, of a payout or of an item. -/
structure FreshPayouts (db : Db) (w : World) : Prop extends FreshEntries db w where
  payouts : ∀ n, w.clock ≤ n → ∀ p ∈ db.payouts, p.id ≠ w.oracle n .freshId
  items : ∀ n, w.clock ≤ n → ∀ i ∈ db.payoutItems, i.id ≠ w.oracle n .freshId

section Fresh

variable {db : Db} {w : World} {t : Id} {c base : Currency}

theorem planFxConversion_ok {amount : Int} (rate : Nat) (hne : base ≠ c) (hamount : 0 ≤ amount) :
    ∃ plan, planFxConversion base c amount rate rate = .ok plan ∧
      ∀ p ∈ plan.postings, p.Valid ∧ p.debit.partyId = none ∧ p.credit.partyId = none := by
  have hconverted : 0 ≤ convertMinor amount rate :=
    roundDiv_nonneg (mul_nonneg hamount (Int.natCast_nonneg rate)) (by decide)
  have hdrain : (⟨debit .available amount .adjustment none base, credit .cash amount .adjustment none base,
      ⟨some .fxConversion, none⟩⟩ : LedgerPosting).Valid := ⟨rfl, rfl, rfl, rfl, hamount, by simp [debit, credit]⟩
  have hsettle : (⟨debit .cash (convertMinor amount rate) .adjustment none c,
      credit .available (convertMinor amount rate) .adjustment none c, ⟨some .fxConversion, none⟩⟩ : LedgerPosting).Valid :=
    ⟨rfl, rfl, rfl, rfl, hconverted, by simp [debit, credit]⟩
  have hplan : ∃ plan, planFxConversion base c amount rate rate = .ok plan := by
    unfold planFxConversion
    simp only [if_neg hne, posting_eq_ok.mpr ⟨rfl, hdrain⟩, posting_eq_ok.mpr ⟨rfl, hsettle⟩, sub_self, lt_irrefl, if_false,
      Bind.bind, Except.bind]
    exact ⟨_, rfl⟩
  obtain ⟨plan, hplan⟩ := hplan
  refine ⟨plan, hplan, ?_⟩
  rw [planFxConversion_same hplan]
  simp only [List.mem_cons, List.not_mem_nil, or_false]
  rintro p (rfl | rfl)
  · exact ⟨hdrain, rfl, rfl⟩
  · exact ⟨hsettle, rfl, rfl⟩

theorem succeeds_sweep (h : FreshEntries db w) :
    (convertForeignBalancesToSettlement t c).Succeeds (fun _ => Posted db w) db w := by
  refine succeeds_forEach (J := Posted db w) (fun base _ db₁ w₁ h₁ => ?_) (fun _ _ h => h) ⟨h, refl_of OnlyLedger db, .refl w⟩
  refine (succeeds_when _ _).mpr ⟨fun hne => ?_, fun _ => h₁⟩
  refine (succeeds_bind _ _).mpr ((succeeds_when _ _).mpr ⟨fun hpos => ?_, fun _ => h₁⟩)
  simp only [bind_eq, succeeds_bind]
  obtain ⟨plan, hplan, hpostings⟩ := planFxConversion_ok (World.reply w₁ (.quoteFx base c)).1 hne hpos.le
  refine succeeds_lift.mpr ⟨plan, hplan, ?_⟩
  have hasked : Posted db w db₁ (w₁.reply (.quoteFx base c)).2 := ⟨h₁.1.reply _, h₁.2.1, h₁.2.2.trans (w₁.before_reply _)⟩
  refine succeeds_forEach (J := Posted db w) (fun p hp db₂ w₂ h₂ => ?_) (fun _ _ h => h) hasked
  obtain ⟨hvalid, hdebit, hcredit⟩ := hpostings p hp
  refine (succeeds_bind _ _).mpr ((succeeds_postEntry h₂.1 hvalid ?_).mono fun _ _ _ h₃ => h₂.trans h₃)
  rw [hdebit, hcredit]
  exact ⟨db₂.hasParty_none, db₂.hasParty_none⟩

theorem FreshPayouts.reply (h : FreshPayouts db w) (q : Query) : FreshPayouts db (w.reply q).2 where
  toFreshEntries := h.toFreshEntries.reply q
  payouts n hn := h.payouts n ((Nat.le_succ _).trans hn)
  items n hn := h.items n ((Nat.le_succ _).trans hn)

theorem FreshPayouts.posted {db' : Db} {w' : World} (h : FreshPayouts db w) (hp : Posted db w db' w') :
    FreshPayouts db' w' where
  toFreshEntries := hp.1
  payouts n hn := by rw [hp.2.1, hp.2.2.oracle]; exact h.payouts n (hp.2.2.clock.trans hn)
  items n hn := by rw [hp.2.1, hp.2.2.oracle]; exact h.items n (hp.2.2.clock.trans hn)

theorem succeeds_createItems {payoutId : Id} {claims : List (LedgerEntry × Int)} (h : FreshPayouts db w)
    (hids : (claims.map (·.1.id)).Nodup) (hfree : ∀ x ∈ claims, ∀ i ∈ db.payoutItems, i.ledgerEntryId ≠ x.1.id) :
    (forEach (fun x : LedgerEntry × Int => PayoutItem.create payoutId x.1.id x.2) claims).Succeeds
      (fun _ _ _ => True) db w := by
  induction claims generalizing db w with
  | nil => trivial
  | cons x claims ih =>
      obtain ⟨hx, hids⟩ := List.nodup_cons.mp hids
      simp only [Transaction.Tx.forEach, PayoutItem.create, bind_eq, succeeds_bind, succeeds_freshId, succeeds_acquire,
        succeeds_get]
      rw [if_neg, succeeds_modify]
      · have hlater := h.reply .freshId
        refine ih ⟨⟨hlater.distinct, hlater.entries⟩, hlater.payouts, fun n hn i hi => ?_⟩ hids fun y hy i hi => ?_
        · rcases List.mem_append.mp hi with hi | hi
          · exact hlater.items n hn i hi
          · obtain rfl := List.mem_singleton.mp hi
            exact h.distinct w.clock n (le_refl _) (Nat.lt_of_succ_le hn)
        · rcases List.mem_append.mp hi with hi | hi
          · exact hfree y (List.mem_cons_of_mem _ hy) i hi
          · obtain rfl := List.mem_singleton.mp hi
            exact fun heq => hx (List.mem_map.mpr ⟨y, hy, heq.symm⟩)
      · intro htaken
        obtain ⟨i, hi, heq⟩ := List.any_eq_true.mp htaken
        rcases of_decide_eq_true heq with heq | heq
        · exact h.items w.clock (le_refl _) i hi heq
        · exact hfree x List.mem_cons_self i hi heq

theorem succeeds_createPayoutAfterSweep {input : CreatePayoutInput} (hsound : db.PayoutsSound) (h : FreshPayouts db w)
    (hkey : db.payoutOfKey t input.idempotencyKey = none) (hpos : 0 < db.payable t c) :
    (createPayoutAfterSweep t input c).Succeeds (fun _ _ _ => True) db w := by
  simp only [createPayoutAfterSweep, Payout.create, bind_eq, pure_eq, succeeds_bind, succeeds_get, succeeds_ite, succeeds_freshId,
    succeeds_acquire, succeeds_modify, succeeds_ret, succeeds_throw]
  refine ⟨fun hle => absurd hpos (not_lt.mpr hle), fun _ => ⟨fun htaken => ?_, fun _ => ?_⟩⟩
  · obtain ⟨p, hp, heq⟩ := List.any_eq_true.mp htaken
    rcases of_decide_eq_true heq with heq | heq
    · exact h.payouts w.clock (le_refl _) p hp heq
    · exact List.find?_eq_none.mp hkey p hp (decide_eq_true heq)
  · have hlater := h.reply .freshId
    have hsub : ((allocate (db.payable t c) (db.unpaidCredits t c)).map (·.1)).Sublist (db.unpaidCredits t c) :=
      Data.fifo_sublist _ _
    have hperm : (db.unpaidCredits t c).Perm _ := List.perm_insertionSort _ _
    refine Succeeds.mono (succeeds_createItems ⟨⟨hlater.distinct, hlater.entries⟩, fun n hn p hp => ?_, hlater.items⟩ ?_ ?_)
      fun _ _ _ _ => trivial
    · rcases List.mem_append.mp hp with hp | hp
      · exact hlater.payouts n hn p hp
      · obtain rfl := List.mem_singleton.mp hp
        exact h.distinct w.clock n (le_refl _) (Nat.lt_of_succ_le hn)
    · have hids : ((db.unpaidCredits t c).map (·.id)).Nodup :=
        (hperm.map _).nodup_iff.mpr ((List.filter_sublist.map _).nodup hsound.entryIds)
      have hclaims := (hsub.map (·.id)).nodup hids
      rwa [List.map_map] at hclaims
    · intro x hx i hi
      have hmem := hperm.mem_iff.mp (hsub.subset (List.mem_map_of_mem hx))
      have hfree := (of_decide_eq_true (List.mem_filter.mp hmem).2).2.2.2.2
      exact of_decide_eq_true (List.all_eq_true.mp hfree i hi)

end Fresh

/-! ## Worlds that quote one rate -/

/-- A world that counts from `clock` on and quotes `rate` for every pair. -/
def World.quoting (clock rate : Nat) : World :=
  { World.counting with
    clock
    oracle := fun n q =>
      match q with
      | .quoteFx _ _ => rate
      | q => World.counting.oracle n q }

theorem exists_lt_all (ns : List Nat) : ∃ m, ∀ n ∈ ns, n < m :=
  ⟨ns.sum + 1, fun _ hn => Nat.lt_succ_of_le (List.le_sum_of_mem hn)⟩

/-- From some clock on the ids are fresh. -/
theorem exists_freshPayouts (db : Db) : ∃ clock, ∀ rate, FreshPayouts db (.quoting clock rate) := by
  obtain ⟨m, hm⟩ := exists_lt_all (db.ledgerEntries.map (·.id) ++ (db.payouts.map (·.id) ++ db.payoutItems.map (·.id)))
  simp only [List.mem_append, List.mem_map] at hm
  refine ⟨m, fun rate => ⟨⟨fun n k _ hlt => hlt.ne, fun n hn e he => ?_⟩, fun n hn p hp => ?_, fun n hn i hi => ?_⟩⟩
  · exact ((hm _ (.inl ⟨e, he, rfl⟩)).trans_le hn).ne
  · exact ((hm _ (.inr (.inl ⟨p, hp, rfl⟩))).trans_le hn).ne
  · exact ((hm _ (.inr (.inr ⟨i, hi, rfl⟩))).trans_le hn).ne

/-- At a rate of `k` units the sweep credits `k` at least for a balance that it finds. -/
theorem le_swept {db db₁ : Db} {w₁ : World} {t : Id} {c base : Currency} {clock k : Nat} (hbase : base ≠ c)
    (hpos : 0 < db.accountBalance t .available base)
    (hsweep : (convertForeignBalancesToSettlement t c).run db (.quoting clock (k * 100000000)) = (.ok ((), db₁), w₁)) :
    k ≤ db₁.accountBalance t .available c - db.accountBalance t .available c := by
  obtain ⟨rate, ms, hquoted, hms⟩ := convertForeignBalances_run (by decide) hsweep
  have hnonneg : ∀ v ∈ SUPPORTED_CURRENCIES.map fun b => db.sweptAmount t c b (rate b), 0 ≤ v := by
    intro v hv
    obtain ⟨b, -, rfl⟩ := List.mem_map.mp hv
    unfold Db.sweptAmount
    split_ifs with h
    · exact roundDiv_nonneg (mul_nonneg h.2.le (Int.natCast_nonneg _)) (by decide)
    · exact le_refl 0
  have hmem := mem_supportedCurrencies base
  have hle := List.single_le_sum hnonneg _ (List.mem_map_of_mem (f := fun b => db.sweptAmount t c b (rate b)) hmem)
  obtain ⟨n, -, -, hrate⟩ := hquoted base hmem hbase hpos
  have hamount : db.sweptAmount t c base (rate base) = db.accountBalance t .available base * k := by
    rw [Db.sweptAmount, if_pos ⟨hbase, hpos⟩, ← hrate, convertMinor]
    show roundDiv (_ * ((k * 100000000 : Nat) : Int)) FX_RATE_UNIT = _
    rw [Nat.cast_mul, ← mul_assoc]
    exact roundDiv_mul_self _ (by decide)
  rw [hamount] at hle
  rw [Db.accountBalance_append hms.movements, hms.credited, add_sub_cancel_left]
  refine le_trans ?_ hle
  exact le_mul_of_one_le_left (Int.natCast_nonneg k) hpos

/-! ## Agreement -/

/-- What the summary reports is what `createPayout` would pay, whatever rates the provider quotes. -/
def SummaryAgrees (t : Id) (input : CreatePayoutInput) (db : Db) : Prop :=
  ∀ (response : SettlementSummaryResponse) (w w₁ w' : World) (db₁ db' : Db) (r : Except Failure Payout),
    (settlementSummaryRoute t).run db w = (.ok response, db₁, w₁) → (createPayout t input).run db₁ w₁ = (r, db', w') →
    (∀ payout, r = .ok payout → payout.amount = response.eligibleCents ∧ payout.currency = response.currency) ∧
      (r = .error noEligibleFunds → response.eligibleCents = 0)

/-- The tenant has no AVAILABLE balance in another currency, and either it settles in MAD and what partly claimed credits
leave unclaimed is what open payouts reserve in other currencies, or nothing is left to pay by either figure. -/
def SummaryAdequate (t : Id) (db : Db) : Prop :=
  let c := db.settlementCurrency t
  (∀ base, base ≠ c → db.accountBalance t .available base ≤ 0) ∧
    (db.unclaimedRest t c < db.eligible t c ∧ c = .mad ∧ db.scheduledElsewhere t c = db.unclaimedRest t c ∨
      db.eligible t c ≤ db.unclaimedRest t c ∧ db.accountBalance t .available .mad ≤ db.scheduled t)

section Agreement

variable {t : Id} {input : CreatePayoutInput} {db : Db}

/-- In a world that counts from high enough on, a payout is created or there is nothing to pay. -/
theorem exists_createPayout (h : db.PayoutsSound) (hkey : db.payoutOfKey t input.idempotencyKey = none) (k : Nat) :
    ∃ clock db₁ w₁ r db' w', (convertForeignBalancesToSettlement t (db.settlementCurrency t)).run db
        (.quoting clock (k * 100000000)) = (.ok ((), db₁), w₁) ∧
      (createPayout t input).run db (.quoting clock (k * 100000000)) = (r, db', w') ∧
      ((∃ payout, r = .ok payout ∧ Created t input (db.settlementCurrency t) payout db₁ db') ∨
        (r = .error noEligibleFunds ∧ db₁.payable t (db.settlementCurrency t) ≤ 0)) := by
  obtain ⟨clock, hfresh⟩ := exists_freshPayouts db
  have hfresh := hfresh (k * 100000000)
  obtain ⟨_, db₁, w₁, hsweep, hposted⟩ := (succeeds_sweep (t := t) (c := db.settlementCurrency t) hfresh.toFreshEntries).run
  rcases hrun : (createPayout t input).run db (.quoting clock (k * 100000000)) with ⟨r, db', w'⟩
  refine ⟨clock, db₁, w₁, r, db', w', hsweep, hrun, ?_⟩
  obtain hcreated | hnone | ⟨rfl, hpos⟩ := createPayout_run hkey hsweep hrun
  · exact .inl hcreated
  · exact .inr hnone
  · have hg : Grows db db₁ := (Transaction.Tx.Ensures.run (grows_convertForeignBalances db) _).1 _ _ _ hsweep
    have hkey₁ : db₁.payoutOfKey t input.idempotencyKey = none := by rw [Db.payoutOfKey, hg.2.1]; exact hkey
    obtain ⟨_, _, _, hafter, -⟩ := (succeeds_createPayoutAfterSweep (h.grows hg) (hfresh.posted hposted) hkey₁ hpos).run
    obtain ⟨hjob, hbody⟩ := createPayout_eq hkey hsweep
    rw [hjob, Transaction.Job.run_transaction, hbody, hafter] at hrun
    cases hrun

/-- The two figures, by what they are made of. -/
theorem eligible_sub (db : Db) (t : Id) (c : Currency) :
    db.accountBalance t .available c - db.scheduled t = db.eligible t c - db.scheduledElsewhere t c := by
  rw [db.scheduled_eq t c, Db.eligible]
  ring

/-- With nothing to sweep, adequate figures agree. -/
theorem SummaryAdequate.agrees (h : db.PayoutsSound) (hkey : db.payoutOfKey t input.idempotencyKey = none)
    (hadequate : SummaryAdequate t db) : SummaryAgrees t input db := by
  obtain ⟨hnothing, hfigures⟩ := hadequate
  intro response w w₁ w' db₁ db' r hsummary hrun
  obtain ⟨response', hsummary', hcurrency, heligible⟩ := settlementSummaryRoute_run t db w
  cases hsummary.symm.trans hsummary'
  have hpayable : db.payable t (db.settlementCurrency t) = _ := payable_eq h
  have hsweep := sweep_nothing w fun base _ hne => hnothing base hne
  rw [heligible, hcurrency]
  obtain ⟨payout, rfl, hc⟩ | ⟨rfl, hle⟩ | ⟨rfl, -⟩ := createPayout_run hkey hsweep hrun
  · refine ⟨fun _ hr => ?_, by simp⟩
    cases hr
    have hpos := hc.pos
    rcases hfigures with ⟨-, hmad, helsewhere⟩ | ⟨hle, -⟩
    · refine ⟨?_, hc.currency.trans hmad⟩
      rw [← hmad, eligible_sub, helsewhere, ← hpayable, hc.amount]
      exact (max_eq_right hpos.le).symm
    · omega
  · refine ⟨by simp, fun _ => max_eq_left ?_⟩
    rcases hfigures with ⟨hlt, -⟩ | ⟨-, hcovered⟩
    · omega
    · exact sub_nonpos.mpr hcovered
  · exact ⟨by simp, by simp [uniqueViolation, noEligibleFunds]⟩

/-- What agreement says of the payouts that `exists_createPayout` finds. -/
theorem SummaryAgrees.payout (h : db.PayoutsSound) (hkey : db.payoutOfKey t input.idempotencyKey = none)
    (hagrees : SummaryAgrees t input db) (k : Nat) :
    ∃ clock db₁ w₁, (convertForeignBalancesToSettlement t (db.settlementCurrency t)).run db
        (.quoting clock (k * 100000000)) = (.ok ((), db₁), w₁) ∧
      let reported := max 0 (db.accountBalance t .available .mad - db.scheduled t)
      (0 < db₁.payable t (db.settlementCurrency t) ∧ db₁.payable t (db.settlementCurrency t) = reported ∧
          db.settlementCurrency t = .mad ∨
        db₁.payable t (db.settlementCurrency t) ≤ 0 ∧ reported = 0) := by
  obtain ⟨clock, db₁, w₁, r, db', w', hsweep, hrun, hresult⟩ := exists_createPayout h hkey k
  obtain ⟨response, hsummary, hcurrency, heligible⟩ := settlementSummaryRoute_run t db (.quoting clock (k * 100000000))
  obtain ⟨hpaid, hrefused⟩ := hagrees response _ _ _ _ _ _ hsummary hrun
  rw [heligible] at hpaid hrefused
  rw [hcurrency] at hpaid
  refine ⟨clock, db₁, w₁, hsweep, ?_⟩
  rcases hresult with ⟨payout, rfl, hc⟩ | ⟨rfl, hle⟩
  · obtain ⟨hamount, hmad⟩ := hpaid payout rfl
    exact .inl ⟨hc.pos, hc.amount.symm.trans hamount, hc.currency.symm.trans hmad⟩
  · exact .inr ⟨hle, hrefused rfl⟩

/-- The summary agrees with the payout exactly when its figures are adequate. -/
theorem summaryAgrees_iff (hreached : Reached db) (hkey : db.payoutOfKey t input.idempotencyKey = none) :
    SummaryAgrees t input db ↔ SummaryAdequate t db := by
  have h := hreached.payoutsSound
  refine ⟨fun hagrees => ?_, SummaryAdequate.agrees h hkey⟩
  have hnothing : ∀ base, base ≠ db.settlementCurrency t → db.accountBalance t .available base ≤ 0 := by
    intro base hbase
    by_contra hpos
    -- A rate high enough takes the payout above what the summary reports.
    obtain ⟨clock, db₁, w₁, hsweep, hfigures⟩ := hagrees.payout h hkey
      ((max 0 (db.accountBalance t .available .mad - db.scheduled t) - db.payable t (db.settlementCurrency t)).toNat + 1)
    have hg : Grows db db₁ := (Transaction.Tx.Ensures.run (grows_convertForeignBalances db) _).1 _ _ _ hsweep
    have hswept := le_swept hbase (not_le.mp hpos) hsweep
    have hgrown : db₁.payable t (db.settlementCurrency t) = _ := payable_grows h hg
    omega
  obtain ⟨clock, db₁, w₁, hsweep, hfigures⟩ := hagrees.payout h hkey 0
  cases hsweep.symm.trans (sweep_nothing _ fun base _ hne => hnothing base hne)
  have hpayable : db.payable t (db.settlementCurrency t) = _ := payable_eq h
  refine ⟨hnothing, ?_⟩
  rcases hfigures with ⟨hpos, hreported, hmad⟩ | ⟨hle, hreported⟩
  · have hsub := eligible_sub db t (db.settlementCurrency t)
    rw [hmad] at hsub hpos hreported hpayable ⊢
    exact .inl ⟨by omega, rfl, by omega⟩
  · exact .inr ⟨by omega, sub_nonpos.mp (max_eq_left_iff.mp hreported)⟩

end Agreement

/-! ## A tenant that settles in dollars -/

/-- A MAD tenant whose first sale is not paid out yet. -/
theorem summaryAgrees_iff_first : SummaryAgrees 1 (payoutInput "first") afterFirstSale.1 := by
  have hreached : Reached afterFirstSale.1 := (Reached.init walletFeeConfig).execute firstSale .counting
  refine (summaryAgrees_iff hreached rfl).mpr ⟨fun base _ => ?_, .inl (by decide)⟩
  revert base
  rintro (_ | _ | _ | _ | _) <;> decide

def dollarConfig : Config :=
  { plainConfig with tenants := [{ id := 1, settlementCurrency := .usd, taxRateBps := 0, taxExempt := false }] }

/-- A capture of 10.00 USD. -/
def dollarRun : List Operation := [.settleCapture 1 { plainCapture with currency := some .usd }]

def afterDollarRun : Db × World := execute dollarRun (.empty dollarConfig) .counting

/-- The summary reports 0 MAD, and the payout is one of USD. -/
theorem not_summaryAgrees : ¬ ∀ (t : Id) (input : CreatePayoutInput) (db : Db), Reached db →
    db.payoutOfKey t input.idempotencyKey = none → SummaryAgrees t input db := by
  intro h
  have hreached : Reached afterDollarRun.1 := (Reached.init dollarConfig).execute dollarRun .counting
  obtain ⟨response, hsummary, hcurrency, -⟩ := settlementSummaryRoute_run 1 afterDollarRun.1 afterDollarRun.2
  obtain ⟨hpaid, -⟩ := h 1 (payoutInput "first") _ hreached rfl response _ _ _ _ _ _ hsummary rfl
  have hpayout : (payoutOf afterDollarRun "first").1.map (·.currency) = .ok .usd := by rfl
  obtain ⟨payout, hok, hdollars⟩ := Except.map_eq_ok hpayout
  cases hdollars.symm.trans ((hpaid payout hok).2.trans hcurrency)

end CorpoPay.Settlement
