import CorpoPay.Settlement.Lemmas.PayoutsSound
import CorpoPay.Settlement.Lemmas.Sweep

/-!
# Main theorems: payouts

A new payout never takes more than there is, and it takes all of it exactly when no credit is claimed in part.
-/

namespace CorpoPay.Settlement

open Transaction.Tx

/-! ## A run of `createPayout` -/

section Run

variable {db db₁ db' : Db} {w w₁ w' : World} {t : Id} {input : CreatePayoutInput} {r : Except Failure Payout}

/-- With a fresh key and a sweep that succeeds, what follows the sweep decides. -/
theorem createPayout_eq (hkey : db.payoutOfKey t input.idempotencyKey = none)
    (hsweep : (convertForeignBalancesToSettlement t (db.settlementCurrency t)).run db w = (.ok ((), db₁), w₁)) :
    (createPayout t input).run db w = (transaction (createPayoutInTx t input)).run db w ∧
      (createPayoutInTx t input).run db w = (createPayoutAfterSweep t input (db.settlementCurrency t)).run db₁ w₁ := by
  constructor
  · simp only [createPayout, Transaction.Job.bind_eq, Transaction.Job.run_bind, Transaction.Job.run_get]
    rw [hkey]
  · show ((convertForeignBalancesToSettlement t (db.settlementCurrency t)).bind fun _ =>
      createPayoutAfterSweep t input (db.settlementCurrency t)).run db w = _
    rw [run_bind, hsweep]

theorem createPayout_run (hkey : db.payoutOfKey t input.idempotencyKey = none)
    (hsweep : (convertForeignBalancesToSettlement t (db.settlementCurrency t)).run db w = (.ok ((), db₁), w₁))
    (hrun : (createPayout t input).run db w = (r, db', w')) :
    (∃ payout, r = .ok payout ∧ Created t input (db.settlementCurrency t) payout db₁ db') ∨
      (r = .error noEligibleFunds ∧ db₁.payable t (db.settlementCurrency t) ≤ 0) ∨
      (r = .error uniqueViolation ∧ 0 < db₁.payable t (db.settlementCurrency t)) := by
  obtain ⟨hjob, hbody⟩ := createPayout_eq hkey hsweep
  rw [hjob, Transaction.Job.run_transaction, hbody] at hrun
  have hspec := (createPayoutAfterSweep_spec db₁ t input (db.settlementCurrency t)).run w₁
  split at hrun
  · rename_i payout db₂ w₂ hafter
    cases hrun
    exact .inl ⟨payout, rfl, hspec.1 _ _ _ hafter⟩
  · rename_i e w₂ hafter
    cases hrun
    rcases hspec.2 _ _ hafter with ⟨rfl, hle⟩ | ⟨rfl, hpos⟩
    · exact .inr (.inl ⟨rfl, hle⟩)
    · exact .inr (.inr ⟨rfl, hpos⟩)

end Run

/-! ## Soundness -/

/-- Two claims on one credit are the same claim. -/
theorem Db.PayoutsSound.claim_unique {db : Db} (h : db.PayoutsSound) {p q : Payout} (hp : p ∈ db.payouts)
    (hq : q ∈ db.payouts) {i j : PayoutItem} (hi : i ∈ db.itemsOf p.id) (hj : j ∈ db.itemsOf q.id)
    (hij : i.ledgerEntryId = j.ledgerEntryId) : p = q ∧ i = j := by
  obtain ⟨hi, hip⟩ := List.mem_filter.mp hi
  obtain ⟨hj, hjq⟩ := List.mem_filter.mp hj
  obtain rfl := Data.eq_of_key h.claims hi hj hij
  refine ⟨Data.eq_of_key h.payoutIds hp hq ?_, rfl⟩
  exact (of_decide_eq_true hip).symm.trans (of_decide_eq_true hjq)

/-- The other open payouts of a new payout are the open payouts there were. -/
theorem Created.otherOpen_eq {t : Id} {input : CreatePayoutInput} {c : Currency} {payout : Payout} {db db' : Db}
    (hc : Created t input c payout db db') : db'.otherOpen t c payout.id = db.payoutSum t c PayoutStatus.isOpen := by
  obtain ⟨items, -, -, rfl⟩ := hc.rows
  have hself : [payout].filter (fun p => p.tenantId = t ∧ p.currency = c ∧ p.status.isOpen ∧ p.id ≠ payout.id) = [] := by
    simp
  rw [Db.otherOpen, List.filter_append, hself, List.append_nil, Db.payoutSum]
  congr 2
  refine List.filter_congr fun p hp => ?_
  simp [hc.fresh p hp]

theorem Created.le_eligible {t : Id} {input : CreatePayoutInput} {c : Currency} {payout : Payout} {db db' : Db}
    (h : db.PayoutsSound) (hc : Created t input c payout db db') :
    payout.amount ≤ db'.accountBalance t .available c - db'.otherOpen t c payout.id := by
  have hledger : db'.accountBalance t .available c = db.accountBalance t .available c := by
    obtain ⟨items, -, -, rfl⟩ := hc.rows
    rfl
  have heq := eligible_eq t c h
  have hrest := remainder_nonneg t c h
  rw [hc.otherOpen_eq, hledger, hc.amount, ← Db.eligible]
  omega

/-- What payouts claim in any reached state, and what a new payout takes from it. -/
theorem payouts_sound {db : Db} (h : Reached db) :
    (∀ p ∈ db.payouts, ∀ q ∈ db.payouts, p.status.isLive → q.status.isLive →
      ∀ i ∈ db.itemsOf p.id, ∀ j ∈ db.itemsOf q.id, i.ledgerEntryId = j.ledgerEntryId → p = q ∧ i = j) ∧
    ∀ (t : Id) (input : CreatePayoutInput) (w w' : World) (payout : Payout) (db' : Db),
      db.payoutOfKey t input.idempotencyKey = none → (createPayout t input).run db w = (.ok payout, db', w') →
      payout.amount ≤ db'.accountBalance t .available payout.currency - db'.otherOpen t payout.currency payout.id ∧
      ((db'.itemsOf payout.id).map (·.amount)).sum = payout.amount ∧
      ∀ i ∈ db'.itemsOf payout.id, 0 ≤ i.amount ∧ ∃ e ∈ db'.ledgerEntries, e.id = i.ledgerEntryId ∧ e.tenantId = t ∧
        e.account = .available ∧ e.direction = .credit ∧ e.currency = payout.currency ∧ i.amount ≤ e.amount := by
  refine ⟨fun p hp q hq _ _ i hi j hj hij => h.payoutsSound.claim_unique hp hq hi hj hij, ?_⟩
  intro t input w w' payout db' hkey hrun
  have hspec := (createPayout_spec db t input).run w hrun
  obtain ⟨rfl, hold⟩ | ⟨p, db₁, hp, hg, hc⟩ := hspec
  · rw [hold payout rfl] at hkey; cases hkey
  cases hp
  have hsound₁ := h.payoutsSound.grows hg
  have hsound := hsound₁.created hc
  have hmem : payout ∈ db'.payouts := by
    obtain ⟨items, -, -, rfl⟩ := hc.rows
    exact List.mem_append_right _ List.mem_cons_self
  refine ⟨?_, hsound.amount payout hmem (by rw [hc.status]; rfl), fun i hi => ?_⟩
  · rw [hc.currency]
    exact hc.le_eligible hsound₁
  · obtain ⟨hi, hid⟩ := List.mem_filter.mp hi
    obtain ⟨q, hq, e, he, hclaim⟩ := hsound.item i hi
    obtain rfl := Data.eq_of_key hsound.payoutIds hq hmem (hclaim.payout.trans (of_decide_eq_true hid))
    exact ⟨hclaim.nonneg, e, he, hclaim.entry, hclaim.tenantId.trans hc.tenantId, hclaim.account, hclaim.direction,
      hclaim.currency, hclaim.le⟩

/-! ## Completeness -/

/-- After the sweep, a new payout takes the whole balance that no open payout reserves. -/
def PaysAll (t : Id) (c : Currency) (db₁ : Db) (r : Except Failure Payout) : Prop :=
  (∃ payout, r = .ok payout ∧ payout.amount = db₁.eligible t c) ∨ (r = .error noEligibleFunds ∧ db₁.eligible t c ≤ 0)

/-- A sweep claims nothing. -/
theorem claims_grows {db db₁ : Db} (h : db.PayoutsSound) (hg : Grows db db₁) (t : Id) (c : Currency) :
    (∀ id, db₁.claimed id = db.claimed id) ∧ db₁.claimedCredits t c = db.claimedCredits t c := by
  have h₁ := h.grows hg
  obtain ⟨⟨ms, ⟨es, -, he, -⟩, -⟩, -, hi⟩ := hg
  refine ⟨fun id => by rw [Db.claimed, Db.claimed, hi], ?_⟩
  have hnone : es.filter (fun e => e.tenantId = t ∧ e.account = .available ∧ e.direction = .credit ∧
      e.currency = c ∧ db.payoutItems.any (·.ledgerEntryId = e.id)) = [] := by
    refine List.filter_eq_nil_iff.mpr fun e hnew hcond => ?_
    obtain ⟨i, hitem, hie⟩ := List.any_eq_true.mp (of_decide_eq_true hcond).2.2.2.2
    obtain ⟨p, -, e', he', hcl⟩ := h.item i hitem
    have hids := h₁.entryIds
    rw [Db.entryIds, he, List.map_append] at hids
    refine List.disjoint_of_nodup_append hids (List.mem_map.mpr ⟨e', he', rfl⟩) ?_
    exact List.mem_map.mpr ⟨e, hnew, (hcl.entry.trans (of_decide_eq_true hie)).symm⟩
  rw [Db.claimedCredits, hi, he, List.filter_append, hnone, List.append_nil, Db.claimedCredits]

/-- What was claimed in full still is. -/
theorem claimsWhole_grows {db db₁ : Db} (h : db.PayoutsSound) (hg : Grows db db₁) (t : Id) (c : Currency) :
    db₁.ClaimsWhole t c ↔ db.ClaimsWhole t c := by
  obtain ⟨hclaimed, hcredits⟩ := claims_grows h hg t c
  simp only [Db.ClaimsWhole, hclaimed, hcredits]

/-- A new payout takes everything exactly when every claimed credit is claimed in full, or there is nothing to take.
The last hypothesis says that the database took the generated identifiers. -/
theorem createPayout_paysAll_iff {db db₁ db' : Db} {w w₁ w' : World} {t : Id} {input : CreatePayoutInput}
    {r : Except Failure Payout} (h : Reached db) (hkey : db.payoutOfKey t input.idempotencyKey = none)
    (hsweep : (convertForeignBalancesToSettlement t (db.settlementCurrency t)).run db w = (.ok ((), db₁), w₁))
    (hrun : (createPayout t input).run db w = (r, db', w')) (hids : r ≠ .error uniqueViolation) :
    PaysAll t (db.settlementCurrency t) db₁ r ↔
      db.ClaimsWhole t (db.settlementCurrency t) ∨ db₁.eligible t (db.settlementCurrency t) ≤ 0 := by
  have hg : Grows db db₁ := (Transaction.Tx.Ensures.run (grows_convertForeignBalances db) w).1 _ _ _ hsweep
  have h₁ := h.payoutsSound.grows hg
  rw [← claimsWhole_grows h.payoutsSound hg, ← remainder_eq_zero_iff _ _ h₁]
  have heq := eligible_eq t (db.settlementCurrency t) h₁
  have hrest := remainder_nonneg t (db.settlementCurrency t) h₁
  obtain ⟨payout, rfl, hc⟩ | ⟨rfl, hle⟩ | ⟨rfl, -⟩ := createPayout_run hkey hsweep hrun
  · have hpos := hc.pos
    have hamount := hc.amount
    have hpays : PaysAll t (db.settlementCurrency t) db₁ (.ok payout) ↔
        payout.amount = db₁.eligible t (db.settlementCurrency t) := by simp [PaysAll]
    rw [hpays]
    omega
  · have hpays : PaysAll t (db.settlementCurrency t) db₁ (.error noEligibleFunds) ↔
        db₁.eligible t (db.settlementCurrency t) ≤ 0 := by simp [PaysAll]
    rw [hpays]
    omega
  · exact absurd rfl hids

/-! ## A fee on every debit of a wallet -/

/-- One tenant with a flat fee of 0.50. -/
def walletFeeConfig : Config :=
  { tenants := [{ id := 1, settlementCurrency := .mad, taxRateBps := 0, taxExempt := false }]
    feeSchedules := [{
      feeType := .flat, flatCents := some 50, percentageBps := none, perMethodCents := none, tiersCents := none,
      id := 1, tenantId := 1, version := 1, isActive := true }]
    settlementPolicies := [], splitParties := [], splitRules := [], financeConfigs := [], providerConfigs := [] }

def payoutInput (idempotencyKey : String) : CreatePayoutInput := { idempotencyKey, provider := .stripe, method := none }

/-- A wallet of 50.00 pays 10.00. -/
def firstSale : List Operation :=
  [.createWallet 1 .tenant "owner" none, .topUpWallet 1 0 5000 none, .debitWallet 1 0 1000 none]

/-- The sale is paid out, and the wallet pays another 10.00. -/
def secondSale : List Operation :=
  firstSale ++ [.createPayout 1 (payoutInput "first"), .markPayoutPaid 1 18 none, .debitWallet 1 0 1000 none]

def afterFirstSale : Db × World := execute firstSale (.empty walletFeeConfig) .counting

def afterSecondSale : Db × World := execute secondSale (.empty walletFeeConfig) .counting

def payoutOf (s : Db × World) (key : String) : Except Failure Payout × Db × World :=
  (createPayout 1 (payoutInput key)).run s.1 s.2

/-- The payout of the first sale is sound. -/
theorem payouts_sound_first : ∃ payout db' w', payoutOf afterFirstSale "first" = (.ok payout, db', w') ∧
    payout.amount ≤ db'.accountBalance 1 .available payout.currency - db'.otherOpen 1 payout.currency payout.id := by
  have hreached : Reached afterFirstSale.1 := (Reached.init walletFeeConfig).execute firstSale .counting
  refine ⟨_, _, _, rfl, ?_⟩
  exact ((payouts_sound hreached).2 1 (payoutInput "first") afterFirstSale.2 _ _ _ (by rfl) rfl).1

/-- The first payout takes all there is, 9.50. -/
theorem createPayout_paysAll_first : PaysAll 1 .mad afterFirstSale.1 (payoutOf afterFirstSale "first").1 := by
  have hreached : Reached afterFirstSale.1 := (Reached.init walletFeeConfig).execute firstSale .counting
  refine (createPayout_paysAll_iff hreached
    (rfl : afterFirstSale.1.payoutOfKey 1 (payoutInput "first").idempotencyKey = none)
    (sweep_nothing afterFirstSale.2 (by decide)) (rfl : _ = (_, _, _)) (by decide)).mpr (.inl ?_)
  decide

/-- The second one takes 9.00 of 9.50: the fee of the first sale is counted again. -/
theorem createPayout_counts_fee_twice :
    ¬ ∀ (db db₁ db' : Db) (w w₁ w' : World) (t : Id) (input : CreatePayoutInput) (r : Except Failure Payout),
      Reached db → db.payoutOfKey t input.idempotencyKey = none →
      (convertForeignBalancesToSettlement t (db.settlementCurrency t)).run db w = (.ok ((), db₁), w₁) →
      (createPayout t input).run db w = (r, db', w') → r ≠ .error uniqueViolation →
      PaysAll t (db.settlementCurrency t) db₁ r := by
  intro h
  have hreached : Reached afterSecondSale.1 := (Reached.init walletFeeConfig).execute secondSale .counting
  have hall := h _ _ _ _ _ _ 1 (payoutInput "second") _ hreached (by rfl)
    (sweep_nothing afterSecondSale.2 (by decide)) (rfl : _ = (_, _, _)) (by decide)
  have hamount : (payoutOf afterSecondSale "second").1.map (·.amount) = .ok 900 := by rfl
  have heligible : afterSecondSale.1.eligible 1 .mad = 950 := by decide
  rcases hall with ⟨payout, hpayout, hpaid⟩ | ⟨hrefused, -⟩
  · rw [show (payoutOf afterSecondSale "second").1 = .ok payout from hpayout] at hamount
    cases hamount.symm.trans (congrArg Except.ok (hpaid.trans heligible))
  · rw [show (payoutOf afterSecondSale "second").1 = .error noEligibleFunds from hrefused] at hamount
    cases hamount

end CorpoPay.Settlement
