import CorpoPay.Settlement.FxSettlement
import CorpoPay.Settlement.Lemmas.ChangeBalance

/-!
# Main theorem: a conversion conserves value

Whatever the two rates are, the ledger accepts the postings of a conversion, and they move the amount and nothing else.
-/

namespace CorpoPay.Settlement

open Transaction.Tx

/-! ## What a conversion moves -/

/-- What a conversion adds to an account: the amount leaves AVAILABLE in `base` and enters it in `quote` at the locked
rate, FEES takes the difference to the reference rate, and CASH is on the other side of everything. -/
def conversionEffect (base quote : Currency) (amount : Int) (lockedRate referenceRate : Nat) (account : LedgerAccount)
    (currency : Currency) : Int :=
  match account with
  | .available => if currency = base then -amount else if currency = quote then convertMinor amount lockedRate else 0
  | .fees => if currency = quote then convertMinor amount referenceRate - convertMinor amount lockedRate else 0
  | .cash => if currency = base then amount else if currency = quote then -convertMinor amount referenceRate else 0
  | _ => 0

/-- The sum of the movements in a currency. -/
def netOf (ms : List Movement) (currency : Currency) : Int := ((ms.filter (·.currency = currency)).map (·.delta)).sum

/-- The movements of the postings of a plan. -/
def FxConversionPlan.movements (plan : FxConversionPlan) (t : Id) : List Movement :=
  plan.postings.flatMap (·.movements t)

theorem convertMinor_nonneg {amount : Int} (hamount : 0 ≤ amount) (rate : Nat) : 0 ≤ convertMinor amount rate :=
  roundDiv_nonneg (Int.mul_nonneg hamount (Int.natCast_nonneg rate)) (by decide)

section Posting

variable {src dst : LedgerAccount} {amount : Int} {category : LedgerCategory} {c : Currency} {m : Meta}

theorem valid_between (hdiffer : src ≠ dst) (hamount : 0 ≤ amount) :
    (⟨debit src amount category none c, credit dst amount category none c, m⟩ : LedgerPosting).Valid where
  debit_direction := rfl
  credit_direction := rfl
  currency := rfl
  amount := rfl
  nonneg := hamount
  differ h := hdiffer h.1

theorem posting_between (hdiffer : src ≠ dst) (hamount : 0 ≤ amount) :
    posting (debit src amount category none c) (credit dst amount category none c) m =
      .ok ⟨debit src amount category none c, credit dst amount category none c, m⟩ :=
  posting_self (valid_between hdiffer hamount)

/-- A posting within one currency cancels. -/
theorem netOf_posting (p : LedgerPosting) (hp : p.Valid) (t : Id) (currency : Currency) :
    netOf (p.movements t) currency = 0 := by
  have hdelta : p.debit.currency = currency →
      delta p.debit.direction p.debit.amountCents + delta p.credit.direction p.credit.amountCents = 0 := by
    intro _
    rw [hp.debit_direction, hp.credit_direction, hp.amount]
    simp [delta]
  by_cases h : p.debit.currency = currency
  · simpa [netOf, LedgerPosting.movements, LedgerLeg.movement, h, hp.currency ▸ h, Movement.delta] using hdelta h
  · simp [netOf, LedgerPosting.movements, LedgerLeg.movement, h, hp.currency ▸ h]

theorem netOf_flatMap {ps : List LedgerPosting} (h : ∀ p ∈ ps, p.Valid) (t : Id) (currency : Currency) :
    netOf (ps.flatMap (·.movements t)) currency = 0 := by
  induction ps with
  | nil => rfl
  | cons p ps ih =>
      have hsplit : netOf ((p :: ps).flatMap (·.movements t)) currency =
          netOf (p.movements t) currency + netOf (ps.flatMap (·.movements t)) currency := by simp [netOf]
      rw [hsplit, netOf_posting p (h p List.mem_cons_self), ih fun q hq => h q (List.mem_cons_of_mem _ hq), add_zero]

end Posting

section Plan

variable {base quote : Currency} {amount : Int} {lockedRate referenceRate : Nat}

/-- The postings of the gain or the loss. -/
def adjustment (quote : Currency) (gainLoss : Int) : List LedgerPosting :=
  if 0 < gainLoss then
    [⟨debit .cash gainLoss .fxAdjustment none quote, credit .fees gainLoss .fxAdjustment none quote,
      ⟨some .fxAdjustment, none⟩⟩]
  else if gainLoss < 0 then
    [⟨debit .fees (-gainLoss) .fxAdjustment none quote, credit .cash (-gainLoss) .fxAdjustment none quote,
      ⟨some .fxAdjustment, none⟩⟩]
  else []

/-- The plan of an amount between different currencies. -/
theorem planFxConversion_eq (hne : base ≠ quote) (hamount : 0 ≤ amount) (lockedRate referenceRate : Nat) :
    planFxConversion base quote amount lockedRate referenceRate = .ok
      { amountToMinor := convertMinor amount lockedRate,
        gainLossMinor := convertMinor amount referenceRate - convertMinor amount lockedRate,
        postings :=
          ⟨debit .available amount .adjustment none base, credit .cash amount .adjustment none base,
            ⟨some .fxConversion, none⟩⟩ ::
          ⟨debit .cash (convertMinor amount lockedRate) .adjustment none quote,
            credit .available (convertMinor amount lockedRate) .adjustment none quote, ⟨some .fxConversion, none⟩⟩ ::
          adjustment quote (convertMinor amount referenceRate - convertMinor amount lockedRate) } := by
  have hlocked := convertMinor_nonneg hamount lockedRate
  unfold planFxConversion adjustment
  rw [if_neg hne]
  dsimp only
  rw [posting_between (by decide) hamount, posting_between (by decide) hlocked]
  simp only [Bind.bind, Except.bind]
  split_ifs with hgain hloss
  · rw [posting_between (by decide) hgain.le]
  · rw [posting_between (by decide) (by omega)]
  · rfl

theorem adjustment_valid (gainLoss : Int) : ∀ p ∈ adjustment quote gainLoss, p.Valid := by
  intro p hp
  unfold adjustment at hp
  split_ifs at hp with hgain hloss
  · rw [List.mem_singleton.mp hp]
    exact valid_between (by decide) hgain.le
  · rw [List.mem_singleton.mp hp]
    exact valid_between (by decide) (by omega)
  · cases hp

theorem planFxConversion_valid (hne : base ≠ quote) (hamount : 0 ≤ amount) {plan : FxConversionPlan}
    (h : planFxConversion base quote amount lockedRate referenceRate = .ok plan) : ∀ p ∈ plan.postings, p.Valid := by
  rw [planFxConversion_eq hne hamount] at h
  obtain rfl := Except.ok.inj h
  intro p hp
  simp only [List.mem_cons] at hp
  rcases hp with rfl | rfl | hp
  · exact valid_between (by decide) hamount
  · exact valid_between (by decide) (convertMinor_nonneg hamount lockedRate)
  · exact adjustment_valid _ p hp

/-- The adjustment moves the difference between CASH and FEES. -/
theorem balance_adjustment (quote : Currency) (gainLoss : Int) (t : Id) (account : LedgerAccount) (currency : Currency) :
    balance ((adjustment quote gainLoss).flatMap (·.movements t)) t account currency =
      hit .fees quote account currency gainLoss - hit .cash quote account currency gainLoss := by
  unfold adjustment
  split_ifs with hgain hloss
  · rw [List.flatMap_singleton, balance_posting]
  · rw [List.flatMap_singleton, balance_posting]
    unfold hit
    split_ifs <;> omega
  · obtain rfl : gainLoss = 0 := by omega
    simp [hit]

/-- The movements of a plan are worth the effect of the conversion. -/
theorem balance_movements (hne : base ≠ quote) (hamount : 0 ≤ amount) {plan : FxConversionPlan}
    (h : planFxConversion base quote amount lockedRate referenceRate = .ok plan) (t : Id) (account : LedgerAccount)
    (currency : Currency) :
    balance (plan.movements t) t account currency =
      conversionEffect base quote amount lockedRate referenceRate account currency := by
  rw [planFxConversion_eq hne hamount] at h
  obtain rfl := Except.ok.inj h
  simp only [FxConversionPlan.movements, List.flatMap_cons, balance_append, balance_adjustment, balance_posting]
  by_cases hbase : currency = base
  · subst hbase
    cases account <;> simp [hit, conversionEffect, hne, hne.symm]
  · by_cases hquote : currency = quote
    · subst hquote
      cases account <;> simp [hit, conversionEffect, hbase, Ne.symm hbase]
      omega
    · cases account <;> simp [hit, conversionEffect, hbase, hquote, Ne.symm hbase, Ne.symm hquote]

/-- Nothing of another tenant moves. -/
theorem balance_movements_of_ne (plan : FxConversionPlan) {t t' : Id} (h : t' ≠ t) (account : LedgerAccount)
    (currency : Currency) : balance (plan.movements t) t' account currency = 0 := by
  rw [FxConversionPlan.movements, balance_flatMap]
  refine List.sum_eq_zero fun v hv => ?_
  obtain ⟨p, -, rfl⟩ := List.mem_map.mp hv
  simp [LedgerPosting.movements, LedgerLeg.movement, Movement.on, h.symm]

end Plan

/-- Apply the postings of a plan in a transaction. -/
def applyPlan (t : Id) (plan : FxConversionPlan) : Tx Unit :=
  forEach (fun p => do let _ ← postEntry t p; pure ()) plan.postings

theorem books_applyPlan (t : Id) (plan : FxConversionPlan) : Books (plan.movements t) (applyPlan t plan) :=
  books_forEach (fun p => by
    rw [← List.append_nil (p.movements t)]
    exact books_bind (fun db => ensures_postEntry fun _ _ _ h => h) fun _ db => .refl db) plan.postings

/-- Main theorem: between two currencies, at any rates, a conversion is planned, the ledger accepts every posting of it,
each currency is in balance, and applied to any ledger the plan adds the effect of the conversion to the accounts of
the tenant and nothing to those of others. -/
theorem planFxConversion_conserves (base quote : Currency) (amount : Int) (lockedRate referenceRate : Nat)
    (hne : base ≠ quote) (hamount : 0 < amount) :
    ∃ plan, planFxConversion base quote amount lockedRate referenceRate = .ok plan ∧
      (∀ p ∈ plan.postings, posting p.debit p.credit p.source = .ok p) ∧
      (∀ t currency, netOf (plan.movements t) currency = 0) ∧
      ∀ (t : Id) (db db' : Db) (w w' : World), (applyPlan t plan).run db w = (.ok ((), db'), w') →
        ∀ t' account currency, db'.accountBalance t' account currency = db.accountBalance t' account currency +
          if t' = t then conversionEffect base quote amount lockedRate referenceRate account currency else 0 := by
  have hplan := planFxConversion_eq hne hamount.le lockedRate referenceRate
  have hvalid := planFxConversion_valid hne hamount.le hplan
  refine ⟨_, hplan, fun p hp => posting_self (hvalid p hp), fun t currency => netOf_flatMap hvalid t currency,
    fun t db db' w w' hrun t' account currency => ?_⟩
  have happended := ((books_applyPlan t _ db).run w).1 _ _ _ hrun
  rw [Db.accountBalance_append happended.movements_eq]
  split_ifs with ht
  · rw [ht, balance_movements hne hamount.le hplan]
  · rw [balance_movements_of_ne _ ht]

/-- 0.01 EUR at a rate that rounds to nothing: the reference rate brings a gain of 0.11 MAD. -/
theorem planFxConversion_conserves_gain :
    ∃ plan db' w', planFxConversion .eur .mad 1 1 1080000000 = .ok plan ∧ plan.amountToMinor = 0 ∧ plan.gainLossMinor = 11 ∧
      (applyPlan 1 plan).run (.empty plainConfig) .counting = (.ok ((), db'), w') ∧ db'.accountBalance 1 .fees .mad = 11 ∧
        db'.accountBalance 1 .cash .mad = -11 ∧ ∀ account currency, db'.accountBalance 2 account currency = 0 := by
  obtain ⟨plan, hplan, -, -, hbalances⟩ := planFxConversion_conserves .eur .mad 1 1 1080000000 (by decide) (by decide)
  have hok := @planFxConversion_eq .eur .mad 1 (by decide) (by decide) 1 1080000000
  obtain rfl := Except.ok.inj (hplan.symm.trans hok)
  have hafter := hbalances 1 (.empty plainConfig) _ .counting _ rfl
  refine ⟨_, _, _, hok, by decide, by decide, rfl, ?_, ?_, fun account currency => ?_⟩
  · rw [hafter]
    decide
  · rw [hafter]
    decide
  · rw [hafter, if_neg (by decide)]
    rfl

end CorpoPay.Settlement
