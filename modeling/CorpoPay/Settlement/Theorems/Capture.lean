import CorpoPay.Settlement.Lemmas.CaptureBalance

/-!
# The balances after a capture

A capture that settles is meant to leave COLLECTED as it was and to make no account negative. It does so exactly
when fee, tax and reserve fit into the money they are taken from: the gross, or with an AT_CAPTURE rule the AVAILABLE
balance after the split.
-/

namespace CorpoPay.Settlement

/-- What a settled capture is meant to do to the balances of its tenant. -/
structure CapturePostcondition (t : Id) (input : SettleCaptureInput) (plan : CaptureSettlementPlan) (db db' : Db) :
    Prop where
  nonneg : 0 ≤ plan.feeCents ∧ 0 ≤ plan.taxCents ∧ 0 ≤ plan.reserveCents
  collected : db'.accountBalance t .collected input.captureCurrency = db.accountBalance t .collected input.captureCurrency
  cash : db'.accountBalance t .cash input.captureCurrency =
    db.accountBalance t .cash input.captureCurrency - input.amountCents
  fees : db'.accountBalance t .fees input.captureCurrency =
    db.accountBalance t .fees input.captureCurrency + plan.feeCents
  taxPayable : db'.accountBalance t .taxPayable input.captureCurrency =
    db.accountBalance t .taxPayable input.captureCurrency + plan.taxCents
  reserve : db'.accountBalance t .reserve input.captureCurrency =
    db.accountBalance t .reserve input.captureCurrency + plan.reserveCents
  available : db'.accountBalance t .available input.captureCurrency =
    db.accountBalance t .available input.captureCurrency
      + (input.amountCents - plan.feeCents - plan.taxCents - plan.reserveCents)
  no_new_negative : ∀ a c, a ≠ .cash → 0 ≤ db.accountBalance t a c → 0 ≤ db'.accountBalance t a c

/-- Fee, tax and reserve fit into what they are taken from. -/
def CaptureFits (t : Id) (input : SettleCaptureInput) (cp : CapturePlan) (db : Db) : Prop :=
  match cp.rule with
  | none => cp.plan.feeCents + cp.plan.taxCents + cp.plan.reserveCents ≤ input.amountCents
  | some _ =>
      db.accountBalance t .available input.captureCurrency < 0 ∨
        cp.plan.feeCents + cp.plan.taxCents + cp.plan.reserveCents ≤
          db.accountBalance t .available input.captureCurrency + input.amountCents

/-! ## A capture that was booked -/

/-- What fits leaves COLLECTED as it was. -/
theorem CaptureFits.shortfall_eq_zero {t : Id} {input : SettleCaptureInput} {cp : CapturePlan} {db : Db}
    (h : CaptureFits t input cp db) : cp.shortfall input.amountCents = 0 := by
  unfold CapturePlan.shortfall
  unfold CaptureFits at h
  cases hrule : cp.rule with
  | none =>
      simp only [hrule] at h
      simp only [Option.isSome_none, Bool.false_eq_true, ↓reduceIte]
      omega
  | some _ => simp

section

variable {t : Id} {input : SettleCaptureInput} {cp : CapturePlan} {db db' : Db}
  (hvalid : ∀ p ∈ db.settlementPolicies, p.toPolicySpec.Valid) (hcp : capturePlan db.toConfig t input = .ok cp)
  (ha : Appends (captureMovements t input cp) db db')
include hvalid hcp ha

theorem captured_balance (a : LedgerAccount) (c : Currency) :
    db'.accountBalance t a c = db.accountBalance t a c +
      (hit .fees input.captureCurrency a c cp.plan.feeCents
        + hit .taxPayable input.captureCurrency a c cp.plan.taxCents
        + hit .reserve input.captureCurrency a c cp.plan.reserveCents
        + hit .available input.captureCurrency a c (input.amountCents - cp.plan.feeCents - cp.plan.taxCents
            - cp.plan.reserveCents + cp.shortfall input.amountCents)
        - hit .collected input.captureCurrency a c (cp.shortfall input.amountCents)
        - hit .cash input.captureCurrency a c input.amountCents) := by
  rw [Db.accountBalance_eq, Db.accountBalance_eq, ha.balance_eq, balance_capture hvalid hcp]

/-- COLLECTED shows a shortfall without a rule, AVAILABLE one with a rule. -/
theorem captureFits_of_postcondition (h : CapturePostcondition t input cp.plan db db') : CaptureFits t input cp db := by
  have hcollected := captured_balance hvalid hcp ha .collected input.captureCurrency
  simp only [hit_currency, reduceCtorEq, ↓reduceIte] at hcollected
  have hzero : cp.shortfall input.amountCents = 0 := by
    have := h.collected
    omega
  unfold CaptureFits
  unfold CapturePlan.shortfall at hzero
  cases hrule : cp.rule with
  | none =>
      simp only [hrule, Option.isSome_none, Bool.false_eq_true, ↓reduceIte] at hzero
      dsimp only
      omega
  | some _ =>
      have hkept := h.no_new_negative .available input.captureCurrency (by decide)
      rw [h.available] at hkept
      dsimp only
      omega

theorem available_of_captureFits (h : CaptureFits t input cp db)
    (hnonneg : 0 ≤ db.accountBalance t .available input.captureCurrency) :
    0 ≤ db'.accountBalance t .available input.captureCurrency := by
  have havailable := captured_balance hvalid hcp ha .available input.captureCurrency
  simp only [hit_currency, reduceCtorEq, ↓reduceIte, h.shortfall_eq_zero] at havailable
  unfold CaptureFits at h
  cases hrule : cp.rule with
  | none => simp only [hrule] at h; omega
  | some _ => simp only [hrule] at h; omega

theorem postcondition_of_captureFits (h : CaptureFits t input cp db) : CapturePostcondition t input cp.plan db db' := by
  obtain ⟨hf, ht, hres, -, -⟩ := capturePlan_spec hvalid hcp
  have hbal := captured_balance hvalid hcp ha
  have hzero := h.shortfall_eq_zero
  refine ⟨⟨hf, ht, hres⟩, ?_, ?_, ?_, ?_, ?_, ?_, fun a c hcash hnonneg => ?_⟩
  · simp [hbal, hzero]
  · simp [hbal]; omega
  · simp [hbal]
  · simp [hbal]
  · simp [hbal]
  · simp [hbal, hzero]
  · by_cases hc : input.captureCurrency = c
    · subst hc
      cases a with
      | available => exact available_of_captureFits hvalid hcp ha h hnonneg
      | cash => exact absurd rfl hcash
      | _ => simp only [hbal, hit_currency, hzero, reduceCtorEq, ↓reduceIte]; omega
    · simpa [hbal, hit, hc] using hnonneg

end

/-- For every configuration that the API accepts: a capture that settles meets its postcondition exactly when it fits, and
a capture that does not settle changes nothing. -/
theorem settleCapture_postcondition_iff {t : Id} {input : SettleCaptureInput} {db db' : Db} {w w' : World}
    {r : Except Failure Bool} (haccepted : db.Accepted)
    (hrun : (settleCapture t input).run db w = (r, db', w')) :
    (r = .ok true → ∃ cp, capturePlan db.toConfig t input = .ok cp ∧
      (CapturePostcondition t input cp.plan db db' ↔ CaptureFits t input cp db)) ∧
    (r ≠ .ok true → db' = db) := by
  have hvalid := haccepted.settlementPolicies
  rcases settleCapture_run hrun with ⟨rfl, -, -, cp, hcp, ha⟩ | ⟨hr, rfl⟩
  · exact ⟨fun _ => ⟨cp, hcp, captureFits_of_postcondition hvalid hcp ha, postcondition_of_captureFits hvalid hcp ha⟩,
      fun h => absurd rfl h⟩
  · exact ⟨fun h => absurd h hr, fun _ => rfl⟩

/-! ## A flat fee above the gross -/

def flatFee (flatCents : Int) : FeeScheduleSpec :=
  { feeType := .flat, flatCents := some flatCents, percentageBps := none, perMethodCents := none, tiersCents := none }

def noReserve : PolicySpec := { resolvePolicy DEFAULT_PRESET with reserveType := .none }

/-- One tenant with a flat fee of 5.00, a tax rate and no reserve. -/
def flatFeeConfig (taxRateBps : Int) : Config :=
  { tenants := [{ id := 1, settlementCurrency := .mad, taxRateBps, taxExempt := false }]
    feeSchedules := [{ toFeeScheduleSpec := flatFee 500, id := 1, tenantId := 1, version := 1, isActive := true }]
    settlementPolicies := [{ toPolicySpec := noReserve, id := 1, tenantId := 1, version := 1, isActive := true }]
    splitParties := [], splitRules := [], financeConfigs := [], providerConfigs := [] }

def captureOf (amountCents : Int) : SettleCaptureInput :=
  { intentId := 7, amountCents, currency := none, method := none }

/-- The tenant of `flatFeeConfig` before and after a capture. -/
def flatFeeDb : Db := .empty (flatFeeConfig 0)

def flatFeeCaptured (amountCents : Int) : Except Failure Bool × Db × World :=
  (settleCapture 1 (captureOf amountCents)).run flatFeeDb World.counting

theorem flatFeeConfig_accepted (taxRateBps : Int) (h : 0 ≤ taxRateBps ∧ taxRateBps ≤ 10000) :
    (flatFeeConfig taxRateBps).Accepted where
  feeSchedules := by
    simp only [flatFeeConfig, List.mem_singleton, forall_eq]
    exact ⟨by simp [flatFee], by simp [flatFee], by simp [flatFee], by simp [flatFee]⟩
  tenants := by simpa [flatFeeConfig, TaxSpec.Valid] using h
  settlementPolicies := by
    simp only [flatFeeConfig, List.mem_singleton, forall_eq]
    decide
  splitRules := by simp [flatFeeConfig]

/-- A gross of 10.00 covers the fee. -/
theorem settleCapture_postcondition_of_covered :
    ∃ cp, capturePlan flatFeeDb.toConfig 1 (captureOf 1000) = .ok cp ∧
      CapturePostcondition 1 (captureOf 1000) cp.plan flatFeeDb (flatFeeCaptured 1000).2.1 := by
  obtain ⟨cp, hcp, hiff⟩ := (settleCapture_postcondition_iff (flatFeeConfig_accepted 0 (by decide))
    (rfl : (settleCapture 1 (captureOf 1000)).run flatFeeDb World.counting = (_, _, _))).1 (by rfl)
  refine ⟨cp, hcp, hiff.mpr ?_⟩
  cases hcp
  exact (by decide : (500 + 0 + 0 : Int) ≤ 1000)

/-- A gross of 1.00 does not: COLLECTED ends below zero. -/
theorem settleCapture_overdraws_collected :
    ¬ ∀ (t : Id) (input : SettleCaptureInput) (db db' : Db) (w w' : World), db.Accepted →
      (settleCapture t input).run db w = (.ok true, db', w') →
      ∃ cp, capturePlan db.toConfig t input = .ok cp ∧ CapturePostcondition t input cp.plan db db' := by
  intro h
  obtain ⟨cp, -, hpost⟩ := h 1 (captureOf 100) flatFeeDb (flatFeeCaptured 100).2.1 World.counting
    (flatFeeCaptured 100).2.2 (flatFeeConfig_accepted 0 (by decide)) (by rfl)
  have := hpost.collected
  revert this
  decide

end CorpoPay.Settlement
