import CorpoPay.Settlement.Lemmas.Refund
import CorpoPay.Settlement.Theorems.Capture

/-!
# A capture and its refund

A refund is meant to bring every balance back to its value before the capture. The refund knows neither the tax nor
the beneficiaries, and it takes what the split moved out of AVAILABLE a second time: it unwinds the capture exactly
when there was nothing of that.
-/

namespace CorpoPay.Settlement

/-- Every balance of the tenant is as it was, and so is every party's part of AVAILABLE. -/
structure Restored (t : Id) (db db' : Db) : Prop where
  balances : ∀ a c, db'.accountBalance t a c = db.accountBalance t a c
  parties : ∀ c p, partyBalance db'.movements t .available c p = partyBalance db.movements t .available c p

/-- No earlier credit carries the tag of the intent, there is no tax, and fee and reserve fit into the gross; with a
rule, there is no fee, no reserve and nothing for a beneficiary. -/
structure RefundUnwinds (t : Id) (input : SettleCaptureInput) (cp : CapturePlan) (db : Db) : Prop where
  prior_amount : ∀ m ∈ db.refundable t input.intentId, m.amount ≤ 0
  prior_currency : ∀ m ∈ (db.refundable t input.intentId).head?, m.currency = input.captureCurrency
  no_tax : cp.plan.taxCents = 0
  covered :
    match cp.rule with
    | none => cp.plan.feeCents + cp.plan.reserveCents ≤ input.amountCents
    | some (_, result) =>
        cp.plan.feeCents = 0 ∧ cp.plan.reserveCents = 0 ∧ ∀ s ∈ result.shares, s.amountCents = 0

/-! ## The currency of a refund -/

theorem captureMovements_currency {t : Id} {input : SettleCaptureInput} {cp : CapturePlan} :
    ∀ m ∈ captureMovements t input cp, m.currency = input.captureCurrency := by
  have hmoved : ∀ amount category src dst, ∀ m ∈ moved t input amount category src dst,
      m.currency = input.captureCurrency := by
    intro amount category src dst
    unfold moved positiveMovements
    split_ifs <;> simp [LedgerPosting.movements, LedgerLeg.movement, debit, credit]
  have hgross : ∀ m ∈ grossMovements t input, m.currency = input.captureCurrency := by
    simp [grossMovements, LedgerPosting.movements, LedgerLeg.movement, debit, credit]
  have hnet : ∀ m ∈ netMovements t input cp, m.currency = input.captureCurrency := by
    unfold netMovements
    split
    · simp
    · exact hmoved _ _ _ _
  have hrule : ∀ m ∈ ruleMovements t input cp, m.currency = input.captureCurrency := by
    unfold ruleMovements
    split
    · intro m hm
      rcases List.mem_append.mp hm with hm | hm
      · obtain ⟨s, -, hm⟩ := List.mem_flatMap.mp hm
        simp only [shareMovements, LedgerPosting.movements, LedgerLeg.movement, debit, credit, List.mem_cons,
          List.not_mem_nil, or_false] at hm
        rcases hm with rfl | rfl <;> rfl
      · unfold platformMovements at hm
        split_ifs at hm
        · simp only [LedgerPosting.movements, LedgerLeg.movement, debit, credit, List.mem_cons, List.not_mem_nil,
            or_false] at hm
          rcases hm with rfl | rfl <;> rfl
        · simp at hm
    · simp
  intro m hm
  simp only [captureMovements, List.mem_append] at hm
  rcases hm with h | h | h | h | h | h
  · exact hgross m h
  · exact hrule m h
  · exact hmoved _ _ _ _ m h
  · exact hmoved _ _ _ _ m h
  · exact hmoved _ _ _ _ m h
  · exact hnet m h

/-- The refund is booked in the currency of the first refundable credit: an earlier one, or the capture's. -/
theorem refund_currency_iff {t : Id} {input : SettleCaptureInput} {cp : CapturePlan} {db db₁ : Db} {first : Movement}
    {rest : List Movement} (ha : Appends (captureMovements t input cp) db db₁)
    (hfirst : db₁.refundable t input.intentId = first :: rest) :
    first.currency = input.captureCurrency ↔
      ∀ m ∈ (db.refundable t input.intentId).head?, m.currency = input.captureCurrency := by
  have hsplit : db₁.refundable t input.intentId =
      db.refundable t input.intentId ++ (captureMovements t input cp).filter (·.isRefundable t input.intentId) := by
    rw [Db.refundable, ha.movements_eq, List.filter_append]; rfl
  rw [hsplit] at hfirst
  cases hp : db.refundable t input.intentId with
  | cons m ms =>
      rw [hp] at hfirst
      obtain ⟨rfl, -⟩ := List.cons_eq_cons.mp hfirst
      simp
  | nil =>
      rw [hp, List.nil_append] at hfirst
      have hmem : first ∈ (captureMovements t input cp).filter (·.isRefundable t input.intentId) := by
        rw [hfirst]; exact List.mem_cons_self
      simp [captureMovements_currency first (List.mem_filter.mp hmem).1]

/-! ## What the rule moved -/

theorem shareOf_eq_zero_iff {cp : CapturePlan} {gross : Int} {shares : List ShareSpec}
    {rule : SplitRule} {result : SplitResult} (hrule : cp.rule = some (rule, result))
    (hr : split gross shares = .ok result) :
    (∀ q, cp.shareOf q = 0) ↔ ∀ s ∈ result.shares, s.amountCents = 0 := by
  obtain ⟨-, hnn, -, -, -⟩ := split_spec hr
  simp only [CapturePlan.shareOf, hrule]
  constructor
  · intro h s hs
    have hle : ∀ x ∈ result.shares.map (fun s' => if s'.partyId = s.partyId then s'.amountCents else 0), 0 ≤ x := by
      intro x hx
      obtain ⟨s', hs', rfl⟩ := List.mem_map.mp hx
      split_ifs
      · exact hnn s' hs'
      · exact le_refl _
    have hmem : s.amountCents ∈ result.shares.map (fun s' => if s'.partyId = s.partyId then s'.amountCents else 0) :=
      List.mem_map.mpr ⟨s, hs, by simp⟩
    have := List.single_le_sum hle _ hmem
    have := h s.partyId
    have := hnn s hs
    omega
  · intro h q
    refine List.sum_eq_zero fun x hx => ?_
    obtain ⟨s, hs, rfl⟩ := List.mem_map.mp hx
    simp [h s hs]

theorem RefundUnwinds.shareOf_eq_zero {t : Id} {input : SettleCaptureInput} {cp : CapturePlan} {db : Db}
    (h : RefundUnwinds t input cp db) (q : Id) : cp.shareOf q = 0 := by
  have hcov := h.covered
  unfold CapturePlan.shareOf
  rcases hrule : cp.rule with _ | ⟨rule, result⟩
  · rfl
  · simp only [hrule] at hcov
    refine List.sum_eq_zero fun x hx => ?_
    obtain ⟨s, hs, rfl⟩ := List.mem_map.mp hx
    simp [hcov.2.2 s hs]

theorem RefundUnwinds.shareTotal_eq_zero {t : Id} {input : SettleCaptureInput} {cp : CapturePlan} {db : Db}
    (h : RefundUnwinds t input cp db) : cp.shareTotal = 0 := by
  have hcov := h.covered
  unfold CapturePlan.shareTotal
  rcases hrule : cp.rule with _ | ⟨rule, result⟩
  · rfl
  · simp only [hrule] at hcov
    refine List.sum_eq_zero fun x hx => ?_
    obtain ⟨s, hs, rfl⟩ := List.mem_map.mp hx
    exact hcov.2.2 s hs

/-! ## A capture, and then its refund -/

/-- Nothing that carries the tag is positive exactly when there is nothing to take back from the three accounts. -/
theorem refundable_nonpos_iff (db : Db) (t intentId : Id) :
    (∀ m ∈ db.refundable t intentId, m.amount ≤ 0) ↔
      refundedSum db.movements t intentId .available = 0 ∧ refundedSum db.movements t intentId .fees = 0 ∧
        refundedSum db.movements t intentId .reserve = 0 := by
  simp only [refundedSum_eq_zero_iff, Db.refundable, List.mem_filter]
  constructor
  · intro h
    exact ⟨fun m hm hi _ => h m ⟨hm, hi⟩, fun m hm hi _ => h m ⟨hm, hi⟩, fun m hm hi _ => h m ⟨hm, hi⟩⟩
  · rintro ⟨h₁, h₂, h₃⟩ m ⟨hm, hi⟩
    rcases mem_refundedAccounts m t _ hi with h | h | h
    · exact h₁ m hm hi h
    · exact h₂ m hm hi h
    · exact h₃ m hm hi h

/-- The movements of a capture, and after them those of a refund of its intent. -/
structure Unwinding (t : Id) (input : SettleCaptureInput) (cp : CapturePlan) (refundId : Id) (db db₁ db₂ : Db) :
    Prop where
  settlementPolicies : ∀ p ∈ db.settlementPolicies, p.toPolicySpec.Valid
  gross : 0 < input.amountCents
  plan : capturePlan db.toConfig t input = .ok cp
  captured : Appends (captureMovements t input cp) db db₁
  refunded : ∃ first rest, db₁.refundable t input.intentId = first :: rest ∧
    Appends ((first :: rest).flatMap (reversal t refundId first.currency)) db₁ db₂

/-- What the refund takes from an account: what carried the tag before, and the credits of the capture. -/
def takenBack (t : Id) (input : SettleCaptureInput) (cp : CapturePlan) (db : Db) (a : LedgerAccount) : Int :=
  refundedSum db.movements t input.intentId a + refundedSum (captureMovements t input cp) t input.intentId a

section

variable {t refundId : Id} {input : SettleCaptureInput} {cp : CapturePlan} {db db₁ db₂ : Db}
  (h : Unwinding t input cp refundId db db₁ db₂)
include h

theorem Unwinding.takenBack_eq (a : LedgerAccount) :
    refundedSum db₁.movements t input.intentId a = takenBack t input cp db a := by
  rw [h.captured.movements_eq, refundedSum_append, takenBack]

/-- The capture and the refund, account by account and party by party. -/
theorem Unwinding.changes : ∃ currency : Currency,
    (currency = input.captureCurrency ↔
      ∀ m ∈ (db.refundable t input.intentId).head?, m.currency = input.captureCurrency) ∧
    (∀ a c, db₂.accountBalance t a c = db.accountBalance t a c + balance (captureMovements t input cp) t a c
      + (hit .cash currency a c (takenBack t input cp db .available + takenBack t input cp db .fees
            + takenBack t input cp db .reserve)
        - hit .available currency a c (takenBack t input cp db .available)
        - hit .fees currency a c (takenBack t input cp db .fees)
        - hit .reserve currency a c (takenBack t input cp db .reserve))) ∧
    ∀ c p, partyBalance db₂.movements t .available c p = partyBalance db.movements t .available c p
      + partyBalance (captureMovements t input cp) t .available c p
      + if p = none then - hit .available currency .available c (takenBack t input cp db .available) else 0 := by
  obtain ⟨first, rest, hfirst, hr⟩ := h.refunded
  have hreversals : ∀ a c, balance ((first :: rest).flatMap (reversal t refundId first.currency)) t a c =
      hit .cash first.currency a c (takenBack t input cp db .available + takenBack t input cp db .fees
            + takenBack t input cp db .reserve)
        - hit .available first.currency a c (takenBack t input cp db .available)
        - hit .fees first.currency a c (takenBack t input cp db .fees)
        - hit .reserve first.currency a c (takenBack t input cp db .reserve) := by
    intro a c
    simp only [← h.takenBack_eq]
    rw [← hfirst]
    exact balance_reversals ..
  refine ⟨first.currency, refund_currency_iff h.captured hfirst, fun a c => ?_, fun c p => ?_⟩
  · rw [Db.accountBalance_eq, Db.accountBalance_eq, hr.balance_eq, h.captured.balance_eq, hreversals]
  · rw [hr.movements_eq, h.captured.movements_eq, partyBalance_append, partyBalance_append,
      partyBalance_of_none reversals_party, hreversals]
    simp [hit]

/-- What is restored was unwound: CASH shows the currency, and each other account its own part of the condition. -/
theorem Unwinding.unwinds (hrestored : Restored t db db₂) : RefundUnwinds t input cp db := by
  obtain ⟨currency, hcur, hbal, hparty⟩ := h.changes
  obtain ⟨hca, hcf, hcr⟩ := refunded_capture h.settlementPolicies h.plan
  obtain ⟨hf, ht, hres, hnet, hsplit⟩ := capturePlan_spec h.settlementPolicies h.plan
  have hgross := h.gross
  have hpa := refundedSum_nonneg db.movements t input.intentId .available
  have hpf := refundedSum_nonneg db.movements t input.intentId .fees
  have hpr := refundedSum_nonneg db.movements t input.intentId .reserve
  simp only [takenBack, hca, hcf, hcr, balance_capture h.settlementPolicies h.plan] at hbal
  have hk : currency = input.captureCurrency := by
    by_contra hne
    have := hrestored.balances .cash input.captureCurrency
    rw [hbal] at this
    simp [hit, hne] at this
    omega
  have hleft := fun a => (hbal a input.captureCurrency).symm.trans (hrestored.balances a input.captureCurrency)
  have hcash := hleft .cash
  have hfees := hleft .fees
  have hreserve := hleft .reserve
  have htax := hleft .taxPayable
  have havailable := hleft .available
  simp only [hk, hit_currency, reduceCtorEq, ↓reduceIte] at hcash hfees hreserve htax havailable
  have hshares : ∀ q, cp.shareOf q = 0 := by
    intro q
    have := hrestored.parties input.captureCurrency (some q)
    rw [hparty, partyBalance_capture] at this
    simpa using this
  rcases hrule : cp.rule with _ | ⟨rule, result⟩
  · simp only [CapturePlan.availableCredits, CapturePlan.shortfall, hrule, Option.isSome_none, Bool.false_eq_true,
      ↓reduceIte, hnet hrule] at hcash hfees hreserve htax havailable
    refine ⟨(refundable_nonpos_iff ..).mpr (by omega), hcur.mp hk, by omega, ?_⟩
    simp only [hrule]
    omega
  · simp only [CapturePlan.availableCredits, CapturePlan.shortfall, hrule, Option.isSome_some,
      ↓reduceIte] at hcash hfees hreserve htax havailable
    refine ⟨(refundable_nonpos_iff ..).mpr (by omega), hcur.mp hk, by omega, ?_⟩
    simp only [hrule]
    exact ⟨by omega, by omega, (shareOf_eq_zero_iff hrule (hsplit _ _ hrule)).mp hshares⟩

theorem Unwinding.balances (hunwinds : RefundUnwinds t input cp db) (a : LedgerAccount) (c : Currency) :
    db₂.accountBalance t a c = db.accountBalance t a c := by
  obtain ⟨currency, hcur, hbal, -⟩ := h.changes
  obtain ⟨hca, hcf, hcr⟩ := refunded_capture h.settlementPolicies h.plan
  obtain ⟨hf, -, hres, hnet, -⟩ := capturePlan_spec h.settlementPolicies h.plan
  obtain ⟨ha₀, hf₀, hr₀⟩ := (refundable_nonpos_iff ..).mp hunwinds.prior_amount
  have htax := hunwinds.no_tax
  have hcov := hunwinds.covered
  rw [hbal, hcur.mpr hunwinds.prior_currency]
  simp only [takenBack, hca, hcf, hcr, ha₀, hf₀, hr₀, balance_capture h.settlementPolicies h.plan, htax]
  rcases hrule : cp.rule with _ | ⟨rule, result⟩
  · simp only [hrule] at hcov
    simp only [CapturePlan.availableCredits, CapturePlan.shortfall, hrule, Option.isSome_none, Bool.false_eq_true,
      ↓reduceIte, hnet hrule, hit]
    split_ifs <;> omega
  · simp only [hrule] at hcov
    simp only [CapturePlan.availableCredits, CapturePlan.shortfall, hrule, Option.isSome_some, ↓reduceIte, hit]
    split_ifs <;> omega

/-- What was unwound is restored: no beneficiary got anything, so the tenant's own part is what is left. -/
theorem Unwinding.restored (hunwinds : RefundUnwinds t input cp db) : Restored t db db₂ := by
  obtain ⟨currency, -, hbal, hparty⟩ := h.changes
  refine ⟨h.balances hunwinds, fun c p => ?_⟩
  rw [hparty, partyBalance_capture]
  cases p with
  | some q => simp [hunwinds.shareOf_eq_zero]
  | none =>
      have hsame := h.balances hunwinds .available c
      rw [hbal] at hsame
      simp only [hunwinds.shareTotal_eq_zero, hit, reduceCtorEq, false_and, true_and, ↓reduceIte] at hsame ⊢
      omega

end

/-! ## The theorem -/

/-- For every configuration that the API accepts: the refund of a capture that settled restores every balance exactly
when `RefundUnwinds` holds. -/
theorem settleRefund_restores_iff {t : Id} {input : SettleCaptureInput} {refund : SettleRefundInput}
    {db db₁ db₂ : Db} {w w₁ w₂ w₃ : World} (haccepted : db.Accepted)
    (hcapture : (settleCapture t input).run db w = (.ok true, db₁, w₁))
    (hrefund : (settleRefund t refund).run db₁ w₂ = (.ok true, db₂, w₃)) (hintent : refund.intentId = input.intentId) :
    ∃ cp, capturePlan db.toConfig t input = .ok cp ∧ (Restored t db db₂ ↔ RefundUnwinds t input cp db) := by
  rcases settleCapture_run hcapture with ⟨-, hgross, -, cp, hcp, ha⟩ | ⟨hne, -⟩
  swap
  · exact absurd rfl hne
  have hrun := settleRefund_run hrefund
  rw [hintent] at hrun
  have hunwinding : Unwinding t input cp refund.refundId db db₁ db₂ :=
    ⟨haccepted.settlementPolicies, hgross, hcp, ha, hrun⟩
  exact ⟨cp, hcp, hunwinding.unwinds, hunwinding.restored⟩

/-! ## Tax -/

/-- A capture of 10.00 with a fee of 5.00, and its refund. -/
def taxedCapture (taxRateBps : Int) : Except Failure Bool × Db × World :=
  (settleCapture 1 (captureOf 1000)).run (.empty (flatFeeConfig taxRateBps)) World.counting

def taxedRefund (taxRateBps : Int) : Except Failure Bool × Db × World :=
  (settleRefund 1 ⟨7, 8⟩).run (taxedCapture taxRateBps).2.1 (taxedCapture taxRateBps).2.2

/-- Without tax the refund restores every balance. -/
theorem settleRefund_restores_untaxed : Restored 1 (.empty (flatFeeConfig 0)) (taxedRefund 0).2.1 := by
  obtain ⟨cp, hcp, hiff⟩ := settleRefund_restores_iff (flatFeeConfig_accepted 0 (by decide))
    (rfl : (settleCapture 1 (captureOf 1000)).run (.empty (flatFeeConfig 0)) World.counting = (_, _, _))
    (rfl : (settleRefund 1 ⟨7, 8⟩).run (taxedCapture 0).2.1 (taxedCapture 0).2.2 = (_, _, _)) rfl
  refine hiff.mpr ?_
  cases hcp
  exact ⟨by decide, by decide, by decide, (by decide : (500 + 0 : Int) ≤ 1000)⟩

/-- With a tax of 20% on the fee it does not: the tax stays in TAX_PAYABLE. -/
theorem settleRefund_keeps_tax :
    ¬ ∀ (t : Id) (input : SettleCaptureInput) (refund : SettleRefundInput) (db db₁ db₂ : Db) (w w₁ w₂ : World),
      db.Accepted → refund.intentId = input.intentId →
      (settleCapture t input).run db w = (.ok true, db₁, w₁) →
      (settleRefund t refund).run db₁ w₁ = (.ok true, db₂, w₂) → Restored t db db₂ := by
  intro h
  have h' := (h 1 (captureOf 1000) ⟨7, 8⟩ (.empty (flatFeeConfig 2000)) (taxedCapture 2000).2.1 (taxedRefund 2000).2.1
    World.counting (taxedCapture 2000).2.2 (taxedRefund 2000).2.2 (flatFeeConfig_accepted 2000 (by decide)) rfl
    (by rfl) (by rfl)).balances .taxPayable .mad
  revert h'
  decide

end CorpoPay.Settlement
