import CorpoPay.Settlement.ReversalsDb

/-!
# Main theorem: how a reversal is funded

A funding is allowed by a policy when it takes the amount from the sources of the policy and from no other. The
funding that the code computes is allowed and leaves the least uncovered of all that are.
-/

namespace CorpoPay.Settlement

/-! ## The fundings that a policy allows -/

/-- The balances that a reversal can be taken from. -/
inductive FundingSource
  | available | reserve
  deriving DecidableEq, Repr

/-- The sources that a policy takes from. -/
def ReversalFundingPolicy.Permits : ReversalFundingPolicy → FundingSource → Prop
  | .netFromAvailable, s => s = .available
  | .debitReserve, _ => True
  | .invoiceTenant, _ => False
  | .allowNegative, s => s = .available

/-- The leg of a source. -/
def ClawbackAllocation.leg (a : ClawbackAllocation) : FundingSource → Int
  | .available => a.fromAvailable
  | .reserve => a.fromReserve

/-- A funding of `gross` that a policy allows, with `balance` on the sources. -/
structure ClawbackAllocation.Allowed (policy : ReversalFundingPolicy) (gross : Int) (balance : FundingSource → Int)
    (a : ClawbackAllocation) : Prop where
  leg_nonneg : ∀ s, 0 ≤ a.leg s
  uncovered_nonneg : 0 ≤ a.uncovered
  total : a.leg .available + a.leg .reserve + a.uncovered = gross
  leg_le : policy ≠ .allowNegative → ∀ s, a.leg s ≤ balance s
  permitted : ∀ s, ¬ policy.Permits s → a.leg s = 0

/-- What the sources of a policy cover of `gross`. -/
def ReversalFundingPolicy.covers (policy : ReversalFundingPolicy) (gross : Int) (balance : FundingSource → Int) : Int :=
  match policy with
  | .netFromAvailable => min gross (balance .available)
  | .debitReserve => min gross (balance .available + balance .reserve)
  | .invoiceTenant => 0
  | .allowNegative => gross

section Funding

variable {policy : ReversalFundingPolicy} {gross : Int} {balance : FundingSource → Int} {a : ClawbackAllocation}

theorem FundingSource.forall_iff {P : FundingSource → Prop} : (∀ s, P s) ↔ P .available ∧ P .reserve :=
  ⟨fun h => ⟨h .available, h .reserve⟩, fun h s => by cases s; exacts [h.1, h.2]⟩

/-- A funding is allowed when its three legs satisfy these bounds. -/
theorem ClawbackAllocation.allowed_iff :
    a.Allowed policy gross balance ↔
      (0 ≤ a.fromAvailable ∧ 0 ≤ a.fromReserve ∧ 0 ≤ a.uncovered) ∧
        a.fromAvailable + a.fromReserve + a.uncovered = gross ∧
        (policy ≠ .allowNegative → a.fromAvailable ≤ balance .available ∧ a.fromReserve ≤ balance .reserve) ∧
        (¬ policy.Permits .available → a.fromAvailable = 0) ∧ (¬ policy.Permits .reserve → a.fromReserve = 0) := by
  constructor
  · intro h
    refine ⟨⟨h.leg_nonneg .available, h.leg_nonneg .reserve, h.uncovered_nonneg⟩, h.total, fun hp => ?_, ?_, ?_⟩
    · exact ⟨h.leg_le hp .available, h.leg_le hp .reserve⟩
    · exact h.permitted .available
    · exact h.permitted .reserve
  · rintro ⟨⟨havailable, hreserve, huncovered⟩, htotal, hle, hpermitted⟩
    exact ⟨FundingSource.forall_iff.mpr ⟨havailable, hreserve⟩, huncovered, htotal,
      fun hp => FundingSource.forall_iff.mpr (hle hp), FundingSource.forall_iff.mpr hpermitted⟩

theorem ClawbackAllocation.Allowed.coveredAmount_add (h : a.Allowed policy gross balance) :
    coveredAmount a + a.uncovered = gross := h.total

/-- No allowed funding covers more than the sources of the policy do. -/
theorem ClawbackAllocation.Allowed.covered_le (h : a.Allowed policy gross balance) :
    coveredAmount a ≤ policy.covers gross balance := by
  obtain ⟨⟨havailable, hreserve, huncovered⟩, htotal, hle, hpermitted⟩ := allowed_iff.mp h
  unfold coveredAmount
  cases policy <;> simp [ReversalFundingPolicy.Permits, ReversalFundingPolicy.covers] at hle hpermitted ⊢ <;> omega

/-- More on the sources covers more. -/
theorem ReversalFundingPolicy.covers_mono (policy : ReversalFundingPolicy) (gross : Int) {balance' : FundingSource → Int}
    (h : ∀ s, balance s ≤ balance' s) : policy.covers gross balance ≤ policy.covers gross balance' := by
  have havailable := h .available
  have hreserve := h .reserve
  cases policy <;> simp only [covers] <;> omega

/-! ## What `fundReversal` computes -/

/-- The funding is allowed and covers what the sources of the policy do. -/
theorem fundReversal_spec (policy : ReversalFundingPolicy) (hgross : 0 ≤ gross) (hbalance : ∀ s, 0 ≤ balance s) :
    ∃ a, fundReversal policy gross (balance .available) (balance .reserve) = .ok a ∧ a.Allowed policy gross balance ∧
      coveredAmount a = policy.covers gross balance := by
  have havailable := hbalance .available
  have hreserve := hbalance .reserve
  simp only [fundReversal, not_lt.mpr hgross, not_lt.mpr havailable, not_lt.mpr hreserve, ↓reduceIte]
  cases policy <;> refine ⟨_, rfl, ClawbackAllocation.allowed_iff.mpr ⟨?_, ?_, ?_, ?_⟩, ?_⟩ <;>
    simp [coveredAmount, ReversalFundingPolicy.covers, ReversalFundingPolicy.Permits] <;> omega

/-- An uncovered amount is left over once the sources of a limited policy are drained. -/
theorem ClawbackAllocation.Allowed.drained (h : a.Allowed policy gross balance)
    (hcovered : coveredAmount a = policy.covers gross balance)
    (hpolicy : policy = .netFromAvailable ∨ policy = .debitReserve) (huncovered : 0 < a.uncovered) {s : FundingSource}
    (hs : policy.Permits s) : a.leg s = balance s := by
  obtain ⟨-, htotal, hle, hpermitted⟩ := allowed_iff.mp h
  rcases hpolicy with rfl | rfl <;> cases s <;>
    simp [ReversalFundingPolicy.Permits, ReversalFundingPolicy.covers, coveredAmount, leg] at * <;> omega

end Funding

/-- Main theorem: the three legs of a funding are non-negative, add up to the amount and, except under
`allowNegative`, stay within the balances. No funding that the policy allows leaves less uncovered, the sources are
drained first, and larger balances leave no more uncovered. -/
theorem fundReversal_optimal (policy : ReversalFundingPolicy) (gross : Int) (balance : FundingSource → Int)
    (hgross : 0 ≤ gross) (hbalance : ∀ s, 0 ≤ balance s) :
    ∃ a, fundReversal policy gross (balance .available) (balance .reserve) = .ok a ∧
      ((∀ s, 0 ≤ a.leg s) ∧ 0 ≤ a.uncovered ∧ a.leg .available + a.leg .reserve + a.uncovered = gross ∧
        coveredAmount a + a.uncovered = gross) ∧
      (policy ≠ .allowNegative → ∀ s, a.leg s ≤ balance s) ∧
      (a.Allowed policy gross balance ∧ ∀ b : ClawbackAllocation, b.Allowed policy gross balance →
        a.uncovered ≤ b.uncovered) ∧
      (policy = .netFromAvailable ∨ policy = .debitReserve → 0 < a.uncovered →
        ∀ s, policy.Permits s → a.leg s = balance s) ∧
      ∀ (balance' : FundingSource → Int) (a' : ClawbackAllocation), (∀ s, balance s ≤ balance' s) →
        fundReversal policy gross (balance' .available) (balance' .reserve) = .ok a' → a'.uncovered ≤ a.uncovered := by
  obtain ⟨a, hrun, hallowed, hcovered⟩ := fundReversal_spec policy hgross hbalance
  have htotal := hallowed.coveredAmount_add
  refine ⟨a, hrun, ⟨hallowed.leg_nonneg, hallowed.uncovered_nonneg, hallowed.total, htotal⟩, hallowed.leg_le,
    ⟨hallowed, fun b hb => ?_⟩, fun hpolicy huncovered s hs => hallowed.drained hcovered hpolicy huncovered hs,
    fun balance' a' hle hrun' => ?_⟩
  · have hb_covered := hb.covered_le
    have hb_total := hb.coveredAmount_add
    omega
  · obtain ⟨b, hrunb, hb, hb_covered⟩ := fundReversal_spec policy hgross fun s => (hbalance s).trans (hle s)
    obtain rfl : a' = b := Except.ok.inj (hrun'.symm.trans hrunb)
    have hmono := policy.covers_mono gross hle
    have hb_total := hb.coveredAmount_add
    omega

theorem fundReversal_optimal_debitReserve :
    ∃ a, fundReversal .debitReserve 500 100 300 = .ok a ∧ a = ⟨100, 300, 100⟩ := by
  obtain ⟨a, hrun, -⟩ := fundReversal_optimal .debitReserve 500 (fun | .available => 100 | .reserve => 300) (by decide)
    (by rintro (_ | _) <;> decide)
  exact ⟨a, hrun, (Except.ok.inj hrun).symm⟩

end CorpoPay.Settlement
