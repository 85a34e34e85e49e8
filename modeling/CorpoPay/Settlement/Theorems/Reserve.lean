import CorpoPay.Settlement.Lemmas.CaptureBalance
import CorpoPay.Settlement.VersionsDb

/-!
# Main theorem: the reserve of an accepted policy

A fixed reserve is capped at the gross amount. A rolling reserve is a rate of it, and neither `validatePolicy` nor the
schema of the route bounds the rate. The reserve stays within the gross amount exactly when the rate is at most the
whole.
-/

namespace CorpoPay.Settlement

/-! ## What a policy reserves -/

/-- A policy that reserves of every amount no more than the amount, and no less of a larger one. -/
structure PolicySpec.ReservesWithin (p : PolicySpec) : Prop where
  bounded : ∀ gross, 0 ≤ gross → ∃ reserve, computeReserve p gross = .ok reserve ∧ 0 ≤ reserve ∧ reserve ≤ gross
  available : ∀ gross, 0 ≤ gross → ∃ net, availableAfterReserve p gross = .ok net ∧ 0 ≤ net
  mono : ∀ gross gross' reserve reserve', 0 ≤ gross → gross ≤ gross' → computeReserve p gross = .ok reserve →
    computeReserve p gross' = .ok reserve' → reserve ≤ reserve'

/-- The rate of a rolling reserve is at most the whole. -/
def PolicySpec.RateWithin (p : PolicySpec) : Prop :=
  p.reserveType = .rolling → p.reservePercentageBps.getD 0 ≤ BPS_PER_UNIT

section Policy

variable {p : PolicySpec}

theorem PolicySpec.Valid.reservePercentageBps_nonneg (h : p.Valid) : 0 ≤ p.reservePercentageBps.getD 0 := by
  unfold Valid validatePolicy at h
  cases hbps : nonNeg p.reservePercentageBps "reservePercentageBps" with
  | error e => rw [hbps] at h; cases h
  | ok _ =>
      cases hp : p.reservePercentageBps with
      | none => exact le_refl _
      | some bps => exact nonNeg_eq_ok.mp hbps bps hp

/-- The reserve of a valid policy. -/
def PolicySpec.reserveOf (p : PolicySpec) (gross : Int) : Int :=
  match p.reserveType with
  | .none => 0
  | .fixed => min (p.reserveFixedCents.getD 0) gross
  | .rolling => roundDiv (gross * p.reservePercentageBps.getD 0) BPS_PER_UNIT

theorem PolicySpec.Valid.computeReserve_eq (h : p.Valid) {gross : Int} (hgross : 0 ≤ gross) :
    computeReserve p gross = .ok (p.reserveOf gross) := by
  have hbps := h.reservePercentageBps_nonneg
  unfold computeReserve PolicySpec.reserveOf
  rw [if_neg (not_lt.mpr hgross)]
  cases p.reserveType with
  | none => rfl
  | fixed => rfl
  | rolling => simp [applyBps, not_lt.mpr hbps]

theorem PolicySpec.Valid.reserveOf_mono (h : p.Valid) {gross gross' : Int} (hle : gross ≤ gross') :
    p.reserveOf gross ≤ p.reserveOf gross' := by
  unfold PolicySpec.reserveOf
  cases p.reserveType with
  | none => exact le_refl _
  | fixed => exact min_le_min_left _ hle
  | rolling =>
      exact roundDiv_mono (Int.mul_le_mul_of_nonneg_right hle h.reservePercentageBps_nonneg) (by decide)

theorem PolicySpec.RateWithin.reserveOf_le (hrate : p.RateWithin) {gross : Int} (hgross : 0 ≤ gross) :
    p.reserveOf gross ≤ gross := by
  unfold PolicySpec.RateWithin at hrate
  unfold PolicySpec.reserveOf
  cases htype : p.reserveType with
  | none => exact hgross
  | fixed => exact min_le_right _ _
  | rolling => exact roundDiv_mul_le hgross (hrate htype) (by decide)

/-- Of 100.00 a rolling reserve is its rate, so a rate above the whole is seen there. -/
theorem PolicySpec.rateWithin_of_reserveOf_le (h : p.reserveOf BPS_PER_UNIT ≤ BPS_PER_UNIT) : p.RateWithin := by
  intro htype
  rw [PolicySpec.reserveOf, htype] at h
  rwa [mul_comm, roundDiv_mul_self _ (by decide)] at h

theorem PolicySpec.Valid.reservesWithin_iff (h : p.Valid) : p.ReservesWithin ↔ p.RateWithin := by
  constructor
  · intro hwithin
    obtain ⟨reserve, hrun, -, hle⟩ := hwithin.bounded BPS_PER_UNIT (by decide)
    obtain rfl := Except.ok.inj ((h.computeReserve_eq (by decide)).symm.trans hrun)
    exact PolicySpec.rateWithin_of_reserveOf_le hle
  · intro hrate
    have hrun : ∀ gross, 0 ≤ gross → computeReserve p gross = .ok (p.reserveOf gross) :=
      fun gross hgross => h.computeReserve_eq hgross
    constructor
    · intro gross hgross
      exact ⟨_, hrun gross hgross, computeReserve_nonneg h (hrun gross hgross), hrate.reserveOf_le hgross⟩
    · intro gross hgross
      refine ⟨gross - p.reserveOf gross, by rw [availableAfterReserve, hrun gross hgross]; rfl, ?_⟩
      exact Int.sub_nonneg.mpr (hrate.reserveOf_le hgross)
    · intro gross gross' reserve reserve' hgross hle hreserve hreserve'
      obtain rfl := Except.ok.inj ((hrun gross hgross).symm.trans hreserve)
      obtain rfl := Except.ok.inj ((hrun gross' (hgross.trans hle)).symm.trans hreserve')
      exact h.reserveOf_mono hle

end Policy

/-! ## Presets and overrides -/

/-- Main theorem: the policy that overrides make of a preset reserves within the gross amount if and only if the
reserve type that is in force is not `rolling` or the rate that is in force is at most 10 000 bps. -/
theorem resolved_reservesWithin_iff (preset : IndustryPreset) (overrides : PolicyOverrides)
    (hvalid : validatePolicy (resolvePolicyWith preset overrides) = .ok ()) :
    (resolvePolicyWith preset overrides).ReservesWithin ↔
      (overrides.reserveType.getD preset.reserveType = .rolling →
        (overrides.reservePercentageBps.or preset.reservePercentageBps).getD 0 ≤ BPS_PER_UNIT) :=
  PolicySpec.Valid.reservesWithin_iff hvalid

/-- The default preset with a rolling reserve of 20%. -/
theorem resolved_reservesWithin_default :
    (resolvePolicyWith DEFAULT_PRESET { reservePercentageBps := some 2000 }).ReservesWithin :=
  (resolved_reservesWithin_iff DEFAULT_PRESET { reservePercentageBps := some 2000 } (by decide)).mpr (by decide)

/-- A rate of 150% passes the schema and the check: of 100.00 it reserves 150.00. -/
theorem resolved_reserves_beyond_gross :
    ¬ ∀ (preset : IndustryPreset) (overrides : PolicyOverrides), overrides.Accepted →
      validatePolicy (resolvePolicyWith preset overrides) = .ok () →
      (resolvePolicyWith preset overrides).ReservesWithin := by
  intro h
  have haccepted : PolicyOverrides.Accepted { reservePercentageBps := some 15000 } := by constructor <;> simp
  obtain ⟨reserve, hrun, -, hle⟩ := (h DEFAULT_PRESET _ haccepted (by decide)).bounded 10000 (by decide)
  obtain rfl : 15000 = reserve := Except.ok.inj hrun
  exact absurd hle (by decide)

end CorpoPay.Settlement
