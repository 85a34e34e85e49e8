import CorpoPay.Settlement.Lemmas.Installments

/-!
# Main theorem: an installment pays off its share

With interest the payment is rounded up, so the payments pay the principal off and are worth less than a centime each more
than it. Without interest an equal share is rounded to the nearest centime, which may be down.
-/

namespace CorpoPay.Settlement

open Data (outstanding outstanding_nonpos_iff presentValue presentValue_eq_mul presentValue_le presentValue_pos
  presentValue_zero_rate)

/-- Paid each month, the payment leaves nothing of the principal, and the payments are worth less than a centime each more
than it. -/
structure Amortizes (principal : Int) (annualRatePct : Rat) (n : Nat) (payment : Int) : Prop where
  collected : outstanding (monthlyRate annualRatePct) (payment : Rat) principal n ≤ 0
  fair : presentValue (monthlyRate annualRatePct) (payment : Rat) n - principal < n

theorem amortizes_of_rate {principal : Int} {annualRatePct : Rat} {n : Nat} (hrate : 0 < annualRatePct) (hn : 0 < n) :
    Amortizes principal annualRatePct n (principal / presentValue (monthlyRate annualRatePct) 1 n : Rat).ceil := by
  have hr := monthlyRate_nonneg hrate.le
  have hvalue := presentValue_pos hr hn
  have hup : (principal : Rat) / presentValue (monthlyRate annualRatePct) 1 n ≤
      (principal / presentValue (monthlyRate annualRatePct) 1 n : Rat).ceil := Rat.le_ceil
  have hnext : ((principal / presentValue (monthlyRate annualRatePct) 1 n : Rat).ceil : Rat) <
      principal / presentValue (monthlyRate annualRatePct) 1 n + 1 := Rat.ceil_lt
  constructor
  · rw [outstanding_nonpos_iff hr, presentValue_eq_mul, ← div_le_iff₀ hvalue]
    exact hup
  · have hle := presentValue_le hr n
    have hlt := mul_lt_mul_of_pos_right hnext hvalue
    rw [add_mul, one_mul, div_mul_cancel₀ _ hvalue.ne'] at hlt
    rw [presentValue_eq_mul]
    linarith

theorem amortizes_zero_rate_iff {principal : Int} {n : Nat} (hn : 0 < n) :
    Amortizes principal 0 n (roundDiv principal n) ↔ principal % n = 0 ∨ n ≤ 2 * (principal % n) := by
  have hzero : monthlyRate 0 = 0 := by norm_num [monthlyRate]
  have hn' : (0 : Int) < n := by exact_mod_cast hn
  rw [← le_mul_roundDiv_iff principal hn']
  constructor
  · intro h
    have hcollected := (outstanding_nonpos_iff (monthlyRate_nonneg le_rfl) n).mp h.collected
    rw [hzero, presentValue_zero_rate] at hcollected
    exact_mod_cast hcollected
  · intro h
    constructor
    · rw [outstanding_nonpos_iff (monthlyRate_nonneg le_rfl), hzero, presentValue_zero_rate]
      exact_mod_cast h
    · have hlt : ((n : Int) * roundDiv principal n : Rat) < principal + n := by
        exact_mod_cast mul_roundDiv_lt principal hn'
      rw [hzero, presentValue_zero_rate]
      push_cast at hlt
      linarith

/-- The payments pay the principal off exactly when there is interest, or the equal shares are whole or are rounded up. -/
theorem installments_amortize_iff {principal : Int} {annualRatePct : Rat} {n : Nat} (hprincipal : 0 < principal)
    (hrate : 0 ≤ annualRatePct) (hn : 1 ≤ n) :
    (∃ payment, computeInstallmentAmount .exact principal annualRatePct n = .ok payment ∧
      Amortizes principal annualRatePct n payment) ↔
        annualRatePct ≠ 0 ∨ principal % n = 0 ∨ n ≤ 2 * (principal % n) := by
  rcases hrate.lt_or_eq with hpos | rfl
  · rw [computeInstallmentAmount_rate hprincipal hpos hn]
    exact ⟨fun _ => .inl hpos.ne', fun _ => ⟨_, rfl, amortizes_of_rate hpos hn⟩⟩
  · rw [computeInstallmentAmount_share hprincipal hn, ← amortizes_zero_rate_iff hn]
    constructor
    · rintro ⟨payment, heq, h⟩
      obtain rfl := Except.ok.inj heq
      exact .inr h
    · rintro (hne | h)
      · exact absurd rfl hne
      · exact ⟨_, rfl, h⟩

/-- A thousand at 12% over a year. -/
theorem installments_amortize_year : ∃ payment, computeInstallmentAmount .exact 100000 12 12 = .ok payment ∧
    Amortizes 100000 12 12 payment :=
  (installments_amortize_iff (by decide) (by norm_num) (by decide)).mpr (.inl (by norm_num))

/-- One in three shares without interest leaves a centime. -/
theorem not_installments_amortize : ¬ ∀ (principal : Int) (annualRatePct : Rat) (n : Nat), 0 < principal →
    0 ≤ annualRatePct → 1 ≤ n → ∃ payment, computeInstallmentAmount .exact principal annualRatePct n = .ok payment ∧
      Amortizes principal annualRatePct n payment := by
  intro h
  obtain ⟨payment, hpayment, hall⟩ := h 100 0 3 (by decide) le_rfl (by decide)
  have hshare : computeInstallmentAmount .exact 100 0 3 = .ok 33 := computeInstallmentAmount_share (by decide) (by decide)
  obtain rfl := Except.ok.inj (hshare.symm.trans hpayment)
  have hleft := hall.collected
  norm_num [outstanding, monthlyRate] at hleft

end CorpoPay.Settlement
