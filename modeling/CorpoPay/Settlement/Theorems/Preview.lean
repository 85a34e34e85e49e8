import CorpoPay.Settlement.PlanRoutes
import CorpoPay.Settlement.Theorems.Collected

/-!
# Main theorem: the preview and the charges of an agreement

The preview divides the price over all months, each payment at the end of its month. A checkout takes the first payment at
once and divides the rest over the months that are left. The two agree where rounding hides the month between them.
-/

namespace CorpoPay.Settlement

open Data (Arithmetic annuity_eq presentValue presentValue_pos presentValue_succ)
open Transaction (Job.run_bind_ok Job.run_get Job.run_ofExcept_bind)

variable {a : Arithmetic} {plan : InstallmentPlan} {principal : Int}

/-- What is shown is what is charged. -/
structure PlanPreview.IsCharged (preview : PlanPreview) (agreement : InstallmentAgreement) : Prop where
  first : preview.installmentAmount = agreement.downPayment
  total : preview.totalAmount = agreement.total

/-- What the schema of the plans and the column of the rate, with its four decimals, let in. -/
structure InstallmentPlan.Valid (plan : InstallmentPlan) : Prop where
  months : plan.durationMonths ≤ 120
  rate : plan.annualInterestRate = 0 ∨ 1 / 10000 ≤ plan.annualInterestRate

/-- The annuity in centimes, before it is rounded up. -/
def annuityCents (a : Arithmetic) (principal : Int) (annualRatePct : Rat) (n : Nat) : Rat :=
  let r := a.round (a.round (annualRatePct / 100) / 12)
  let factor := a.pow (a.round (1 + r)) n
  a.round (a.round (a.round (major a principal * a.round (r * factor)) / a.round (factor - 1)) * 100)

/-- The annuity lies in the centime that ends with `k`. -/
def AnnuityIn (a : Arithmetic) (k principal : Int) (annualRatePct : Rat) (n : Nat) : Prop :=
  (k : Rat) - 1 < annuityCents a principal annualRatePct n ∧ annuityCents a principal annualRatePct n ≤ k

/-- Without interest the months divide the price, or there are two months and the price is not one centime. With interest the
annuity of the price lies in a centime of the price, the last one or one that also holds the annuity, over a month less, of what
is left of the price when that centime is the first payment. -/
def InstallmentPlan.PreviewsCharges (a : Arithmetic) (plan : InstallmentPlan) (principal : Int) : Prop :=
  let rate := a.round plan.annualInterestRate
  if plan.annualInterestRate = 0 then
    principal % plan.durationMonths = 0 ∨ plan.durationMonths = 2 ∧ principal ≠ 1
  else ∃ k ≤ principal, AnnuityIn a k principal rate plan.durationMonths ∧
    (k = principal ∨ plan.durationMonths = 1 ∨ AnnuityIn a k (principal - k) rate (plan.durationMonths - 1))

/-! ## Interest -/

theorem ceil_eq_iff {x : Rat} {n : Int} : x.ceil = n ↔ (n : Rat) - 1 < x ∧ x ≤ n := by
  have hlow : (n : Rat) - 1 < x ↔ n - 1 < x.ceil := by
    rw [Rat.lt_ceil_iff]
    push_cast
    rfl
  rw [hlow, ← Rat.ceil_le_iff]
  omega

section Interest

variable {rate : Rat} {n : Nat}

/-- A rate with four decimals is not lost when it is added to one. -/
theorem month_pos (hrate : 1 / 10000 ≤ rate) :
    1 / 13000000 ≤ a.round (a.round (a.round rate / 100) / 12) := by
  have hyear := a.le_round (le_trans (by norm_num) hrate)
  have hpart := a.le_round (x := a.round rate / 100) (by linarith)
  have hmonth := a.le_round (x := a.round (a.round rate / 100) / 12) (by linarith)
  linarith

theorem one_lt_factor (hrate : 1 / 10000 ≤ rate) (hn : 0 < n) :
    1 < a.pow (a.round (1 + a.round (a.round (a.round rate / 100) / 12))) n := by
  have hmonth := month_pos (a := a) hrate
  have hgrowth := a.le_round (x := 1 + a.round (a.round (a.round rate / 100) / 12)) (by linarith)
  have hone : 1 ≤ a.round (1 + a.round (a.round (a.round rate / 100) / 12)) := by linarith
  have hagain := a.le_round (x := a.round (1 + a.round (a.round (a.round rate / 100) / 12))) (by linarith)
  have hpow := a.le_pow _ n hone hn
  linarith

theorem annuityCents_pos (hprincipal : 0 < principal) (hrate : 1 / 10000 ≤ rate) (hn : 0 < n) :
    0 < annuityCents a principal (a.round rate) n := by
  have hprincipal' : (0 : Rat) < principal := by exact_mod_cast hprincipal
  have hmajor : 0 < major a principal := a.round_pos (by positivity)
  have hmonth := month_pos (a := a) hrate
  have hfactor := one_lt_factor (a := a) hrate hn
  have hshare := a.round_pos (x := _ * _) (mul_pos (lt_of_lt_of_le (by norm_num) hmonth) (one_pos.trans hfactor))
  have hrest := a.round_pos (sub_pos.mpr hfactor)
  exact a.round_pos (mul_pos (a.round_pos (div_pos (a.round_pos (mul_pos hmajor hshare)) hrest)) (by norm_num))

theorem computeInstallmentAmount_annuity (hprincipal : 0 < principal) (hrate : 1 / 10000 ≤ rate) (hn : 0 < n) :
    computeInstallmentAmount a principal (a.round rate) n = .ok (annuityCents a principal (a.round rate) n).ceil := by
  have hpos : 0 < a.round rate := a.round_pos (lt_of_lt_of_le (by norm_num) hrate)
  rw [computeInstallmentAmount, if_neg hn.ne', if_neg (not_le.mpr hprincipal), if_neg hpos.ne']
  exact if_neg (one_lt_factor hrate hn).ne'

theorem annuityIn_iff (hprincipal : 0 < principal) (hrate : 1 / 10000 ≤ rate) (hn : 0 < n) {k : Int} :
    AnnuityIn a k principal (a.round rate) n ↔ computeInstallmentAmount a principal (a.round rate) n = .ok k := by
  rw [computeInstallmentAmount_annuity hprincipal hrate hn, Except.ok.injEq, ceil_eq_iff, AnnuityIn]

theorem computeInstallmentAmount_pos (hprincipal : 0 < principal) (hrate : 1 / 10000 ≤ rate) {amount : Int}
    (h : computeInstallmentAmount a principal (a.round rate) n = .ok amount) : 0 < amount := by
  have hn := months_pos h
  rw [computeInstallmentAmount_annuity hprincipal hrate hn] at h
  rw [← Except.ok.inj h, Rat.lt_ceil_iff]
  exact annuityCents_pos hprincipal hrate hn

/-- The interest is computed without an error of a centime. -/
theorem toCentimes_interest {k : Int} (hbound : principal.natAbs < 1000000000000) (hk : 0 ≤ k) (hle : k ≤ principal)
    (hn : n ≤ 120) : toCentimes a (a.round (a.round (major a k * n) - major a principal)) = n * k - principal := by
  have hk' : (0 : Rat) ≤ k := by exact_mod_cast hk
  have hle' : (k : Rat) ≤ principal := by exact_mod_cast hle
  have hn' : (n : Rat) ≤ 120 := by exact_mod_cast hn
  have hn0 : (0 : Rat) ≤ n := by positivity
  have hprincipal := (le_abs_self _).trans (abs_le_of_natAbs_lt hbound)
  have hmajor := major_near (a := a) (k := principal) (by rw [abs_le]; constructor <;> linarith)
  have hpayment := major_near (a := a) (k := k) (by rw [abs_le]; constructor <;> linarith)
  -- what all months pay
  have hcharges : (k : Rat) * n ≤ 10 ^ 12 * 120 := mul_le_mul (by linarith) hn' hn0 (by norm_num)
  have hcharges0 : 0 ≤ (k : Rat) * n := mul_nonneg hk' hn0
  have hoff : |(major a k - k / 100) * n| ≤ 10 ^ 10 / 2 ^ 53 * 120 := by
    rw [abs_mul, abs_of_nonneg hn0]
    exact mul_le_mul hpayment hn' hn0 (by norm_num)
  rw [abs_le] at hmajor hoff
  have hpaid := a.near_of_le (x := major a k * n) (b := 10 ^ 13) (by rw [abs_le]; constructor <;> linarith)
  rw [abs_le] at hpaid
  have hround := a.near_of_le (x := a.round (major a k * n) - major a principal) (b := 10 ^ 13)
    (by rw [abs_le]; constructor <;> linarith)
  rw [abs_le] at hround
  refine toCentimes_eq ?_ ?_
  · rw [abs_le]
    push_cast
    constructor <;> linarith
  · rw [abs_le]
    push_cast
    constructor <;> linarith

theorem toCentimes_total {k : Int} (hbound : principal.natAbs < 1000000000000) (hk : 0 ≤ k) (hle : k ≤ principal)
    (hn : n ≤ 120) : toCentimes a (a.round (major a principal + major a (n * k - principal))) = n * k := by
  have hk' : (0 : Rat) ≤ k := by exact_mod_cast hk
  have hle' : (k : Rat) ≤ principal := by exact_mod_cast hle
  have hn' : (n : Rat) ≤ 120 := by exact_mod_cast hn
  have hn0 : (0 : Rat) ≤ n := by positivity
  have hprincipal := (le_abs_self _).trans (abs_le_of_natAbs_lt hbound)
  have hcharges : (n : Rat) * k ≤ 120 * 10 ^ 12 := mul_le_mul hn' (by linarith) hk' (by norm_num)
  have hcharges0 : 0 ≤ (n : Rat) * k := mul_nonneg hn0 hk'
  have hmajor := major_near (a := a) (k := principal) (by rw [abs_le]; constructor <;> linarith)
  have hinterest := a.near_of_le (x := ((n * k - principal : Int) : Rat) / 100) (b := 10 ^ 13)
    (by push_cast; rw [abs_le]; constructor <;> linarith)
  rw [← major] at hinterest
  push_cast at hinterest
  rw [abs_le] at hmajor hinterest
  have hround := a.near_of_le (x := major a principal + major a (n * k - principal)) (b := 10 ^ 13)
    (by rw [abs_le]; constructor <;> linarith)
  rw [abs_le] at hround
  refine toCentimes_eq ?_ ?_
  · rw [abs_le]
    push_cast
    constructor <;> linarith
  · rw [abs_le]
    push_cast
    constructor <;> linarith

end Interest

/-! ## Equal shares -/

theorem share_error {n : Nat} (hprincipal : 0 ≤ principal) (hbound : principal.natAbs < 1000000000000) (hn : 0 < n) :
    |(toCentimes a (a.round (major a principal / n)) : Rat) - principal / n| ≤ 1 / 2 + 1 / 1000 := by
  have hprincipal' : (0 : Rat) ≤ principal := by exact_mod_cast hprincipal
  have hn' : (1 : Rat) ≤ n := by exact_mod_cast hn
  have hshare0 : (0 : Rat) ≤ principal / n := by positivity
  have hshare : (principal : Rat) / n ≤ 10 ^ 12 :=
    (div_le_self hprincipal' hn').trans (((le_abs_self _).trans (abs_le_of_natAbs_lt hbound)).trans (by norm_num))
  have hmajor0 : 0 ≤ major a principal := a.round_nonneg (by positivity)
  -- three results are rounded
  have hup := div_le_div_of_nonneg_right (a.round_le (x := principal / 100) (by positivity)) (show (0 : Rat) ≤ n by linarith)
  have hdown := div_le_div_of_nonneg_right (a.le_round (x := principal / 100) (by positivity)) (show (0 : Rat) ≤ n by linarith)
  rw [← major, show (principal : Rat) / 100 * (1 + 1 / 2 ^ 53) / n = principal / n * ((1 + 1 / 2 ^ 53) / 100) by ring] at hup
  rw [← major, show (principal : Rat) / 100 * (1 - 1 / 2 ^ 53) / n = principal / n * ((1 - 1 / 2 ^ 53) / 100) by ring] at hdown
  have hup₂ := a.round_le (x := major a principal / n) (by positivity)
  have hdown₂ := a.le_round (x := major a principal / n) (by positivity)
  have hquotient : 0 ≤ a.round (major a principal / n) := a.round_nonneg (by positivity)
  have hup₃ := a.round_le (x := a.round (major a principal / n) * 100) (by positivity)
  have hdown₃ := a.le_round (x := a.round (major a principal / n) * 100) (by positivity)
  have hnearest : (toCentimes a (a.round (major a principal / n)) : Rat) - 1 / 2 ≤
      a.round (a.round (major a principal / n) * 100) := le_roundRat_iff.mp le_rfl
  have hnext : a.round (a.round (major a principal / n) * 100) <
      (toCentimes a (a.round (major a principal / n)) : Rat) + 1 - 1 / 2 := by
    have hnot : ¬ toCentimes a (a.round (major a principal / n)) + 1 ≤ toCentimes a (a.round (major a principal / n)) := by
      omega
    rw [toCentimes, le_roundRat_iff, not_le] at hnot
    push_cast at hnot
    exact hnot
  rw [abs_le]
  constructor <;> linarith

/-- A share is a nearest whole number of centimes. -/
theorem share_near {n : Nat} {share : Int} (hprincipal : 0 ≤ principal) (hbound : principal.natAbs < 1000000000000)
    (hn : n ≤ 120) (h : computeInstallmentAmount a principal 0 n = .ok share) :
    0 ≤ share ∧ 2 * |share * n - principal| ≤ n := by
  have hmonths := months_pos h
  refine ⟨computeInstallmentAmount_nonneg le_rfl h, ?_⟩
  rcases hprincipal.lt_or_eq with hpos | rfl
  · rw [computeInstallmentAmount_zero_rate hpos hmonths] at h
    obtain rfl := Except.ok.inj h
    have hn' : (0 : Rat) < n := by exact_mod_cast hmonths
    have hn120 : (n : Rat) ≤ 120 := by exact_mod_cast hn
    obtain ⟨hlow, hhigh⟩ := abs_le.mp (share_error (a := a) hpos.le hbound hmonths)
    generalize toCentimes a (a.round (major a principal / n)) = share at hlow hhigh ⊢
    have hover := mul_le_mul_of_nonneg_right hhigh hn'.le
    have hunder := mul_le_mul_of_nonneg_right hlow hn'.le
    rw [sub_mul, div_mul_cancel₀ _ hn'.ne'] at hover hunder
    have hover' : ((2 * (share * n - principal) : Int) : Rat) < ((n + 1 : Int) : Rat) := by
      push_cast
      linarith
    have hunder' : ((-(n + 1) : Int) : Rat) < ((2 * (share * n - principal) : Int) : Rat) := by
      push_cast
      linarith
    rw [Int.cast_lt] at hover' hunder'
    rcases abs_cases (share * n - principal) with ⟨habs, -⟩ | ⟨habs, -⟩ <;> rw [habs] <;> omega
  · rw [computeInstallmentAmount_nonpos le_rfl hmonths] at h
    obtain rfl := Except.ok.inj h
    simp

theorem share_le {share : Int} {n : Nat} (hprincipal : 0 ≤ principal) (hn : 0 < n)
    (h : 2 * |share * n - principal| ≤ n) : share ≤ principal := by
  by_contra hlt
  have hn' : (1 : Int) ≤ n := by exact_mod_cast hn
  have hmore := mul_le_mul_of_nonneg_right (show principal + 1 ≤ share by omega) (show (0 : Int) ≤ n by omega)
  have hall := mul_le_mul_of_nonneg_left hn' hprincipal
  have habs := le_abs_self (share * n - principal)
  linarith

theorem eq_of_near {x y n : Int} (hn : 0 < n) (h : 2 * |x * n - y * n| < 2 * n) : x = y := by
  rw [← sub_mul, abs_mul, abs_of_pos hn] at h
  have hlt : |x - y| * n < 1 * n := by linarith
  have hone : |x - y| < 1 := lt_of_mul_lt_mul_right hlt hn.le
  exact sub_eq_zero.mp (Int.abs_lt_one_iff.mp hone)

/-- An equal share now and rounded shares of the rest. -/
theorem shares_total_eq_iff {down share months : Int} (hprincipal : 0 < principal) (hmonths : 0 < months)
    (hdown : 2 * |down * (months + 1) - principal| ≤ months + 1) (hshare : 2 * |share * months - (principal - down)| ≤ months)
    (hone : principal = 1 → months = 1 → down = 1) :
    down + months * (if 0 < share then share else down) = principal ↔
      principal % (months + 1) = 0 ∨ months = 1 ∧ principal ≠ 1 := by
  obtain rfl | hmany : months = 1 ∨ 2 ≤ months := by omega
  · -- the second charge is all that is left
    obtain ⟨hdown₁, hdown₂⟩ := abs_le.mp (show |down * (1 + 1) - principal| ≤ 1 by omega)
    have hrest := abs_nonpos_iff.mp (show |share * 1 - (principal - down)| ≤ 0 by omega)
    split_ifs <;> omega
  · rw [or_iff_left (by omega)]
    constructor
    · intro h
      have heq : (if 0 < share then share else down) = down := by
        refine ite_eq_right_iff.mpr fun hpos => ?_
        rw [if_pos hpos] at h
        refine (eq_of_near hmonths (lt_of_eq_of_lt (congrArg (2 * |·|) ?_) (hdown.trans_lt (by omega)))).symm
        linarith
      rw [heq] at h
      rw [← h, show down + months * down = (months + 1) * down by ring]
      exact Int.mul_emod_right _ _
    · intro h
      obtain ⟨q, rfl⟩ := Int.dvd_of_emod_eq_zero h
      have hq : 0 < q := pos_of_mul_pos_right hprincipal (by omega)
      obtain rfl : down = q :=
        eq_of_near (show 0 < months + 1 by omega) (lt_of_eq_of_lt (by ring_nf) (hdown.trans_lt (by omega)))
      obtain rfl : share = down := eq_of_near hmonths (lt_of_eq_of_lt (by ring_nf) (hshare.trans_lt (by omega)))
      rw [if_pos hq]
      ring

/-! ## The terms -/

theorem InstallmentPlan.preview_ok {preview : PlanPreview} (h : plan.preview a principal = .ok preview) :
    ∃ standardInstallment interest,
      computeInstallmentAmount a principal (a.round plan.annualInterestRate) plan.durationMonths = .ok standardInstallment ∧
        totalInterest a principal (a.round plan.annualInterestRate) plan.durationMonths = .ok interest ∧
          preview.planId = plan.id ∧ preview.installmentAmount = standardInstallment ∧
            preview.totalAmount = toCentimes a (a.round (major a principal + major a interest)) := by
  obtain ⟨standard, hstandard, h⟩ := Except.bind_eq_ok h
  obtain ⟨interest, hinterest, h⟩ := Except.bind_eq_ok h
  obtain rfl := Except.ok.inj h
  exact ⟨standard, interest, hstandard, hinterest, rfl, rfl, rfl⟩

/-- A payment of at most the price is paid down. -/
theorem capDownPayment_standard {standardInstallment : Int} (hbound : principal.natAbs < 1000000000000)
    (hstandard : 0 ≤ standardInstallment) :
    capDownPayment a principal standardInstallment none = min principal standardInstallment := by
  have hwhole : toCentimes a (major a principal) = principal :=
    toCentimes_major ((abs_le_of_natAbs_lt hbound).trans (by norm_num))
  rw [capDownPayment_eq_min, hwhole, Option.elim_none]
  rcases le_or_gt principal standardInstallment with hle | hlt
  · rw [min_eq_left hle, min_eq_left ((le_toCentimes_major_iff hbound).mpr hle)]
  · have hstandard' : (0 : Rat) ≤ standardInstallment := by exact_mod_cast hstandard
    have hlt' : (standardInstallment : Rat) ≤ principal := by exact_mod_cast hlt.le
    have hmost := (le_abs_self _).trans (abs_le_of_natAbs_lt hbound)
    rw [toCentimes_major (by rw [abs_le]; constructor <;> linarith)]

variable {preview : PlanPreview} {terms : InstallmentTerms}

/-- With interest. -/
theorem shown_iff_of_rate (hpreview : plan.preview a principal = .ok preview)
    (hterms : plan.terms a principal none = .ok terms) (hprincipal : 0 < principal)
    (hbound : principal.natAbs < 1000000000000) (hmonths : plan.durationMonths ≤ 120)
    (hrate : 1 / 10000 ≤ plan.annualInterestRate) :
    (preview.installmentAmount = terms.downPayment ∧ preview.totalAmount = terms.total) ↔
      plan.PreviewsCharges a principal := by
  have hrate0 : 0 < plan.annualInterestRate := lt_of_lt_of_le (by norm_num) hrate
  obtain ⟨standard, interest, hstandard, hinterest, -, hshown, htotal⟩ := plan.preview_ok hpreview
  obtain ⟨_, monthly, down, hsame, hdown, -, -, hmonthly, rfl⟩ := plan.terms_ok hterms hprincipal hbound hrate0.le
  obtain rfl := Except.ok.inj (hstandard.symm.trans hsame)
  have hn := months_pos hstandard
  have hpos := computeInstallmentAmount_pos hprincipal hrate hstandard
  rw [capDownPayment_standard hbound hpos.le] at hdown
  rw [totalInterest, if_neg (a.round_pos hrate0).ne', hstandard] at hinterest
  obtain rfl := Except.ok.inj hinterest
  have hshare : plan.PreviewsCharges a principal ↔ standard ≤ principal ∧ (standard = principal ∨
      plan.durationMonths = 1 ∨
        AnnuityIn a standard (principal - standard) (a.round plan.annualInterestRate) (plan.durationMonths - 1)) := by
    simp only [InstallmentPlan.PreviewsCharges, if_neg hrate0.ne', annuityIn_iff hprincipal hrate hn, hstandard,
      Except.ok.injEq]
    constructor
    · rintro ⟨_, hle, rfl, h⟩
      exact ⟨hle, h⟩
    · rintro ⟨hle, h⟩
      exact ⟨standard, hle, rfl, h⟩
  rw [hshare, hshown, htotal, InstallmentTerms.total, hdown, Nat.add_sub_cancel_left, eq_comm, min_eq_right_iff]
  refine and_congr_right fun hle => ?_
  rw [hdown, min_eq_right hle] at hmonthly
  rw [min_eq_right hle, toCentimes_interest hbound hpos.le hle hmonths, toCentimes_total hbound hpos.le hle hmonths]
  split_ifs at hmonthly with hmany
  · have hsplit : (plan.durationMonths : Int) = (plan.durationMonths - 1 : Nat) + 1 := by omega
    have hmany' : ((plan.durationMonths - 1 : Nat) : Int) ≠ 0 := by omega
    rcases hle.lt_or_eq with hlt | rfl
    · have hmonthly0 := computeInstallmentAmount_pos (by omega) hrate hmonthly
      rw [annuityIn_iff (by omega) hrate hmany, hmonthly, if_pos hmonthly0, or_iff_right hlt.ne, or_iff_right (by omega),
        Except.ok.injEq, hsplit]
      constructor
      · intro h
        exact (mul_left_cancel₀ hmany' (by linarith)).symm
      · rintro rfl
        ring
    · -- the whole price is paid down, and each installment is the whole price again
      rw [sub_self, computeInstallmentAmount_nonpos le_rfl hmany] at hmonthly
      obtain rfl := Except.ok.inj hmonthly
      rw [if_neg (lt_irrefl 0), hsplit]
      refine iff_of_true ?_ (.inl rfl)
      ring
  · have hone : plan.durationMonths = 1 := by omega
    simp [hone]

/-- Half a centime is rounded up. -/
theorem cent_of_two {pow : Rat → Nat → Rat} {hpow : ∀ x n, 1 ≤ x → 0 < n → Data.roundDouble x ≤ pow x n} :
    computeInstallmentAmount (.double pow hpow) 1 0 2 = .ok 1 :=
  (rfl : _ = computeInstallmentAmount .correct 1 0 2).trans (by decide +kernel)

/-- Without interest. -/
theorem shown_iff_of_zero_rate {pow : Rat → Nat → Rat} {hpow : ∀ x n, 1 ≤ x → 0 < n → Data.roundDouble x ≤ pow x n}
    (hpreview : plan.preview (.double pow hpow) principal = .ok preview)
    (hterms : plan.terms (.double pow hpow) principal none = .ok terms) (hprincipal : 0 < principal)
    (hbound : principal.natAbs < 1000000000000) (hmonths : plan.durationMonths ≤ 120)
    (hrate : plan.annualInterestRate = 0) :
    (preview.installmentAmount = terms.downPayment ∧ preview.totalAmount = terms.total) ↔
      plan.PreviewsCharges (.double pow hpow) principal := by
  obtain ⟨standard, interest, hstandard, hinterest, -, hshown, htotal⟩ := plan.preview_ok hpreview
  obtain ⟨_, monthly, down, hsame, hdown, -, hle, hmonthly, rfl⟩ := plan.terms_ok hterms hprincipal hbound hrate.ge
  obtain rfl := Except.ok.inj (hstandard.symm.trans hsame)
  rw [hrate, Arithmetic.round_zero] at hstandard hinterest hmonthly
  have hn := months_pos hstandard
  obtain ⟨hnonneg, hnear⟩ := share_near hprincipal.le hbound hmonths hstandard
  rw [totalInterest, if_pos rfl] at hinterest
  obtain rfl := Except.ok.inj hinterest
  have hfirst := share_le hprincipal.le hn hnear
  have hprice := toCentimes_total (a := .double pow hpow) (n := 1) hbound hprincipal.le le_rfl (by decide)
  rw [Nat.cast_one, one_mul, sub_self] at hprice
  rw [capDownPayment_standard hbound hnonneg, min_eq_right hfirst] at hdown
  obtain rfl := hdown
  rw [hshown, htotal, hprice, InstallmentTerms.total, Nat.add_sub_cancel_left, InstallmentPlan.PreviewsCharges, if_pos hrate,
    eq_self, true_and, eq_comm]
  split_ifs at hmonthly with hmany
  · have hrest := (share_near (by omega) (by omega) (by omega) hmonthly).2
    have hsplit : (plan.durationMonths : Int) = (plan.durationMonths - 1 : Nat) + 1 := by omega
    have htwo : plan.durationMonths = 2 ↔ ((plan.durationMonths - 1 : Nat) : Int) = 1 := by omega
    rw [htwo, hsplit]
    rw [hsplit] at hnear
    refine shares_total_eq_iff hprincipal (by omega) hnear hrest ?_
    rintro rfl hsingle
    have hcentime : computeInstallmentAmount (.double pow hpow) 1 0 2 = .ok 1 := cent_of_two
    rw [htwo.mpr hsingle, hcentime] at hstandard
    exact (Except.ok.inj hstandard).symm
  · have hone : plan.durationMonths = 1 := by omega
    rw [hone] at hnear ⊢
    have hwhole := abs_nonpos_iff.mp (show |down * ((1 : Nat) : Int) - principal| ≤ 0 by push_cast at hnear ⊢; omega)
    simp
    omega

/-- The preview shows what the terms charge exactly where it should. -/
theorem shown_iff {pow : Rat → Nat → Rat} {hpow : ∀ x n, 1 ≤ x → 0 < n → Data.roundDouble x ≤ pow x n}
    (hpreview : plan.preview (.double pow hpow) principal = .ok preview)
    (hterms : plan.terms (.double pow hpow) principal none = .ok terms) (hprincipal : 0 < principal)
    (hbound : principal.natAbs < 1000000000000) (hvalid : plan.Valid) :
    (preview.installmentAmount = terms.downPayment ∧ preview.totalAmount = terms.total) ↔
      plan.PreviewsCharges (.double pow hpow) principal := by
  rcases hvalid.rate with hzero | hpos
  · exact shown_iff_of_zero_rate hpreview hterms hprincipal hbound hvalid.months hzero
  · exact shown_iff_of_rate hpreview hterms hprincipal hbound hvalid.months hpos

/-! ## Without rounding -/

/-- The payment of what is left after a first payment at once. -/
theorem ceil_rest_eq_iff {principal payment : Int} {rate value : Rat} (hrate : 0 ≤ rate) (hvalue : 0 < value)
    (hrest : 0 < value * (1 + rate) - 1) (hpositive : 0 ≤ payment)
    (hpayment : (principal / value : Rat).ceil = payment) :
    (((principal - payment : Int) : Rat) / (value * (1 + rate) - 1)).ceil = payment ↔
      ¬ ∃ k : Int, ((principal : Rat) - 1) / (value * (1 + rate)) ≤ k ∧ (k : Rat) < principal / value := by
  have hadvance : 0 < value * (1 + rate) := by positivity
  have hcovers : (principal : Rat) ≤ payment * value := by
    rw [← div_le_iff₀ hvalue]
    exact (ceil_eq_iff.mp hpayment).2
  have hle : ((principal - payment : Int) : Rat) / (value * (1 + rate) - 1) ≤ payment := by
    have hpayment' : (0 : Rat) ≤ payment := by exact_mod_cast hpositive
    have hinterest : 0 ≤ payment * value * rate := by positivity
    rw [div_le_iff₀ hrest]
    push_cast
    linarith
  have hlt : (payment : Rat) - 1 < ((principal - payment : Int) : Rat) / (value * (1 + rate) - 1) ↔
      (payment : Rat) - 1 < ((principal : Rat) - 1) / (value * (1 + rate)) := by
    rw [lt_div_iff₀ hrest, lt_div_iff₀ hadvance]
    push_cast
    constructor <;> intro h <;> linarith
  have hbetween : (∃ k : Int, ((principal : Rat) - 1) / (value * (1 + rate)) ≤ k ∧ (k : Rat) < principal / value) ↔
      ((principal : Rat) - 1) / (value * (1 + rate)) ≤ payment - 1 := by
    constructor
    · rintro ⟨k, hlow, hhigh⟩
      have hk : k ≤ payment - 1 := by
        rw [← Rat.lt_ceil_iff, hpayment] at hhigh
        omega
      exact hlow.trans (by exact_mod_cast hk)
    · intro h
      refine ⟨payment - 1, by push_cast; exact h, ?_⟩
      rw [← Rat.lt_ceil_iff, hpayment]
      omega
  rw [ceil_eq_iff, hlt, hbetween, not_le]
  exact and_iff_left hle

theorem annuityIn_exact_iff {k : Int} {rate : Rat} {n : Nat} (hrate : 0 < rate) :
    AnnuityIn .exact k principal rate n ↔ (principal / presentValue (monthlyRate rate) 1 n : Rat).ceil = k := by
  have hone : annuityCents .exact principal rate n = principal / presentValue (monthlyRate rate) 1 n := by
    rw [← annuity_eq (monthlyRate_pos hrate)]
    show (principal : Rat) / 100 * (monthlyRate rate * (1 + monthlyRate rate) ^ n) /
      ((1 + monthlyRate rate) ^ n - 1) * 100 = _
    ring
  rw [AnnuityIn, hone, ceil_eq_iff]

/-- Computed exactly, with interest, the payment is at most the price, and it is the whole price in centimes or no whole centime
lies between the payment in advance of the price less a centime and the payment of the price. -/
theorem previewsCharges_exact_iff (hprincipal : 0 < principal) (hrate : 0 < plan.annualInterestRate)
    (hn : 0 < plan.durationMonths) :
    let rate := monthlyRate plan.annualInterestRate
    let value := presentValue rate 1 plan.durationMonths
    plan.PreviewsCharges .exact principal ↔ 1 ≤ value ∧ ((principal : Rat) - 1 < principal / value ∨
      ¬ ∃ k : Int, ((principal : Rat) - 1) / (value * (1 + rate)) ≤ k ∧ (k : Rat) < principal / value) := by
  have hr := monthlyRate_pos hrate
  have hvalue := presentValue_pos hr.le hn
  have hprincipal' : (0 : Rat) < principal := by exact_mod_cast hprincipal
  obtain ⟨months, hmonths⟩ : ∃ months, plan.durationMonths = months + 1 := ⟨_, (Nat.succ_pred_eq_of_pos hn).symm⟩
  have hround : Arithmetic.exact.round plan.annualInterestRate = plan.annualInterestRate := rfl
  simp only [InstallmentPlan.PreviewsCharges, if_neg hrate.ne', hround, annuityIn_exact_iff hrate]
  rw [hmonths] at hvalue ⊢
  rw [Nat.add_sub_cancel]
  have hadvance := presentValue_succ (show 1 + monthlyRate plan.annualInterestRate ≠ 0 by positivity) months
  generalize hpayment : (principal / presentValue (monthlyRate plan.annualInterestRate) 1 (months + 1) : Rat).ceil = payment
  have hfirst : payment ≤ principal ↔ 1 ≤ presentValue (monthlyRate plan.annualInterestRate) 1 (months + 1) := by
    rw [← hpayment, Rat.ceil_le_iff, div_le_iff₀ hvalue, le_mul_iff_one_le_right hprincipal']
  have hk : (∃ k ≤ principal, payment = k ∧ (k = principal ∨ months + 1 = 1 ∨
      (((principal - k : Int) : Rat) / presentValue (monthlyRate plan.annualInterestRate) 1 months).ceil = k)) ↔
        payment ≤ principal ∧ (payment = principal ∨ months + 1 = 1 ∨
          (((principal - payment : Int) : Rat) / presentValue (monthlyRate plan.annualInterestRate) 1 months).ceil =
            payment) :=
    ⟨fun ⟨_, hle, heq, h⟩ => heq ▸ ⟨hle, h⟩, fun ⟨hle, h⟩ => ⟨payment, hle, rfl, h⟩⟩
  rw [hk, hfirst]
  refine and_congr_right fun hone => ?_
  have hmany : 0 < months := Nat.pos_of_ne_zero fun hzero => by
    rw [hzero, presentValue] at hadvance
    rw [hzero] at hone
    nlinarith
  have hpositive : 0 ≤ payment := by
    have hpos : (0 : Rat) < payment := (div_pos hprincipal' hvalue).trans_le (ceil_eq_iff.mp hpayment).2
    exact_mod_cast hpos.le
  have hrest : presentValue (monthlyRate plan.annualInterestRate) 1 months =
      presentValue (monthlyRate plan.annualInterestRate) 1 (months + 1) * (1 + monthlyRate plan.annualInterestRate) - 1 := by
    linarith
  have hwhole : payment = principal ↔
      (principal : Rat) - 1 < principal / presentValue (monthlyRate plan.annualInterestRate) 1 (months + 1) := by
    rw [← hpayment, ceil_eq_iff]
    exact and_iff_left (by rw [div_le_iff₀ hvalue]; nlinarith)
  rw [hrest, ceil_rest_eq_iff hr.le hvalue (hrest ▸ presentValue_pos hr.le hmany) hpositive hpayment, hwhole,
    or_iff_right (show months + 1 ≠ 1 by omega)]

/-! ## The page -/

theorem mem_of_mapM_ok {α β ε : Type} {f : α → Except ε β} {xs : List α} {ys : List β} (h : xs.mapM f = .ok ys) {x : α}
    (hx : x ∈ xs) : ∃ y ∈ ys, f x = .ok y := by
  induction xs generalizing ys with
  | nil => cases hx
  | cons a xs ih =>
      rw [List.mapM_cons] at h
      obtain ⟨b, hb, h⟩ := Except.bind_eq_ok h
      obtain ⟨bs, hbs, h⟩ := Except.bind_eq_ok h
      obtain rfl := Except.ok.inj h
      rcases List.mem_cons.mp hx with rfl | hx
      · exact ⟨b, List.mem_cons_self, hb⟩
      · obtain ⟨y, hy, hfx⟩ := ih hbs hx
        exact ⟨y, List.mem_cons_of_mem _ hy, hfx⟩

/-- The page shows each active plan of the tenant. -/
theorem previewPlans_shows {rt : Runtime} {slug : String} {db db' : Db} {w w' : World} {page : LinkPreview}
    (h : (previewPlans rt slug).run db w = (.ok page, db', w')) {link : PaymentLink} (hlink : db.linkOfSlug slug = some link)
    {plan : InstallmentPlan} (hplan : plan ∈ db.activePlans link.tenantId) :
    ∃ preview ∈ page.plans, plan.preview rt.arithmetic link.amount = .ok preview := by
  unfold previewPlans at h
  rw [Transaction.Job.bind_eq, Job.run_bind_ok (Job.run_get _ _ _), hlink] at h
  dsimp only [Option.map_some] at h
  rw [Transaction.Job.bind_eq, Job.run_ofExcept_bind] at h
  cases hcheck : checkPreview link (db.tenant link.tenantId) with
  | error e =>
      rw [hcheck] at h
      cases h
  | ok _ =>
      rw [hcheck] at h
      dsimp only at h
      rw [Transaction.Job.bind_eq, Job.run_bind_ok (Job.run_get _ _ _), Transaction.Job.bind_eq, Job.run_ofExcept_bind] at h
      cases hplans : (db.activePlans link.tenantId).mapM (·.preview rt.arithmetic link.amount) with
      | error e =>
          rw [hplans] at h
          cases h
      | ok previews =>
          rw [hplans] at h
          cases h
          exact mem_of_mapM_ok hplans hplan

theorem Db.mem_activePlans {db : Db} {tenantId : Id} {planId : String} {plan : InstallmentPlan}
    (h : db.activePlan tenantId planId = some plan) : plan ∈ db.activePlans tenantId := by
  rw [Db.activePlan] at h
  have hplan : plan.id = planId ∧ plan.tenantId = tenantId ∧ plan.isActive = true := by simpa using List.find?_some h
  rw [Db.activePlans, List.mem_insertionSort, List.mem_filter]
  exact ⟨List.mem_of_find?_eq_some h, by simp [hplan.2.1, hplan.2.2]⟩

/-- Computed with doubles, the page of a link and the agreement of a checkout of that link name the same charges exactly where
rounding hides that the first of them is taken at once. -/
theorem preview_charged_iff {rt : Runtime} {pow : Rat → Nat → Rat}
    {hpow : ∀ x n, 1 ≤ x → 0 < n → Data.roundDouble x ≤ pow x n} (hdouble : rt.arithmetic = .double pow hpow)
    {slug : String} {body : PayBody} {db db₀ db' : Db} {w w₀ w₁ w' : World} {page : LinkPreview} {paid : PaidLink}
    {agreementId : String} (hpreview : (previewPlans rt slug).run db w₀ = (.ok page, db₀, w₁))
    (hrun : (payLink rt slug body).run db w = (.ok paid, db', w')) (hdown : body.downPaymentAmount = none)
    (hpaid : paid.agreementId = some agreementId) :
    ∃ agreement ∈ db'.installmentAgreements, ∃ link plan, agreement.id = agreementId ∧
      db.Agreed rt slug body agreement link plan ∧ ∃ preview ∈ page.plans, preview.planId = plan.id ∧
        (0 < link.amount → plan.Valid →
          (preview.IsCharged agreement ↔ plan.PreviewsCharges rt.arithmetic link.amount)) := by
  have hyields : (payLink rt slug body).Yields checkouts _ db [] := yields_payLink_agreement slug body
  obtain ⟨_, -, h⟩ := hyields.run hrun
  obtain ⟨agreement, hmem, link, plan, hid, hagreed⟩ := h paid rfl agreementId hpaid
  obtain ⟨planId, hnamed, hactive⟩ := hagreed.named
  obtain ⟨preview, hpage, hshown⟩ := previewPlans_shows hpreview hagreed.ofSlug (Db.mem_activePlans hactive)
  obtain ⟨terms, hterms, hfirst, hamount, hcount⟩ := hagreed.hasTerms
  obtain ⟨_, _, -, -, hplanId, -⟩ := plan.preview_ok hshown
  refine ⟨agreement, hmem, link, plan, hid, hagreed, preview, hpage, hplanId, fun hprincipal hvalid => ?_⟩
  rw [hdown] at hterms
  have htotal : agreement.total = terms.total := by
    rw [InstallmentAgreement.total, InstallmentTerms.total, hfirst, hamount, hcount]
  rw [hdouble] at hshown hterms ⊢
  rw [← shown_iff hshown hterms hprincipal link.amount_lt hvalid, ← hfirst, ← htotal]
  exact ⟨fun h => ⟨h.first, h.total⟩, fun h => ⟨h.1, h.2⟩⟩

/-! ## A small interest -/

/-- A checkout with no down payment asked for. -/
def plainBody : PayBody := ⟨some "p", none, PayBody.none_pos⟩

/-- The link over 100.00, paid in three months. -/
def interestDb (rate : Rat) : Db :=
  { installmentDb with
    installmentPlans := installmentDb.installmentPlans.map fun plan =>
      { plan with durationMonths := 3, annualInterestRate := rate } }

/-- 119865.36 at 0.0001%. -/
def smallDb : Db :=
  { interestDb (1 / 10000) with
    paymentLinks := installmentDb.paymentLinks.map fun link => { link with amount := 11986536, amount_lt := by decide } }

def smallRun : Except Failure PaidLink × Db × World := (payLink checkoutRuntime "l" plainBody).run smallDb .counting

/-- Three payments of 39955.13. -/
def smallPage : LinkPreview :=
  ⟨.mad, 11986536, [⟨"p", 3, checkoutRuntime.arithmetic.round (1 / 10000), 3995513, 11986539, 3, none, none⟩]⟩

theorem preview_charged_iff_small : ∃ agreement ∈ smallRun.2.1.installmentAgreements, agreement.id = "5" ∧
    ∃ preview ∈ smallPage.plans, preview.IsCharged agreement := by
  have hpreview : ((previewPlans checkoutRuntime "l").run smallDb .counting).1.toOption = some smallPage := by
    decide +kernel
  have hrun : smallRun.1.toOption = some ⟨2, some "5"⟩ := by decide +kernel
  obtain ⟨agreement, hmem, link, plan, hid, hagreed, preview, hpage, -, hiff⟩ :=
    preview_charged_iff rfl (Prod.ext (Except.of_toOption hpreview) rfl)
      (show (payLink checkoutRuntime "l" plainBody).run smallDb .counting = _ from
        Prod.ext (Except.of_toOption hrun) rfl) rfl rfl
  obtain ⟨planId, -, hactive⟩ := hagreed.named
  have hamount : link.amount = 11986536 :=
    (by decide +kernel : ∀ link ∈ smallDb.paymentLinks, link.amount = 11986536) link
      (List.mem_of_find?_eq_some hagreed.ofSlug)
  obtain ⟨hmonths, hrate⟩ : plan.durationMonths = 3 ∧ plan.annualInterestRate = 1 / 10000 :=
    (by decide +kernel : ∀ plan ∈ smallDb.installmentPlans, plan.durationMonths = 3 ∧ plan.annualInterestRate = 1 / 10000)
      plan (List.mem_of_find?_eq_some hactive)
  refine ⟨agreement, hmem, hid, preview, hpage, (hiff ?_ ⟨?_, ?_⟩).mpr ?_⟩
  · rw [hamount]
    decide
  · rw [hmonths]
    decide
  · exact .inr hrate.ge
  · rw [InstallmentPlan.PreviewsCharges, hamount, hmonths, hrate, if_neg (by decide +kernel)]
    refine ⟨3995513, by decide, ?_, .inr (.inr ?_)⟩ <;> unfold AnnuityIn <;> decide +kernel

/-- 100.00 at 12%. -/
def yearRun : Except Failure PaidLink × Db × World := (payLink checkoutRuntime "l" plainBody).run (interestDb 12) .counting

def yearPage : LinkPreview := ⟨.mad, 10000, [⟨"p", 3, 12, 3401, 10203, 203, none, none⟩]⟩

/-- The page shows 102.03 and the charges add up to 101.01. -/
theorem not_preview_charged : ¬ ∀ {rt : Runtime} {slug : String} {body : PayBody} {db db₀ db' : Db} {w w₀ w₁ w' : World}
    {page : LinkPreview} {paid : PaidLink} {agreementId : String}, (∀ link ∈ db.paymentLinks, 0 < link.amount) →
      (∀ plan ∈ db.installmentPlans, plan.Valid) →
        (previewPlans rt slug).run db w₀ = (.ok page, db₀, w₁) → (payLink rt slug body).run db w = (.ok paid, db', w') →
          body.downPaymentAmount = none → paid.agreementId = some agreementId →
            ∀ agreement ∈ db'.installmentAgreements, agreement.id = agreementId →
              ∀ preview ∈ page.plans, preview.planId = agreement.planId → preview.IsCharged agreement := by
  intro h
  have hpreview : ((previewPlans checkoutRuntime "l").run (interestDb 12) .counting).1.toOption = some yearPage := by decide +kernel
  have hrun : yearRun.1.toOption = some ⟨2, some "5"⟩ := by decide +kernel
  have hfound : ∃ agreement ∈ yearRun.2.1.installmentAgreements, agreement.id = "5" ∧ agreement.planId = "p" ∧
      agreement.total = 10101 := by decide +kernel
  have hvalid : ∀ plan ∈ (interestDb 12).installmentPlans, plan.Valid := by
    intro plan hplan
    rw [List.mem_singleton.mp hplan]
    exact ⟨by decide, .inr (by decide +kernel)⟩
  obtain ⟨agreement, hmem, hid, hplan, htotal⟩ := hfound
  have hall := h (by decide +kernel) hvalid (Prod.ext (Except.of_toOption hpreview) rfl)
    (show (payLink checkoutRuntime "l" plainBody).run (interestDb 12) .counting = _ from
      Prod.ext (Except.of_toOption hrun) rfl) rfl rfl agreement hmem hid _ (List.mem_singleton_self _) hplan.symm
  exact absurd (hall.total.trans htotal) (by decide)

end CorpoPay.Settlement
