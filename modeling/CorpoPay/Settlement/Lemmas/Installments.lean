import CorpoPay.Data.Annuity
import CorpoPay.Settlement.Installments

/-!
# Rounding of installments

The rounded shares of a whole, the payment of an annuity in whole centimes, and the down payment between its bounds.
-/

namespace CorpoPay.Settlement

open Data (Arithmetic annuity_eq presentValue presentValue_le presentValue_pos)

variable {a : Arithmetic}

/-! ## Rounding -/

theorem le_roundRat_iff {n : Int} {x : Rat} : n ≤ roundRat x ↔ (n : Rat) - 1 / 2 ≤ x := by
  rw [roundRat, Rat.le_floor_iff]
  constructor <;> intro h <;> linarith

theorem roundRat_mono {x y : Rat} (h : x ≤ y) : roundRat x ≤ roundRat y := Rat.floor_monotone (add_le_add h le_rfl)

theorem roundRat_intCast (n : Int) : roundRat n = n := by
  have hle : n ≤ roundRat n := le_roundRat_iff.mpr (by linarith)
  have hlt : ¬ n + 1 ≤ roundRat n := by
    rw [le_roundRat_iff]
    push_cast
    linarith
  omega

theorem roundRat_div (n : Int) {d : Nat} (hd : 0 < d) : roundRat ((n : Rat) / d) = roundDiv n d := by
  refine eq_of_forall_le_iff fun k => ?_
  have hd' : (0 : Rat) < d := by exact_mod_cast hd
  have hhalf : (k : Rat) - 1 / 2 ≤ n / d ↔ ((k * (2 * d) : Int) : Rat) ≤ ((2 * n + d : Int) : Rat) := by
    rw [le_div_iff₀ hd']
    push_cast
    constructor <;> intro h <;> linarith
  rw [le_roundRat_iff, roundDiv, Int.le_ediv_iff_mul_le (by omega), hhalf, Int.cast_le]

theorem roundDiv_eq (n : Int) {d : Int} (hd : 0 < d) :
    roundDiv n d = n / d + if d ≤ 2 * (n % d) then 1 else 0 := by
  have hn : d * (n / d) + n % d = n := Int.mul_ediv_add_emod n d
  have hlt : n % d < d := Int.emod_lt_of_pos n hd
  have hnonneg : 0 ≤ n % d := Int.emod_nonneg n (by omega)
  have hsum : 2 * n + d = (2 * (n % d) + d) + (2 * d) * (n / d) := by linarith
  rw [roundDiv, hsum, Int.add_mul_ediv_left _ _ (by omega), add_comm]
  congr 1
  split_ifs with h
  · rw [Int.ediv_eq_iff_of_pos (by omega)]
    omega
  · exact Int.ediv_eq_zero_of_lt (by omega) (by omega)

/-- The rounded shares cover the whole when nothing is left over or the rest is rounded up. -/
theorem le_mul_roundDiv_iff (n : Int) {d : Int} (hd : 0 < d) :
    n ≤ d * roundDiv n d ↔ n % d = 0 ∨ d ≤ 2 * (n % d) := by
  have hn : d * (n / d) + n % d = n := Int.mul_ediv_add_emod n d
  have hlt : n % d < d := Int.emod_lt_of_pos n hd
  have hnonneg : 0 ≤ n % d := Int.emod_nonneg n (by omega)
  rw [roundDiv_eq n hd, mul_add]
  split_ifs with h <;> omega

theorem mul_roundDiv_lt (n : Int) {d : Int} (hd : 0 < d) : d * roundDiv n d < n + d := by
  have hn : d * (n / d) + n % d = n := Int.mul_ediv_add_emod n d
  have hnonneg : 0 ≤ n % d := Int.emod_nonneg n (by omega)
  rw [roundDiv_eq n hd, mul_add]
  split_ifs with h <;> omega

theorem roundDiv_eq_zero_iff {n d : Int} (hn : 0 ≤ n) (hd : 0 < d) : roundDiv n d = 0 ↔ 2 * n < d := by
  rw [roundDiv, Int.ediv_eq_iff_of_pos (by omega)]
  omega

/-! ## Centimes -/

theorem toCentimes_mono {x y : Rat} (h : x ≤ y) : toCentimes a x ≤ toCentimes a y :=
  roundRat_mono (a.mono (mul_le_mul_of_nonneg_right h (by norm_num)))

/-- Rounding hides what the numbers are off. -/
theorem toCentimes_eq {x : Rat} {k : Int} (h : |x * 100 - k| ≤ 1 / 4) (hk : |(k : Rat)| ≤ 10 ^ 15) : toCentimes a x = k := by
  have hbound : |x * 100| ≤ 10 ^ 15 + 1 / 4 := by
    have habs := abs_sub_abs_le_abs_sub (x * 100) k
    linarith
  have hnear := a.near_of_le hbound
  rw [abs_le] at h hnear
  have hlow : k ≤ toCentimes a x := le_roundRat_iff.mpr (by linarith)
  have hhigh : ¬ k + 1 ≤ toCentimes a x := by
    rw [toCentimes, le_roundRat_iff]
    push_cast
    linarith
  omega

theorem major_near {k : Int} (hk : |(k : Rat)| ≤ 10 ^ 12) : |major a k - k / 100| ≤ 10 ^ 10 / 2 ^ 53 := by
  refine a.near_of_le ?_
  rw [abs_div, abs_of_pos (show (0 : Rat) < 100 by norm_num), div_le_iff₀ (by norm_num)]
  linarith

theorem toCentimes_major {k : Int} (hk : |(k : Rat)| ≤ 10 ^ 12) : toCentimes a (major a k) = k := by
  have hnear := major_near (a := a) hk
  refine toCentimes_eq ?_ (hk.trans (by norm_num))
  rw [abs_le] at hnear ⊢
  constructor <;> linarith

/-! ## The payment -/

/-- The rate of a month. -/
def monthlyRate (annualRatePct : Rat) : Rat := annualRatePct / 100 / 12

theorem monthlyRate_pos {annualRatePct : Rat} (h : 0 < annualRatePct) : 0 < monthlyRate annualRatePct := by
  unfold monthlyRate
  positivity

theorem monthlyRate_nonneg {annualRatePct : Rat} (h : 0 ≤ annualRatePct) : 0 ≤ monthlyRate annualRatePct := by
  unfold monthlyRate
  positivity

theorem months_pos {principal : Int} {annualRatePct : Rat} {n : Nat} {amount : Int}
    (h : computeInstallmentAmount a principal annualRatePct n = .ok amount) : 0 < n :=
  Nat.pos_of_ne_zero fun hn => by
    rw [computeInstallmentAmount, if_pos hn] at h
    cases h

theorem computeInstallmentAmount_nonpos {principal : Int} {annualRatePct : Rat} {n : Nat} (h : principal ≤ 0) (hn : 0 < n) :
    computeInstallmentAmount a principal annualRatePct n = .ok 0 := by
  rw [computeInstallmentAmount, if_neg hn.ne', if_pos h]

theorem computeInstallmentAmount_zero_rate {principal : Int} {n : Nat} (hprincipal : 0 < principal) (hn : 0 < n) :
    computeInstallmentAmount a principal 0 n = .ok (toCentimes a (a.round (major a principal / n))) := by
  rw [computeInstallmentAmount, if_neg hn.ne', if_neg (not_le.mpr hprincipal), if_pos rfl]

theorem share_nonneg {principal : Int} (hprincipal : 0 ≤ principal) (n : Nat) :
    0 ≤ toCentimes a (a.round (major a principal / n)) := by
  have hprincipal' : (0 : Rat) ≤ principal := by exact_mod_cast hprincipal
  have hmajor : 0 ≤ major a principal := a.round_nonneg (by positivity)
  have hshare : 0 ≤ a.round (major a principal / n) := a.round_nonneg (by positivity)
  refine le_roundRat_iff.mpr (le_trans ?_ (a.round_nonneg (mul_nonneg hshare (by norm_num))))
  norm_num

/-- No payment is negative. -/
theorem computeInstallmentAmount_nonneg {principal : Int} {rate : Rat} {n : Nat} {amount : Int} (hrate : 0 ≤ rate)
    (h : computeInstallmentAmount a principal rate n = .ok amount) : 0 ≤ amount := by
  unfold computeInstallmentAmount at h
  dsimp only at h
  split_ifs at h with hn hpos
  · cases h
    exact le_rfl
  · cases h
    exact share_nonneg (not_le.mp hpos).le n
  · cases h
    exact share_nonneg (not_le.mp hpos).le n
  · obtain rfl := Except.ok.inj h
    have hprincipal : (0 : Rat) ≤ principal := by exact_mod_cast (not_le.mp hpos).le
    have hmajor : 0 ≤ major a principal := a.round_nonneg (by positivity)
    have hr : 0 ≤ a.round (a.round (rate / 100) / 12) :=
      a.round_nonneg (div_nonneg (a.round_nonneg (by positivity)) (by norm_num))
    have hgrowth : 1 ≤ a.round (1 + a.round (a.round (rate / 100) / 12)) :=
      a.one.ge.trans (a.mono (le_add_of_nonneg_right hr))
    have hfactor := a.one_le_pow hgrowth (Nat.pos_of_ne_zero hn)
    have hpayment : 0 ≤ a.round (major a principal * a.round (a.round (a.round (rate / 100) / 12) *
        a.pow (a.round (1 + a.round (a.round (rate / 100) / 12))) n)) :=
      a.round_nonneg (mul_nonneg hmajor (a.round_nonneg (mul_nonneg hr (by linarith))))
    have hquotient := a.round_nonneg (div_nonneg hpayment (a.round_nonneg (sub_nonneg.mpr hfactor)))
    have hcents := a.round_nonneg (mul_nonneg hquotient (show (0 : Rat) ≤ 100 by norm_num))
    rw [← Int.sub_one_lt_iff, Rat.lt_ceil_iff]
    push_cast
    linarith

/-! ## The payment without rounding -/

/-- With interest the payment that is worth the principal is rounded up. -/
theorem computeInstallmentAmount_rate {principal : Int} {annualRatePct : Rat} {n : Nat} (hprincipal : 0 < principal)
    (hrate : 0 < annualRatePct) (hn : 0 < n) : computeInstallmentAmount .exact principal annualRatePct n =
      .ok (principal / presentValue (monthlyRate annualRatePct) 1 n).ceil := by
  have hr := monthlyRate_pos hrate
  have hone : 1 < (1 + monthlyRate annualRatePct) ^ n := one_lt_pow₀ (by linarith) hn.ne'
  rw [← annuity_eq hr, computeInstallmentAmount, if_neg hn.ne', if_neg (not_le.mpr hprincipal), if_neg hrate.ne']
  refine (if_neg hone.ne').trans (congrArg Except.ok (congrArg Rat.ceil ?_))
  show (principal : Rat) / 100 * (monthlyRate annualRatePct * (1 + monthlyRate annualRatePct) ^ n) /
    ((1 + monthlyRate annualRatePct) ^ n - 1) * 100 = _
  ring

/-- Without interest the principal is split and the share is rounded to the nearest centime. -/
theorem computeInstallmentAmount_share {principal : Int} {n : Nat} (hprincipal : 0 < principal) (hn : 0 < n) :
    computeInstallmentAmount .exact principal 0 n = .ok (roundDiv principal n) := by
  rw [computeInstallmentAmount_zero_rate hprincipal hn]
  have hshare : (principal : Rat) / 100 / n * 100 = principal / n := by ring
  refine congrArg Except.ok ((congrArg roundRat hshare).trans (roundRat_div principal (by exact_mod_cast hn)))

/-- With interest the payments are positive and cover the principal. -/
theorem computeInstallmentAmount_covers {principal : Int} {rate : Rat} {n : Nat} {amount : Int} (hprincipal : 0 < principal)
    (hrate : 0 < rate) (h : computeInstallmentAmount .exact principal rate n = .ok amount) :
    0 < amount ∧ principal ≤ n * amount := by
  have hn := months_pos h
  rw [computeInstallmentAmount_rate hprincipal hrate hn] at h
  obtain rfl := Except.ok.inj h
  have hr := monthlyRate_nonneg hrate.le
  have hvalue := presentValue_pos hr hn
  have hp : (0 : Rat) < principal := by exact_mod_cast hprincipal
  have hceil : (principal : Rat) / presentValue (monthlyRate rate) 1 n ≤
      (principal / presentValue (monthlyRate rate) 1 n : Rat).ceil := Rat.le_ceil
  have hpos : (0 : Rat) < (principal / presentValue (monthlyRate rate) 1 n : Rat).ceil :=
    (div_pos hp hvalue).trans_le hceil
  refine ⟨by exact_mod_cast hpos, ?_⟩
  have hcover : (principal : Rat) ≤ n * (principal / presentValue (monthlyRate rate) 1 n : Rat).ceil := by
    rw [div_le_iff₀ hvalue, mul_comm] at hceil
    exact hceil.trans (mul_le_mul_of_nonneg_right (presentValue_le hr n) hpos.le)
  exact_mod_cast hcover

theorem computeInstallmentAmount_flat {principal : Int} {n : Nat} {amount : Int} (hprincipal : 0 ≤ principal)
    (h : computeInstallmentAmount .exact principal 0 n = .ok amount) : 0 < n ∧ amount = roundDiv principal n := by
  have hn := months_pos h
  refine ⟨hn, ?_⟩
  rcases hprincipal.lt_or_eq with hpos | rfl
  · rw [computeInstallmentAmount_share hpos hn] at h
    exact (Except.ok.inj h).symm
  · rw [computeInstallmentAmount_nonpos le_rfl hn] at h
    rw [roundDiv_zero (by omega)]
    exact (Except.ok.inj h).symm

/-! ## The down payment -/

/-- What is asked for between its bounds. -/
theorem capDownPayment_eq_min (principal standardInstallment : Int) (asked : Option Rat) :
    capDownPayment a principal standardInstallment asked = min (toCentimes a (major a principal))
      (asked.elim (toCentimes a (major a standardInstallment)) fun x =>
        max (toCentimes a (major a standardInstallment)) (toCentimes a x)) := by
  have hmono : Monotone (toCentimes a) := fun _ _ h => toCentimes_mono h
  unfold capDownPayment
  dsimp only
  rw [← min_def_lt, hmono.map_min]
  cases asked with
  | none => simp
  | some x => rw [Option.getD_some, Option.elim_some, ← max_def_lt, hmono.map_max, max_comm]

theorem toCentimes_major_exact (k : Int) : toCentimes .exact (major .exact k) = k := by
  have hwhole : (k : Rat) / 100 * 100 = k := by ring
  exact (congrArg roundRat hwhole).trans (roundRat_intCast k)

theorem abs_le_of_natAbs_lt {k : Int} (h : k.natAbs < 1000000000000) : |(k : Rat)| ≤ 10 ^ 12 - 1 := by
  have hle : |k| ≤ 999999999999 := by
    rw [Int.abs_eq_natAbs]
    omega
  have hcast : |(k : Rat)| ≤ 999999999999 := by exact_mod_cast hle
  exact hcast.trans (by norm_num)

/-- Rounding does not bring an amount past another one. -/
theorem le_toCentimes_major_iff {principal k : Int} (hprincipal : principal.natAbs < 1000000000000) :
    principal ≤ toCentimes a (major a k) ↔ principal ≤ k := by
  have habs := abs_le_of_natAbs_lt hprincipal
  have hmono : Monotone fun k : Int => toCentimes a (major a k) := fun k k' h =>
    toCentimes_mono (a.mono (div_le_div_of_nonneg_right (by exact_mod_cast h) (by norm_num)))
  constructor
  · intro h
    by_contra hlt
    have hbefore : toCentimes a (major a (principal - 1)) = principal - 1 := by
      refine toCentimes_major ?_
      push_cast
      exact (abs_sub _ _).trans (by rw [abs_one]; linarith)
    have := hmono (show k ≤ principal - 1 by omega)
    dsimp only at this
    omega
  · intro h
    rw [← toCentimes_major (a := a) (habs.trans (by norm_num) : |(principal : Rat)| ≤ 10 ^ 12)]
    exact hmono h

theorem capDownPayment_bounds {principal standardInstallment : Int} (hprincipal : 0 ≤ principal)
    (hbound : principal.natAbs < 1000000000000) (hstandard : 0 ≤ standardInstallment) (asked : Option Rat) :
    0 ≤ capDownPayment a principal standardInstallment asked ∧
      capDownPayment a principal standardInstallment asked ≤ principal := by
  have hwhole : toCentimes a (major a principal) = principal :=
    toCentimes_major ((abs_le_of_natAbs_lt hbound).trans (by norm_num))
  have hfirst : 0 ≤ toCentimes a (major a standardInstallment) := by
    have hstandard' : (0 : Rat) ≤ standardInstallment := by exact_mod_cast hstandard
    have hmajor : 0 ≤ major a standardInstallment := a.round_nonneg (by positivity)
    refine le_roundRat_iff.mpr (le_trans ?_ (a.round_nonneg (mul_nonneg hmajor (by norm_num))))
    norm_num
  rw [capDownPayment_eq_min, hwhole]
  refine ⟨le_min hprincipal ?_, min_le_left _ _⟩
  cases asked with
  | none => exact hfirst
  | some x => exact le_max_of_le_left hfirst

theorem toCentimes_rest {principal down : Int} (hdown : 0 ≤ down) (hle : down ≤ principal)
    (hbound : principal.natAbs < 1000000000000) :
    toCentimes a (a.round (major a principal - major a down)) = principal - down := by
  have hdown' : (0 : Rat) ≤ down := by exact_mod_cast hdown
  have hle' : (down : Rat) ≤ principal := by exact_mod_cast hle
  have hprincipal := (le_abs_self _).trans (abs_le_of_natAbs_lt hbound)
  have hmajor := major_near (a := a) (k := principal) (by rw [abs_le]; constructor <;> linarith)
  have hmajor' := major_near (a := a) (k := down) (by rw [abs_le]; constructor <;> linarith)
  rw [abs_le] at hmajor hmajor'
  have hround : |major a principal - major a down| ≤ 10 ^ 11 := by
    rw [abs_le]
    constructor <;> linarith
  have hnear := a.near_of_le hround
  rw [abs_le] at hnear
  refine toCentimes_eq ?_ ?_
  · rw [abs_le]
    push_cast
    constructor <;> linarith
  · rw [abs_le]
    push_cast
    constructor <;> linarith

/-- The down payment is the principal when the standard installment is at least the principal, or what was asked for. -/
theorem capDownPayment_eq_iff {principal : Int} (hprincipal : principal.natAbs < 1000000000000) (standardInstallment : Int)
    (asked : Option Rat) : capDownPayment a principal standardInstallment asked = principal ↔
      principal ≤ standardInstallment ∨ ∃ x ∈ asked, (principal : Rat) - 1 / 2 ≤ a.round (x * 100) := by
  have hwhole : toCentimes a (major a principal) = principal :=
    toCentimes_major ((abs_le_of_natAbs_lt hprincipal).trans (by norm_num))
  have hstandard := le_toCentimes_major_iff (a := a) (k := standardInstallment) hprincipal
  rw [capDownPayment_eq_min, hwhole, min_eq_left_iff]
  cases asked with
  | none => simp [hstandard]
  | some x =>
      rw [Option.elim_some, le_max_iff, hstandard]
      simp [toCentimes, le_roundRat_iff]

/-- The charge of a down payment is the principal when the down payment is. -/
theorem charge_capDownPayment_eq_iff {principal : Int} (hprincipal : principal.natAbs < 1000000000000)
    (standardInstallment : Int) (asked : Option Rat) :
    toCentimes a (major a (capDownPayment a principal standardInstallment asked)) = principal ↔
      principal ≤ standardInstallment ∨ ∃ x ∈ asked, (principal : Rat) - 1 / 2 ≤ a.round (x * 100) := by
  have hwhole : toCentimes a (major a principal) = principal :=
    toCentimes_major ((abs_le_of_natAbs_lt hprincipal).trans (by norm_num))
  have hle : capDownPayment a principal standardInstallment asked ≤ principal := by
    rw [capDownPayment_eq_min, hwhole]
    exact min_le_left _ _
  rw [← capDownPayment_eq_iff hprincipal]
  constructor
  · intro h
    exact le_antisymm hle ((le_toCentimes_major_iff hprincipal).mp h.ge)
  · intro h
    rw [h, hwhole]

end CorpoPay.Settlement
