import Mathlib.Algebra.Order.Field.Power
import Mathlib.Data.Int.Log
import Mathlib.Data.Rat.Floor
import Mathlib.Tactic.FieldSimp
import Mathlib.Tactic.Linarith
import Mathlib.Tactic.Positivity

/-!
# Doubles

A double has 53 bits. What is computed is rounded to the nearest double, and between two of them to the one with an even
last bit. The exponent has no bounds here: nothing comes near the largest or the smallest double.
-/

namespace CorpoPay.Data

/-! ## Whole numbers -/

/-- The nearest whole number, the even one of two. -/
def roundEven (x : Rat) : Int :=
  if x - x.floor < 1 / 2 ∨ x - x.floor = 1 / 2 ∧ x.floor % 2 = 0 then x.floor else x.floor + 1

theorem roundEven_near (x : Rat) : |(roundEven x : Rat) - x| ≤ 1 / 2 := by
  have hlow := Rat.floor_le x
  have hhigh := Rat.lt_floor_add_one x
  push_cast at hhigh
  unfold roundEven
  rw [abs_le]
  split_ifs with hdown
  · have hhalf : x - x.floor ≤ 1 / 2 := hdown.elim le_of_lt fun h => h.1.le
    constructor <;> linarith
  · have hhalf : 1 / 2 ≤ x - x.floor := not_lt.mp fun h => hdown (.inl h)
    push_cast
    constructor <;> linarith

theorem floor_le_roundEven (x : Rat) : x.floor ≤ roundEven x := by
  unfold roundEven
  split_ifs <;> omega

theorem roundEven_le_floor (x : Rat) : roundEven x ≤ x.floor + 1 := by
  unfold roundEven
  split_ifs <;> omega

theorem roundEven_mono {x y : Rat} (h : x ≤ y) : roundEven x ≤ roundEven y := by
  have hfloor : x.floor ≤ y.floor := Rat.floor_monotone h
  rcases hfloor.lt_or_eq with hlt | heq
  · have hx := roundEven_le_floor x
    have hy := floor_le_roundEven y
    omega
  · unfold roundEven
    rw [heq]
    split_ifs with hx hy
    · rfl
    · omega
    · -- the rest of `y` is at most one half, and so is the rest of `x`
      refine absurd ?_ hx
      rename_i hy
      rcases hy with hy | ⟨hy, heven⟩
      · exact .inl (by linarith)
      · rcases h.lt_or_eq with hlt | rfl
        · exact .inl (by linarith)
        · exact .inr ⟨hy, heven⟩
    · rfl

theorem roundEven_intCast (n : Int) : roundEven n = n := by
  simp [roundEven]

/-! ## Doubles -/

/-- The unit of the last of the 53 bits. -/
def ulp (x : Rat) : Rat := 2 ^ (Int.log 2 x - 52)

/-- The double of a positive number. -/
def roundPos (x : Rat) : Rat := roundEven (x / ulp x) * ulp x

def roundDouble (x : Rat) : Rat :=
  if 0 < x then roundPos x else if x < 0 then -roundPos (-x) else 0

theorem ulp_pos (x : Rat) : 0 < ulp x := zpow_pos (by norm_num) _

theorem zpow_log (x : Rat) : (2 : Rat) ^ Int.log 2 x = 2 ^ 52 * ulp x ∧ (2 : Rat) ^ (Int.log 2 x + 1) = 2 ^ 53 * ulp x := by
  have hunit : (2 : Rat) ^ Int.log 2 x = 2 ^ 52 * ulp x := by
    rw [ulp, zpow_sub₀ (by norm_num)]
    field_simp
  refine ⟨hunit, ?_⟩
  rw [zpow_add_one₀ (by norm_num), hunit]
  ring

/-- The units of a positive number. -/
theorem units {x : Rat} (hx : 0 < x) : 2 ^ 52 ≤ x / ulp x ∧ x / ulp x ≤ 2 ^ 53 := by
  have hlow : (2 : Rat) ^ Int.log 2 x ≤ x := Int.zpow_log_le_self (by decide) hx
  have hhigh : x < (2 : Rat) ^ (Int.log 2 x + 1) := Int.lt_zpow_succ_log_self (by decide) x
  rw [(zpow_log x).2] at hhigh
  rw [(zpow_log x).1] at hlow
  rw [le_div_iff₀ (ulp_pos x), div_le_iff₀ (ulp_pos x)]
  exact ⟨hlow, hhigh.le⟩

theorem roundPos_near {x : Rat} (hx : 0 < x) : |roundPos x - x| ≤ x / 2 ^ 53 := by
  have hulp := ulp_pos x
  have hnear := roundEven_near (x / ulp x)
  have hsum : roundPos x - x = (roundEven (x / ulp x) - x / ulp x) * ulp x := by
    rw [roundPos, sub_mul, div_mul_cancel₀ _ hulp.ne']
  have hunits := (le_div_iff₀ hulp).mp (units hx).1
  rw [hsum, abs_mul, abs_of_pos hulp, le_div_iff₀ (by norm_num)]
  nlinarith

theorem roundPos_bounds {x : Rat} (hx : 0 < x) :
    2 ^ Int.log 2 x ≤ roundPos x ∧ roundPos x ≤ 2 ^ (Int.log 2 x + 1) := by
  obtain ⟨hlow, hhigh⟩ := units hx
  have hfirst : ((2 ^ 52 : Int) : Rat) ≤ roundEven (x / ulp x) := by
    rw [← roundEven_intCast (2 ^ 52)]
    exact_mod_cast roundEven_mono (by exact_mod_cast hlow)
  have hlast : (roundEven (x / ulp x) : Rat) ≤ ((2 ^ 53 : Int) : Rat) := by
    rw [← roundEven_intCast (2 ^ 53)]
    exact_mod_cast roundEven_mono (by exact_mod_cast hhigh)
  push_cast at hfirst hlast
  rw [(zpow_log x).1, (zpow_log x).2, roundPos]
  exact ⟨mul_le_mul_of_nonneg_right hfirst (ulp_pos x).le, mul_le_mul_of_nonneg_right hlast (ulp_pos x).le⟩

theorem roundPos_pos {x : Rat} (hx : 0 < x) : 0 < roundPos x := (zpow_pos (by norm_num) _).trans_le (roundPos_bounds hx).1

theorem roundPos_mono {x y : Rat} (hx : 0 < x) (h : x ≤ y) : roundPos x ≤ roundPos y := by
  have hlog : Int.log 2 x ≤ Int.log 2 y := Int.log_mono_right hx h
  rcases hlog.lt_or_eq with hlt | heq
  · calc roundPos x ≤ 2 ^ (Int.log 2 x + 1) := (roundPos_bounds hx).2
      _ ≤ 2 ^ Int.log 2 y := zpow_le_zpow_right₀ (by norm_num) hlt
      _ ≤ roundPos y := (roundPos_bounds (hx.trans_le h)).1
  · have hulp : ulp x = ulp y := by rw [ulp, ulp, heq]
    have hle : roundEven (x / ulp y) ≤ roundEven (y / ulp y) :=
      roundEven_mono (div_le_div_of_nonneg_right h (ulp_pos y).le)
    rw [roundPos, roundPos, hulp]
    exact mul_le_mul_of_nonneg_right (by exact_mod_cast hle) (ulp_pos y).le

theorem roundDouble_near (x : Rat) : |roundDouble x - x| ≤ |x| / 2 ^ 53 := by
  unfold roundDouble
  split_ifs with hpos hneg
  · rw [abs_of_pos hpos]
    exact roundPos_near hpos
  · have hnear := roundPos_near (neg_pos.mpr hneg)
    rw [abs_of_neg hneg, ← abs_neg, neg_sub, sub_neg_eq_add, add_comm]
    rwa [sub_neg_eq_add] at hnear
  · have hzero : x = 0 := le_antisymm (not_lt.mp hpos) (not_lt.mp hneg)
    simp [hzero]

theorem roundDouble_of_pos {x : Rat} (hx : 0 < x) : roundDouble x = roundPos x := if_pos hx

theorem roundDouble_neg (x : Rat) : roundDouble (-x) = -roundDouble x := by
  unfold roundDouble
  split_ifs with h h' <;> first | linarith | simp

theorem roundDouble_nonneg {x : Rat} (hx : 0 ≤ x) : 0 ≤ roundDouble x := by
  rcases hx.lt_or_eq with hpos | rfl
  · exact (roundDouble_of_pos hpos).symm ▸ (roundPos_pos hpos).le
  · simp [roundDouble]

theorem roundDouble_mono : Monotone roundDouble := by
  intro x y h
  rcases lt_or_ge 0 x with hx | hx
  · rw [roundDouble_of_pos hx, roundDouble_of_pos (hx.trans_le h)]
    exact roundPos_mono hx h
  · rcases lt_or_ge y 0 with hy | hy
    · rw [← neg_le_neg_iff, ← roundDouble_neg, ← roundDouble_neg, roundDouble_of_pos (neg_pos.mpr hy),
        roundDouble_of_pos (by linarith)]
      exact roundPos_mono (neg_pos.mpr hy) (neg_le_neg h)
    · have hneg := roundDouble_nonneg (neg_nonneg.mpr hx)
      rw [roundDouble_neg] at hneg
      exact le_trans (by linarith) (roundDouble_nonneg hy)

theorem roundDouble_one : roundDouble 1 = 1 := by
  have hulp : ulp 1 = 1 / 2 ^ 52 := by
    rw [ulp, Int.log_one_right]
    norm_num
  have hunits : (1 : Rat) / ulp 1 = ((2 ^ 52 : Int) : Rat) := by
    rw [hulp]
    norm_num
  rw [roundDouble_of_pos one_pos, roundPos, hunits, roundEven_intCast, hulp]
  norm_num

/-! ## Arithmetic -/

/-- How numbers are computed with: what a result is rounded to, which is close to it, and the power function. -/
structure Arithmetic where
  round : Rat → Rat
  pow : Rat → Nat → Rat
  mono : Monotone round
  near : ∀ x, |round x - x| ≤ |x| / 2 ^ 53
  one : round 1 = 1
  le_pow : ∀ x n, 1 ≤ x → 0 < n → round x ≤ pow x n

namespace Arithmetic

/-- Without rounding. -/
def exact : Arithmetic where
  round := id
  pow := (· ^ ·)
  mono := monotone_id
  near x := by simp; positivity
  one := rfl
  le_pow _ _ h hn := le_self_pow₀ h hn.ne'

/-- With doubles. The power function is the engine's. -/
def double (pow : Rat → Nat → Rat) (le_pow : ∀ x n, 1 ≤ x → 0 < n → roundDouble x ≤ pow x n) : Arithmetic where
  round := roundDouble
  pow := pow
  mono := roundDouble_mono
  near := roundDouble_near
  one := roundDouble_one
  le_pow := le_pow

/-- Doubles with powers that are rounded once. -/
def correct : Arithmetic := double (fun x n => roundDouble (x ^ n)) fun _ _ h hn =>
  roundDouble_mono (le_self_pow₀ h hn.ne')

variable (a : Arithmetic) {x : Rat}

theorem round_zero : a.round 0 = 0 := by simpa using a.near 0

theorem round_nonneg (h : 0 ≤ x) : 0 ≤ a.round x := a.round_zero ▸ a.mono h

theorem round_le (h : 0 ≤ x) : a.round x ≤ x * (1 + 1 / 2 ^ 53) := by
  have hnear := (abs_le.mp (a.near x)).2
  rw [abs_of_nonneg h] at hnear
  linarith

theorem le_round (h : 0 ≤ x) : x * (1 - 1 / 2 ^ 53) ≤ a.round x := by
  have hnear := (abs_le.mp (a.near x)).1
  rw [abs_of_nonneg h] at hnear
  linarith

theorem one_le_pow {n : Nat} (h : 1 ≤ x) (hn : 0 < n) : 1 ≤ a.pow x n :=
  a.one.ge.trans ((a.mono h).trans (a.le_pow x n h hn))

theorem round_pos (h : 0 < x) : 0 < a.round x :=
  (mul_pos h (by norm_num)).trans_le (a.le_round h.le)

/-- The error where the numbers have a bound. -/
theorem near_of_le {b : Rat} (h : |x| ≤ b) : |a.round x - x| ≤ b / 2 ^ 53 :=
  (a.near x).trans (div_le_div_of_nonneg_right h (by norm_num))

end Arithmetic

end CorpoPay.Data
