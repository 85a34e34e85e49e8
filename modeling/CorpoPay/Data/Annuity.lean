import Mathlib.Algebra.Order.Field.Basic
import Mathlib.Tactic.FieldSimp
import Mathlib.Tactic.Linarith
import Mathlib.Tactic.Positivity
import Mathlib.Tactic.Ring

/-!
# Annuities

A principal that is paid off in equal payments, with interest at one rate in each period. The payments pay it off when they
are worth as much as the principal at the start.
-/

namespace CorpoPay.Data

section Field

variable {K : Type} [Field K]

/-- What is owed after a number of periods. Each one adds its interest and takes a payment. -/
def outstanding (rate payment principal : K) : Nat → K
  | 0 => principal
  | k + 1 => outstanding rate payment principal k * (1 + rate) - payment

/-- What the payments at the ends of the periods are worth at the start. -/
def presentValue (rate payment : K) : Nat → K
  | 0 => 0
  | k + 1 => presentValue rate payment k + payment / (1 + rate) ^ (k + 1)

variable {rate payment principal : K}

theorem outstanding_eq (h : 1 + rate ≠ 0) (n : Nat) :
    outstanding rate payment principal n = (principal - presentValue rate payment n) * (1 + rate) ^ n := by
  induction n with
  | zero => simp [outstanding, presentValue]
  | succ n ih =>
      rw [outstanding, presentValue, ih]
      field_simp
      ring

theorem presentValue_eq_mul (n : Nat) : presentValue rate payment n = payment * presentValue rate 1 n := by
  induction n with
  | zero => simp [presentValue]
  | succ n ih =>
      rw [presentValue, presentValue, ih]
      ring

theorem presentValue_zero_rate (n : Nat) : presentValue 0 payment n = n * payment := by
  induction n with
  | zero => simp [presentValue]
  | succ n ih =>
      rw [presentValue, ih]
      push_cast
      ring

/-- The closed form. -/
theorem rate_mul_presentValue (h : 1 + rate ≠ 0) (n : Nat) :
    rate * presentValue rate 1 n * (1 + rate) ^ n = (1 + rate) ^ n - 1 := by
  induction n with
  | zero => simp [presentValue]
  | succ n ih =>
      have hsplit : rate * presentValue rate 1 (n + 1) * (1 + rate) ^ (n + 1) =
          rate * presentValue rate 1 n * (1 + rate) ^ n * (1 + rate) + rate := by
        rw [presentValue]
        field_simp
        ring
      rw [hsplit, ih]
      ring

/-- Payments that start at once are those of one period less and a payment now. -/
theorem presentValue_succ (h : 1 + rate ≠ 0) (n : Nat) :
    presentValue rate 1 (n + 1) * (1 + rate) = 1 + presentValue rate 1 n := by
  induction n with
  | zero => simp [presentValue, h]
  | succ n ih =>
      have hlast : 1 / (1 + rate) ^ (n + 1 + 1) * (1 + rate) = 1 / (1 + rate) ^ (n + 1) := by
        rw [pow_succ (1 + rate) (n + 1)]
        field_simp
      rw [presentValue, add_mul, ih, hlast, presentValue, add_assoc]

end Field

section Order

variable {K : Type} [Field K] [LinearOrder K] [IsStrictOrderedRing K] {rate payment principal : K}

theorem presentValue_nonneg (h : 0 ≤ rate) (n : Nat) : 0 ≤ presentValue rate 1 n := by
  induction n with
  | zero => exact le_rfl
  | succ n ih => rw [presentValue]; positivity

theorem presentValue_pos (h : 0 ≤ rate) {n : Nat} (hn : 0 < n) : 0 < presentValue rate 1 n := by
  cases n with
  | zero => exact absurd hn (lt_irrefl 0)
  | succ n =>
      have hle := presentValue_nonneg h n
      rw [presentValue]
      positivity

/-- A payment is worth at most itself. -/
theorem presentValue_le (h : 0 ≤ rate) (n : Nat) : presentValue rate 1 n ≤ n := by
  induction n with
  | zero => simp [presentValue]
  | succ n ih =>
      have hone : 1 / (1 + rate) ^ (n + 1) ≤ 1 :=
        div_le_one_of_le₀ (one_le_pow₀ (by linarith)) (by positivity)
      rw [presentValue]
      push_cast
      linarith

/-- The payments pay the principal off when they are worth it. -/
theorem outstanding_nonpos_iff (h : 0 ≤ rate) (n : Nat) :
    outstanding rate payment principal n ≤ 0 ↔ principal ≤ presentValue rate payment n := by
  have hpow : 0 < (1 + rate) ^ n := by positivity
  rw [outstanding_eq (by positivity), ← sub_nonpos (a := principal)]
  exact ⟨fun hle => nonpos_of_mul_nonpos_left hle hpow, fun hle => mul_nonpos_of_nonpos_of_nonneg hle hpow.le⟩

/-- The payment of the annuity formula is the one that is worth the principal. -/
theorem annuity_eq (h : 0 < rate) (n : Nat) : principal * (rate * (1 + rate) ^ n) / ((1 + rate) ^ n - 1) =
    principal / presentValue rate 1 n := by
  have hpow : (1 + rate) ^ n ≠ 0 := by positivity
  rw [← rate_mul_presentValue (by positivity) n, mul_right_comm, mul_comm (rate * (1 + rate) ^ n),
    mul_div_mul_right _ _ (mul_ne_zero h.ne' hpow)]

end Order

end CorpoPay.Data
