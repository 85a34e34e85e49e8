import CorpoPay.Billing.Subscriptions
import CorpoPay.Data.Months

/-!
# Billing periods

A period of months ends on the same day of a later month. When that month is too short the end is counted on into the month
after it, and from there the billing day stays moved.
-/

namespace CorpoPay.Billing

open Data (DAY_MS EPOCH_MONTH addMonths dayOfMonth le_monthOf_addMonths lt_of_monthOf_lt monthLength monthLength_bounds monthOf
  monthOf_addMonths_of_le monthOf_addMonths_of_lt monthOf_eq_of_isoDay)
open Settlement (BillingInterval)

/-- The months of a period, for the intervals that are counted in months. -/
def monthsOf (intervalType : BillingInterval) (intervalValue : Nat) : Option Nat :=
  match intervalType with
  | .monthly => some intervalValue
  | .quarterly => some (3 * intervalValue)
  | .annual => some (12 * intervalValue)
  | .daily | .weekly | .custom => none

/-- The date some periods after a date. -/
def billingDate (date : Nat) (intervalType : BillingInterval) (intervalValue : Nat) : Nat → Nat
  | 0 => date
  | n + 1 => computeNextBillingDate (billingDate date intervalType intervalValue n) intervalType intervalValue

/-- Every date is in the month of the period after the date before it. -/
structure SkipsNoPeriod (subscriptionId : String) (dates : Nat → Nat) (months periods : Nat) : Prop where
  month : ∀ n < periods, monthOf (dates (n + 1)) = monthOf (dates n) + months
  later : ∀ n < periods, dates n < dates (n + 1)
  keys : ∀ m n, m < n → n ≤ periods →
    billingIdempotencyKey subscriptionId (dates m) ≠ billingIdempotencyKey subscriptionId (dates n)

/-- Every month that is due has the day of the date. -/
def DayFits (date months periods : Nat) : Prop :=
  ∀ n, 0 < n → n ≤ periods → dayOfMonth date ≤ monthLength (monthOf date + n * months)

variable {intervalType : BillingInterval} {date intervalValue months periods : Nat}

/-! ## Steps -/

theorem computeNextBillingDate_months (h : monthsOf intervalType intervalValue = some months) (date : Nat) :
    computeNextBillingDate date intervalType intervalValue = addMonths date months := by
  cases intervalType with
  | monthly =>
    cases h
    rfl
  | quarterly =>
    cases h
    rw [computeNextBillingDate, Nat.mul_comm]
  | annual =>
    cases h
    rw [computeNextBillingDate, Data.addYears_eq, Nat.mul_comm]
  | daily => cases h
  | weekly => cases h
  | custom => cases h

theorem months_pos (h : monthsOf intervalType intervalValue = some months) (hvalue : 0 < intervalValue) : 0 < months := by
  cases intervalType <;> simp [monthsOf] at h <;> omega

theorem billingIdempotencyKey_ne {subscriptionId : String} {date' : Nat} (h : monthOf date ≠ monthOf date') :
    billingIdempotencyKey subscriptionId date ≠ billingIdempotencyKey subscriptionId date' := by
  intro hkey
  exact h (monthOf_eq_of_isoDay (String.append_right_inj _ |>.mp hkey))

/-! ## Runs -/

theorem le_monthOf_billingDate (h : monthsOf intervalType intervalValue = some months) (n : Nat) :
    monthOf (billingDate date intervalType intervalValue n) + months ≤
      monthOf (billingDate date intervalType intervalValue (n + 1)) := by
  rw [billingDate, computeNextBillingDate_months h]
  exact le_monthOf_addMonths _ _

theorem monthOf_billingDate_lt (h : monthsOf intervalType intervalValue = some months) (hvalue : 0 < intervalValue) :
    StrictMono fun n => monthOf (billingDate date intervalType intervalValue n) :=
  strictMono_nat_of_lt_succ fun n =>
    Nat.lt_of_lt_of_le (Nat.lt_add_of_pos_right (months_pos h hvalue)) (le_monthOf_billingDate h n)

/-- While the months have the day, the dates keep it. -/
theorem billingDate_fits (h : monthsOf intervalType intervalValue = some months) {n : Nat} (hfits : DayFits date months n) :
    monthOf (billingDate date intervalType intervalValue n) = monthOf date + n * months ∧
      dayOfMonth (billingDate date intervalType intervalValue n) = dayOfMonth date := by
  induction n with
  | zero =>
    rw [Nat.zero_mul, Nat.add_zero, billingDate]
    exact ⟨rfl, rfl⟩
  | succ n ih =>
    obtain ⟨hmonth, hday⟩ := ih fun k hk hle => hfits k hk (Nat.le_succ_of_le hle)
    have hfit := hfits (n + 1) (Nat.succ_pos n) (Nat.le_refl _)
    rw [Nat.succ_mul, ← Nat.add_assoc, ← hmonth, ← hday] at hfit
    rw [billingDate, computeNextBillingDate_months h, (monthOf_addMonths_of_le hfit).1, (monthOf_addMonths_of_le hfit).2,
      hmonth, Nat.succ_mul, Nat.add_assoc]
    exact ⟨rfl, hday⟩

theorem dayFits_of_month (h : monthsOf intervalType intervalValue = some months) {n : Nat}
    (hnext : ∀ k < n, monthOf (billingDate date intervalType intervalValue (k + 1)) =
      monthOf (billingDate date intervalType intervalValue k) + months) : DayFits date months n := by
  induction n with
  | zero => exact fun k hk hle => absurd hle (Nat.not_le_of_lt hk)
  | succ n ih =>
    have hfits := ih fun k hk => hnext k (Nat.lt_succ_of_lt hk)
    intro k hk hle
    rcases Nat.lt_or_ge n k with hlast | hbefore
    · obtain rfl : k = n + 1 := Nat.le_antisymm hle hlast
      obtain ⟨hmonth, hday⟩ := billingDate_fits h hfits
      have hstep := hnext n (Nat.lt_succ_self n)
      rw [billingDate, computeNextBillingDate_months h] at hstep
      rw [Nat.succ_mul, ← Nat.add_assoc, ← hmonth, ← hday]
      -- A day past the end of the month would be one of the month after it.
      refine Nat.le_of_not_lt fun hover => ?_
      rw [monthOf_addMonths_of_lt hover] at hstep
      exact Nat.succ_ne_self _ hstep
    · exact hfits k hk hbefore

/-- No period is skipped exactly when every month that is due has the day of the first date. -/
theorem skipsNoPeriod_iff (h : monthsOf intervalType intervalValue = some months) (hvalue : 0 < intervalValue)
    (subscriptionId : String) (date periods : Nat) :
    SkipsNoPeriod subscriptionId (billingDate date intervalType intervalValue) months periods ↔
      DayFits date months periods := by
  have hmono : StrictMono fun n => monthOf (billingDate date intervalType intervalValue n) :=
    monthOf_billingDate_lt h hvalue
  constructor
  · exact fun hskips => dayFits_of_month h hskips.month
  · intro hfits
    refine ⟨fun n hn => ?_, fun n _ => lt_of_monthOf_lt (hmono (Nat.lt_succ_self n)), fun m n hm _ =>
      billingIdempotencyKey_ne (Nat.ne_of_lt (hmono hm))⟩
    have hnext := (billingDate_fits h fun k hk hle => hfits k hk (Nat.le_trans hle hn)).1
    have hdate := (billingDate_fits h fun k hk hle => hfits k hk (Nat.le_trans hle (Nat.le_of_lt hn))).1
    rw [hnext, hdate, Nat.succ_mul, Nat.add_assoc]

/-- A year from the 28th of February on. -/
theorem skipsNoPeriod_month_end :
    SkipsNoPeriod "sub_1" (billingDate (Data.dayOfCivil ⟨2024, 2, 28⟩ * DAY_MS) .monthly 1) 1 12 :=
  (skipsNoPeriod_iff rfl Nat.one_pos "sub_1" (Data.dayOfCivil ⟨2024, 2, 28⟩ * DAY_MS) 12).mpr fun n _ _ =>
    Nat.le_trans (by decide +kernel) (monthLength_bounds _).1

/-- The month after the 31st of January 2025 is March. -/
theorem not_skipsNoPeriod : ¬ ∀ (subscriptionId : String) (date : Nat) (intervalType : BillingInterval)
    (intervalValue months periods : Nat), monthsOf intervalType intervalValue = some months → 0 < intervalValue →
    SkipsNoPeriod subscriptionId (billingDate date intervalType intervalValue) months periods := by
  intro h
  have hmonth := (h "sub_1" (Data.dayOfCivil ⟨2025, 1, 31⟩ * DAY_MS) .monthly 1 1 1 rfl Nat.one_pos).month 0 Nat.one_pos
  exact absurd hmonth (by decide +kernel)

end CorpoPay.Billing
