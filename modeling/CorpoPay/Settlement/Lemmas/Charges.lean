import CorpoPay.Settlement.Lemmas.FreshIds
import CorpoPay.Settlement.Lemmas.Intents

/-!
# The settlement of a charge
-/

namespace CorpoPay.Settlement

open Transaction.Tx
open Transaction (Job.run_retry_ok Job.run_retry_of_restores)

/-- The capture of a charge whose amount and currency fit their columns. -/
def Charge.input (charge : Charge) (intentId : Id) : Option SettleCaptureInput :=
  match charge.amountCents, Currency.ofJson charge.currency with
  | some amountCents, some currency => some { intentId, amountCents, currency := some currency, method := none }
  | _, _ => none

def Db.CanSettleCharge (db : Db) (t intentId : Id) (charge : Charge) : Prop :=
  ∃ input, charge.input intentId = some input ∧ db.CanSettle t input

variable {t intentId : Id} {charge : Charge} {db db' : Db} {w w' : World}

theorem Charge.input_intentId {input : SettleCaptureInput} (h : charge.input intentId = some input) :
    input.intentId = intentId := by
  unfold Charge.input at h
  split at h
  · cases h; rfl
  · cases h

theorem refuseSettlement_spec (t intentId : Id) (db : Db) :
    (refuseSettlement t intentId).Ensures (fun r db' => r ≠ .ok true ∧ db' = db) db := by
  unfold refuseSettlement
  rw [Transaction.Job.ensures_transaction]
  simp only [bind_eq, pure_eq, ensures_bind, ensures_get, ensures_ite, ensures_ret, ensures_throw]
  exact ⟨fun _ => ⟨by simp, trivial⟩, fun _ => ⟨by simp, trivial⟩⟩

/-- Only a charge that fits its columns is settled. -/
theorem settleCharge_eq (t : Id) (h : charge.input intentId = none) :
    (settleCharge t intentId charge).Ensures (fun r db' => r ≠ .ok true ∧ db' = db) db := by
  unfold settleCharge
  split
  · rename_i hamount hcurrency
    rw [Charge.input, hamount, hcurrency] at h
    cases h
  · split_ifs
    · exact ⟨by simp, rfl⟩
    · exact refuseSettlement_spec _ _ _
  · exact refuseSettlement_spec _ _ _

theorem settleCharge_input {input : SettleCaptureInput} (t : Id) (h : charge.input intentId = some input) :
    settleCharge t intentId charge = settleCapture t input := by
  unfold Charge.input at h
  unfold settleCharge
  split at h
  · rename_i hamount hcurrency
    cases h
    rw [hamount, hcurrency]
  · cases h

/-- A charge is booked, or nothing changes. -/
theorem settleCharge_run {r : Except Failure Bool} (h : (settleCharge t intentId charge).run db w = (r, db', w')) :
    (r = .ok true ∧ db.CanSettleCharge t intentId charge ∧ db.isCaptured t intentId = false ∧
        ∀ t' i, db'.isCaptured t' i = (db.isCaptured t' i || decide (t = t' ∧ intentId = i))) ∨
      (r ≠ .ok true ∧ db' = db) := by
  cases hinput : charge.input intentId with
  | none => exact .inr ((settleCharge_eq t hinput).run w h)
  | some input =>
      rw [settleCharge_input t hinput] at h
      obtain rfl := Charge.input_intentId hinput
      rcases settleCapture_run h with ⟨rfl, -, hnot, cp, -, hbooked⟩ | hnothing
      · exact .inl ⟨rfl, ⟨input, hinput, settleCapture_canSettle h⟩, hnot, hbooked.isCaptured_capture⟩
      · exact .inr hnothing

/-- The step that settles a charge books it exactly when it can be settled. -/
theorem settleCharge_retried (h : FreshRows db w) (n : Nat) (t' i : Id) :
    (((settleCharge t intentId charge).retry n).run db w).2.1.isCaptured t' i = true ↔
      db.isCaptured t' i = true ∨ t = t' ∧ intentId = i ∧ db.CanSettleCharge t intentId charge := by
  have hrestores : ∀ w e db' w', (settleCharge t intentId charge).run db w = (.error e, db', w') → db' = db := by
    intro w e db' w' hrun
    rcases settleCharge_run hrun with ⟨he, -⟩ | ⟨-, hdb⟩
    · cases he
    · exact hdb
  constructor
  · intro hcaptured
    obtain ⟨w₁, hrun⟩ := Job.run_retry_of_restores hrestores n w
    rw [hrun] at hcaptured
    rcases settleCharge_run (rfl : (settleCharge t intentId charge).run db w₁ = _) with ⟨-, hcan, -, hbooked⟩ | ⟨-, hdb⟩
    · rw [hbooked, Bool.or_eq_true, decide_eq_true_iff] at hcaptured
      exact hcaptured.imp_right fun hid => ⟨hid.1, hid.2, hcan⟩
    · rw [hdb] at hcaptured
      exact .inl hcaptured
  · rintro (hcaptured | ⟨rfl, rfl, hcan⟩)
    · obtain ⟨w₁, hrun⟩ := Job.run_retry_of_restores hrestores n w
      rw [hrun]
      rcases settleCharge_run (rfl : (settleCharge t intentId charge).run db w₁ = _) with ⟨-, -, -, hbooked⟩ | ⟨-, hdb⟩
      · rw [hbooked, hcaptured]; rfl
      · rw [hdb]; exact hcaptured
    · obtain ⟨input, hinput, hsettle⟩ := hcan
      obtain ⟨db', w', hrun⟩ := settleCapture_books h hsettle
      rw [← settleCharge_input t hinput] at hrun
      rw [Job.run_retry_ok hrun]
      rcases settleCharge_run hrun with ⟨-, -, -, hbooked⟩ | ⟨hne, -⟩
      · rw [hbooked, decide_eq_true ⟨rfl, rfl⟩, Bool.or_true]
      · exact absurd rfl hne

end CorpoPay.Settlement
