import CorpoPay.Settlement.Lemmas.Capture
import CorpoPay.Settlement.Operations
import CorpoPay.Transaction.CheckThenAct

/-!
# Main theorem: captures side by side

The already-settled check is a read before the first posting takes the lock of the tenant. Calls for one intent book
it once in every run where no call books while another one is between its check and its end.
-/

namespace CorpoPay.Settlement

open Transaction.Tx
open Transaction (Pool Contract)

/-! ## The capture postings of an intent -/

/-- The amounts that the capture postings of an intent move on one side of an account. -/
def captureAmounts (ms : List Movement) (t intentId : Id) (account : LedgerAccount) (direction : LedgerDirection) :
    List Int :=
  (ms.filter fun m => m.tenantId = t ∧ m.sourceType = some CAPTURE_SOURCE_TYPE ∧ m.sourceId = some intentId ∧
    m.category = .capture ∧ m.account = account ∧ m.direction = direction).map (·.amount)

/-- CASH was debited and COLLECTED credited by these amounts for the intent. -/
def CapturedBy (t intentId : Id) (amounts : List Int) (db : Db) : Prop :=
  captureAmounts db.movements t intentId .collected .credit = amounts ∧
    captureAmounts db.movements t intentId .cash .debit = amounts

instance (t intentId : Id) (amounts : List Int) (db : Db) : Decidable (CapturedBy t intentId amounts db) := by
  unfold CapturedBy; infer_instance

section Amounts

variable {t intentId : Id} {account : LedgerAccount} {direction : LedgerDirection}

theorem captureAmounts_append (ms ms' : List Movement) :
    captureAmounts (ms ++ ms') t intentId account direction =
      captureAmounts ms t intentId account direction ++ captureAmounts ms' t intentId account direction := by
  simp [captureAmounts]

theorem captureAmounts_eq_nil {ms : List Movement}
    (h : ∀ m ∈ ms, m.category = .capture → m.account = account → m.direction ≠ direction) :
    captureAmounts ms t intentId account direction = [] := by
  rw [captureAmounts, List.map_eq_nil_iff]
  refine List.filter_eq_nil_iff.mpr fun m hm hcond => ?_
  have hcond := of_decide_eq_true hcond
  exact h m hm hcond.2.2.2.1 hcond.2.2.2.2.1 hcond.2.2.2.2.2

/-- The postings of a capture, the first one apart. -/
def laterMovements (t : Id) (input : SettleCaptureInput) (cp : CapturePlan) : List Movement :=
  ruleMovements t input cp ++
    (moved t input cp.plan.feeCents .fee cp.feeFrom .fees ++
      (moved t input cp.plan.taxCents .tax cp.feeFrom .taxPayable ++
        (moved t input cp.plan.reserveCents .capture cp.feeFrom .reserve ++ netMovements t input cp)))

/-- After the first posting, a capture neither credits COLLECTED nor debits CASH under its category. -/
theorem mem_laterMovements {input : SettleCaptureInput} {cp : CapturePlan} {m : Movement}
    (h : m ∈ laterMovements t input cp) (hm : m.category = .capture) :
    (m.account = .collected → m.direction ≠ .credit) ∧ (m.account = .cash → m.direction ≠ .debit) := by
  have hmoved : ∀ {amount : Int} {category : LedgerCategory} {dst : LedgerAccount} {src : LedgerAccount},
      m ∈ moved t input amount category src dst → dst ≠ .collected → src ≠ .cash →
      (m.account = .collected → m.direction ≠ .credit) ∧ (m.account = .cash → m.direction ≠ .debit) := by
    intro amount category dst src hmem hdst hsrc
    obtain ⟨-, -, ⟨ha, hd⟩ | ⟨ha, hd⟩⟩ := mem_moved hmem
    · exact ⟨fun _ => by simp [hd], fun hc => absurd (ha.symm.trans hc) hsrc⟩
    · exact ⟨fun hc => absurd (ha.symm.trans hc) hdst, fun _ => by simp [hd]⟩
  have hfeeFrom : cp.feeFrom ≠ .cash := by unfold CapturePlan.feeFrom; split_ifs <;> decide
  simp only [laterMovements, List.mem_append] at h
  rcases h with h | h | h | h | h
  · unfold ruleMovements at h
    split at h
    · exact absurd ((mem_split h).1.symm.trans hm) (by decide)
    · simp at h
  · exact hmoved h (by decide) hfeeFrom
  · exact hmoved h (by decide) hfeeFrom
  · exact hmoved h (by decide) hfeeFrom
  · unfold netMovements at h
    split at h
    · simp at h
    · exact hmoved h (by decide) (by decide)

/-- A capture debits CASH and credits COLLECTED by its gross once. -/
theorem captureAmounts_captureMovements (input : SettleCaptureInput) (cp : CapturePlan) :
    captureAmounts (captureMovements t input cp) t input.intentId .collected .credit = [input.amountCents] ∧
      captureAmounts (captureMovements t input cp) t input.intentId .cash .debit = [input.amountCents] := by
  have hsplit : captureMovements t input cp = grossMovements t input ++ laterMovements t input cp := rfl
  have hcollected : captureAmounts (laterMovements t input cp) t input.intentId .collected .credit = [] :=
    captureAmounts_eq_nil fun m hm hc ha => (mem_laterMovements hm hc).1 ha
  have hcash : captureAmounts (laterMovements t input cp) t input.intentId .cash .debit = [] :=
    captureAmounts_eq_nil fun m hm hc ha => (mem_laterMovements hm hc).2 ha
  rw [hsplit, captureAmounts_append, captureAmounts_append, hcollected, hcash]
  simp [captureAmounts, grossMovements, LedgerPosting.movements, LedgerLeg.movement, debit, credit,
    SettleCaptureInput.source]

theorem CapturedBy.captured {input : SettleCaptureInput} {cp : CapturePlan} {db db' : Db}
    (h : CapturedBy t input.intentId [] db) (ha : Appends (captureMovements t input cp) db db') :
    CapturedBy t input.intentId [input.amountCents] db' := by
  obtain ⟨hcollected, hcash⟩ := captureAmounts_captureMovements (t := t) input cp
  simp only [CapturedBy, ha.movements_eq, captureAmounts_append, h.1, h.2, hcollected, hcash, List.nil_append, and_self]

/-- The check of `settleCapture`. -/
theorem any_isCaptureOf_iff (t intentId : Id) (db : Db) :
    db.ledgerEntries.any (·.toMovement.isCaptureOf t intentId) = true ↔
      captureAmounts db.movements t intentId .collected .credit ≠ [] := by
  simp only [captureAmounts, Db.movements, ne_eq, List.map_eq_nil_iff, List.filter_eq_nil_iff, not_forall, not_not,
    List.any_eq_true, Movement.isCaptureOf, List.mem_map, exists_prop, exists_exists_and_eq_and]

end Amounts

/-! ## Runs -/

/-- The intent is booked once or not at all. -/
def CapturedAtMostOnce (t intentId : Id) (gross : Int) (db : Db) : Prop :=
  CapturedBy t intentId [] db ∨ CapturedBy t intentId [gross] db

/-- A call books the intent. -/
def Captures (t intentId : Id) (gross : Int) (db db' : Db) : Prop :=
  CapturedBy t intentId [] db ∧ CapturedBy t intentId [gross] db'

theorem capturedAtMostOnce_of_captures (t intentId : Id) (gross : Int) (db db' : Db) (h : Captures t intentId gross db db')
    (_ : CapturedAtMostOnce t intentId gross db) : CapturedAtMostOnce t intentId gross db' := .inr h.2

/-- One call, in any pool of such calls. -/
theorem settleCapture_wp (t : Id) {input : SettleCaptureInput} (hpos : 0 < input.amountCents) (db : Db) (w : World) :
    (settleCapture t input).WP
      (Contract.frozen (CapturedAtMostOnce t input.intentId input.amountCents) 2
        (Captures t input.intentId input.amountCents) (capturedAtMostOnce_of_captures _ _ _))
      (fun _ σ => CapturedBy t input.intentId [input.amountCents] σ.store) ⟨0, ∅⟩ ⟨db, w⟩ := by
  rw [settleCapture, if_neg (not_le.mpr hpos)]
  refine Transaction.Job.WP.check_then_act (le_refl _) fun db₁ hinv => ?_
  have hcheck := any_isCaptureOf_iff t input.intentId db₁
  rw [ensures_ite]
  refine ⟨fun hsettled => ⟨.inl rfl, fun h => ?_⟩, fun hnot => ensures_settleCaptureInTx fun cp db₂ _ ha => ?_⟩
  · exact h.resolve_left fun hnone => hcheck.mp hsettled hnone.1
  · have hnone : CapturedBy t input.intentId [] db₁ := hinv.resolve_right fun hone =>
      hnot (hcheck.mpr (by rw [hone.1]; simp))
    exact ⟨.inr ⟨hnone, hnone.captured ha⟩, fun _ => hnone.captured ha⟩

/-- Any number of calls for one intent. The condition on a step is that it does not change the rows while another call
is past its already-settled check. -/
theorem settleCapture_once {ι : Type} [DecidableEq ι] {t intentId : Id} {gross : Int} {inputs : ι → SettleCaptureInput}
    {db : Db} {w : World} (hintent : ∀ i, (inputs i).intentId = intentId) (hgross : ∀ i, (inputs i).amountCents = gross)
    (hpos : 0 < gross) (hnew : CapturedBy t intentId [] db) {p : Pool Backend ι Bool}
    (hp : Pool.ReachableIf (Pool.NoOverlap fun _ => 2) (Pool.init (fun i => settleCapture t (inputs i)) db w) p) :
    CapturedAtMostOnce t intentId gross p.shared.store ∧
      ∀ i settled, (p.threads i).phase = .between (.ret settled) → CapturedBy t intentId [gross] p.shared.store := by
  refine Pool.check_then_act (fun _ => Captures t intentId gross)
    (fun _ => capturedAtMostOnce_of_captures t intentId gross) (fun _ _ => CapturedBy t intentId [gross]) (.inl hnew)
    (fun i => ?_) (fun _ _ _ _ _ _ h _ => h.2) hp
  have hwp := settleCapture_wp t ((hgross i).symm ▸ hpos : 0 < (inputs i).amountCents) db w
  rw [hintent i, hgross i] at hwp
  exact hwp

/-! ## Two calls -/

/-- One call for each thread. -/
def calls (ι : Type) [DecidableEq ι] : Pool Backend ι Bool :=
  Pool.init (fun _ => settleCapture 1 plainCapture) (.empty plainConfig) .counting

/-- A webhook and its duplicate: the duplicate opens its transaction first and makes the check after the commit. -/
theorem settleCapture_once_refused : ∃ p, Pool.ReachableIf (Pool.NoOverlap fun _ => 2) (calls Bool) p ∧
    (p.threads true).phase.result = some true ∧ (p.threads false).phase.result = some false ∧
    CapturedAtMostOnce 1 7 1000 p.shared.store ∧ CapturedBy 1 7 [1000] p.shared.store := by
  obtain ⟨p, hp, hend⟩ := Pool.ReachableIf.exists_of_check (calls Bool)
    (List.replicate 1 false ++ List.replicate 48 true ++ List.replicate 2 false)
    (fun p => (p.threads true).phase.result = some true ∧ (p.threads false).phase.result = some false)
    (Pool.apart fun _ => 2) (fun _ _ _ _ => Pool.noOverlap_of_apart) (by rfl)
  obtain ⟨hbooks, hrefused⟩ := of_decide_eq_true hend
  have honce := settleCapture_once (fun _ => rfl) (fun _ => rfl) (by decide) (by decide) hp
  exact ⟨p, hp, hbooks, hrefused, honce.1, honce.2 false false (Transaction.Phase.eq_ret_of_result hrefused)⟩

/-- A webhook and its duplicate: both make the check, then both book. -/
theorem settleCapture_books_twice :
    ¬ ∀ p, Pool.Reachable (calls Bool) p → CapturedAtMostOnce 1 7 1000 p.shared.store := by
  intro h
  obtain ⟨p, hp, hbooked⟩ := Pool.ReachableIf.exists_of_runSchedule (calls Bool)
    (List.replicate 2 true ++ List.replicate 2 false ++ List.replicate 46 true ++ List.replicate 46 false)
    (fun p => CapturedBy 1 7 [1000, 1000] p.shared.store) (fun _ _ _ => trivial) (by rfl)
  have htwice := (of_decide_eq_true hbooked).1
  rcases h p hp with hnone | hone
  · cases hnone.1.symm.trans htwice
  · cases hone.1.symm.trans htwice

end CorpoPay.Settlement
