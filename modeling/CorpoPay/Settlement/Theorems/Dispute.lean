import CorpoPay.Settlement.Lemmas.Dispute
import CorpoPay.Transaction.CheckThenAct

/-!
# Main theorem: resolutions of one dispute side by side

The status is checked in the transaction, by a read that takes no lock. The resolutions of a dispute take effect once
in every run where none takes effect while another one is between this check and its end.
-/

namespace CorpoPay.Settlement

open Transaction.Tx
open Transaction (Pool Contract)

/-! ## Runs -/

/-- The number of steps to the end of the check in the transaction: `LOST` reads three times before it. -/
def Outcome.checkedAt : Outcome → Nat
  | .won => 2
  | .lost => 11

/-- One resolution, in any pool of such resolutions. -/
theorem resolveDispute_wp {t id : Id} {currency : Currency} {gross : Int} (outcome : Outcome) (db : Db) (w : World) :
    (resolveDispute t id outcome).WP
      (Contract.frozen (ResolvedOnce t id currency gross) outcome.checkedAt
        (fun _ db' => ResolvedOnce t id currency gross db') fun _ _ h _ => h)
      (fun _ _ => True) ⟨0, ∅⟩ ⟨db, w⟩ := by
  have hguar : ∀ ℓ σ, (Contract.frozen (I := Backend) (ResolvedOnce t id currency gross) outcome.checkedAt
      (fun _ db' => ResolvedOnce t id currency gross db') fun _ _ h _ => h).guar ℓ σ σ := fun _ _ => .inl rfl
  cases outcome with
  | won =>
      refine Transaction.Job.WP.check_then_act (R := fun _ _ => True) (by decide) fun db₁ hinv => ?_
      rw [bind_eq, ensures_bind]
      refine (ensures_lift _).mpr ⟨fun dispute hc => ?_, fun _ _ => trivial⟩
      obtain ⟨hd, hamount, hcurrency, hn⟩ := hinv.of_check hc
      rw [bind_eq, ensures_bind]
      refine ensures_disputeUpdate fun _ => ⟨.inr ?_, fun _ => trivial⟩
      exact resolvedOnce_of_won hd hamount hcurrency hn
  | lost =>
      refine Transaction.Job.WP.get_bind hguar fun σ₁ _ hi₁ σ₂ _ _ => ?_
      refine Transaction.Job.WP.ofExcept_bind fun dispute hc => ?_
      obtain ⟨-, hamount, hcurrency, -⟩ := ResolvedOnce.of_check hi₁ hc
      simp only [getTenantLedger, Transaction.Job.bind_eq, Transaction.Job.bind_assoc]
      refine Transaction.Job.WP.get_bind hguar fun σ₃ _ _ σ₄ _ _ => ?_
      refine Transaction.Job.WP.get_bind hguar fun σ₅ _ _ σ₆ _ _ => ?_
      refine Transaction.Job.WP.ofExcept_bind fun allocation hf => ?_
      have hcovers := fundReversal_covers hf
      rw [hamount] at hcovers
      refine Transaction.Job.WP.check_then_act (R := fun _ _ => True) (by decide) fun db₁ hinv => ?_
      rw [bind_eq, ensures_bind]
      refine (ensures_lift _).mpr ⟨fun _ hc₁ => ?_, fun _ _ => trivial⟩
      obtain ⟨hd, hamount₁, hcurrency₁, hn⟩ := ResolvedOnce.of_check hinv hc₁
      rw [hcurrency]
      refine (executeClawback_spec t id currency allocation db₁).mono (fun _ db₂ hclawed => ?_) fun _ h => h
      exact ⟨.inr (hclawed.resolvedOnce hcovers hd hamount₁ hcurrency₁ hn), fun _ => trivial⟩

/-- Any number of resolutions of one open dispute, with any outcomes. The condition on a step is that it does not
change the rows while another resolution is past the check in its transaction. -/
theorem resolveDispute_once {ι : Type} [DecidableEq ι] {t id : Id} {dispute : Dispute} {outcomes : ι → Outcome} {db : Db}
    {w : World} (hdispute : db.dispute t id = some dispute) (hopen : dispute.status = .open) (hnew : NotClawed t id db)
    {p : Pool Backend ι (Dispute × Option Recovery)}
    (hp : Pool.ReachableIf (Pool.NoOverlap fun i => (outcomes i).checkedAt)
      (Pool.init (fun i => resolveDispute t id (outcomes i)) db w) p) :
    ResolvedOnce t id dispute.currency dispute.amount p.shared.store := by
  have hinit : ResolvedOnce t id dispute.currency dispute.amount db := by
    refine ⟨dispute, hdispute, rfl, rfl, ?_⟩
    rw [hopen]; exact hnew
  exact (Pool.check_then_act (fun _ _ db' => ResolvedOnce t id dispute.currency dispute.amount db')
    (fun _ _ _ h _ => h) (fun _ _ _ => True) hinit (fun i => resolveDispute_wp (outcomes i) db w)
    (fun _ _ _ _ _ _ _ _ => trivial) hp).1

/-! ## Two resolutions -/

/-- A capture of 10.00, and a dispute over 3.00 of it. -/
def disputedDb : Db × World :=
  execute [.settleCapture 1 plainCapture,
    .createDispute 1
      { providerDisputeId := "dp", provider := .stripe, amountCents := 300, feeCents := none, currency := none,
        reason := none, paymentIntentId := some 7, evidenceDueDate := none }] (.empty plainConfig) .counting

def openDispute : Dispute :=
  { id := 15, tenantId := 1, paymentIntentId := some 7, provider := .stripe, providerDisputeId := "dp", status := .open,
    amount := 300, feeAmount := 0, currency := .mad, reason := none, evidenceDueDate := none }

def losses (ι : Type) [DecidableEq ι] : Pool Backend ι (Dispute × Option Recovery) :=
  Pool.init (fun _ => resolveDispute 1 15 .lost) disputedDb.1 disputedDb.2

/-- The second resolution reads the dispute as open and the ledger, and is refused by the check in its transaction. -/
theorem resolveDispute_once_refused :
    ∃ p, Pool.ReachableIf (Pool.NoOverlap fun _ => Outcome.lost.checkedAt) (losses Bool) p ∧
      (p.threads true).phase.result.isSome ∧ (p.threads false).phase.Finished ∧
      (p.threads false).phase.result = none ∧
      (p.shared.store.dispute 1 15).map (·.status) = some .lost ∧ ResolvedOnce 1 15 .mad 300 p.shared.store := by
  obtain ⟨p, hp, hend⟩ := Pool.ReachableIf.exists_of_check (losses Bool)
    (List.replicate 10 false ++ List.replicate 30 true ++ List.replicate 2 false)
    (fun p => (p.threads true).phase.result.isSome ∧ (p.threads false).phase.Finished ∧
      (p.threads false).phase.result = none ∧ (p.shared.store.dispute 1 15).map (·.status) = some .lost)
    (Pool.apart fun _ => Outcome.lost.checkedAt) (fun _ _ _ _ => Pool.noOverlap_of_apart) (by rfl)
  obtain ⟨hloses, hended, hrefused, hlost⟩ := of_decide_eq_true hend
  refine ⟨p, hp, hloses, hended, hrefused, hlost, ?_⟩
  exact resolveDispute_once (rfl : disputedDb.1.dispute 1 15 = some openDispute) rfl ⟨by rfl, by rfl⟩ hp

/-- A dispute that is resolved once debits AVAILABLE at most once. -/
theorem available_debits_le {t id : Id} {currency : Currency} {gross : Int} {db : Db}
    (h : ResolvedOnce t id currency gross db) :
    ((disputeMovements db.movements t id).filter (·.account = .available)).length ≤ 1 := by
  obtain ⟨dispute, -, -, -, hstatus⟩ := h
  have hnone : NotClawed t id db → ((disputeMovements db.movements t id).filter (·.account = .available)).length ≤ 1 :=
    fun hn => by rw [hn.1]; simp
  cases hs : dispute.status with
  | «open» => rw [hs] at hstatus; exact hnone hstatus
  | won => rw [hs] at hstatus; exact hnone hstatus
  | lost =>
      rw [hs] at hstatus
      obtain ⟨a, -, hmovements, -⟩ := hstatus
      rw [hmovements, clawbackMovements, List.filter_append, List.length_append]
      have hreserve : (positiveMovements t a.fromReserve (debit .reserve a.fromReserve .chargeback none currency)
          (credit .cash a.fromReserve .chargeback none currency) ⟨some .dispute, some id⟩).filter
            (·.account = .available) = [] := by
        unfold positiveMovements
        split_ifs <;> simp [LedgerPosting.movements, LedgerLeg.movement, debit, credit]
      rw [hreserve]
      unfold positiveMovements
      split_ifs <;> simp [LedgerPosting.movements, LedgerLeg.movement, debit, credit]

/-- Two losses that both pass the check take the amount twice. -/
theorem resolveDispute_claws_twice :
    ¬ ∀ p, Pool.Reachable (losses Bool) p → ResolvedOnce 1 15 .mad 300 p.shared.store := by
  intro h
  obtain ⟨p, hp, htwice⟩ := Pool.ReachableIf.exists_of_runSchedule (losses Bool)
    (List.replicate 11 true ++ List.replicate 11 false ++ List.replicate 19 true ++ List.replicate 19 false)
    (fun p => ((disputeMovements p.shared.store.movements 1 15).filter (·.account = .available)).length = 2)
    (fun _ _ _ => trivial) (by rfl)
  have hle := available_debits_le (h p hp)
  rw [of_decide_eq_true htwice] at hle
  exact absurd hle (by decide)

end CorpoPay.Settlement
