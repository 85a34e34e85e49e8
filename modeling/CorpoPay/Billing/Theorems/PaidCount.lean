import CorpoPay.Billing.Lemmas.AgreementJobs
import CorpoPay.Billing.Lemmas.Queue
import CorpoPay.Transaction.Budget

/-!
# What an agreement counts as paid

The count is read after a charge and written later, without a look at what it is then. An update that is lost makes it
lower. What it never does is to count a payment that was not made.
-/

namespace CorpoPay.Settlement

/-- The installments that the row says are paid. -/
def InstallmentAgreement.claim (r : InstallmentAgreement) : Nat :=
  if r.status = .completed then max r.paidCount r.totalInstallments else r.paidCount

theorem InstallmentAgreement.paidCount_le_claim (r : InstallmentAgreement) : r.paidCount ≤ r.claim := by
  unfold claim
  split_ifs
  · exact le_max_left _ _
  · exact le_refl _

end CorpoPay.Settlement

namespace CorpoPay.Billing

open Settlement (Db Failure Id InstallmentAgreement)
open Transaction (Account Budget Pool)

variable {ι α : Type} {aid : String} {total : Nat}

/-- The charges of an agreement that succeeded. -/
def World.succeededFor (aid : String) (w : World) : List Submission :=
  w.submissions.filter fun s => s.charge.source = aid ∧ s.success

/-- What an answer adds to the charges that succeeded. -/
def paidBy (aid : String) : (q : Query) → Answer q → Nat
  | .chargeRenewal charge, answer => if charge.source = aid ∧ World.charged answer then 1 else 0
  | .now, _ | .cuid, _ | .runId, _ | .send _, _ | .deliver _, _ | .sleepUntil _, _ => 0

/-- The down payment and the charges are earned, and the row claims them. -/
def installmentBudget (aid : String) (total : Nat) : Budget Backend where
  earned w := 1 + (World.succeededFor aid w).length
  earns := paidBy aid
  earned_reply w q := by
    show 1 + ((World.reply w q).2.submissions.filter _).length = _
    rw [World.submissions_reply, List.filter_append, List.length_append, ← Nat.add_assoc]
    refine congrArg _ ?_
    cases q with
    | chargeRenewal charge =>
        by_cases hcharged : charge.source = aid ∧ World.charged (w.oracle.chargeRenewal w.answered charge) = true <;>
          simp [World.submitted, paidBy, World.reply, World.answer, hcharged]
    | _ => rfl
  claimed db := (db.installmentAgreement aid).elim 0 (·.claim)
  inv db := ∀ r, db.installmentAgreement aid = some r → r.totalInstallments = total

/-! ## Writes -/

/-- An update of the row that leaves its total. -/
theorem spends_of_row {known n : Nat} {w : Db → Db} {f : InstallmentAgreement → InstallmentAgreement}
    (hw : ∀ db, (w db).installmentAgreement aid = (db.installmentAgreement aid).map f)
    (htotal : ∀ r, (f r).totalInstallments = r.totalInstallments)
    (hclaim : ∀ r, r.totalInstallments = total → (f r).claim ≤ max r.claim (known + n)) :
    (installmentBudget aid total).Spends known n w := by
  intro db hinv
  show (∀ r, (w db).installmentAgreement aid = some r → _) ∧ ((w db).installmentAgreement aid).elim 0 _ ≤ max (Option.elim _ _ _) _
  rw [hw]
  cases hrow : db.installmentAgreement aid with
  | none => exact ⟨(fun _ hr => by cases hr), Nat.zero_le _⟩
  | some r =>
      have hr : r.totalInstallments = total := hinv r hrow
      exact ⟨fun r' hr' => Option.some.inj hr' ▸ (htotal r).trans hr, hclaim r hr⟩

theorem spends_amended {known n : Nat} {f : InstallmentAgreement → InstallmentAgreement} (hid : ∀ r, (f r).id = r.id)
    (htotal : ∀ r, (f r).totalInstallments = r.totalInstallments)
    (hclaim : ∀ r, r.totalInstallments = total → (f r).claim ≤ max r.claim (known + n)) :
    (installmentBudget aid total).Spends known n (Db.amended aid f) :=
  spends_of_row (fun _ => Db.installmentAgreement_amended hid) htotal hclaim

/-- What claims nothing. -/
abbrev Claimless (aid : String) (total : Nat) (w : Db → Db) : Prop :=
  ∀ known, (installmentBudget aid total).Spends known 0 w

theorem aloof_claimless : Aloof aid (Claimless aid total) fun _ => True where
  writes w hw known := spends_of_row (f := id) (fun db => by rw [hw, Option.map_id_fun, id]) (fun _ => rfl)
    fun _ _ => le_max_left _ _
  asks _ _ := trivial

/-- An update that leaves the count, and does not complete. -/
theorem claimless_amended {f : InstallmentAgreement → InstallmentAgreement} (hid : ∀ r, (f r).id = r.id)
    (htotal : ∀ r, (f r).totalInstallments = r.totalInstallments) (hclaim : ∀ r, (f r).claim ≤ r.claim) (sid : String) :
    Claimless aid total (Db.amended sid f) := by
  intro known
  by_cases hsid : sid = aid
  · subst hsid
    exact spends_amended hid htotal fun r _ => (hclaim r).trans (le_max_left _ _)
  · exact aloof_claimless.amend hsid hid known

theorem claimless_cancelled (sid : String) : Claimless aid total (Db.amended sid cancelled) :=
  claimless_amended (f := cancelled) (fun _ => rfl) (fun _ => rfl) (fun r => r.paidCount_le_claim) sid

theorem claimless_defaulted (sid : String) : Claimless aid total (Db.amended sid defaulted) :=
  claimless_amended (f := defaulted) (fun _ => rfl) (fun _ => rfl) (fun r => r.paidCount_le_claim) sid

theorem claimless_startedBy (runId : Nat) (sid : String) : Claimless aid total (Db.amended sid (startedBy runId)) :=
  claimless_amended (f := startedBy runId) (fun _ => rfl) (fun _ => rfl) (fun _ => le_refl _) sid

/-! ## The jobs -/

/-- Whatever becomes of it, the job claims no more than it has. -/
abbrev Claims (aid : String) (total : Nat) (j : Job α) (g : Account) : Prop :=
  j.Plays (installmentBudget aid total).protocol (fun _ _ => True) (fun _ _ => True) g

theorem plays_onInstallmentSuccess {data : InstallmentDue} (hdata : data.agreementId = aid) {g : Account} (hcredit : 1 ≤ g.credit) :
    Claims aid total (onInstallmentSuccess data) g := by
  subst hdata
  refine .bind (Budget.plays_get (fun db hinv => ?_) fun _ => trivial)
  cases hrow : db.installmentAgreement data.agreementId with
  | none => trivial
  | some agreement =>
      have htotal : agreement.totalInstallments = total := hinv agreement hrow
      -- The count that was read is one that was claimed.
      have hpaid : agreement.paidCount ≤ max g.known ((installmentBudget data.agreementId total).claimed db) := by
        refine le_max_of_le_right ?_
        show agreement.paidCount ≤ (db.installmentAgreement data.agreementId).elim 0 (·.claim)
        rw [hrow]
        exact agreement.paidCount_le_claim
      dsimp only
      split_ifs with hcomplete
      · refine .bind (Budget.plays_transaction (n := 1) (A := fun _ => True) (writes_updateAgreement ?_)
          (asks_updateAgreement _ _) hcredit (fun _ => trivial) fun _ => trivial)
        refine spends_amended (fun _ => rfl) (fun _ => rfl) fun r hr => ?_
        have htotal' : r.totalInstallments ≤ agreement.paidCount + 1 := hr.trans_le (htotal.symm.trans_le hcomplete)
        exact (max_le (le_refl _) htotal').trans (le_max_of_le_right (Nat.succ_le_succ hpaid))
      · refine .after (does_askNow aloof_claimless) (Budget.lets_spends _) (fun now => ?_) fun _ => trivial
        refine .bind (Budget.plays_transaction (n := 1) (A := fun _ => True) (writes_updateAgreement ?_)
          (asks_updateAgreement _ _) hcredit (fun _ => ?_) fun _ => trivial)
        · refine spends_amended (fun _ => rfl) (fun _ => rfl) fun r hr => ?_
          have hcount : agreement.paidCount + 1 ≤ max r.claim (max g.known _ + 1) := le_max_of_le_right (Nat.succ_le_succ hpaid)
          by_cases hr' : r.status = .completed
          · have hclaim : r.claim = max r.paidCount r.totalInstallments := if_pos hr'
            have htotal' : r.totalInstallments ≤ r.claim := hclaim ▸ le_max_right _ _
            refine (le_of_eq (if_pos hr')).trans (max_le hcount (le_max_of_le_left htotal'))
          · exact (le_of_eq (if_neg hr')).trans hcount
        · refine .of_does (A := fun _ => True) ?_ (Budget.lets_spends _) fun _ => trivial
          exact (does_sendEvents trivial).bind fun _ => trivial

theorem plays_installmentDue (rt : AgreementRuntime) {data : InstallmentDue} (hdata : data.agreementId = aid) (g : Account) :
    Claims aid total ((AgreementRequest.due data).job rt) g := by
  refine plays_due (E := fun _ => True) rt (K := fun _ => True)
    (fun σ hσ _ => ⟨g, Budget.moves_asked _ hσ, trivial, fun _ => trivial⟩) fun g hg => ?_
  refine plays_installmentCharge (K := fun _ => True) (S := fun g => 1 ≤ g.credit) (E := fun _ => True) aloof_claimless
    (fun g => Budget.lets_spends _) rt.toBilling data (fun runId => claimless_startedBy runId _) (claimless_defaulted _)
    (fun _ _ => trivial) (fun charge σ g _ hsource _ hσ _ => ?_) (fun g hg => plays_onInstallmentSuccess hdata hg) hg
  have hmoves : (installmentBudget aid total).Moves g σ _ _ := Budget.moves_earned (Query.chargeRenewal charge) hσ
  refine ⟨_, hmoves, trivial, fun result hresult => ?_⟩
  split_ifs with hsuccess
  have hone : paidBy aid (.chargeRenewal charge) (World.answer σ.world (.chargeRenewal charge)) = 1 := by
    rw [hresult]
    exact if_pos ⟨hsource.trans hdata, hsuccess⟩
  exact (Nat.le_add_left 1 _).trans_eq (congrArg (g.credit + ·) hone.symm)

theorem plays_startInstallments {agreement : InstallmentAgreement} (htotal : agreement.totalInstallments = total)
    (nextChargeDate : Nat) {g : Account} (hknown : 1 ≤ g.known) :
    (startInstallments aid agreement nextChargeDate).Plays (installmentBudget aid total).protocol (fun _ _ => True)
      (fun _ g' => 1 ≤ g'.known) g := by
  unfold startInstallments
  split_ifs with hmore
  · exact .of_does (W := Claimless aid total) (A := fun _ => True) (does_sendEvents trivial) (Budget.lets_spends _)
      fun _ => hknown
  · refine .bind (Budget.plays_transaction (n := 0) (A := fun _ => True) (writes_updateAgreement ?_)
      (asks_updateAgreement _ _) (Nat.zero_le _) (fun _ => hknown) fun _ => hknown)
    refine spends_amended (fun _ => rfl) (fun _ => rfl) fun r hr => ?_
    -- An agreement of one installment has the down payment only.
    show max r.paidCount r.totalInstallments ≤ max r.claim (g.known + 0)
    have hsingle : r.totalInstallments ≤ g.known := by omega
    exact max_le (le_max_of_le_left r.paidCount_le_claim) (le_max_of_le_right hsingle)

/-- The down payment is one of what was earned. -/
theorem plays_bootstrap (rt : AgreementRuntime) (payload : Settlement.Json) {g : Account} (hknown : 1 ≤ g.known) :
    Claims aid total ((AgreementRequest.bootstrap aid payload).job rt) g := by
  have hlets : ∀ g, (installmentBudget aid total).protocol.Lets (fun _ _ => True) (Claimless aid total) (fun _ => True) g :=
    fun g => Budget.lets_spends _
  have haloof : Aloof aid (Claimless aid total) fun _ => True := aloof_claimless
  have hkeeps : ∀ g, 1 ≤ g.known → (bootstrapInstallmentAgreement rt aid payload).Plays (installmentBudget aid total).protocol
      (fun _ _ => True) (fun _ g' => 1 ≤ g'.known) g := by
    intro g hknown
    refine .after (W := Claimless aid total) (A := fun _ => True) (Transaction.Job.does_ofExcept _) (hlets g) (fun found => ?_)
      fun _ => hknown
    cases found.filter (·.truthy) with
    | none => exact hknown
    | some storedProfileId =>
        refine .bind (Budget.plays_get (fun db hinv => ?_) fun _ => hknown)
        have hknown' : 1 ≤ max g.known ((installmentBudget aid total).claimed db) := le_max_of_le_left hknown
        cases hrow : db.installmentAgreement aid with
        | none => exact hknown'
        | some agreement =>
            dsimp only
            split_ifs
            · exact hknown'
            refine .after (W := Claimless aid total) (A := fun _ => True) (Transaction.Job.does_ofExcept _) (hlets _)
              (fun encryptedProfileId => ?_) fun _ => hknown'
            refine .after (does_askNow aloof_claimless) (hlets _) (fun now => ?_) fun _ => hknown'
            refine .after (does_askNow aloof_claimless) (hlets _) (fun dueDate => ?_) fun _ => hknown'
            refine .after (does_askNow aloof_claimless) (hlets _) (fun processedAt => ?_) fun _ => hknown'
            refine .bind (Budget.plays_transaction (n := 0) (A := fun _ => True) (writes_activate fun chargeId => ?_)
              (asks_activate haloof _ _ _ _ _ _) (Nat.zero_le _) (fun _ => ?_) fun _ => hknown')
            · refine spends_of_row (f := activated encryptedProfileId (Data.addMonths now 1))
                (fun db => Db.installmentAgreement_amended fun _ => rfl) (fun _ => rfl) fun r _ => ?_
              exact le_max_of_le_right hknown'
            · exact plays_startInstallments (hinv agreement hrow) _ hknown'
  refine Transaction.Job.Plays.retry (K := fun g => 1 ≤ g.known) (fun g hknown => (hkeeps g hknown).mono fun r g' hr => ?_) _ hknown
  cases r with
  | ok a => trivial
  | error e => exact ⟨hr, trivial⟩

theorem plays_agreementRequest (rt : AgreementRuntime) (request : AgreementRequest) {g : Account} (hknown : 1 ≤ g.known) :
    Claims aid total (request.job rt) g := by
  by_cases hspares : request.Spares aid
  · exact .of_does (does_agreementRequest aloof_claimless rt hspares claimless_cancelled) (Budget.lets_spends _)
      fun _ => trivial
  · cases request with
    | due data => exact plays_installmentDue rt (not_not.mp hspares) g
    | bootstrap sid payload =>
        obtain rfl : sid = aid := not_not.mp hspares
        exact plays_bootstrap rt payload hknown
    | cancel tenantId sid => exact absurd trivial hspares

/-! ## Runs -/

/-- Whatever is delivered, retried or lost, and in whatever order: an agreement counts no more payments than its down payment
and the charges of it that succeeded, and it is complete only when these are all its installments. -/
theorem paid_le_succeeded [DecidableEq ι] (rt : AgreementRuntime) (requests : ι → AgreementRequest) (aid : String) (db : Db)
    (w : World) (hclaim : ∀ r, db.installmentAgreement aid = some r → r.claim ≤ 1 + (w.succeededFor aid).length)
    (p : Pool Backend ι Unit) (hp : Pool.Reachable (Pool.init (fun i => (requests i).job rt) db w) p)
    (r : InstallmentAgreement) (hr : p.shared.store.installmentAgreement aid = some r) :
    r.paidCount ≤ 1 + (p.shared.world.succeededFor aid).length ∧
      (r.status = .completed → r.totalInstallments ≤ 1 + (p.shared.world.succeededFor aid).length) := by
  let total := ((db.installmentAgreement aid).map (·.totalInstallments)).getD 0
  have hinv : (installmentBudget aid total).inv db := fun row hrow => by
    show row.totalInstallments = ((db.installmentAgreement aid).map _).getD 0
    rw [hrow]
    rfl
  have hclaimed : (installmentBudget aid total).claimed db ≤ (installmentBudget aid total).earned w := by
    show (db.installmentAgreement aid).elim 0 _ ≤ _
    cases hrow : db.installmentAgreement aid with
    | none => exact Nat.zero_le _
    | some row => exact hclaim row hrow
  obtain ⟨-, hle⟩ := Pool.claimed_le_earned hinv hclaimed (Nat.le_add_right _ _)
    (fun i => plays_agreementRequest rt (requests i) (le_refl _)) hp
  have hclaim' : r.claim ≤ 1 + (p.shared.world.succeededFor aid).length := by
    have hle' : (p.shared.store.installmentAgreement aid).elim 0 (·.claim) ≤ _ := hle
    rwa [hr] at hle'
  refine ⟨r.paidCount_le_claim.trans hclaim', fun hcomplete => le_trans ?_ hclaim'⟩
  rw [InstallmentAgreement.claim, if_pos hcomplete]
  exact le_max_right _ _

/-! ## An agreement of two installments -/

def agreementRuntime : AgreementRuntime := { billingRuntime with encrypt := .ok }

def twoInstallments : InstallmentAgreement :=
  { id := "a", tenantId := 1, planId := "plan", paymentLinkId := none, initialPaymentIntentId := 1
    encryptedStoredProfileId := "", status := .pendingCheckout, principalAmount := 20000, downPayment := 10000
    installmentAmount := 10000, totalInstallments := 2, paidCount := 0, currency := .mad, nextChargeDate := none
    inngestRunId := none }

def agreementDb : Db := { monthlyDb with installmentAgreements := [twoInstallments] }

/-- The notification of the down payment, and the second installment. -/
def twoRequests : Fin 2 → AgreementRequest
  | 0 => .bootstrap "a" (.obj [("profileId", .str "profile")])
  | 1 => .due (installmentOf "a" 1 2 (Data.addMonths dueDay 1))

/-- The agreement is complete with the charge of the second installment. -/
theorem paid_le_succeeded_two : ∃ p,
    Pool.Reachable (Pool.init (fun i => (twoRequests i).job agreementRuntime) agreementDb (.start (fun _ => 0) (fun _ => true) [])) p ∧
      (p.shared.store.installmentAgreement "a").map (fun r => (r.status, r.paidCount)) = some (.completed, 2) ∧
      2 ≤ 1 + (p.shared.world.succeededFor "a").length := by
  obtain ⟨p, hp, hend⟩ := Pool.ReachableIf.exists_of_runSchedule
    (Pool.init (fun i => (twoRequests i).job agreementRuntime) agreementDb (.start (fun _ => 0) (fun _ => true) []))
    (List.replicate 16 0 ++ List.replicate 36 1)
    (fun p => (p.shared.store.installmentAgreement "a").map (fun r => (r.status, r.paidCount)) = some (.completed, 2))
    (fun _ _ _ => trivial) (by decide +kernel)
  have hrow := of_decide_eq_true hend
  obtain ⟨r, hr, hpaid⟩ := Option.map_eq_some_iff.mp hrow
  obtain ⟨hstatus, hcount⟩ := Prod.mk.inj hpaid
  refine ⟨p, hp, hrow, hcount.symm.le.trans ?_⟩
  exact (paid_le_succeeded agreementRuntime twoRequests "a" agreementDb _ (by decide +kernel) p hp r hr).1

end CorpoPay.Billing
