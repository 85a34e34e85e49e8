import CorpoPay.Billing.Agreements
import CorpoPay.Billing.Lemmas.Jobs
import CorpoPay.Transaction.Holding

/-!
# What the jobs of installments write and ask

A job of one agreement leaves the row, the charges and the events of every other one.
-/

namespace CorpoPay.Settlement

/-! ## An agreement -/

/-- The rows after an update of an agreement. -/
def Db.amended (id : String) (f : InstallmentAgreement → InstallmentAgreement) (db : Db) : Db :=
  { db with installmentAgreements := db.installmentAgreements.map fun r => if r.id = id then f r else r }

variable {id sid : String} {f : InstallmentAgreement → InstallmentAgreement} {db : Db}

theorem Db.installmentAgreement_amended (hid : ∀ r, (f r).id = r.id) :
    (db.amended id f).installmentAgreement id = (db.installmentAgreement id).map f := by
  show (db.installmentAgreements.map _).find? _ = (db.installmentAgreements.find? _).map f
  induction db.installmentAgreements with
  | nil => rfl
  | cons r rows ih =>
      by_cases hr : r.id = id
      · simp [hr, hid]
      · simpa [hr] using ih

theorem Db.installmentAgreement_amended_ne (hid : ∀ r, (f r).id = r.id) (hne : sid ≠ id) :
    (db.amended sid f).installmentAgreement id = db.installmentAgreement id := by
  show (db.installmentAgreements.map _).find? _ = db.installmentAgreements.find? _
  induction db.installmentAgreements with
  | nil => rfl
  | cons r rows ih =>
      by_cases hr : r.id = sid
      · simpa [hr, hid, hne] using ih
      · by_cases hrid : r.id = id
        · simp [hrid, Ne.symm hne]
        · simpa [hr, hrid] using ih

end CorpoPay.Settlement

namespace CorpoPay.Billing

open Settlement (Db Failure Id InstallmentAgreement InstallmentCharge Json)
open Transaction.Job (does_get does_ofExcept does_query does_transaction)
open Transaction.Tx

variable {α : Type} {W : (Db → Db) → Prop} {A : Query → Prop} {aid : String}

/-- A question that is of no concern to the agreement. -/
structure Elsewhere (aid : String) (q : Query) : Prop where
  charge : ∀ charge, q = .chargeRenewal charge → charge.source ≠ aid
  send : ∀ events, q = .send events → ∀ data, Event.installmentDue data ∈ events → data.agreementId ≠ aid
  deliver : ∀ data, q = .deliver (.installmentDue data) → data.agreementId ≠ aid

/-- `W` and `A` let the jobs write and ask what is of no concern to the agreement. -/
structure Aloof (aid : String) (W : (Db → Db) → Prop) (A : Query → Prop) : Prop where
  writes : ∀ w : Db → Db, (∀ db, (w db).installmentAgreement aid = db.installmentAgreement aid) → W w
  asks : ∀ q, Elsewhere aid q → A q

theorem Aloof.amend (h : Aloof aid W A) {sid : String} {f : InstallmentAgreement → InstallmentAgreement} (hne : sid ≠ aid)
    (hid : ∀ r, (f r).id = r.id) : W (Db.amended sid f) :=
  h.writes _ fun _ => Db.installmentAgreement_amended_ne hid hne

theorem elsewhere_chargeRenewal {charge : RenewalCharge} (h : charge.source ≠ aid) : Elsewhere aid (.chargeRenewal charge) :=
  ⟨fun _ hq => Query.chargeRenewal.inj hq ▸ h, nofun, nofun⟩

theorem elsewhere_send {data : InstallmentDue} (h : data.agreementId ≠ aid) :
    Elsewhere aid (.send [.installmentDue data]) := by
  refine ⟨nofun, fun events hq other hmem => ?_, nofun⟩
  obtain rfl := Query.send.inj hq
  obtain rfl := Event.installmentDue.inj (List.mem_singleton.mp hmem)
  exact h

theorem elsewhere_deliver {data : InstallmentDue} (h : data.agreementId ≠ aid) :
    Elsewhere aid (.deliver (.installmentDue data)) :=
  ⟨nofun, nofun, fun _ hq => Event.installmentDue.inj (Query.deliver.inj hq) ▸ h⟩

/-! ## Transactions -/

theorem writes_updateAgreement {sid : String} {f : InstallmentAgreement → InstallmentAgreement} (h : W (Db.amended sid f)) :
    (updateAgreement sid f).Writes (fun w _ => W w) id := by
  simp only [updateAgreement, bind_eq, pure_eq, writes_bind, writes_acquire, writes_get]
  intro db
  cases db.installmentAgreement sid with
  | none => exact writes_throw _
  | some row => exact h

theorem asks_updateAgreement (sid : String) (f : InstallmentAgreement → InstallmentAgreement) :
    (updateAgreement sid f).Asks A := by
  refine asks_bind (asks_acquire _) fun _ => asks_bind (asks_get _) fun row => ?_
  cases row with
  | none => exact asks_throw _
  | some row => exact asks_bind (asks_modify _) fun _ => asks_ret _

theorem does_amend {sid : String} {f : InstallmentAgreement → InstallmentAgreement} (h : W (Db.amended sid f)) :
    (transaction (updateAgreement sid f)).Does W A :=
  does_transaction (writes_updateAgreement h) (asks_updateAgreement sid f)

section Parts

variable (h : Aloof aid W A)
include h

theorem asks_createInstallmentCharge (row : String → InstallmentCharge) : (createInstallmentCharge row).Asks A := by
  refine asks_bind ((asks_query _).mpr (h.asks _ ⟨nofun, nofun, nofun⟩)) fun _ => asks_bind (asks_acquire _) fun _ =>
    asks_bind (asks_get _) fun taken => ?_
  cases taken
  · exact asks_modify _
  · exact asks_throw _

theorem does_createInstallmentCharge (row : String → InstallmentCharge) :
    (transaction (createInstallmentCharge row)).Does W A := by
  refine does_transaction ?_ (asks_createInstallmentCharge h row)
  simp only [createInstallmentCharge, bind_eq, writes_bind, writes_acquire, writes_get]
  exact fun _ db => writes_ite _ (fun _ => writes_throw _) fun _ => h.writes _ fun _ => rfl

theorem does_updateInstallmentCharge (sid : String) (f : InstallmentCharge → InstallmentCharge) :
    (transaction (updateInstallmentCharge sid f)).Does W A := by
  refine does_transaction ?_ (asks_bind (asks_acquire _) fun _ => asks_bind (asks_get _) fun found => ?_)
  · simp only [updateInstallmentCharge, bind_eq, writes_bind, writes_acquire, writes_get]
    exact fun db => writes_ite _ (fun _ => h.writes _ fun _ => rfl) fun _ => writes_throw _
  · cases found
    · exact asks_throw _
    · exact asks_modify _

/-! ## Statements -/

theorem does_lookup {β : Type} (f : Db → β) : (selectOnce f : Job β).Does W A := does_get (h.writes _ fun _ => rfl) f

theorem does_askNow : now.Does W A := does_query (h.asks _ ⟨nofun, nofun, nofun⟩)

theorem does_askRunId : (Backend.ask .runId).Does W A := does_query (h.asks _ ⟨nofun, nofun, nofun⟩)

theorem does_rest (duration : Nat) : (sleep duration).Does W A :=
  (does_askNow h).bind fun _ => does_query (h.asks _ ⟨nofun, nofun, nofun⟩)

omit h in
theorem does_sendEvents {events : List Event} (hsend : A (.send events)) : (send events).Does W A := by
  refine (does_query hsend).bind fun sent => ?_
  cases sent <;> trivial

theorem does_sendDue {data : InstallmentDue} (hne : data.agreementId ≠ aid) : (send [.installmentDue data]).Does W A :=
  does_sendEvents (h.asks _ (elsewhere_send hne))

theorem does_recordInstallmentCharge (agreement : InstallmentAgreement) (data : InstallmentDue) (attempt : Nat)
    (result : ChargeRenewalResult) : (recordInstallmentCharge agreement data attempt result).Does W A := by
  refine (does_askNow h).bind fun processedAt => (does_lookup h _).bind fun existing => ?_
  cases existing with
  | none => exact (does_askNow h).bind fun _ => does_createInstallmentCharge h _
  | some existing => exact does_updateInstallmentCharge h _ _

theorem does_stopsInstallment (data : InstallmentDue) (nextAttempt : Nat) : (stopsInstallment data nextAttempt).Does W A := by
  refine (does_lookup h _).bind fun agreement => ?_
  cases agreement with
  | none => trivial
  | some agreement => dsimp only; split_ifs <;> trivial

/-! ## The jobs of other agreements -/

theorem does_chargeInstallment (rt : Runtime) {data : InstallmentDue} (hne : data.agreementId ≠ aid) (attempt : Nat) :
    (chargeInstallment rt data attempt).Does W A := by
  refine (does_lookup h _).bind fun agreement => ?_
  cases agreement with
  | none => trivial
  | some agreement =>
      dsimp only
      split_ifs
      · trivial
      · refine (does_lookup h _).bind fun config => ?_
        cases config with
        | none => trivial
        | some config =>
            refine (does_ofExcept _).bind fun adapter => (does_ofExcept _).bind fun profileId => ?_
            cases adapter with
            | vps credentials =>
                refine (does_query (h.asks _ (elsewhere_chargeRenewal hne))).bind fun answer => ?_
                cases answer with
                | error message => trivial
                | ok result => exact (does_recordInstallmentCharge h agreement data attempt result).bind fun _ => trivial
            | _ => trivial

theorem does_onInstallmentSuccess {data : InstallmentDue} (hne : data.agreementId ≠ aid) :
    (onInstallmentSuccess data).Does W A := by
  refine (does_lookup h _).bind fun agreement => ?_
  cases agreement with
  | none => trivial
  | some agreement =>
      dsimp only
      split_ifs
      · exact Transaction.Job.Does.bind (does_amend (h.amend hne fun _ => rfl)) fun _ => trivial
      · refine (does_askNow h).bind fun now => Transaction.Job.Does.bind (does_amend (h.amend hne fun _ => rfl)) fun _ => ?_
        have hnext : (installmentOf data.agreementId agreement.tenantId (data.installmentNumber + 1)
          (Data.addMonths now 1)).agreementId ≠ aid := hne
        exact (does_sendDue h hnext).bind fun _ => trivial

theorem does_markDefaulted {data : InstallmentDue} (hne : data.agreementId ≠ aid) : (markDefaulted data).Does W A :=
  Transaction.Job.Does.bind (does_amend (h.amend hne fun _ => rfl)) fun _ => trivial

/-- A ladder does what its parts do, and sleeps. -/
theorem does_ladder {ladder : DunningLadder α} (hattempt : ∀ n, (ladder.attempt n).Does W A)
    (hstop : ∀ n, (ladder.shouldStop n).Does W A) (hsuccess : ∀ n, (ladder.onSuccess n).Does W A)
    (hfailure : ∀ n, (ladder.onFailure n).Does W A) (hexhausted : ladder.onExhausted.Does W A) (left n : Nat) :
    (ladder.climb left n).Does W A := by
  induction left generalizing n with
  | zero => exact hexhausted.bind fun _ => trivial
  | succ left ih =>
      refine (hattempt n).bind fun attempted => ?_
      split_ifs
      · exact (hsuccess n).bind fun _ => trivial
      · refine (hfailure n).bind fun _ => (does_rest h _).bind fun _ => (hstop (n + 1)).bind fun stop => ?_
        cases stop with
        | none => exact ih (n + 1)
        | some reason => trivial
      · exact ih (n + 1)

theorem does_installmentCharge (rt : Runtime) {data : InstallmentDue} (hne : data.agreementId ≠ aid) :
    (installmentCharge rt data).Does W A := by
  refine Transaction.Job.Does.bind (does_askRunId h) fun runId => (does_lookup h _).bind fun agreement => ?_
  cases agreement with
  | none => trivial
  | some agreement =>
      dsimp only
      split_ifs
      · trivial
      · refine Transaction.Job.Does.bind (does_amend (h.amend hne fun _ => rfl)) fun _ => ?_
        exact does_ladder h (does_chargeInstallment h rt hne) (does_stopsInstallment h data)
          (fun _ => does_onInstallmentSuccess h hne) (fun _ => Transaction.Job.does_ret ()) (does_markDefaulted h hne) _ _

omit h in
/-- The rows after an activation: the one of the agreement, and one more charge. -/
theorem writes_activate {sid : String} {agreement : InstallmentAgreement} {encryptedProfileId : String}
    {nextChargeDate dueDate processedAt : Nat}
    (hw : ∀ chargeId : String, W fun db =>
      { db.amended sid (activated encryptedProfileId nextChargeDate) with
        installmentCharges := db.installmentCharges ++ [downPaymentCharge sid agreement dueDate processedAt chargeId] }) :
    (activate sid agreement encryptedProfileId nextChargeDate dueDate processedAt).Writes (fun w _ => W w) id := by
  simp only [activate, updateAgreement, createInstallmentCharge, bind_eq, pure_eq, writes_bind, writes_acquire, writes_get]
  intro db
  cases db.installmentAgreement sid with
  | none => exact writes_throw _
  | some row =>
      intro chargeId db'
      exact writes_ite _ (fun _ => writes_throw _) fun _ => hw chargeId

theorem asks_activate (sid : String) (agreement : InstallmentAgreement) (encryptedProfileId : String)
    (nextChargeDate dueDate processedAt : Nat) :
    (activate sid agreement encryptedProfileId nextChargeDate dueDate processedAt).Asks A :=
  asks_bind (asks_updateAgreement _ _) fun _ => asks_createInstallmentCharge h _

theorem does_bootstrapInstallmentAgreement (rt : AgreementRuntime) {sid : String} (hne : sid ≠ aid) (payload : Json) :
    (bootstrapInstallmentAgreement rt sid payload).Does W A := by
  refine (does_ofExcept _).bind fun found => ?_
  cases found.filter (·.truthy) with
  | none => trivial
  | some storedProfileId =>
      refine (does_lookup h _).bind fun agreement => ?_
      cases agreement with
      | none => trivial
      | some agreement =>
          dsimp only
          split_ifs
          · trivial
          · refine (does_ofExcept _).bind fun encryptedProfileId => (does_askNow h).bind fun now =>
              (does_askNow h).bind fun dueDate => (does_askNow h).bind fun processedAt => ?_
            refine Transaction.Job.Does.bind (does_transaction (writes_activate fun _ => ?_) (asks_activate h _ _ _ _ _ _))
              fun _ => ?_
            · exact h.writes _ fun _ => Db.installmentAgreement_amended_ne (fun _ => rfl) hne
            · unfold startInstallments
              split_ifs
              · exact does_sendDue h hne
              · exact Transaction.Job.Does.bind (does_amend (h.amend hne fun _ => rfl)) fun _ => trivial

theorem does_cancelAgreement (tenantId : Id) (sid : String) (hcancel : ∀ sid, W (Db.amended sid cancelled)) :
    (cancelAgreement tenantId sid).Does W A := by
  refine (does_lookup h _).bind fun agreement => ?_
  cases agreement with
  | none => trivial
  | some agreement =>
      dsimp only
      split_ifs
      · trivial
      · exact Transaction.Job.Does.bind (does_amend (hcancel agreement.id)) fun _ => trivial

/-- The request is one of another agreement, or a cancellation. -/
def AgreementRequest.Spares (aid : String) : AgreementRequest → Prop
  | .due data => data.agreementId ≠ aid
  | .bootstrap sid _ => sid ≠ aid
  | .cancel _ _ => True

theorem does_agreementRequest (rt : AgreementRuntime) {request : AgreementRequest} (hspares : request.Spares aid)
    (hcancel : ∀ sid, W (Db.amended sid cancelled)) : (request.job rt).Does W A := by
  cases request with
  | due data =>
      refine Transaction.Job.Does.bind (does_query (h.asks _ (elsewhere_deliver hspares))) fun delivered => ?_
      cases delivered with
      | false => trivial
      | true => exact (does_installmentCharge h rt.toBilling hspares).bind fun _ => trivial
  | bootstrap sid payload => exact (does_bootstrapInstallmentAgreement h rt hspares payload).retry _
  | cancel tenantId sid => exact (does_cancelAgreement h tenantId sid hcancel).bind fun _ => trivial

end Parts

/-! ## The jobs of the agreement itself -/

section Plays

open Transaction (Protocol Shared)

variable {G : Type} {P : Protocol Backend G} {own : Shared Backend → Shared Backend → Prop}
  (haloof : Aloof aid W A) (hlets : ∀ g, P.Lets own W A g)
include haloof hlets

/-- An attempt, from what the answer to its charge leaves. -/
theorem plays_chargeInstallment (rt : Runtime) (data : InstallmentDue) (attempt : Nat) {g : G}
    {Q : Except Failure ChargeAttemptResult → G → Prop} (hrefused : ∀ message, Q (.ok (refused message)) g)
    (herror : ∀ e, Q (.error e) g)
    (hcharge : ∀ charge σ, charge.source = data.agreementId → charge.key = data.key → P.sees g σ →
      own σ (σ.asked (.chargeRenewal charge)) → ∃ g', P.moves g σ g' (σ.asked (.chargeRenewal charge)) ∧
        (∀ e, Q (.error e) g') ∧ ∀ result, World.answer σ.world (.chargeRenewal charge) = .ok result → Q (.ok result.attempt) g') :
    (chargeInstallment rt data attempt).Plays P own Q g := by
  refine .after (does_lookup haloof _) (hlets g) (fun agreement => ?_) herror
  cases agreement with
  | none => exact herror _
  | some agreement =>
      dsimp only
      split_ifs
      · exact hrefused _
      · refine .after (does_lookup haloof _) (hlets g) (fun config => ?_) herror
        cases config with
        | none => exact hrefused _
        | some config =>
            refine .after (W := W) (A := A) (does_ofExcept _) (hlets g) (fun adapter => ?_) herror
            refine .after (W := W) (A := A) (does_ofExcept _) (hlets g) (fun profileId => ?_) herror
            cases adapter with
            | vps credentials =>
                intro σ hσ hown
                obtain ⟨g', hmoves, herror', hok⟩ := hcharge _ σ rfl rfl hσ hown
                refine ⟨g', hmoves, ?_⟩
                dsimp only [World.reply, World.answer, Transaction.Job.bind] at hok ⊢
                split
                · exact herror' _
                · rename_i result hanswer
                  exact .after (does_recordInstallmentCharge haloof agreement data attempt result) (hlets g')
                    (fun _ => hok result hanswer) herror'
            | _ => exact herror _

/-- A ladder, from what its attempts leave: `K` holds before an attempt and after one that failed, and `S` after one that
succeeded. -/
theorem plays_climb {ladder : DunningLadder α} {K S : G → Prop} {Q : Except Failure (LadderResult α) → G → Prop}
    (hattempt : ∀ n g, K g → (ladder.attempt n).Plays P own (fun r g' => match r with
      | .ok attempted => if attempted.success then S g' else K g'
      | .error e => Q (.error e) g') g)
    (hstop : ∀ n, (ladder.shouldStop n).Does W A)
    (hsuccess : ∀ n g, S g → (ladder.onSuccess n).Plays P own (fun r g' => match r with
      | .ok a => Q (.ok (.done a)) g'
      | .error e => Q (.error e) g') g)
    (hfailure : ∀ n, (ladder.onFailure n).Does W A)
    (hexhausted : ∀ g, K g → ladder.onExhausted.Plays P own (fun r g' => match r with
      | .ok a => Q (.ok (.done a)) g'
      | .error e => Q (.error e) g') g)
    (hskipped : ∀ reason g, K g → Q (.ok (.skipped reason)) g) (herror : ∀ e g, K g → Q (.error e) g) (left n : Nat) {g : G}
    (hg : K g) : (ladder.climb left n).Plays P own Q g := by
  have hdone : ∀ {j : Job α} {g : G}, j.Plays P own (fun r g' => match r with
      | .ok a => Q (.ok (.done a)) g'
      | .error e => Q (.error e) g') g → (j.bind fun a => .ret (.done a)).Plays P own Q g := fun h => .bind (h.mono fun r _ hr => by
    cases r <;> exact hr)
  induction left generalizing n g with
  | zero => exact hdone (hexhausted g hg)
  | succ left ih =>
      refine .bind ((hattempt n g hg).mono fun r g' hr => ?_)
      cases r with
      | error e => exact hr
      | ok attempted =>
          dsimp only at hr ⊢
          split_ifs with hattempted hleft
          · rw [if_pos hattempted] at hr
            exact hdone (hsuccess n g' hr)
          · rw [if_neg hattempted] at hr
            refine .after (hfailure n) (hlets g') (fun _ => ?_) fun e => herror e g' hr
            refine .after (does_rest haloof _) (hlets g') (fun _ => ?_) fun e => herror e g' hr
            refine .after (hstop (n + 1)) (hlets g') (fun stop => ?_) fun e => herror e g' hr
            cases stop with
            | none => exact ih (n + 1) hr
            | some reason => exact hskipped reason g' hr
          · rw [if_neg hattempted] at hr
            exact ih (n + 1) hr

/-- The job of an installment: `K` holds while it has not charged, `S` once it has, and `E` whatever it ends with. -/
theorem plays_installmentCharge (rt : Runtime) (data : InstallmentDue) {K S E : G → Prop}
    (hstarted : ∀ runId, W (Db.amended data.agreementId (startedBy runId)))
    (hdefaulted : W (Db.amended data.agreementId defaulted)) (hK : ∀ g, K g → E g)
    (hcharge : ∀ charge σ g, K g → charge.source = data.agreementId → charge.key = data.key → P.sees g σ →
      own σ (σ.asked (.chargeRenewal charge)) → ∃ g', P.moves g σ g' (σ.asked (.chargeRenewal charge)) ∧ E g' ∧
        ∀ result, World.answer σ.world (.chargeRenewal charge) = .ok result → if result.success then S g' else K g')
    (hsuccess : ∀ g, S g → (onInstallmentSuccess data).Plays P own (fun _ => E) g) {g : G} (hg : K g) :
    (installmentCharge rt data).Plays P own (fun _ => E) g := by
  have hE := hK g hg
  refine .after (does_askRunId haloof) (hlets g) (fun runId => ?_) fun _ => hE
  refine .after (does_lookup haloof _) (hlets g) (fun agreement => ?_) fun _ => hE
  cases agreement with
  | none => exact hE
  | some agreement =>
      dsimp only
      split_ifs
      · exact hE
      refine .after (does_amend (hstarted runId)) (hlets g) (fun _ => ?_) fun _ => hE
      refine plays_climb haloof hlets (K := K) (S := S) (fun n g hg => ?_) (does_stopsInstallment haloof data)
        (fun _ g hg => (hsuccess g hg).mono fun r _ hr => by cases r <;> exact hr) (fun _ => Transaction.Job.does_ret ())
        (fun g hg => ?_) (fun _ g hg => hK g hg) (fun _ g hg => hK g hg) _ _ hg
      · refine plays_chargeInstallment haloof hlets rt data n (fun message => ?_) (fun _ => hK g hg) ?_
        · show if (refused message).success then S g else K g
          exact hg
        · intro charge σ hsource hkey hσ hown
          obtain ⟨g', hmoves, hE', hok⟩ := hcharge charge σ g hg hsource hkey hσ hown
          exact ⟨g', hmoves, fun _ => hE', hok⟩
      · refine .of_does (Transaction.Job.Does.bind (does_amend hdefaulted) fun _ => trivial) (hlets g) fun r => ?_
        cases r <;> exact hK g hg

omit haloof hlets in
/-- The request of an installment, from what its delivery leaves. -/
theorem plays_due (rt : AgreementRuntime) {data : InstallmentDue} {K E : G → Prop} {g : G}
    (hdeliver : ∀ σ, P.sees g σ → own σ (σ.asked (.deliver (.installmentDue data))) →
      ∃ g', P.moves g σ g' (σ.asked (.deliver (.installmentDue data))) ∧ E g' ∧
        (Event.installmentDue data ∈ σ.world.pending → K g'))
    (hjob : ∀ g, K g → (installmentCharge rt.toBilling data).Plays P own (fun _ => E) g) :
    ((AgreementRequest.due data).job rt).Plays P own (fun _ => E) g := by
  intro σ hσ hown
  obtain ⟨g', hmoves, hE, hK⟩ := hdeliver σ hσ hown
  refine ⟨g', hmoves, ?_⟩
  show Transaction.Job.Plays P own _ (if decide (Event.installmentDue data ∈ σ.world.pending) then _ else _) g'
  split_ifs with hpending
  · exact .bind ((hjob g' (hK (of_decide_eq_true hpending))).mono fun r _ hr => by cases r <;> exact hr)
  · exact hE

end Plays

end CorpoPay.Billing
