import CorpoPay.Settlement.Theorems.ChargedAmount

/-!
# What an installment agreement collects

With interest the charges are rounded up and cover the price. Without interest an equal share is rounded to the nearest
centime, and where no share is left the down payment stands in for it.
-/

namespace CorpoPay.Settlement

open Data (Arithmetic)
open Transaction.Tx
open Transaction.Job (yields_ret yields_throw yields_get yields_query yields_transaction yields_bind yields_ofExcept_bind)

/-! ## The down payment -/

/-- In whole centimes: what is asked for, at least an equal share and at most the price. -/
def equalDown (principal : Int) (n : Nat) (asked : Option Rat) : Int :=
  min principal (asked.elim (roundDiv principal n) fun x => max (roundDiv principal n) (roundRat (x * 100)))

/-! ## The terms -/

/-- What the charges of the terms add up to. -/
def InstallmentTerms.total (terms : InstallmentTerms) : Int :=
  terms.downPayment + (terms.totalInstallments - 1 : Nat) * terms.installmentAmount

/-- What is left after the down payment is divided over the months that are left. -/
theorem InstallmentPlan.terms_ok {a : Arithmetic} {plan : InstallmentPlan} {principal : Int} {asked : Option Rat}
    {terms : InstallmentTerms} (h : plan.terms a principal asked = .ok terms) (hprincipal : 0 < principal)
    (hbound : principal.natAbs < 1000000000000) (hrate : 0 ≤ plan.annualInterestRate) :
    ∃ standardInstallment monthly down,
      computeInstallmentAmount a principal (a.round plan.annualInterestRate) plan.durationMonths = .ok standardInstallment ∧
        down = capDownPayment a principal standardInstallment asked ∧ 0 ≤ down ∧ down ≤ principal ∧
        (if 0 < plan.durationMonths - 1 then
          computeInstallmentAmount a (principal - down) (a.round plan.annualInterestRate) (plan.durationMonths - 1) =
            .ok monthly
        else monthly = 0) ∧
        terms = ⟨down, if 0 < monthly then monthly else down, 1 + (plan.durationMonths - 1)⟩ := by
  obtain ⟨_, -, h⟩ := Except.bind_eq_ok h
  obtain ⟨standardInstallment, hstandard, h⟩ := Except.bind_eq_ok h
  obtain ⟨hnonneg, hle⟩ := capDownPayment_bounds hprincipal.le hbound
    (computeInstallmentAmount_nonneg (a.round_nonneg hrate) hstandard) asked
  have hrest := toCentimes_rest (a := a) hnonneg hle hbound
  dsimp only at h
  rw [hrest, max_eq_right (sub_nonneg.mpr hle)] at h
  split_ifs at h with hmonths
  · obtain ⟨monthly, hmonthly, h⟩ := Except.bind_eq_ok h
    exact ⟨standardInstallment, monthly, _, hstandard, rfl, hnonneg, hle, by rwa [if_pos hmonths], (Except.ok.inj h).symm⟩
  · obtain ⟨monthly, hmonthly, h⟩ := Except.bind_eq_ok h
    obtain rfl := Except.ok.inj hmonthly
    exact ⟨standardInstallment, 0, _, hstandard, rfl, hnonneg, hle, by rw [if_neg hmonths], (Except.ok.inj h).symm⟩

/-- With interest the charges cover the price. -/
theorem InstallmentPlan.terms_covers {plan : InstallmentPlan} {principal : Int} {asked : Option Rat}
    {terms : InstallmentTerms} (h : plan.terms .exact principal asked = .ok terms) (hprincipal : 0 < principal)
    (hbound : principal.natAbs < 1000000000000) (hrate : 0 < plan.annualInterestRate) : principal ≤ terms.total := by
  obtain ⟨standard, monthly, down, hstandard, hdown, -, hle, hmonthly, rfl⟩ := plan.terms_ok h hprincipal hbound hrate.le
  simp only [InstallmentTerms.total, Nat.add_sub_cancel_left]
  split_ifs at hmonthly with hmonths
  · rcases hle.lt_or_eq with hlt | rfl
    · obtain ⟨hpos, hcover⟩ := computeInstallmentAmount_covers (by omega) hrate hmonthly
      rw [if_pos hpos]
      omega
    · -- nothing is left to be paid, so each installment is the whole price
      have hzero : monthly = 0 := by
        rw [sub_self, computeInstallmentAmount, if_neg (by omega), if_pos le_rfl] at hmonthly
        exact (Except.ok.inj hmonthly).symm
      rw [hzero, if_neg (lt_irrefl 0)]
      have : 0 ≤ ((plan.durationMonths - 1 : Nat) : Int) * down := by positivity
      omega
  · have hn : plan.durationMonths ≠ 0 := fun h => by
      rw [computeInstallmentAmount, if_pos h] at hstandard
      cases hstandard
    obtain ⟨hpos, hcover⟩ := computeInstallmentAmount_covers hprincipal hrate hstandard
    have hone : plan.durationMonths = 1 := by omega
    rw [hone, Nat.cast_one, one_mul] at hcover
    rw [hdown, (capDownPayment_eq_iff hbound standard asked).mpr (.inl hcover), hone]
    omega

/-- When the equal shares add up to the price: the rest after the down payment is divided without a remainder or with one
that is rounded up. A rest that rounds to no share is charged as so many down payments of one centime. -/
def InstallmentPlan.SharesEvenly (plan : InstallmentPlan) (principal : Int) (asked : Option Rat) : Prop :=
  let months : Int := plan.durationMonths - 1
  let down := equalDown principal plan.durationMonths asked
  let rest := principal - down
  plan.durationMonths = 1 ∨
    if 2 * rest < months then down = 1 else rest % months = 0 ∨ months ≤ 2 * (rest % months)

/-- A rest that rounds to no share is charged as one down payment each month, another one in rounded shares. -/
theorem shares_total_iff {principal down months : Int} (hprincipal : 0 < principal) (hmonths : 0 < months) (hdown : 0 ≤ down)
    (hle : down ≤ principal) :
    let share := roundDiv (principal - down) months
    let charged := down + months * (if 0 < share then share else down)
    principal ≤ charged ∧ charged < principal + (months + 1) ↔
      if 2 * (principal - down) < months then down = 1
      else (principal - down) % months = 0 ∨ months ≤ 2 * ((principal - down) % months) := by
  have hrest : 0 ≤ principal - down := by omega
  have hzero := roundDiv_eq_zero_iff hrest hmonths
  have hnonneg := roundDiv_nonneg hrest hmonths
  dsimp only
  split_ifs with hpos hfew hfew
  · exact absurd (hzero.mpr hfew) hpos.ne'
  · rw [← le_mul_roundDiv_iff _ hmonths]
    have hlt := mul_roundDiv_lt (principal - down) hmonths
    constructor
    · intro h
      omega
    · intro h
      constructor <;> omega
  · constructor
    · rintro ⟨hcover, hover⟩
      have hone : down < 2 := by
        by_contra hmany
        nlinarith
      have hsome : down ≠ 0 := by
        rintro rfl
        omega
      omega
    · rintro rfl
      constructor <;> omega
  · exact absurd (hzero.mp (by omega)) hfew

/-- Without interest the charges are the price up to less than a centime a month exactly when the shares add up. -/
theorem InstallmentPlan.terms_flat {plan : InstallmentPlan} {principal : Int} {asked : Option Rat}
    {terms : InstallmentTerms} (h : plan.terms .exact principal asked = .ok terms) (hprincipal : 0 < principal)
    (hbound : principal.natAbs < 1000000000000) (hrate : plan.annualInterestRate = 0) :
    principal ≤ terms.total ∧ terms.total < principal + plan.durationMonths ↔ plan.SharesEvenly principal asked := by
  obtain ⟨standard, monthly, down, hstandard, hdown, hdown0, hle, hmonthly, rfl⟩ :=
    plan.terms_ok h hprincipal hbound hrate.ge
  rw [hrate, Arithmetic.round_zero] at hstandard hmonthly
  obtain ⟨hn, rfl⟩ := computeInstallmentAmount_flat hprincipal.le hstandard
  have hequal : equalDown principal plan.durationMonths asked = down := by
    rw [hdown, capDownPayment_eq_min, toCentimes_major_exact, toCentimes_major_exact]
    rfl
  simp only [InstallmentTerms.total, Nat.add_sub_cancel_left, SharesEvenly, hequal]
  split_ifs at hmonthly with hmonths
  · have hcast : ((plan.durationMonths - 1 : Nat) : Int) = (plan.durationMonths : Int) - 1 := by omega
    rw [hcast]
    obtain ⟨-, rfl⟩ := computeInstallmentAmount_flat (by omega) hmonthly
    have hmany : plan.durationMonths ≠ 1 := by omega
    have hshares := shares_total_iff hprincipal (by omega : 0 < (plan.durationMonths : Int) - 1) hdown0 hle
    simp only [sub_add_cancel] at hshares
    simp only [hcast, hshares, or_iff_right hmany]
  · have hone : plan.durationMonths = 1 := by omega
    have hshare : roundDiv principal (1 : Nat) = principal := by
      rw [roundDiv_eq _ (by simp)]
      simp
    rw [hone, hshare] at hdown
    rw [hdown, (capDownPayment_eq_iff hbound principal asked).mpr (.inl le_rfl), hone]
    simp

/-! ## The checkout -/

/-- What the charges of the agreement add up to. -/
def InstallmentAgreement.total (agreement : InstallmentAgreement) : Int :=
  agreement.downPayment + (agreement.totalInstallments - 1 : Nat) * agreement.installmentAmount

/-- The charges cover the price, and without interest they exceed it by less than a centime a month. -/
structure InstallmentAgreement.CollectsPrice (agreement : InstallmentAgreement) (plan : InstallmentPlan) (price : Int) :
    Prop where
  covers : price ≤ agreement.total
  exceeds : plan.annualInterestRate = 0 → agreement.total < price + plan.durationMonths

/-- The agreement charges what the terms say. -/
def InstallmentAgreement.HasTerms (agreement : InstallmentAgreement) (terms : InstallmentTerms) : Prop :=
  agreement.downPayment = terms.downPayment ∧ agreement.installmentAmount = terms.installmentAmount ∧
    agreement.totalInstallments = terms.totalInstallments

section Checkout

variable {rt : Runtime} {db : Db} {es : List CheckoutSession}

theorem yields_agreementRow (row : String → InstallmentAgreement) :
    (transaction (InstallmentAgreement.create row)).Yields checkouts (fun agreement db' _ =>
      (∃ id, agreement = row id) ∧ agreement ∈ db'.installmentAgreements) db es := by
  refine yields_transaction ?_ ?_
  · refine asks_bind ((asks_query _).mpr fun _ => rfl) fun _ => asks_bind (asks_acquire _) fun _ =>
      asks_bind (asks_get _) fun taken => ?_
    cases taken
    · exact asks_bind (asks_modify _) fun _ => asks_ret _
    · exact asks_throw _
  · simp only [InstallmentAgreement.create, bind_eq, pure_eq, ensures_bind, ensures_acquire, ensures_get, ensures_ite,
      ensures_throw, ensures_modify, ensures_ret]
    exact fun id => ⟨fun _ => trivial, fun _ => ⟨⟨id, rfl⟩, List.mem_append_right _ (List.mem_singleton_self _)⟩⟩

theorem yields_keepsAgreements_update (id : Id) (f : PaymentIntent → PaymentIntent) :
    (transaction (PaymentIntent.update id f)).Yields checkouts (fun _ db' _ =>
      db'.installmentAgreements = db.installmentAgreements) db es := by
  refine yields_transaction (asks_intentUpdate _ _) ?_
  simp only [PaymentIntent.update, bind_eq, pure_eq, ensures_bind, ensures_acquire, ensures_get]
  cases db.paymentIntent id with
  | none => trivial
  | some found => rfl

theorem yields_keepsAgreements_open (session : CheckoutSession) (id : Id) (metadata : Option Json → Option Json) :
    (openCheckout session id metadata).Yields checkouts (fun _ db' _ =>
      db'.installmentAgreements = db.installmentAgreements) db es := by
  refine yields_bind (yields_query (R := fun _ db' _ => db' = db) fun _ => rfl) ?_
  rintro answer db₁ es₁ rfl
  cases answer with
  | error message => exact yields_throw _
  | ok result =>
      refine yields_bind (?_ : Transaction.Job.Yields checkouts (fun _ (db' : Db) _ =>
        db'.installmentAgreements = db₁.installmentAgreements) _ _ _) fun _ _ _ h => yields_ret h
      refine yields_transaction (asks_bind (asks_intentUpdate _ _) fun _ =>
        asks_bind (asks_transactionCreate (fun _ => rfl) _) fun _ => asks_ret _) ?_
      simp only [PaymentIntent.update, ProviderTransaction.create, bind_eq, pure_eq, ensures_bind, ensures_acquire,
        ensures_get]
      cases db₁.paymentIntent id with
      | none => trivial
      | some found =>
          simp only [ensures_bind, ensures_modify, ensures_ret, ensures_ite, ensures_throw]
          exact fun _ => ⟨fun _ => trivial, fun _ => rfl⟩

/-- The agreement of a checkout has the terms of the plan. -/
theorem yields_payDown_agreement (link : PaymentLink) (plan : InstallmentPlan) (body : PayBody) :
    (payDown rt link plan body).Yields checkouts (fun paid db' _ => ∃ terms,
      plan.terms rt.arithmetic link.amount body.downPaymentAmount = .ok terms ∧ ∃ agreement ∈ db'.installmentAgreements, paid.agreementId = some agreement.id ∧
        agreement.HasTerms terms) db es := by
  refine yields_ofExcept_bind fun terms hterms => yields_bind (yields_scoreRisk _ _) fun verdict db₁ es₁ _ => ?_
  refine yields_bind (yields_createIntent _ fun _ _ _ => rfl) fun intent db₂ es₂ _ => ?_
  refine yields_bind (yields_agreementRow _) ?_
  rintro agreement db₃ es₃ ⟨⟨id, hrow⟩, hmem⟩
  refine yields_bind (yields_keepsAgreements_update _ _) fun _ db₄ es₄ h₄ => ?_
  refine yields_bind (yields_keepsAgreements_open _ _ _) fun _ db₅ es₅ h₅ => yields_ret ?_
  refine ⟨terms, hterms, agreement, ?_, rfl, ?_⟩
  · rw [h₅, h₄]
    exact hmem
  · rw [hrow]
    exact ⟨rfl, rfl, rfl⟩

/-- The agreement is for the link of the slug and has the terms of the plan that the request names. -/
structure Db.Agreed (rt : Runtime) (db : Db) (slug : String) (body : PayBody) (agreement : InstallmentAgreement) (link : PaymentLink)
    (plan : InstallmentPlan) : Prop where
  ofSlug : db.linkOfSlug slug = some link
  named : ∃ planId, body.planId = some planId ∧ db.activePlan link.tenantId planId = some plan
  hasTerms : ∃ terms, plan.terms rt.arithmetic link.amount body.downPaymentAmount = .ok terms ∧ agreement.HasTerms terms

theorem yields_payChecked_agreement {slug : String} {link : PaymentLink} (hlink : db.linkOfSlug slug = some link)
    {db' : Db} (hplans : db'.installmentPlans = db.installmentPlans) (body : PayBody) :
    (payChecked rt link body).Yields checkouts (fun paid db' _ => ∀ agreementId, paid.agreementId = some agreementId →
      ∃ agreement ∈ db'.installmentAgreements, ∃ plan, agreement.id = agreementId ∧
        db.Agreed rt slug body agreement link plan) db' es := by
  refine yields_bind (yields_get (R := fun _ db₁ _ => db₁ = db') rfl) ?_
  rintro config db₁ es₁ rfl
  split
  · exact yields_throw _
  · refine yields_ofExcept_bind fun _ _ => yields_ofExcept_bind fun _ _ => ?_
    split
    · -- the whole amount is paid, and no agreement is made
      refine yields_bind (yields_scoreRisk _ _) fun _ _ _ _ => yields_bind (yields_createIntent _ fun _ _ _ => rfl) ?_
      refine fun _ _ _ _ => yields_bind (yields_keepsAgreements_open _ _ _) fun _ _ _ _ => yields_ret fun _ h => ?_
      cases h
    · rename_i planId hplan
      refine yields_bind (yields_get (R := fun found db₂ _ => found = db₁.activePlan link.tenantId planId ∧ db₂ = db₁)
        ⟨rfl, rfl⟩) ?_
      rintro found db₂ es₂ ⟨hfound, rfl⟩
      cases found with
      | none => exact yields_throw _
      | some plan =>
          refine (yields_payDown_agreement link plan body).mono fun r db' es' h paid hr agreementId hpaid => ?_
          obtain ⟨terms, hterms, agreement, hmem, hid, hhas⟩ := h paid hr
          rw [Db.activePlan, hplans] at hfound
          exact ⟨agreement, hmem, plan, Option.some.inj (hid.symm.trans hpaid),
            hlink, ⟨planId, hplan, hfound.symm⟩, terms, hterms, hhas⟩

theorem yields_payLink_agreement (slug : String) (body : PayBody) :
    (payLink rt slug body).Yields checkouts (fun paid db' _ => ∀ agreementId, paid.agreementId = some agreementId →
      ∃ agreement ∈ db'.installmentAgreements, ∃ link plan, agreement.id = agreementId ∧
        db.Agreed rt slug body agreement link plan) db es := by
  refine yields_bind (yields_get (R := fun found db' _ => found = db.linkOfSlug slug ∧ db' = db) ⟨rfl, rfl⟩) ?_
  rintro found db₁ es₁ ⟨hfound, rfl⟩
  cases found with
  | none => exact yields_throw _
  | some link =>
      refine yields_bind (yields_get (R := fun _ db' _ => db' = db₁) rfl) ?_
      rintro tenant db₂ es₂ rfl
      refine yields_bind (yields_query (R := fun _ db' _ => db' = db₂) fun _ => rfl) ?_
      rintro now db₃ es₃ rfl
      refine yields_ofExcept_bind fun _ _ => yields_bind (yields_bumpAttempts link) ?_
      rintro bumped db₄ es₄ ⟨-, hplans, -⟩
      dsimp only
      split_ifs
      · refine (yields_payChecked_agreement hfound.symm hplans body).mono fun r db' es' h paid hr agreementId hpaid => ?_
        obtain ⟨agreement, hmem, plan, hid, hagreed⟩ := h paid hr agreementId hpaid
        exact ⟨agreement, hmem, link, plan, hid, hagreed⟩
      · exact yields_throw _

end Checkout

/-! ## The price -/

theorem Db.Agreed.collects_iff {rt : Runtime} {db : Db} {slug : String} {body : PayBody} {agreement : InstallmentAgreement}
    {link : PaymentLink} {plan : InstallmentPlan} (h : db.Agreed rt slug body agreement link plan) (hprice : 0 < link.amount)
    (hrate : 0 ≤ plan.annualInterestRate) (hexact : rt.arithmetic = .exact) :
    agreement.CollectsPrice plan link.amount ↔
      0 < plan.annualInterestRate ∨ plan.SharesEvenly link.amount body.downPaymentAmount := by
  obtain ⟨terms, hterms, hdown, hamount, hcount⟩ := h.hasTerms
  rw [hexact] at hterms
  have htotal : agreement.total = terms.total := by
    rw [InstallmentAgreement.total, InstallmentTerms.total, hdown, hamount, hcount]
  rcases hrate.lt_or_eq with hpos | hzero
  · refine iff_of_true ⟨?_, fun hzero => absurd hzero hpos.ne'⟩ (.inl hpos)
    rw [htotal]
    exact plan.terms_covers hterms hprice link.amount_lt hpos
  · rw [← plan.terms_flat hterms hprice link.amount_lt hzero.symm, ← htotal, ← hzero, or_iff_right (lt_irrefl 0)]
    exact ⟨fun h => ⟨h.covers, h.exceeds hzero.symm⟩, fun h => ⟨h.1, fun _ => h.2⟩⟩

/-- Computed exactly, the agreement of a checkout collects the price exactly when there is interest or the shares are even. -/
theorem collectsPrice_iff {rt : Runtime} (hexact : rt.arithmetic = .exact) {slug : String} {body : PayBody} {db db' : Db} {w w' : World} {paid : PaidLink}
    {agreementId : String} (hrun : (payLink rt slug body).run db w = (.ok paid, db', w'))
    (hpaid : paid.agreementId = some agreementId) :
    ∃ agreement ∈ db'.installmentAgreements, ∃ link plan, agreement.id = agreementId ∧
      db.Agreed rt slug body agreement link plan ∧ (0 < link.amount → 0 ≤ plan.annualInterestRate →
        (agreement.CollectsPrice plan link.amount ↔
          0 < plan.annualInterestRate ∨ plan.SharesEvenly link.amount body.downPaymentAmount)) := by
  have hyields : (payLink rt slug body).Yields checkouts _ db [] := yields_payLink_agreement slug body
  obtain ⟨_, -, h⟩ := hyields.run hrun
  obtain ⟨agreement, hmem, link, plan, hid, hagreed⟩ := h paid rfl agreementId hpaid
  exact ⟨agreement, hmem, link, plan, hid, hagreed, fun hprice hrate => hagreed.collects_iff hprice hrate hexact⟩

/-- A checkout with `down` paid down. -/
def downBody (down : Rat) (hdown : 0 < down) : PayBody := ⟨some "p", some down, by simpa using hdown⟩

/-- Computes without rounding. -/
def exactRuntime : Runtime := { checkoutRuntime with arithmetic := .exact }

/-- A checkout of the link over 100.00 in two months. -/
def linkRun (rt : Runtime) (body : PayBody) : Except Failure PaidLink × Db × World :=
  (payLink rt "l" body).run installmentDb .counting

theorem linkRun_eq {rt : Runtime} {body : PayBody} {paid : PaidLink} (h : (linkRun rt body).1.toOption = some paid) :
    linkRun rt body = (.ok paid, (linkRun rt body).2.1, (linkRun rt body).2.2) :=
  Prod.ext (Except.of_toOption h) rfl

/-- 50.00 now and 50.00 in a month. -/
def halfDown : PayBody := downBody 50 (by decide)

def wholeDown : PayBody := downBody 100 (by decide)

theorem collectsPrice_iff_half :
    ∃ agreement ∈ (linkRun exactRuntime halfDown).2.1.installmentAgreements, ∃ link plan, agreement.id = "5" ∧
      installmentDb.Agreed exactRuntime "l" halfDown agreement link plan ∧
        (0 < link.amount → 0 ≤ plan.annualInterestRate → (agreement.CollectsPrice plan link.amount ↔
          0 < plan.annualInterestRate ∨ plan.SharesEvenly link.amount halfDown.downPaymentAmount)) :=
  collectsPrice_iff rfl (linkRun_eq (by decide +kernel : (linkRun exactRuntime halfDown).1.toOption = some ⟨2, some "5"⟩)) rfl

/-- The whole price is paid down, and the second charge is the whole price again. -/
theorem not_collectsPrice : ¬ ∀ {rt : Runtime} {slug : String} {body : PayBody} {db db' : Db} {w w' : World}
    {paid : PaidLink} {agreementId : String}, rt.arithmetic = .exact → (payLink rt slug body).run db w = (.ok paid, db', w') →
      paid.agreementId = some agreementId → ∀ agreement ∈ db'.installmentAgreements, agreement.id = agreementId →
        ∀ link plan, db.Agreed rt slug body agreement link plan → 0 < link.amount → 0 ≤ plan.annualInterestRate →
          agreement.CollectsPrice plan link.amount := by
  intro h
  have hrun := linkRun_eq (by decide +kernel : (linkRun exactRuntime wholeDown).1.toOption = some ⟨2, some "5"⟩)
  have hyields : (payLink exactRuntime "l" wholeDown).Yields checkouts _ installmentDb [] :=
    yields_payLink_agreement "l" wholeDown
  obtain ⟨_, -, hagreement⟩ := hyields.run hrun
  obtain ⟨agreement, hmem, link, plan, hid, hagreed⟩ := hagreement _ rfl "5" rfl
  obtain ⟨planId, hnamed, hactive⟩ := hagreed.named
  obtain rfl := Option.some.inj hnamed
  have hlink := Option.some.inj (hagreed.ofSlug.symm.trans (by decide +kernel :
    installmentDb.linkOfSlug "l" = some
      { id := 3, tenantId := 1, slug := "l", amount := 10000, currency := .mad, status := .active, isInstallment := true }))
  subst hlink
  have hplan := Option.some.inj (hactive.symm.trans (by decide +kernel : installmentDb.activePlan 1 "p" = some
    { id := "p", tenantId := 1, durationMonths := 2, annualInterestRate := 0, minAmount := none, maxAmount := none,
      isActive := true }))
  subst hplan
  have htotal : ∀ a ∈ (linkRun exactRuntime wholeDown).2.1.installmentAgreements, a.total = 20000 := by decide +kernel
  have hexceeds := (h rfl hrun rfl agreement hmem hid _ _ hagreed (by decide) (by decide)).exceeds rfl
  rw [htotal agreement hmem] at hexceeds
  exact absurd hexceeds (by decide)

end CorpoPay.Settlement
