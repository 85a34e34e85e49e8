import CorpoPay.Settlement.IntentRoutes
import CorpoPay.Settlement.Lemmas.FreshIds
import CorpoPay.Settlement.Lemmas.Requests
import CorpoPay.Transaction.Log

/-!
# A checkout

A request that creates an intent opens one session at the provider, and leaves one row that waits for the customer.
-/

namespace CorpoPay.Settlement

open Transaction.Tx
open Transaction (Log)
open Transaction.Job (Yields yields_ret yields_throw yields_get yields_query yields_transaction yields_bind
  yields_ofExcept_bind)

/-- The checkout sessions that the providers opened. -/
def checkouts : Log Backend CheckoutSession where
  entries := World.charges
  adds
    | .createCheckoutSession session, .ok _ => [session]
    | _, _ => []
  entries_reply w q := by
    cases q with
    | createCheckoutSession session =>
        simp only [World.reply]
        cases w.oracle w.clock (.createCheckoutSession session) with
        | ok result => rfl
        | error message => exact (List.append_nil _).symm
    | _ => exact (List.append_nil _).symm

section Checkout

variable {rt : Runtime} {db : Db} {es : List CheckoutSession}

/-- The row is there, and no other one has its id. -/
def Db.Sole (db : Db) (row : PaymentIntent) : Prop :=
  row ∈ db.paymentIntents ∧ ∀ r ∈ db.paymentIntents, r.id = row.id → r = row

theorem Db.Sole.append {row : PaymentIntent} (h : ∀ r ∈ db.paymentIntents, r.id ≠ row.id) :
    ({ db with paymentIntents := db.paymentIntents ++ [row] } : Db).Sole row := by
  refine ⟨List.mem_append_right _ (List.mem_singleton_self row), fun r hr hid => ?_⟩
  rcases List.mem_append.mp hr with hr | hr
  · exact absurd hid (h r hr)
  · exact List.mem_singleton.mp hr

theorem Db.Sole.of_eq {db' : Db} {row : PaymentIntent} (h : db.Sole row)
    (heq : db'.paymentIntents = db.paymentIntents) : db'.Sole row := by
  rw [Db.Sole, heq]
  exact h

theorem Db.Sole.update {db' : Db} {row : PaymentIntent} {f : PaymentIntent → PaymentIntent} (h : db.Sole row)
    (hf : (f row).id = row.id)
    (heq : db'.paymentIntents = db.paymentIntents.map fun r => if r.id = row.id then f r else r) : db'.Sole (f row) := by
  constructor
  · rw [heq]
    exact List.mem_map.mpr ⟨row, h.1, if_pos rfl⟩
  · intro r' hr' hid
    rw [heq] at hr'
    obtain ⟨r, hr, rfl⟩ := List.mem_map.mp hr'
    split_ifs at hid ⊢ with hrow
    · rw [h.2 r hr hrow]
    · exact absurd (hid.trans hf) hrow

theorem yields_scoreRisk (t : Id) (amountCents : Int) :
    (scoreRisk t amountCents).Yields checkouts (fun _ db' es' => db' = db ∧ es' = es) db es := by
  refine yields_bind (yields_query (R := fun _ db' es' => db' = db ∧ es' = es) fun _ => ⟨rfl, List.append_nil _⟩) ?_
  rintro verdict db' es' ⟨rfl, rfl⟩
  dsimp only
  split_ifs
  · exact yields_throw _
  · exact yields_ret ⟨rfl, rfl⟩

theorem yields_lockFx (t : Id) (currency : String) :
    (lockFx t currency).Yields checkouts (fun _ db' es' => db' = db ∧ es' = es) db es := by
  refine yields_bind (yields_get (R := fun _ db' es' => db' = db ∧ es' = es) ⟨rfl, rfl⟩) ?_
  rintro settlementCurrency db₁ es₁ ⟨rfl, rfl⟩
  split
  · exact yields_ret ⟨rfl, rfl⟩
  · split_ifs
    · exact yields_ret ⟨rfl, rfl⟩
    · refine yields_bind (yields_bind (yields_query (R := fun _ db' es' => db' = db₁ ∧ es' = es₁)
        fun _ => ⟨rfl, List.append_nil _⟩) ?_) fun _ _ _ h => yields_ret h
      rintro issuedAt db₂ es₂ ⟨rfl, rfl⟩
      exact yields_bind (yields_query (R := fun _ db' es' => db' = db₂ ∧ es' = es₂) fun _ => ⟨rfl, List.append_nil _⟩)
        fun _ _ _ h => yields_ret h

theorem yields_createIntent (row : Id → String → Nat → PaymentIntent) (hrow : ∀ id c n, (row id c n).id = id) :
    (transaction (PaymentIntent.create row)).Yields checkouts (fun r db' es' => (∃ id c n, r = row id c n) ∧
      db'.Sole r ∧ db'.toConfig = db.toConfig ∧ db'.paymentLinks = db.paymentLinks ∧
      db'.installmentPlans = db.installmentPlans ∧ es' = es) db es := by
  refine yields_transaction ?_ ?_
  · refine asks_bind ((asks_query _).mpr fun _ => rfl) fun _ => asks_bind ((asks_query _).mpr fun _ => rfl) fun _ =>
      asks_bind ((asks_query _).mpr fun _ => rfl) fun _ => asks_bind (asks_get _) fun taken => ?_
    cases taken
    · exact asks_bind (asks_modify _) fun _ => asks_ret _
    · exact asks_throw _
  · simp only [PaymentIntent.create, bind_eq, pure_eq, ensures_bind, ensures_get, ensures_ite, ensures_throw,
      ensures_modify, ensures_ret]
    refine fun id c n => ⟨fun _ => trivial, fun hfree => ⟨⟨id, c, n, rfl⟩, .append fun r hr hid => hfree ?_, rfl, rfl, rfl,
      trivial⟩⟩
    rw [hrow] at hid
    exact List.any_eq_true.mpr ⟨r, hr, decide_eq_true (.inl hid)⟩

theorem yields_updateIntent {row : PaymentIntent} (f : PaymentIntent → PaymentIntent) (hrow : db.Sole row)
    (hf : (f row).id = row.id) :
    (transaction (PaymentIntent.update row.id f)).Yields checkouts (fun _ db' es' => db'.Sole (f row) ∧
      db'.paymentLinks = db.paymentLinks ∧ es' = es) db es := by
  refine yields_transaction (asks_intentUpdate _ _) ?_
  simp only [PaymentIntent.update, bind_eq, pure_eq, ensures_bind, ensures_acquire, ensures_get]
  cases db.paymentIntent row.id with
  | none => trivial
  | some found => exact ⟨hrow.update hf rfl, rfl, trivial⟩

/-- The session `session` is opened, and the intent waits with its terms. -/
structure Opened (session : CheckoutSession) (linkId : Option Id) (metadata : Option Json) (es : List CheckoutSession)
    (id : Id) (db' : Db) (es' : List CheckoutSession) : Prop where
  logged : es' = es ++ [session]
  waits : ∃ row, db'.Sole row ∧ row.id = id ∧ row.status = .requiresAction ∧ row.correlationId = session.correlationId ∧
    row.paymentLinkId = linkId ∧ row.metadata = metadata

theorem yields_openCheckout {row : PaymentIntent} {session : CheckoutSession} {id : Id}
    {metadata : Option Json → Option Json} (hrow : db.Sole row) (hid : row.id = id)
    (hcorrelation : row.correlationId = session.correlationId) :
    (openCheckout session id metadata).Yields checkouts (fun _ db' es' => db'.paymentLinks = db.paymentLinks ∧
      Opened session row.paymentLinkId (metadata row.metadata) es id db' es') db es := by
  subst hid
  refine yields_bind (yields_query (R := fun answer db' es' => db' = db ∧ es' = es ++ checkouts.adds _ answer)
    fun _ => ⟨rfl, rfl⟩) ?_
  rintro answer db₁ es₁ ⟨rfl, rfl⟩
  cases answer with
  | error message => exact yields_throw _
  | ok result =>
      refine yields_bind (?_ : Transaction.Job.Yields checkouts (fun _ db' es' => db'.paymentLinks = db₁.paymentLinks ∧
        Opened session row.paymentLinkId (metadata row.metadata) es row.id db' es') _ _ _) fun _ _ _ h => yields_ret h
      refine yields_transaction (asks_bind (asks_intentUpdate _ _) fun _ =>
        asks_bind (asks_transactionCreate (fun _ => rfl) _) fun _ => asks_ret _) ?_
      simp only [PaymentIntent.update, ProviderTransaction.create, bind_eq, pure_eq, ensures_bind, ensures_acquire,
        ensures_get]
      cases db₁.paymentIntent row.id with
      | none => trivial
      | some found =>
          simp only [ensures_bind, ensures_modify, ensures_ret, ensures_ite, ensures_throw]
          let f : PaymentIntent → PaymentIntent := fun r =>
            { r with
              status := .requiresAction
              providerRef := some result.providerRef
              providerData := some result.stored
              metadata := metadata r.metadata }
          exact fun id => ⟨fun _ => trivial, fun _ =>
            ⟨rfl, rfl, f row, hrow.update (f := f) rfl rfl, rfl, rfl, hcorrelation, rfl, rfl⟩⟩

/-! ## `POST /payment-intents` -/

/-- A field is what was set last. -/
theorem find?_setField (fields : List (String × Json)) (field : String × Json) (key : String) :
    (setField fields field).find? (·.1 = key) = if field.1 = key then some field else fields.find? (·.1 = key) := by
  have hsame : ∀ fields : List (String × Json), (∃ f ∈ fields, f.1 = field.1) →
      (fields.map fun f => if f.1 = field.1 then field else f).find? (·.1 = field.1) = some field := by
    intro fields h
    induction fields with
    | nil => simp at h
    | cons f fields ih =>
        by_cases hf : f.1 = field.1
        · simp [hf]
        · have hrest : ∃ g ∈ fields, g.1 = field.1 := by simpa [hf] using h
          simpa [hf] using ih hrest
  have hother : field.1 ≠ key → ∀ fields : List (String × Json),
      (fields.map fun f => if f.1 = field.1 then field else f).find? (·.1 = key) = fields.find? (·.1 = key) := by
    intro hkey fields
    induction fields with
    | nil => rfl
    | cons f fields ih =>
        rw [List.map_cons, List.find?_cons, List.find?_cons, ih]
        by_cases hf : f.1 = field.1 <;> simp [hf, hkey]
  unfold setField
  split_ifs with hany hkey hkey
  · obtain ⟨f, hf, hname⟩ := List.any_eq_true.mp hany
    rw [← hkey]
    exact hsame fields ⟨f, hf, of_decide_eq_true hname⟩
  · exact hother hkey fields
  · have hnone : fields.find? (·.1 = key) = none := List.find?_eq_none.mpr fun f hf hfkey => hany
      (List.any_eq_true.mpr ⟨f, hf, by simpa [hkey] using hfkey⟩)
    rw [List.find?_append, hnone]
    simp [hkey]
  · rw [List.find?_append]
    simp [hkey]

/-- A field of what an intent keeps of its request. -/
theorem metadataOr_stored {row : PaymentIntent} {body : CreateIntentBody} (h : row.metadata = some body.stored)
    {key : String} {value : Json} (hvalue : body.stored.coalesce [key] = .ok (some value)) (fallback : Json) :
    row.metadataOr key fallback = value := by
  have hobj : ∃ fields, body.stored = .obj fields := ⟨_, rfl⟩
  obtain ⟨fields, hfields⟩ := hobj
  rw [hfields] at hvalue h
  simp [PaymentIntent.metadataOr, h, hvalue]

theorem metadataOr_stored_amount {row : PaymentIntent} {body : CreateIntentBody} (h : row.metadata = some body.stored) :
    ∀ fallback, row.metadataOr "amount" fallback = .num body.amount :=
  metadataOr_stored h (by simp [CreateIntentBody.stored, Json.coalesce, Json.get, find?_setField, Json.isNull])

theorem metadataOr_stored_currency {row : PaymentIntent} {body : CreateIntentBody} (h : row.metadata = some body.stored) :
    ∀ fallback, row.metadataOr "currency" fallback = .str body.currency :=
  metadataOr_stored h (by simp [CreateIntentBody.stored, Json.coalesce, Json.get, find?_setField, Json.isNull])

theorem yields_openIntent (t : Id) (body : CreateIntentBody) (config : ProviderConfig) :
    (openIntent rt t body config).Yields checkouts (fun created db' es' => ∃ session, session.amount = body.amount ∧
      session.currency = body.currency ∧ Opened session none (some body.stored) es created.intentId db' es') db es := by
  refine yields_bind (yields_scoreRisk _ _) ?_
  rintro verdict db₁ es₁ ⟨rfl, rfl⟩
  refine yields_bind (yields_lockFx _ _) ?_
  rintro fx db₁' es₁' ⟨rfl, rfl⟩
  refine yields_bind (yields_createIntent _ fun _ _ _ => rfl) ?_
  rintro intent db₂ es₂ ⟨⟨id, c, n, rfl⟩, hsole, -, -, -, rfl⟩
  refine yields_ofExcept_bind fun _ _ => yields_bind (yields_openCheckout hsole rfl rfl) ?_
  exact fun _ db₃ es₃ hopened => yields_ret ⟨_, rfl, rfl, hopened.2⟩

theorem yields_createRoute (t : Id) (body : CreateIntentBody) :
    (createIntent rt t body).Yields checkouts (fun created db' es' => created.idempotent = false →
      ∃ session, session.amount = body.amount ∧ session.currency = body.currency ∧
        Opened session none (some body.stored) es created.intentId db' es') db es := by
  refine yields_bind (yields_get (R := fun _ db' es' => db' = db ∧ es' = es) ⟨rfl, rfl⟩) ?_
  rintro config db₁ es₁ ⟨rfl, rfl⟩
  split
  · exact yields_throw _
  · refine yields_bind (yields_query (R := fun _ db' es' => db' = db₁ ∧ es' = es₁) fun _ => ⟨rfl, List.append_nil _⟩) ?_
    rintro now db₂ es₂ ⟨rfl, rfl⟩
    refine yields_bind (yields_get (R := fun _ db' es' => db' = db₂ ∧ es' = es₂) ⟨rfl, rfl⟩) ?_
    rintro existing db₃ es₃ ⟨rfl, rfl⟩
    dsimp only
    split
    · exact yields_ret fun h => by cases h
    · exact (yields_openIntent t body _).mono fun r db' es' h created hr _ => h created hr

/-! ## `POST /public/checkout/:slug/pay` -/

/-- What a request on a link asks the provider for. -/
inductive Db.LinkCharges (rt : Runtime) (db : Db) (link : PaymentLink) (body : PayBody) (amount : Int) : Prop
  | full (hplan : body.planId = none) (hamount : amount = link.amount)
  | down {planId : String} {plan : InstallmentPlan} {standardInstallment : Int} (hplan : body.planId = some planId)
      (hactive : db.activePlan link.tenantId planId = some plan)
      (hstandard : computeInstallmentAmount rt.arithmetic link.amount (rt.arithmetic.round plan.annualInterestRate)
        plan.durationMonths = .ok standardInstallment)
      (hamount : amount = toCentimes rt.arithmetic (major rt.arithmetic
        (capDownPayment rt.arithmetic link.amount standardInstallment body.downPaymentAmount)))

/-- A request on a link opens a session. Only an intent without metadata is held. -/
structure Db.OpenedLink (rt : Runtime) (db : Db) (link : PaymentLink) (body : PayBody) (session : CheckoutSession)
    (es : List CheckoutSession) (id : Id) (db' : Db) (es' : List CheckoutSession) : Prop where
  charged : db.LinkCharges rt link body session.amount
  currency : session.currency = link.currency.code
  opened : ∃ metadata, (session.isPreauth = true → metadata = none) ∧ Opened session (some link.id) metadata es id db' es'

theorem yields_payFull (link : PaymentLink) {body : PayBody} (hplan : body.planId = none) :
    (payFull link).Yields checkouts (fun paid db' es' => db'.paymentLinks = db.paymentLinks ∧
      ∃ session, db.OpenedLink rt link body session es paid.intentId db' es') db es := by
  refine yields_bind (yields_scoreRisk _ _) ?_
  rintro verdict db₁ es₁ ⟨rfl, rfl⟩
  refine yields_bind (yields_createIntent _ fun _ _ _ => rfl) ?_
  rintro intent db₂ es₂ ⟨⟨id, c, n, rfl⟩, hsole, -, hlinks, -, rfl⟩
  refine yields_bind (yields_openCheckout hsole rfl rfl) ?_
  rintro _ db₃ es₃ ⟨hlinks₃, hopened⟩
  exact yields_ret ⟨hlinks₃.trans hlinks, _, .full hplan rfl, rfl, none, fun _ => rfl, hopened⟩

theorem yields_createAgreement (row : String → InstallmentAgreement) :
    (transaction (InstallmentAgreement.create row)).Yields checkouts (fun _ db' es' =>
      db'.paymentIntents = db.paymentIntents ∧ db'.paymentLinks = db.paymentLinks ∧ es' = es) db es := by
  refine yields_transaction ?_ ?_
  · refine asks_bind ((asks_query _).mpr fun _ => rfl) fun _ => asks_bind (asks_acquire _) fun _ =>
      asks_bind (asks_get _) fun taken => ?_
    cases taken
    · exact asks_bind (asks_modify _) fun _ => asks_ret _
    · exact asks_throw _
  · simp only [InstallmentAgreement.create, bind_eq, pure_eq, ensures_bind, ensures_acquire, ensures_get, ensures_ite,
      ensures_throw, ensures_modify, ensures_ret]
    exact fun id => ⟨fun _ => trivial, fun _ => ⟨rfl, rfl, trivial⟩⟩

theorem InstallmentPlan.terms_downPayment {a : Data.Arithmetic} {plan : InstallmentPlan} {principal : Int} {asked : Option Rat}
    {terms : InstallmentTerms} (h : plan.terms a principal asked = .ok terms) :
    ∃ standardInstallment,
      computeInstallmentAmount a principal (a.round plan.annualInterestRate) plan.durationMonths = .ok standardInstallment ∧
        terms.downPayment = capDownPayment a principal standardInstallment asked := by
  obtain ⟨_, -, h⟩ := Except.bind_eq_ok h
  obtain ⟨standardInstallment, hstandard, h⟩ := Except.bind_eq_ok h
  refine ⟨standardInstallment, hstandard, ?_⟩
  dsimp only at h
  split_ifs at h
  all_goals
    obtain ⟨_, -, h⟩ := Except.bind_eq_ok h
    cases h
    rfl

theorem yields_payDown {link : PaymentLink} {plan : InstallmentPlan} {body : PayBody} {planId : String}
    (hplan : body.planId = some planId) (hactive : db.activePlan link.tenantId planId = some plan) :
    (payDown rt link plan body).Yields checkouts (fun paid db' es' => db'.paymentLinks = db.paymentLinks ∧
      ∃ session, db.OpenedLink rt link body session es paid.intentId db' es') db es := by
  refine yields_ofExcept_bind fun terms hterms => yields_bind (yields_scoreRisk _ _) ?_
  rintro verdict db₁ es₁ ⟨rfl, rfl⟩
  obtain ⟨standardInstallment, hstandard, hdown⟩ := InstallmentPlan.terms_downPayment hterms
  refine yields_bind (yields_createIntent _ fun _ _ _ => rfl) ?_
  rintro intent db₂ es₂ ⟨⟨id, c, n, rfl⟩, hsole, -, hlinks, -, rfl⟩
  refine yields_bind (yields_createAgreement _) ?_
  rintro agreement db₃ es₃ ⟨hintents₃, hlinks₃, rfl⟩
  refine yields_bind (yields_updateIntent _ (hsole.of_eq hintents₃) rfl) ?_
  rintro _ db₄ es₄ ⟨hsole₄, hlinks₄, rfl⟩
  refine yields_bind (yields_openCheckout hsole₄ rfl rfl) ?_
  rintro _ db₅ es₅ ⟨hlinks₅, hopened⟩
  refine yields_ret ⟨hlinks₅.trans (hlinks₄.trans (hlinks₃.trans hlinks)), _,
    .down hplan hactive hstandard (congrArg (fun d => toCentimes rt.arithmetic (major rt.arithmetic d)) hdown), rfl, _, ?_,
    hopened⟩
  exact fun h => by cases h

theorem yields_bumpAttempts (link : PaymentLink) :
    (transaction link.bumpAttempts).Yields checkouts (fun _ db' es' =>
      (∀ id, (db'.paymentLink id).map PaymentLink.price = (db.paymentLink id).map PaymentLink.price) ∧
        db'.installmentPlans = db.installmentPlans ∧ es' = es) db es := by
  refine yields_transaction (asks_bind (asks_acquire _) fun _ => asks_bind (asks_get _) fun isOpen => ?_) ?_
  · cases isOpen
    · exact asks_ret _
    · exact asks_bind (asks_modify _) fun _ => asks_ret _
  · simp only [PaymentLink.bumpAttempts, bind_eq, pure_eq, ensures_bind, ensures_acquire, ensures_get, ensures_ite,
      ensures_modify, ensures_ret]
    refine ⟨fun _ => ⟨fun id => prices_map (fun r => ?_) db.paymentLinks id, trivial, trivial⟩,
      fun _ => ⟨fun _ => trivial, trivial, trivial⟩⟩
    split_ifs <;> exact ⟨rfl, rfl⟩

theorem yields_payChecked (link : PaymentLink) (body : PayBody) :
    (payChecked rt link body).Yields checkouts (fun paid db' es' => db'.paymentLinks = db.paymentLinks ∧
      ∃ session, db.OpenedLink rt link body session es paid.intentId db' es') db es := by
  refine yields_bind (yields_get (R := fun _ db' es' => db' = db ∧ es' = es) ⟨rfl, rfl⟩) ?_
  rintro config db₁ es₁ ⟨rfl, rfl⟩
  split
  · exact yields_throw _
  · refine yields_ofExcept_bind fun _ _ => yields_ofExcept_bind fun _ _ => ?_
    split
    · rename_i hplan
      exact yields_payFull link hplan
    · rename_i planId hplan
      refine yields_bind (yields_get (R := fun found db' es' => found = db₁.activePlan link.tenantId planId ∧ db' = db₁ ∧
        es' = es₁) ⟨rfl, rfl, rfl⟩) ?_
      rintro found db₂ es₂ ⟨hfound, rfl, rfl⟩
      cases found with
      | none => exact yields_throw _
      | some plan => exact yields_payDown hplan hfound.symm

theorem yields_payLink (slug : String) (body : PayBody) :
    (payLink rt slug body).Yields checkouts (fun paid db' es' =>
      (∀ id, (db'.paymentLink id).map PaymentLink.price = (db.paymentLink id).map PaymentLink.price) ∧
        ∃ link session, db.linkOfSlug slug = some link ∧ db.OpenedLink rt link body session es paid.intentId db' es') db es := by
  refine yields_bind (yields_get (R := fun found db' es' => found = db.linkOfSlug slug ∧ db' = db ∧ es' = es)
    ⟨rfl, rfl, rfl⟩) ?_
  rintro found db₁ es₁ ⟨hfound, rfl, rfl⟩
  cases found with
  | none => exact yields_throw _
  | some link =>
      refine yields_bind (yields_get (R := fun _ db' es' => db' = db₁ ∧ es' = es₁) ⟨rfl, rfl⟩) ?_
      rintro tenant db₂ es₂ ⟨rfl, rfl⟩
      refine yields_bind (yields_query (R := fun _ db' es' => db' = db₂ ∧ es' = es₂) fun _ => ⟨rfl, List.append_nil _⟩) ?_
      rintro now db₃ es₃ ⟨rfl, rfl⟩
      refine yields_ofExcept_bind fun _ _ => yields_bind (yields_bumpAttempts link) ?_
      rintro bumped db₄ es₄ ⟨hprices, hplans, rfl⟩
      dsimp only
      split_ifs
      · refine (yields_payChecked link body).mono fun r db' es' h paid hr => ?_
        obtain ⟨hlinks, session, hcharged, hcurrency, hopened⟩ := h paid hr
        refine ⟨fun id => ?_, link, session, hfound.symm, ?_, hcurrency, hopened⟩
        · rw [Db.paymentLink, hlinks]
          exact hprices id
        · cases hcharged with
          | full hplan hamount => exact .full hplan hamount
          | down hplan hactive hstandard hamount =>
              rw [Db.activePlan, hplans] at hactive
              exact .down hplan hactive hstandard hamount
      · exact yields_throw _

end Checkout

end CorpoPay.Settlement
