import CorpoPay.Settlement.Lemmas.Charges
import CorpoPay.Settlement.Lemmas.ChargeTerms
import CorpoPay.Settlement.Lemmas.Checkout
import CorpoPay.Settlement.Lemmas.Installments

/-!
# The booked amount and the charged amount

A checkout asks the provider for an amount. A settlement and a refund resolve the amount of the intent again, from its
link or its metadata. A down payment is in neither of them.
-/

namespace CorpoPay.Settlement

open Transaction.Tx
open Transaction (Log Pool)
open Transaction.Job (Logs.mono Logs.of_does logs_bind logs_get logs_query logs_ofExcept_bind yields_ret yields_bind)

/-! ## Logs -/

/-- The refunds that the providers made. -/
def refundCommands : Log Backend PaymentCommand where
  entries := World.refunds
  adds
    | .refund command, .ok result => if result.success then [command] else []
    | _, _ => []
  entries_reply w q := by
    cases q with
    | refund command =>
        simp only [World.reply]
        cases w.oracle w.clock (.refund command) with
        | ok result =>
            dsimp only
            split_ifs
            · rfl
            · exact (List.append_nil _).symm
        | error message => exact (List.append_nil _).symm
    | _ => exact (List.append_nil _).symm

/-! ## What an intent charges -/

/-- The intent is there, and charges `charge`. -/
structure Db.Holds (rt : Runtime) (db : Db) (id : Id) (correlationId : String) (charge : Charge) : Prop where
  found : ∃ r ∈ db.paymentIntents, r.id = id
  terms : ∀ r ∈ db.paymentIntents, r.id = id →
    r.correlationId = correlationId ∧ resolveIntentCharge rt (db.withLink r) = charge

section Terms

variable {rt : Runtime} {db : Db} {id : Id} {correlationId : String} {charge : Charge}

theorem KeepsTerms.holds {v : Db → Db} (h : KeepsTerms v) (hdb : db.Holds rt id correlationId charge) :
    (v db).Holds rt id correlationId charge := by
  obtain ⟨⟨f, hintents, hf⟩, hprices⟩ := h
  have hid : ∀ r, (f r).id = r.id := fun r => by rw [hf r]
  constructor
  · obtain ⟨r, hr, hrid⟩ := hdb.found
    exact ⟨f r, by rw [hintents]; exact List.mem_map_of_mem hr, (hid r).trans hrid⟩
  · intro r' hr' hrid
    rw [hintents] at hr'
    obtain ⟨r, hr, rfl⟩ := List.mem_map.mp hr'
    obtain ⟨hcorrelation, hcharge⟩ := hdb.terms r hr ((hid r).symm.trans hrid)
    refine ⟨by rw [hf r]; exact hcorrelation, ?_⟩
    rw [← hcharge]
    exact resolveIntentCharge_eq (by rw [hf r]) (by rw [hf r]) (hprices db)

/-- What the intent charges stays, whatever requests run beside each other. -/
theorem Db.Holds.stays {ι : Type} [DecidableEq ι] {requests : ι → Request} {w : World} {p : Pool Backend ι Unit}
    (h : db.Holds rt id correlationId charge)
    (hp : Pool.Reachable (Pool.init (fun i => (requests i).job rt) db w) p) :
    p.shared.store.Holds rt id correlationId charge :=
  Pool.inv_of_does (J := fun σ : Transaction.Shared Backend => σ.store.Holds rt id correlationId charge)
    (fun i => keepsTerms_request (requests i)) (fun _ _ hw hσ => hw.holds hσ) (fun _ _ _ hσ => hσ) h hp

end Terms

/-! ## A checkout -/

section Checkout

variable {rt : Runtime} {db : Db} {es : List CheckoutSession}

theorem Db.Sole.holds {row : PaymentIntent} {charge : Charge} (h : db.Sole row)
    (hcharge : resolveIntentCharge rt (db.withLink row) = charge) : db.Holds rt row.id row.correlationId charge :=
  ⟨⟨row, h.1, rfl⟩, fun r hr hid => by rw [h.2 r hr hid]; exact ⟨rfl, hcharge⟩⟩

/-- The charge of a request is what its metadata keeps of it. -/
theorem resolveIntentCharge_stored (hnumber : ∀ n : Int, rt.toNumber (.num n) = some n) {row : PaymentIntent}
    (hlink : row.paymentLinkId = none) {body : CreateIntentBody} (hmetadata : row.metadata = some body.stored) :
    resolveIntentCharge rt (db.withLink row) = ⟨some body.amount, .str body.currency⟩ := by
  have hamount := metadataOr_stored_amount hmetadata (.num 0)
  have hcurrency := metadataOr_stored_currency hmetadata (.str Currency.mad.code)
  simp [resolveIntentCharge, Db.withLink, hlink, hamount, hcurrency, hnumber]

theorem resolveIntentCharge_link {row : PaymentIntent} {link : PaymentLink} (hrow : row.paymentLinkId = some link.id)
    (hlink : (db.paymentLink link.id).map PaymentLink.price = some link.price) :
    resolveIntentCharge rt (db.withLink row) = ⟨some link.amount, .str link.currency.code⟩ := by
  obtain ⟨found, hfound, hprice⟩ := Option.map_eq_some_iff.mp hlink
  obtain ⟨hamount, hcurrency⟩ := Prod.mk.inj hprice
  simp only [resolveIntentCharge, Db.withLink, hrow, Option.bind_some, hfound, hamount, hcurrency]

/-- A row is found by its primary key. -/
theorem paymentLink_of_mem (hlinks : (db.paymentLinks.map (·.id)).Nodup) {link : PaymentLink}
    (hmem : link ∈ db.paymentLinks) : db.paymentLink link.id = some link := by
  unfold Db.paymentLink
  cases hfound : db.paymentLinks.find? (·.id = link.id) with
  | none => simpa using List.find?_eq_none.mp hfound link hmem
  | some found =>
      have hid : found.id = link.id := by simpa using List.find?_some hfound
      rw [Data.eq_of_key hlinks (List.mem_of_find?_eq_some hfound) hmem hid]

/-- The intent charges what its link or its metadata says. -/
theorem Opened.holds {session : CheckoutSession} {linkId : Option Id} {metadata : Option Json} {id : Id} {db' : Db}
    {es' : List CheckoutSession} {charge : Charge} (h : Opened session linkId metadata es id db' es')
    (hcharge : ∀ row : PaymentIntent, row.paymentLinkId = linkId → row.metadata = metadata →
      resolveIntentCharge rt (db'.withLink row) = charge) : db'.Holds rt id session.correlationId charge := by
  obtain ⟨-, row, hrow, rfl, -, hcorrelation, hlink, hmetadata⟩ := h
  exact hcorrelation ▸ hrow.holds (hcharge row hlink hmetadata)

end Checkout

/-! ## What is booked and refunded -/

/-- What is booked for the intent, and what the provider is asked to return, is as `P` says. -/
structure Db.Moves (rt : Runtime) (db : Db) (intent : PaymentIntent) (P : Int → Json → Prop) : Prop where
  booked : ∀ {w db' w'}, (settleCharge intent.tenantId intent.id (resolveIntentCharge rt (db.withLink intent))).run db w =
    (.ok true, db', w') → ∃ ms, db'.movements = db.movements ++ ms ∧
      (∃ m ∈ ms, m.isCaptureOf intent.tenantId intent.id) ∧
      ∀ m ∈ ms, m.isCaptureOf intent.tenantId intent.id → P m.amount (.str m.currency.code)
  refunded : ∀ {w r db' w'}, (refundRoute rt intent.tenantId intent.id).run db w = (r, db', w') →
    ∃ commands, w'.refunds = w.refunds ++ commands ∧ ∀ command ∈ commands, P command.amount command.currency

section Moves

variable {rt : Runtime} {db db' : Db} {w w' : World} {t id : Id} {amount : Int} {currency : String}

theorem Db.Moves.mono {intent : PaymentIntent} {P P' : Int → Json → Prop} (h : db.Moves rt intent P)
    (hP : ∀ amount currency, P amount currency → P' amount currency) : db.Moves rt intent P' where
  booked hrun := by
    obtain ⟨ms, hms, hcapture, hall⟩ := h.booked hrun
    exact ⟨ms, hms, hcapture, fun m hm hc => hP _ _ (hall m hm hc)⟩
  refunded hrun := by
    obtain ⟨commands, hcommands, hall⟩ := h.refunded hrun
    exact ⟨commands, hcommands, fun command hc => hP _ _ (hall command hc)⟩

/-- The gross is the amount of the charge. -/
theorem settleCharge_gross (h : (settleCharge t id ⟨some amount, .str currency⟩).run db w = (.ok true, db', w')) :
    ∃ ms, db'.movements = db.movements ++ ms ∧ (∃ m ∈ ms, m.isCaptureOf t id) ∧
      ∀ m ∈ ms, m.isCaptureOf t id → m.amount = amount ∧ m.currency.code = currency := by
  cases hinput : Charge.input ⟨some amount, .str currency⟩ id with
  | none => exact absurd rfl ((settleCharge_eq t hinput).run w h).1
  | some input =>
      rw [settleCharge_input t hinput] at h
      rcases settleCapture_run h with ⟨-, -, -, cp, -, hbooked⟩ | ⟨hne, -⟩
      · unfold Charge.input at hinput
        split at hinput
        · rename_i cents found hcents hfound
          cases hinput
          cases hcents
          have hcode : found.code = currency := by
            have hstr := List.find?_some hfound
            simpa [Json.isStr, eq_comm] using hstr
          refine ⟨_, hbooked.movements_eq, ?_, fun m hm hc => ?_⟩
          · exact List.any_eq_true.mp (by rw [any_capture]; simp)
          · obtain ⟨-, -, hamount, hcurrency⟩ := (mem_capture hm).2 hc
            exact ⟨hamount, hcurrency ▸ hcode⟩
        · cases hinput
      · exact absurd rfl hne

/-- The provider is asked to return the amount of the charge. -/
theorem logs_refundRoute {correlationId : String} (h : db.Holds rt id correlationId ⟨some amount, .str currency⟩) (t : Id) :
    (refundRoute rt t id).Logs refundCommands (fun _ _ commands => ∀ command ∈ commands,
      command.amount = amount ∧ command.currency = .str currency) db [] := by
  have hnone : ∀ command ∈ ([] : List PaymentCommand), command.amount = amount ∧ command.currency = .str currency :=
    fun _ hc => absurd hc List.not_mem_nil
  refine (logs_bind _ _).mpr ((logs_get _).mpr ?_)
  dsimp only
  split
  · exact hnone
  · rename_i intent refunds hfound
    obtain ⟨row, hrow, heq⟩ := Option.map_eq_some_iff.mp hfound
    obtain ⟨rfl, rfl⟩ := Prod.mk.inj heq
    have hrowId := List.find?_some hrow
    obtain ⟨-, hcharge⟩ := h.terms row (List.mem_of_find?_eq_some hrow) (of_decide_eq_true hrowId).1
    refine logs_ofExcept_bind (fun providerRef _ => ?_) fun _ _ => hnone
    refine (logs_bind _ _).mpr ((logs_get _).mpr ?_)
    dsimp only
    split
    · exact hnone
    · refine logs_ofExcept_bind (fun _ _ => ?_) fun _ _ => hnone
      refine logs_ofExcept_bind (fun charge hrefund => ?_) fun _ _ => hnone
      have hresolved : charge = (amount, .str currency) := by
        simp only [refundCharge, hcharge] at hrefund
        split at hrefund
        · cases hrefund
        · cases hrefund
        · rename_i cents _ hcents
          obtain rfl := Option.some.inj hcents
          exact (Except.ok.inj hrefund).symm
      subst hresolved
      refine logs_ofExcept_bind (fun text _ => ?_) fun _ _ => hnone
      refine (logs_bind _ _).mpr (Logs.of_does (does_openRefund (P := fun _ => True) (fun _ => rfl) _ _ _)
        fun r s' => ?_)
      cases r with
      | error e => exact hnone
      | ok refund =>
          refine (logs_bind _ _).mpr ((logs_query _).mpr fun answer => ?_)
          cases answer with
          | error message => exact hnone
          | ok result =>
              refine Logs.of_does (does_finishRefund (fun _ => rfl) (fun _ => rfl) _ _ _) fun _ _ command hc => ?_
              rcases List.mem_append.mp hc with hc | hc
              · exact hnone command hc
              · simp only [refundCommands] at hc
                split_ifs at hc
                · obtain rfl := List.mem_singleton.mp hc
                  exact ⟨rfl, rfl⟩
                · cases hc

theorem Db.Holds.moves {correlationId : String} (h : db.Holds rt id correlationId ⟨some amount, .str currency⟩)
    {intent : PaymentIntent} (hintent : intent ∈ db.paymentIntents) (hid : intent.id = id) :
    db.Moves rt intent fun cents code => cents = amount ∧ code = .str currency where
  booked hrun := by
    rw [(h.terms intent hintent hid).2] at hrun
    obtain ⟨ms, hms, hcapture, hall⟩ := settleCharge_gross hrun
    exact ⟨ms, hms, hcapture, fun m hm hc => (hall m hm hc).imp_right (congrArg Json.str)⟩
  refunded hrun := by
    subst hid
    obtain ⟨commands, hcommands, hall⟩ := (logs_refundRoute h intent.tenantId).run hrun
    exact ⟨commands, hcommands, hall⟩

end Moves

/-! ## Creation -/

/-- No part of the amount stays to be paid in installments: the request names no plan, or the down payment that it asks
for or the standard installment of the plan is the amount of the link up to rounding. -/
def CreationRequest.ChargesWhole (a : Data.Arithmetic) (db : Db) : CreationRequest → Prop
  | .direct _ _ => True
  | .link slug body => ∀ link ∈ db.linkOfSlug slug, ∀ planId ∈ body.planId, ∀ plan ∈ db.activePlan link.tenantId planId,
      ∀ standardInstallment,
        computeInstallmentAmount a link.amount (a.round plan.annualInterestRate) plan.durationMonths = .ok standardInstallment →
          link.amount ≤ standardInstallment ∨ ∃ x ∈ body.downPaymentAmount, (link.amount : Rat) - 1 / 2 ≤ a.round (x * 100)

theorem yields_creation {rt : Runtime} (hnumber : ∀ n : Int, rt.toNumber (.num n) = some n) {db : Db}
    (hlinks : (db.paymentLinks.map (·.id)).Nodup) (request : CreationRequest) {es : List CheckoutSession} :
    (request.job rt).Yields checkouts (fun created db' es' => created.idempotent = false → ∃ session amount,
      es' = es ++ [session] ∧
        db'.Holds rt created.intentId session.correlationId ⟨some amount, .str session.currency⟩ ∧
        (amount = session.amount ↔ request.ChargesWhole rt.arithmetic db)) db es := by
  cases request with
  | direct t body =>
      refine (yields_createRoute t body).mono fun r db' es' h created hr hnew => ?_
      obtain ⟨session, hamount, hcurrency, hopened⟩ := h created hr hnew
      refine ⟨session, body.amount, hopened.logged, hopened.holds fun row hlink hmetadata => ?_,
        iff_of_true hamount.symm trivial⟩
      rw [resolveIntentCharge_stored hnumber hlink hmetadata, hcurrency]
  | link slug body =>
      refine yields_bind (yields_payLink slug body) ?_
      rintro paid db' es' ⟨hprices, link, session, hfound, hcharged, hcurrency, metadata, -, hopened⟩
      have hprice : (db'.paymentLink link.id).map PaymentLink.price = some link.price := by
        rw [hprices, paymentLink_of_mem hlinks (List.mem_of_find?_eq_some hfound)]
        rfl
      refine yields_ret fun _ => ⟨session, link.amount, hopened.logged, hopened.holds fun row hlink _ => ?_, ?_⟩
      · rw [resolveIntentCharge_link hlink hprice, hcurrency]
      · cases hcharged with
        | full hplan hamount =>
            refine iff_of_true hamount.symm fun _ _ planId hplanId => ?_
            rw [hplan] at hplanId
            cases hplanId
        | @down planId plan standardInstallment hplan hactive hstandard hamount =>
            rw [hamount, eq_comm, charge_capDownPayment_eq_iff link.amount_lt]
            constructor
            · intro h link' hlink' planId' hplan' plan' hactive' standard' hstandard'
              obtain rfl := Option.some.inj (hfound.symm.trans hlink')
              obtain rfl := Option.some.inj (hplan.symm.trans hplan')
              obtain rfl := Option.some.inj (hactive.symm.trans hactive')
              obtain rfl := Except.ok.inj (hstandard.symm.trans hstandard')
              exact h
            · intro h
              exact h link hfound planId hplan plan hactive standardInstallment hstandard

/-- What is booked and refunded for an intent is what was charged for it exactly when the whole amount was. -/
theorem booked_as_charged_iff {rt : Runtime} (hnumber : ∀ n : Int, rt.toNumber (.num n) = some n)
    {request : CreationRequest} {db db' : Db} {w w' : World} {created : CreatedIntent}
    (hlinks : (db.paymentLinks.map (·.id)).Nodup) (hrun : (request.job rt).run db w = (.ok created, db', w'))
    (hnew : created.idempotent = false) :
    ∃ session, w'.charges = w.charges ++ [session] ∧
      ∀ {ι : Type} [DecidableEq ι] (requests : ι → Request) (w₀ : World) (p : Pool Backend ι Unit),
        Pool.Reachable (Pool.init (fun i => (requests i).job rt) db' w₀) p →
          ∃ intent ∈ p.shared.store.paymentIntents, intent.id = created.intentId ∧
            intent.correlationId = session.correlationId ∧ p.shared.store.Moves rt intent fun amount currency =>
              (amount = session.amount ∧ currency = .str session.currency ↔ request.ChargesWhole rt.arithmetic db) := by
  have hyields : (request.job rt).Yields checkouts _ db [] := yields_creation hnumber hlinks request
  obtain ⟨new, hnew', h⟩ := hyields.run hrun
  obtain ⟨session, amount, hes, hholds, hiff⟩ := h created rfl hnew
  obtain rfl := hes
  refine ⟨session, hnew', fun requests w₀ p hp => ?_⟩
  have hlater := hholds.stays hp
  obtain ⟨intent, hintent, hid⟩ := hlater.found
  refine ⟨intent, hintent, hid, (hlater.terms intent hintent hid).1, (hlater.moves hintent hid).mono ?_⟩
  rintro _ _ ⟨rfl, rfl⟩
  rw [← hiff]
  exact and_iff_left rfl

/-! ## A down payment -/

/-- A runtime where every row is decrypted to the same credentials. -/
def checkoutRuntime : Runtime where
  demoMode := false
  decryptCredentials _ := .ok (.obj [("secretKey", .str "sk")])
  newStripe _ := .ok ()
  constructEvent _ _ _ := false
  hmacSha256 _ _ := .error (.error "no key")
  sha256 _ := ""
  parseJson _ := .error (.error "no body")
  toUpperCase s := s
  toLowerCase s := s
  stringFilter value := .ok value.isStr
  nullableStringFilter value := .ok fun column => column.any value.isStr
  jsonEquals _ _ := false
  toNumber
    | .num n => some (roundRat n)
    | _ => none
  arithmetic := .correct

/-- A link over 100.00 that is paid in two months. -/
def installmentDb : Db :=
  { Db.empty { plainConfig with providerConfigs := [⟨1, .vps, "key of 1", .connected⟩] } with
    paymentLinks :=
      [{ id := 3, tenantId := 1, slug := "l", amount := 10000, currency := .mad, status := .active, isInstallment := true }]
    installmentPlans :=
      [{ id := "p", tenantId := 1, durationMonths := 2, annualInterestRate := 0, minAmount := none, maxAmount := none,
         isActive := true }] }

/-- A checkout with 50.00 down. -/
def downRequest : CreationRequest := .link "l" ⟨some "p", some 50, by simp⟩

def downRun : Except Failure CreatedIntent × Db × World := (downRequest.job checkoutRuntime).run installmentDb .counting

/-- The settlement of the intent after the checkout. -/
def settledDown (intent : PaymentIntent) : Except Failure Bool × Db × World :=
  (settleCharge intent.tenantId intent.id (resolveIntentCharge checkoutRuntime (downRun.2.1.withLink intent))).run
    downRun.2.1 downRun.2.2

theorem downRun_eq : downRun = (.ok ⟨2, false⟩, downRun.2.1, downRun.2.2) := by
  have hok : downRun.1.toOption = some ⟨2, false⟩ := by decide +kernel
  exact Prod.ext (Except.of_toOption hok) rfl

theorem booked_as_charged_down : ∃ session, downRun.2.2.charges = World.counting.charges ++ [session] ∧
    ∀ {ι : Type} [DecidableEq ι] (requests : ι → Request) (w₀ : World) (p : Pool Backend ι Unit),
      Pool.Reachable (Pool.init (fun i => (requests i).job checkoutRuntime) downRun.2.1 w₀) p →
        ∃ intent ∈ p.shared.store.paymentIntents, intent.id = 2 ∧ intent.correlationId = session.correlationId ∧
          p.shared.store.Moves checkoutRuntime intent fun amount currency =>
            (amount = session.amount ∧ currency = .str session.currency ↔ downRequest.ChargesWhole .correct installmentDb) :=
  booked_as_charged_iff (fun n => congrArg some (roundRat_intCast n)) (by decide) downRun_eq rfl

/-- The provider is asked for 50.00, and 100.00 is booked. -/
theorem not_booked_as_charged : ¬ ∀ {rt : Runtime}, (∀ n : Int, rt.toNumber (.num n) = some n) →
    ∀ {request : CreationRequest} {db db' : Db} {w w' : World} {created : CreatedIntent},
      (db.paymentLinks.map (·.id)).Nodup → (request.job rt).run db w = (.ok created, db', w') →
        created.idempotent = false → ∃ session, w'.charges = w.charges ++ [session] ∧
          ∀ intent ∈ db'.paymentIntents, intent.id = created.intentId → db'.Moves rt intent fun amount currency =>
            amount = session.amount ∧ currency = .str session.currency := by
  intro h
  obtain ⟨session, hcharges, hall⟩ := h (fun n => congrArg some (roundRat_intCast n)) (by decide) downRun_eq rfl
  have hcharged : downRun.2.2.charges.map (·.amount) = [5000] := by decide +kernel
  have hsession : session.amount = 5000 := by
    rw [hcharges] at hcharged
    simpa [World.counting] using hcharged
  have hsettled : (downRun.2.1.paymentIntents.any fun intent => intent.id = 2 ∧ (settledDown intent).1.toOption = some true ∧
      ∀ m ∈ (settledDown intent).2.1.movements, m.isCaptureOf intent.tenantId intent.id → m.amount = 10000) = true := by
    decide +kernel
  obtain ⟨intent, hintent, hsettled⟩ := List.any_eq_true.mp hsettled
  obtain ⟨hid, hok, hbooked⟩ := of_decide_eq_true hsettled
  obtain ⟨ms, hms, ⟨m, hm, hcapture⟩, hmoves⟩ :=
    (hall intent hintent hid).booked (Prod.ext (Except.of_toOption hok) rfl : settledDown intent = (.ok true, _, _))
  have hgross := hbooked m (hms ▸ List.mem_append_right _ hm) hcapture
  rw [(hmoves m hm hcapture).1, hsession] at hgross
  exact absurd hgross (by decide)

end CorpoPay.Settlement
