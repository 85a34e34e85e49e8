import CorpoPay.Settlement.Lemmas.Bypasses
import CorpoPay.Settlement.Theorems.CapturedStatus
import CorpoPay.Settlement.Theorems.ChargedAmount

/-!
# Statuses and captures

A notification, an event of Stripe and a capture settle the intent that they make SUCCEEDED. The status query, the poller
and a void write the status that the provider answers and settle nothing. An intent that is SUCCEEDED has its capture in
the ledger in every run where the latter do not report the success and no notification of it fails on its way.
-/

namespace CorpoPay.Settlement

open Transaction.Tx
open Transaction (Course Indebts Paid Pool Shared)
open Transaction.Job (Does Does.amid Does.bind Returns amid_bind amid_ofExcept_bind amid_ret amid_select amid_throw bind_assoc
  does_ofExcept does_ret does_throw returns_error returns_ok)

/-! ## The condition -/

/-- The intent is SUCCEEDED, and its capture is not in the ledger. -/
def Db.Unbooked (t id : Id) (db : Db) : Prop := db.statusOf id = some .succeeded ∧ db.isCaptured t id = false

instance (t id : Id) (db : Db) : Decidable (db.Unbooked t id) := by unfold Db.Unbooked; infer_instance

/-- What follows the step `update-intent-status`. -/
def finishNotified (rt : Runtime) (event : WebhookNotification) (intent : Option IntentWithLink) (signatureVerified : Bool)
    (result : WebhookResult) : Job Id := do
  let _ ← settleNotified rt intent result
  let webhookEvent ← stepRun DEFAULT_RETRIES (storeNotification event intent signatureVerified result)
  pure webhookEvent.id

/-- The request settles the intent that it makes SUCCEEDED. -/
def Request.Settles : Request → Prop
  | .notification _ | .stripeEvent _ | .capture _ _ | .resolve _ .allow => True
  | .poll _ _ | .status _ _ | .void _ _ | .resolve _ .block | .refund _ _ => False

/-- The update of the intent has not failed in a notification of success. -/
def Request.Updates (rt : Runtime) (id : Id) : Request → Job Unit → Prop
  | .notification event, j => event.ReportsSuccess rt → ∀ found verified e, found.id = id →
      j ≠ discard (finishNotified rt event (some found) verified ⟨none, some e, false⟩)
  | _, _ => True

/-- The step is one of a request that settles or does not bring the intent to SUCCEEDED without its capture, and it is not
the failure of an update while the capture is owed. -/
structure BookedInOrder {ι : Type} (rt : Runtime) (requests : ι → Request) (t id : Id) (p : Pool Backend ι Unit) (i : ι)
    (p' : Pool Backend ι Unit) : Prop where
  settles : ¬ (requests i).Settles → p'.shared.store.Unbooked t id → p.shared.store.Unbooked t id
  updates : ∀ j, (p'.threads i).phase = .between j → p'.shared.store.Unbooked t id → (requests i).Updates rt id j

/-! ## The course of a run -/

/-- The capture stays in the ledger, and the links keep their prices. -/
structure Stays (t id : Id) (db db' : Db) : Prop where
  captured : db.isCaptured t id = true → db'.isCaptured t id = true
  prices : ∀ i, (db'.paymentLink i).map PaymentLink.price = (db.paymentLink i).map PaymentLink.price

/-- The intent is of the tenant and charges the same all along. -/
def bookedCourse (rt : Runtime) (t id : Id) (charge : Charge) : Course Backend where
  later σ σ' := Stays t id σ.store σ'.store
  inv σ := (∃ correlationId, σ.store.Holds rt id correlationId charge) ∧
    ∀ r ∈ σ.store.paymentIntents, r.id = id → r.tenantId = t
  later_refl _ := ⟨fun h => h, fun _ => rfl⟩
  later_trans h h' := ⟨fun hc => h'.captured (h.captured hc), fun i => (h'.prices i).trans (h.prices i)⟩

section Course

variable {α : Type} {rt : Runtime} {t id : Id} {charge : Charge} {own : Shared Backend → Shared Backend → Prop}
  {fine : Shared Backend → Job α → Prop} {kept : Job Unit → Prop} {σ : Shared Backend} {v : Db → Db}
  {G : Shared Backend → Shared Backend → Job α → Prop}

theorem KeepsBooks.reach (h : KeepsBooks v) (hinv : (bookedCourse rt t id charge).inv σ) :
    (bookedCourse rt t id charge).Reach σ (σ.committed v) := by
  refine ⟨⟨h.isCaptured, h.prices σ.store⟩, ?_, fun r' hr' hid => ?_⟩
  · obtain ⟨correlationId, hholds⟩ := hinv.1
    exact ⟨correlationId, h.toKeepsTerms.holds hholds⟩
  · obtain ⟨f, hintents, hf⟩ := h.intents
    change r' ∈ (v σ.store).paymentIntents at hr'
    rw [hintents] at hr'
    obtain ⟨r, hr, rfl⟩ := List.mem_map.mp hr'
    rw [hf r] at hid ⊢
    exact hinv.2 r hr hid

theorem Bypasses.unbooked (h : Bypasses id v) {db : Db} (hdb : (v db).Unbooked t id) : db.Unbooked t id := by
  refine ⟨h.statuses db hdb.1, ?_⟩
  cases hcaptured : db.isCaptured t id with
  | false => rfl
  | true => exact absurd (h.isCaptured hcaptured) (by rw [hdb.2]; decide)

/-- A commit that leaves the intent booked owes nothing. -/
def Lenient (t id : Id) (G : Shared Backend → Shared Backend → Job α → Prop) : Prop :=
  ∀ σ τ r, (τ.store.Unbooked t id → σ.store.Unbooked t id) → G σ τ r

theorem lenient_true : Lenient t id (fun _ _ (_ : Job α) => True) := fun _ _ _ _ => trivial

theorem lenient_imp : Lenient t id (fun σ τ (_ : Job α) => τ.store.Unbooked t id → σ.store.Unbooked t id) :=
  fun _ _ _ h => h

/-- A job that only appends to the ledger. -/
theorem amid_keepsBooks {j : Job α} (h : j.Does KeepsBooks fun _ => True) {K : Shared Backend → Prop}
    (hK : ∀ σ σ', (bookedCourse rt t id charge).Reach σ σ' → K σ → K σ') (hσ : K σ)
    (hG : ∀ σ v r, KeepsBooks v → own σ (σ.committed v) → fine (σ.committed v) r → G σ (σ.committed v) r) :
    j.Amid (bookedCourse rt t id charge) own G fine (fun _ σ' => K σ') σ :=
  h.amid hK hσ (fun _ _ hv _ hinv _ => hv.reach hinv) (fun _ _ _ hv _ _ hown hfine => hG _ _ _ hv hown hfine)
    (fun _ _ _ _ hinv _ => ⟨⟨fun h => h, fun _ => rfl⟩, hinv⟩) fun _ _ _ hk => hk

theorem amid_bypasses {j : Job α} (h : OnlyBypasses id j) (hG : Lenient t id G) {K : Shared Backend → Prop}
    (hK : ∀ σ σ', (bookedCourse rt t id charge).Reach σ σ' → K σ → K σ') (hσ : K σ) :
    j.Amid (bookedCourse rt t id charge) own G fine (fun _ σ' => K σ') σ :=
  h.amid hK hσ (fun _ _ hv _ hinv _ => hv.reach hinv) (fun _ σ r hv _ _ _ _ => hG σ _ r hv.unbooked)
    (fun _ _ _ _ hinv _ => ⟨⟨fun h => h, fun _ => rfl⟩, hinv⟩) fun _ _ _ hk => hk

/-! ## Settlements -/

theorem any_settled (db : Db) (t id : Id) :
    (db.ledgerEntries.any fun e => e.toMovement.isCaptureOf t id) = db.isCaptured t id := by
  rw [Db.isCaptured, Db.movements, List.any_map]
  rfl

theorem captured_stable {σ σ' : Shared Backend} (hr : (bookedCourse rt t id charge).Reach σ σ')
    (h : σ.store.isCaptured t id = true) : σ'.store.isCaptured t id = true := hr.1.captured h

/-- The transaction of a settlement, where the capture is booked already or by `book`. -/
theorem amid_settles {book : Tx Bool} {fine : Shared Backend → Job Bool → Prop} {G : Shared Backend → Shared Backend → Job Bool → Prop}
    (hG : Lenient t id G) (hbook : book.Writes (fun v _ => Bypasses id v ∧ ∀ db : Db, (v db : Db).isCaptured t id = true) fun db : Db => db)
    (hasks : book.Asks fun _ => True) :
    (transaction (do
      let alreadySettled ← select fun db : Db => db.ledgerEntries.any (·.toMovement.isCaptureOf t id)
      if alreadySettled then pure false else book : Tx Bool)).Amid (bookedCourse rt t id charge) own G fine
      (Returns fun _ σ => σ.store.isCaptured t id = true) σ := by
  refine Transaction.Job.Amid.transaction (fun σ₁ hr₁ σ₂ hr₂ => ?_) fun e _ _ => returns_error e
  have hask : ∀ (q : Query) (σ' : Shared Backend), (bookedCourse rt t id charge).inv σ' →
      (bookedCourse rt t id charge).Reach σ' (σ'.asked q) := fun _ _ hinv => ⟨⟨fun h => h, fun _ => rfl⟩, hinv⟩
  have hbypasses : Bypasses id fun db : Db => db := (posts_of_rest (P := fun _ => True) commits_nothing).bypasses
  change (if (Db.ledgerEntries σ₂.store).any (·.toMovement.isCaptureOf t id) then pure false else book : Tx Bool).Amid _ _ _ _ _
  rw [any_settled]
  by_cases hsettled : Db.isCaptured σ₂.store t id = true
  · rw [if_pos hsettled]
    refine fun σ₃ hr₃ _ => ⟨hbypasses.reach hr₃.2, hG _ _ _ fun h => h, fun σ₄ hr₄ => returns_ok ?_⟩
    exact captured_stable hr₄ (captured_stable hr₃ hsettled)
  · rw [if_neg hsettled]
    refine Transaction.Tx.Amid.of_writes (K := fun _ => True) hbook hasks (fun _ _ _ _ => trivial) trivial
      (fun q σ' _ _ hinv _ => hask q σ' hinv) fun v b τ hr₃ hv _ => ?_
    refine ⟨hv.1.reach hr₃.2, hG _ _ _ hv.1.unbooked, fun σ₄ hr₄ => returns_ok ?_⟩
    exact captured_stable hr₄ (hv.2 τ.store)

/-- A settlement that returns has booked the capture. -/
theorem amid_settleCharge {fine : Shared Backend → Job Bool → Prop} {G : Shared Backend → Shared Backend → Job Bool → Prop}
    (hcharge : ∀ n, charge.amountCents = some n → 0 < n) (hG : Lenient t id G) :
    (settleCharge t id charge).Amid (bookedCourse rt t id charge) own G fine
      (Returns fun _ σ => σ.store.isCaptured t id = true) σ := by
  have hrefuse : (refuseSettlement t id).Amid (bookedCourse rt t id charge) own G fine
      (Returns fun _ σ => σ.store.isCaptured t id = true) σ := amid_settles hG trivial trivial
  unfold settleCharge
  split
  · rename_i amountCents currency hamount _
    unfold settleCapture
    rw [if_neg (not_le.mpr (hcharge _ hamount))]
    refine amid_settles hG (commits_settleCapture.mono ?_) (asks_settleCapture trivial trivial _)
    rintro v _ ⟨cp, hv⟩
    refine ⟨(posts_capture hv).bypasses, fun db => ?_⟩
    have hany : (db.movements ++ captureMovements t ⟨id, amountCents, some currency, none⟩ cp).any (·.isCaptureOf t id) = true := by
      rw [List.any_append, any_capture]
      simp
    rw [← hv.movements] at hany
    exact hany
  · rename_i amountCents hamount _
    rw [if_neg (not_le.mpr (hcharge _ hamount))]
    exact hrefuse
  · exact hrefuse

/-- Attempts at it. -/
theorem amid_retried {β : Type} {fine : Shared Backend → Job β → Prop} {G : Shared Backend → Shared Backend → Job β → Prop} {j : Job β} (n : Nat)
    (hσ : (bookedCourse rt t id charge).inv σ) (hG : Lenient t id G) {R : β → Shared Backend → Prop}
    (h : ∀ σ, (bookedCourse rt t id charge).inv σ → j.Amid (bookedCourse rt t id charge) own
      (fun σ τ _ => Db.Unbooked t id τ.store → Db.Unbooked t id σ.store) (fun _ _ => True) (Returns R) σ) :
    (stepRun n j).Amid (bookedCourse rt t id charge) own G fine (Returns R) σ := by
  refine Transaction.Job.Amid.anywhere (Transaction.Job.Amid.retry (J := fun _ => True)
    (D := fun σ τ => Db.Unbooked t id τ.store → Db.Unbooked t id σ.store) n hσ trivial (fun _ _ r h => hG _ _ r h) fun σ hinv _ => ?_)
  refine (h σ hinv).mono (fun _ _ _ h => h) fun r σ' _ h => ?_
  cases r with
  | ok b => exact h
  | error e => exact ⟨trivial, h⟩

/-! ## Debts -/

/-- Whoever has booked the capture owes nothing. -/
theorem owes_captured {j : Job Unit} (h : j.Does KeepsBooks fun _ => True) (hσ : σ.store.isCaptured t id = true) :
    j.Owes (bookedCourse rt t id charge) own (Db.Unbooked t id) kept σ := by
  refine (amid_keepsBooks h (fun _ _ hr hk => captured_stable hr hk) hσ fun _ _ _ _ _ _ => trivial).mono (fun _ _ _ h => h)
    fun r σ' _ hcaptured => ?_
  cases r with
  | ok _ => exact fun hbad => absurd hcaptured (by rw [hbad.2]; decide)
  | error _ => trivial

/-- A job that books the capture, and what follows it. -/
theorem owes_bind {β : Type} {j : Job β} {k : β → Job Unit} (hσ : (bookedCourse rt t id charge).inv σ)
    (h : j.Amid (bookedCourse rt t id charge) own (fun _ _ _ => True) (fun _ _ => True)
      (Returns fun _ σ => σ.store.isCaptured t id = true) σ)
    (hk : ∀ b, (k b).Does KeepsBooks fun _ => True) :
    (j.bind k).Owes (bookedCourse rt t id charge) own (Db.Unbooked t id) kept σ :=
  Transaction.Job.Amid.anywhere (amid_bind hσ (fun _ _ => trivial) h (fun b _ _ hcaptured _ => owes_captured (hk b) hcaptured)
    fun _ _ _ => trivial)

/-- A transaction that sets the status. Only the one that makes the intent SUCCEEDED owes. -/
theorem amid_setsStatus {body : Tx α} {i : Id} {status : PaymentIntentStatus}
    (hwrites : body.Writes (fun v _ => Commits [] (fun r => if r.id = i then { r with status } else r) v) fun db : Db => db)
    (hasks : body.Asks (Query.isCapture · = false)) (hG : Lenient t id G)
    (howes : i = id → status = .succeeded → ∀ b σ τ, (bookedCourse rt t id charge).inv τ → G σ τ (.ret b)) :
    (transaction body).Amid (bookedCourse rt t id charge) own G fine (fun _ _ => True) σ := by
  refine Transaction.Job.Amid.transaction (fun σ' hr => ?_) fun _ _ _ => trivial
  refine Transaction.Tx.Amid.of_writes (K := fun _ => True) hwrites hasks (fun _ _ _ _ => trivial) trivial
    (fun _ _ _ _ hinv _ => ⟨⟨fun h => h, fun _ => rfl⟩, hinv⟩) fun v b τ hr' hv _ => ?_
  have hreach := (touches_setStatus (P := fun _ => True) hv).keepsBooks.reach hr'.2
  refine ⟨hreach, ?_, fun _ _ => trivial⟩
  by_cases hsucceeds : i = id ∧ status = .succeeded
  · exact howes hsucceeds.1 hsucceeds.2 b τ _ hreach.2
  · exact hG _ _ _ (bypasses_setStatus hv fun hi hs => hsucceeds ⟨hi, hs⟩).unbooked

/-! ## Stripe events -/

/-- What a row with its link shows of the intent. -/
def KnownCharge (rt : Runtime) (t id : Id) (charge : Charge) (row : IntentWithLink) : Prop :=
  row.id = id → row.tenantId = t ∧ resolveIntentCharge rt row = charge

/-- What a row that was read shows, with the link as it is. -/
def KnownRow (rt : Runtime) (t id : Id) (charge : Charge) (row : PaymentIntent) (σ : Shared Backend) : Prop :=
  KnownCharge rt t id charge (Db.withLink σ.store row)

theorem KnownRow.stable {row : PaymentIntent} {σ σ' : Shared Backend} (hr : (bookedCourse rt t id charge).Reach σ σ')
    (h : KnownRow rt t id charge row σ) : KnownRow rt t id charge row σ' := fun hid =>
  ⟨(h hid).1, (resolveIntentCharge_eq rfl rfl hr.1.prices).trans (h hid).2⟩

theorem knownRow_of_mem {row : PaymentIntent} {σ : Shared Backend} (hinv : (bookedCourse rt t id charge).inv σ)
    (hmem : row ∈ σ.store.paymentIntents) : KnownRow rt t id charge row σ := by
  obtain ⟨⟨correlationId, hholds⟩, htenant⟩ := hinv
  exact fun hid => ⟨htenant row hmem hid, (hholds.terms row hmem hid).2⟩

theorem amid_settleStripe {fine : Shared Backend → Job Bool → Prop} {G : Shared Backend → Shared Backend → Job Bool → Prop}
    {intent : PaymentIntent} (hcharge : ∀ n, charge.amountCents = some n → 0 < n)
    (hσ : (bookedCourse rt t id charge).inv σ) (hG : Lenient t id G) (hid : intent.id = id) (htenant : intent.tenantId = t) :
    (settleStripe rt intent).Amid (bookedCourse rt t id charge) own G fine
      (Returns fun _ σ => σ.store.isCaptured t id = true) σ := by
  subst hid htenant
  refine Transaction.Job.Amid.anywhere (amid_bind (R := fun found _ => ∃ row, found = some row ∧
    resolveIntentCharge rt row = charge) hσ (fun _ _ => trivial) (amid_select (fun _ _ => hG _ _ _ fun h => h)
      (fun _ _ _ _ h => h) fun σ' hr => ?_) (fun found σ' hr hfound _ => ?_) fun e _ _ => returns_error e)
  · obtain ⟨⟨correlationId, hholds⟩, -⟩ := hr.2
    obtain ⟨r, hr', hrid⟩ := hholds.found
    obtain ⟨row, hrow⟩ := Option.isSome_iff_exists.mp (List.find?_isSome (p := fun r : PaymentIntent => r.id = intent.id)
      |>.mpr ⟨r, hr', by simpa using hrid⟩)
    refine ⟨Db.withLink σ'.store row, congrArg (Option.map _) hrow, ?_⟩
    exact (hholds.terms row (List.mem_of_find?_eq_some hrow) (by simpa using List.find?_some hrow)).2
  · obtain ⟨row, rfl, hrow⟩ := hfound
    dsimp only
    rw [hrow]
    exact amid_settleCharge hcharge fun _ _ _ h => hG _ _ _ h

/-- What a request owes, in front of the rest of its job. -/
abbrev Owing (rt : Runtime) (t id : Id) (charge : Charge) (own : Shared Backend → Shared Backend → Prop) (kept : Job Unit → Prop)
    (rest : Job α → Job Unit) (σ τ : Shared Backend) (r : Job α) : Prop :=
  Indebts (bookedCourse rt t id charge) own (Db.Unbooked t id) kept σ τ (rest r)

theorem lenient_owing {rest : Job α → Job Unit} : Lenient t id (Owing rt t id charge own kept rest) :=
  fun _ _ _ h hbad _ => .inl (h hbad)

theorem bypasses_settles (i t' : Id) (charge : Charge) : OnlyBypasses id (settleCharge t' i charge) :=
  bypasses_posts (posts_settleCharge charge)

theorem bypasses_finishStripe (event : StripeEvent) (intent : PaymentIntent) (newStatus : PaymentIntentStatus)
    (providerTransactionId : Option Json) (updated : Option PaymentIntentStatus) :
    OnlyBypasses id (finishStripeEvent rt event intent newStatus providerTransactionId updated) :=
  observes_bypasses.finishStripeEvent (fun _ _ => bypasses_settles _ _ _)
    fun _ => bypasses_posts (posts_webhookCreate (P := fun _ => True) _ _)

theorem owes_finishStripe {event : StripeEvent} {intent : PaymentIntent} {newStatus : PaymentIntentStatus} {ptid : Option Json}
    (hcharge : ∀ n, charge.amountCents = some n → 0 < n) (hσ : (bookedCourse rt t id charge).inv σ) (hid : intent.id = id)
    (htenant : intent.tenantId = t) :
    (discard (finishStripeEvent rt event intent newStatus ptid (some .succeeded))).Owes (bookedCourse rt t id charge) own
      (Db.Unbooked t id) kept σ := by
  have hbooks : ∀ {β : Type} {j : Job β}, OnlyBypasses id j → j.Does KeepsBooks fun _ => True := fun h => h.keepsBooks
  unfold finishStripeEvent
  refine Eq.mpr (congrArg (Transaction.Job.Owes _ _ _ _ · _) (bind_assoc _ _ _)) (owes_bind hσ ?_ fun _ => ?_)
  · exact amid_retried 5 hσ lenient_true fun σ' hinv => amid_settleStripe hcharge hinv lenient_imp hid htenant
  · refine Does.bind (((hbooks (observes_bypasses.upsertProviderTransaction _ _)).retry _).bind fun _ => ?_) fun _ => does_ret _
    refine (hbooks (observes_bypasses.markLinkPaid _ _)).bind fun _ => Does.bind ?_ fun _ => does_ret _
    exact (hbooks (bypasses_posts (posts_webhookCreate (P := fun _ => True) _ _))).retry _

/-- The update of a status, in front of what follows it. -/
theorem booked_updateStripe {event : StripeEvent} {intent : PaymentIntent} {newStatus : PaymentIntentStatus} {ptid : Option Json}
    (hcharge : ∀ n, charge.amountCents = some n → 0 < n) (hσ : (bookedCourse rt t id charge).inv σ)
    (htenant : intent.id = id → intent.tenantId = t) :
    (stepRun 5 (updateStripeStatus intent.id newStatus)).Amid (bookedCourse rt t id charge) own
      (Owing rt t id charge own kept fun r => discard (r.bind (finishStripeEvent rt event intent newStatus ptid)))
      (fun _ _ => True) (fun _ _ => True) σ := by
  refine Transaction.Job.Amid.attempts (J := fun _ => True) 5 hσ trivial fun σ₁ f hinv _ => ?_
  refine (amid_bind (Q := fun _ _ => True) (R := fun _ _ => True) hinv (fun _ _ => trivial)
    (amid_select (fun _ _ hbad _ => .inl hbad) (fun _ _ _ _ _ => trivial) fun _ _ => trivial) (fun current σ₂ hr₂ _ _ => ?_)
    fun _ _ _ => trivial).mono (fun _ _ _ h => h) fun r _ _ _ => by cases r <;> simp
  cases current with
  | none => exact fun _ _ => trivial
  | some current =>
      dsimp only
      split_ifs
      · exact fun _ _ => trivial
      · refine Transaction.Job.Amid.bind (Q := fun _ _ => True) hr₂.2 (fun _ _ => trivial)
          (amid_setsStatus (commits_intentUpdate commits_nothing) (asks_intentUpdate _ _) (fun _ _ _ h hbad _ => .inl (h hbad))
            fun hid hstatus b _ τ hτ _ _ => .inr ?_) (fun _ _ _ _ _ _ _ => trivial) fun _ _ _ _ => trivial
        subst hstatus
        exact owes_finishStripe hcharge hτ hid (htenant hid)

theorem booked_stripeEvent {event : StripeEvent} (hcharge : ∀ n, charge.amountCents = some n → 0 < n)
    (hσ : (bookedCourse rt t id charge).inv σ) :
    (discard (stripeWebhookProcessor rt event)).Amid (bookedCourse rt t id charge) own
      (Owing rt t id charge own kept fun r => r) (fun _ _ => True) (fun _ _ => True) σ := by
  refine Transaction.Job.Amid.bind (Q := fun _ _ => True) hσ (fun _ _ => trivial) ?_ (fun _ _ _ _ _ _ _ => trivial)
    fun _ _ _ _ => trivial
  refine amid_ofExcept_bind (fun eventType _ => ?_) fun _ _ _ => trivial
  refine amid_ofExcept_bind (fun obj _ => ?_) fun _ _ _ => trivial
  refine amid_bind (R := FoundAs (KnownRow rt t id charge)) hσ (fun _ _ => trivial) (amid_retried 5 hσ lenient_owing
    fun σ' hinv => amid_findStripeIntent (fun _ _ _ hr h => h.stable hr) (fun _ _ hinv hmem => knownRow_of_mem hinv hmem)
      (fun _ _ h => h) hinv obj) (fun found σ₁ hr₁ hfound _ => ?_) fun _ _ _ => trivial
  cases found with
  | none => exact fun _ _ => trivial
  | some intent =>
      unfold routeStripeEvent
      dsimp only
      split
      · exact fun _ _ => trivial
      · rename_i newStatus _
        refine amid_ofExcept_bind (fun ptid _ => ?_) fun _ _ _ => trivial
        refine Transaction.Job.Amid.bind (Q := fun _ _ => True) hr₁.2 (fun _ _ => trivial)
          (booked_updateStripe hcharge hr₁.2 fun hid => (hfound intent rfl hid).1) (fun updated σ₂ hr₂ _ _ => ?_)
          fun _ _ _ _ => trivial
        exact amid_bypasses (K := fun _ => True) (bypasses_finishStripe _ _ _ _ _) lenient_owing (fun _ _ _ h => h) trivial

/-! ## Captures -/

/-- A capture is booked for what the intent charges. -/
theorem resolveCharge_eq (hnumber : ∀ n : Int, rt.toNumber (.num n) = some n) (intent : IntentWithLink) :
    Charge.mk (rt.toNumber (resolveCharge intent).1) (resolveCharge intent).2 = resolveIntentCharge rt intent := by
  unfold resolveCharge resolveIntentCharge
  cases intent.paymentLink with
  | none => rfl
  | some link => simp only [hnumber]

theorem bypasses_only {β : Type} {j : Job β} (h : OnlyBypasses id j) {G : Shared Backend → Shared Backend → Job β → Prop}
    (hG : Lenient t id G) {fine : Shared Backend → Job β → Prop} :
    j.Amid (bookedCourse rt t id charge) own G fine (fun _ _ => True) σ :=
  amid_bypasses (K := fun _ => True) h hG (fun _ _ _ h => h) trivial

theorem amid_heldIntent {verb : String} {intentId : Id} {tenantId : Option Id}
    {G : Shared Backend → Shared Backend → Job (IntentWithLink × String) → Prop} (hG : Lenient t id G)
    (hσ : (bookedCourse rt t id charge).inv σ) :
    (heldIntent rt verb intentId tenantId).Amid (bookedCourse rt t id charge) own G (fun _ _ => True)
      (Returns fun held _ => held.1.id = intentId ∧ KnownCharge rt t id charge held.1) σ := by
  refine amid_bind (R := fun (intent : IntentWithLink) _ => intent.id = intentId ∧ KnownCharge rt t id charge intent) hσ (fun _ _ => trivial) ?_
    (fun intent σ' hr hknown _ => ?_) fun e _ _ => returns_error e
  · refine amid_bind (R := fun (found : Option IntentWithLink) _ => ∀ row, found = some row →
      row.id = intentId ∧ KnownCharge rt t id charge row) hσ (fun _ _ => trivial) (amid_select (fun _ _ => hG _ _ _ fun h => h) (fun _ _ _ _ h => h) fun σ' hr row hrow => ?_)
      (fun found σ' hr hknown _ => ?_) fun e _ _ => returns_error e
    · obtain ⟨intent, hintent, rfl⟩ := Option.map_eq_some_iff.mp hrow
      have hscope : intent.inScope intentId tenantId = true :=
        List.find?_some (p := fun r : PaymentIntent => r.inScope intentId tenantId) hintent
      exact ⟨(of_decide_eq_true hscope).1, knownRow_of_mem hr.2 (List.mem_of_find?_eq_some hintent)⟩
    · cases found with
      | none => exact amid_throw _
      | some row => exact amid_ret fun _ _ => hknown row rfl
  · have hrevert : ∀ e, ((revertLock intentId).bind fun _ => Transaction.Job.throw e : Job (IntentWithLink × String)).Amid
        (bookedCourse rt t id charge) own G (fun _ _ => True)
        (Returns fun held _ => held.1.id = intentId ∧ KnownCharge rt t id charge held.1) σ' := fun e =>
      Transaction.Job.Amid.bind hr.2 (fun _ _ => trivial) (bypasses_only (bypasses_revertLock _) fun _ _ _ h => hG _ _ _ h)
        (fun _ _ _ _ _ => amid_throw _) fun e _ _ _ => returns_error e
    split
    · exact hrevert _
    · exact hrevert _
    · refine amid_bind (R := fun _ _ => True) hr.2 (fun _ _ => trivial) (amid_select (fun _ _ => hG _ _ _ fun h => h)
        (fun _ _ _ _ _ => trivial) fun _ _ => trivial) (fun config σ₁ hr₁ _ _ => ?_) fun e _ _ => returns_error e
      cases config with
      | none => exact amid_throw _
      | some config => exact amid_ofExcept_bind (fun _ _ => amid_ret fun _ _ => hknown) fun e _ _ => returns_error e

/-- A rest that books the capture before it returns owes nothing. -/
def Settling (rt : Runtime) (t id : Id) (charge : Charge) (own : Shared Backend → Shared Backend → Prop)
    (G : Shared Backend → Shared Backend → Job α → Prop) : Prop :=
  ∀ σ τ r, (bookedCourse rt t id charge).inv τ → r.Amid (bookedCourse rt t id charge) own (fun _ _ _ => True) (fun _ _ => True)
    (Returns fun _ σ => σ.store.isCaptured t id = true) τ → G σ τ r

theorem booked_finishCapture (hnumber : ∀ n : Int, rt.toNumber (.num n) = some n)
    (hcharge : ∀ n, charge.amountCents = some n → 0 < n) (hσ : (bookedCourse rt t id charge).inv σ)
    {G : Shared Backend → Shared Backend → Job PaymentIntentStatus → Prop} (hG : Lenient t id G)
    (hsettling : Settling rt t id charge own G) {intent : IntentWithLink} {result : CommandResult}
    (hknown : KnownCharge rt t id charge intent) :
    (finishCapture rt intent.id intent result).Amid (bookedCourse rt t id charge) own G (fun _ _ => True) (fun _ _ => True) σ := by
  unfold finishCapture
  split_ifs
  · exact bypasses_only ((bypasses_revertLock _).bind fun _ => does_throw _) hG
  · refine Transaction.Job.Amid.bind (Q := fun _ _ => True) hσ (fun _ _ => trivial)
      (amid_setsStatus (commits_recordAction _ _) (asks_recordAction _ _) (fun _ _ _ h => hG _ _ _ h)
        fun hid hstatus b σ' τ hτ => hsettling σ' τ _ hτ ?_) (fun _ σ₁ hr₁ _ _ => ?_) fun _ _ _ _ => trivial
    · obtain ⟨htenant, hresolved⟩ := hknown hid
      have hbook : (settleCharge intent.tenantId intent.id
          ⟨rt.toNumber (resolveCharge intent).1, (resolveCharge intent).2⟩).Amid (bookedCourse rt t id charge) own
          (fun _ _ _ => True) (fun _ _ => True) (Returns fun _ σ => σ.store.isCaptured t id = true) τ := by
        rw [resolveCharge_eq hnumber, hresolved, htenant, hid]
        exact amid_settleCharge hcharge lenient_true
      dsimp only [Transaction.Job.bind]
      rw [if_pos hstatus]
      exact amid_bind hτ (fun _ _ => trivial) hbook (fun _ _ _ hcaptured _ => amid_ret fun _ hr => captured_stable hr hcaptured)
        fun e _ _ => returns_error e
    · dsimp only
      split_ifs
      · exact bypasses_only ((bypasses_settles _ _ _).bind fun _ => does_ret _) hG
      · exact fun _ _ => trivial

theorem booked_captureIntent (hnumber : ∀ n : Int, rt.toNumber (.num n) = some n)
    (hcharge : ∀ n, charge.amountCents = some n → 0 < n) (hσ : (bookedCourse rt t id charge).inv σ)
    {G : Shared Backend → Shared Backend → Job PaymentIntentStatus → Prop} (hG : Lenient t id G)
    (hsettling : Settling rt t id charge own G) (intentId : Id) (tenantId : Option Id) :
    (captureIntent rt intentId tenantId).Amid (bookedCourse rt t id charge) own G (fun _ _ => True) (fun _ _ => True) σ := by
  refine Transaction.Job.Amid.bind (Q := fun _ _ => True) hσ (fun _ _ => trivial)
    (bypasses_only (bypasses_lockAuthorized _ _) fun _ _ _ h => hG _ _ _ h) (fun count σ₁ hr₁ _ _ => ?_) fun _ _ _ _ => trivial
  dsimp only
  split_ifs
  · exact bypasses_only (bypasses_refuseAction _ _ _) hG
  · refine amid_bind hr₁.2 (fun _ _ => trivial) (amid_heldIntent (fun _ _ _ h => hG _ _ _ h) hr₁.2)
      (fun held σ₂ hr₂ hheld _ => ?_) fun _ _ _ => trivial
    obtain ⟨intent, providerRef⟩ := held
    obtain ⟨rfl, hknown⟩ := hheld
    dsimp only
    split_ifs
    · exact bypasses_only ((bypasses_revertLock _).bind fun _ => does_throw _) hG
    · intro σ₃ hr₃ _ _
      have hasked : (bookedCourse rt t id charge).Reach σ₃ (σ₃.asked (.capturePayment (commandOf rt intent providerRef))) :=
        ⟨⟨fun h => h, fun _ => rfl⟩, hr₃.2⟩
      refine ⟨hasked, ?_⟩
      cases (Backend.reply σ₃.world (.capturePayment (commandOf rt intent providerRef))).1 with
      | error message => exact fun _ _ => trivial
      | ok result => exact booked_finishCapture hnumber hcharge hasked.2 hG hsettling hknown

theorem booked_capture (hnumber : ∀ n : Int, rt.toNumber (.num n) = some n)
    (hcharge : ∀ n, charge.amountCents = some n → 0 < n) (hσ : (bookedCourse rt t id charge).inv σ) (intentId : Id)
    (tenantId : Option Id) :
    (discard (captureIntent rt intentId tenantId)).Amid (bookedCourse rt t id charge) own
      (Owing rt t id charge own kept fun r => r) (fun _ _ => True) (fun _ _ => True) σ := by
  refine Transaction.Job.Amid.bind (Q := fun _ _ => True) hσ (fun _ _ => trivial)
    (booked_captureIntent hnumber hcharge hσ lenient_owing (fun _ τ r hτ hr _ _ => .inr ?_) _ _) (fun _ _ _ _ _ _ _ => trivial)
    fun _ _ _ _ => trivial
  exact owes_bind hτ hr fun _ => does_ret _

theorem booked_resolve (hnumber : ∀ n : Int, rt.toNumber (.num n) = some n)
    (hcharge : ∀ n, charge.amountCents = some n → 0 < n) (hσ : (bookedCourse rt t id charge).inv σ) (i : Id) :
    (discard (resolveRisk rt i .allow)).Amid (bookedCourse rt t id charge) own
      (Owing rt t id charge own kept fun r => r) (fun _ _ => True) (fun _ _ => True) σ := by
  refine Transaction.Job.Amid.bind (Q := fun _ _ => True) hσ (fun _ _ => trivial) ?_ (fun _ _ _ _ _ _ _ => trivial)
    fun _ _ _ _ => trivial
  refine amid_bind (R := fun _ _ => True) hσ (fun _ _ => trivial) (amid_select (fun _ _ hbad _ => .inl hbad)
    (fun _ _ _ _ _ => trivial) fun _ _ => trivial) (fun found σ₁ hr₁ _ _ => ?_) fun _ _ _ => trivial
  cases found with
  | none => exact fun _ _ => trivial
  | some intent =>
      refine Transaction.Job.Amid.bind (Q := fun _ _ => True) hr₁.2 (fun _ _ => trivial) ?_ (fun _ σ₂ hr₂ _ _ =>
        bypasses_only (bypasses_verdict _ _) lenient_owing) fun _ _ _ _ => trivial
      unfold actOnHeld
      split_ifs
      · refine Transaction.Job.Amid.bind (Q := fun _ _ => True) hr₁.2 (fun _ _ => trivial)
          (booked_captureIntent hnumber hcharge hr₁.2 lenient_owing (fun _ τ r hτ hr _ _ => .inr ?_) _ _)
          (fun _ _ _ _ _ _ _ => trivial) fun _ _ _ _ => trivial
        simp only [Transaction.Job.bind_assoc]
        refine owes_bind hτ hr fun _ => ?_
        exact (bypasses_verdict _ _ : OnlyBypasses i _).keepsBooks.bind fun _ => does_ret _
      · exact fun _ _ => trivial

/-! ## Notifications -/

theorem isStr_of_statusColumn {value : Json} {status : PaymentIntentStatus} (h : statusColumn value = .ok status) :
    value.isStr status.code = true := by
  unfold statusColumn at h
  split at h
  · rename_i found hfound
    cases h
    exact List.find?_some (p := fun s : PaymentIntentStatus => value.isStr s.code) hfound
  · cases h

/-- The settlement of a notification that has written its success. -/
theorem owes_finishNotified {event : WebhookNotification} {intent : IntentWithLink} {verified : Bool} {internalStatus : Json}
    (hcharge : ∀ n, charge.amountCents = some n → 0 < n) (hσ : (bookedCourse rt t id charge).inv σ)
    (hknown : KnownCharge rt t id charge intent) (hid : intent.id = id)
    (hsuccess : internalStatus.isStr PaymentIntentStatus.succeeded.code = true) :
    (discard (finishNotified rt event (some intent) verified ⟨some internalStatus, none, true⟩)).Owes
      (bookedCourse rt t id charge) own (Db.Unbooked t id) kept σ := by
  obtain ⟨htenant, hresolved⟩ := hknown hid
  have hsettle : settleNotified rt (some intent) ⟨some internalStatus, none, true⟩ =
      stepRun DEFAULT_RETRIES (settleCharge t id charge) := by
    unfold settleNotified
    dsimp only
    rw [htenant, hid, hresolved, if_pos (by simpa using hsuccess)]
  unfold finishNotified
  rw [hsettle]
  refine Eq.mpr (congrArg (Transaction.Job.Owes _ _ _ _ · _) (bind_assoc _ _ _)) (owes_bind hσ ?_ fun _ => ?_)
  · exact amid_retried _ hσ lenient_true fun _ _ => amid_settleCharge hcharge lenient_imp
  · have hstore : OnlyBypasses id (stepRun DEFAULT_RETRIES (storeNotification event (some intent) verified
        ⟨some internalStatus, none, true⟩)) :=
      Does.retry (bypasses_posts (posts_storeNotification (P := fun _ => True) _ _ _ _)) _
    exact (hstore.keepsBooks.bind fun _ => does_ret _).bind fun _ => does_ret _

/-- What a notification has written is settled, unless its update fails. -/
theorem owes_update {event : WebhookNotification} {intent : IntentWithLink} {verified : Bool} {internalStatus : Json}
    {tail : Job Unit} {f : Failure → Job WebhookResult} (hcharge : ∀ n, charge.amountCents = some n → 0 < n)
    (hσ : (bookedCourse rt t id charge).inv σ) (hknown : KnownCharge rt t id charge intent) (hid : intent.id = id)
    (hsuccess : internalStatus.isStr PaymentIntentStatus.succeeded.code = true) (hreports : event.ReportsSuccess rt)
    (htail : OnlyBypasses id tail)
    (hkept : (Request.notification event).Updates rt id (discard ((((tail.bind fun _ => .ret ⟨some internalStatus, none, true⟩).orElse
      fun e => .ret ⟨none, some e, false⟩).orElse f).bind (finishNotified rt event (some intent) verified)))) :
    (discard ((((tail.bind fun _ => .ret ⟨some internalStatus, none, true⟩).orElse fun e => .ret ⟨none, some e, false⟩).orElse
      f).bind (finishNotified rt event (some intent) verified))).Owes (bookedCourse rt t id charge) own (Db.Unbooked t id)
      ((Request.notification event).Updates rt id) σ := by
  rw [discard_bind] at hkept ⊢
  refine Transaction.Job.Amid.bind (Q := fun r _ => ∃ result, r = .ok result ∧
    (result = ⟨some internalStatus, none, true⟩ ∨ ∃ e, result = ⟨none, some e, false⟩)) hσ (fun a ha => by rw [ha] at hkept; exact hkept)
    ?_ (fun result σ' hr hresult hplace => ?_) (fun _ _ _ _ => trivial)
  · refine Transaction.Job.Amid.orElse (Q := fun r _ => ∃ result, r = .ok result ∧
      (result = ⟨some internalStatus, none, true⟩ ∨ ∃ e, result = ⟨none, some e, false⟩)) hσ trivial ?_ (fun _ _ _ h => h)
      fun e _ _ h => by obtain ⟨_, hresult, -⟩ := h; cases hresult
    refine Transaction.Job.Amid.orElse (Q := Returns fun result _ => result = ⟨some internalStatus, none, true⟩) hσ trivial ?_
      (fun result _ _ h => ⟨result, rfl, .inl (h result rfl)⟩) fun e _ _ _ _ _ _ => ⟨_, rfl, .inr ⟨e, rfl⟩⟩
    exact Transaction.Job.Amid.bind (Q := fun _ _ => True) hσ (fun _ _ => trivial) (bypasses_only htail fun _ _ _ _ => trivial)
      (fun _ _ _ _ _ => amid_ret fun _ _ => rfl) fun e _ _ _ => returns_error e
  · obtain ⟨_, hok, rfl | ⟨e, rfl⟩⟩ := hresult
    · cases hok
      exact owes_finishNotified hcharge hr.2 hknown hid hsuccess
    · cases hok
      exact absurd rfl (hplace hreports intent verified e hid)

/-- An attempt at the update, in front of what follows it. -/
theorem booked_updateNotified {event : WebhookNotification} {intent : IntentWithLink} {verified : Bool} {providerStatus : Json}
    {f : Failure → Job WebhookResult} (hcharge : ∀ n, charge.amountCents = some n → 0 < n)
    (hσ : (bookedCourse rt t id charge).inv σ) (hknown : KnownCharge rt t id charge intent)
    (hstatus : event.payloadJson.coalesce ["Status", "status", "transactionStatus"] = .ok (some providerStatus)) :
    (updateNotified rt event intent providerStatus).Amid (bookedCourse rt t id charge) own
      (fun σ τ r => Owing rt t id charge own ((Request.notification event).Updates rt id)
        (fun r => discard (r.bind (finishNotified rt event (some intent) verified))) σ τ (r.orElse f))
      (fun _ _ => True) (fun _ _ => True) σ := by
  refine amid_bind (R := fun _ _ => True) hσ (fun _ _ => trivial) (amid_select (fun _ _ hbad _ => .inl hbad)
    (fun _ _ _ _ _ => trivial) fun _ _ => trivial) (fun config σ₁ hr₁ _ _ => ?_) fun _ _ _ => trivial
  cases config with
  | none => exact fun _ _ => trivial
  | some config =>
      refine Transaction.Job.Amid.orElse (Q := fun _ _ => True) hr₁.2 trivial ?_ (fun _ _ _ _ => trivial)
        fun _ _ _ _ _ _ _ => trivial
      refine amid_ofExcept_bind (fun internalStatus hmapped => ?_) fun _ _ _ => trivial
      refine Transaction.Job.Amid.bind (Q := fun _ _ => True) hr₁.2 (fun _ _ => trivial) ?_ (fun _ _ _ _ _ _ _ => trivial)
        fun _ _ _ _ => trivial
      refine amid_ofExcept_bind (fun ptid _ => ?_) fun _ _ _ => trivial
      have htail : OnlyBypasses id ((recordTransaction intent.id ptid).bind fun _ => markNotifiedLinkPaid intent internalStatus) :=
        (observes_bypasses.recordTransaction _ _).bind fun _ => observes_bypasses.markNotifiedLinkPaid _ _
      refine Transaction.Job.Amid.bind (Q := fun _ _ => True) hr₁.2 (fun _ _ => trivial) ?_
        (fun _ _ _ _ _ => bypasses_only htail lenient_owing) fun _ _ _ _ => trivial
      unfold writeStatus
      split_ifs
      · exact fun _ _ => trivial
      · refine amid_ofExcept_bind (fun status hcolumn => ?_) fun _ _ _ => trivial
        refine Transaction.Job.Amid.bind (Q := fun _ _ => True) hr₁.2 (fun _ _ => trivial)
          (amid_setsStatus (commits_intentUpdate commits_nothing) (asks_intentUpdate _ _) (fun _ _ _ h hbad _ => .inl (h hbad))
            fun hid hsucceeded b _ τ hτ _ hkept => .inr ?_) (fun _ _ _ _ _ _ _ => trivial) fun _ _ _ _ => trivial
        subst hsucceeded
        have hsuccess := isStr_of_statusColumn hcolumn
        exact owes_update hcharge hτ hknown hid hsuccess ⟨providerStatus, config, internalStatus, hstatus, hmapped, hsuccess⟩ htail
          hkept

theorem booked_processFound {event : WebhookNotification} {found : Option IntentWithLink}
    (hcharge : ∀ n, charge.amountCents = some n → 0 < n) (hσ : (bookedCourse rt t id charge).inv σ)
    (hknown : ∀ intent, found = some intent → KnownCharge rt t id charge intent) :
    (processFound rt event found).Amid (bookedCourse rt t id charge) own
      (Owing rt t id charge own ((Request.notification event).Updates rt id) discard) (fun _ _ => True) (fun _ _ => True) σ := by
  refine Transaction.Job.Amid.bind (Q := fun _ _ => True) hσ (fun _ _ => trivial)
    (bypasses_only ((observes_bypasses.verifySignature event _).retry _) lenient_owing) (fun verified σ₁ hr₁ _ _ => ?_)
    fun _ _ _ _ => trivial
  refine amid_ofExcept_bind (fun providerStatus hstatus => ?_) fun _ _ _ => trivial
  have hfinish : ∀ result, OnlyBypasses id (finishNotified rt event found verified result) := fun result =>
    (Observes.settleNotified fun _ _ _ => bypasses_settles _ _ _).bind fun _ =>
      ((bypasses_posts (posts_storeNotification (P := fun _ => True) _ _ _ _)).retry _).bind fun _ => does_ret _
  refine Transaction.Job.Amid.bind (Q := fun _ _ => True) hr₁.2 (fun _ _ => trivial) ?_
    (fun result _ _ _ _ => bypasses_only (hfinish result) lenient_owing) fun _ _ _ _ => trivial
  unfold processStatus
  split
  · rename_i intent providerStatus hvalue
    have hsome : event.payloadJson.coalesce ["Status", "status", "transactionStatus"] = .ok (some providerStatus) := by
      rw [hstatus, (Option.filter_eq_some_iff.mp hvalue).1]
    refine Transaction.Job.Amid.attempts (J := fun _ => True) DEFAULT_RETRIES hr₁.2 trivial fun σ₂ f hinv _ => ?_
    exact (booked_updateNotified hcharge hinv (hknown intent rfl) hsome).mono (fun _ _ _ h => h)
      fun r _ _ _ => by cases r <;> simp
  · exact fun _ _ => trivial

theorem booked_notification {event : WebhookNotification} (hcharge : ∀ n, charge.amountCents = some n → 0 < n)
    (hσ : (bookedCourse rt t id charge).inv σ) :
    (discard (webhookProcessor rt event)).Amid (bookedCourse rt t id charge) own
      (Owing rt t id charge own ((Request.notification event).Updates rt id) fun r => r) (fun _ _ => True) (fun _ _ => True) σ := by
  rw [webhookProcessor_eq, discard_bind]
  refine amid_bind (R := FoundAs fun row _ => KnownCharge rt t id charge row) hσ (fun _ _ => trivial)
    (amid_retried _ hσ lenient_owing fun σ' hinv => ?_) (fun found σ' hr hfound _ => ?_) fun _ _ _ => trivial
  · exact amid_findNotified (R := KnownRow rt t id charge) (fun _ _ _ hr h => h.stable hr) (fun _ _ hinv hmem => knownRow_of_mem hinv hmem)
      (L := fun row _ => KnownCharge rt t id charge row) (fun _ _ h => h) (fun _ _ _ _ h => h) (fun _ _ _ h => h) hinv event
  · exact Transaction.Job.Amid.bind (Q := fun _ _ => True) hr.2 (fun _ _ => trivial)
      (booked_processFound hcharge hr.2 fun intent hintent => hfound intent hintent) (fun _ _ _ _ _ _ _ => trivial)
      fun _ _ _ _ => trivial

end Course

/-! ## Runs -/

section Runs

variable {rt : Runtime} {t id : Id} {charge : Charge}

/-- A request that settles nothing. -/
theorem keepsBooks_request {request : Request} (h : ¬ request.Settles) : (request.job rt).Does KeepsBooks fun _ => True := by
  have hdiscard : ∀ {α : Type} {j : Job α}, j.Does KeepsBooks (fun _ => True) → (discard j).Does KeepsBooks fun _ => True :=
    fun h => h.bind fun _ => does_ret _
  cases request with
  | notification event => exact absurd trivial h
  | stripeEvent event => exact absurd trivial h
  | poll event rounds => exact (only_paymentPoller (P := fun _ => True) event rounds).keepsBooks
  | status tenantId i => exact hdiscard (only_intentStatus (P := fun _ => True) tenantId i).keepsBooks
  | capture intentId tenantId => exact absurd trivial h
  | void intentId tenantId => exact hdiscard (only_voidIntent (P := fun _ => True) intentId tenantId).keepsBooks
  | resolve i resolution =>
      cases resolution with
      | allow => exact absurd trivial h
      | block =>
          refine hdiscard ((only_select (P := fun _ => True) _).keepsBooks.bind fun found => ?_)
          cases found with
          | none => exact does_throw _
          | some intent =>
              refine Does.bind ?_ fun _ => (bypasses_verdict _ _ : OnlyBypasses i _).keepsBooks
              unfold actOnHeld
              split_ifs
              · exact (only_voidIntent (P := fun _ => True) _ _).keepsBooks.bind fun _ => does_ret _
              · exact does_ret _
  | refund tenantId i => exact hdiscard (only_refundRoute _).keepsBooks

/-- What the run says of the steps of a request. -/
def Request.Moves (request : Request) (t id : Id) (σ σ' : Shared Backend) : Prop :=
  ¬ request.Settles → Db.Unbooked t id σ'.store → Db.Unbooked t id σ.store

/-- A request amid others. -/
theorem Request.booked (hnumber : ∀ n : Int, rt.toNumber (.num n) = some n) (hcharge : ∀ n, charge.amountCents = some n → 0 < n)
    {σ : Shared Backend} (hσ : (bookedCourse rt t id charge).inv σ) (request : Request) :
    (request.job rt).Amid (bookedCourse rt t id charge) (request.Moves t id)
      (Indebts (bookedCourse rt t id charge) (request.Moves t id) (Db.Unbooked t id) (request.Updates rt id)) (fun _ _ => True)
      (fun _ _ => True) σ := by
  by_cases hsettles : request.Settles
  · cases request with
    | notification event => exact booked_notification hcharge hσ
    | stripeEvent event => exact booked_stripeEvent hcharge hσ
    | capture intentId tenantId => exact booked_capture hnumber hcharge hσ _ _
    | resolve i resolution =>
        cases resolution with
        | allow => exact booked_resolve hnumber hcharge hσ _
        | block => exact False.elim hsettles
    | _ => exact False.elim hsettles
  · exact amid_keepsBooks (K := fun _ => True) (keepsBooks_request hsettles) (fun _ _ _ h => h) trivial
      fun _ _ _ _ hmoves _ hbad _ => .inl (hmoves hsettles hbad)

/-- An intent that is SUCCEEDED has its capture in the ledger, in every state of a run in order where all requests that
have begun have returned. -/
theorem succeeded_booked {ι : Type} [DecidableEq ι] {requests : ι → Request} {row : PaymentIntent} {db : Db} {w : World}
    (hnumber : ∀ n : Int, rt.toNumber (.num n) = some n) (hunique : (db.paymentIntents.map (·.id)).Nodup)
    (hrow : row ∈ db.paymentIntents)
    (hpositive : ∀ n, (resolveIntentCharge rt (db.withLink row)).amountCents = some n → 0 < n)
    (hnew : ¬ db.Unbooked row.tenantId row.id) {p : Pool Backend ι Unit}
    (hp : Pool.ReachableIf (BookedInOrder rt requests row.tenantId row.id) (Pool.init (fun i => (requests i).job rt) db w) p)
    (hreturned : p.Returned) (hsucceeded : p.shared.store.statusOf row.id = some .succeeded) :
    p.shared.store.isCaptured row.tenantId row.id = true := by
  have hsole : ∀ r ∈ db.paymentIntents, r.id = row.id → r = row := fun r hr hid => Data.eq_of_key hunique hr hrow hid
  have hinv : (bookedCourse rt row.tenantId row.id (resolveIntentCharge rt (db.withLink row))).inv ⟨db, w⟩ :=
    ⟨⟨row.correlationId, ⟨row, hrow, rfl⟩, fun r hr hid => by rw [hsole r hr hid]; exact ⟨rfl, rfl⟩⟩,
      fun r hr hid => by rw [hsole r hr hid]⟩
  have hgood : ¬ Db.Unbooked row.tenantId row.id p.shared.store :=
    Pool.good_of_returned hinv hnew (fun i => (requests i).booked hnumber hpositive hinv)
      (fun p i p' _ hcond => ⟨⟨hcond.settles, fun _ _ => trivial⟩, hcond.updates⟩) hp hreturned
  by_contra hnot
  exact hgood ⟨hsucceeded, Bool.eq_false_iff.mpr hnot⟩

end Runs

/-! ## Requests for one intent -/

theorem readingRuntime_toNumber (n : Int) : readingRuntime.toNumber (.num n) = some n := congrArg some (Rat.num_intCast n)

/-- The intent over 10.00. -/
def vpsRow (status : PaymentIntentStatus) : PaymentIntent :=
  { vpsIntent 7 1 "c7" with status, providerRef := some "charge 7" }

theorem vpsRow_positive (status : PaymentIntentStatus) (n : Int)
    (h : (resolveIntentCharge readingRuntime ((vpsDb status).withLink (vpsRow status))).amountCents = some n) : 0 < n := by
  have hcents : (resolveIntentCharge readingRuntime ((vpsDb status).withLink (vpsRow status))).amountCents = some 1000 := rfl
  rw [hcents] at h
  cases h
  decide

/-- The notification of the charge beside a status query. -/
def chargedRequests : Bool → Request
  | true => .notification (chargeOf "c7")
  | false => .status 1 7

/-- The next transaction begins with a look at the tables. -/
def looksFirst : Job Unit → Bool
  | .txn (.read _) _ => true
  | _ => false

/-- The query leaves no capture owed, and after the update of the notification a settlement is next. -/
def chargedCheck (p : Pool Backend Bool Unit) (i : Bool) (p' : Pool Backend Bool Unit) : Bool :=
  match i with
  | true =>
      match (p'.threads true).phase with
      | .between j => decide (p'.shared.store.Unbooked 1 7 → looksFirst j = true)
      | .inside _ _ _ => true
  | false => decide (p'.shared.store.Unbooked 1 7 → p.shared.store.Unbooked 1 7)

theorem bookedInOrder_of_check {p p' : Pool Backend Bool Unit} {i : Bool} (h : chargedCheck p i p' = true) :
    BookedInOrder readingRuntime chargedRequests 1 7 p i p' := by
  cases i with
  | true =>
      refine ⟨fun hsettles => absurd trivial hsettles, fun j hj hunbooked _ found verified e _ hfailed => ?_⟩
      rw [chargedCheck, hj] at h
      have hlooks := of_decide_eq_true h hunbooked
      -- A failed update is followed by the event, whose id comes first.
      have hevent : looksFirst (discard (finishNotified readingRuntime (chargeOf "c7") (some found) verified
        ⟨none, some e, false⟩)) = false := rfl
      rw [hfailed, hevent] at hlooks
      cases hlooks
  | false => exact ⟨fun _ => of_decide_eq_true h, fun _ _ _ => trivial⟩

/-- The query, which has found the intent PROCESSING, writes the success once the notification has booked it. -/
theorem succeeded_booked_charged :
    ∃ p, Pool.ReachableIf (BookedInOrder readingRuntime chargedRequests 1 7)
        (Pool.init (fun i => (chargedRequests i).job readingRuntime) (vpsDb .processing) .counting) p ∧ p.Returned ∧
      p.shared.store.statusOf 7 = some .succeeded ∧ p.shared.store.isCaptured 1 7 = true := by
  obtain ⟨p, hp, hend⟩ := Pool.ReachableIf.exists_of_check
    (Pool.init (fun i => (chargedRequests i).job readingRuntime) (vpsDb .processing) .counting)
    (List.replicate 7 false ++ List.replicate 71 true ++ List.replicate 5 false)
    (fun p => decide ((∀ i, (p.threads i).phase.Finished ∧ ¬ (p.threads i).phase.Failed) ∧
      p.shared.store.statusOf 7 = some .succeeded)) chargedCheck (fun _ _ _ _ h => bookedInOrder_of_check h) (by rfl)
  obtain ⟨hended, hsucceeded⟩ := of_decide_eq_true hend
  have hreturned : p.Returned := fun i => .inr ((hended i).1.returned (hended i).2)
  have hrow : vpsRow .processing ∈ (vpsDb .processing).paymentIntents := List.mem_cons_self
  exact ⟨p, hp, hreturned, hsucceeded,
    succeeded_booked readingRuntime_toNumber (by decide) hrow (vpsRow_positive _) (by decide) hp hreturned hsucceeded⟩

/-- A status query. -/
def statusRequests : Unit → Request := fun _ => .status 1 7

/-- The status query writes the success that the provider answers, and books nothing. -/
theorem succeeded_not_booked :
    ¬ ∀ (rt : Runtime) (requests : Unit → Request) (row : PaymentIntent) (db : Db) (w : World),
      (∀ n : Int, rt.toNumber (.num n) = some n) → (db.paymentIntents.map (·.id)).Nodup → row ∈ db.paymentIntents →
        (∀ n, (resolveIntentCharge rt (db.withLink row)).amountCents = some n → 0 < n) →
          ¬ db.Unbooked row.tenantId row.id → ∀ p, Pool.Reachable (Pool.init (fun i => (requests i).job rt) db w) p →
            p.Returned → p.shared.store.statusOf row.id = some .succeeded →
              p.shared.store.isCaptured row.tenantId row.id = true := by
  intro h
  obtain ⟨p, hp, hend⟩ := Pool.ReachableIf.exists_of_runSchedule
    (Pool.init (fun i => (statusRequests i).job readingRuntime) (vpsDb .processing) .counting) (List.replicate 12 ())
    (fun p => decide (((p.threads ()).phase.Finished ∧ ¬ (p.threads ()).phase.Failed) ∧
      p.shared.store.statusOf 7 = some .succeeded ∧ p.shared.store.isCaptured 1 7 = false)) (fun _ _ _ => trivial) (by rfl)
  obtain ⟨⟨hfinished, hok⟩, hsucceeded, huncaptured⟩ := of_decide_eq_true hend
  have hcaptured := h readingRuntime statusRequests (vpsRow .processing) (vpsDb .processing) .counting readingRuntime_toNumber
    (by decide) List.mem_cons_self (vpsRow_positive _) (by decide) p hp (fun _ => .inr (hfinished.returned hok)) hsucceeded
  rw [show p.shared.store.isCaptured (vpsRow .processing).tenantId (vpsRow .processing).id = false from huncaptured] at hcaptured
  cases hcaptured

end CorpoPay.Settlement
