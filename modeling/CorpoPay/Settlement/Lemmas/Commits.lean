import CorpoPay.Settlement.Lemmas.Capture
import CorpoPay.Settlement.Lemmas.Refund
import CorpoPay.Settlement.Requests
import CorpoPay.Transaction.Amid

/-!
# What a request commits

Beside others a transaction reads rows of different moments, so its effect is what its pending writes come to whatever
its reads return: movements that are appended, and a change of the intents row by row.
-/

namespace CorpoPay.Settlement

open Transaction.Tx

/-! ## Commits -/

/-- What an intent with the link charges. -/
def PaymentLink.price (link : PaymentLink) : Int × Currency := (link.amount, link.currency)

/-- The refunds of intents stay, with their amounts. -/
def RefundsStay (db db' : Db) : Prop :=
  ∀ r ∈ db.refunds, ∃ r' ∈ db'.refunds, r'.id = r.id ∧ r'.paymentIntentId = r.paymentIntentId ∧ r'.amount = r.amount

theorem RefundsStay.of_eq {db db' : Db} (h : db'.refunds = db.refunds) : RefundsStay db db' :=
  fun r hr => ⟨r, h ▸ hr, rfl, rfl, rfl⟩

theorem RefundsStay.trans {db₁ db₂ db₃ : Db} (h : RefundsStay db₁ db₂) (h' : RefundsStay db₂ db₃) :
    RefundsStay db₁ db₃ := by
  intro r hr
  obtain ⟨r₂, hr₂, hid, hintent, hamount⟩ := h r hr
  obtain ⟨r₃, hr₃, hid', hintent', hamount'⟩ := h' r₂ hr₂
  exact ⟨r₃, hr₃, hid'.trans hid, hintent'.trans hintent, hamount'.trans hamount⟩

/-- The writes append the movements `ms` and change the intents by `f`. -/
structure Commits (ms : List Movement) (f : PaymentIntent → PaymentIntent) (v : Db → Db) : Prop where
  movements : ∀ db, (v db).movements = db.movements ++ ms
  paymentIntents : ∀ db, (v db).paymentIntents = db.paymentIntents.map f
  prices : ∀ db id, ((v db).paymentLink id).map PaymentLink.price = (db.paymentLink id).map PaymentLink.price
  refunds : ∀ db, RefundsStay db (v db)

/-- The writes of a statement on another table. -/
theorem Commits.of_rest {u : Db → Db} (hentries : ∀ db, (u db).ledgerEntries = db.ledgerEntries)
    (hintents : ∀ db, (u db).paymentIntents = db.paymentIntents)
    (hlinks : ∀ db, (u db).paymentLinks = db.paymentLinks) (hrefunds : ∀ db, (u db).refunds = db.refunds) :
    Commits [] id u where
  movements db := by rw [Db.movements, hentries, List.append_nil]; rfl
  paymentIntents db := by rw [hintents, List.map_id]
  prices db id := by rw [Db.paymentLink, hlinks]; rfl
  refunds db := .of_eq (hrefunds db)

theorem commits_nothing : Commits [] id (fun db : Db => db) :=
  .of_rest (fun _ => rfl) (fun _ => rfl) (fun _ => rfl) fun _ => rfl

section Writes

variable {ms ms' : List Movement} {f g : PaymentIntent → PaymentIntent} {u v : Db → Db} {t : Id}

theorem Commits.comp (h : Commits ms f v) (h' : Commits ms' g u) : Commits (ms ++ ms') (g ∘ f) (u ∘ v) where
  movements db := by rw [Function.comp_apply, h'.movements, h.movements, List.append_assoc]
  paymentIntents db := by rw [Function.comp_apply, h'.paymentIntents, h.paymentIntents, List.map_map]
  prices db id := (h'.prices (v db) id).trans (h.prices db id)
  refunds db := (h.refunds db).trans (h'.refunds (v db))

/-- A statement that changes neither the ledger nor the intents. -/
theorem Commits.rest (h : Commits ms f v) (hu : Commits [] id u) : Commits ms f (u ∘ v) := by
  have h' := h.comp hu
  rwa [List.append_nil] at h'

/-! ## Statements -/

theorem commits_entry (row : LedgerEntry) :
    Commits [row.toMovement] id (fun db => { db with ledgerEntries := db.ledgerEntries ++ [row] }) where
  movements db := by simp [Db.movements]
  paymentIntents db := (List.map_id _).symm
  prices _ _ := rfl
  refunds _ := .of_eq rfl

theorem prices_map {f : PaymentLink → PaymentLink} (hf : ∀ r, (f r).id = r.id ∧ (f r).price = r.price)
    (links : List PaymentLink) (id : Id) :
    ((links.map f).find? (·.id = id)).map PaymentLink.price = (links.find? (·.id = id)).map PaymentLink.price := by
  have hid : (fun r : PaymentLink => decide (r.id = id)) ∘ f = fun r => decide (r.id = id) := by
    funext r
    simp only [Function.comp, (hf r).1]
  have hprice : PaymentLink.price ∘ f = PaymentLink.price := funext fun r => (hf r).2
  rw [List.find?_map, hid, Option.map_map, hprice]

theorem commits_linkStatus (i : Id) (status : PaymentLinkStatus) :
    Commits [] id (fun db : Db =>
      { db with paymentLinks := db.paymentLinks.map fun r => if r.id = i then { r with status } else r }) where
  movements db := (List.append_nil _).symm
  paymentIntents db := (List.map_id _).symm
  prices db id := prices_map (fun r => by split_ifs <;> exact ⟨rfl, rfl⟩) db.paymentLinks id
  refunds _ := .of_eq rfl

theorem writes_createEntry {m : Movement} {postingId : Id} {balanceAfter : Int} (h : Commits ms f v) :
    (LedgerEntry.create m postingId balanceAfter).Writes (fun v' _ => Commits (ms ++ [m]) f v') v := by
  simp only [LedgerEntry.create, bind_eq, pure_eq, writes_bind, writes_get]
  exact fun id createdAt _ _ => writes_ite _ (fun _ => trivial) fun _ => writes_ite _ (fun _ => trivial) fun _ =>
    h.comp (commits_entry { toMovement := m, id, postingId, balanceAfter, createdAt })

theorem commits_post {d c : LedgerLeg} {source : Meta} (h : Commits ms f v) :
    (post t d c source).Writes (fun v' _ => Commits (ms ++ (⟨d, c, source⟩ : LedgerPosting).movements t) f v') v := by
  simp only [post, postEntry, accountBalanceCents, bind_eq, pure_eq, writes_bind]
  refine writes_lift fun p hp => writes_lift fun p' hp' => ?_
  obtain ⟨rfl, -⟩ := posting_eq_ok.mp hp
  obtain ⟨rfl, -⟩ := posting_eq_ok.mp hp'
  intro postingId _ _
  refine (writes_createEntry h).mono fun v₁ _ h₁ => (writes_createEntry h₁).mono fun v₂ _ h₂ => ?_
  rw [List.append_assoc] at h₂
  exact h₂

theorem commits_postPositive {amount : Int} {d c : LedgerLeg} {source : Meta} (h : Commits ms f v) :
    (postPositive t amount d c source).Writes
      (fun v' _ => Commits (ms ++ positiveMovements t amount d c source) f v') v := by
  unfold positiveMovements
  refine writes_ite _ (fun hpos => ?_) fun hpos => ?_
  · rw [if_pos hpos]; exact commits_post h
  · rw [if_neg hpos, List.append_nil]; exact h

theorem commits_splitCreate {row : Id → Split} (h : Commits ms f v) :
    (Split.create row).Writes (fun v' _ => Commits ms f v') v := by
  simp only [Split.create, bind_eq, pure_eq, writes_bind, writes_get]
  exact fun _ _ => writes_ite _ (fun _ => trivial) fun _ =>
    h.rest (.of_rest (fun _ => rfl) (fun _ => rfl) (fun _ => rfl) fun _ => rfl)

theorem commits_intentUpdate {i : Id} {g : PaymentIntent → PaymentIntent} (h : Commits ms f v) :
    (PaymentIntent.update i g).Writes (fun v' _ => Commits ms ((fun r => if r.id = i then g r else r) ∘ f) v') v := by
  simp only [PaymentIntent.update, bind_eq, pure_eq, writes_bind, writes_acquire, writes_get]
  intro s
  cases (s : Db).paymentIntent i with
  | none => trivial
  | some row =>
      have hmap : Commits [] (fun r => if r.id = i then g r else r) fun db : Db =>
          { db with paymentIntents := db.paymentIntents.map fun r => if r.id = i then g r else r } :=
        ⟨fun _ => (List.append_nil _).symm, fun _ => rfl, fun _ _ => rfl, fun _ => .of_eq rfl⟩
      have h' := h.comp hmap
      rw [List.append_nil] at h'
      exact h'

theorem commits_transactionCreate {row : Id → ProviderTransaction} (h : Commits ms f v) :
    (ProviderTransaction.create row).Writes (fun v' _ => Commits ms f v') v := by
  simp only [ProviderTransaction.create, bind_eq, pure_eq, writes_bind, writes_get]
  exact fun _ _ => writes_ite _ (fun _ => trivial) fun _ =>
    h.rest (.of_rest (fun _ => rfl) (fun _ => rfl) (fun _ => rfl) fun _ => rfl)

theorem commits_transactionUpdate {id : Id} {g : ProviderTransaction → ProviderTransaction} (h : Commits ms f v) :
    (ProviderTransaction.update id g).Writes (fun v' _ => Commits ms f v') v := by
  simp only [ProviderTransaction.update, bind_eq, writes_bind, writes_acquire, writes_get]
  intro s
  cases (s : Db).providerTransactions.find? (·.id = id) with
  | none => trivial
  | some row => exact h.rest (.of_rest (fun _ => rfl) (fun _ => rfl) (fun _ => rfl) fun _ => rfl)

theorem commits_webhookCreate {key : String} {row : Id → WebhookEvent} (h : Commits ms f v) :
    (WebhookEvent.create key row).Writes (fun v' _ => Commits ms f v') v := by
  simp only [WebhookEvent.create, bind_eq, pure_eq, writes_bind, writes_acquire, writes_get]
  exact fun _ _ => writes_ite _ (fun _ => trivial) fun _ =>
    h.rest (.of_rest (fun _ => rfl) (fun _ => rfl) (fun _ => rfl) fun _ => rfl)

theorem commits_setLinkStatus {id : Id} {status : PaymentLinkStatus} (h : Commits ms f v) :
    (PaymentLink.setStatus id status).Writes (fun v' _ => Commits ms f v') v := by
  simp only [PaymentLink.setStatus, bind_eq, writes_bind, writes_acquire, writes_get]
  intro s
  cases (s : Db).paymentLink id with
  | none => trivial
  | some row => exact h.rest (commits_linkStatus id status)

theorem commits_refundCreate {row : Id → Refund} (h : Commits ms f v) :
    (Refund.create row).Writes (fun v' _ => Commits ms f v') v := by
  simp only [Refund.create, bind_eq, pure_eq, writes_bind, writes_acquire, writes_get]
  refine fun id _ => writes_ite _ (fun _ => trivial) fun _ => h.rest ⟨fun _ => (List.append_nil _).symm,
    fun _ => (List.map_id _).symm, fun _ _ => rfl, fun db r hr => ⟨r, List.mem_append_left _ hr, rfl, rfl, rfl⟩⟩

theorem commits_refundUpdate {id : Id} {g : Refund → Refund}
    (hg : ∀ r, (g r).id = r.id ∧ (g r).paymentIntentId = r.paymentIntentId ∧ (g r).amount = r.amount)
    (h : Commits ms f v) : (Refund.update id g).Writes (fun v' _ => Commits ms f v') v := by
  simp only [Refund.update, bind_eq, pure_eq, writes_bind, writes_acquire, writes_get]
  intro s
  cases (s : Db).refunds.find? (·.id = id) with
  | none => trivial
  | some row =>
      refine h.rest ⟨fun _ => (List.append_nil _).symm, fun _ => (List.map_id _).symm, fun _ _ => rfl, fun db r hr => ?_⟩
      refine ⟨if r.id = id then g r else r, List.mem_map.mpr ⟨r, hr, rfl⟩, ?_⟩
      split_ifs
      · exact hg r
      · exact ⟨rfl, rfl, rfl⟩

/-! ## Captures -/

theorem commits_shares {source : Meta} {currency : Currency} {sourceAccount beneficiaryAccount : LedgerAccount}
    {row : ShareAllocation → Id → Split} (as : List ShareAllocation) (h : Commits ms f v) :
    (collect (fun a : ShareAllocation => (post t (debit sourceAccount a.amountCents .split none currency)
        (credit beneficiaryAccount a.amountCents .split (some a.partyId) currency) source).bind fun _ =>
        Split.create (row a)) as).Writes
      (fun v' _ => Commits (ms ++ as.flatMap (shareMovements t sourceAccount beneficiaryAccount currency source)) f v')
      v := by
  induction as generalizing ms v with
  | nil =>
      show Commits (ms ++ []) f v
      rwa [List.append_nil]
  | cons a as ih =>
      simp only [collect, writes_bind, List.flatMap_cons]
      refine (commits_post h).mono fun v₁ _ h₁ => (commits_splitCreate h₁).mono fun v₂ _ h₂ => (ih h₂).mono fun v₃ _ h₃ => ?_
      rw [List.append_assoc] at h₃
      exact h₃

theorem commits_executeSplit {input : ExecuteSplitInput} {trigger : SplitTrigger} {shares : List ShareSpec}
    (h : Commits ms f v) :
    (executeSplitInTx t input trigger shares).Writes (fun v' _ => ∃ result,
      Commits (ms ++ splitMovements t trigger (input.held.getD false) (input.currency.getD .mad)
        ⟨some input.sourceType, some input.sourceId⟩ result) f v') v := by
  simp only [executeSplitInTx, bind_eq, pure_eq, writes_bind]
  refine writes_lift fun result _ => (commits_shares _ h).mono fun v₁ _ h₁ => ?_
  refine writes_ite _ (fun hpos => (commits_post h₁).mono fun v₂ _ h₂ => ⟨result, ?_⟩) fun hpos => ⟨result, ?_⟩
  · rw [splitMovements, platformMovements, if_pos hpos, ← List.append_assoc]
    exact h₂
  · rw [splitMovements, platformMovements, if_neg hpos, List.append_nil]
    exact h₁

theorem commits_bookCapture {input : SettleCaptureInput} {rule : Option SplitRule} {plan : CaptureSettlementPlan} :
    (bookCapture t input rule plan).Writes (fun v' _ => ∃ cp, Commits (captureMovements t input cp) id v')
      (fun db : Db => db) := by
  unfold bookCapture
  simp only [bind_eq, pure_eq, writes_bind]
  refine (commits_post commits_nothing).mono fun v₁ _ h₁ => ?_
  cases rule with
  | none =>
      simp only [writes_ret, writes_bind, Option.isNone_none, Option.isSome_none]
      refine (commits_postPositive h₁).mono fun v₂ _ h₂ => (commits_postPositive h₂).mono fun v₃ _ h₃ =>
        (commits_postPositive h₃).mono fun v₄ _ h₄ => ?_
      refine writes_ite _ (fun _ => (commits_postPositive h₄).mono fun v₅ _ h₅ => ⟨⟨none, plan⟩, ?_⟩)
        fun hn => absurd trivial hn
      simp only [List.append_assoc, List.nil_append] at h₅
      exact h₅
  | some rule =>
      simp only [writes_bind, writes_ret, Option.isNone_some, Option.isSome_some]
      refine (commits_executeSplit h₁).mono ?_
      rintro v₂ _ ⟨result, h₂⟩
      refine (commits_postPositive h₂).mono fun v₃ _ h₃ => (commits_postPositive h₃).mono fun v₄ _ h₄ =>
        (commits_postPositive h₄).mono fun v₅ _ h₅ => ?_
      refine writes_ite _ (fun hn => absurd hn (by simp)) fun _ => ⟨⟨some (rule, result), plan⟩, ?_⟩
      simp only [List.append_assoc, List.nil_append] at h₅
      rw [captureMovements, netMovements, List.append_nil]
      exact h₅

theorem commits_settleCapture {input : SettleCaptureInput} :
    (settleCaptureInTx t input).Writes (fun v' _ => ∃ cp, Commits (captureMovements t input cp) id v')
      (fun db : Db => db) := by
  simp only [settleCaptureInTx, bind_eq, pure_eq, writes_bind, writes_get]
  refine fun _ _ _ => writes_ite _ (fun _ => ?_) fun _ => ?_
  · simp only [writes_bind, writes_get]
    exact fun _ => writes_lift fun _ _ => writes_lift fun _ _ => commits_bookCapture
  · simp only [writes_bind, writes_ret]
    exact writes_lift fun _ _ => writes_lift fun _ _ => commits_bookCapture

/-! ## Refunds -/

theorem commits_reversals {refundId : Id} {currency : Currency} (credits : List Movement) (h : Commits ms f v) :
    (forEach (fun row : Movement => when (0 < row.amount) (post t (debit row.account row.amount .refund none currency)
        (credit .cash row.amount .refund none currency) ⟨some .refund, some refundId⟩)) credits).Writes
      (fun v' _ => Commits (ms ++ credits.flatMap (reversal t refundId currency)) f v') v := by
  induction credits generalizing ms v with
  | nil =>
      show Commits (ms ++ []) f v
      rwa [List.append_nil]
  | cons row rows ih =>
      simp only [forEach, writes_bind, List.flatMap_cons]
      refine (commits_postPositive h).mono fun v₁ _ h₁ => (ih h₁).mono fun v₂ _ h₂ => ?_
      rw [List.append_assoc] at h₂
      exact h₂

end Writes

end CorpoPay.Settlement
