import CorpoPay.Settlement.Lemmas.Keeps
import CorpoPay.Settlement.StripeWebhooks
import CorpoPay.Transaction.Total

/-!
# The status of an intent

Every statement but an update of the row leaves the intents as they are.
-/

namespace CorpoPay.Settlement

open Transaction.Tx
open Transaction (Job.keeps_bind Job.keeps_ret Job.keeps_throw Job.keeps_get Job.keeps_transaction Job.keeps_ofExcept
  Job.keeps_query Job.keeps_retry)

def Db.statusOf (db : Db) (id : Id) : Option PaymentIntentStatus := (db.paymentIntent id).map (·.status)

/-! ## Frame -/

def SameIntents (db db' : Db) : Prop := db'.paymentIntents = db.paymentIntents

instance : IsPreorder Db SameIntents where
  refl := fun _ => rfl
  trans := fun _ _ _ h h' => Eq.trans h' h

theorem OnlyLedger.sameIntents {db db' : Db} (h : OnlyLedger db db') : SameIntents db db' := by rw [SameIntents, h]

theorem SameIntents.statusOf {db db' : Db} (h : SameIntents db db') (id : Id) : db'.statusOf id = db.statusOf id := by
  rw [Db.statusOf, Db.statusOf, Db.paymentIntent, Db.paymentIntent, h]

theorem sameIntents_postings : Postings SameIntents where
  post _ := fun db => (keeps_post_only db).mono (fun _ _ h => h.sameIntents) fun _ h => h
  postEntry _ := fun db => (keeps_postEntry_only db).mono (fun _ _ h => h.sameIntents) fun _ h => h

theorem sameIntents_settleCapture {t : Id} {input : SettleCaptureInput} : (settleCapture t input).Keeps SameIntents :=
  keeps_settleCapture sameIntents_postings fun _ _ => keeps_splitCreate fun _ _ => rfl

section Frame

variable {R : Db → Db → Prop} [IsPreorder Db R]

theorem keeps_refuseSettlement {t intentId : Id} : (refuseSettlement t intentId).Keeps R := by
  refine Job.keeps_transaction (keeps_bind (keeps_get _) fun settled => ?_)
  cases settled
  · exact keeps_throw _
  · exact keeps_ret _

theorem keeps_settleCharge {t intentId : Id} {charge : Charge}
    (h : ∀ input : SettleCaptureInput, input.intentId = intentId → (settleCapture t input).Keeps R) :
    (settleCharge t intentId charge).Keeps R := by
  unfold settleCharge
  split
  · exact h _ rfl
  · split_ifs
    · exact Job.keeps_ret _
    · exact keeps_refuseSettlement
  · exact keeps_refuseSettlement

theorem keeps_linkStatus {id : Id} {status : PaymentLinkStatus} (h : ∀ db ls, R db { db with paymentLinks := ls }) :
    (PaymentLink.setStatus id status).Keeps R := by
  refine keeps_bind (keeps_acquire _) fun _ => keeps_bind (keeps_get _) fun row => ?_
  cases row with
  | none => exact keeps_throw _
  | some row => exact keeps_modify fun db => h db _

theorem keeps_transactionCreate {row : Id → ProviderTransaction}
    (h : ∀ db rs, R db { db with providerTransactions := rs }) : (ProviderTransaction.create row).Keeps R := by
  refine keeps_bind (keeps_query _) fun id => keeps_bind (keeps_get _) fun taken => ?_
  cases taken
  · exact keeps_bind (keeps_modify fun db => h db _) fun _ => keeps_ret _
  · exact keeps_throw _

theorem keeps_transactionUpdate {id : Id} {f : ProviderTransaction → ProviderTransaction}
    (h : ∀ db rs, R db { db with providerTransactions := rs }) : (ProviderTransaction.update id f).Keeps R := by
  refine keeps_bind (keeps_acquire _) fun _ => keeps_bind (keeps_get _) fun row => ?_
  cases row with
  | none => exact keeps_throw _
  | some row => exact keeps_modify fun db => h db _

theorem keeps_webhookCreate {key : String} {row : Id → WebhookEvent} (h : ∀ db es, R db { db with webhookEvents := es }) :
    (WebhookEvent.create key row).Keeps R := by
  refine keeps_bind (keeps_query _) fun id => keeps_bind (keeps_acquire _) fun _ => keeps_bind (keeps_get _) fun taken => ?_
  cases taken
  · exact keeps_bind (keeps_modify fun db => h db _) fun _ => keeps_ret _
  · exact keeps_throw _

end Frame

/-! ## Updates -/

theorem statusOf_update (db : Db) (i : Id) {id : Id} (f : PaymentIntent → PaymentIntent) (hf : ∀ r, (f r).id = r.id) :
    Db.statusOf { db with paymentIntents := db.paymentIntents.map fun r => if r.id = i then f r else r } id =
      if id = i then (db.paymentIntent id).map fun r => (f r).status else db.statusOf id := by
  have hmap : ∀ rows : List PaymentIntent, (rows.map fun r => if r.id = i then f r else r).find? (·.id = id) =
      (rows.find? (·.id = id)).map fun r => if r.id = i then f r else r := by
    intro rows
    rw [List.find?_map]
    congr 2
    funext r
    simp only [Function.comp]
    split_ifs with hr
    · rw [hf r]
    · rfl
  rw [Db.statusOf, Db.paymentIntent, hmap]
  unfold Db.statusOf Db.paymentIntent
  cases hrow : db.paymentIntents.find? (·.id = id) with
  | none => simp
  | some r =>
      have hid : r.id = id := by simpa using List.find?_some hrow
      subst hid
      by_cases hr : r.id = i <;> simp [hr]

/-- Alone, the update of a row that exists goes through. -/
theorem ensures_setStatus {db : Db} {i : Id} {status : PaymentIntentStatus} {r : PaymentIntent}
    (hr : db.paymentIntent i = some r) :
    (PaymentIntent.setStatus i status).Ensures
      (fun _ (db' : Db) => ∀ id, db'.statusOf id = if id = i then some status else db.statusOf id) (fun _ => False) db := by
  unfold PaymentIntent.setStatus PaymentIntent.update
  simp only [bind_eq, ensures_bind, ensures_acquire, ensures_get, hr, ensures_modify, pure_eq, ensures_ret]
  intro id
  rw [statusOf_update db i (fun r => { r with status }) fun _ => rfl]
  split_ifs with h
  · rw [h, hr]; rfl
  · rfl

/-! ## Queries -/

/-- What `findIntent` finds. -/
def Db.findIntent (db : Db) (provider : Provider) (value : Option Json)
    (selects : Json → Except Failure (PaymentIntent → Bool)) : Except Failure (Option PaymentIntent) :=
  match value.filter (·.truthy) with
  | none => .ok none
  | some value => (selects value).map (db.firstIntent provider)

theorem findIntent_spec {db : Db} (provider : Provider) (value : Option Json)
    (selects : Json → Except Failure (PaymentIntent → Bool)) :
    (findIntent provider value selects).Ensures (fun r db' => db' = db ∧ r = db.findIntent provider value selects) db := by
  unfold findIntent Db.findIntent
  cases value.filter (·.truthy) with
  | none => exact ⟨rfl, rfl⟩
  | some value =>
      dsimp only
      refine Transaction.Job.ensures_ofExcept_bind (fun selected h => ?_) fun e h => ?_
      · exact ⟨rfl, by rw [h]; rfl⟩
      · exact ⟨rfl, by rw [h]; rfl⟩

theorem mem_of_newestIntent {rt : Runtime} {db : Db} {found : PaymentIntent} {provider : Provider} {value : Json}
    (h : db.newestIntent rt provider value = some found) : found ∈ db.paymentIntents := by
  have hmem := List.mem_of_mem_head? h
  rw [List.mem_insertionSort] at hmem
  exact (List.mem_filter.mp hmem).1

theorem statusOf_of_mem {db : Db} {found : PaymentIntent} (hunique : (db.paymentIntents.map (·.id)).Nodup)
    (hmem : found ∈ db.paymentIntents) : db.statusOf found.id = some found.status := by
  obtain ⟨row, hrow⟩ : ∃ row, db.paymentIntent found.id = some row :=
    Option.isSome_iff_exists.mp (List.find?_isSome.mpr ⟨found, hmem, by simp⟩)
  have hid : row.id = found.id := by simpa using List.find?_some hrow
  obtain rfl := List.inj_on_of_nodup_map hunique (List.mem_of_find?_eq_some hrow) hmem hid
  rw [Db.statusOf, hrow]
  rfl

/-- The status of a row that is there is set. -/
theorem succeeds_setStatus {db : Db} {w : World} {intentId : Id} {status : PaymentIntentStatus} {row : PaymentIntent}
    {Q : PaymentIntent → Db → World → Prop} (hrow : db.paymentIntent intentId = some row)
    (h : Q { row with status } { db with
      paymentIntents := db.paymentIntents.map fun r => if r.id = intentId then { r with status } else r } w) :
    Succeeds (I := Backend) Q (PaymentIntent.setStatus intentId status) db w := by
  unfold PaymentIntent.setStatus PaymentIntent.update
  simp only [bind_eq, succeeds_bind, succeeds_acquire, succeeds_get]
  rw [hrow]
  exact h

end CorpoPay.Settlement
