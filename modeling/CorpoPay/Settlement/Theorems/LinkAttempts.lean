import CorpoPay.Settlement.Theorems.ChargedAmount
import CorpoPay.Transaction.Commits
import CorpoPay.Transaction.Tickets

/-!
# The attempts of a payment link

A payment through a link first counts an attempt. The count never passes the maximum of the link, however the payments
interleave, and each intent of the link has an attempt of its own.
-/

namespace CorpoPay.Settlement

open Transaction (Tickets)
open Transaction.Job (Does Does.bind Does.mono does_get does_ofExcept does_query does_ret does_throw does_transaction)
open Transaction.Tx (leaves_acquire leaves_bind leaves_get leaves_modify leaves_query leaves_ret leaves_throw)

variable {α : Type} {rt : Runtime} {link : PaymentLink}

def PaymentIntent.isOf (linkId : Id) (r : PaymentIntent) : Bool := r.paymentLinkId = some linkId

/-- The intents of a link. -/
def Db.intentsOf (linkId : Id) (db : Db) : Nat := db.paymentIntents.countP (PaymentIntent.isOf linkId)

/-- The row of the link, where `n` attempts are counted, is the only one with its id. -/
def Db.HasLink (link : PaymentLink) (n : Nat) (db : Db) : Prop :=
  db.paymentLinks.filter (·.id = link.id) = [{ link with attemptCount := n }]

/-- What an attempt reads and writes of the link. -/
def Db.linkView (linkId : Id) (db : Db) : List PaymentLink × Nat :=
  (db.paymentLinks.filter (·.id = linkId), db.intentsOf linkId)

def attempts (link : PaymentLink) : Tickets Backend where
  issued db := ((db.paymentLinks.filter (·.id = link.id)).map (·.attemptCount)).sum
  used db := db.intentsOf link.id
  ceiling := link.maxAttempts
  desk := .paymentLink link.id
  inv db := ∃ n, db.HasLink link n

theorem Db.HasLink.issued {n : Nat} {db : Db} (h : db.HasLink link n) : (attempts link).issued db = n := by
  show ((db.paymentLinks.filter (·.id = link.id)).map (·.attemptCount)).sum = n
  rw [show db.paymentLinks.filter (·.id = link.id) = _ from h]
  simp

theorem Db.HasLink.mem {n : Nat} {db : Db} (h : db.HasLink link n) {r : PaymentLink} (hr : r ∈ db.paymentLinks)
    (hid : r.id = link.id) : r = { link with attemptCount := n } := by
  have hmem : r ∈ db.paymentLinks.filter (·.id = link.id) := List.mem_filter.mpr ⟨hr, decide_eq_true hid⟩
  rw [show db.paymentLinks.filter (·.id = link.id) = _ from h] at hmem
  exact List.mem_singleton.mp hmem

/-! ## Statements that count no attempt -/

/-- Writes that leave the link and its intents. -/
def SparesLink (link : PaymentLink) (w : Db → Db) : Prop := ∀ db, (w db).linkView link.id = db.linkView link.id

abbrev Sparing (link : PaymentLink) (j : Job α) : Prop := j.Does (SparesLink link) fun _ => True

theorem SparesLink.keeps {w : Db → Db} (h : SparesLink link w) :
    (∀ n db, db.HasLink link n → (w db).HasLink link n) ∧ (∀ db, (attempts link).issued (w db) = (attempts link).issued db) ∧
      ∀ db, (w db).intentsOf link.id = db.intentsOf link.id := by
  have hlinks : ∀ db, (w db).paymentLinks.filter (·.id = link.id) = db.paymentLinks.filter (·.id = link.id) :=
    fun db => congrArg Prod.fst (h db)
  refine ⟨fun n db hdb => (hlinks db).trans hdb, fun db => ?_, fun db => congrArg Prod.snd (h db)⟩
  show (((w db).paymentLinks.filter (·.id = link.id)).map (·.attemptCount)).sum = _
  rw [hlinks db]
  rfl

theorem SparesLink.trades {w : Db → Db} (h : SparesLink link w) (n : Nat) : (attempts link).Trades n w n := by
  obtain ⟨hinv, hissued, hused⟩ := h.keeps
  rintro db ⟨k, hdb⟩
  refine ⟨⟨k, hinv k db hdb⟩, ?_⟩
  show n + (w db).intentsOf link.id + _ ≤ n + db.intentsOf link.id + _
  rw [hissued, hused]

theorem sparing_transaction {body : Tx α} (h : body.Leaves (Db.linkView link.id)) : Sparing link (transaction body) :=
  does_transaction h.writes (.of_forall fun _ => trivial)

theorem sparing_select (f : Db → α) : Sparing link (selectOnce f) := does_get (fun _ => rfl) f

theorem linkView_intentUpdate {id : Id} {f : PaymentIntent → PaymentIntent} (hf : ∀ r, (f r).paymentLinkId = r.paymentLinkId) :
    (PaymentIntent.update id f).Leaves (Db.linkView link.id) := by
  refine leaves_bind (leaves_acquire _) fun _ => leaves_bind (leaves_get _) fun row => ?_
  cases row with
  | none => exact leaves_throw _
  | some row =>
      refine leaves_bind (leaves_modify fun db : Db => ?_) fun _ => leaves_ret _
      refine Prod.ext rfl ?_
      show (db.paymentIntents.map fun r => if r.id = id then f r else r).countP (PaymentIntent.isOf link.id) = _
      rw [List.countP_map]
      refine List.countP_congr fun r _ => ?_
      dsimp only [Function.comp, PaymentIntent.isOf]
      split_ifs
      · rw [hf]
      · rfl

theorem linkView_transactionCreate (row : Id → ProviderTransaction) :
    (ProviderTransaction.create row).Leaves (Db.linkView link.id) := by
  refine leaves_bind (leaves_query _) fun id => leaves_bind (leaves_get _) fun taken => ?_
  cases taken
  · exact leaves_bind (leaves_modify fun _ => rfl) fun _ => leaves_ret _
  · exact leaves_throw _

theorem linkView_agreementCreate (row : String → InstallmentAgreement) :
    (InstallmentAgreement.create row).Leaves (Db.linkView link.id) := by
  refine leaves_bind (leaves_query _) fun id => leaves_bind (leaves_acquire _) fun _ => leaves_bind (leaves_get _) fun taken => ?_
  cases taken
  · exact leaves_bind (leaves_modify fun _ => rfl) fun _ => leaves_ret _
  · exact leaves_throw _

theorem sparing_scoreRisk (tenantId : Id) (amountCents : Int) : Sparing link (scoreRisk tenantId amountCents) := by
  refine (does_query trivial).bind fun verdict => ?_
  dsimp only
  split_ifs
  · exact does_throw _
  · exact does_ret _

theorem sparing_openCheckout (session : CheckoutSession) (intentId : Id) (metadata : Option Json → Option Json) :
    Sparing link (openCheckout session intentId metadata) := by
  refine (does_query trivial).bind fun result => ?_
  cases result with
  | error message => exact does_throw _
  | ok result =>
      refine Does.bind (sparing_transaction ?_) fun _ => does_ret _
      exact leaves_bind (linkView_intentUpdate fun _ => rfl) fun _ =>
        leaves_bind (linkView_transactionCreate _) fun _ => leaves_ret _

/-! ## The intents of a payment -/

/-- An insert of an intent needs an attempt when the intent is one of the link. -/
theorem writes_intentCreate {row : Id → String → Nat → PaymentIntent} {P : (Db → Db) → Prop}
    (h : ∀ id correlationId createdAt, P fun db =>
      { db with paymentIntents := db.paymentIntents ++ [row id correlationId createdAt] }) :
    (PaymentIntent.create row).Writes (fun w _ => P w) id := by
  simp only [PaymentIntent.create, Transaction.Tx.bind_eq, Transaction.Tx.pure_eq, Transaction.Tx.writes_bind,
    Transaction.Tx.writes_get]
  exact fun _ _ _ _ => Transaction.Tx.writes_ite _ (fun _ => trivial) fun _ => h _ _ _

theorem intentsOf_insert (db : Db) (row : PaymentIntent) :
    { db with paymentIntents := db.paymentIntents ++ [row] }.intentsOf link.id =
      db.intentsOf link.id + if row.isOf link.id then 1 else 0 := by
  show (db.paymentIntents ++ [row]).countP _ = _
  rw [List.countP_append, List.countP_singleton]
  rfl

theorem sparesLink_insert {row : PaymentIntent} (h : row.paymentLinkId ≠ some link.id) :
    SparesLink link fun db => { db with paymentIntents := db.paymentIntents ++ [row] } := by
  refine fun db => Prod.ext rfl ?_
  show Db.intentsOf _ _ = db.intentsOf link.id
  rw [intentsOf_insert, PaymentIntent.isOf, decide_eq_false h]
  rfl

/-- No statement of an insert changes the links. -/
theorem trades_insert (row : PaymentIntent) (n : Nat) :
    (attempts link).Trades (n + 1) (fun db => { db with paymentIntents := db.paymentIntents ++ [row] }) n := by
  rintro db hdb
  refine ⟨hdb, ?_⟩
  show n + Db.intentsOf link.id _ + _ ≤ n + 1 + db.intentsOf link.id + _
  rw [intentsOf_insert]
  show n + _ + (attempts link).issued db ≤ n + 1 + _ + (attempts link).issued db
  split_ifs <;> omega

/-! ## Holding an attempt -/

section Holding

variable {own : Transaction.Shared Backend → Transaction.Shared Backend → Prop} {n : Nat}

abbrev Holding (link : PaymentLink) (own : Transaction.Shared Backend → Transaction.Shared Backend → Prop) (j : Job α)
    (n : Nat) : Prop := j.Plays (attempts link).protocol own (fun _ _ => True) n

theorem lets_sparesLink : (attempts link).protocol.Lets own (SparesLink link) (fun _ => True) n where
  writes w σ hw hσ hown := Tickets.lets_trades.writes w σ (hw.trades 0) hσ hown
  asks q σ hq hσ hown := Tickets.lets_trades.asks q σ hq hσ hown

theorem Sparing.holding {j : Job α} (h : Sparing link j) : Holding link own j n := .of_does h lets_sparesLink fun _ => trivial

theorem holding_after {β : Type} {j : Job α} {f : α → Job β} (h : Sparing link j) (hf : ∀ a, Holding link own (f a) n) :
    Holding link own (j.bind f) n := .after h lets_sparesLink hf fun _ => trivial

/-- The intent of a payment takes the attempt, when it is one of the link. -/
theorem holding_create {found : PaymentLink} {row : Id → String → Nat → PaymentIntent} {f : PaymentIntent → Job α}
    (hrow : ∀ id correlationId createdAt, (row id correlationId createdAt).paymentLinkId = some found.id)
    (hn : found.id = link.id → 0 < n) (hf : ∀ intent, Sparing link (f intent)) :
    Holding link own ((transaction (PaymentIntent.create row)).bind f) n := by
  by_cases hfound : found.id = link.id
  · obtain ⟨m, rfl⟩ : ∃ m, n = m + 1 := ⟨n - 1, by have := hn hfound; omega⟩
    exact .bind (Tickets.plays_transaction (writes_intentCreate fun _ _ _ => trades_insert _ m)
      (fun intent => (hf intent).holding) fun _ => trivial)
  · have hother : ∀ id correlationId createdAt, (row id correlationId createdAt).paymentLinkId ≠ some link.id :=
      fun id c t h => hfound (Option.some.inj ((hrow id c t).symm.trans h))
    exact .bind (Tickets.plays_transaction (writes_intentCreate fun _ _ _ => (sparesLink_insert (hother _ _ _)).trades n)
      (fun intent => (hf intent).holding) fun _ => trivial)

variable {found : PaymentLink}

theorem holding_payFull (hn : found.id = link.id → 0 < n) : Holding link own (payFull found) n :=
  holding_after (sparing_scoreRisk _ _) fun _ => holding_create (fun _ _ _ => rfl) hn fun _ =>
    (sparing_openCheckout _ _ _).bind fun _ => does_ret _

theorem holding_payDown {plan : InstallmentPlan} {body : PayBody} (hn : found.id = link.id → 0 < n) :
    Holding link own (payDown rt found plan body) n := by
  refine holding_after (does_ofExcept _) fun terms => holding_after (sparing_scoreRisk _ _) fun verdict =>
    holding_create (fun _ _ _ => rfl) hn fun draftIntent => ?_
  refine (sparing_transaction (linkView_agreementCreate _)).bind fun agreement => ?_
  refine Does.bind (sparing_transaction (linkView_intentUpdate ?_)) fun _ => ?_
  · exact fun _ => rfl
  exact (sparing_openCheckout _ _ _).bind fun _ => does_ret _

theorem holding_payChecked {body : PayBody} (hn : found.id = link.id → 0 < n) :
    Holding link own (payChecked rt found body) n := by
  refine holding_after (sparing_select _) fun config => ?_
  split
  · trivial
  · refine holding_after (does_ofExcept _) fun _ => holding_after (does_ofExcept _) fun _ => ?_
    split
    · exact holding_payFull hn
    · refine holding_after (sparing_select _) fun plan => ?_
      cases plan with
      | none => trivial
      | some plan => exact holding_payDown hn

end Holding

/-! ## Counting an attempt -/

def PaymentLink.counted (linkId : Id) (r : PaymentLink) : PaymentLink :=
  if r.id = linkId then { r with attemptCount := r.attemptCount + 1 } else r

def Db.countAttempt (linkId : Id) (db : Db) : Db :=
  { db with paymentLinks := db.paymentLinks.map (PaymentLink.counted linkId) }

theorem filter_countAttempt (db : Db) (linkId id : Id) : (db.countAttempt linkId).paymentLinks.filter (·.id = id) =
    (db.paymentLinks.filter (·.id = id)).map (PaymentLink.counted linkId) := by
  have hid : ∀ r : PaymentLink, (r.counted linkId).id = r.id := fun r => by
    unfold PaymentLink.counted
    split_ifs <;> rfl
  show (db.paymentLinks.map _).filter _ = _
  rw [List.filter_map]
  simp only [Function.comp_def, hid]

theorem hasLink_countAttempt {n : Nat} {db : Db} (h : db.HasLink link n) : (db.countAttempt link.id).HasLink link (n + 1) := by
  show _ = _
  rw [filter_countAttempt, show db.paymentLinks.filter (·.id = link.id) = _ from h, List.map_singleton, PaymentLink.counted,
    if_pos rfl]

theorem sparesLink_countAttempt {linkId : Id} (h : linkId ≠ link.id) : SparesLink link (Db.countAttempt linkId) := by
  refine fun db => Prod.ext ?_ rfl
  show (db.countAttempt linkId).paymentLinks.filter _ = db.paymentLinks.filter _
  rw [filter_countAttempt]
  refine (List.map_congr_left fun r hr => if_neg fun hid => ?_).trans (List.map_id _)
  exact h (hid.symm.trans (of_decide_eq_true (List.mem_filter.mp hr).2))

theorem sparing_bumpAttempts {found : PaymentLink} (h : found.id ≠ link.id) : Sparing link (transaction found.bumpAttempts) := by
  refine sparing_transaction (leaves_bind (leaves_acquire _) fun _ => leaves_bind (leaves_get _) fun isOpen => ?_)
  cases isOpen
  · exact leaves_ret _
  · exact leaves_bind (leaves_modify (sparesLink_countAttempt h)) fun _ => leaves_ret _

/-- The row of the link, as it is read, still has attempts. -/
def Db.isOpenLink (link : PaymentLink) (db : Db) : Bool :=
  db.paymentLinks.any fun r => r.id = link.id ∧ r.attemptCount < link.maxAttempts

theorem issued_lt_of_isOpenLink {db : Db} (h : (attempts link).inv db) (hopen : db.isOpenLink link = true) :
    (attempts link).issued db < (attempts link).ceiling := by
  obtain ⟨n, hn⟩ := h
  obtain ⟨r, hr, hlt⟩ := List.any_eq_true.mp hopen
  obtain ⟨hid, hlt⟩ := of_decide_eq_true hlt
  rw [hn.mem hr hid] at hlt
  rw [hn.issued]
  exact hlt

theorem issued_countAttempt {db : Db} (h : (attempts link).inv db) : (attempts link).inv (db.countAttempt link.id) ∧
    (attempts link).issued (db.countAttempt link.id) = (attempts link).issued db + 1 := by
  obtain ⟨n, hn⟩ := h
  have hcounted := hasLink_countAttempt hn
  exact ⟨⟨_, hcounted⟩, by rw [hcounted.issued, hn.issued]⟩

theorem eq_of_found {db : Db} {slug : String} {found : PaymentLink} (h : (attempts link).inv db)
    (hfound : db.linkOfSlug slug = some found) : found.id = link.id → ∃ n, found = { link with attemptCount := n } := by
  obtain ⟨n, hn⟩ := h
  exact fun hid => ⟨n, hn.mem (List.mem_of_find?_eq_some hfound) hid⟩

/-! ## Requests -/

section Requests

variable {own : Transaction.Shared Backend → Transaction.Shared Backend → Prop}

/-- An intent without a link. -/
theorem sparing_create {row : Id → String → Nat → PaymentIntent}
    (hrow : ∀ id correlationId createdAt, (row id correlationId createdAt).paymentLinkId = none) :
    Sparing link (transaction (PaymentIntent.create row)) := by
  refine does_transaction (writes_intentCreate fun id c t => sparesLink_insert ?_) (.of_forall fun _ => trivial)
  rw [hrow]
  exact nofun

theorem sparing_lockFx (tenantId : Id) (currency : String) : Sparing link (lockFx tenantId currency) := by
  refine (sparing_select _).bind fun settlementCurrency => ?_
  split
  · exact does_ret _
  · dsimp only
    split_ifs
    · exact does_ret _
    · exact Does.bind ((does_query trivial).bind fun _ => (does_query trivial).bind fun _ => does_ret _) fun _ => does_ret _

theorem sparing_openIntent (tenantId : Id) (body : CreateIntentBody) (config : ProviderConfig) :
    Sparing link (openIntent rt tenantId body config) := by
  refine (sparing_scoreRisk _ _).bind fun verdict => (sparing_lockFx _ _).bind fun fx => ?_
  refine (sparing_create fun _ _ _ => rfl).bind fun intent => (does_ofExcept _).bind fun _ => ?_
  exact (sparing_openCheckout _ _ _).bind fun _ => does_ret _

theorem sparing_createIntent (tenantId : Id) (body : CreateIntentBody) : Sparing link (createIntent rt tenantId body) := by
  refine (sparing_select _).bind fun config => ?_
  split
  · exact does_throw _
  · refine (does_query trivial).bind fun now => (sparing_select _).bind fun existing => ?_
    dsimp only
    split
    · exact does_ret _
    · exact sparing_openIntent _ _ _

theorem holding_bump {found : PaymentLink} {f : Bool → Job α}
    (hfound : found.id = link.id → ∃ n, found = { link with attemptCount := n })
    (hcounted : ∀ n, (found.id = link.id → 0 < n) → Holding link own (f true) n) (hfull : Holding link own (f false) 0) :
    Holding link own ((transaction found.bumpAttempts).bind f) 0 := by
  by_cases hid : found.id = link.id
  · obtain ⟨n, rfl⟩ := hfound hid
    refine .bind (Tickets.plays_issue (T := attempts link) (fun _ h => issued_countAttempt h) (fun _ => rfl) ?_ hfull
      fun _ => trivial)
    exact hcounted 1 fun _ => Nat.one_pos
  · refine holding_after (sparing_bumpAttempts hid) fun counted => ?_
    cases counted
    · exact hfull
    · exact hcounted 0 fun h => absurd h hid

theorem holding_payLink (slug : String) (body : PayBody) : Holding link own (payLink rt slug body) 0 := by
  refine .bind (.get (fun σ hσ => ⟨0, ⟨hσ, le_refl _⟩, Transaction.Protocol.drops_self 0, ?_⟩) fun _ => trivial)
  cases hfound : σ.store.linkOfSlug slug with
  | none => trivial
  | some found =>
      refine holding_after (sparing_select _) fun tenant => holding_after (does_query trivial) fun now =>
        holding_after (does_ofExcept _) fun _ => ?_
      exact holding_bump (eq_of_found hσ hfound) (fun n hn => holding_payChecked hn) trivial

theorem holding_request (request : CreationRequest) : Holding link own (request.job rt) 0 := by
  cases request with
  | direct tenantId body => exact (sparing_createIntent tenantId body).holding
  | link slug body =>
      refine .bind ((holding_payLink slug body).mono fun r n _ => ?_)
      cases r <;> trivial

end Requests

/-! ## Under the lock of the link -/

/-- Writes that count no attempt. -/
def Uncounted (link : PaymentLink) (w : Db → Db) : Prop :=
  ∀ db, (attempts link).inv db → (attempts link).inv (w db) ∧ (attempts link).issued (w db) = (attempts link).issued db

abbrev CountsNone (link : PaymentLink) (j : Job α) : Prop := j.Does (Uncounted link) fun _ => True

theorem Sparing.countsNone {j : Job α} (h : Sparing link j) : CountsNone link j := by
  refine Does.mono h (fun w hw => ?_) fun _ _ => trivial
  obtain ⟨hinv, hissued, -⟩ := SparesLink.keeps hw
  rintro db ⟨n, hn⟩
  exact ⟨⟨n, hinv n db hn⟩, hissued db⟩

theorem countsNone_create (row : Id → String → Nat → PaymentIntent) :
    CountsNone link (transaction (PaymentIntent.create row)) :=
  does_transaction (writes_intentCreate fun _ _ _ _ hdb => ⟨hdb, rfl⟩) (.of_forall fun _ => trivial)

theorem countsNone_payFull (found : PaymentLink) : CountsNone link (payFull found) :=
  (sparing_scoreRisk _ _).countsNone.bind fun _ => (countsNone_create _).bind fun _ =>
    (sparing_openCheckout _ _ _).countsNone.bind fun _ => does_ret _

theorem countsNone_payDown (found : PaymentLink) (plan : InstallmentPlan) (body : PayBody) :
    CountsNone link (payDown rt found plan body) := by
  refine (does_ofExcept _).bind fun terms => (sparing_scoreRisk _ _).countsNone.bind fun verdict => ?_
  refine (countsNone_create _).bind fun draftIntent => ?_
  refine (sparing_transaction (linkView_agreementCreate _)).countsNone.bind fun agreement => ?_
  refine Does.bind (Sparing.countsNone (sparing_transaction (linkView_intentUpdate ?_))) fun _ => ?_
  · exact fun _ => rfl
  · exact (sparing_openCheckout _ _ _).countsNone.bind fun _ => does_ret _

theorem countsNone_payChecked (found : PaymentLink) (body : PayBody) : CountsNone link (payChecked rt found body) := by
  refine (sparing_select _).countsNone.bind fun config => ?_
  split
  · exact does_throw _
  · refine (does_ofExcept _).bind fun _ => (does_ofExcept _).bind fun _ => ?_
    split
    · exact countsNone_payFull _
    · refine (sparing_select _).countsNone.bind fun plan => ?_
      cases plan with
      | none => exact does_throw _
      | some plan => exact countsNone_payDown _ _ _

section Locking

variable {ℓ : Transaction.Local Backend} {σ : Transaction.Shared Backend}

abbrev Locking (link : PaymentLink) (j : Job α) (ℓ : Transaction.Local Backend) (σ : Transaction.Shared Backend) : Prop :=
  j.WP (attempts link).contract (fun _ _ => True) ℓ σ

theorem locking_bump {found : PaymentLink} (hfound : found.id = link.id → ∃ n, found = { link with attemptCount := n }) :
    Locking link (transaction found.bumpAttempts) ℓ σ := by
  by_cases hid : found.id = link.id
  · obtain ⟨n, rfl⟩ := hfound hid
    exact Tickets.wp_issue (T := attempts link) (fun _ h => issued_lt_of_isOpenLink h) fun _ h => issued_countAttempt h
  · exact Tickets.wp_of_does (sparing_bumpAttempts hid).countsNone

theorem locking_payLink (slug : String) (body : PayBody) : Locking link (payLink rt slug body) ℓ σ := by
  refine .get_bind (fun _ _ h => ⟨h, .inl rfl⟩) fun σ₁ _ hi₁ σ₂ _ _ => ?_
  cases hfound : σ₁.store.linkOfSlug slug with
  | none => trivial
  | some found =>
      refine .get_bind (fun _ _ h => ⟨h, .inl rfl⟩) fun σ₃ _ _ σ₄ _ _ σ₅ _ _ => ⟨fun h => ⟨h, .inl rfl⟩, ?_⟩
      refine .ofExcept_bind fun _ _ => Tickets.wp_transaction_bind (locking_bump (eq_of_found hi₁.inv hfound)) ?_
      intro bumped _ _
      cases bumped
      · trivial
      · exact Tickets.wp_of_does (countsNone_payChecked _ _)

theorem locking_request (request : CreationRequest) (hσ : (attempts link).Fair σ.store) : Locking link (request.job rt) ℓ σ := by
  cases request with
  | direct tenantId body => exact Tickets.wp_of_does (sparing_createIntent tenantId body).countsNone
  | link slug body => exact .bind (fun _ _ _ _ _ _ => trivial) (locking_payLink slug body) hσ

end Locking

/-! ## Runs -/

variable {ι : Type} [DecidableEq ι] {db : Db} {w : World} {n : Nat} {p : Transaction.Pool Backend ι CreatedIntent}

/-- A link takes no more attempts than it allows, and every intent that is opened for it has an attempt of its own. -/
theorem link_attempts_bounded {requests : ι → CreationRequest} (hlink : db.HasLink link n) (hn : n ≤ link.maxAttempts)
    (hp : Transaction.Pool.Reachable (.init (fun i => (requests i).job rt) db w) p) :
    ∃ m, p.shared.store.HasLink link m ∧ m ≤ link.maxAttempts ∧
      p.shared.store.intentsOf link.id + n ≤ db.intentsOf link.id + m := by
  have hfair : (attempts link).Fair db := ⟨⟨n, hlink⟩, by rw [hlink.issued]; exact hn⟩
  obtain ⟨⟨m, hm⟩, hceiling⟩ := Transaction.Pool.fair_run hfair (fun i => locking_request (requests i) hfair) hp
  have hused := Transaction.Pool.used_le_issued hfair.inv (fun i => holding_request (requests i)) hp
  rw [hm.issued] at hceiling hused
  rw [hlink.issued] at hused
  refine ⟨m, hm, hceiling, ?_⟩
  calc p.shared.store.intentsOf link.id + n ≤ m + db.intentsOf link.id := hused
    _ = db.intentsOf link.id + m := Nat.add_comm _ _

/-- A link over 120.00 for one attempt. -/
def oneAttempt : PaymentLink := { id := 3, tenantId := 1, slug := "l", amount := 12000, currency := .mad, status := .active }

def oneAttemptDb : Db := { installmentDb with paymentLinks := [oneAttempt] }

/-- Two customers pay through the link. -/
def payTwice : Fin 2 → CreationRequest := fun _ => .link "l" ⟨none, none, PayBody.none_pos⟩

/-- Both see the link without attempts, and one of them is refused. -/
theorem link_attempts_bounded_two : ∃ p,
    Transaction.Pool.Reachable (.init (fun i => (payTwice i).job checkoutRuntime) oneAttemptDb .counting) p ∧
      p.shared.store.intentsOf 3 = 1 ∧
        ∃ m, p.shared.store.HasLink oneAttempt m ∧ m ≤ 1 ∧ p.shared.store.intentsOf 3 + 0 ≤ 0 + m := by
  obtain ⟨p, hp, hend⟩ := Transaction.Pool.ReachableIf.exists_of_runSchedule
    (.init (fun i => (payTwice i).job checkoutRuntime) oneAttemptDb .counting)
    (List.replicate 7 0 ++ List.replicate 12 1 ++ List.replicate 4 0 ++ List.replicate 20 1)
    (fun p => p.shared.store.intentsOf 3 = 1) (fun _ _ _ => trivial) (by decide +kernel)
  have hlink : oneAttemptDb.HasLink oneAttempt 0 := rfl
  exact ⟨p, hp, of_decide_eq_true hend, link_attempts_bounded hlink (by decide) hp⟩

end CorpoPay.Settlement
