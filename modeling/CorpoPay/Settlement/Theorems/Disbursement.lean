import CorpoPay.Settlement.Lemmas.Requests
import CorpoPay.Settlement.PayoutRoutes
import CorpoPay.Settlement.Theorems.PayoutStatus
import CorpoPay.Transaction.CallOnce

/-!
# Main theorem: the transfer of a payout

The process route calls the provider before anything checks the status of the payout. The provider accepts at most one
transfer in every run where the requests that process the payout follow each other, and AVAILABLE covers the payout
while one of them settles what it has transferred.
-/

namespace CorpoPay.Settlement

open Transaction.Tx
open Transaction (Pool Outlet Role)
open Transaction.Outlet (Calm Careful Settling calm_transaction calm_ofExcept careful_get_bind careful_ofExcept_bind
  quiet_get)

/-! ## The payout as a record -/

def PayoutOpen (t id : Id) (db : Db) : Prop := ∃ payout, db.payout t id = some payout ∧ payout.status.isOpen = true

instance (t id : Id) (db : Db) : Decidable (PayoutOpen t id db) :=
  decidable_of_iff ((db.payout t id).any (·.status.isOpen) = true) (Option.any_eq_true _ _)

/-- The payout has these terms, and AVAILABLE covers it. -/
def PayoutCovered (t id : Id) (amount : Int) (currency : Currency) (db : Db) : Prop :=
  0 ≤ amount ∧ amount ≤ db.accountBalance t .available currency ∧
    ∀ payout ∈ db.payout t id, payout.amount = amount ∧ payout.currency = currency

instance (t id : Id) (amount : Int) (currency : Currency) : DecidablePred (PayoutCovered t id amount currency) :=
  fun _ => by unfold PayoutCovered; infer_instance

/-- The database refuses a statement. -/
def Failure.IsRefusal : Failure → Prop
  | .prismaError _ => True
  | _ => False

instance : DecidablePred Failure.IsRefusal := fun e => by unfold Failure.IsRefusal; split <;> infer_instance

/-- The question is `createPayout` of an adapter. -/
def Query.isTransfer : Query → Bool
  | .createPayout _ _ => true
  | _ => false

def Accepted : (q : Query) → Answer q → Prop
  | .createPayout _ _, .ok result => result.success = true
  | _, _ => False

/-- A transfer is an accepted call. -/
abbrev payoutOutlet (t id : Id) (amount : Int) (currency : Currency) : Outlet Backend where
  IsOpen := PayoutOpen t id
  Settles := PayoutCovered t id amount currency
  Refusal := Failure.IsRefusal
  Entry := CreatePayoutParams
  log := World.transfers
  IsCall q := q.isTransfer = true
  Accepts := Accepted
  log_quiet := by
    rintro w q hq
    cases q with
    | createPayout provider params => exact absurd rfl hq
    | _ => rfl
  log_call := by
    rintro w q
    cases q with
    | createPayout provider params =>
        simp only [World.reply]
        cases w.oracle w.clock (.createPayout provider params) with
        | error message => exact .inl rfl
        | ok result =>
            by_cases hsuccess : result.success = true
            · exact .inr ⟨hsuccess, params, by simp [hsuccess]⟩
            · exact .inl (by simp [hsuccess])
    | _ => exact .inl rfl

section Transactions

variable {t id : Id} {amount : Int} {currency : Currency}

theorem closes_update (f : Payout → Payout) (hf : ∀ r, (f r).id = r.id ∧ (f r).tenantId = r.tenantId)
    (hclosed : ∀ r, (f r).status.isOpen = false) (db : Db) : ¬ PayoutOpen t id (db.updatePayout id f) := by
  rintro ⟨payout, hfind, hopen⟩
  rw [payout_updatePayout f hf] at hfind
  obtain ⟨row, -, rfl⟩ := Option.map_eq_some_iff.mp hfind
  rw [hclosed] at hopen
  cases hopen

/-- No question of the transaction is a transfer. -/
abbrev AsksNothing {α : Type} (body : Tx α) : Prop := body.Asks (¬ Query.isTransfer · = true)

theorem asks_update (id : Id) (f : Payout → Payout) : AsksNothing (Payout.update id f) := by
  refine asks_bind (asks_acquire _) fun _ => asks_bind (asks_get _) fun row => ?_
  cases row with
  | none => exact asks_throw _
  | some row => exact asks_bind (asks_modify _) fun _ => asks_ret _

theorem asks_release (id : Id) (status : PayoutStatus) : AsksNothing (releasePayout id status) := by
  refine asks_bind (asks_bind (asks_get _) fun rows => ?_) fun _ => asks_update _ _
  exact asks_bind (asks_forEach (fun _ => asks_acquire _) _) fun _ => asks_modify _

theorem quiet_release {status : PayoutStatus} (hclosed : status.isOpen = false) :
    (payoutOutlet t id amount currency).Quiet (releasePayout id status) (fun db : Db => db) := by
  refine ⟨asks_release id status, (releasePayout_writes id status).mono fun v _ hv db hopen => ?_⟩
  rw [hv] at hopen
  exact absurd hopen (closes_update (fun p => { p with status }) (fun _ => ⟨rfl, rfl⟩) (fun _ => hclosed) _)

theorem asks_pay (t id : Id) (providerTransferId : Option String) :
    AsksNothing (markPayoutPaidInTx t id providerTransferId) := by
  refine asks_bind (asks_acquire _) fun _ => asks_bind (asks_get _) fun payout => ?_
  cases payout with
  | none => exact asks_throw _
  | some payout =>
      show AsksNothing (if _ then _ else _)
      split_ifs
      · exact asks_throw _
      · refine asks_bind (asks_get _) fun availableCents => ?_
        split_ifs
        · exact asks_throw _
        · exact asks_bind (asks_posting (by decide) (by decide) _ _ _) fun _ => asks_update _ _

/-- The settlement closes the payout, whatever it reads. -/
theorem writes_pay (providerTransferId : Option String) :
    (markPayoutPaidInTx t id providerTransferId).Writes (fun v _ => (payoutOutlet t id amount currency).Closes v) (fun db : Db => db) := by
  simp only [markPayoutPaidInTx, bind_eq, writes_bind, writes_acquire, writes_get]
  intro db
  cases hfind : db.payout t id with
  | none => trivial
  | some payout =>
      refine writes_ite _ (fun _ => trivial) fun _ => ?_
      simp only [settlePaidInTx, accountBalanceCents, bind_eq, writes_bind, writes_get]
      refine fun _ => writes_ite _ (fun _ => trivial) fun _ => ?_
      rw [writes_bind]
      refine Writes.of_forall fun v _ => ?_
      rw [(payout_find hfind).2.1]
      simp only [Payout.update, bind_eq, writes_bind, writes_acquire, writes_get]
      intro db₁
      cases db₁.payouts.find? (·.id = id) with
      | none => trivial
      | some row =>
          exact fun db₂ => closes_update (fun p => { p with status := .paid, providerTransferId })
            (fun _ => ⟨rfl, rfl⟩) (fun _ => rfl) (v db₂)

section Covered

/-- The writes leave the payouts as they are. -/
def KeepsPayouts (v : Db → Db) : Prop := ∀ db, (v db).payouts = db.payouts

variable {R : Db → Prop} {v : Db → Db}

/-- Only the database refuses an insert. -/
theorem passes_createEntry {m : Movement} {postingId : Id} {balanceAfter : Int} (hparty : m.partyId = none)
    (hv : KeepsPayouts v) :
    (LedgerEntry.create m postingId balanceAfter).Passes R Failure.IsRefusal (fun v' _ => KeepsPayouts v') v := by
  simp only [LedgerEntry.create, bind_eq, pure_eq, passes_bind, passes_get, hparty, Option.any_none]
  exact fun id createdAt _ _ _ _ => passes_ite _ (fun _ => trivial) fun _ => passes_ite _ (fun _ => trivial) fun _ => hv

theorem passes_post {d c : LedgerLeg} {source : Meta} (hvalid : (⟨d, c, source⟩ : LedgerPosting).Valid)
    (hd : d.partyId = none) (hc : c.partyId = none) (hv : KeepsPayouts v) :
    (post t d c source).Passes R Failure.IsRefusal (fun v' _ => KeepsPayouts v') v := by
  simp only [post, postEntry, accountBalanceCents, bind_eq, pure_eq, passes_bind]
  refine passes_lift (posting_eq_ok.mpr ⟨rfl, hvalid⟩) (passes_lift (posting_eq_ok.mpr ⟨rfl, hvalid⟩) ?_)
  exact fun postingId s _ s' _ => (passes_createEntry hd hv).mono fun v₁ _ h₁ => passes_createEntry hc h₁

/-- The settlement closes the payout, when it reads that the payout is open and covered. -/
theorem closing_pay (providerTransferId : Option String) :
    (payoutOutlet t id amount currency).Closing (markPayoutPaidInTx t id providerTransferId) (fun db : Db => db) := by
  simp only [Outlet.Closing, markPayoutPaidInTx, bind_eq, passes_bind, passes_acquire, passes_get]
  rintro db ⟨⟨payout, hfind, hopen⟩, hnonneg, -, hterms⟩
  obtain ⟨hamount, hcurrency⟩ := hterms payout hfind
  have hid := (payout_find hfind).2.1
  rw [hfind]
  refine passes_ite _ (fun hclosed => absurd ((PayoutStatus.mem_terminal_iff _).mp hclosed) (by simp [hopen])) fun _ => ?_
  simp only [settlePaidInTx, accountBalanceCents, bind_eq, passes_bind, passes_get]
  rintro db₁ ⟨-, -, hcovered, -⟩
  rw [hamount, hcurrency]
  refine passes_ite _ (fun hless => absurd hcovered (not_le.mpr hless)) fun _ => ?_
  simp only [passes_bind]
  have hvalid : (⟨debit .available amount .payout none currency, credit .paidOut amount .payout none currency,
      ⟨some .payout, some payout.id⟩⟩ : LedgerPosting).Valid := ⟨rfl, rfl, rfl, rfl, hnonneg, by simp [debit, credit]⟩
  refine (passes_post hvalid rfl rfl fun _ => rfl).mono fun v _ hv => ?_
  simp only [Payout.update, bind_eq, passes_bind, passes_acquire, passes_get]
  rintro db₂ ⟨⟨row, hrow, -⟩, -⟩
  obtain ⟨hmem, hrowid, -⟩ := payout_find hrow
  have hsome : ((v db₂).payouts.find? (·.id = payout.id)).isSome = true :=
    List.find?_isSome.mpr ⟨row, hv db₂ ▸ hmem, by simp [hrowid, hid]⟩
  obtain ⟨found, hfound⟩ := Option.isSome_iff_exists.mp hsome
  rw [hfound, hid]
  exact fun db₃ => closes_update (fun p => { p with status := .paid, providerTransferId })
    (fun _ => ⟨rfl, rfl⟩) (fun _ => rfl) (v db₃)

end Covered

end Transactions

/-! ## The requests -/

section Requests

variable {t id : Id} {amount : Int} {currency : Currency}

theorem calm_get {α : Type} (f : Db → α) : (payoutOutlet t id amount currency).Calm (selectOnce f) := calm_transaction (quiet_get f)

theorem calm_respond (t' id' : Id) : (payoutOutlet t id amount currency).Calm (respond t' id') :=
  (calm_get _).bind fun full => by cases full <;> trivial

theorem calm_cancelRoute : (payoutOutlet t id amount currency).Calm (cancelRoute t id) := by
  refine Calm.bind ((calm_get _).bind fun payout => ?_) fun _ => calm_respond t id
  cases payout with
  | none => trivial
  | some payout => exact (calm_ofExcept _).bind fun _ => calm_transaction (quiet_release rfl)

theorem calm_markPayoutFailed : (payoutOutlet t id amount currency).Calm (markPayoutFailed t id) := by
  refine (calm_get _).bind fun payout => ?_
  cases payout with
  | none => trivial
  | some payout =>
      show (payoutOutlet t id amount currency).Calm (if _ then _ else _)
      split_ifs
      · trivial
      · exact calm_transaction (quiet_release rfl)

theorem calm_settleAndRespond (providerTransferId : Option String) :
    (payoutOutlet t id amount currency).Calm (settleAndRespond t id providerTransferId) := by
  have hpay : (payoutOutlet t id amount currency).Quiet (markPayoutPaidInTx t id providerTransferId) (fun db : Db => db) :=
    ⟨asks_pay t id providerTransferId, (writes_pay providerTransferId).mono fun v _ hv db hopen => absurd hopen (hv db)⟩
  refine Calm.bind ((calm_transaction hpay).mapError payoutConflict) fun _ => ?_
  refine Calm.bind (calm_transaction ⟨trivial, fun db hopen => hopen⟩) fun _ => calm_respond t id

/-- The settlement comes right after the transfer. -/
theorem careful_disburse (rt : Runtime) {payout : Payout} (hid : payout.id = id) :
    (payoutOutlet t id amount currency).Careful (disburse rt t payout) := by
  refine careful_get_bind fun db => ?_
  cases db.providerConfig t payout.provider with
  | none => trivial
  | some config =>
      refine careful_ofExcept_bind fun _ answer => ?_
      cases answer with
      | error message => exact ⟨trivial, False.elim⟩
      | ok result =>
          by_cases hsuccess : result.success = true
          · show (payoutOutlet t id amount currency).Calm (if _ then _ else _) ∧ (_ → (payoutOutlet t id amount currency).Settling (if _ then _ else _))
            rw [if_pos hsuccess, hid]
            exact ⟨calm_settleAndRespond _, fun _ => closing_pay _⟩
          · show (payoutOutlet t id amount currency).Calm (if _ then _ else _) ∧ (result.success = true → _)
            rw [if_neg hsuccess, hid]
            exact ⟨calm_markPayoutFailed.bind fun _ => trivial, fun h => absurd h hsuccess⟩

/-- Before the transfer, the process route only reads. -/
theorem careful_processRoute (rt : Runtime) (body : Option Json) :
    (payoutOutlet t id amount currency).Careful (processRoute rt t id body) := by
  refine careful_get_bind fun db => ?_
  cases hfind : db.payoutWithItems t id with
  | none => trivial
  | some found =>
      have hid : found.payout.id = id := by
        obtain ⟨payout, hpayout, rfl⟩ := Option.map_eq_some_iff.mp hfind
        exact (payout_find hpayout).2.1
      refine careful_get_bind fun db₁ => ?_
      split
      · refine careful_ofExcept_bind fun _ => ?_
        rw [hid]
        exact (calm_settleAndRespond _).careful
      · exact careful_disburse rt hid

/-- A request for a payout, or any other job. -/
inductive PayoutRequest : Type 1
  | process (body : Option Json)
  | cancel
  | other (job : Job PayoutWithItems)

namespace PayoutRequest

def job (rt : Runtime) (t id : Id) : PayoutRequest → Job PayoutWithItems
  | .process body => processRoute rt t id body
  | .cancel => cancelRoute t id
  | .other job => job

def role : PayoutRequest → Role
  | .process _ => .caller
  | .cancel => .closer
  | .other _ => .other

end PayoutRequest

end Requests

/-! ## Runs -/

section Runs

variable {ι : Type} [DecidableEq ι] {rt : Runtime} {t id : Id} {amount : Int} {currency : Currency} {db : Db} {w : World}

/-- Any number of requests for one payout, among any other jobs. -/
theorem transfer_once (requests : ι → PayoutRequest) {p : Pool Backend ι PayoutWithItems}
    (hp : Pool.ReachableIf (Pool.Serial (payoutOutlet t id amount currency) (fun i => (requests i).role) w.transfers)
      (Pool.init (fun i => (requests i).job rt t id) db w) p) :
    (p.shared.world.transfers = w.transfers ∨ ∃ params, p.shared.world.transfers = w.transfers ++ [params]) ∧
      ∀ i body q k, requests i = .process body → (p.threads i).phase = .between (.ask q k) →
        PayoutOpen t id p.shared.store := by
  have hcareful : ∀ i, (requests i).role ≠ .other → (payoutOutlet t id amount currency).Careful ((requests i).job rt t id) := by
    intro i hi
    cases hr : requests i with
    | process body => exact careful_processRoute rt body
    | cancel => exact calm_cancelRoute.careful
    | other job => rw [hr] at hi; exact absurd rfl hi
  have hcalm : ∀ i, (requests i).role = .closer → ¬ ((requests i).job rt t id).MayAsk := by
    intro i hi
    cases hr : requests i with
    | cancel =>
        have hquiet : (payoutOutlet t id amount currency).Calm (cancelRoute t id) := calm_cancelRoute
        exact hquiet.not_mayAsk
    | _ => rw [hr] at hi; cases hi
  have hread : ∀ i q k, (requests i).role = .caller → (requests i).job rt t id ≠ .ask q k := by
    intro i q k hi hjob
    cases hr : requests i with
    | process body => rw [hr] at hjob; cases hjob
    | _ => rw [hr] at hi; cases hi
  obtain ⟨hlog, hopen⟩ := Pool.call_once (fun i => (requests i).role) hcareful hcalm hread hp
  exact ⟨hlog, fun i body q k hbody => hopen i q k (by rw [hbody]; rfl)⟩

end Runs

/-! ## Two requests to process a payout -/

/-- A tenant that pays out through the provider. -/
def railConfig : Config :=
  { plainConfig with
    settlementPolicies :=
      [{ toPolicySpec := { resolvePolicy DEFAULT_PRESET with payoutRail := .stripeConnect }, id := 1, tenantId := 1,
         version := 1, isActive := true }]
    providerConfigs := [{ tenantId := 1, provider := .stripe, encryptedCredentials := "v2:", status := .connected }] }

/-- A runtime that decrypts every row to the credentials of an account. -/
def plainRuntime : Runtime where
  demoMode := false
  decryptCredentials _ := .ok (.obj [("secretKey", .str "sk"), ("connectedAccountId", .str "acct")])
  newStripe _ := .ok ()
  constructEvent _ _ _ := false
  hmacSha256 _ _ := .error (.error "no key")
  sha256 _ := ""
  parseJson _ := .error (.error "no body")
  toUpperCase := id
  toLowerCase := id
  stringFilter _ := .error (.error "no filter")
  nullableStringFilter _ := .error (.error "no filter")
  jsonEquals _ _ := false
  toNumber _ := none
  arithmetic := .correct

/-- A capture of 10.00 and a payout of the 9.50 that come to AVAILABLE. -/
def railed : Db × World :=
  execute [.settleCapture 1 plainCapture,
    .createPayout 1 { idempotencyKey := "first", provider := .stripe, method := none }] (.empty railConfig) .counting

def processing (ι : Type) [DecidableEq ι] : Pool Backend ι PayoutWithItems :=
  Pool.init (fun _ => (PayoutRequest.process none).job plainRuntime 1 15) railed.1 railed.2

/-- The provider does not answer the first transfer. -/
def flaky : World :=
  { railed.2 with
    oracle := fun n q =>
      match q with
      | .createPayout _ _ => if n = railed.2.clock then .error "timeout" else .ok ⟨true, none⟩
      | q => railed.2.oracle n q }

/-- A request to process the payout, its repetition, and a request to cancel it. -/
def repeated : Fin 3 → PayoutRequest
  | 0 => .process none
  | 1 => .process none
  | 2 => .cancel

/-- A process request begins while the payout is open and the other one is idle. After the transfer, what it reads covers
the payout and the database refuses nothing. The cancellation changes no row. -/
def serialCheck (p : Pool Backend (Fin 3) PayoutWithItems) (i : Fin 3) (_ : Pool Backend (Fin 3) PayoutWithItems) : Bool :=
  match (repeated i).role with
  | .caller =>
      ((p.threads i).pc = 0 → PayoutOpen 1 15 p.shared.store ∧
        ∀ j, j ≠ i → (repeated j).role = .caller → (p.threads j).pc = 0 ∨ (p.threads j).phase.Finished) ∧
      (p.shared.world.transfers ≠ [] → PayoutOpen 1 15 p.shared.store →
        (payoutOutlet 1 15 950 .mad).Admits p.shared.store (p.threads i).phase)
  | .closer => ∀ j, (repeated j).role = .caller → (p.threads j).pc = 0 ∨ (p.threads j).phase.Finished
  | .other => false

theorem serial_of_check {p p' : Pool Backend (Fin 3) PayoutWithItems} {i : Fin 3} (hstep : p.step i = some p')
    (h : serialCheck p i p' = true) :
    Pool.Serial (payoutOutlet 1 15 950 .mad) (fun i => (repeated i).role) flaky.transfers p i p' := by
  cases hrole : (repeated i).role with
  | caller =>
      simp only [serialCheck, hrole] at h
      simp only [Pool.Serial, hrole]
      obtain ⟨hbegin, hadmits⟩ := of_decide_eq_true h
      exact ⟨hbegin, fun htransfer hopen => ⟨hstep, hadmits htransfer hopen⟩⟩
  | closer =>
      simp only [serialCheck, hrole] at h
      simp only [Pool.Serial, hrole]
      refine fun _ j hj hpc hask => ?_
      rcases of_decide_eq_true h j hj with hzero | hfinished
      · omega
      · exact hask.not_finished hfinished
  | other => simp only [serialCheck, hrole] at h; cases h

/-- The provider does not answer the first request, the second one transfers the payout, and the cancellation that has
begun before it finds the payout PAID. -/
theorem transfer_once_repeated : ∃ p, Pool.ReachableIf
      (Pool.Serial (payoutOutlet 1 15 950 .mad) (fun i => (repeated i).role) flaky.transfers)
      (Pool.init (fun i => (repeated i).job plainRuntime 1 15) railed.1 flaky) p ∧
    (∀ i, (p.threads i).phase.Finished) ∧ (p.threads 0).phase.result = none ∧ (p.threads 1).phase.result.isSome ∧
    (p.threads 2).phase.result = none ∧ p.shared.world.transfers.length = 1 ∧
    (p.shared.store.payout 1 15).map (·.status) = some .paid ∧
    (p.shared.world.transfers = flaky.transfers ∨
      ∃ params, p.shared.world.transfers = flaky.transfers ++ [params]) := by
  obtain ⟨p, hp, hend⟩ := Pool.ReachableIf.exists_of_check
    (Pool.init (fun i => (repeated i).job plainRuntime 1 15) railed.1 flaky)
    (List.replicate 10 0 ++ List.replicate 1 2 ++ List.replicate 38 1 ++ List.replicate 2 2)
    (fun p => (∀ i, (p.threads i).phase.Finished) ∧ (p.threads 0).phase.result = none ∧
      (p.threads 1).phase.result.isSome ∧ (p.threads 2).phase.result = none ∧
      p.shared.world.transfers.length = 1 ∧ (p.shared.store.payout 1 15).map (·.status) = some .paid)
    serialCheck (fun _ _ _ => serial_of_check) (by rfl)
  obtain ⟨hended, hfirst, hsecond, hcancel, htransfers, hpaid⟩ := of_decide_eq_true hend
  exact ⟨p, hp, hended, hfirst, hsecond, hcancel, htransfers, hpaid, (transfer_once repeated hp).1⟩

/-- A second request transfers the payout again, which is PAID by then. -/
theorem processRoute_pays_twice :
    ¬ ∀ p, Pool.Reachable (processing Bool) p →
      (p.shared.world.transfers = railed.2.transfers ∨
        ∃ params, p.shared.world.transfers = railed.2.transfers ++ [params]) ∧
      ∀ i q k, (p.threads i).phase = .between (.ask q k) → PayoutOpen 1 15 p.shared.store := by
  intro h
  obtain ⟨p, hp, hbad⟩ := Pool.ReachableIf.exists_of_runSchedule (processing Bool)
    (List.replicate 38 true ++ List.replicate 10 false) (fun p => p.shared.world.transfers.length = 2)
    (fun _ _ _ => trivial) (by rfl)
  have htwo : p.shared.world.transfers.length = 2 := of_decide_eq_true hbad
  have hnone : railed.2.transfers.length = 0 := by rfl
  rcases (h p hp).1 with hsame | ⟨params, hone⟩
  · rw [hsame] at htwo; omega
  · rw [hone, List.length_append, List.length_singleton] at htwo; omega

end CorpoPay.Settlement
