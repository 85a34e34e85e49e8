import CorpoPay.Settlement.Lemmas.PayoutsSound
import CorpoPay.Transaction.CheckThenAct
import CorpoPay.Transaction.Rules

/-!
# Main theorem: the ways to close a payout side by side

Only `markPayoutPaid` takes the lock of the tenant. Status, items and ledger agree in every run where a payment and a
release do not overlap: none of the two takes effect while a call of the other kind is past its status check.
-/

namespace CorpoPay.Settlement

open Transaction.Tx
open Transaction (Pool Contract Local Shared)

/-! ## Status, items and ledger -/

/-- The movements under the tag of a payout. -/
def payoutMovements (ms : List Movement) (t id : Id) : List Movement :=
  ms.filter fun m => m.tenantId = t ∧ m.sourceType = some .payout ∧ m.sourceId = some id

/-- The posting is there exactly when the payout is paid, once, and an open or paid payout has its items. -/
def PayoutAgrees (t id : Id) (amount : Int) (currency : Currency) (items : List PayoutItem) (db : Db) : Prop :=
  ∃ payout, db.payout t id = some payout ∧ payout.amount = amount ∧ payout.currency = currency ∧
    (payout.status.isLive = true → db.itemsOf id = items) ∧
    payoutMovements db.movements t id =
      if payout.status = .paid then payout.settlement.movements t else []

def NotPaid (t id : Id) (db : Db) : Prop := ∀ payout, db.payout t id = some payout → payout.status ≠ .paid

section Alone

variable {t id : Id} {amount : Int} {currency : Currency} {items : List PayoutItem} {db db' : Db}

theorem payout_updatePayout (f : Payout → Payout) (hf : ∀ r, (f r).id = r.id ∧ (f r).tenantId = r.tenantId) :
    (db.updatePayout id f).payout t id = (db.payout t id).map f :=
  Data.find?_update (fun r => by simp only [hf r]) fun r hr => (of_decide_eq_true hr).1

theorem payout_release (status : PayoutStatus) :
    (db.release id status).payout t id = (db.payout t id).map fun p => { p with status } :=
  payout_updatePayout (fun p => { p with status }) fun _ => ⟨rfl, rfl⟩

theorem notPaid_release {status : PayoutStatus} (h : status ≠ .paid) : NotPaid t id (db.release id status) := by
  intro payout hp
  rw [payout_release] at hp
  obtain ⟨p, -, rfl⟩ := Option.map_eq_some_iff.mp hp
  exact h

/-- A release leaves nothing behind, when there is no posting. -/
theorem PayoutAgrees.release {status : PayoutStatus} (h : PayoutAgrees t id amount currency items db)
    (hn : NotPaid t id db) (hdead : status.isLive = false) :
    PayoutAgrees t id amount currency items (db.release id status) := by
  obtain ⟨p, hp, hamount, hcurrency, -, hms⟩ := h
  have hnotpaid : status ≠ .paid := by rintro rfl; cases hdead
  refine ⟨{ p with status }, by rw [payout_release, hp]; rfl, hamount, hcurrency, fun hlive => ?_, ?_⟩
  · exact absurd (hdead.symm.trans hlive) (by decide)
  · rw [if_neg (hn p hp)] at hms
    rw [if_neg hnotpaid]
    exact hms

/-- A payment posts once. -/
theorem PayoutAgrees.paid {providerTransferId : Option String} (h : PayoutAgrees t id amount currency items db)
    (hpaid : Paid t id providerTransferId db db') : PayoutAgrees t id amount currency items db' := by
  obtain ⟨q, hq, hamount, hcurrency, hitems, hms⟩ := h
  obtain ⟨p, hfind, hopen, -, db₁, ha, honly, -, rfl⟩ := hpaid
  obtain rfl : q = p := Option.some.inj (hq.symm.trans hfind)
  have hfind₁ : db₁.payout t id = some q := by rw [Db.payout, honly.payouts]; exact hq
  refine ⟨{ q with status := .paid, providerTransferId }, ?_, hamount, hcurrency, fun _ => ?_, ?_⟩
  · rw [payout_updatePayout (fun r => { r with status := .paid, providerTransferId }) fun _ => ⟨rfl, rfl⟩, hfind₁]; rfl
  · rw [← hitems (isLive_of_isOpen hopen)]
    exact congrArg (List.filter _) honly.payoutItems
  · rw [if_neg (ne_paid_of_isOpen hopen)] at hms
    rw [if_pos rfl]
    show payoutMovements db₁.movements t id = q.settlement.movements t
    have hid := (payout_find hq).2.1
    rw [ha.movements_eq, payoutMovements, List.filter_append]
    show payoutMovements db.movements t id ++ _ = _
    rw [hms, List.nil_append]
    refine List.filter_eq_self.mpr fun m hm => ?_
    simp only [LedgerPosting.movements, List.mem_cons, List.not_mem_nil, or_false] at hm
    rcases hm with rfl | rfl <;> simp [LedgerLeg.movement, Payout.settlement, hid]

end Alone

/-! ## Contracts -/

/-- A request that closes a payout. -/
inductive Closing
  | cancel
  | fail
  | pay (providerTransferId : Option String)
  deriving DecidableEq, Repr

namespace Closing

def job (t id : Id) : Closing → Job Payout
  | .cancel => cancelPayout t id
  | .fail => markPayoutFailed t id
  | .pay providerTransferId => markPayoutPaid t id providerTransferId

def isPay : Closing → Bool
  | .pay _ => true
  | .cancel | .fail => false

/-- The number of steps to the end of the status check. -/
def checkedAt : Closing → Nat
  | .pay _ => 3
  | .cancel | .fail => 2

end Closing

section Contracts

variable (t id : Id) (amount : Int) (currency : Currency) (items : List PayoutItem)

/-- Past its check, a payment needs the rows as they are. It has the lock of the tenant then. -/
def payContract : Contract Backend fun σ => PayoutAgrees t id amount currency items σ.store where
  rely ℓ σ σ' := DbLock.tenant t ∈ ℓ.held → 3 ≤ ℓ.pc → σ'.store = σ.store
  guar ℓ σ σ' := σ'.store = σ.store ∨
    DbLock.tenant t ∈ ℓ.held ∧ PayoutAgrees t id amount currency items σ'.store
  write _ _ _ := True
  rely_refl _ _ _ _ := rfl
  rely_trans h h' hl hpc := (h' hl hpc).trans (h hl hpc)
  rely_anti hb h hl hpc := h (hb.2 hl) (hpc.trans hb.1)
  guar_inv := by
    rintro ℓ σ σ' (h | h) hi
    · rw [h]; exact hi
    · exact h.2

/-- Past its check, a release needs that nobody pays the payout. -/
def releaseContract : Contract Backend fun σ => PayoutAgrees t id amount currency items σ.store where
  rely ℓ σ σ' := 2 ≤ ℓ.pc → NotPaid t id σ.store → NotPaid t id σ'.store
  guar _ σ σ' := σ'.store = σ.store ∨
    PayoutAgrees t id amount currency items σ'.store ∧ (NotPaid t id σ.store → NotPaid t id σ'.store)
  write _ _ _ := True
  rely_refl _ _ _ h := h
  rely_trans h h' hpc hn := h' hpc (h hpc hn)
  rely_anti hb h hpc := h (hpc.trans hb.1)
  guar_inv := by
    rintro ℓ σ σ' (h | h) hi
    · rw [h]; exact hi
    · exact h.1

/-- The contract of a payment or of a release. -/
def closingContract : (isPay : Bool) → Contract Backend fun σ => PayoutAgrees t id amount currency items σ.store
  | true => payContract t id amount currency items
  | false => releaseContract t id amount currency items

end Contracts

section Jobs

variable {t id : Id} {amount : Int} {currency : Currency} {items : List PayoutItem} (db : Db) (w : World)

/-- Locks are no writes. -/
theorem writes_locks {α : Type} {P : (Db → Db) → Unit → Prop} {l : α → DbLock} (as : List α) {v : Db → Db} (h : P v ()) :
    (forEach (fun a => Backend.lock (l a)) as).Writes P v := by
  induction as with
  | nil => exact h
  | cons a as ih => exact ih

theorem releasePayout_writes (id : Id) (status : PayoutStatus) :
    (releasePayout id status).Writes (fun v _ => ∀ db : Db, v db = db.release id status) (fun db : Db => db) := by
  simp only [releasePayout, PayoutItem.deleteMany, bind_eq, writes_bind]
  intro rows
  refine writes_locks _ ?_
  intro db₁
  simp only [ret_bind]
  split
  · trivial
  · exact fun _ => rfl

/-- The transaction of a release, on a payout that is not paid. -/
theorem releasePayout_wp {status : PayoutStatus} (hdead : status.isLive = false) {ℓ : Local Backend}
    {σ : Shared Backend} (hpc : 2 ≤ ℓ.pc) (hn : NotPaid t id σ.store) :
    (transaction (releasePayout id status)).WP (releaseContract t id amount currency items) (fun _ _ => True) ℓ σ := by
  have hnotpaid : status ≠ .paid := by rintro rfl; cases hdead
  refine Transaction.Job.WP.transaction fun σ₁ hr₁ _ => ?_
  refine Transaction.Tx.WP.of_writes (K := fun σ : Shared Backend => NotPaid t id σ.store)
    (fun ℓ' _ _ hb hr _ => hr ?_) (fun _ _ hn => hn) (fun _ _ _ => .inl rfl) (fun _ _ _ => trivial) (hr₁ hpc hn)
    (releasePayout_writes id status) ?_
  · exact hpc.trans ((Nat.le_succ _).trans hb.1)
  · intro ℓ' v payout σ₂ _ hi₂ hn₂ hv
    have hstore : v σ₂.store = σ₂.store.release id status := hv _
    refine ⟨.inr ?_, fun _ _ _ => trivial⟩
    rw [Shared.withStore_store, hstore]
    exact ⟨PayoutAgrees.release hi₂ hn₂ hdead, fun _ => notPaid_release hnotpaid⟩

/-- What a release reads is still so when its transaction begins. -/
theorem notPaid_of_open {p : Payout} (hfind : db.payout t id = some p) (hopen : p.status.isOpen = true) :
    NotPaid t id db := by
  intro q hq
  obtain rfl : p = q := Option.some.inj (hfind.symm.trans hq)
  exact ne_paid_of_isOpen hopen

theorem releaseContract_guar_refl (ℓ : Local Backend) (σ : Shared Backend) :
    (releaseContract t id amount currency items).guar ℓ σ σ := .inl rfl

theorem cancelPayout_wp : (cancelPayout t id).WP (releaseContract t id amount currency items) (fun _ _ => True)
    ⟨0, ∅⟩ ⟨db, w⟩ := by
  refine Transaction.Job.WP.get_bind releaseContract_guar_refl fun σ₁ _ _ σ₂ hr₂ _ => ?_
  split
  · trivial
  · rename_i p hfind
    refine Transaction.Job.WP.ofExcept_bind fun _ hstatus => ?_
    have hopen := PayoutStatus.isOpen_of_assertTransition hstatus
    exact releasePayout_wp rfl (by decide) (hr₂ (le_refl 2) (notPaid_of_open _ hfind hopen))

theorem markPayoutFailed_wp : (markPayoutFailed t id).WP (releaseContract t id amount currency items) (fun _ _ => True)
    ⟨0, ∅⟩ ⟨db, w⟩ := by
  refine Transaction.Job.WP.get_bind releaseContract_guar_refl fun σ₁ _ _ σ₂ hr₂ _ => ?_
  split
  · trivial
  · rename_i p hfind
    split
    · trivial
    · rename_i hterminal
      have hopen : p.status.isOpen = true := by simpa [PayoutStatus.mem_terminal_iff] using hterminal
      exact releasePayout_wp rfl (by decide) (hr₂ (le_refl 2) (notPaid_of_open _ hfind hopen))

theorem markPayoutPaid_wp (providerTransferId : Option String) :
    (markPayoutPaid t id providerTransferId).WP (payContract t id amount currency items) (fun _ _ => True)
      ⟨0, ∅⟩ ⟨db, w⟩ := by
  refine Transaction.Job.WP.transaction fun σ₁ _ _ σ₂ _ _ σ₃ _ hi₃ => ?_
  have hspec := markPayoutPaidInTx_spec σ₃.store t id providerTransferId
  refine Transaction.Tx.WP.of_ensures (fun ℓ' _ _ hb hr => hr (hb.2 (Set.mem_insert _ _)) hb.1)
    (fun _ _ _ => .inl rfl) (fun _ _ _ => trivial) hspec ?_
  intro ℓ' v payout σ₄ hb _ hs hq
  refine ⟨.inr ⟨hb.2 (Set.mem_insert _ _), ?_⟩, fun _ _ _ => trivial⟩
  rw [Shared.withStore_store, hs]
  exact PayoutAgrees.paid hi₃ hq

end Jobs

/-! ## Runs -/

section Runs

variable {ι : Type} [DecidableEq ι]

/-- A step that changes the rows while no call of the other kind is past its status check. -/
def Apart (closings : ι → Closing) (p : Pool Backend ι Payout) (i : ι) (p' : Pool Backend ι Payout) : Prop :=
  p'.shared.store ≠ p.shared.store → ∀ j, j ≠ i → (closings j).isPay ≠ (closings i).isPay →
    ¬ (Closing.checkedAt (closings j) ≤ (p.threads j).pc ∧ ¬ (p.threads j).phase.Finished)

omit [DecidableEq ι] in
/-- What one call guarantees is what the others rely on. -/
theorem closing_compat {t id : Id} {amount : Int} {currency : Currency} {items : List PayoutItem}
    {closings : ι → Closing} {p p' : Pool Backend ι Payout} {i j : ι} (hj : j ≠ i) (hcond : Apart closings p i p')
    (hg : (closingContract t id amount currency items (closings i).isPay).guar (p.locals i) p.shared p'.shared)
    (hfin : ¬ (p.threads j).phase.Finished) :
    (closingContract t id amount currency items (closings j).isPay).rely (p.locals j) p.shared p'.shared := by
  have happart : p'.shared.store ≠ p.shared.store → (closings j).isPay ≠ (closings i).isPay →
      ¬ Closing.checkedAt (closings j) ≤ (p.threads j).pc := fun hne hkind hpc => hcond hne j hj hkind ⟨hpc, hfin⟩
  -- Two payments exclude each other by the lock, two releases do no harm, and `hcond` keeps the kinds apart.
  cases hi : (closings i).isPay <;> cases hc : (closings j).isPay <;> rw [hi] at hg <;> rw [hi, hc] at happart
  · rcases hg with hg | hg
    · exact fun _ hn => hg ▸ hn
    · exact fun _ => hg.2
  · intro _ hpc
    by_contra hne
    refine happart hne (by decide) ?_
    cases hcl : closings j with
    | pay _ => exact hpc
    | cancel => rw [hcl] at hc; cases hc
    | fail => rw [hcl] at hc; cases hc
  · intro hpc
    rcases hg with hg | ⟨hlock, _⟩
    · exact fun hn => hg ▸ hn
    · by_contra hne
      have hchecked : Closing.checkedAt (closings j) ≤ (p.threads j).pc := by
        cases hcl : closings j with
        | pay _ => rw [hcl] at hc; cases hc
        | cancel => exact hpc
        | fail => exact hpc
      exact happart (fun hsame => hne fun hn => hsame ▸ hn) (by decide) hchecked
  · intro hown _
    rcases hg with hg | ⟨hlock, _⟩
    · exact hg
    · exact absurd (Option.some.inj (hown.symm.trans hlock)) hj

/-- Any number of calls that close one open payout. -/
theorem closings_agree {t id : Id} {payout : Payout} {closings : ι → Closing} {db : Db} {w : World}
    (hpayout : db.payout t id = some payout) (hopen : payout.status.isOpen = true)
    (hnew : payoutMovements db.movements t id = []) {p : Pool Backend ι Payout}
    (hp : Pool.ReachableIf (Apart closings) (Pool.init (fun i => (closings i).job t id) db w) p) :
    PayoutAgrees t id payout.amount payout.currency (db.itemsOf id) p.shared.store := by
  have hinit : PayoutAgrees t id payout.amount payout.currency (db.itemsOf id) db := by
    refine ⟨payout, hpayout, rfl, rfl, fun _ => rfl, ?_⟩
    rw [if_neg (ne_paid_of_isOpen hopen)]
    exact hnew
  refine (Pool.rely_guarantee (C := fun i => closingContract t id payout.amount payout.currency (db.itemsOf id) (closings i).isPay)
    (Q := fun _ _ _ => True) hinit (fun i => ?_) ?_ (fun _ _ _ _ _ _ _ _ _ _ => trivial) hp).1
  · cases hi : closings i with
    | cancel => exact cancelPayout_wp db w
    | fail => exact markPayoutFailed_wp db w
    | pay ref => exact markPayoutPaid_wp db w ref
  · exact fun p i p' _ _ hcond hg j hj hfin => closing_compat hj hcond hg hfin

end Runs

/-! ## A cancellation and a payment -/

/-- A capture of 10.00 and a payout of the 9.50 that come to AVAILABLE. -/
def drafted : Db × World :=
  execute [.settleCapture 1 plainCapture,
    .createPayout 1 { idempotencyKey := "first", provider := .stripe, method := none }] (.empty plainConfig) .counting

def draftPayout : Payout :=
  { id := 15, tenantId := 1, amount := 950, currency := .mad, status := .draft, provider := .stripe,
    providerTransferId := none, method := .bankTransfer, idempotencyKey := "first" }

def closing (ι : Type) [DecidableEq ι] (closings : ι → Closing) : Pool Backend ι Payout :=
  Pool.init (fun i => (closings i).job 1 15) drafted.1 drafted.2

/-- Two payments and a cancellation. -/
def twoPayments : Fin 3 → Closing
  | 0 => .pay none
  | 1 => .pay none
  | 2 => .cancel

theorem apart_of_apart {p p' : Pool Backend (Fin 3) Payout} {i : Fin 3}
    (h : Pool.apart (fun j => (twoPayments j).checkedAt) p i p' = true) : Apart twoPayments p i p' :=
  fun _ _ hj _ => Pool.not_pastCheck_of_apart h hj

/-- The second payment waits for the lock of the first one and then finds the payout PAID, as the cancellation does. -/
theorem closings_agree_refused : ∃ p, Pool.ReachableIf (Apart twoPayments) (closing (Fin 3) twoPayments) p ∧
    (p.threads 0).phase.result.isSome ∧ (∀ i, (p.threads i).phase.Finished) ∧
    (p.threads 1).phase.result = none ∧ (p.threads 2).phase.result = none ∧
    (p.shared.store.payout 1 15).map (·.status) = some .paid ∧
    PayoutAgrees 1 15 950 .mad (drafted.1.itemsOf 15) p.shared.store := by
  obtain ⟨p, hp, hend⟩ := Pool.ReachableIf.exists_of_check (closing (Fin 3) twoPayments)
    (List.replicate 1 1 ++ List.replicate 1 2 ++ List.replicate 22 0 ++ List.replicate 3 1 ++ List.replicate 2 2)
    (fun p => (p.threads 0).phase.result.isSome ∧ (∀ i, (p.threads i).phase.Finished) ∧
      (p.threads 1).phase.result = none ∧ (p.threads 2).phase.result = none ∧
      (p.shared.store.payout 1 15).map (·.status) = some .paid)
    (Pool.apart fun j => (twoPayments j).checkedAt) (fun _ _ _ _ => apart_of_apart) (by rfl)
  obtain ⟨hpays, hended, hsecond, hcancel, hpaid⟩ := of_decide_eq_true hend
  refine ⟨p, hp, hpays, hended, hsecond, hcancel, hpaid, ?_⟩
  exact closings_agree (rfl : drafted.1.payout 1 15 = some draftPayout) rfl (by rfl) hp

/-- A cancellation that has read DRAFT cancels the payout after it was paid. -/
theorem cancel_after_payment :
    ¬ ∀ p, Pool.Reachable (closing Bool fun i => if i then .cancel else .pay none) p →
      PayoutAgrees 1 15 950 .mad (drafted.1.itemsOf 15) p.shared.store := by
  intro h
  obtain ⟨p, hp, hbad⟩ := Pool.ReachableIf.exists_of_runSchedule (closing Bool fun i => if i then .cancel else .pay none)
    (List.replicate 3 true ++ List.replicate 22 false ++ List.replicate 8 true)
    (fun p => (p.shared.store.payout 1 15).map (·.status) = some .cancelled ∧
      (payoutMovements p.shared.store.movements 1 15).length = 2) (fun _ _ _ => trivial) (by rfl)
  obtain ⟨hstatus, hposted⟩ := of_decide_eq_true hbad
  obtain ⟨payout, hfind, -, -, -, hms⟩ := h p hp
  have hcancelled : payout.status = .cancelled := by
    rw [hfind] at hstatus
    exact Option.some.inj hstatus
  rw [hms, hcancelled] at hposted
  cases hposted

end CorpoPay.Settlement
