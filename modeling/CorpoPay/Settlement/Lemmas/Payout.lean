import CorpoPay.Settlement.Lemmas.Grows
import CorpoPay.Settlement.Reservations

/-!
# The payouts and their items

`Db.PayoutsSound` is what every operation keeps. From it the amount that `createPayout` computes is compared with the
balance.
-/

namespace CorpoPay.Settlement

open Transaction.Tx

/-! ## The invariant -/

/-- What the payouts took from AVAILABLE. -/
def Movement.payoutDebit (m : Movement) (t : Id) (c : Currency) : Int :=
  if m.tenantId = t ∧ m.account = .available ∧ m.direction = .debit ∧ m.currency = c ∧ m.category = .payout then m.amount
  else 0

def payoutDebits (ms : List Movement) (t : Id) (c : Currency) : Int := (ms.map (·.payoutDebit t c)).sum

@[simp] theorem payoutDebits_append (ms ms' : List Movement) (t : Id) (c : Currency) :
    payoutDebits (ms ++ ms') t c = payoutDebits ms t c + payoutDebits ms' t c := by simp [payoutDebits]

/-- Item `i` of payout `p` claims the credit `e`. -/
structure PayoutItem.Claims (i : PayoutItem) (p : Payout) (e : LedgerEntry) : Prop where
  payout : p.id = i.payoutId
  live : p.status.isLive = true
  entry : e.id = i.ledgerEntryId
  tenantId : e.tenantId = p.tenantId
  currency : e.currency = p.currency
  account : e.account = .available
  direction : e.direction = .credit
  nonneg : 0 ≤ i.amount
  le : i.amount ≤ e.amount

structure Db.PayoutsSound (db : Db) : Prop where
  entryIds : db.entryIds.Nodup
  nonneg : ∀ e ∈ db.ledgerEntries, 0 ≤ e.amount
  payoutIds : (db.payouts.map (·.id)).Nodup
  /-- No credit is claimed twice. -/
  claims : (db.payoutItems.map (·.ledgerEntryId)).Nodup
  item : ∀ i ∈ db.payoutItems, ∃ p ∈ db.payouts, ∃ e ∈ db.ledgerEntries, i.Claims p e
  amount : ∀ p ∈ db.payouts, p.status.isLive = true → ((db.itemsOf p.id).map (·.amount)).sum = p.amount
  paid : ∀ t c, payoutDebits db.movements t c = db.payoutSum t c (· = .paid)

theorem payoutsSound_empty (config : Config) : (Db.empty config).PayoutsSound where
  entryIds := List.nodup_nil
  nonneg := by simp [Db.empty]
  payoutIds := List.nodup_nil
  claims := List.nodup_nil
  item := by simp [Db.empty]
  amount := by simp [Db.empty]
  paid := fun _ _ => rfl

/-! ## The amount of a new payout -/

section Amount

variable {db : Db} (t : Id) (c : Currency)

theorem payoutSum_live :
    db.payoutSum t c PayoutStatus.isLive = db.payoutSum t c PayoutStatus.isOpen + db.payoutSum t c (· = .paid) := by
  simp only [Db.payoutSum, Data.sum_filter]
  rw [← List.sum_map_add]
  refine Data.sum_map_congr fun p _ => ?_
  by_cases h : p.tenantId = t ∧ p.currency = c
  · cases hs : p.status <;> simp [h, PayoutStatus.isLive, PayoutStatus.isOpen]
  · have hn : ∀ q : Prop, ¬ (p.tenantId = t ∧ p.currency = c ∧ q) := fun q hq => h ⟨hq.1, hq.2.1⟩
    simp [hn]

/-- What one entry adds to AVAILABLE, by what payouts see of it. -/
theorem on_available (e : LedgerEntry) :
    e.on t .available c =
      (if e.tenantId = t ∧ e.account = .available ∧ e.direction = .credit ∧ e.currency = c ∧
        db.payoutItems.all (·.ledgerEntryId ≠ e.id) then e.amount else 0) +
      (if e.tenantId = t ∧ e.account = .available ∧ e.direction = .credit ∧ e.currency = c ∧
        db.payoutItems.any (·.ledgerEntryId = e.id) then e.amount else 0) -
      (if e.tenantId = t ∧ e.account = .available ∧ e.direction = .debit ∧ e.currency = c ∧ e.category ≠ .payout then
        e.amount else 0) - e.payoutDebit t c := by
  have hclaim : db.payoutItems.all (·.ledgerEntryId ≠ e.id) = !db.payoutItems.any (·.ledgerEntryId = e.id) := by
    rw [List.not_any_eq_all_not]; congr 1; funext i; simp
  rw [hclaim]
  cases db.payoutItems.any (·.ledgerEntryId = e.id) <;> cases hd : e.direction <;>
    by_cases hp : e.category = .payout <;>
    simp [Movement.on, Movement.payoutDebit, Movement.delta, delta, hd, hp, and_comm] <;> grind

theorem accountBalance_available :
    db.accountBalance t .available c =
      ((db.unpaidCredits t c).map (·.amount)).sum + ((db.claimedCredits t c).map (·.amount)).sum -
        ((db.otherDebits t c).map (·.amount)).sum - payoutDebits db.movements t c := by
  have hunpaid : ((db.unpaidCredits t c).map (·.amount)).sum = ((db.ledgerEntries.filter fun e =>
      e.tenantId = t ∧ e.account = .available ∧ e.direction = .credit ∧ e.currency = c ∧
        db.payoutItems.all (·.ledgerEntryId ≠ e.id)).map (·.amount)).sum :=
    ((List.perm_insertionSort _ _).map _).sum_eq
  rw [hunpaid, Db.accountBalance_eq]
  simp only [balance, payoutDebits, Db.movements, Db.claimedCredits, Db.otherDebits, Data.sum_filter, List.map_map]
  rw [← List.sum_map_add, ← Data.sum_map_sub, ← Data.sum_map_sub]
  exact Data.sum_map_congr fun e _ => on_available t c e

variable (h : db.PayoutsSound)
include h

/-- Items reach the same money by their credit and by their payout. -/
theorem sum_claimed :
    ((db.claimedCredits t c).map fun e => db.claimed e.id).sum = db.payoutSum t c PayoutStatus.isLive := by
  have hentries : ((db.claimedCredits t c).map fun e => db.claimed e.id).sum =
      (db.payoutItems.map fun i => (db.ledgerEntries.map fun e => if e.id = i.ledgerEntryId then
        (if e.tenantId = t ∧ e.account = .available ∧ e.direction = .credit ∧ e.currency = c then i.amount else 0)
        else 0).sum).sum := by
    rw [← Data.sum_sum_comm, Db.claimedCredits, Data.sum_filter]
    refine Data.sum_map_congr fun e _ => ?_
    rw [Db.claimed, Data.sum_filter]
    by_cases he : e.tenantId = t ∧ e.account = .available ∧ e.direction = .credit ∧ e.currency = c
    · by_cases hany : db.payoutItems.any (·.ledgerEntryId = e.id) = true
      · rw [if_pos ⟨he.1, he.2.1, he.2.2.1, he.2.2.2, hany⟩]
        exact Data.sum_map_congr fun i _ => by simp [he, eq_comm]
      · rw [if_neg fun hall => hany hall.2.2.2.2]
        refine Eq.symm (List.sum_eq_zero fun v hv => ?_)
        obtain ⟨i, hi, rfl⟩ := List.mem_map.mp hv
        exact if_neg fun hid => hany (List.any_eq_true.mpr ⟨i, hi, by simp [hid]⟩)
    · rw [if_neg fun hall => he ⟨hall.1, hall.2.1, hall.2.2.1, hall.2.2.2.1⟩]
      simp [he]
  have hpayouts : db.payoutSum t c PayoutStatus.isLive =
      (db.payoutItems.map fun i => (db.payouts.map fun p => if p.id = i.payoutId then
        (if p.tenantId = t ∧ p.currency = c ∧ p.status.isLive then i.amount else 0) else 0).sum).sum := by
    rw [← Data.sum_sum_comm, Db.payoutSum, Data.sum_filter]
    refine Data.sum_map_congr fun p hp => ?_
    split_ifs with hlive
    · rw [← h.amount p hp hlive.2.2, Db.itemsOf, Data.sum_filter]
      exact Data.sum_map_congr fun i _ => by simp [eq_comm]
    · simp
  rw [hentries, hpayouts]
  refine Data.sum_map_congr fun i hi => ?_
  obtain ⟨p, hp, e, he, hc⟩ := h.item i hi
  rw [← hc.entry, ← hc.payout, Data.sum_key h.entryIds he, Data.sum_key h.payoutIds hp]
  simp [hc.tenantId, hc.currency, hc.account, hc.direction, hc.live]

theorem claimed_le {e : LedgerEntry} (he : e ∈ db.claimedCredits t c) : db.claimed e.id ≤ e.amount := by
  obtain ⟨he, hcond⟩ := List.mem_filter.mp he
  obtain ⟨i, hi, hie⟩ := List.any_eq_true.mp (of_decide_eq_true hcond).2.2.2.2
  obtain ⟨p, hp, e', he', hc⟩ := h.item i hi
  have hid : i.ledgerEntryId = e.id := of_decide_eq_true hie
  have heq : e' = e := Data.eq_of_key h.entryIds he' he (hc.entry.trans hid)
  rw [Db.claimed, Data.sum_filter, ← hid, Data.sum_key h.claims hi, ← heq]
  exact hc.le

/-- The balance less the open payouts is the amount that `createPayout` computes and what claims leave unclaimed. -/
theorem eligible_eq :
    db.eligible t c = db.payable t c + ((db.claimedCredits t c).map fun e => e.amount - db.claimed e.id).sum := by
  rw [Db.eligible, Db.payable, accountBalance_available, h.paid, Data.sum_map_sub, sum_claimed t c h, payoutSum_live]
  ring

theorem remainder_nonneg : 0 ≤ ((db.claimedCredits t c).map fun e => e.amount - db.claimed e.id).sum := by
  refine List.sum_nonneg fun v hv => ?_
  obtain ⟨e, he, rfl⟩ := List.mem_map.mp hv
  have := claimed_le t c h he
  omega

theorem remainder_eq_zero_iff :
    ((db.claimedCredits t c).map fun e => e.amount - db.claimed e.id).sum = 0 ↔ db.ClaimsWhole t c := by
  constructor
  · intro hz e he
    have hle := List.single_le_sum (fun v hv => ?_) _ (List.mem_map.mpr ⟨e, he, rfl⟩) |>.trans_eq hz
    · have := claimed_le t c h he
      omega
    · obtain ⟨e', he', rfl⟩ := List.mem_map.mp hv
      have := claimed_le t c h he'
      omega
  · intro hw
    refine List.sum_eq_zero fun v hv => ?_
    obtain ⟨e, he, rfl⟩ := List.mem_map.mp hv
    rw [hw e he, sub_self]

end Amount

/-! ## What the operations do -/

def Db.updatePayout (db : Db) (id : Id) (f : Payout → Payout) : Db :=
  { db with payouts := db.payouts.map fun r => if r.id = id then f r else r }

/-- The payout is closed and its items are gone. -/
def Db.release (db : Db) (id : Id) (status : PayoutStatus) : Db :=
  { db with payoutItems := db.payoutItems.filter (·.payoutId ≠ id) }.updatePayout id fun p => { p with status }

section Specifications

variable {db : Db}

theorem ensures_payoutUpdate {id : Id} {f : Payout → Payout} {Q : Payout → Db → Prop}
    (h : ∀ row ∈ db.payouts, row.id = id → Q (f row) (db.updatePayout id f)) :
    (Payout.update id f).Ensures Q (fun _ => True) db := by
  simp only [Payout.update, bind_eq, pure_eq, ensures_bind, ensures_acquire, ensures_get]
  cases hfind : db.payouts.find? (·.id = id) with
  | none => trivial
  | some row =>
      have hid : row.id = id := by simpa using List.find?_some hfind
      exact h row (List.mem_of_find?_eq_some hfind) hid

theorem ensures_releasePayout {id : Id} {status : PayoutStatus} {Q : Payout → Db → Prop}
    (h : ∀ row, Q row (db.release id status)) : (releasePayout id status).Ensures Q (fun _ => True) db := by
  simp only [releasePayout, PayoutItem.deleteMany, bind_eq, ensures_bind, ensures_get, ensures_modify]
  have hlocks : ∀ rows : List PayoutItem, (forEach (fun row => Backend.lock (.payoutItem row.id)) rows).Keeps Eq :=
    fun rows => keeps_forEach fun _ _ => keeps_acquire _
  refine (hlocks _ db).mono (fun _ db' hdb => ?_) fun _ h => h
  subst hdb
  exact ensures_payoutUpdate fun row _ _ => h _

/-- A payout that is not open is left alone. -/
def Released (id : Id) (status : PayoutStatus) (db db' : Db) : Prop :=
  db' = db ∨ ∃ p ∈ db.payouts, p.id = id ∧ p.status.isOpen = true ∧ db' = db.release id status

theorem payout_find {t id : Id} {p : Payout} (h : db.payout t id = some p) :
    p ∈ db.payouts ∧ p.id = id ∧ p.tenantId = t := by
  have hp := List.find?_some h
  simp only [decide_eq_true_eq] at hp
  exact ⟨List.mem_of_find?_eq_some h, hp⟩

theorem cancelPayout_spec (t id : Id) : (cancelPayout t id).Ensures (fun _ db' => Released id .cancelled db db') db := by
  simp only [cancelPayout, Transaction.Job.bind_eq, Transaction.Job.ensures_bind, Transaction.Job.ensures_get]
  cases hfind : db.payout t id with
  | none => exact .inl rfl
  | some p =>
      obtain ⟨hp, hid, -⟩ := payout_find hfind
      cases hstatus : p.status.assertTransition .cancelled with
      | error e =>
          simp only [hstatus]
          exact Or.inl rfl
      | ok _ =>
          have hopen := PayoutStatus.isOpen_of_assertTransition hstatus
          simp only [hstatus]
          exact (ensures_releasePayout fun _ => (Or.inr ⟨p, hp, hid, hopen, rfl⟩ : Released id .cancelled db _)).mono
            (fun _ _ h => h) fun _ _ => .inl rfl

theorem markPayoutFailed_spec (t id : Id) :
    (markPayoutFailed t id).Ensures (fun _ db' => Released id .failed db db') db := by
  simp only [markPayoutFailed, Transaction.Job.bind_eq, Transaction.Job.ensures_bind, Transaction.Job.ensures_get]
  cases hfind : db.payout t id with
  | none => exact .inl rfl
  | some p =>
      obtain ⟨hp, hid, -⟩ := payout_find hfind
      dsimp only
      split_ifs with hterminal
      · exact .inl rfl
      · have hopen : p.status.isOpen = true := by simpa [PayoutStatus.mem_terminal_iff] using hterminal
        exact (ensures_releasePayout fun _ => (Or.inr ⟨p, hp, hid, hopen, rfl⟩ : Released id .failed db _)).mono
          (fun _ _ h => h) fun _ _ => .inl rfl

/-- The posting of a paid payout. -/
def Payout.settlement (p : Payout) : LedgerPosting :=
  ⟨debit .available p.amount .payout none p.currency, credit .paidOut p.amount .payout none p.currency,
    ⟨some .payout, some p.id⟩⟩

/-- The payout `id` was open and is paid now. -/
def Paid (t id : Id) (providerTransferId : Option String) (db db' : Db) : Prop :=
  ∃ p, db.payout t id = some p ∧ p.status.isOpen = true ∧
    p.amount ≤ db.accountBalance t .available p.currency ∧ ∃ db₁, Appends (p.settlement.movements t) db db₁ ∧
      OnlyLedger db db₁ ∧ 0 ≤ p.amount ∧
      db' = db₁.updatePayout id fun r => { r with status := .paid, providerTransferId }

/-- What `markPayoutPaid` does with an open payout. -/
theorem settlePaidInTx_spec {t id : Id} {p : Payout} (hfind : db.payout t id = some p) (hopen : p.status.isOpen = true)
    (providerTransferId : Option String) :
    (settlePaidInTx t p providerTransferId).Ensures (fun _ db' => Paid t id providerTransferId db db') (fun _ => True) db := by
  obtain ⟨-, hid, -⟩ := payout_find hfind
  simp only [settlePaidInTx, bind_eq, ensures_bind, accountBalanceCents, ensures_get, ensures_ite, ensures_throw,
    implies_true, true_and, not_lt]
  intro hle
  have hpost : (post t (debit .available p.amount .payout none p.currency)
      (credit .paidOut p.amount .payout none p.currency) ⟨some .payout, some p.id⟩).Ensures
      (fun _ db₁ => 0 ≤ p.amount ∧ Appends (p.settlement.movements t) db db₁) (fun _ => True) db :=
    ensures_post fun db₁ hv ha => ⟨hv.nonneg, ha⟩
  refine (hpost.and (keeps_post_only db)).mono (fun _ db₁ hdb₁ => ?_) fun _ _ => trivial
  obtain ⟨⟨hnonneg, ha⟩, hs⟩ := hdb₁
  exact ensures_payoutUpdate fun row _ _ => ⟨p, hfind, hopen, hle, db₁, ha, hs, hnonneg, by rw [← hid]⟩

theorem markPayoutPaidInTx_spec (db : Db) (t id : Id) (providerTransferId : Option String) :
    (markPayoutPaidInTx t id providerTransferId).Ensures (fun _ db' => Paid t id providerTransferId db db')
      (fun _ => True) db := by
  simp only [markPayoutPaidInTx, bind_eq, ensures_bind, ensures_acquire, ensures_get]
  cases hfind : db.payout t id with
  | none => trivial
  | some p =>
      dsimp only
      split_ifs with hterminal
      · trivial
      · have hopen : p.status.isOpen = true := by simpa [PayoutStatus.mem_terminal_iff] using hterminal
        exact settlePaidInTx_spec hfind hopen providerTransferId

theorem markPayoutPaid_spec (t id : Id) (providerTransferId : Option String) :
    (markPayoutPaid t id providerTransferId).Ensures
      (fun _ db' => db' = db ∨ Paid t id providerTransferId db db') db :=
  (markPayoutPaidInTx_spec db t id providerTransferId).mono (fun _ _ h => .inr h) fun _ _ => .inl rfl

/-! ### Creation -/

/-- The items of `payout` that stand for the allocation `claims`. -/
def Itemized (payoutId : Id) (claims : List (LedgerEntry × Int)) (items : List PayoutItem) : Prop :=
  items.map (fun i => (i.payoutId, i.ledgerEntryId, i.amount)) = claims.map fun x => (payoutId, x.1.id, x.2)

/-- `payout` is new: its row and its items are appended. -/
structure Created (t : Id) (input : CreatePayoutInput) (c : Currency) (payout : Payout) (db db' : Db) : Prop where
  pos : 0 < db.payable t c
  tenantId : payout.tenantId = t
  currency : payout.currency = c
  amount : payout.amount = db.payable t c
  status : payout.status = .draft
  fresh : ∀ p ∈ db.payouts, p.id ≠ payout.id
  rows : ∃ items, Itemized payout.id (allocate (db.payable t c) (db.unpaidCredits t c)) items ∧
    ((db.payoutItems.map (·.ledgerEntryId)).Nodup → ((db.payoutItems ++ items).map (·.ledgerEntryId)).Nodup) ∧
    db' = { db with payouts := db.payouts ++ [payout], payoutItems := db.payoutItems ++ items }

def noEligibleFunds : Failure := .payoutError "no eligible funds to pay out"

/-- A row with the same key exists. -/
def uniqueViolation : Failure := .prismaError "P2002"

theorem ensures_createItem {payoutId entryId : Id} {amount : Int} {Q : Unit → Db → Prop}
    (h : ∀ id, (∀ i ∈ db.payoutItems, i.ledgerEntryId ≠ entryId) →
      Q () { db with payoutItems := db.payoutItems ++ [⟨id, payoutId, entryId, amount⟩] }) :
    (PayoutItem.create payoutId entryId amount).Ensures Q (· = uniqueViolation) db := by
  simp only [PayoutItem.create, bind_eq, ensures_bind, ensures_acquire, ensures_get, ensures_ite,
    ensures_throw, ensures_modify]
  refine fun id => ⟨fun _ => rfl, fun htaken => h id fun i hi hentry => htaken ?_⟩
  exact List.any_eq_true.mpr ⟨i, hi, by simp [hentry]⟩

theorem ensures_createItems {payoutId : Id} {claims : List (LedgerEntry × Int)} {Q : Unit → Db → Prop}
    (h : ∀ items, Itemized payoutId claims items →
      ((db.payoutItems.map (·.ledgerEntryId)).Nodup → ((db.payoutItems ++ items).map (·.ledgerEntryId)).Nodup) →
      Q () { db with payoutItems := db.payoutItems ++ items }) :
    (forEach (fun x : LedgerEntry × Int => PayoutItem.create payoutId x.1.id x.2) claims).Ensures Q
      (· = uniqueViolation) db := by
  induction claims generalizing db with
  | nil =>
      have hdb := h [] rfl (by simp)
      rwa [List.append_nil] at hdb
  | cons x claims ih =>
      simp only [Transaction.Tx.forEach, ensures_bind]
      refine ensures_createItem fun id hfresh => ih fun items hitems hnodup => ?_
      rw [List.append_assoc]
      refine h (⟨id, payoutId, x.1.id, x.2⟩ :: items) (congrArg _ hitems) fun hn => ?_
      rw [List.append_assoc] at hnodup
      refine hnodup ?_
      rw [List.map_append]
      exact List.nodup_append.mpr ⟨hn, by simp, by simpa using hfresh⟩

theorem createPayoutAfterSweep_spec (db : Db) (t : Id) (input : CreatePayoutInput) (c : Currency) :
    (createPayoutAfterSweep t input c).Ensures (fun payout db' => Created t input c payout db db')
      (fun e => (e = noEligibleFunds ∧ db.payable t c ≤ 0) ∨ (e = uniqueViolation ∧ 0 < db.payable t c)) db := by
  simp only [createPayoutAfterSweep, Payout.create, bind_eq, pure_eq, ensures_bind, ensures_get, ensures_ite,
    ensures_throw, ensures_acquire, ensures_modify, ensures_ret]
  refine ⟨fun hle => .inl ⟨rfl, hle⟩, fun hpos id => ⟨fun _ => .inr ⟨rfl, not_le.mp hpos⟩, fun htaken => ?_⟩⟩
  have hfresh : ∀ p ∈ db.payouts, p.id ≠ id := fun p hp hid =>
    htaken (List.any_eq_true.mpr ⟨p, hp, by simp [hid]⟩)
  refine (ensures_createItems fun items hitems hnodup => ?_).mono (fun _ _ h => h) fun _ he => .inr ⟨he, not_le.mp hpos⟩
  exact ⟨not_le.mp hpos, rfl, rfl, rfl, rfl, hfresh, items, hitems, hnodup, rfl⟩

theorem createPayout_spec (db : Db) (t : Id) (input : CreatePayoutInput) :
    (createPayout t input).Ensures (fun r db' =>
      (db' = db ∧ ∀ payout, r = .ok payout → db.payoutOfKey t input.idempotencyKey = some payout) ∨
      ∃ payout db₁, r = .ok payout ∧ Grows db db₁ ∧
        Created t input (db.settlementCurrency t) payout db₁ db') db := by
  simp only [createPayout, Transaction.Job.bind_eq, Transaction.Job.ensures_bind, Transaction.Job.ensures_get]
  cases hkey : db.payoutOfKey t input.idempotencyKey with
  | some payout => exact .inl ⟨rfl, fun p hp => by cases hp; rfl⟩
  | none =>
      refine Transaction.Tx.Ensures.mono (E := fun _ => True) (Q := fun payout db' => ∃ db₁, Grows db db₁ ∧
        Created t input (db.settlementCurrency t) payout db₁ db') ?_ (fun payout db' h => ?_) fun e _ =>
          .inl ⟨rfl, fun _ h => by cases h⟩
      · simp only [createPayoutInTx, bind_eq, ensures_bind, ensures_acquire, ensures_get]
        refine (grows_convertForeignBalances db).mono (fun _ db₁ hg => ?_) fun _ h => h
        exact (createPayoutAfterSweep_spec db₁ t input _).mono (fun payout db' hc => ⟨db₁, hg, hc⟩) fun _ _ => trivial
      · obtain ⟨db₁, hg, hc⟩ := h
        exact .inr ⟨payout, db₁, rfl, hg, hc⟩

end Specifications

end CorpoPay.Settlement
