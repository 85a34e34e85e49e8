import CorpoPay.Settlement.Lemmas.Payout

/-!
# Every operation keeps `Db.PayoutsSound`

One lemma for each kind of step, then the rule for runs.
-/

namespace CorpoPay.Settlement

/-! ## Operations that leave the payouts alone -/

theorem Movement.Ordinary.payoutDebit_eq_zero {m : Movement} (h : m.Ordinary) (t : Id) (c : Currency) :
    m.payoutDebit t c = 0 := if_neg fun hm => h.2 hm.2.1 hm.2.2.1 hm.2.2.2.2

theorem Db.PayoutsSound.grows {db db' : Db} (h : db.PayoutsSound) (hg : Grows db db') : db'.PayoutsSound := by
  obtain ⟨⟨ms, ⟨es, rfl, he, hids⟩, hm⟩, hp, hi⟩ := hg
  have hdebits : ∀ t c, payoutDebits (es.map (·.toMovement)) t c = 0 := fun t c =>
    List.sum_eq_zero fun v hv => by
      obtain ⟨m, hmem, rfl⟩ := List.mem_map.mp hv
      exact (hm m hmem).payoutDebit_eq_zero t c
  refine ⟨hids h.entryIds, fun e hmem => ?_, ?_, ?_, fun i hmem => ?_, fun p hmem hlive => ?_, fun t c => ?_⟩
  · rw [he] at hmem
    rcases List.mem_append.mp hmem with hold | hnew
    · exact h.nonneg e hold
    · exact (hm _ (List.mem_map.mpr ⟨e, hnew, rfl⟩)).1
  · rw [hp]; exact h.payoutIds
  · rw [hi]; exact h.claims
  · rw [hi] at hmem
    obtain ⟨p, hpm, e, hem, hc⟩ := h.item i hmem
    exact ⟨p, hp ▸ hpm, e, he ▸ List.mem_append_left es hem, hc⟩
  · rw [hp] at hmem
    rw [Db.itemsOf, hi]
    exact h.amount p hmem hlive
  · have hmovements : db'.movements = db.movements ++ es.map (·.toMovement) := by simp [Db.movements, he]
    rw [hmovements, payoutDebits_append, h.paid, hdebits, add_zero, Db.payoutSum, Db.payoutSum, hp]

/-! ## One payout changes -/

section Update

variable {db : Db} {f : Payout → Payout}

theorem nodup_updatePayout {id : Id} (hf : ∀ r, (f r).id = r.id) (h : (db.payouts.map (·.id)).Nodup) :
    ((db.updatePayout id f).payouts.map (·.id)).Nodup := by
  have hids : (db.updatePayout id f).payouts.map (·.id) = db.payouts.map (·.id) := by
    simp only [Db.updatePayout, List.map_map]
    refine List.map_congr_left fun r _ => ?_
    simp only [Function.comp_apply]
    split_ifs
    · exact hf r
    · rfl
  rw [hids]; exact h

theorem mem_updatePayout {id : Id} {q : Payout} (h : q ∈ (db.updatePayout id f).payouts) :
    ∃ r ∈ db.payouts, (r.id = id ∧ q = f r) ∨ (r.id ≠ id ∧ q = r) := by
  obtain ⟨r, hr, rfl⟩ := List.mem_map.mp h
  refine ⟨r, hr, ?_⟩
  split_ifs with hid
  · exact .inl ⟨hid, rfl⟩
  · exact .inr ⟨hid, rfl⟩

theorem mem_updatePayout_of_ne {id : Id} {r : Payout} (hr : r ∈ db.payouts) (h : r.id ≠ id) :
    r ∈ (db.updatePayout id f).payouts := List.mem_map.mpr ⟨r, hr, if_neg h⟩

theorem mem_updatePayout_self {r : Payout} (hr : r ∈ db.payouts) : f r ∈ (db.updatePayout r.id f).payouts :=
  List.mem_map.mpr ⟨r, hr, if_pos rfl⟩

/-- What a payout adds to the sum of the paid ones. -/
def Payout.paidIn (p : Payout) (t : Id) (c : Currency) : Int :=
  if p.tenantId = t ∧ p.currency = c ∧ p.status = .paid then p.amount else 0

theorem payoutSum_paid (db : Db) (t : Id) (c : Currency) :
    db.payoutSum t c (· = .paid) = (db.payouts.map (·.paidIn t c)).sum := by
  simp only [Db.payoutSum, Data.sum_filter, Payout.paidIn, decide_eq_true_eq]

theorem payoutSum_paid_update (hids : (db.payouts.map (·.id)).Nodup) {p : Payout} (hp : p ∈ db.payouts) (t : Id)
    (c : Currency) :
    (db.updatePayout p.id f).payoutSum t c (· = .paid) =
      db.payoutSum t c (· = .paid) + ((f p).paidIn t c - p.paidIn t c) := by
  rw [payoutSum_paid, payoutSum_paid]
  exact Data.sum_update hids hp (·.paidIn t c) f

theorem paidIn_of_ne {p : Payout} (h : p.status ≠ .paid) (t : Id) (c : Currency) : p.paidIn t c = 0 :=
  if_neg fun hp => h hp.2.2

theorem ne_paid_of_isOpen {s : PayoutStatus} (h : s.isOpen = true) : s ≠ .paid := by rintro rfl; cases h

theorem isLive_of_isOpen {s : PayoutStatus} (h : s.isOpen = true) : s.isLive = true := by simp [PayoutStatus.isLive, h]

end Update

theorem Db.PayoutsSound.released {db db' : Db} {id : Id} {status : PayoutStatus} (h : db.PayoutsSound)
    (hdead : status.isLive = false) (hr : Released id status db db') : db'.PayoutsSound := by
  rcases hr with rfl | ⟨p, hp, rfl, hopen, rfl⟩
  · exact h
  have hnotpaid : status ≠ .paid := by rintro rfl; cases hdead
  have hother : ∀ q, q ∈ (db.release p.id status).payouts → q.status.isLive = true → q ∈ db.payouts ∧ q.id ≠ p.id := by
    intro q hq hlive
    obtain ⟨r, hr, ⟨_, rfl⟩ | ⟨hne, rfl⟩⟩ := mem_updatePayout hq
    · exact absurd (hdead.symm.trans hlive) (by decide)
    · exact ⟨hr, hne⟩
  refine ⟨h.entryIds, h.nonneg, ?_, ?_, fun i hi => ?_, fun q hq hlive => ?_, fun t c => ?_⟩
  · exact nodup_updatePayout (fun _ => rfl) h.payoutIds
  · exact h.claims.sublist ((List.filter_sublist).map _)
  · obtain ⟨hi, hne⟩ := List.mem_filter.mp hi
    obtain ⟨q, hq, e, he, hc⟩ := h.item i hi
    refine ⟨q, mem_updatePayout_of_ne hq ?_, e, he, hc⟩
    rw [hc.payout]; exact of_decide_eq_true hne
  · obtain ⟨hq, hne⟩ := hother q hq hlive
    rw [← h.amount q hq hlive, Db.itemsOf, Db.itemsOf]
    simp only [Db.release, Db.updatePayout, List.filter_filter]
    congr 2
    refine List.filter_congr fun i _ => ?_
    by_cases hi : i.payoutId = q.id <;> simp [hi, hne]
  · have hupdate := payoutSum_paid_update (f := fun r => { r with status }) h.payoutIds hp t c
    rw [paidIn_of_ne (ne_paid_of_isOpen hopen), paidIn_of_ne hnotpaid, sub_zero, add_zero] at hupdate
    exact (h.paid t c).trans hupdate.symm

theorem Db.PayoutsSound.markedPaid {db db' : Db} {t id : Id} {providerTransferId : Option String}
    (h : db.PayoutsSound) (hpaid : Paid t id providerTransferId db db') : db'.PayoutsSound := by
  obtain ⟨p, hfind, hopen, -, db₁, ⟨es, hes, he, hids⟩, honly, hnonneg, rfl⟩ := hpaid
  obtain ⟨hp, rfl, rfl⟩ := payout_find hfind
  have hp₁ := honly.payouts
  have hi₁ := honly.payoutItems
  have hmem : ∀ e ∈ db₁.ledgerEntries, e ∈ db.ledgerEntries ∨ e.amount = p.amount := by
    intro e hmem
    rw [he] at hmem
    refine (List.mem_append.mp hmem).imp_right fun hnew => ?_
    have hm : e.toMovement ∈ p.settlement.movements p.tenantId := hes ▸ List.mem_map.mpr ⟨e, hnew, rfl⟩
    simp only [LedgerPosting.movements, List.mem_cons, List.not_mem_nil, or_false] at hm
    rcases hm with hm | hm <;> (rw [hm]; rfl)
  have hlive : ∀ q ∈ db₁.payouts, q.id = p.id → q.status.isLive = true ∧ q = p := fun q hq hid => by
    have heq : q = p := Data.eq_of_key h.payoutIds (hp₁ ▸ hq) hp hid
    exact ⟨heq ▸ isLive_of_isOpen hopen, heq⟩
  refine ⟨hids h.entryIds, fun e hmem' => ?_, ?_, ?_, fun i hi => ?_, fun q hq hq' => ?_, fun t c => ?_⟩
  · rcases hmem e hmem' with hold | hnew
    · exact h.nonneg e hold
    · exact hnew ▸ hnonneg
  · exact nodup_updatePayout (fun _ => rfl) (hp₁ ▸ h.payoutIds)
  · exact hi₁ ▸ h.claims
  · obtain ⟨q, hq, e, hem, hc⟩ := h.item i (hi₁ ▸ hi)
    have hem₁ : e ∈ db₁.ledgerEntries := he ▸ List.mem_append_left es hem
    by_cases hid : q.id = p.id
    · refine ⟨_, mem_updatePayout_self (hp₁ ▸ hp), e, hem₁, ?_⟩
      obtain rfl := (hlive q (hp₁ ▸ hq) hid).2
      exact ⟨hc.payout, rfl, hc.entry, hc.tenantId, hc.currency, hc.account, hc.direction, hc.nonneg, hc.le⟩
    · exact ⟨q, mem_updatePayout_of_ne (hp₁ ▸ hq) hid, e, hem₁, hc⟩
  · have hitems : (db₁.updatePayout p.id fun r => { r with status := .paid, providerTransferId }).payoutItems =
        db.payoutItems := hi₁
    rw [Db.itemsOf, hitems]
    obtain ⟨r, hr, ⟨hid, rfl⟩ | ⟨-, rfl⟩⟩ := mem_updatePayout hq
    · exact h.amount r (hp₁ ▸ hr) (hlive r hr hid).1
    · exact h.amount q (hp₁ ▸ hr) hq'
  · have hmovements : db₁.movements = db.movements ++ p.settlement.movements p.tenantId := by
      simp [Db.movements, he, hes]
    have hupdate := payoutSum_paid_update (f := fun r => { r with status := .paid, providerTransferId })
      (hp₁ ▸ h.payoutIds) (hp₁ ▸ hp) t c
    have hdebit : payoutDebits (p.settlement.movements p.tenantId) t c =
        ({ p with status := .paid, providerTransferId } : Payout).paidIn t c := by
      simp [payoutDebits, LedgerPosting.movements, Payout.settlement, Movement.payoutDebit, LedgerLeg.movement, debit,
        credit, Payout.paidIn]
    rw [paidIn_of_ne (ne_paid_of_isOpen hopen), sub_zero, ← hdebit] at hupdate
    refine Eq.trans ?_ hupdate.symm
    show payoutDebits db₁.movements t c = _
    rw [hmovements, payoutDebits_append, h.paid, Db.payoutSum, Db.payoutSum, hp₁]

/-! ## A new payout -/

theorem mem_unpaidCredits {db : Db} {t : Id} {c : Currency} {e : LedgerEntry} (he : e ∈ db.unpaidCredits t c) :
    e ∈ db.ledgerEntries ∧ e.tenantId = t ∧ e.account = .available ∧ e.direction = .credit ∧ e.currency = c := by
  have hmem := (List.perm_insertionSort LedgerEntry.before _).mem_iff.mp he
  obtain ⟨hmem, hcond⟩ := List.mem_filter.mp hmem
  have hcond := of_decide_eq_true hcond
  exact ⟨hmem, hcond.1, hcond.2.1, hcond.2.2.1, hcond.2.2.2.1⟩

theorem Db.PayoutsSound.payable_le {db : Db} (h : db.PayoutsSound) (t : Id) (c : Currency) :
    db.payable t c ≤ ((db.unpaidCredits t c).map (·.amount)).sum := by
  have hdebits : 0 ≤ ((db.otherDebits t c).map (·.amount)).sum := List.sum_nonneg fun v hv => by
    obtain ⟨e, he, rfl⟩ := List.mem_map.mp hv
    exact h.nonneg e (List.mem_of_mem_filter he)
  rw [Db.payable]
  omega

/-- The items of a new payout are claims on credits and sum to its amount. -/
theorem Created.items {t : Id} {input : CreatePayoutInput} {c : Currency} {payout : Payout} {db db' : Db}
    (h : db.PayoutsSound) (hc : Created t input c payout db db') :
    ∃ items, (∀ i ∈ items, ∃ e ∈ db.ledgerEntries, i.Claims payout e) ∧ (items.map (·.amount)).sum = payout.amount ∧
      ((db.payoutItems ++ items).map (·.ledgerEntryId)).Nodup ∧
      db' = { db with payouts := db.payouts ++ [payout], payoutItems := db.payoutItems ++ items } := by
  obtain ⟨items, hitems, hnodup, rfl⟩ := hc.rows
  have hnonneg : ∀ e ∈ db.unpaidCredits t c, 0 ≤ e.amount := fun e he => h.nonneg e (mem_unpaidCredits he).1
  refine ⟨items, fun i hi => ?_, ?_, hnodup h.claims, rfl⟩
  · have hmem : (i.payoutId, i.ledgerEntryId, i.amount) ∈
        (allocate (db.payable t c) (db.unpaidCredits t c)).map fun x => (payout.id, x.1.id, x.2) :=
      hitems ▸ List.mem_map.mpr ⟨i, hi, rfl⟩
    obtain ⟨⟨e, a⟩, hx, hix⟩ := List.mem_map.mp hmem
    simp only [Prod.mk.injEq] at hix
    obtain ⟨hcredit, hle₀, hle⟩ := Data.fifo_bounds hnonneg _ hx
    obtain ⟨he, ht, ha, hd, hcur⟩ := mem_unpaidCredits hcredit
    refine ⟨e, he, hix.1, ?_, hix.2.1, ht.trans hc.tenantId.symm, hcur.trans hc.currency.symm, ha, hd, ?_, ?_⟩
    · rw [hc.status]; rfl
    · exact hle₀.trans_eq hix.2.2
    · exact hix.2.2.symm.trans_le hle
  · have hamounts : items.map (·.amount) = (allocate (db.payable t c) (db.unpaidCredits t c)).map (·.2) := by
      have := congrArg (List.map fun y : Id × Id × Int => y.2.2) hitems
      simpa only [List.map_map, Function.comp_def] using this
    rw [hamounts, hc.amount]
    exact Data.fifo_sum hnonneg hc.pos.le (h.payable_le t c)

theorem Db.PayoutsSound.created {t : Id} {input : CreatePayoutInput} {c : Currency} {payout : Payout} {db db' : Db}
    (h : db.PayoutsSound) (hc : Created t input c payout db db') : db'.PayoutsSound := by
  obtain ⟨items, hclaims, hsum, hnodup, rfl⟩ := hc.items h
  have hnew : db.payoutItems.filter (·.payoutId = payout.id) = [] := by
    refine List.filter_eq_nil_iff.mpr fun i hi hid => ?_
    obtain ⟨p, hp, e, -, hcl⟩ := h.item i hi
    exact hc.fresh p hp (hcl.payout.trans (of_decide_eq_true hid))
  refine ⟨h.entryIds, h.nonneg, ?_, hnodup, fun i hi => ?_, fun p hp hlive => ?_, fun t' c' => ?_⟩
  · rw [List.map_append]
    exact List.nodup_append.mpr ⟨h.payoutIds, by simp, by simpa using hc.fresh⟩
  · rcases List.mem_append.mp hi with hold | hnew
    · obtain ⟨p, hp, hcl⟩ := h.item i hold
      exact ⟨p, List.mem_append_left _ hp, hcl⟩
    · exact ⟨payout, by simp, hclaims i hnew⟩
  · rw [Db.itemsOf, List.filter_append]
    rcases List.mem_append.mp hp with hold | hp
    · have hnone : items.filter (·.payoutId = p.id) = [] := by
        refine List.filter_eq_nil_iff.mpr fun i hi hid => hc.fresh p hold ?_
        obtain ⟨e, -, hcl⟩ := hclaims i hi
        exact (of_decide_eq_true hid).symm.trans hcl.payout.symm
      rw [hnone, List.append_nil]
      exact h.amount p hold hlive
    · obtain rfl := List.mem_singleton.mp hp
      have hall : items.filter (·.payoutId = p.id) = items := List.filter_eq_self.mpr fun i hi => by
        obtain ⟨e, -, hcl⟩ := hclaims i hi
        simp [hcl.payout]
      rw [hnew, hall, List.nil_append, hsum]
  · refine (h.paid t' c').trans ?_
    simp only [payoutSum_paid, List.map_append, List.map_cons, List.map_nil, List.sum_append, List.sum_cons,
      List.sum_nil]
    rw [paidIn_of_ne (by rw [hc.status]; decide), add_zero, add_zero]

/-! ## Runs -/

/-- An operation that leaves the payouts alone, run for its effect. -/
theorem grows_discard {α : Type} {j : Job α} (h : j.Keeps Grows) : (discard j).Keeps Grows :=
  Transaction.Job.keeps_bind h fun _ => Transaction.Job.keeps_ret _

theorem grows_configure (config : Config) : (configure config).Keeps Grows :=
  Transaction.Job.keeps_transaction (Transaction.Tx.keeps_modify fun _ => .of_eq rfl rfl rfl)

theorem Db.PayoutsSound.step (op : Operation) (db : Db) (h : db.PayoutsSound) :
    op.job.Ensures (fun _ db' => Db.PayoutsSound db') db := by
  have hgrows : ∀ {j : Job Unit}, j.Keeps Grows → j.Ensures (fun _ db' => Db.PayoutsSound db') db := fun hj =>
    (hj db).mono fun _ _ hg => h.grows hg
  cases op with
  | configure config => exact hgrows (grows_configure config)
  | settleCapture t input => exact hgrows (grows_discard grows_settleCapture)
  | settleRefund t input => exact hgrows (grows_discard grows_settleRefund)
  | refundRoute rt t id => exact hgrows (grows_discard grows_refundRoute)
  | createDispute t input => exact hgrows (grows_discard grows_createDispute)
  | resolveDispute t id outcome => exact hgrows (grows_discard grows_resolveDispute)
  | createWallet t ownerType ownerId currency => exact hgrows (grows_discard grows_createWallet)
  | topUpWallet t id amountCents paymentIntentId => exact hgrows (grows_discard grows_topUpWallet)
  | debitWallet t id amountCents method => exact hgrows (grows_discard grows_debitWallet)
  | refundWallet t id amountCents => exact hgrows (grows_discard grows_refundWallet)
  | adjustWallet t id amountCents => exact hgrows (grows_discard grows_adjustWallet)
  | executeSplit t input => exact hgrows (grows_discard grows_executeSplit)
  | releaseSplit t id => exact hgrows (grows_discard grows_releaseSplit)
  | createPayout t input =>
      refine ensures_discard ((createPayout_spec db t input).mono fun r db' hr => ?_)
      obtain ⟨rfl, -⟩ | ⟨payout, db₁, -, hg, hc⟩ := hr
      · exact h
      · exact (h.grows hg).created hc
  | cancelPayout t id => exact ensures_discard ((cancelPayout_spec t id).mono fun _ _ hr => h.released rfl hr)
  | markPayoutFailed t id =>
      exact ensures_discard ((markPayoutFailed_spec t id).mono fun _ _ hr => h.released rfl hr)
  | markPayoutPaid t id providerTransferId =>
      refine ensures_discard ((markPayoutPaid_spec t id providerTransferId).mono fun _ db' hr => ?_)
      rcases hr with rfl | hpaid
      · exact h
      · exact h.markedPaid hpaid

theorem Reached.payoutsSound {db : Db} (h : Reached db) : db.PayoutsSound :=
  h.invariant payoutsSound_empty Db.PayoutsSound.step

end CorpoPay.Settlement
