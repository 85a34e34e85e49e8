import CorpoPay.Settlement.Lemmas.ChangeBalance

/-!
# What refunds and disputes take for one intent

A refund looks at its own id and a dispute at its own row. Several disputes, or a refund and a dispute, take the gross
of a capture more than once. When each of them takes at most what the others left, the total stays below the gross.
-/

namespace CorpoPay.Settlement

/-! ## What was taken -/

/-- The intent of a refund of the tenant. -/
def Db.refundIntent (db : Db) (t id : Id) : Option Id :=
  (db.refunds.find? fun r => r.id = id ∧ r.tenantId = t).map (·.paymentIntentId)

/-- The intent of a dispute of the tenant. -/
def Db.disputeIntent (db : Db) (t id : Id) : Option Id := (db.dispute t id).bind (·.paymentIntentId)

/-- The credit of a refund posting. -/
def Movement.isRefundTaking (m : Movement) : Bool :=
  m.account = .cash ∧ m.direction = .credit ∧ m.category = .refund ∧ m.sourceType = some .refund

/-- The credit of a clawback posting. -/
def Movement.isClawback (m : Movement) : Bool :=
  m.account = .cash ∧ m.direction = .credit ∧ m.category = .chargeback ∧ m.sourceType = some .dispute

/-- The credit of a refund or a clawback of the intent. -/
def Db.takes (db : Db) (t intentId : Id) (m : Movement) : Bool :=
  m.isRefundTaking ∧ m.sourceId.bind (db.refundIntent t) = some intentId ∨
    m.isClawback ∧ m.sourceId.bind (db.disputeIntent t) = some intentId

/-- The recoveries of the disputes of the intent. -/
def Db.recoveriesOf (db : Db) (t intentId : Id) (c : Currency) : List Recovery :=
  db.recoveries.filter fun r =>
    r.tenantId = t ∧ r.currency = c ∧ db.disputeIntent t r.disputeId = some intentId

/-- What refunds, clawbacks and recoveries took for the intent. -/
def Db.taken (db : Db) (t intentId : Id) (c : Currency) : Int :=
  creditTotal (db.takes t intentId) db.movements t c + ((db.recoveriesOf t intentId c).map (·.amount)).sum

/-- The gross of a capture in one currency. -/
def Movement.grossIn (m : Movement) (c : Currency) : Int := if m.currency = c then m.amount else 0

/-! ## The condition -/

/-- What a refund of these credits takes. -/
def refundTotal (credits : List Movement) : Int := (credits.map fun m => max m.amount 0).sum

/-- A refund of the intent that passes the check of the code takes what is left of the gross. -/
def Db.RefundLeft (db : Db) (t intentId : Id) : Prop :=
  ∀ first rest, db.refundable t intentId = first :: rest →
    (((first :: rest).find? (·.account = .available)).map (·.amount)).getD 0 ≤
      db.accountBalance t .available first.currency →
    ∀ m ∈ db.movements, m.isCaptureOf t intentId →
      refundTotal (first :: rest) ≤ m.grossIn first.currency - db.taken t intentId first.currency

/-- What the operation takes for the intent is left of the gross. A refund that is booked has a row. -/
def Operation.TakesLeft (t intentId : Id) (db : Db) : Operation → Prop
  | .settleCapture t' input => t' = t → input.intentId = intentId → 0 < input.amountCents →
      db.movements.any (·.isCaptureOf t intentId) = false →
      ∀ c, db.taken t intentId c ≤ if input.captureCurrency = c then input.amountCents else 0
  | .settleRefund t' input => t' = t → db.refundIntent t input.refundId = some input.intentId ∧
      (input.intentId = intentId → db.movements.any (·.isRefundOf t input.refundId) = false → db.RefundLeft t intentId)
  | .refundRoute _ t' id => t' = t → id = intentId → db.RefundAccepted t intentId → db.RefundLeft t intentId
  | .resolveDispute t' id .lost => t' = t → ∀ d ∈ db.dispute t id, d.status = .open → d.paymentIntentId = some intentId →
      ∀ m ∈ db.movements, m.isCaptureOf t intentId →
        d.amount ≤ m.grossIn d.currency - db.taken t intentId d.currency
  | _ => True

/-! ## The invariant -/

/-- Postings and recoveries belong to rows, and what is taken for the intent is at most its gross. -/
structure Db.TakenOnce (db : Db) (t intentId : Id) : Prop where
  refunds : ∀ m ∈ db.movements, m.tenantId = t → m.isRefundTaking → ∃ i, m.sourceId.bind (db.refundIntent t) = some i
  disputes : ∀ m ∈ db.movements, m.tenantId = t → m.isClawback → ∃ d, m.sourceId.bind (db.dispute t) = some d
  recoveries : ∀ r ∈ db.recoveries, r.tenantId = t → ∃ d, db.dispute t r.disputeId = some d
  le : ∀ m ∈ db.movements, m.isCaptureOf t intentId → ∀ c, db.taken t intentId c ≤ m.grossIn c

/-- Neither a capture, nor a credit of a refund or a clawback. -/
structure Movement.IsPlain (m : Movement) : Prop where
  refund : m.isRefundTaking = false
  clawback : m.isClawback = false
  capture : ∀ t i, m.isCaptureOf t i = false

theorem takes_eq_false {db : Db} {m : Movement} (h : m.IsPlain) (t i : Id) : db.takes t i m = false := by
  simp [Db.takes, h.refund, h.clawback]

/-- A posting of another kind. -/
theorem plain_posting {t : Id} {src dst : LedgerAccount} {amount : Int} {category : LedgerCategory} {p q : Option Id}
    {currency : Currency} {source : Meta} (hcash : dst ≠ .cash ∨ category ≠ .refund ∧ category ≠ .chargeback)
    (hcollected : dst ≠ .collected ∨ category ≠ .capture) :
    ∀ m ∈ (⟨debit src amount category p currency, credit dst amount category q currency, source⟩ :
      LedgerPosting).movements t, m.IsPlain := by
  intro m hm
  simp only [LedgerPosting.movements, LedgerLeg.movement, debit, credit, List.mem_cons, List.not_mem_nil, or_false] at hm
  rcases hm with rfl | rfl
  · exact ⟨by simp [Movement.isRefundTaking], by simp [Movement.isClawback], by simp [Movement.isCaptureOf]⟩
  · refine ⟨?_, ?_, fun t i => ?_⟩
    · simp only [Movement.isRefundTaking, decide_eq_false_iff_not]; tauto
    · simp only [Movement.isClawback, decide_eq_false_iff_not]; tauto
    · simp only [Movement.isCaptureOf, decide_eq_false_iff_not]; tauto

theorem plain_positive {t : Id} {src dst : LedgerAccount} {amount : Int} {category : LedgerCategory} {p q : Option Id}
    {currency : Currency} {source : Meta} (hcash : dst ≠ .cash ∨ category ≠ .refund ∧ category ≠ .chargeback)
    (hcollected : dst ≠ .collected ∨ category ≠ .capture) :
    ∀ m ∈ positiveMovements t amount (debit src amount category p currency) (credit dst amount category q currency)
      source, m.IsPlain := by
  unfold positiveMovements
  split_ifs
  · exact plain_posting hcash hcollected
  · simp

/-! ## Rows keep their intent -/

structure Db.KeepsIntents (db db' : Db) (t : Id) : Prop where
  refunds : ∀ id i, db.refundIntent t id = some i → db'.refundIntent t id = some i
  disputes : ∀ id d, db.dispute t id = some d →
    ∃ d', db'.dispute t id = some d' ∧ d'.paymentIntentId = d.paymentIntentId

/-- What is taken by recoveries of `rows`. -/
def Db.recovered (db : Db) (rows : List Recovery) (t intentId : Id) (c : Currency) : Int :=
  ((rows.filter fun r => r.tenantId = t ∧ r.currency = c ∧ db.disputeIntent t r.disputeId = some intentId).map
    (·.amount)).sum

section Append

variable {t i : Id} {db db' : Db}

theorem Db.KeepsIntents.of_eq (hr : db'.refunds = db.refunds) (hd : db'.disputes = db.disputes) :
    db.KeepsIntents db' t where
  refunds := fun id i h => by rwa [Db.refundIntent, hr]
  disputes := fun id d h => ⟨d, by rwa [Db.dispute, hd], rfl⟩

theorem Db.KeepsIntents.disputeIntent (h : db.KeepsIntents db' t) {id : Id} {d : Dispute}
    (hd : db.dispute t id = some d) : db'.disputeIntent t id = db.disputeIntent t id := by
  obtain ⟨d', hd', heq⟩ := h.disputes id d hd
  rw [Db.disputeIntent, Db.disputeIntent, hd, hd']
  exact heq

theorem takes_eq (h : db.TakenOnce t i) (hk : db.KeepsIntents db' t) {m : Movement} (hm : m ∈ db.movements)
    (ht : m.tenantId = t) : db'.takes t i m = db.takes t i m := by
  have hrefund : m.isRefundTaking = true → m.sourceId.bind (db'.refundIntent t) = m.sourceId.bind (db.refundIntent t) := by
    intro hr
    obtain ⟨j, hj⟩ := h.refunds m hm ht hr
    obtain ⟨id, hid, howner⟩ := Option.bind_eq_some_iff.mp hj
    rw [hj, hid]
    exact hk.refunds id j howner
  have hclaw : m.isClawback = true → m.sourceId.bind (db'.disputeIntent t) = m.sourceId.bind (db.disputeIntent t) := by
    intro hc
    obtain ⟨d, hd⟩ := h.disputes m hm ht hc
    obtain ⟨id, hid, hfound⟩ := Option.bind_eq_some_iff.mp hd
    rw [hid]
    exact hk.disputeIntent hfound
  unfold Db.takes
  cases hr : m.isRefundTaking with
  | true =>
      cases hc : m.isClawback with
      | true => rw [hrefund hr, hclaw hc]
      | false => rw [hrefund hr]; simp
  | false =>
      cases hc : m.isClawback with
      | true => rw [hclaw hc]; simp
      | false => simp

/-- What is taken after new movements and new recoveries. -/
theorem taken_append (h : db.TakenOnce t i) (hk : db.KeepsIntents db' t) {ms : List Movement} {rows : List Recovery}
    (hm : db'.movements = db.movements ++ ms) (hr : db'.recoveries = db.recoveries ++ rows) (c : Currency) :
    db'.taken t i c = db.taken t i c + (creditTotal (db'.takes t i) ms t c + db'.recovered rows t i c) := by
  have hcredits : creditTotal (db'.takes t i) db.movements t c = creditTotal (db.takes t i) db.movements t c := by
    refine Data.sum_map_congr fun m hmem => ?_
    unfold Movement.credited
    by_cases ht : m.tenantId = t
    · rw [takes_eq h hk hmem ht]
    · simp [ht]
  have hrecoveries : (db.recoveries.filter fun r =>
        r.tenantId = t ∧ r.currency = c ∧ db'.disputeIntent t r.disputeId = some i) = db.recoveriesOf t i c := by
    refine List.filter_congr fun r hmem => ?_
    by_cases ht : r.tenantId = t
    · obtain ⟨d, hd⟩ := h.recoveries r hmem ht
      rw [hk.disputeIntent hd]
    · simp [ht]
  rw [Db.taken, Db.taken, Db.recoveriesOf, hm, hr, creditTotal_append, hcredits, List.filter_append, List.map_append,
    List.sum_append, hrecoveries, Db.recovered]
  omega

/-- What an operation must show of its movements `ms` and its recoveries `rows`. -/
theorem Db.TakenOnce.append (h : db.TakenOnce t i) (hk : db.KeepsIntents db' t) {ms : List Movement}
    {rows : List Recovery} (hm : db'.movements = db.movements ++ ms) (hr : db'.recoveries = db.recoveries ++ rows)
    (hrefunds : ∀ m ∈ ms, m.tenantId = t → m.isRefundTaking → ∃ j, m.sourceId.bind (db'.refundIntent t) = some j)
    (hdisputes : ∀ m ∈ ms, m.tenantId = t → m.isClawback → ∃ d, m.sourceId.bind (db'.dispute t) = some d)
    (hrows : ∀ r ∈ rows, r.tenantId = t → ∃ d, db'.dispute t r.disputeId = some d)
    (hle : ∀ m ∈ db.movements ++ ms, m.isCaptureOf t i → ∀ c,
      db.taken t i c + (creditTotal (db'.takes t i) ms t c + db'.recovered rows t i c) ≤ m.grossIn c) :
    db'.TakenOnce t i where
  refunds := fun m hmem ht htaking => by
    rw [hm] at hmem
    rcases List.mem_append.mp hmem with hmem | hmem
    · obtain ⟨j, hj⟩ := h.refunds m hmem ht htaking
      obtain ⟨id, hid, howner⟩ := Option.bind_eq_some_iff.mp hj
      exact ⟨j, Option.bind_eq_some_iff.mpr ⟨id, hid, hk.refunds id j howner⟩⟩
    · exact hrefunds m hmem ht htaking
  disputes := fun m hmem ht hclaw => by
    rw [hm] at hmem
    rcases List.mem_append.mp hmem with hmem | hmem
    · obtain ⟨d, hd⟩ := h.disputes m hmem ht hclaw
      obtain ⟨id, hid, hfound⟩ := Option.bind_eq_some_iff.mp hd
      obtain ⟨d', hd', -⟩ := hk.disputes id d hfound
      exact ⟨d', Option.bind_eq_some_iff.mpr ⟨id, hid, hd'⟩⟩
    · exact hdisputes m hmem ht hclaw
  recoveries := fun r hmem ht => by
    rw [hr] at hmem
    rcases List.mem_append.mp hmem with hmem | hmem
    · obtain ⟨d, hd⟩ := h.recoveries r hmem ht
      obtain ⟨d', hd', -⟩ := hk.disputes _ d hd
      exact ⟨d', hd'⟩
    · exact hrows r hmem ht
  le := fun m hmem hcapture c => by
    rw [taken_append h hk hm hr]
    exact hle m (hm ▸ hmem) hcapture c

/-- Movements that are plain, or another tenant's. -/
theorem Db.TakenOnce.plain (h : db.TakenOnce t i) (hk : db.KeepsIntents db' t) {ms : List Movement}
    (hm : db'.movements = db.movements ++ ms) (hr : db'.recoveries = db.recoveries)
    (hplain : ∀ m ∈ ms, m.tenantId = t → m.IsPlain) : db'.TakenOnce t i := by
  have hnone : db'.recoveries = db.recoveries ++ [] := by rw [hr, List.append_nil]
  refine h.append hk hm hnone (fun m hmem ht htaking => ?_) (fun m hmem ht hclaw => ?_) (by simp)
    fun m hmem hcapture c => ?_
  · rw [(hplain m hmem ht).refund] at htaking; cases htaking
  · rw [(hplain m hmem ht).clawback] at hclaw; cases hclaw
  · have hzero : creditTotal (db'.takes t i) ms t c = 0 :=
      creditTotal_eq_zero fun m hmem ht _ => takes_eq_false (hplain m hmem ht) t i
    rcases List.mem_append.mp hmem with hmem | hmem
    · simpa [hzero, Db.recovered] using h.le m hmem hcapture c
    · have ht : m.tenantId = t := (of_decide_eq_true hcapture).1
      rw [(hplain m hmem ht).capture] at hcapture; cases hcapture

end Append

/-! ## Captures -/

section Captures

variable {t t' i : Id} {db db' : Db} {input : SettleCaptureInput} {cp : CapturePlan}

theorem takenOnce_captured (h : db.TakenOnce t i) (hf : (Operation.settleCapture t' input).TakesLeft t i db)
    (hc : Captured t' input cp db db') : db'.TakenOnce t i := by
  have hnone : db'.recoveries = db.recoveries ++ [] := by rw [hc.booked.aside.recoveries, List.append_nil]
  have hplain : ∀ m ∈ captureMovements t' input cp, m.isRefundTaking = false ∧ m.isClawback = false := by
    intro m hm
    have hsource := (mem_capture (t := t) (i := i) hm).1
    exact ⟨by simp [Movement.isRefundTaking, hsource], by simp [Movement.isClawback, hsource]⟩
  refine h.append (.of_eq hc.booked.aside.refunds hc.booked.aside.disputes) hc.booked.movements hnone
    (fun m hmem _ htaking => ?_) (fun m hmem _ hclaw => ?_) (by simp) fun m hmem hcapture c => ?_
  · rw [(hplain m hmem).1] at htaking; cases htaking
  · rw [(hplain m hmem).2] at hclaw; cases hclaw
  · have hzero : creditTotal (db'.takes t i) (captureMovements t' input cp) t c = 0 :=
      creditTotal_eq_zero fun m hmem _ _ => by simp [Db.takes, hplain m hmem]
    rw [hzero]
    simp only [Db.recovered, List.filter_nil, List.map_nil, List.sum_nil, add_zero]
    rcases List.mem_append.mp hmem with hmem | hmem
    · exact h.le m hmem hcapture c
    · obtain ⟨rfl, rfl, hamount, hcurrency⟩ := (mem_capture hmem).2 hcapture
      have hle := hf rfl rfl hc.pos hc.fresh c
      rwa [Movement.grossIn, hamount, hcurrency]

end Captures

/-! ## Refunds -/

section Refunds

variable {t t' i j refundId : Id} {db db' : Db}

/-- What the reversals of a refund of the intent `j` take for `i`. -/
theorem creditTotal_reversals (howner : db'.refundIntent t refundId = some j) (currency c : Currency)
    (credits : List Movement) :
    creditTotal (db'.takes t i) (credits.flatMap (reversal t refundId currency)) t c =
      if currency = c ∧ j = i then refundTotal credits else 0 := by
  induction credits with
  | nil => simp [refundTotal]
  | cons row credits ih =>
      have hrow : creditTotal (db'.takes t i) (reversal t refundId currency row) t c =
          if currency = c ∧ j = i then max row.amount 0 else 0 := by
        have hkind : db'.takes t i ((credit .cash row.amount .refund none currency).movement t
            ⟨some .refund, some refundId⟩) = decide (j = i) := by
          simp [Db.takes, Movement.isRefundTaking, Movement.isClawback, LedgerLeg.movement, credit, howner]
        unfold reversal positiveMovements
        split_ifs with hpos hcond hcond
        · simp only [creditTotal_posting, hkind, decide_eq_true_eq]
          rw [if_pos hcond]; omega
        · simp only [creditTotal_posting, hkind, decide_eq_true_eq]
          rw [if_neg hcond]
        · rw [creditTotal_nil]; omega
        · rfl
      rw [List.flatMap_cons, creditTotal_append, ih, hrow, refundTotal, refundTotal, List.map_cons, List.sum_cons]
      split_ifs <;> omega

/-- A booked refund of the tenant whose row belongs to the intent `j`. -/
theorem takenOnce_reversed {first : Movement} {rest : List Movement} (h : db.TakenOnce t i)
    (hk : db.KeepsIntents db' t) (hr : Reversed t' j refundId first rest db db')
    (hrec : db'.recoveries = db.recoveries) (howner : t' = t → db'.refundIntent t refundId = some j)
    (hf : t' = t → j = i → db.RefundLeft t i) : db'.TakenOnce t i := by
  have hnone : db'.recoveries = db.recoveries ++ [] := by rw [hrec, List.append_nil]
  by_cases ht : t' = t
  · subst ht
    have howner := howner rfl
    refine h.append hk hr.movements hnone (fun m hmem _ _ => ⟨j, ?_⟩) (fun m hmem _ hclaw => ?_) (by simp)
      fun m hmem hcapture c => ?_
    · rw [(mem_reversals hmem).2.2]; exact howner
    · simp [Movement.isClawback, (mem_reversals hmem).2.1] at hclaw
    · rw [creditTotal_reversals howner]
      simp only [Db.recovered, List.filter_nil, List.map_nil, List.sum_nil, add_zero]
      rcases List.mem_append.mp hmem with hmem | hmem
      · have hle := h.le m hmem hcapture c
        split_ifs with hcond
        · obtain ⟨rfl, rfl⟩ := hcond
          have := hf rfl rfl first rest hr.credits hr.covered m hmem hcapture
          omega
        · omega
      · simp [Movement.isCaptureOf, CAPTURE_SOURCE_TYPE, (mem_reversals hmem).2.1] at hcapture
  · exact h.plain hk hr.movements hrec fun m hmem hm => absurd ((mem_reversals hmem).1.symm.trans hm) ht

/-- The rows of the refunds are found by their keys. -/
theorem refundIntent_eq (db : Db) (t id : Id) :
    db.refundIntent t id = ((db.refunds.map (·.key)).find? fun k => k.1 = id ∧ k.2.2 = t).map (·.2.1) := by
  rw [Db.refundIntent, List.find?_map, Option.map_map]
  rfl

theorem keepsIntents_requested (hr : RefundRequested t' j refundId db db') : db.KeepsIntents db' t where
  refunds := fun id k hk => by
    rw [refundIntent_eq] at hk ⊢
    obtain ⟨key, hkey, rfl⟩ := Option.map_eq_some_iff.mp hk
    rw [hr.refunds, List.find?_append, hkey]; rfl
  disputes := fun id d hd => ⟨d, by rwa [Db.dispute, hr.disputes], rfl⟩

/-- The row of the new refund. -/
theorem refundIntent_requested (hr : RefundRequested t j refundId db db') : db'.refundIntent t refundId = some j := by
  rw [refundIntent_eq, hr.refunds, List.find?_append]
  have hnone : (db.refunds.map (·.key)).find? (fun k => k.1 = refundId ∧ k.2.2 = t) = none := by
    refine List.find?_eq_none.mpr fun k hk => ?_
    obtain ⟨r, hmem, rfl⟩ := List.mem_map.mp hk
    have := hr.fresh r hmem
    simp [Refund.key, this]
  rw [hnone]
  simp

theorem takenOnce_requested {rt : Runtime} (h : db.TakenOnce t i) (hf : (Operation.refundRoute rt t' j).TakesLeft t i db)
    (hr : RefundRequested t' j refundId db db') : db'.TakenOnce t i := by
  rcases hr.movements with hsame | ⟨first, rest, hrev⟩
  · exact h.plain (keepsIntents_requested hr) (by rw [hsame, List.append_nil]) hr.recoveries (by simp)
  · refine takenOnce_reversed h (keepsIntents_requested hr) hrev hr.recoveries (fun ht => ?_) fun ht hj => ?_
    · subst ht; exact refundIntent_requested hr
    · exact hf ht hj (ht ▸ hj ▸ hr.accepted)

end Refunds

/-! ## Disputes -/

section Disputes

variable {t t' i id : Id} {db db' : Db} {d : Dispute}

/-- A change of the status of a dispute. -/
theorem keepsIntents_update {f : Dispute → Dispute}
    (hf : ∀ r, (f r).id = r.id ∧ (f r).tenantId = r.tenantId ∧ (f r).paymentIntentId = r.paymentIntentId)
    (hd : db'.disputes = (db.updateDispute id f).disputes) (hr : db'.refunds = db.refunds) :
    db.KeepsIntents db' t where
  refunds := fun rid k hk => by rwa [Db.refundIntent, hr]
  disputes := fun did d hdid => by
    have hsame : ((fun r : Dispute => decide (r.id = did ∧ r.tenantId = t)) ∘ fun r => if r.id = id then f r else r) =
        fun r => decide (r.id = did ∧ r.tenantId = t) := by
      funext r
      dsimp only [Function.comp_apply]
      split_ifs
      · rw [(hf r).1, (hf r).2.1]
      · rfl
    refine ⟨if d.id = id then f d else d, ?_, ?_⟩
    · rw [Db.dispute, hd, Db.updateDispute, List.find?_map, hsame]
      rw [Db.dispute] at hdid
      rw [hdid]; rfl
    · split_ifs
      · exact (hf d).2.2
      · rfl

theorem takenOnce_created {input : CreateDisputeInput} (h : db.TakenOnce t i) (hc : DisputeCreated t' input d db db') :
    db'.TakenOnce t i := by
  have hk : db.KeepsIntents db' t := by
    refine ⟨fun rid k hk => by rwa [Db.refundIntent, hc.only.refunds], fun did d' hd' => ⟨d', ?_, rfl⟩⟩
    rw [Db.dispute] at hd' ⊢
    rw [hc.disputes, List.find?_append, hd']; rfl
  exact h.plain hk (by rw [hc.only.movements, List.append_nil]) hc.only.recoveries (by simp)

theorem takenOnce_won (h : db.TakenOnce t i) (hw : DisputeWon t' id d db db') : db'.TakenOnce t i := by
  have hk : db.KeepsIntents db' t := keepsIntents_update (f := fun d => { d with status := .won }) (fun _ => ⟨rfl, rfl, rfl⟩) hw.disputes hw.only.refunds
  exact h.plain hk (by rw [hw.only.movements, List.append_nil]) hw.only.recoveries (by simp)

theorem mem_clawback {currency : Currency} {a : ClawbackAllocation} {m : Movement}
    (h : m ∈ clawbackMovements t' id currency a) :
    m.tenantId = t' ∧ m.sourceType = some .dispute ∧ m.sourceId = some id := by
  rcases List.mem_append.mp h with h | h <;> rcases mem_positive h with rfl | rfl <;> exact ⟨rfl, rfl, rfl⟩

theorem creditTotal_clawback {a : ClawbackAllocation} {gross : Int} (ha : a.Covers gross) (currency c : Currency) :
    creditTotal (db'.takes t i) (clawbackMovements t id currency a) t c =
      if currency = c ∧ db'.disputeIntent t id = some i then a.fromAvailable + a.fromReserve else 0 := by
  have hone : ∀ amount src, 0 ≤ amount → creditTotal (db'.takes t i) (positiveMovements t amount
      (debit src amount .chargeback none currency) (credit .cash amount .chargeback none currency)
      ⟨some .dispute, some id⟩) t c = if currency = c ∧ db'.disputeIntent t id = some i then amount else 0 := by
    intro amount src hamount
    have hkind : db'.takes t i ((credit .cash amount .chargeback none currency).movement t
        ⟨some .dispute, some id⟩) = decide (db'.disputeIntent t id = some i) := by
      simp [Db.takes, Movement.isRefundTaking, Movement.isClawback, LedgerLeg.movement, credit]
    unfold positiveMovements
    split_ifs with hpos hcond hcond
    · simp only [creditTotal_posting, hkind, decide_eq_true_eq]
      rw [if_pos hcond]
    · simp only [creditTotal_posting, hkind, decide_eq_true_eq]
      rw [if_neg hcond]
    · rw [creditTotal_nil]; omega
    · rfl
  rw [clawbackMovements, creditTotal_append, hone _ _ ha.fromAvailable, hone _ _ ha.fromReserve]
  split_ifs <;> simp

theorem recovery_row {rows : List Recovery} {currency : Currency} {a : ClawbackAllocation}
    (hdata : rows.map (fun r => (r.tenantId, r.disputeId, r.currency, r.amount)) =
      if 0 < a.uncovered then [(t', id, currency, a.uncovered)] else []) {r : Recovery} (hr : r ∈ rows) :
    r.tenantId = t' ∧ r.disputeId = id := by
  have hmem := hdata ▸ List.mem_map_of_mem hr
  split_ifs at hmem
  · simp only [List.mem_singleton, Prod.mk.injEq] at hmem
    exact ⟨hmem.1, hmem.2.1⟩
  · cases hmem

theorem recovered_lost {rows : List Recovery} {currency c : Currency} {a : ClawbackAllocation}
    (hdata : rows.map (fun r => (r.tenantId, r.disputeId, r.currency, r.amount)) =
      if 0 < a.uncovered then [(t, id, currency, a.uncovered)] else []) :
    db'.recovered rows t i c =
      if currency = c ∧ db'.disputeIntent t id = some i then max a.uncovered 0 else 0 := by
  have hrecovered : db'.recovered rows t i c =
      (((rows.map fun r => (r.tenantId, r.disputeId, r.currency, r.amount)).filter fun x =>
        x.1 = t ∧ x.2.2.1 = c ∧ db'.disputeIntent t x.2.1 = some i).map (·.2.2.2)).sum := by
    rw [List.filter_map, List.map_map]; rfl
  rw [hrecovered, hdata]
  split_ifs with hpos hcond hcond
  · simp [hcond]; omega
  · rw [List.filter_singleton]
    simp [hcond]
  · simp; omega
  · rfl

theorem takenOnce_lost {a : ClawbackAllocation} (h : db.TakenOnce t i)
    (hf : (Operation.resolveDispute t' id .lost).TakesLeft t i db) (hl : DisputeLost t' id d a db db') :
    db'.TakenOnce t i := by
  have hk : db.KeepsIntents db' t :=
    keepsIntents_update (f := fun d => { d with status := .lost }) (fun _ => ⟨rfl, rfl, rfl⟩) hl.disputes hl.refunds
  obtain ⟨rows, hrows, hdata⟩ := hl.recoveries
  by_cases ht : t' = t
  · subst ht
    obtain ⟨d', hd', howner⟩ := hk.disputes id d hl.found
    have hintent : db'.disputeIntent t' id = d.paymentIntentId := by rw [Db.disputeIntent, hd']; exact howner
    refine h.append hk hl.movements hrows (fun m hmem _ htaking => ?_) (fun m hmem _ _ => ⟨d', ?_⟩) (fun r hr _ => ⟨d', ?_⟩)
      fun m hmem hcapture c => ?_
    · simp [Movement.isRefundTaking, (mem_clawback hmem).2.1] at htaking
    · rw [(mem_clawback hmem).2.2]; exact hd'
    · rw [(recovery_row hdata hr).2]; exact hd'
    · rw [creditTotal_clawback (fundReversal_covers hl.funding), recovered_lost hdata, hintent]
      rcases List.mem_append.mp hmem with hmem | hmem
      · have hle := h.le m hmem hcapture c
        have hcovers := fundReversal_covers hl.funding
        split_ifs with hcond
        · have hdispute := hf rfl d hl.found hl.status hcond.2 m hmem hcapture
          rw [hcond.1] at hdispute
          have := hcovers.sum
          have := hcovers.uncovered
          omega
        · omega
      · simp [Movement.isCaptureOf, CAPTURE_SOURCE_TYPE, (mem_clawback hmem).2.1] at hcapture
  · refine h.append hk hl.movements hrows (fun m hmem hm _ => absurd ((mem_clawback hmem).1.symm.trans hm) ht)
      (fun m hmem hm _ => absurd ((mem_clawback hmem).1.symm.trans hm) ht)
      (fun r hr hm => absurd ((recovery_row hdata hr).1.symm.trans hm) ht) fun m hmem hcapture c => ?_
    have hcredits : creditTotal (db'.takes t i) (clawbackMovements t' id d.currency a) t c = 0 :=
      creditTotal_eq_zero fun m hmem hm _ => absurd ((mem_clawback hmem).1.symm.trans hm) ht
    have hrecovered : db'.recovered rows t i c = 0 := by
      refine List.sum_eq_zero fun v hv => ?_
      obtain ⟨r, hr, -⟩ := List.mem_map.mp hv
      obtain ⟨hr, hcond⟩ := List.mem_filter.mp hr
      exact absurd ((recovery_row hdata hr).1.symm.trans (of_decide_eq_true hcond).1) ht
    rw [hcredits, hrecovered]
    rcases List.mem_append.mp hmem with hmem | hmem
    · simpa using h.le m hmem hcapture c
    · exact absurd ((mem_clawback hmem).1.symm.trans (of_decide_eq_true hcapture).1) ht

end Disputes

/-! ## One operation -/

/-- An operation that meets the condition. -/
theorem Change.takenOnce {t i : Id} {op : Operation} {db db' : Db} (hc : Change op db db') (hf : op.TakesLeft t i db)
    (h : db.TakenOnce t i) : db'.TakenOnce t i := by
  have hbooked : ∀ {ms}, Booked ms db db' → (∀ m ∈ ms, m.tenantId = t → m.IsPlain) → db'.TakenOnce t i :=
    fun hb hplain => h.plain (.of_eq hb.aside.refunds hb.aside.disputes) hb.movements hb.aside.recoveries hplain
  have hwallet : ∀ {t' id : Id} {ms : Wallet → List Movement}, WalletBooked t' id ms db db' →
      (∀ wallet, ∀ m ∈ ms wallet, m.IsPlain) → db'.TakenOnce t i := by
    intro t' id ms hw hplain
    obtain ⟨wallet, -, hb⟩ := hw.booked
    exact hbooked hb fun m hm _ => hplain wallet m hm
  cases hc with
  | same => exact h
  | configured => exact ⟨h.refunds, h.disputes, h.recoveries, h.le⟩
  | captured hcap => exact takenOnce_captured h hf hcap
  | @refunded t' input first rest _ _ hledger hr =>
      have hk : db.KeepsIntents db' t := .of_eq (by rw [hledger]) (by rw [hledger])
      refine takenOnce_reversed h hk ⟨hr.credits, hr.covered, hr.appends.movements_eq⟩ (by rw [hledger]) (fun ht => ?_)
        fun ht hj => ?_
      · subst ht; exact hk.refunds _ _ (hf rfl).1
      · subst ht; exact (hf rfl).2 hj hr.fresh
  | refundRequested hr => exact takenOnce_requested h hf hr
  | disputeCreated hd => exact takenOnce_created h hd
  | disputeWon hd => exact takenOnce_won h hd
  | disputeLost hd => exact takenOnce_lost h hf hd
  | walletCreated hb => exact hbooked hb (by simp)
  | toppedUp hw =>
      exact hwallet hw fun _ => List.forall_mem_append.mpr
        ⟨plain_posting (.inl (by decide)) (.inl (by decide)), plain_positive (.inl (by decide)) (.inl (by decide))⟩
  | debited hfee hdrawable hw =>
      exact hwallet hw fun _ => List.forall_mem_append.mpr
        ⟨plain_posting (.inl (by decide)) (.inl (by decide)), plain_positive (.inl (by decide)) (.inl (by decide))⟩
  | walletRefunded hw => exact hwallet hw fun _ => plain_posting (.inl (by decide)) (.inl (by decide))
  | adjusted hw =>
      refine hwallet hw fun wallet m hm => ?_
      unfold adjustMovements at hm
      split_ifs at hm
      · exact plain_posting (.inl (by decide)) (.inl (by decide)) m hm
      · exact plain_posting (.inl (by decide)) (.inl (by decide)) m hm
      · cases hm
  | splitExecuted hrule hresult hs =>
      obtain ⟨rows, hb, -⟩ := hs.shares
      refine h.plain (.of_eq hb.refunds hb.disputes) hb.movements hb.recoveries fun m hm _ => ?_
      have hcategory := (mem_split hm).1
      exact ⟨by simp [Movement.isRefundTaking, hcategory], by simp [Movement.isClawback, hcategory], fun _ _ => by
        simp [Movement.isCaptureOf, hcategory]⟩
  | splitReleased hs =>
      exact h.plain (.of_eq hs.refunds hs.disputes) hs.movements hs.recoveries fun m hm _ =>
        plain_posting (.inl (by decide)) (.inl (by decide)) m hm
  | payoutCreated hs =>
      obtain ⟨ms, hm, hfx⟩ := hs.movements
      refine hbooked ⟨hm, hs.aside⟩ fun m hmem _ => ?_
      rcases (hfx m hmem).category with hcategory | hcategory <;>
        exact ⟨by simp [Movement.isRefundTaking, hcategory], by simp [Movement.isClawback, hcategory], fun _ _ => by
          simp [Movement.isCaptureOf, hcategory]⟩
  | payoutCancelled hb => exact hbooked hb (by simp)
  | payoutFailed hb => exact hbooked hb (by simp)
  | payoutPaid hcovered hb =>
      exact hbooked hb fun m hm _ => plain_posting (.inl (by decide)) (.inl (by decide)) m hm

/-! ## Runs -/

theorem takenOnce_empty (config : Config) (t i : Id) : (Db.empty config).TakenOnce t i where
  refunds := by simp [Db.empty, Db.movements]
  disputes := by simp [Db.empty, Db.movements]
  recoveries := by simp [Db.empty]
  le := by simp [Db.empty, Db.movements]

/-- In a run where every refund and every lost dispute takes what is left of the gross, the total stays below it. -/
theorem taken_le_gross (t intentId : Id) {db : Db} (h : ReachedIf (fun op db => op.TakesLeft t intentId db) db) :
    ∀ m ∈ db.movements, m.isCaptureOf t intentId → ∀ c, db.taken t intentId c ≤ m.grossIn c :=
  (h.change_invariant (takenOnce_empty · t intentId) fun _ _ _ hcond hp hc => hc.takenOnce hcond hp).le

/-- A dispute of the capture that is lost. -/
def lostDispute (name : String) (amountCents : Int) (disputeId : Id) : List Operation :=
  [.createDispute 1
      { providerDisputeId := name, provider := .stripe, amountCents, feeCents := none, currency := none, reason := none,
        paymentIntentId := some 7, evidenceDueDate := none },
    .resolveDispute 1 disputeId .lost]

/-- A capture of 10.00, and a dispute over 6.00 that is lost. -/
def disputeRun : List Operation := .settleCapture 1 plainCapture :: lostDispute "first" 600 15

/-- A second dispute over what is left. -/
def disputeRunRest : List Operation := disputeRun ++ lostDispute "second" 400 21

/-- A second dispute over 6.00. -/
def disputeRunAgain : List Operation := disputeRun ++ lostDispute "second" 600 21

/-- The gross of the capture of the runs. -/
def plainGross : Movement :=
  (credit .collected 1000 .capture none .mad).movement 1 plainCapture.source

theorem taken_le_gross_disputeRun :
    (execute disputeRunRest (.empty plainConfig) .counting).1.taken 1 7 .mad = 1000 ∧
      (execute disputeRunRest (.empty plainConfig) .counting).1.taken 1 7 .mad ≤ 1000 := by
  have hmem : plainGross ∈ (execute disputeRunRest (.empty plainConfig) .counting).1.movements := by decide
  refine ⟨by decide, ?_⟩
  refine taken_le_gross 1 7 ((ReachedIf.init plainConfig).execute disputeRunRest .counting ?_) plainGross hmem (by decide) .mad
  refine ⟨fun _ _ _ _ c => by cases c <;> decide, trivial, ?_, trivial, ?_, trivial⟩
  · intro _ d hd _ _
    obtain rfl := Option.some.inj hd
    decide
  · intro _ d hd _ _
    obtain rfl := Option.some.inj hd
    decide

/-- Two disputes of one capture take 12.00 of 10.00. -/
theorem not_taken_le_gross : ¬ ∀ (t intentId : Id) (db : Db), Reached db →
    ∀ m ∈ db.movements, m.isCaptureOf t intentId → ∀ c, db.taken t intentId c ≤ m.grossIn c := by
  intro h
  have hmem : plainGross ∈ (execute disputeRunAgain (.empty plainConfig) .counting).1.movements := by decide
  have hle := h 1 7 _ ((Reached.init plainConfig).execute disputeRunAgain .counting) plainGross hmem (by decide) .mad
  exact absurd hle (by decide)

end CorpoPay.Settlement
