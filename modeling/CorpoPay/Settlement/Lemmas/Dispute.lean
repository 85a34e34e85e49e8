import CorpoPay.Data.Allocation
import CorpoPay.Settlement.Lemmas.Capture
import CorpoPay.Settlement.Operations

/-!
# What the resolution of a dispute books

The clawback postings and the recovery, and how they agree with the status of the dispute.
-/

namespace CorpoPay.Settlement

open Transaction.Tx

/-! ## What a dispute leaves in the tables -/

/-- The movements under the tag of a dispute. -/
def disputeMovements (ms : List Movement) (t id : Id) : List Movement :=
  ms.filter fun m => m.tenantId = t ∧ m.sourceType = some .dispute ∧ m.sourceId = some id

def Db.recoveryAmounts (db : Db) (id : Id) : List Int := (db.recoveries.filter (·.disputeId = id)).map (·.amount)

def clawbackMovements (t id : Id) (currency : Currency) (allocation : ClawbackAllocation) : List Movement :=
  positiveMovements t allocation.fromAvailable
      (debit .available allocation.fromAvailable .chargeback none currency)
      (credit .cash allocation.fromAvailable .chargeback none currency) ⟨some .dispute, some id⟩ ++
    positiveMovements t allocation.fromReserve
      (debit .reserve allocation.fromReserve .chargeback none currency)
      (credit .cash allocation.fromReserve .chargeback none currency) ⟨some .dispute, some id⟩

/-- The parts of an allocation make up the disputed amount. -/
structure ClawbackAllocation.Covers (a : ClawbackAllocation) (gross : Int) : Prop where
  fromAvailable : 0 ≤ a.fromAvailable
  fromReserve : 0 ≤ a.fromReserve
  uncovered : 0 ≤ a.uncovered
  sum : a.fromAvailable + a.fromReserve + a.uncovered = gross

theorem fundReversal_covers {funding : ReversalFundingPolicy} {gross available reserve : Int}
    {allocation : ClawbackAllocation} (h : fundReversal funding gross available reserve = .ok allocation) :
    allocation.Covers gross := by
  unfold fundReversal at h
  split_ifs at h with hg ha hr
  cases funding <;> (cases h; constructor <;> dsimp only <;> omega)

/-- No clawback and no recovery. -/
def NotClawed (t id : Id) (db : Db) : Prop := disputeMovements db.movements t id = [] ∧ db.recoveryAmounts id = []

/-- One clawback, and one recovery for what it does not cover. -/
def ClawedOnce (t id : Id) (currency : Currency) (gross : Int) (db : Db) : Prop :=
  ∃ allocation : ClawbackAllocation, allocation.Covers gross ∧
    disputeMovements db.movements t id = clawbackMovements t id currency allocation ∧
    db.recoveryAmounts id = if 0 < allocation.uncovered then [allocation.uncovered] else []

/-- The tables agree with the status of the dispute. -/
def ResolvedOnce (t id : Id) (currency : Currency) (gross : Int) (db : Db) : Prop :=
  ∃ dispute, db.dispute t id = some dispute ∧ dispute.amount = gross ∧ dispute.currency = currency ∧
    match dispute.status with
    | .lost => ClawedOnce t id currency gross db
    | .open | .won => NotClawed t id db

/-! ## Resolutions alone -/

section Alone

variable {t id : Id} {currency : Currency} {gross : Int} {db : Db}

def Db.updateDispute (db : Db) (id : Id) (f : Dispute → Dispute) : Db :=
  { db with disputes := db.disputes.map fun r => if r.id = id then f r else r }

theorem ensures_disputeUpdate {f : Dispute → Dispute} {Q : Dispute → Db → Prop}
    (h : ∀ row, Q row (db.updateDispute id f)) : (Dispute.update id f).Ensures Q (fun _ => True) db := by
  simp only [Dispute.update, bind_eq, pure_eq, ensures_bind, ensures_acquire, ensures_get]
  cases db.disputes.find? (·.id = id) with
  | none => trivial
  | some row => exact h _

theorem ensures_recoveryCreate {row : Id → Recovery} {Q : Recovery → Db → Prop}
    (h : ∀ rid, Q (row rid) { db with recoveries := db.recoveries ++ [row rid] }) :
    (Recovery.create row).Ensures Q (fun _ => True) db := by
  simp only [Recovery.create, bind_eq, pure_eq, ensures_bind, ensures_acquire, ensures_get, ensures_ite, ensures_throw,
    ensures_modify, ensures_ret]
  exact fun rid => ⟨fun _ => trivial, fun _ => h rid⟩

theorem dispute_updateDispute (f : Dispute → Dispute) (hf : ∀ r, (f r).id = r.id ∧ (f r).tenantId = r.tenantId) :
    (db.updateDispute id f).dispute t id = (db.dispute t id).map f :=
  Data.find?_update (fun r => by simp only [hf r]) fun r hr => (of_decide_eq_true hr).1

/-- A dispute that is resolved was open. -/
theorem checkDispute_ok {found : Option Dispute} {next : DisputeStatus} {dispute : Dispute}
    (h : checkDispute found next = .ok dispute) : found = some dispute ∧ dispute.status = .open := by
  cases found with
  | none => cases h
  | some d =>
      cases hs : d.status <;> cases next <;>
        simp [checkDispute, DisputeStatus.assertTransition, DisputeStatus.TRANSITIONS, hs, Bind.bind, Except.bind] at h <;>
        exact ⟨congrArg some h, h ▸ hs⟩

/-- What `executeClawback` leaves. -/
structure Clawed (t id : Id) (currency : Currency) (a : ClawbackAllocation) (db db' : Db) : Prop where
  movements : db'.movements = db.movements ++ clawbackMovements t id currency a
  disputes : db'.disputes = (db.updateDispute id fun d => { d with status := .lost }).disputes
  recoveries : ∃ rows : List Recovery, db'.recoveries = db.recoveries ++ rows ∧
    rows.map (fun r => (r.tenantId, r.disputeId, r.currency, r.amount)) =
      if 0 < a.uncovered then [(t, id, currency, a.uncovered)] else []
  splits : db'.splits = db.splits
  refunds : db'.refunds = db.refunds

theorem executeClawback_spec (t id : Id) (currency : Currency) (a : ClawbackAllocation) (db : Db) :
    (executeClawback t id currency a).Ensures (fun _ db' => Clawed t id currency a db db') (fun _ => True) db := by
  simp only [executeClawback, bind_eq, pure_eq, ensures_bind]
  refine ensures_postPositive_rows fun es₁ h₁ => ensures_postPositive_rows fun es₂ h₂ => ensures_disputeUpdate fun _ => ?_
  have hmovements : (db.ledgerEntries ++ es₁ ++ es₂).map (·.toMovement) =
      db.movements ++ clawbackMovements t id currency a := by
    rw [List.map_append, List.map_append, h₁, h₂, List.append_assoc]; rfl
  rw [ensures_get, ensures_ite]
  constructor
  · intro hpos
    rw [ensures_bind]
    refine ensures_recoveryCreate fun rid => ⟨hmovements, rfl, ⟨_, rfl, ?_⟩, rfl, rfl⟩
    rw [if_pos hpos]; rfl
  · intro hpos
    exact ⟨hmovements, rfl, ⟨[], by simp [Db.updateDispute], by rw [if_neg hpos]; rfl⟩, rfl, rfl⟩

theorem Clawed.dispute {a : ClawbackAllocation} {db' : Db} (h : Clawed t id currency a db db') :
    db'.dispute t id = (db.dispute t id).map fun d => { d with status := .lost } := by
  rw [Db.dispute, h.disputes]
  exact dispute_updateDispute _ fun _ => ⟨rfl, rfl⟩

theorem Clawed.recoveryAmounts {a : ClawbackAllocation} {db' : Db} (h : Clawed t id currency a db db') :
    db'.recoveryAmounts id = db.recoveryAmounts id ++ if 0 < a.uncovered then [a.uncovered] else [] := by
  obtain ⟨rows, hrecoveries, hrows⟩ := h.recoveries
  rw [Db.recoveryAmounts, hrecoveries, List.filter_append, List.map_append, Db.recoveryAmounts]
  congr 1
  split_ifs at hrows ⊢
  · obtain ⟨row, rfl, hrow⟩ := List.map_eq_singleton_iff.mp hrows
    simp only [Prod.mk.injEq] at hrow
    simp [hrow]
  · rw [List.map_eq_nil_iff.mp hrows]
    rfl

theorem disputeMovements_clawback (a : ClawbackAllocation) :
    disputeMovements (clawbackMovements t id currency a) t id = clawbackMovements t id currency a := by
  refine List.filter_eq_self.mpr fun m hm => ?_
  simp only [clawbackMovements, positiveMovements, List.mem_append] at hm
  rcases hm with hm | hm <;> split_ifs at hm <;>
    simp only [LedgerPosting.movements, List.mem_cons, List.not_mem_nil, or_false] at hm <;>
    rcases hm with rfl | rfl <;> simp [LedgerLeg.movement]

theorem Clawed.resolvedOnce {a : ClawbackAllocation} {db' : Db} {dispute : Dispute} (h : Clawed t id currency a db db')
    (ha : a.Covers gross) (hd : db.dispute t id = some dispute) (hamount : dispute.amount = gross)
    (hcurrency : dispute.currency = currency) (hn : NotClawed t id db) : ResolvedOnce t id currency gross db' := by
  refine ⟨{ dispute with status := .lost }, by rw [h.dispute, hd]; rfl, hamount, hcurrency, a, ha, ?_, ?_⟩
  · rw [h.movements, disputeMovements, List.filter_append]
    show disputeMovements db.movements t id ++ disputeMovements (clawbackMovements t id currency a) t id = _
    rw [hn.1, disputeMovements_clawback, List.nil_append]
  · rw [h.recoveryAmounts, hn.2, List.nil_append]

/-- A dispute that is won has nothing to show. -/
theorem resolvedOnce_of_won {dispute : Dispute} (hd : db.dispute t id = some dispute) (hamount : dispute.amount = gross)
    (hcurrency : dispute.currency = currency) (hn : NotClawed t id db) :
    ResolvedOnce t id currency gross (db.updateDispute id fun d => { d with status := .won }) := by
  refine ⟨{ dispute with status := .won }, ?_, hamount, hcurrency, hn⟩
  rw [dispute_updateDispute (fun d => { d with status := .won }) fun _ => ⟨rfl, rfl⟩, hd]; rfl

/-- The check of both outcomes, on a state that agrees with the status. -/
theorem ResolvedOnce.of_check (h : ResolvedOnce t id currency gross db) {next : DisputeStatus} {dispute : Dispute}
    (hc : checkDispute (db.dispute t id) next = .ok dispute) :
    db.dispute t id = some dispute ∧ dispute.amount = gross ∧ dispute.currency = currency ∧ NotClawed t id db := by
  obtain ⟨hfound, hopen⟩ := checkDispute_ok hc
  obtain ⟨d, hd, hamount, hcurrency, hstatus⟩ := h
  obtain rfl : d = dispute := Option.some.inj (hd.symm.trans hfound)
  rw [hopen] at hstatus
  exact ⟨hd, hamount, hcurrency, hstatus⟩

end Alone

end CorpoPay.Settlement
