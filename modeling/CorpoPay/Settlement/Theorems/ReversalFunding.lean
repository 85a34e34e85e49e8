import CorpoPay.Settlement.Lemmas.Commits
import CorpoPay.Settlement.Theorems.Dispute
import CorpoPay.Transaction.Environment

/-!
# Main theorem: what a reversal takes

The funding of a reversal is computed from a ledger that is read before the transaction. The debits are covered in
every run where, from that read on, nobody else takes the accounts below what they covered of the amount.
-/

namespace CorpoPay.Settlement

open Transaction.Tx
open Transaction (Pool Contract Local Shared)

/-! ## The accounts of a funding policy -/

/-- The accounts that a policy takes from, with the balance as the limit. -/
def ReversalFundingPolicy.accounts : ReversalFundingPolicy → List LedgerAccount
  | .netFromAvailable => [.available]
  | .debitReserve => [.available, .reserve]
  | .invoiceTenant | .allowNegative => []

def Config.reversalFunding (c : Config) (t : Id) : ReversalFundingPolicy :=
  ((c.activeSettlementPolicy t).map (·.reversalFunding)).getD DEFAULT_PRESET.reversalFunding

/-- The policy of the tenant and the terms of the dispute. -/
structure ReversalTerms (t id : Id) (funding : ReversalFundingPolicy) (gross : Int) (currency : Currency) (db : Db) :
    Prop where
  funding : db.reversalFunding t = funding
  dispute : ∃ dispute, db.dispute t id = some dispute ∧ dispute.amount = gross ∧ dispute.currency = currency

/-- No account of the policy covers less of the amount than before. -/
def NotLowered (t : Id) (funding : ReversalFundingPolicy) (gross : Int) (currency : Currency) (db db' : Db) : Prop :=
  ∀ a ∈ funding.accounts, min gross (db.accountBalance t a currency) ≤ min gross (db'.accountBalance t a currency)

instance (t : Id) (funding : ReversalFundingPolicy) (gross : Int) (currency : Currency) (db db' : Db) :
    Decidable (NotLowered t funding gross currency db db') := by unfold NotLowered; infer_instance

theorem NotLowered.refl (t : Id) (funding : ReversalFundingPolicy) (gross : Int) (currency : Currency) (db : Db) :
    NotLowered t funding gross currency db db := fun _ _ => le_refl _

theorem NotLowered.trans {t : Id} {funding : ReversalFundingPolicy} {gross : Int} {currency : Currency}
    {db₁ db₂ db₃ : Db} (h : NotLowered t funding gross currency db₁ db₂)
    (h' : NotLowered t funding gross currency db₂ db₃) : NotLowered t funding gross currency db₁ db₃ :=
  fun a ha => (h a ha).trans (h' a ha)

/-! ## What a reversal posts -/

/-- The debits of one account of a tenant. -/
def debits (ms : List Movement) (t : Id) (a : LedgerAccount) (currency : Currency) : Int :=
  ((ms.filter fun m => m.tenantId = t ∧ m.account = a ∧ m.currency = currency ∧ m.direction = .debit).map
    (·.amount)).sum

/-- The debits of AVAILABLE and RESERVE that lead from `db` to `db'` are within the balances of `db`. -/
def DebitsCovered (t : Id) (currency : Currency) (db db' : Db) : Prop :=
  ∃ ms, db'.movements = db.movements ++ ms ∧ ∀ a ∈ [LedgerAccount.available, LedgerAccount.reserve],
    0 < debits ms t a currency → debits ms t a currency ≤ db.accountBalance t a currency

theorem debits_append (ms ms' : List Movement) (t : Id) (a : LedgerAccount) (currency : Currency) :
    debits (ms ++ ms') t a currency = debits ms t a currency + debits ms' t a currency := by simp [debits]

section Clawback

variable {t id : Id} {currency : Currency} {funding : ReversalFundingPolicy} {gross : Int}

theorem debits_clawback (t id : Id) (currency : Currency) (a : ClawbackAllocation) :
    debits (clawbackMovements t id currency a) t .available currency =
        (if 0 < a.fromAvailable then a.fromAvailable else 0) ∧
      debits (clawbackMovements t id currency a) t .reserve currency =
        if 0 < a.fromReserve then a.fromReserve else 0 := by
  unfold debits clawbackMovements positiveMovements
  split_ifs <;> simp [LedgerPosting.movements, LedgerLeg.movement, debit, credit]

/-- What an allocation takes is covered by the balances it was computed from. -/
theorem fundReversal_covered {available reserve : Int} {allocation : ClawbackAllocation} (hne : funding ≠ .allowNegative)
    (h : fundReversal funding gross available reserve = .ok allocation) :
    (0 < allocation.fromAvailable →
      .available ∈ funding.accounts ∧ allocation.fromAvailable ≤ min gross available) ∧
      (0 < allocation.fromReserve → .reserve ∈ funding.accounts ∧ allocation.fromReserve ≤ min gross reserve) := by
  unfold fundReversal at h
  split_ifs at h with hg ha hr
  cases funding with
  | netFromAvailable =>
      cases h
      exact ⟨fun _ => ⟨by decide, le_refl _⟩, fun hpos => absurd hpos (lt_irrefl _)⟩
  | debitReserve =>
      cases h
      exact ⟨fun _ => ⟨by decide, by dsimp only; omega⟩, fun _ => ⟨by decide, le_refl _⟩⟩
  | invoiceTenant =>
      cases h
      exact ⟨fun hpos => absurd hpos (lt_irrefl _), fun hpos => absurd hpos (lt_irrefl _)⟩
  | allowNegative => exact absurd rfl hne

/-- A clawback that is computed from `db₀` is covered in `db` when nothing was lowered between them. -/
theorem debitsCovered_of_notLowered {db₀ db db' : Db} {allocation : ClawbackAllocation} (hne : funding ≠ .allowNegative)
    (h : fundReversal funding gross (balance db₀.movements t .available currency)
      (balance db₀.movements t .reserve currency) = .ok allocation)
    (hlow : NotLowered t funding gross currency db₀ db)
    (hms : db'.movements = db.movements ++ clawbackMovements t id currency allocation) :
    DebitsCovered t currency db db' := by
  obtain ⟨havailable, hreserve⟩ := fundReversal_covered hne h
  obtain ⟨hda, hdr⟩ := debits_clawback t id currency allocation
  have hbalance : ∀ a ∈ funding.accounts, min gross (balance db₀.movements t a currency) ≤ db.accountBalance t a currency :=
    fun a ha => (db₀.accountBalance_eq t a currency ▸ hlow a ha).trans (min_le_right _ _)
  refine ⟨_, hms, fun a ha hpos => ?_⟩
  simp only [List.mem_cons, List.not_mem_nil, or_false] at ha
  rcases ha with rfl | rfl
  · rw [hda] at hpos ⊢
    split_ifs at hpos ⊢ with hp
    · exact (havailable hp).2.trans (hbalance _ (havailable hp).1)
    · exact absurd hpos (lt_irrefl _)
  · rw [hdr] at hpos ⊢
    split_ifs at hpos ⊢ with hp
    · exact (hreserve hp).2.trans (hbalance _ (hreserve hp).1)
    · exact absurd hpos (lt_irrefl _)

end Clawback

/-! ## Pending postings -/

section Pending

/-- The pending writes append rows with the movements `ms` to the ledger. -/
def PendingAppends (ms : List Movement) (v : Db → Db) : Prop :=
  ∀ db : Db, (v db).movements = db.movements ++ ms

/-- The transaction of a clawback appends its movements and writes other tables. -/
theorem executeClawback_writes (t id : Id) (currency : Currency) (a : ClawbackAllocation) :
    (executeClawback t id currency a).Writes (fun v _ => PendingAppends (clawbackMovements t id currency a) v)
      (fun db : Db => db) := by
  simp only [executeClawback, bind_eq, pure_eq, writes_bind]
  refine (commits_postPositive commits_nothing).mono fun v₁ _ h₁ => (commits_postPositive h₁).mono fun v₂ _ h₂ => ?_
  rw [List.nil_append] at h₂
  simp only [Dispute.update, bind_eq, pure_eq, writes_bind, writes_acquire, writes_get]
  intro db₁
  cases (Db.disputes db₁).find? (·.id = id) with
  | none => trivial
  | some row =>
      simp only [writes_bind, writes_modify, writes_ret]
      refine fun _ => writes_ite _ (fun _ => ?_) fun _ => h₂.movements
      simp only [Recovery.create, bind_eq, pure_eq, writes_bind, writes_acquire, writes_get]
      exact fun _ _ => writes_ite _ (fun _ => trivial) fun _ => h₂.movements

end Pending

/-! ## The contract of a reversal -/

section Runs

variable (t id : Id) (funding : ReversalFundingPolicy) (gross : Int) (currency : Currency)

/-- The number of steps to the end of the ledger read. -/
def LEDGER_READ : Nat := 5

/-- A reversal relies on its terms, and on the accounts of its policy once it has read the ledger. -/
def reversalContract : Contract Backend fun _ => True where
  rely ℓ σ σ' :=
    (ReversalTerms t id funding gross currency σ.store → ReversalTerms t id funding gross currency σ'.store) ∧
      (LEDGER_READ ≤ ℓ.pc → NotLowered t funding gross currency σ.store σ'.store)
  guar _ σ σ' := σ'.store = σ.store ∨ DebitsCovered t currency σ.store σ'.store
  write _ _ _ := True
  rely_refl _ _ := ⟨fun h => h, fun _ => NotLowered.refl _ _ _ _ _⟩
  rely_trans h h' := ⟨fun ht => h'.1 (h.1 ht), fun hpc => (h.2 hpc).trans (h'.2 hpc)⟩
  rely_anti hb h := ⟨h.1, fun hpc => h.2 (hpc.trans hb.1)⟩
  guar_inv _ _ := trivial

variable {t id funding gross currency}

/-- The transaction of a reversal, with an allocation that was computed from `db₀`. -/
theorem executeClawback_wp {db₀ : Db} {allocation : ClawbackAllocation} (hne : funding ≠ .allowNegative)
    (hf : fundReversal funding gross (balance db₀.movements t .available currency)
      (balance db₀.movements t .reserve currency) = .ok allocation)
    {ℓ : Local Backend} {σ : Shared Backend} (hpc : LEDGER_READ ≤ ℓ.pc)
    (hlow : NotLowered t funding gross currency db₀ σ.store) :
    (transaction (do
      let current ← select fun db : Db => db.dispute t id
      let _ ← lift (checkDispute current .lost)
      executeClawback t id currency allocation : Tx _)).WP (reversalContract t id funding gross currency)
        (fun _ _ => True) ℓ σ := by
  refine Transaction.Job.WP.transaction fun σ₁ hr₁ _ => ?_
  have hwrites : Transaction.Tx.Writes
      (fun (v : Db → Db) _ => PendingAppends (clawbackMovements t id currency allocation) v) (do
        let current ← select fun db : Db => db.dispute t id
        let _ ← lift (checkDispute current .lost)
        executeClawback t id currency allocation : Tx _) (fun db : Db => db) := by
    simp only [bind_eq, writes_bind, writes_get]
    exact fun _ => writes_lift fun _ _ => executeClawback_writes t id currency allocation
  refine Transaction.Tx.WP.of_writes (K := fun σ : Shared Backend => NotLowered t funding gross currency db₀ σ.store)
    (fun ℓ' _ _ hb hr _ hk => NotLowered.trans hk (hr.2 (hpc.trans ((Nat.le_succ _).trans hb.1)))) (fun _ _ hk => hk)
    (fun _ _ _ => .inl rfl) (fun _ _ _ => trivial) (hlow.trans (hr₁.2 hpc)) hwrites ?_
  intro ℓ' v result σ₂ _ _ hlow₂ hv
  exact ⟨.inr (debitsCovered_of_notLowered hne hf hlow₂ (hv σ₂.store)), fun _ _ _ => trivial⟩

theorem ReversalTerms.dispute_eq {db : Db} (h : ReversalTerms t id funding gross currency db) {dispute : Dispute}
    (hd : db.dispute t id = some dispute) : dispute.amount = gross ∧ dispute.currency = currency := by
  obtain ⟨d, hd', ha, hc⟩ := h.dispute
  obtain rfl : d = dispute := Option.some.inj (hd'.symm.trans hd)
  exact ⟨ha, hc⟩

/-- A reversal keeps its contract. -/
theorem resolveDispute_lost_wp (hne : funding ≠ .allowNegative) {db : Db} {w : World}
    (hterms : ReversalTerms t id funding gross currency db) :
    (resolveDispute t id .lost).WP (reversalContract t id funding gross currency) (fun _ _ => True)
      ⟨0, ∅⟩ ⟨db, w⟩ := by
  have hguar : ∀ ℓ σ, (reversalContract t id funding gross currency).guar ℓ σ σ := fun _ _ => .inl rfl
  refine Transaction.Job.WP.get_bind hguar fun σ₁ hr₁ _ σ₂ hr₂ _ => ?_
  have hterms₁ := hr₁.1 hterms
  refine Transaction.Job.WP.ofExcept_bind fun dispute hc => ?_
  obtain ⟨hgross, hcurrency⟩ := hterms₁.dispute_eq (checkDispute_ok hc).1
  simp only [getTenantLedger, Transaction.Job.bind_eq, Transaction.Job.bind_assoc]
  refine Transaction.Job.WP.get_bind hguar fun σ₃ hr₃ _ σ₄ hr₄ _ => ?_
  refine Transaction.Job.WP.get_bind hguar fun σ₅ hr₅ _ σ₆ hr₆ _ => ?_
  have hterms₅ := hr₅.1 (hr₄.1 (hr₃.1 (hr₂.1 hterms₁)))
  have hlow : NotLowered t funding gross currency σ₃.store σ₆.store :=
    ((hr₄.2 (by decide)).trans (hr₅.2 (by decide))).trans (hr₆.2 (by decide))
  refine Transaction.Job.WP.ofExcept_bind fun allocation hf => ?_
  have hfunding : ((Config.activeSettlementPolicy σ₅.store.toConfig t).map (·.reversalFunding)).getD
      DEFAULT_PRESET.reversalFunding = funding := hterms₅.funding
  simp only [hfunding, hgross, hcurrency] at hf
  rw [Db.ledgerView_balance, Db.ledgerView_balance] at hf
  rw [hcurrency]
  exact executeClawback_wp hne hf (by decide) hlow

variable {ι : Type} [DecidableEq ι]

/-- A step of another job, while job `r` runs, leaves the terms of the reversal and, once `r` has read the ledger, the
accounts of its policy. -/
def NoLowering (t id : Id) (funding : ReversalFundingPolicy) (gross : Int) (currency : Currency) (r : ι)
    (p : Pool Backend ι Unit) (i : ι) (p' : Pool Backend ι Unit) : Prop :=
  i ≠ r → ¬ (p.threads r).phase.Finished →
    (ReversalTerms t id funding gross currency p.shared.store →
      ReversalTerms t id funding gross currency p'.shared.store) ∧
    (LEDGER_READ ≤ (p.threads r).pc → NotLowered t funding gross currency p.shared.store p'.shared.store)

/-- One reversal among any other jobs: the debits it commits are covered by the balances of that moment. -/
theorem resolveDispute_debits_covered {jobs : ι → Job Unit} {r : ι} {db : Db} {w : World} {dispute : Dispute}
    (hjob : jobs r = discard (resolveDispute t id .lost)) (hdispute : db.dispute t id = some dispute)
    (hpolicy : db.reversalFunding t ≠ .allowNegative) {p p' : Pool Backend ι Unit}
    (hp : Pool.ReachableIf (NoLowering t id (db.reversalFunding t) dispute.amount dispute.currency r)
      (Pool.init jobs db w) p) (hstep : p.Step r p') :
    p'.shared.store = p.shared.store ∨ DebitsCovered t dispute.currency p.shared.store p'.shared.store := by
  have hterms : ReversalTerms t id (db.reversalFunding t) dispute.amount dispute.currency db :=
    ⟨rfl, dispute, hdispute, rfl, rfl⟩
  have hwp : (jobs r).WP (reversalContract t id (db.reversalFunding t) dispute.amount dispute.currency)
      (fun _ _ => True) ⟨0, ∅⟩ ⟨db, w⟩ := by
    rw [hjob]
    exact Transaction.Job.WP.bind (fun _ _ _ _ _ _ => trivial) (resolveDispute_lost_wp hpolicy hterms) trivial
  rcases Pool.step_of_environment hwp (fun _ _ _ hc hi hfin => hc hi hfin) hp hstep with hg | hsame
  · exact hg
  · exact .inl (by rw [hsame])

end Runs

/-! ## Two reversals -/

def disputeOver (providerDisputeId : String) (amountCents : Int) : CreateDisputeInput :=
  { providerDisputeId, provider := .stripe, amountCents, feeCents := none, currency := none, reason := none,
    paymentIntentId := some 7, evidenceDueDate := none }

/-- AVAILABLE holds 9.50, and there are two disputes over 8.00. -/
def twoDisputes : Db × World :=
  execute [.settleCapture 1 plainCapture, .createDispute 1 (disputeOver "first" 800),
    .createDispute 1 (disputeOver "second" 800)] (.empty plainConfig) .counting

def firstDispute : Dispute :=
  { id := 15, tenantId := 1, paymentIntentId := some 7, provider := .stripe, providerDisputeId := "first",
    status := .open, amount := 800, feeAmount := 0, currency := .mad, reason := none, evidenceDueDate := none }

def reversalOf (id : Id) : Job Unit := discard (resolveDispute 1 id .lost)

def reversals (ι : Type) [DecidableEq ι] (ids : ι → Id) : Pool Backend ι Unit :=
  Pool.init (fun i => reversalOf (ids i)) twoDisputes.1 twoDisputes.2

/-- The first reversal, the second one, and a capture of 10.00 for another intent. -/
def besides : Fin 3 → Job Unit
  | 0 => reversalOf 15
  | 1 => reversalOf 16
  | 2 => discard (settleCapture 1 { plainCapture with intentId := 8 })

/-- The others keep the terms of the first reversal, and lower nothing once it has read the ledger. -/
def lowersNothing (p : Pool Backend (Fin 3) Unit) (i : Fin 3) (p' : Pool Backend (Fin 3) Unit) : Bool :=
  i = 0 ∨ (p'.shared.store.toConfig.reversalFunding 1 = .netFromAvailable ∧
    (p'.shared.store.dispute 1 15).any (fun dispute => dispute.amount = 800 ∧ dispute.currency = .mad) ∧
    (LEDGER_READ ≤ (p.threads 0).pc → NotLowered 1 .netFromAvailable 800 .mad p.shared.store p'.shared.store))

theorem noLowering_of_lowersNothing {p p' : Pool Backend (Fin 3) Unit} {i : Fin 3} (h : lowersNothing p i p' = true) :
    NoLowering 1 15 .netFromAvailable 800 .mad 0 p i p' := by
  intro hi _
  obtain ⟨hfunding, hdispute, hlow⟩ := (of_decide_eq_true h).resolve_left hi
  obtain ⟨dispute, hfind, hterms⟩ := (Option.any_eq_true _ _).mp hdispute
  obtain ⟨hamount, hcurrency⟩ := of_decide_eq_true hterms
  exact ⟨fun _ => ⟨hfunding, dispute, hfind, hamount, hcurrency⟩, hlow⟩

/-- The second reversal takes 8.00 before the first one reads the ledger, and the capture comes between this read and the
posting: the first reversal takes the 1.50 that it has read of the 11.00. -/
theorem resolveDispute_debits_covered_besides : ∃ p p' : Pool Backend (Fin 3) Unit,
    Pool.ReachableIf (NoLowering 1 15 .netFromAvailable 800 .mad 0) (Pool.init besides twoDisputes.1 twoDisputes.2) p ∧
    p.Step 0 p' ∧ (p.threads 1).phase.Finished ∧ (p.threads 2).phase.Finished ∧
    p.shared.store.accountBalance 1 .available .mad = 1100 ∧
    p'.shared.store.accountBalance 1 .available .mad = 950 ∧
    (p'.shared.store = p.shared.store ∨ DebitsCovered 1 .mad p.shared.store p'.shared.store) := by
  obtain ⟨p, hp, hlast⟩ := Pool.ReachableIf.exists_of_check (Pool.init besides twoDisputes.1 twoDisputes.2)
    (List.replicate 2 0 ++ List.replicate 30 1 ++ List.replicate 9 0 ++ List.replicate 48 2 ++ List.replicate 22 0)
    (fun p => (p.threads 1).phase.Finished ∧ (p.threads 2).phase.Finished ∧
      p.shared.store.accountBalance 1 .available .mad = 1100 ∧
      (p.step 0).any fun p' => p'.shared.store.accountBalance 1 .available .mad = 950)
    lowersNothing (fun _ _ _ _ => noLowering_of_lowersNothing) (by rfl)
  obtain ⟨hsecond, hcapture, hbefore, hstep⟩ := of_decide_eq_true hlast
  obtain ⟨p', hstep, hafter⟩ := (Option.any_eq_true _ _).mp hstep
  refine ⟨p, p', hp, .inl hstep, hsecond, hcapture, hbefore, of_decide_eq_true hafter, ?_⟩
  have hpolicy : twoDisputes.1.reversalFunding 1 ≠ .allowNegative := by decide
  exact resolveDispute_debits_covered rfl (rfl : twoDisputes.1.dispute 1 15 = some firstDispute) hpolicy hp (.inl hstep)

/-- Two reversals read the same 9.50, and each takes 8.00. -/
theorem resolveDispute_overdraws :
    ¬ ∀ p p' : Pool Backend Bool Unit, Pool.Reachable (reversals Bool fun i => if i then 15 else 16) p →
      p.Step true p' → p'.shared.store = p.shared.store ∨ DebitsCovered 1 .mad p.shared.store p'.shared.store := by
  intro h
  obtain ⟨p, hp, hlast⟩ := Pool.ReachableIf.exists_of_runSchedule (reversals Bool fun i => if i then 15 else 16)
    (List.replicate 11 true ++ List.replicate 30 false ++ List.replicate 18 true)
    (fun p => (p.step true).any fun p' =>
      debits p'.shared.store.movements 1 .available .mad = debits p.shared.store.movements 1 .available .mad + 800 ∧
        p.shared.store.accountBalance 1 .available .mad = 150) (fun _ _ _ => trivial) (by rfl)
  obtain ⟨p', hstep, hbad⟩ := (Option.any_eq_true _ _).mp hlast
  obtain ⟨hdebits, hbalance⟩ := of_decide_eq_true hbad
  rcases h p p' hp (.inl hstep) with hsame | ⟨ms, hms, hcovered⟩
  · rw [hsame] at hdebits
    omega
  · have hle := hcovered .available (by decide)
    rw [hms, debits_append] at hdebits
    rw [hbalance] at hle
    omega

end CorpoPay.Settlement
