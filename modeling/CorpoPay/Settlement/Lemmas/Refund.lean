import CorpoPay.Settlement.Lemmas.CaptureBalance

/-!
# What a refund books

A refund reverses, in the currency of the first one, every positive credit of AVAILABLE, FEES and RESERVE that carries
the tag of the intent.
-/

namespace CorpoPay.Settlement

open Transaction.Tx

/-! ## The movements -/

def Db.refundable (db : Db) (t intentId : Id) : List Movement := db.movements.filter (·.isRefundable t intentId)

/-- The movements that reverse one credit. -/
def reversal (t refundId : Id) (currency : Currency) (m : Movement) : List Movement :=
  positiveMovements t m.amount (debit m.account m.amount .refund none currency)
    (credit .cash m.amount .refund none currency) ⟨some .refund, some refundId⟩

theorem mem_reversals {t refundId : Id} {currency : Currency} {credits : List Movement} {m : Movement}
    (h : m ∈ credits.flatMap (reversal t refundId currency)) :
    m.tenantId = t ∧ m.sourceType = some .refund ∧ m.sourceId = some refundId := by
  obtain ⟨row, -, h⟩ := List.mem_flatMap.mp h
  rcases mem_positive h with rfl | rfl <;> exact ⟨rfl, rfl, rfl⟩

theorem Db.refundable_eq (db : Db) (t intentId : Id) :
    (db.ledgerEntries.filter (·.toMovement.isRefundable t intentId)).map (·.toMovement) = db.refundable t intentId := by
  rw [Db.refundable, Db.movements, List.filter_map]; rfl

/-- The refund was not booked before, the first AVAILABLE credit is covered, and every refundable credit is reversed. -/
structure Refunded (t : Id) (input : SettleRefundInput) (first : Movement) (rest : List Movement) (db db' : Db) :
    Prop where
  fresh : db.movements.any (·.isRefundOf t input.refundId) = false
  credits : db.refundable t input.intentId = first :: rest
  covered : (((first :: rest).find? (·.account = .available)).map (·.amount)).getD 0 ≤
    db.accountBalance t .available first.currency
  appends : Appends ((first :: rest).flatMap (reversal t input.refundId first.currency)) db db'

/-- A refund either reverses every refundable credit or changes nothing. -/
theorem settleRefund_spec (t : Id) (input : SettleRefundInput) (db : Db) :
    (settleRefund t input).Ensures (fun r db' =>
      (∃ first rest, Refunded t input first rest db db') ∨ (r ≠ .ok true ∧ db' = db)) db := by
  unfold settleRefund
  rw [Transaction.Job.ensures_transaction]
  simp only [bind_eq, ensures_bind, ensures_acquire, ensures_get, ensures_ite, pure_eq, ensures_ret]
  refine ⟨fun _ => .inr (by simp), fun hfresh => ?_⟩
  rw [db.refundable_eq]
  cases hc : db.refundable t input.intentId with
  | nil => exact .inr (by simp)
  | cons first rest =>
      simp only [accountBalanceCents, ensures_bind, ensures_get, ensures_ite, ensures_throw]
      refine ⟨fun _ => .inr (by simp), fun hcovered => ?_⟩
      have hbook : Books ((first :: rest).flatMap (reversal t input.refundId first.currency))
          (forEach (fun row : Movement => when (0 < row.amount)
            (post t (debit row.account row.amount .refund none first.currency)
              (credit .cash row.amount .refund none first.currency) ⟨some .refund, some input.refundId⟩))
            (first :: rest)) :=
        books_forEach (fun row db => ensures_postPositive fun _ h => h) _
      refine Ensures.mono (hbook db) (fun _ db' ha => ?_) fun e _ => .inr (by simp)
      exact .inl ⟨first, rest, by simpa [Db.movements] using hfresh, hc, not_lt.mp hcovered, ha⟩

theorem settleRefund_run {t : Id} {input : SettleRefundInput} {db db' : Db} {w w' : World}
    (h : (settleRefund t input).run db w = (.ok true, db', w')) :
    ∃ first rest, db.refundable t input.intentId = first :: rest ∧
      Appends ((first :: rest).flatMap (reversal t input.refundId first.currency)) db db' := by
  rcases (settleRefund_spec t input db).run w h with ⟨first, rest, hr⟩ | ⟨hne, -⟩
  · exact ⟨first, rest, hr.credits, hr.appends⟩
  · exact absurd rfl hne

/-! ## What a refund takes from each account -/

/-- What the refund takes back because of one movement. -/
def Movement.refunded (m : Movement) (t intentId : Id) (a : LedgerAccount) : Int :=
  if m.isRefundable t intentId ∧ m.account = a then max m.amount 0 else 0

def refundedSum (ms : List Movement) (t intentId : Id) (a : LedgerAccount) : Int :=
  (ms.map (·.refunded t intentId a)).sum

section

variable (ms ms' : List Movement) (m : Movement) (t i : Id) (a : LedgerAccount) (c : Currency)

@[simp] theorem refundedSum_nil : refundedSum [] t i a = 0 := rfl

@[simp] theorem refundedSum_cons :
    refundedSum (m :: ms) t i a = m.refunded t i a + refundedSum ms t i a := by simp [refundedSum]

@[simp] theorem refundedSum_append :
    refundedSum (ms ++ ms') t i a = refundedSum ms t i a + refundedSum ms' t i a := by simp [refundedSum]

theorem refunded_nonneg : 0 ≤ m.refunded t i a := by
  unfold Movement.refunded
  split_ifs
  · exact le_max_right _ _
  · exact le_refl _

theorem refundedSum_nonneg : 0 ≤ refundedSum ms t i a := by
  induction ms with
  | nil => exact le_refl _
  | cons m ms ih =>
      have := refunded_nonneg m t i a
      rw [refundedSum_cons]; omega

/-- Nothing is taken back exactly when no refundable movement of the account is positive. -/
theorem refundedSum_eq_zero_iff :
    refundedSum ms t i a = 0 ↔ ∀ m ∈ ms, m.isRefundable t i → m.account = a → m.amount ≤ 0 := by
  induction ms with
  | nil => simp
  | cons m ms ih =>
      have hm := refunded_nonneg m t i a
      have hms := refundedSum_nonneg ms t i a
      have hhead : m.refunded t i a = 0 ↔ (m.isRefundable t i → m.account = a → m.amount ≤ 0) := by
        unfold Movement.refunded
        split_ifs with h
        · simp [h.1, h.2]
        · simp only [true_iff]; exact fun h₁ h₂ => absurd ⟨h₁, h₂⟩ h
      rw [refundedSum_cons, List.forall_mem_cons, ← ih, ← hhead]
      omega

theorem mem_refundedAccounts (h : m.isRefundable t i) : m.account = .available ∨ m.account = .fees ∨ m.account = .reserve := by
  simp only [Movement.isRefundable, REFUNDED_ACCOUNTS, decide_eq_true_eq, List.mem_cons, List.not_mem_nil,
    or_false] at h
  exact h.2.2.2.2

/-- The balance of the reversals: CASH gets back what the three accounts lose. -/
theorem balance_reversals (refundId : Id) (cur : Currency) :
    balance ((ms.filter (·.isRefundable t i)).flatMap (reversal t refundId cur)) t a c =
      hit .cash cur a c (refundedSum ms t i .available + refundedSum ms t i .fees + refundedSum ms t i .reserve)
        - hit .available cur a c (refundedSum ms t i .available) - hit .fees cur a c (refundedSum ms t i .fees)
        - hit .reserve cur a c (refundedSum ms t i .reserve) := by
  induction ms with
  | nil => simp
  | cons m ms ih =>
      rw [List.filter_cons]
      split_ifs with h
      · rw [List.flatMap_cons, balance_append, ih, reversal, balance_positive]
        simp only [refundedSum_cons, Movement.refunded, h, true_and]
        rcases mem_refundedAccounts m t i h with ha | ha | ha <;>
          simp only [ha, reduceCtorEq, ↓reduceIte, hit] <;> split_ifs <;> omega
      · rw [ih]
        simp [Movement.refunded, h]

end

/-! ## What a refund takes back of a capture -/

section

variable (t : Id) (input : SettleCaptureInput) (a : LedgerAccount)

theorem refunded_posting {amount : Int} {category : LedgerCategory} {src dst : LedgerAccount} {q : Option Id}
    {currency : Currency} :
    refundedSum ((⟨debit src amount category none currency, credit dst amount category q currency, input.source⟩ :
        LedgerPosting).movements t) t input.intentId a =
      if dst = a ∧ dst ∈ REFUNDED_ACCOUNTS then max amount 0 else 0 := by
  simp [LedgerPosting.movements, LedgerLeg.movement, debit, credit, Movement.refunded, Movement.isRefundable,
    SettleCaptureInput.source, CAPTURE_SOURCE_TYPE, and_comm]

theorem refunded_moved (amount : Int) (category : LedgerCategory) (src dst : LedgerAccount) :
    refundedSum (moved t input amount category src dst) t input.intentId a =
      if dst = a ∧ dst ∈ REFUNDED_ACCOUNTS then max amount 0 else 0 := by
  unfold moved positiveMovements
  split_ifs with h h' h'
  · rw [refunded_posting, if_pos h']
  · rw [refunded_posting, if_neg h']
  · rw [refundedSum_nil, max_eq_right (not_lt.mp h)]
  · rfl

theorem refunded_split {gross : Int} {shares : List ShareSpec} {result : SplitResult}
    (hr : split gross shares = .ok result) :
    refundedSum (splitMovements t .atCapture false input.captureCurrency input.source result) t input.intentId a =
      if a = .available then gross else 0 := by
  obtain ⟨hsum, hnn, hp, -, -⟩ := split_spec hr
  have hshares : ∀ as : List ShareAllocation, (∀ x ∈ as, 0 ≤ x.amountCents) →
      refundedSum (as.flatMap (shareMovements t .collected .available input.captureCurrency input.source)) t
        input.intentId a = if a = .available then (as.map (·.amountCents)).sum else 0 := by
    intro as has
    induction as with
    | nil => simp
    | cons x as ih =>
        rw [List.flatMap_cons, refundedSum_append, ih fun y hy => has y (List.mem_cons_of_mem _ hy), shareMovements,
          refunded_posting, max_eq_left (has x List.mem_cons_self)]
        simp only [REFUNDED_ACCOUNTS, List.mem_cons, true_or, and_true, List.map_cons, List.sum_cons, eq_comm]
        split_ifs <;> omega
  have hplatform : refundedSum (platformMovements t .atCapture input.captureCurrency input.source
      result.platformCents) t input.intentId a = if a = .available then result.platformCents else 0 := by
    unfold platformMovements
    split_ifs with h h' h'
    · rw [refunded_posting, max_eq_left hp]
      simp [REFUNDED_ACCOUNTS, h']
    · rw [refunded_posting]
      simp [Ne.symm h']
    · simp only [true_and, not_lt] at h
      rw [refundedSum_nil]; omega
    · rfl
  simp only [splitMovements, refundedSum_append]
  rw [show sourceAccountFor .atCapture = LedgerAccount.collected from rfl]
  simp only [Bool.false_eq_true, ↓reduceIte, hshares _ hnn, hplatform]
  split_ifs <;> omega

end

/-- What a refund takes back of a capture: the AVAILABLE credits, the fee and the reserve. -/
def CapturePlan.availableCredits (cp : CapturePlan) (gross : Int) : Int :=
  if cp.rule.isSome then gross else max cp.plan.netCents 0

theorem refunded_capture {c : Config} {t : Id} {input : SettleCaptureInput} {cp : CapturePlan}
    (hvalid : ∀ p ∈ c.settlementPolicies, p.toPolicySpec.Valid) (h : capturePlan c t input = .ok cp) :
    refundedSum (captureMovements t input cp) t input.intentId .available = cp.availableCredits input.amountCents ∧
      refundedSum (captureMovements t input cp) t input.intentId .fees = cp.plan.feeCents ∧
      refundedSum (captureMovements t input cp) t input.intentId .reserve = cp.plan.reserveCents := by
  obtain ⟨hf, ht, hr, hnet, hsplit⟩ := capturePlan_spec hvalid h
  have hrule : ∀ a, refundedSum (ruleMovements t input cp) t input.intentId a +
      refundedSum (netMovements t input cp) t input.intentId a =
        if a = .available then cp.availableCredits input.amountCents else 0 := by
    intro a
    unfold CapturePlan.availableCredits
    rcases hc : cp.rule with _ | ⟨rule, result⟩
    · simp only [ruleMovements, netMovements, hc, refundedSum_nil, refunded_moved, Option.isSome_none,
        Bool.false_eq_true, ↓reduceIte, REFUNDED_ACCOUNTS, List.mem_cons, true_or, and_true, zero_add, eq_comm]
    · simp only [ruleMovements, netMovements, hc, refundedSum_nil, refunded_split t input a (hsplit _ _ hc),
        Option.isSome_some, ↓reduceIte, add_zero]
  have hsum : ∀ a, refundedSum (captureMovements t input cp) t input.intentId a =
      (if a = .available then cp.availableCredits input.amountCents else 0)
        + (if a = .fees then cp.plan.feeCents else 0) + (if a = .reserve then cp.plan.reserveCents else 0) := by
    intro a
    have h₁ : refundedSum (grossMovements t input) t input.intentId a = 0 := by
      rw [grossMovements, refunded_posting]
      simp [REFUNDED_ACCOUNTS]
    simp only [captureMovements, refundedSum_append, h₁, refunded_moved, max_eq_left hf, max_eq_left ht, max_eq_left hr,
      ← hrule a]
    simp only [REFUNDED_ACCOUNTS, List.mem_cons, List.not_mem_nil, reduceCtorEq, or_false, or_true, and_true,
      and_false, ↓reduceIte, eq_comm]
    ring
  simp [hsum]

/-! ## Parties -/

/-- Movements of the tenant itself. -/
theorem partyBalance_of_none {ms : List Movement} (h : ∀ m ∈ ms, m.partyId = none) (t : Id) (a : LedgerAccount)
    (c : Currency) (p : Option Id) : partyBalance ms t a c p = if p = none then balance ms t a c else 0 := by
  induction ms with
  | nil => simp
  | cons m ms ih =>
      rw [partyBalance_cons, balance_cons, ih fun m' hm' => h m' (List.mem_cons_of_mem _ hm'), Movement.onParty,
        h m List.mem_cons_self]
      cases p <;> simp

theorem moved_party {t : Id} {input : SettleCaptureInput} {amount : Int} {category : LedgerCategory}
    {src dst : LedgerAccount} : ∀ m ∈ moved t input amount category src dst, m.partyId = none := by
  unfold moved positiveMovements
  split_ifs <;> simp [LedgerPosting.movements, LedgerLeg.movement, debit, credit]

theorem platform_party {t : Id} {trigger : SplitTrigger} {currency : Currency} {source : Meta} {amount : Int} :
    ∀ m ∈ platformMovements t trigger currency source amount, m.partyId = none := by
  unfold platformMovements
  split_ifs <;> simp [LedgerPosting.movements, LedgerLeg.movement, debit, credit]

theorem reversals_party {t refundId : Id} {currency : Currency} {ms : List Movement} :
    ∀ m ∈ ms.flatMap (reversal t refundId currency), m.partyId = none := by
  intro m hm
  obtain ⟨m', -, hm⟩ := List.mem_flatMap.mp hm
  unfold reversal positiveMovements at hm
  split_ifs at hm
  · simp only [LedgerPosting.movements, LedgerLeg.movement, debit, credit, List.mem_cons, List.not_mem_nil,
      or_false] at hm
    rcases hm with rfl | rfl <;> rfl
  · simp at hm

/-- What a capture credits to one beneficiary. -/
def CapturePlan.shareOf (cp : CapturePlan) (partyId : Id) : Int :=
  match cp.rule with
  | none => 0
  | some (_, result) => (result.shares.map fun s => if s.partyId = partyId then s.amountCents else 0).sum

def CapturePlan.shareTotal (cp : CapturePlan) : Int :=
  match cp.rule with
  | none => 0
  | some (_, result) => (result.shares.map (·.amountCents)).sum

theorem partyBalance_shares (t : Id) (currency : Currency) (source : Meta) (shares : List ShareAllocation)
    (c : Currency) (p : Option Id) :
    partyBalance (shares.flatMap (shareMovements t .collected .available currency source)) t .available c p =
      hit .available currency .available c
        (shares.map fun s => if some s.partyId = p then s.amountCents else 0).sum := by
  induction shares with
  | nil => simp
  | cons s shares ih =>
      rw [List.flatMap_cons, partyBalance_append, ih]
      simp only [shareMovements, LedgerPosting.movements, LedgerLeg.movement, debit, credit, partyBalance_cons,
        partyBalance_nil, Movement.onParty, Movement.on, Movement.delta, delta, hit, true_and, reduceCtorEq, false_and,
        and_false, ↓reduceIte, List.map_cons, List.sum_cons]
      split_ifs <;> omega

/-- The AVAILABLE credits of a capture, party by party: the shares, and for the tenant itself the rest. -/
theorem partyBalance_capture (t : Id) (input : SettleCaptureInput) (cp : CapturePlan) (c : Currency) (p : Option Id) :
    partyBalance (captureMovements t input cp) t .available c p =
      match p with
      | some q => hit .available input.captureCurrency .available c (cp.shareOf q)
      | none => balance (captureMovements t input cp) t .available c
          - hit .available input.captureCurrency .available c cp.shareTotal := by
  have hgross : ∀ m ∈ grossMovements t input, m.partyId = none := by
    simp [grossMovements, LedgerPosting.movements, LedgerLeg.movement, debit, credit]
  have hnet : ∀ m ∈ netMovements t input cp, m.partyId = none := by
    unfold netMovements
    split
    · simp
    · exact moved_party
  have hrule : partyBalance (ruleMovements t input cp) t .available c p =
      match p with
      | some q => hit .available input.captureCurrency .available c (cp.shareOf q)
      | none => balance (ruleMovements t input cp) t .available c
          - hit .available input.captureCurrency .available c cp.shareTotal := by
    unfold ruleMovements CapturePlan.shareOf CapturePlan.shareTotal
    rcases cp.rule with _ | ⟨rule, result⟩
    · cases p <;> simp
    · simp only [splitMovements, partyBalance_append, balance_append]
      rw [show sourceAccountFor .atCapture = LedgerAccount.collected from rfl]
      simp only [Bool.false_eq_true, ↓reduceIte, partyBalance_shares, partyBalance_of_none platform_party,
        balance_flatMap, shareMovements, balance_posting, Data.sum_map_sub, hit_sum]
      cases p with
      | none => simp [hit]
      | some q => simp
  simp only [captureMovements, partyBalance_append, balance_append, partyBalance_of_none hgross,
    partyBalance_of_none moved_party, partyBalance_of_none hnet, hrule]
  cases p with
  | none => simp only [↓reduceIte]; omega
  | some q => simp

end CorpoPay.Settlement
