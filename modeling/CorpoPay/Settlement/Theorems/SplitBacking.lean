import CorpoPay.Settlement.Lemmas.ChangeBalance

/-!
# What splits take from their source

A split request names its own amount, and nothing compares it with the source account or with what was split before.
When every request takes what its source holds and what is not split yet, the credits of splits stay below what came in.
-/

namespace CorpoPay.Settlement

/-! ## Credits -/

def Movement.isSplitCredit (m : Movement) : Bool := m.category = .split

/-- A capture into COLLECTED, a draw-down of a wallet or an adjustment. -/
def Movement.isSourceFunding (m : Movement) : Bool :=
  m.account = .collected ∧ m.category = .capture ∨
    m.account = .available ∧ (m.category = .capture ∧ m.sourceType = some .wallet ∨ m.category = .adjustment)

/-- What splits credited to the beneficiaries and to the platform. -/
def Db.splitCredits (db : Db) (t : Id) (c : Currency) : Int := creditTotal (·.isSplitCredit) db.movements t c

/-- What captures, draw-downs and adjustments put into the source accounts. -/
def Db.sourceFunding (db : Db) (t : Id) (c : Currency) : Int := creditTotal (·.isSourceFunding) db.movements t c

/-! ## The condition -/

/-- What a split takes away from the total of its source account. -/
def ExecuteSplitInput.taken (input : ExecuteSplitInput) (trigger : SplitTrigger) (result : SplitResult) : Int :=
  match trigger with
  | .atCapture => input.sourceCents
  | .onUsage | .manual => if input.held.getD false then result.sharesCents else 0

/-- What a split credits. -/
def ExecuteSplitInput.credited (input : ExecuteSplitInput) (trigger : SplitTrigger) (result : SplitResult) : Int :=
  match trigger with
  | .atCapture => input.sourceCents
  | .onUsage | .manual => result.sharesCents

/-- A split of the tenant takes what its source account holds, and credits what is not split yet. -/
def Operation.Backed (t : Id) (db : Db) : Operation → Prop
  | .executeSplit t' input => t' = t →
      ∀ trigger shares result, db.splitRequest t input = some (trigger, shares) →
        split input.sourceCents shares = .ok result →
        (input.taken trigger result ≤ 0 ∨ input.taken trigger result ≤
            db.accountBalance t (sourceAccountFor trigger) (input.currency.getD .mad)) ∧
          input.credited trigger result ≤
            db.sourceFunding t (input.currency.getD .mad) - db.splitCredits t (input.currency.getD .mad)
  | _ => True

/-! ## Movements that back themselves -/

/-- Nothing stays in COLLECTED, and splits credit at most what comes in. -/
structure Backing (ms : List Movement) (t : Id) : Prop where
  collected : ∀ c, balance ms t .collected c ≤ 0
  credits : ∀ c, creditTotal (·.isSplitCredit) ms t c ≤ creditTotal (·.isSourceFunding) ms t c

section Postings

variable {t t' : Id} {src dst : LedgerAccount} {amount : Int} {category : LedgerCategory} {p q : Option Id}
  {currency : Currency} {source : Meta}

theorem backing_nil (t : Id) : Backing [] t := ⟨fun _ => le_refl _, fun _ => le_refl _⟩

theorem Backing.append {ms ms' : List Movement} (h : Backing ms t) (h' : Backing ms' t) : Backing (ms ++ ms') t where
  collected := fun c => by
    have := h.collected c; have := h'.collected c
    rw [balance_append]; omega
  credits := fun c => by
    have := h.credits c; have := h'.credits c
    rw [creditTotal_append, creditTotal_append]; omega

/-- The movements of another tenant. -/
theorem Of.backing {ms : List Movement} (h : Of t' ms) (hne : t' ≠ t) : Backing ms t where
  collected := fun c => by rw [h.balance_eq_zero hne]
  credits := fun c => by
    have hm : ∀ m ∈ ms, ∀ kind : Movement → Bool, m.tenantId = t → m.direction = .credit → kind m = false :=
      fun m hmem _ ht _ => absurd ((h m hmem).symm.trans ht) hne
    rw [creditTotal_eq_zero fun m hmem => hm m hmem _, creditTotal_eq_zero fun m hmem => hm m hmem _]

/-- A posting of another category than SPLIT, between other accounts than COLLECTED. -/
theorem backing_posting (hsrc : src ≠ .collected) (hdst : dst ≠ .collected) (hsplit : category ≠ .split)
    (hamount : dst = .available → 0 ≤ amount) :
    Backing ((⟨debit src amount category p currency, credit dst amount category q currency, source⟩ :
      LedgerPosting).movements t) t where
  collected := fun c => by rw [balance_posting]; simp [hit, hsrc, hdst]
  credits := fun c => by
    rw [creditTotal_posting, creditTotal_posting]
    have hcredit : ((credit dst amount category q currency).movement t source).isSplitCredit = false := by
      simp [Movement.isSplitCredit, LedgerLeg.movement, credit, hsplit]
    rw [hcredit]
    simp only [Bool.false_eq_true, and_false, ↓reduceIte]
    split_ifs with hfunding
    · refine hamount ?_
      have hkind := hfunding.2
      simp only [Movement.isSourceFunding, LedgerLeg.movement, credit, hdst, false_and, false_or, Bool.decide_and,
        Bool.and_eq_true, decide_eq_true_eq] at hkind
      exact hkind.1
    · exact le_refl _

theorem backing_positive (hsrc : src ≠ .collected) (hdst : dst ≠ .collected) (hsplit : category ≠ .split) :
    Backing (positiveMovements t amount (debit src amount category p currency) (credit dst amount category q currency)
      source) t := by
  unfold positiveMovements
  split_ifs with hpos
  · exact backing_posting hsrc hdst hsplit fun _ => hpos.le
  · exact backing_nil t

end Postings

/-! ## The movements of each operation -/

section Groups

variable {t : Id}

theorem backing_reversals (refundId : Id) (currency : Currency) {credits : List Movement}
    (h : ∀ m ∈ credits, m.account ∈ REFUNDED_ACCOUNTS) : Backing (credits.flatMap (reversal t refundId currency)) t := by
  induction credits with
  | nil => exact backing_nil t
  | cons m credits ih =>
      rw [List.flatMap_cons]
      refine .append (backing_positive (fun heq => ?_) (by decide) (by decide)) (ih fun m' hm => h m' (List.mem_cons_of_mem _ hm))
      have hmem := h m List.mem_cons_self
      rw [heq] at hmem
      exact absurd hmem (by decide)

theorem refundable_account {db : Db} {intentId : Id} {credits : List Movement} (h : db.refundable t intentId = credits) :
    ∀ m ∈ credits, m.account ∈ REFUNDED_ACCOUNTS := by
  intro m hm
  rw [← h] at hm
  exact (of_decide_eq_true (List.mem_filter.mp hm).2).2.2.2.2

theorem creditTotal_shares (kind : Movement → Bool) (c currency : Currency) (source : Meta) (src dst : LedgerAccount)
    (hkind : ∀ partyId amount,
      kind ((credit dst amount .split (some partyId) currency).movement t source) = kind ((credit dst 0 .split none currency).movement t source))
    (shares : List ShareAllocation) :
    creditTotal kind (shares.flatMap (shareMovements t src dst currency source)) t c =
      if currency = c ∧ kind ((credit dst 0 .split none currency).movement t source) then (shares.map (·.amountCents)).sum
      else 0 := by
  rw [creditTotal_flatMap]
  simp only [shareMovements, creditTotal_posting, hkind]
  split_ifs <;> simp

/-- The credits of a split. -/
theorem splitCredits_split (trigger : SplitTrigger) (held : Bool) (currency : Currency) (source : Meta)
    {result : SplitResult} (hplatform : 0 ≤ result.platformCents) (c : Currency) :
    creditTotal (·.isSplitCredit) (splitMovements t trigger held currency source result) t c =
      if currency = c then result.sharesCents + if trigger = .atCapture then result.platformCents else 0 else 0 := by
  have hplat : creditTotal (·.isSplitCredit) (platformMovements t trigger currency source result.platformCents) t c =
      if currency = c then if trigger = .atCapture then result.platformCents else 0 else 0 := by
    unfold platformMovements
    by_cases htrigger : trigger = .atCapture
    · by_cases hpos : 0 < result.platformCents
      · rw [if_pos ⟨htrigger, hpos⟩, creditTotal_posting]
        simp [Movement.isSplitCredit, LedgerLeg.movement, credit, htrigger]
      · have hzero : result.platformCents = 0 := by omega
        simp [hzero]
    · simp [htrigger]
  rw [splitMovements, creditTotal_append, hplat, creditTotal_shares _ _ _ _ _ _ fun _ _ => rfl]
  simp only [Movement.isSplitCredit, LedgerLeg.movement, credit, decide_true, and_true, SplitResult.sharesCents]
  split_ifs <;> simp

theorem sourceFunding_split (trigger : SplitTrigger) (held : Bool) (currency : Currency) (source : Meta)
    (result : SplitResult) (c : Currency) :
    creditTotal (·.isSourceFunding) (splitMovements t trigger held currency source result) t c = 0 := by
  refine creditTotal_eq_zero fun m hm _ hcredit => ?_
  have hcategory : m.category = .split := by
    simp only [splitMovements, platformMovements, shareMovements, LedgerPosting.movements, List.mem_append,
      List.mem_flatMap] at hm
    rcases hm with ⟨a, -, hm⟩ | hm
    · simp only [List.mem_cons, List.not_mem_nil, or_false] at hm
      rcases hm with rfl | rfl <;> rfl
    · split_ifs at hm
      · simp only [List.mem_cons, List.not_mem_nil, or_false] at hm
        rcases hm with rfl | rfl <;> rfl
      · simp at hm
  simp [Movement.isSourceFunding, hcategory]

/-- A posting of a capture other than the gross is neither a split nor new money. -/
theorem credits_moved (kind : Movement → Bool) (input : SettleCaptureInput) (amount : Int) (category : LedgerCategory)
    (src dst : LedgerAccount) (c : Currency)
    (hkind : kind ((credit dst amount category none input.captureCurrency).movement t input.source) = false) :
    creditTotal kind (moved t input amount category src dst) t c = 0 := by
  unfold moved positiveMovements
  split_ifs
  · rw [creditTotal_posting, hkind]; simp
  · rfl

theorem backing_capture {c : Config} {input : SettleCaptureInput} {cp : CapturePlan}
    (h : capturePlan c t input = .ok cp) (hpos : 0 < input.amountCents) : Backing (captureMovements t input cp) t where
  collected := fun k => by
    have hover := overdraw_nonneg h
    rw [balance_capture_any h]
    simp only [hit, reduceCtorEq, false_and, ↓reduceIte, true_and]
    split_ifs <;> omega
  credits := fun k => by
    obtain ⟨base, -, -, hsplit⟩ := capturePlan_base h
    have hgross : ∀ kind : Movement → Bool, creditTotal kind (grossMovements t input) t k =
        if input.captureCurrency = k ∧
          kind ((credit .collected input.amountCents .capture none input.captureCurrency).movement t input.source)
        then input.amountCents else 0 := fun kind => creditTotal_posting ..
    have hmoved : ∀ amount category src dst, category ≠ .split → dst ≠ .collected → category ≠ .adjustment →
        creditTotal (·.isSplitCredit) (moved t input amount category src dst) t k = 0 ∧
          creditTotal (·.isSourceFunding) (moved t input amount category src dst) t k = 0 := by
      intro amount category src dst hs hd ha
      refine ⟨credits_moved _ _ _ _ _ _ _ ?_, credits_moved _ _ _ _ _ _ _ ?_⟩
      · simp [Movement.isSplitCredit, LedgerLeg.movement, credit, hs]
      · simp [Movement.isSourceFunding, LedgerLeg.movement, credit, hd, ha, SettleCaptureInput.source,
          CAPTURE_SOURCE_TYPE]
    have hnet : creditTotal (·.isSplitCredit) (netMovements t input cp) t k = 0 ∧
        creditTotal (·.isSourceFunding) (netMovements t input cp) t k = 0 := by
      unfold netMovements
      split
      · exact ⟨rfl, rfl⟩
      · exact hmoved _ _ _ _ (by decide) (by decide) (by decide)
    simp only [captureMovements, creditTotal_append, hgross, (hmoved cp.plan.feeCents .fee cp.feeFrom .fees (by decide)
      (by decide) (by decide)), (hmoved cp.plan.taxCents .tax cp.feeFrom .taxPayable (by decide) (by decide) (by decide)),
      (hmoved cp.plan.reserveCents .capture cp.feeFrom .reserve (by decide) (by decide) (by decide)), hnet, add_zero]
    have hnew : ((credit .collected input.amountCents .capture none input.captureCurrency).movement t
        input.source).isSourceFunding = true := rfl
    have hold : ((credit .collected input.amountCents .capture none input.captureCurrency).movement t
        input.source).isSplitCredit = false := rfl
    rw [hnew, hold]
    unfold ruleMovements
    cases hrule : cp.rule with
    | none => simp only [creditTotal_nil]; split_ifs <;> simp_all; omega
    | some r =>
        obtain ⟨rule, result⟩ := r
        obtain ⟨hsum, -, hplatform, -, -⟩ := split_spec (hsplit rule result hrule)
        dsimp only
        rw [splitCredits_split _ _ _ _ hplatform, sourceFunding_split]
        simp only [SplitResult.sharesCents, ↓reduceIte, hsum]
        split_ifs <;> simp_all

theorem backing_clawback (id : Id) (currency : Currency) (a : ClawbackAllocation) :
    Backing (clawbackMovements t id currency a) t :=
  (backing_positive (by decide) (by decide) (by decide)).append (backing_positive (by decide) (by decide) (by decide))

section Wallets

variable (wallet : Wallet) (amount fee : Int)

theorem backing_topUp : Backing (topUpMovements t amount fee wallet) t :=
  (backing_posting (by decide) (by decide) (by decide) (fun h => absurd h (by decide))).append
    (backing_positive (by decide) (by decide) (by decide))

theorem backing_debit (hamount : 0 ≤ amount) : Backing (debitMovements t amount fee wallet) t :=
  (backing_posting (by decide) (by decide) (by decide) (fun _ => hamount)).append
    (backing_positive (by decide) (by decide) (by decide))

theorem backing_refundWallet : Backing (refundWalletMovements t amount wallet) t :=
  backing_posting (by decide) (by decide) (by decide) (fun h => absurd h (by decide))

theorem backing_adjust : Backing (adjustMovements t amount wallet) t := by
  unfold adjustMovements
  split_ifs with hpos hneg
  · exact backing_posting (by decide) (by decide) (by decide) (fun h => absurd h (by decide))
  · exact backing_posting (by decide) (by decide) (by decide) (fun _ => by omega)
  · exact backing_nil _

end Wallets

/-- A sweep splits nothing. -/
theorem backing_fx {t' : Id} {ms : List Movement} (h : ∀ m ∈ ms, m.IsFx t') : Backing ms t where
  collected := fun c => by rw [balance_fx t .collected c h (by decide) (by decide) (by decide)]
  credits := fun c => by
    rw [creditTotal_eq_zero]
    · exact creditTotal_nonneg fun m hm => (h m hm).nonneg
    · intro m hm _ _
      rcases (h m hm).category with hcategory | hcategory <;> simp [Movement.isSplitCredit, hcategory]

end Groups

/-! ## One operation -/

/-- Splits credited at most what came in, and nothing is left in COLLECTED. -/
structure Db.SplitsBacked (db : Db) (t : Id) : Prop where
  collected : ∀ c, db.accountBalance t .collected c ≤ 0
  credits : ∀ c, db.splitCredits t c ≤ db.sourceFunding t c

section Step

variable {t t' : Id} {db db' : Db}

theorem Db.SplitsBacked.append (h : db.SplitsBacked t) {ms : List Movement} (hm : db'.movements = db.movements ++ ms)
    (hb : Backing ms t) : db'.SplitsBacked t where
  collected := fun c => by
    have := h.collected c; have := hb.collected c
    rw [Db.accountBalance_append hm]; omega
  credits := fun c => by
    have := h.credits c; have := hb.credits c
    unfold Db.splitCredits Db.sourceFunding at *
    rw [hm, creditTotal_append, creditTotal_append]; omega

/-- The movements of any tenant, when those of `t` are backed. -/
theorem Db.SplitsBacked.append_of (h : db.SplitsBacked t) {ms : List Movement} (hm : db'.movements = db.movements ++ ms)
    (hof : Of t' ms) (hb : t' = t → Backing ms t) : db'.SplitsBacked t := by
  by_cases ht : t' = t
  · exact h.append hm (hb ht)
  · exact h.append hm (hof.backing ht)

theorem Db.SplitsBacked.wallet (h : db.SplitsBacked t) {id : Id} {ms : Wallet → List Movement}
    (hw : WalletBooked t' id ms db db') (hof : ∀ wallet, Of t' (ms wallet)) (hb : ∀ wallet, Backing (ms wallet) t') :
    db'.SplitsBacked t := by
  obtain ⟨wallet, -, hbooked⟩ := hw.booked
  refine h.append_of hbooked.movements (hof wallet) fun ht => ?_
  subst ht
  exact hb wallet

theorem Db.SplitsBacked.reversed (h : db.SplitsBacked t) {intentId refundId : Id} {first : Movement}
    {rest : List Movement} (hr : Reversed t' intentId refundId first rest db db') : db'.SplitsBacked t := by
  refine h.append_of hr.movements (of_reversals t' _ _ _) fun ht => ?_
  subst ht
  exact backing_reversals _ _ (refundable_account hr.credits)

theorem Db.SplitsBacked.same (h : db.SplitsBacked t) (hm : db'.movements = db.movements) : db'.SplitsBacked t :=
  h.append (by rw [hm, List.append_nil]) (backing_nil t)

/-- What a split of the tenant does to its source account and to AVAILABLE. -/
theorem split_balances {input : ExecuteSplitInput} {trigger : SplitTrigger} {shares : List ShareSpec}
    {result : SplitResult} (hresult : split input.sourceCents shares = .ok result)
    (hs : SplitExecuted t input trigger result db db') :
    db'.accountBalance t (sourceAccountFor trigger) (input.currency.getD .mad) =
        db.accountBalance t (sourceAccountFor trigger) (input.currency.getD .mad) - input.taken trigger result ∧
      (trigger ≠ .atCapture → ∀ c, db'.accountBalance t .available c ≤ db.accountBalance t .available c) ∧
      (trigger = .atCapture → input.sourceCents = 0 →
        ∀ c, db'.accountBalance t .available c = db.accountBalance t .available c) := by
  obtain ⟨rows, hbooked, -⟩ := hs.shares
  obtain ⟨hsum, hnonneg, hplatform, -, -⟩ := split_spec hresult
  have hshares : 0 ≤ result.sharesCents := List.sum_nonneg (by simpa using hnonneg)
  have hwhole : result.sharesCents + result.platformCents = input.sourceCents := hsum
  simp only [Db.accountBalance_append hbooked.movements, balance_splitMovements _ _ _ _ _ _ _ hplatform]
  unfold ExecuteSplitInput.taken
  cases trigger with
  | atCapture =>
      refine ⟨?_, fun hne => absurd rfl hne, fun _ hzero c => ?_⟩
      · cases input.held.getD false <;> simp [sourceAccountFor, hit] <;> omega
      · have hs0 : result.sharesCents = 0 := by omega
        have hp0 : result.platformCents = 0 := by omega
        simp [hs0, hp0]
  | onUsage =>
      refine ⟨?_, fun _ c => ?_, fun h => absurd h (by decide)⟩
      · cases input.held.getD false <;> simp [sourceAccountFor, hit]; omega
      · cases input.held.getD false <;> simp [sourceAccountFor, hit]
        split_ifs <;> omega
  | manual =>
      refine ⟨?_, fun _ c => ?_, fun h => absurd h (by decide)⟩
      · cases input.held.getD false <;> simp [sourceAccountFor, hit]; omega
      · cases input.held.getD false <;> simp [sourceAccountFor, hit]
        split_ifs <;> omega

/-- COLLECTED after a split of the tenant. -/
theorem collected_split {input : ExecuteSplitInput} {trigger : SplitTrigger} {shares : List ShareSpec}
    {result : SplitResult} (hresult : split input.sourceCents shares = .ok result)
    (hs : SplitExecuted t input trigger result db db') (c : Currency) :
    db'.accountBalance t .collected c ≤ db.accountBalance t .collected c := by
  obtain ⟨rows, hbooked, -⟩ := hs.shares
  obtain ⟨-, hnonneg, hplatform, -, -⟩ := split_spec hresult
  have hshares : 0 ≤ result.sharesCents := List.sum_nonneg (by simpa using hnonneg)
  rw [Db.accountBalance_append hbooked.movements, balance_splitMovements _ _ _ _ _ _ _ hplatform]
  cases trigger <;> cases input.held.getD false <;> simp [sourceAccountFor, hit] <;> split_ifs <;> omega

/-- A split that is backed. -/
theorem splitsBacked_split (h : db.SplitsBacked t) {input : ExecuteSplitInput} {trigger : SplitTrigger}
    {shares : List ShareSpec} {result : SplitResult} (hf : (Operation.executeSplit t input).Backed t db)
    (hrule : db.splitRequest t input = some (trigger, shares)) (hresult : split input.sourceCents shares = .ok result)
    (hs : SplitExecuted t input trigger result db db') : db'.SplitsBacked t where
  collected := fun c => (collected_split hresult hs c).trans (h.collected c)
  credits := fun c => by
    obtain ⟨rows, hbooked, -⟩ := hs.shares
    obtain ⟨hsum, -, hplatform, -, -⟩ := split_spec hresult
    have hle := (hf rfl trigger shares result hrule hresult).2
    have hc := h.credits c
    unfold Db.splitCredits Db.sourceFunding at *
    rw [hbooked.movements, creditTotal_append, creditTotal_append, splitCredits_split _ _ _ _ hplatform,
      sourceFunding_split]
    split_ifs with hcur htrigger
    · subst hcur
      subst htrigger
      simp only [ExecuteSplitInput.credited, SplitResult.sharesCents] at hle ⊢
      omega
    · subst hcur
      have : input.credited trigger result = result.sharesCents := by cases trigger <;> trivial
      omega
    · omega

end Step

/-- An operation that meets the condition. -/
theorem Change.splitsBacked {t : Id} {op : Operation} {db db' : Db} (hc : Change op db db') (hf : op.Backed t db)
    (h : db.SplitsBacked t) : db'.SplitsBacked t := by
  cases hc with
  | same => exact h
  | configured => exact ⟨h.collected, h.credits⟩
  | @captured t' input cp _ _ hcap =>
      refine h.append_of hcap.booked.movements (of_capture t' input cp) fun ht => ?_
      subst ht
      exact backing_capture hcap.plan hcap.pos
  | refunded hledger hr => exact h.reversed ⟨hr.credits, hr.covered, hr.appends.movements_eq⟩
  | refundRequested hr =>
      rcases hr.movements with hsame | ⟨first, rest, hrev⟩
      · exact h.same hsame
      · exact h.reversed hrev
  | disputeCreated hd => exact h.same hd.only.movements
  | disputeWon hd => exact h.same hd.only.movements
  | @disputeLost t' id d a _ _ hd =>
      refine h.append_of hd.movements (of_clawback t' id d.currency a) fun ht => ?_
      subst ht
      exact backing_clawback id d.currency a
  | walletCreated hb => exact h.append hb.movements (backing_nil t)
  | toppedUp hw => exact h.wallet hw (of_topUp _ · _ _) (backing_topUp · _ _)
  | debited hfee hdrawable hw =>
      obtain ⟨-, -, hpos, -⟩ := hdrawable
      exact h.wallet hw (of_debit _ · _ _) (backing_debit · _ _ hpos.le)
  | walletRefunded hw => exact h.wallet hw (of_refundWallet _ · _) (backing_refundWallet · _)
  | adjusted hw => exact h.wallet hw (of_adjust _ · _) (backing_adjust · _)
  | @splitExecuted t' input trigger shares result _ _ hrule hresult hs =>
      obtain ⟨rows, hbooked, -⟩ := hs.shares
      by_cases ht : t' = t
      · subst ht
        exact splitsBacked_split h hf hrule hresult hs
      · exact h.append hbooked.movements ((of_split t' _ _ _ _ _).backing ht)
  | splitReleased hs =>
      refine h.append_of hs.movements (of_posting _ _) fun ht => ?_
      subst ht
      exact backing_posting (by decide) (by decide) (by decide) (fun _ => hs.nonneg)
  | payoutCreated hs =>
      obtain ⟨ms, hm, hfx⟩ := hs.movements
      exact h.append hm (backing_fx hfx)
  | payoutCancelled hb => exact h.append hb.movements (backing_nil t)
  | payoutFailed hb => exact h.append hb.movements (backing_nil t)
  | payoutPaid _ hb =>
      refine h.append_of hb.movements (of_posting _ _) fun ht => ?_
      subst ht
      exact backing_posting (by decide) (by decide) (by decide) (fun h => absurd h (by decide))

/-! ## Runs -/

theorem splitsBacked_reached {t : Id} {db : Db} (h : ReachedIf (fun op db => op.Backed t db) db) : db.SplitsBacked t :=
  h.change_invariant (fun _ => ⟨fun _ => le_refl _, fun _ => le_refl _⟩) fun _ _ _ hcond hp hc => hc.splitsBacked hcond hp

/-- In a run whose splits are backed, splits credit at most what came in, and a split neither overdraws its source
account nor adds to AVAILABLE. -/
theorem splits_backed (t : Id) {db : Db} (h : ReachedIf (fun op db => op.Backed t db) db) :
    (∀ c, db.splitCredits t c ≤ db.sourceFunding t c) ∧
      ∀ input, (Operation.executeSplit t input).Backed t db → ∀ w r db' w',
        (executeSplit t input).run db w = (r, db', w') →
        (∀ trigger shares, db.splitRequest t input = some (trigger, shares) →
          min (db.accountBalance t (sourceAccountFor trigger) (input.currency.getD .mad)) 0 ≤
            db'.accountBalance t (sourceAccountFor trigger) (input.currency.getD .mad)) ∧
        ∀ c, db'.accountBalance t .available c ≤ db.accountBalance t .available c := by
  have hb := splitsBacked_reached h
  refine ⟨hb.credits, fun input hf w r db' w' hrun => ?_⟩
  rcases (executeSplit_effect t input db).run w hrun with rfl | ⟨trigger, shares, result, hrule, hresult, hs⟩
  · exact ⟨fun _ _ _ => min_le_left _ _, fun _ => le_refl _⟩
  · obtain ⟨htaken, havailable, hnothing⟩ := split_balances hresult hs
    have hcond := (hf rfl trigger shares result hrule hresult).1
    refine ⟨fun trigger' shares' hrule' => ?_, fun c => ?_⟩
    · obtain ⟨rfl, rfl⟩ := Prod.mk.inj (Option.some.inj (hrule'.symm.trans hrule))
      rw [htaken]; omega
    · by_cases htrigger : trigger = .atCapture
      · subst htrigger
        have hcollected := hb.collected (input.currency.getD .mad)
        have hsource : 0 ≤ input.sourceCents := by
          by_contra hneg
          rw [split, if_pos (not_le.mp hneg)] at hresult
          cases hresult
        simp only [ExecuteSplitInput.taken, sourceAccountFor] at hcond
        exact (hnothing rfl (by omega) c).le
      · exact havailable htrigger c

/-- A tenant with one beneficiary. -/
def partyConfig : Config := { plainConfig with splitParties := [{ id := 5, tenantId := 1 }] }

def orderSplit (trigger : SplitTrigger) (sourceCents : Int) : ExecuteSplitInput :=
  { sourceType := .other "order", sourceId := 7, sourceCents, currency := none, splitRuleId := none,
    trigger := some trigger, shares := some [{ partyId := 5, shareBps := 10000 }], held := some true,
    heldUntil := none }

/-- 4.00 of a capture of 10.00 are held for the beneficiary. -/
theorem splits_backed_order :
    let db := (execute [.settleCapture 1 plainCapture, .executeSplit 1 (orderSplit .manual 400)]
      (.empty partyConfig) .counting).1
    db.splitCredits 1 .mad ≤ db.sourceFunding 1 .mad := by
  refine (splits_backed 1 ((ReachedIf.init partyConfig).execute [.settleCapture 1 plainCapture,
    .executeSplit 1 (orderSplit .manual 400)] .counting ⟨trivial, ?_, trivial⟩)).1 .mad
  intro _ trigger shares result hrule hresult
  obtain ⟨rfl, rfl⟩ := Prod.mk.inj (Option.some.inj hrule)
  obtain rfl : ({ shares := [⟨5, 400⟩], platformCents := 0 } : SplitResult) = result := Except.ok.inj hresult
  decide

/-- A split of an empty COLLECTED creates 10.00. -/
theorem not_splits_backed : ¬ ∀ (t : Id) (db : Db), Reached db →
    (∀ c, db.splitCredits t c ≤ db.sourceFunding t c) ∧
      ∀ input w r db' w', (executeSplit t input).run db w = (r, db', w') →
        ∀ trigger shares, db.splitRequest t input = some (trigger, shares) →
          min (db.accountBalance t (sourceAccountFor trigger) (input.currency.getD .mad)) 0 ≤
            db'.accountBalance t (sourceAccountFor trigger) (input.currency.getD .mad) := by
  intro h
  have hsource := (h 1 _ (.init partyConfig)).2 (orderSplit .atCapture 1000) .counting _ _ _ rfl .atCapture _ rfl
  exact absurd hsource (by decide)

end CorpoPay.Settlement
