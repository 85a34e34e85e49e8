import CorpoPay.Settlement.Lemmas.Keeps

/-!
# Operations that leave the payouts alone

All operations but four only append to the ledger, and never an AVAILABLE debit of the category PAYOUT.
-/

namespace CorpoPay.Settlement

open Transaction.Tx

/-! ## The relation -/

/-- A movement that no payout makes. -/
def Movement.Ordinary (m : Movement) : Prop :=
  0 ≤ m.amount ∧ (m.account = .available → m.direction = .debit → m.category ≠ .payout)

/-- The ledger grows by ordinary movements; payouts and their items stay. -/
def Grows (db db' : Db) : Prop :=
  (∃ ms, Appends ms db db' ∧ ∀ m ∈ ms, m.Ordinary) ∧ db'.payouts = db.payouts ∧ db'.payoutItems = db.payoutItems

theorem Grows.of_eq {db db' : Db} (h : SameLedger db db') (hp : db'.payouts = db.payouts)
    (hi : db'.payoutItems = db.payoutItems) : Grows db db' := ⟨⟨[], .of_eq h, by simp⟩, hp, hi⟩

instance : IsPreorder Db Grows where
  refl := fun _ => .of_eq rfl rfl rfl
  trans := by
    rintro db₁ db₂ db₃ ⟨⟨ms, ha, hm⟩, hp, hi⟩ ⟨⟨ms', ha', hm'⟩, hp', hi'⟩
    refine ⟨⟨ms ++ ms', ha.trans ha', fun m hmem => ?_⟩, hp'.trans hp, hi'.trans hi⟩
    rcases List.mem_append.mp hmem with h | h
    · exact hm m h
    · exact hm' m h

/-! ## Postings -/

theorem LedgerPosting.Valid.ordinary {p : LedgerPosting} (h : p.Valid) (hc : p.debit.category ≠ .payout) (t : Id) :
    ∀ m ∈ p.movements t, m.Ordinary := by
  intro m hm
  simp only [LedgerPosting.movements, List.mem_cons, List.not_mem_nil, or_false] at hm
  rcases hm with rfl | rfl
  · exact ⟨h.nonneg, fun _ _ => hc⟩
  · exact ⟨h.nonneg.trans_eq h.amount, fun _ hd => absurd (h.credit_direction.symm.trans hd) (by decide)⟩

theorem OnlyLedger.grows {db db' : Db} (h : OnlyLedger db db') {ms : List Movement} (ha : Appends ms db db')
    (hm : ∀ m ∈ ms, m.Ordinary) : Grows db db' := ⟨⟨ms, ha, hm⟩, h.payouts, h.payoutItems⟩

theorem grows_post {t : Id} {d c : LedgerLeg} {m : Meta} (hc : d.category ≠ .payout) : (post t d c m).Keeps Grows := by
  intro db
  have hrows : (post t d c m).Ensures (fun _ db' => ∃ ms, Appends ms db db' ∧ ∀ m ∈ ms, m.Ordinary)
      (fun _ => True) db := ensures_post fun db' hv ha => ⟨_, ha, hv.ordinary hc t⟩
  exact (hrows.and (keeps_post_only db)).mono (fun _ _ ⟨⟨_, ha, hm⟩, h⟩ => h.grows ha hm) fun _ _ => trivial

theorem grows_postEntry {t : Id} {p : LedgerPosting} (hc : p.debit.category ≠ .payout) :
    (postEntry t p).Keeps Grows := by
  intro db
  have hrows : (postEntry t p).Ensures (fun _ db' => ∃ ms, Appends ms db db' ∧ ∀ m ∈ ms, m.Ordinary)
      (fun _ => True) db := ensures_postEntry fun _ db' hv ha => ⟨_, ha, hv.ordinary hc t⟩
  exact (hrows.and (keeps_postEntry_only db)).mono (fun _ _ ⟨⟨_, ha, hm⟩, h⟩ => h.grows ha hm) fun _ _ => trivial

theorem grows_postings : Postings Grows := ⟨grows_post, grows_postEntry⟩

/-! ## Operations -/

section Operations

variable {t id : Id}

theorem grows_settleCapture {input : SettleCaptureInput} : (settleCapture t input).Keeps Grows :=
  keeps_settleCapture grows_postings fun _ _ => keeps_splitCreate fun _ _ => .of_eq rfl rfl rfl

theorem grows_settleRefund {input : SettleRefundInput} : (settleRefund t input).Keeps Grows :=
  keeps_settleRefund grows_postings

theorem grows_refundRoute {rt : Runtime} : (refundRoute rt t id).Keeps Grows :=
  keeps_refundRoute (fun _ _ => .of_eq rfl rfl rfl) (fun _ _ => .of_eq rfl rfl rfl) fun _ => grows_settleRefund

theorem grows_executeSplit {input : ExecuteSplitInput} : (executeSplit t input).Keeps Grows :=
  keeps_executeSplit grows_postings fun _ _ => keeps_splitCreate fun _ _ => .of_eq rfl rfl rfl

theorem grows_releaseSplit : (releaseSplit t id).Keeps Grows :=
  keeps_releaseSplit grows_postings fun _ _ => .of_eq rfl rfl rfl

theorem grows_createDispute {input : CreateDisputeInput} : (createDispute t input).Keeps Grows :=
  keeps_createDispute fun _ _ => .of_eq rfl rfl rfl

theorem grows_resolveDispute {outcome : Outcome} : (resolveDispute t id outcome).Keeps Grows :=
  keeps_resolveDispute grows_postings (fun _ _ => .of_eq rfl rfl rfl) fun _ _ => .of_eq rfl rfl rfl

theorem grows_ignoresWallets : IgnoresWallets Grows := ⟨fun _ _ => .of_eq rfl rfl rfl, fun _ _ => .of_eq rfl rfl rfl⟩

theorem grows_createWallet {ownerType : WalletOwnerType} {ownerId : String} {currency : Option Currency} :
    (createWallet t ownerType ownerId currency).Keeps Grows := keeps_createWallet grows_ignoresWallets

theorem grows_topUpWallet {amountCents : Int} {paymentIntentId : Option Id} :
    (topUpWallet t id amountCents paymentIntentId).Keeps Grows := keeps_topUpWallet grows_postings grows_ignoresWallets

theorem grows_debitWallet {amountCents : Int} {method : Option String} :
    (debitWallet t id amountCents method).Keeps Grows := keeps_debitWallet grows_postings grows_ignoresWallets

theorem grows_refundWallet {amountCents : Int} : (refundWallet t id amountCents).Keeps Grows :=
  keeps_refundWallet grows_postings grows_ignoresWallets

theorem grows_adjustWallet {amountCents : Int} : (adjustWallet t id amountCents).Keeps Grows :=
  keeps_adjustWallet grows_postings grows_ignoresWallets

theorem grows_convertForeignBalances {currency : Currency} :
    (convertForeignBalancesToSettlement t currency).Keeps Grows := keeps_convertForeignBalances grows_postings

end Operations

end CorpoPay.Settlement
