import CorpoPay.Settlement.Lemmas.Keeps
import CorpoPay.Settlement.Lemmas.Refund
import CorpoPay.Transaction.Total

/-!
# Postings that go through

The database refuses a row whose id is taken. An id that is generated has not been generated before and is nowhere in
the tables, so that a valid posting alone succeeds.
-/

namespace CorpoPay.Settlement

open Transaction.Tx

theorem Except.bind_eq_ok {ε α β : Type} {x : Except ε α} {f : α → Except ε β} {b : β} (h : (x >>= f) = .ok b) :
    ∃ a, x = .ok a ∧ f a = .ok b := by
  cases x with
  | error e => cases h
  | ok a => exact ⟨a, rfl, h⟩

theorem Except.map_eq_ok {ε α β : Type} {x : Except ε α} {f : α → β} {b : β} (h : x.map f = .ok b) :
    ∃ a, x = .ok a ∧ f a = b := by
  cases x with
  | error e => cases h
  | ok a => exact ⟨a, rfl, Except.ok.inj h⟩

theorem Except.of_toOption {ε α : Type} {r : Except ε α} {a : α} (h : r.toOption = some a) : r = .ok a := by
  cases r with
  | error e => cases h
  | ok b => exact congrArg Except.ok (Option.some.inj h)

@[simp] theorem World.reply_clock (w : World) (q : Query) : (w.reply q).2.clock = w.clock + 1 := rfl

@[simp] theorem World.reply_oracle (w : World) (q : Query) : (w.reply q).2.oracle = w.oracle := rfl

@[simp] theorem World.reply_answer (w : World) (q : Query) : (w.reply q).1 = w.oracle w.clock q := rfl

/-- No id that is still to be generated is one of the ledger. -/
structure FreshEntries (db : Db) (w : World) : Prop where
  distinct : ∀ n m, w.clock ≤ n → n < m → w.oracle n .freshId ≠ w.oracle m .freshId
  entries : ∀ n, w.clock ≤ n → ∀ e ∈ db.ledgerEntries, e.id ≠ w.oracle n .freshId

/-- A later state of the same world. -/
structure World.Before (w w' : World) : Prop where
  oracle : w'.oracle = w.oracle
  clock : w.clock ≤ w'.clock

@[refl] theorem World.Before.refl (w : World) : w.Before w := ⟨rfl, Nat.le_refl _⟩

theorem World.Before.trans {w₁ w₂ w₃ : World} (h : w₁.Before w₂) (h' : w₂.Before w₃) : w₁.Before w₃ :=
  ⟨h'.oracle.trans h.oracle, h.clock.trans h'.clock⟩

theorem World.before_reply (w : World) (q : Query) : w.Before (w.reply q).2 := ⟨rfl, Nat.le_succ _⟩

instance : IsPreorder World World.Before where
  refl := .refl
  trans _ _ _ := .trans

theorem before_tx {α : Type} (body : Tx α) (db : Db) (w : World) : w.Before (body.run db w).2 :=
  world_run (R := World.Before) World.before_reply body db w

theorem World.Before.of_run {α : Type} {body : Tx α} {db : Db} {w w' : World} {r : Except Failure (α × Db)}
    (h : body.run db w = (r, w')) : w.Before w' := by
  have hbefore := before_tx body db w
  rwa [h] at hbefore

theorem before_run {α : Type} {j : Job α} {db db' : Db} {w w' : World} {r : Except Failure α}
    (h : j.run db w = (r, db', w')) : w.Before w' := by
  induction j generalizing db w with
  | ret a => cases h; exact .refl _
  | throw e => cases h; exact .refl _
  | txn body k ih =>
      have hbody := before_tx body db w
      simp only [Transaction.Job.run] at h
      split at h
      · rename_i hrun; rw [hrun] at hbody; exact hbody.trans (ih _ h)
      · rename_i hrun; rw [hrun] at hbody; exact hbody.trans (ih _ h)
  | ask q k ih => exact (w.before_reply q).trans (ih _ h)

theorem FreshEntries.later {db : Db} {w w' : World} (h : FreshEntries db w) (hw : w.Before w') : FreshEntries db w' where
  distinct := fun n m hn => by rw [hw.oracle]; exact h.distinct n m (hw.clock.trans hn)
  entries := fun n hn => by rw [hw.oracle]; exact h.entries n (hw.clock.trans hn)

theorem FreshEntries.reply {db : Db} {w : World} (h : FreshEntries db w) (q : Query) : FreshEntries db (w.reply q).2 :=
  h.later (w.before_reply q)

variable {db : Db} {w : World} {t : Id}

@[simp] theorem succeeds_freshId {Q : Id → Db → World → Prop} :
    Succeeds (I := Backend) Q freshId db w ↔ Q (w.oracle w.clock .freshId) db (w.reply .freshId).2 := Iff.rfl

@[simp] theorem succeeds_now {Q : Nat → Db → World → Prop} :
    Succeeds (I := Backend) Q now db w ↔ Q (w.oracle w.clock .now) db (w.reply .now).2 := Iff.rfl

/-- A posting leaves fresh ids fresh. -/
def Posted (db : Db) (w : World) (db' : Db) (w' : World) : Prop := FreshEntries db' w' ∧ OnlyLedger db db' ∧ w.Before w'

theorem Posted.trans {db₁ db₂ db₃ : Db} {w₁ w₂ w₃ : World} (h : Posted db₁ w₁ db₂ w₂) (h' : Posted db₂ w₂ db₃ w₃) :
    Posted db₁ w₁ db₃ w₃ := ⟨h'.1, trans_of OnlyLedger h.2.1 h'.2.1, h.2.2.trans h'.2.2⟩

/-- The party of a leg exists. -/
def Config.HasParty (c : Config) (p : Option Id) : Prop := ∀ id ∈ p, ∃ party ∈ c.splitParties, party.id = id

theorem Config.hasParty_none (c : Config) : c.HasParty none := by simp [Config.HasParty]

theorem succeeds_create {m : Movement} {postingId : Id} {balanceAfter : Int} (h : FreshEntries db w)
    (hparty : db.HasParty m.partyId) :
    (LedgerEntry.create m postingId balanceAfter).Succeeds (fun _ => Posted db w) db w := by
  simp only [LedgerEntry.create, bind_eq, pure_eq, succeeds_bind, succeeds_freshId, succeeds_now, succeeds_get]
  rw [if_neg, if_neg]
  · refine ⟨⟨fun n k hn => h.distinct n k (by simp only [World.reply_clock] at hn; omega), fun n hn e he => ?_⟩, rfl,
      (w.before_reply _).trans (World.before_reply _ _)⟩
    simp only [World.reply_clock] at hn
    rcases List.mem_append.mp he with he | he
    · exact h.entries n (by omega) e he
    · obtain rfl := List.mem_singleton.mp he
      exact h.distinct w.clock n (Nat.le_refl _) (by omega)
  · cases hp : m.partyId with
    | none => simp
    | some p => simpa using hparty p hp
  · simpa using fun e he => h.entries w.clock (Nat.le_refl _) e he

theorem succeeds_postEntry {p : LedgerPosting} (h : FreshEntries db w) (hv : p.Valid)
    (hparties : db.HasParty p.debit.partyId ∧ db.HasParty p.credit.partyId) :
    (postEntry t p).Succeeds (fun _ => Posted db w) db w := by
  simp only [postEntry, bind_eq, pure_eq, succeeds_bind, accountBalanceCents, succeeds_get, succeeds_acquire,
    succeeds_freshId, succeeds_ret]
  refine succeeds_lift.mpr ⟨p, posting_self hv, ?_⟩
  have hw := w.before_reply .freshId
  refine (succeeds_create (h.reply _) hparties.1).mono fun _ db₁ w₁ h₁ => ?_
  refine (succeeds_create h₁.1 (by rw [h₁.2.1]; exact hparties.2)).mono fun _ db₂ w₂ h₂ => ?_
  exact ⟨h₂.1, trans_of OnlyLedger h₁.2.1 h₂.2.1, hw.trans (h₁.2.2.trans h₂.2.2)⟩

theorem succeeds_post {d c : LedgerLeg} {m : Meta} (h : FreshEntries db w) (hv : (⟨d, c, m⟩ : LedgerPosting).Valid)
    (hparties : db.HasParty d.partyId ∧ db.HasParty c.partyId) :
    (post t d c m).Succeeds (fun _ => Posted db w) db w := by
  simp only [post, bind_eq, pure_eq, succeeds_bind, succeeds_ret]
  exact succeeds_lift.mpr ⟨_, posting_eq_ok.mpr ⟨rfl, hv⟩, succeeds_postEntry h hv hparties⟩

/-! ## Captures -/

/-- No id that is still to be generated is one of the ledger or of a split. -/
structure FreshRows (db : Db) (w : World) : Prop extends FreshEntries db w where
  splits : ∀ n, w.clock ≤ n → ∀ s ∈ db.splits, s.id ≠ w.oracle n .freshId

theorem FreshRows.later {db : Db} {w w' : World} (h : FreshRows db w) (hw : w.Before w') : FreshRows db w' where
  toFreshEntries := h.toFreshEntries.later hw
  splits := fun n hn => by rw [hw.oracle]; exact h.splits n (hw.clock.trans hn)

theorem FreshRows.posted {db db' : Db} {w w' : World} (h : FreshRows db w) (hp : Posted db w db' w') :
    FreshRows db' w' where
  toFreshEntries := hp.1
  splits := by rw [hp.2.1]; exact (h.later hp.2.2).splits

/-- The ids that are generated are fresh, under the configuration. -/
def FreshUnder (c : Config) (db : Db) (w : World) : Prop := FreshRows db w ∧ db.toConfig = c

theorem FreshUnder.posted {c : Config} {db db' : Db} {w w' : World} (h : FreshUnder c db w) (hp : Posted db w db' w') :
    FreshUnder c db' w' := ⟨h.1.posted hp, by rw [hp.2.1]; exact h.2⟩

section Captures

variable {c : Config} {amount : Int} {category : LedgerCategory} {src dst : LedgerAccount} {p : Option Id}
  {currency : Currency} {source : Meta}

theorem succeeds_move (h : FreshUnder c db w) (hamount : 0 ≤ amount) (hne : src ≠ dst) (hp : c.HasParty p) :
    (post t (debit src amount category none currency) (credit dst amount category p currency) source).Succeeds
      (fun _ => FreshUnder c) db w := by
  have hvalid : (⟨debit src amount category none currency, credit dst amount category p currency, source⟩ :
      LedgerPosting).Valid := ⟨rfl, rfl, rfl, rfl, hamount, fun hd => hne hd.1⟩
  refine (succeeds_post h.1.toFreshEntries hvalid ?_).mono fun _ _ _ => h.posted
  rw [h.2]
  exact ⟨c.hasParty_none, hp⟩

theorem succeeds_positive (h : FreshUnder c db w) (hne : src ≠ dst) :
    (postPositive t amount (debit src amount category none currency) (credit dst amount category none currency)
      source).Succeeds (fun _ => FreshUnder c) db w :=
  (succeeds_when _ _).mpr ⟨fun hpos => succeeds_move h hpos.le hne c.hasParty_none, fun _ => h⟩

theorem succeeds_splitCreate {row : Id → Split} (h : FreshUnder c db w) (hrow : ∀ id, (row id).id = id) :
    (Split.create row).Succeeds (fun _ => FreshUnder c) db w := by
  simp only [Split.create, bind_eq, pure_eq, succeeds_bind, succeeds_freshId, succeeds_get]
  rw [if_neg (by simpa using h.1.splits w.clock (Nat.le_refl _))]
  have hlater := h.1.later (w.before_reply .freshId)
  refine ⟨⟨⟨hlater.distinct, hlater.entries⟩, fun n hn s hs => ?_⟩, h.2⟩
  simp only [World.reply_clock] at hn
  rcases List.mem_append.mp hs with hs | hs
  · exact h.1.splits n (by omega) s hs
  · obtain rfl := List.mem_singleton.mp hs
    rw [hrow]
    exact h.1.distinct w.clock n (Nat.le_refl _) (by omega)

theorem succeeds_executeSplitInTx {input : ExecuteSplitInput} {trigger : SplitTrigger} {shares : List ShareSpec}
    {result : SplitResult} (h : FreshUnder c db w) (hresult : split input.sourceCents shares = .ok result)
    (htrigger : sourceAccountFor trigger = .collected) (hparties : ∀ a ∈ result.shares, c.HasParty (some a.partyId)) :
    (executeSplitInTx t input trigger shares).Succeeds (fun _ => FreshUnder c) db w := by
  obtain ⟨-, hnonneg, hplatform, -, -⟩ := split_spec hresult
  simp only [executeSplitInTx, bind_eq, pure_eq, succeeds_bind]
  refine succeeds_lift.mpr ⟨result, hresult, ?_⟩
  refine succeeds_collect (J := FreshUnder c) (fun a ha db₁ w₁ h₁ => ?_) (fun _ db₁ w₁ h₁ => ?_) h
  · refine (succeeds_bind _ _).mpr ((succeeds_move h₁ (hnonneg a ha) ?_ (hparties a ha)).mono fun _ db₂ w₂ h₂ => ?_)
    · rw [htrigger]; split_ifs <;> decide
    · exact succeeds_splitCreate h₂ fun _ => rfl
  · refine (succeeds_when _ _).mpr ⟨fun _ => ?_, fun _ => h₁⟩
    exact succeeds_move h₁ hplatform (by rw [htrigger]; decide) c.hasParty_none

theorem succeeds_bookCapture {input : SettleCaptureInput} {rule : Option SplitRule} {plan : CaptureSettlementPlan}
    (result : SplitResult) (h : FreshUnder c db w) (hpos : 0 < input.amountCents)
    (hresult : ∀ r ∈ rule, split input.amountCents r.shares = .ok result)
    (hparties : ∀ r ∈ rule, ∀ a ∈ result.shares, c.HasParty (some a.partyId)) :
    (bookCapture t input rule plan).Succeeds (fun r _ _ => r = true) db w := by
  unfold bookCapture
  simp only [bind_eq, pure_eq, succeeds_bind]
  refine (succeeds_move h hpos.le (by decide) c.hasParty_none).mono fun _ db₁ w₁ h₁ => ?_
  cases rule with
  | none =>
      simp only [succeeds_bind]
      refine (succeeds_positive h₁ (by decide)).mono fun _ db₂ w₂ h₂ => ?_
      refine (succeeds_positive h₂ (by decide)).mono fun _ db₃ w₃ h₃ => ?_
      refine (succeeds_positive h₃ (by decide)).mono fun _ db₄ w₄ h₄ => ?_
      refine (succeeds_when _ _).mpr ⟨fun _ => ?_, fun hn => absurd rfl hn⟩
      exact (succeeds_positive h₄ (by decide)).mono fun _ _ _ _ => rfl
  | some r =>
      simp only [succeeds_bind]
      refine (succeeds_executeSplitInTx h₁ (hresult r rfl) rfl (hparties r rfl)).mono fun _ db₂ w₂ h₂ => ?_
      refine (succeeds_positive h₂ (by simp)).mono fun _ db₃ w₃ h₃ => ?_
      refine (succeeds_positive h₃ (by simp)).mono fun _ db₄ w₄ h₄ => ?_
      refine (succeeds_positive h₄ (by simp)).mono fun _ db₅ w₅ h₅ => ?_
      exact (succeeds_when _ _).mpr ⟨fun hn => by simp at hn, fun _ => rfl⟩

theorem succeeds_settleCaptureInTx {input : SettleCaptureInput} {cp : CapturePlan} (h : FreshRows db w)
    (hpos : 0 < input.amountCents) (hcp : capturePlan db.toConfig t input = .ok cp)
    (hparties : ∀ r ∈ cp.rule, ∀ a ∈ r.2.shares, db.HasParty (some a.partyId)) :
    (settleCaptureInTx t input).Succeeds (fun r _ _ => r = true) db w := by
  have hbook : ∀ rule, (if (db.capturePolicy t).splittingEnabled then db.captureRule t else none) = rule →
      (lift (planBase input.amountCents rule)).Succeeds
        (fun base db₁ w₁ => (lift (planCaptureSettlement base (db.captureFee t) (db.capturePolicy t) input.method
          (db.taxSpec t))).Succeeds
            (fun plan => (bookCapture t input rule plan).Succeeds fun r _ _ => r = true) db₁ w₁) db w := by
    intro rule hrule
    rw [capturePlan, hrule] at hcp
    cases rule with
    | none =>
        obtain ⟨plan, hplan, rfl⟩ := Except.map_eq_ok hcp
        exact succeeds_lift.mpr ⟨_, rfl, succeeds_lift.mpr ⟨plan, hplan,
          succeeds_bookCapture ⟨[], 0⟩ ⟨h, rfl⟩ hpos (by simp) (by simp)⟩⟩
    | some rule =>
        obtain ⟨result, hresult, hcp⟩ := Except.bind_eq_ok hcp
        obtain ⟨plan, hplan, rfl⟩ := Except.map_eq_ok hcp
        have hbase : planBase input.amountCents (some rule) = .ok result.platformCents := by rw [planBase, hresult]; rfl
        refine succeeds_lift.mpr ⟨_, hbase, succeeds_lift.mpr ⟨plan, hplan, ?_⟩⟩
        exact succeeds_bookCapture result ⟨h, rfl⟩ hpos (by rintro _ ⟨⟩; exact hresult) (by rintro _ ⟨⟩; exact hparties _ rfl)
  simp only [settleCaptureInTx, bind_eq, pure_eq, succeeds_bind, succeeds_get]
  split
  · rename_i hs
    simp only [succeeds_bind, succeeds_get]
    exact hbook _ (if_pos hs)
  · rename_i hs
    simp only [ret_bind, succeeds_bind]
    exact hbook _ (if_neg hs)

/-- The charge can be settled: it is not booked yet, it is positive, its plan can be made and its parties exist. -/
def Db.CanSettle (db : Db) (t : Id) (input : SettleCaptureInput) : Prop :=
  db.isCaptured t input.intentId = false ∧ 0 < input.amountCents ∧
    ∃ cp, capturePlan db.toConfig t input = .ok cp ∧
      ∀ r ∈ cp.rule, ∀ a ∈ r.2.shares, db.HasParty (some a.partyId)

/-- A capture that can be settled goes through. -/
theorem settleCapture_books {input : SettleCaptureInput} (h : FreshRows db w) (hcan : db.CanSettle t input) :
    ∃ db' w', (settleCapture t input).run db w = (.ok true, db', w') := by
  obtain ⟨hnot, hpos, cp, hcp, hparties⟩ := hcan
  unfold settleCapture
  rw [if_neg (not_le.mpr hpos), Transaction.Job.run_transaction]
  suffices hbody : Transaction.Tx.Succeeds (I := Backend) (fun r _ _ => r = true) _ db w by
    obtain ⟨r, db', w', hrun, rfl⟩ := hbody.run
    rw [hrun]
    exact ⟨db', w', rfl⟩
  simp only [bind_eq, pure_eq, succeeds_bind, succeeds_get]
  rw [if_neg (by simpa [Db.isCaptured, Db.movements] using hnot)]
  exact succeeds_settleCaptureInTx h hpos hcp hparties

/-- The database accepts the rows of parties that exist only. -/
def KeepsParties (db db' : Db) : Prop :=
  db'.toConfig = db.toConfig ∧ ∃ es, db'.ledgerEntries = db.ledgerEntries ++ es ∧ ∀ e ∈ es, db.HasParty e.partyId

instance : IsPreorder Db KeepsParties where
  refl := fun _ => ⟨rfl, [], by simp, by simp⟩
  trans := by
    rintro db₁ db₂ db₃ ⟨hc, es, he, hes⟩ ⟨hc', es', he', hes'⟩
    refine ⟨hc'.trans hc, es ++ es', by rw [he', he, List.append_assoc], fun e hmem => ?_⟩
    rcases List.mem_append.mp hmem with h | h
    · exact hes e h
    · exact hc ▸ hes' e h

theorem parties_create {m : Movement} {postingId : Id} {balanceAfter : Int} :
    (LedgerEntry.create m postingId balanceAfter).Keeps KeepsParties := by
  intro db
  simp only [LedgerEntry.create, bind_eq, pure_eq, ensures_bind, ensures_get, ensures_ite, ensures_throw, ensures_modify,
    ensures_ret, implies_true, true_and]
  intro id createdAt _ hparty
  refine ⟨rfl, [_], rfl, ?_⟩
  simpa [Config.HasParty, Option.any_eq_true] using hparty

theorem parties_postEntry {p : LedgerPosting} : (postEntry t p).Keeps KeepsParties :=
  keeps_bind (keeps_lift _) fun _ => keeps_bind (keeps_query _) fun _ => keeps_bind (keeps_acquire _) fun _ =>
    keeps_bind (keeps_get _) fun _ => keeps_bind (keeps_get _) fun _ => keeps_bind parties_create fun _ =>
      keeps_bind parties_create fun _ => keeps_ret _

theorem parties_postings : Postings KeepsParties where
  postEntry _ := parties_postEntry
  post _ := keeps_bind (keeps_lift _) fun _ => keeps_bind parties_postEntry fun _ => keeps_ret _

/-- Each share of the plan is credited to its party. -/
theorem mem_capture_share (t : Id) (input : SettleCaptureInput) {cp : CapturePlan} {r : SplitRule × SplitResult}
    {a : ShareAllocation} (hr : cp.rule = some r) (ha : a ∈ r.2.shares) :
    ∃ m ∈ captureMovements t input cp, m.partyId = some a.partyId := by
  have hshare : (credit .available a.amountCents .split (some a.partyId) input.captureCurrency).movement t input.source ∈
      ruleMovements t input cp := by
    rw [ruleMovements, hr]
    exact List.mem_append_left _ (List.mem_flatMap.mpr ⟨a, ha, List.mem_cons_of_mem _ List.mem_cons_self⟩)
  exact ⟨_, List.mem_append_right _ (List.mem_append_left _ hshare), rfl⟩

/-- A capture that books could be settled. -/
theorem settleCapture_canSettle {input : SettleCaptureInput} {db' : Db} {w' : World}
    (h : (settleCapture t input).run db w = (.ok true, db', w')) : db.CanSettle t input := by
  have hkeeps : (settleCapture t input).Keeps KeepsParties :=
    keeps_settleCapture parties_postings fun _ _ => keeps_splitCreate fun _ _ => ⟨rfl, [], by simp, by simp⟩
  obtain ⟨-, es, hes, hparties⟩ := hkeeps.run h
  rcases settleCapture_run h with ⟨-, hpos, hnot, cp, hcp, hbooked⟩ | ⟨hne, -⟩
  · refine ⟨hnot, hpos, cp, hcp, fun r hr a ha => ?_⟩
    have hmovements : es.map (·.toMovement) = captureMovements t input cp := by
      have := hbooked.movements_eq
      rw [Db.movements, hes, List.map_append] at this
      exact List.append_cancel_left this
    obtain ⟨m, hm, hparty⟩ := mem_capture_share t input hr ha
    rw [← hmovements] at hm
    obtain ⟨e, he, rfl⟩ := List.mem_map.mp hm
    exact hparty ▸ hparties e he
  · exact absurd rfl hne

end Captures

/-! ## Refunds -/

/-- The AVAILABLE credit of the intent is covered, and there is something to reverse. -/
structure Db.Reversible (db : Db) (t intentId : Id) : Prop where
  positive : ∃ m ∈ db.refundable t intentId, 0 < m.amount
  covered : ∀ first ∈ (db.refundable t intentId).head?,
    (((db.refundable t intentId).find? (·.account = .available)).map (·.amount)).getD 0 ≤
      db.accountBalance t .available first.currency

/-- A refund that was not booked before and is covered goes through. -/
theorem settleRefund_books (input : SettleRefundInput) (h : FreshEntries db w)
    (hfresh : db.movements.any (·.isRefundOf t input.refundId) = false) (hr : db.Reversible t input.intentId) :
    ∃ db' w', (settleRefund t input).run db w = (.ok true, db', w') := by
  obtain ⟨m, hm, -⟩ := hr.positive
  obtain ⟨first, rest, hc⟩ := List.exists_cons_of_ne_nil (List.ne_nil_of_mem hm)
  have hcovered := hr.covered first (by rw [hc]; rfl)
  unfold settleRefund
  rw [Transaction.Job.run_transaction]
  suffices hbody : Transaction.Tx.Succeeds (I := Backend) (fun r _ _ => r = true) _ db w by
    obtain ⟨r, db', w', hrun, rfl⟩ := hbody.run
    rw [hrun]
    exact ⟨db', w', rfl⟩
  simp only [bind_eq, pure_eq, succeeds_bind, succeeds_acquire, succeeds_get]
  rw [if_neg (by simpa [Db.movements] using hfresh)]
  simp only [succeeds_bind, succeeds_get, Db.refundable_eq]
  rw [hc] at hcovered ⊢
  simp only [succeeds_bind, accountBalanceCents, succeeds_get]
  rw [if_neg (not_lt.mpr hcovered)]
  simp only [succeeds_bind]
  refine succeeds_forEach (J := FreshEntries) (fun row hrow db₁ w₁ h₁ => ?_) (fun _ _ _ => rfl) h
  refine (succeeds_when _ _).mpr ⟨fun hpos => ?_, fun _ => h₁⟩
  have hnone := db₁.toConfig.hasParty_none
  refine Succeeds.mono (succeeds_post h₁ ⟨rfl, rfl, rfl, rfl, hpos.le, ?_⟩ ⟨hnone, hnone⟩) fun _ _ _ hp => hp.1
  rw [← hc] at hrow
  rintro ⟨hcash, -⟩
  have hcash : row.account = .cash := hcash
  rcases mem_refundedAccounts _ _ _ (List.mem_filter.mp hrow).2 with ha | ha | ha <;> cases ha.symm.trans hcash

end CorpoPay.Settlement
