import CorpoPay.Settlement.Lemmas.Effects

/-!
# Double entry

Whatever is posted, credits and debits of a tenant are equal in each currency, and all readings of a balance agree.
-/

namespace CorpoPay.Settlement

open Transaction.Tx

/-! ## Postings and readings -/

/-- The movements of the postings of several tenants. -/
def postedMovements (ps : List (Id × LedgerPosting)) : List Movement := ps.flatMap fun p => p.2.movements p.1

/-- The postings of a tenant in one currency. -/
def postingsOf (ps : List (Id × LedgerPosting)) (t : Id) (c : Currency) : List LedgerPosting :=
  (ps.filter fun p => p.1 = t ∧ p.2.debit.currency = c).map (·.2)

/-- The legs that `getTenantLedger` reads. -/
def Db.tenantLegs (db : Db) (t : Id) : List LedgerLeg :=
  (oldestFirst (db.ledgerEntries.filter (·.tenantId = t))).map (·.toMovement.leg)

/-- Credits and debits of a tenant in a currency are equal, and four readings of its balances agree. -/
structure Db.Reads (db : Db) (ps : List (Id × LedgerPosting)) (t : Id) (c : Currency) : Prop where
  net : (((db.tenantLegs t).filter (·.currency = c)).map fun leg => delta leg.direction leg.amountCents).sum = 0
  folded : (postingsOf ps t c).foldl applyPosting zeroBalances = computeBalances (db.tenantLegs t) c
  computed : computeBalances (db.tenantLegs t) c = computeBalancesByCurrency (db.tenantLegs t) c
  stored : ∀ a, computeBalancesByCurrency (db.tenantLegs t) c a = db.accountBalance t a c

/-! ## Postings cancel out -/

/-- What a movement adds to all accounts of a tenant in a currency. -/
def Movement.within (m : Movement) (t : Id) (c : Currency) : Int := if m.tenantId = t ∧ m.currency = c then m.delta else 0

/-- Σ credits − Σ debits of a tenant in a currency. -/
def net (ms : List Movement) (t : Id) (c : Currency) : Int := (ms.map (·.within t c)).sum

section Net

variable {t : Id} {c : Currency}

theorem net_append (ms ms' : List Movement) : net (ms ++ ms') t c = net ms t c + net ms' t c := by simp [net]

theorem LedgerPosting.Valid.net_eq {p : LedgerPosting} (h : p.Valid) (t' : Id) : net (p.movements t') t c = 0 := by
  simp only [net, LedgerPosting.movements, List.map_cons, List.map_nil, List.sum_cons, List.sum_nil, add_zero,
    Movement.within, LedgerLeg.movement, Movement.delta, h.debit_direction, h.credit_direction, h.currency, h.amount, delta]
  split_ifs <;> omega

theorem net_posted {ps : List (Id × LedgerPosting)} (h : ∀ p ∈ ps, p.2.Valid) : net (postedMovements ps) t c = 0 := by
  induction ps with
  | nil => rfl
  | cons p ps ih =>
      rw [postedMovements, List.flatMap_cons, net_append, (h p List.mem_cons_self).net_eq, zero_add]
      exact ih fun q hq => h q (List.mem_cons_of_mem _ hq)

theorem tenantLegs_perm (db : Db) (t : Id) :
    (db.tenantLegs t).Perm ((db.movements.filter (·.tenantId = t)).map (·.leg)) := by
  have hrows : (db.movements.filter (·.tenantId = t)).map (·.leg) =
      (db.ledgerEntries.filter (·.tenantId = t)).map (·.toMovement.leg) := by
    simp only [Db.movements, List.filter_map, List.map_map]
    rfl
  rw [hrows]
  exact (List.perm_insertionSort _ _).map _

theorem sum_legs (ms : List Movement) :
    ((((ms.filter (·.tenantId = t)).map (·.leg)).filter (·.currency = c)).map fun leg =>
      delta leg.direction leg.amountCents).sum = net ms t c := by
  induction ms with
  | nil => rfl
  | cons m ms ih =>
      have hnet : net (m :: ms) t c = m.within t c + net ms t c := by simp [net]
      rw [hnet, ← ih, Movement.within]
      by_cases ht : m.tenantId = t <;> by_cases hc : m.currency = c <;> simp [ht, hc, Movement.leg, Movement.delta]

theorem Db.tenantLegs_net (db : Db) : (((db.tenantLegs t).filter (·.currency = c)).map fun leg =>
    delta leg.direction leg.amountCents).sum = net db.movements t c := by
  rw [(((tenantLegs_perm db t).filter _).map _).sum_eq, sum_legs]

theorem isBalanced_iff (db : Db) (t : Id) : isBalanced (db.tenantLegs t) = true ↔ ∀ c, net db.movements t c = 0 := by
  rw [isBalanced, List.all_eq_true]
  constructor
  · intro h c
    rw [← db.tenantLegs_net]
    exact of_decide_eq_true (h c (mem_supportedCurrencies c))
  · intro h c _
    exact decide_eq_true (db.tenantLegs_net.trans (h c))

end Net

/-! ## The readings agree -/

section Readings

variable {t : Id} {c : Currency}

/-- What a posting adds to an account. -/
def LedgerPosting.worth (p : LedgerPosting) (a : LedgerAccount) : Int :=
  (if p.debit.account = a then delta p.debit.direction p.debit.amountCents else 0) +
    if p.credit.account = a then delta p.credit.direction p.credit.amountCents else 0

theorem applyPosting_eq (balances : LedgerAccount → Int) (p : LedgerPosting) (a : LedgerAccount) :
    applyPosting balances p a = balances a + p.worth a := by
  simp only [applyPosting, LedgerPosting.worth, Function.update_apply, eq_comm (a := a)]
  split_ifs <;> simp_all
  omega

/-- The postings in a currency are worth its balance. -/
theorem sum_worth_postingsOf {ps : List (Id × LedgerPosting)} (h : ∀ p ∈ ps, p.2.Valid) (a : LedgerAccount) :
    ((postingsOf ps t c).map (·.worth a)).sum = balance (postedMovements ps) t a c := by
  induction ps with
  | nil => rfl
  | cons p ps ih =>
      have hp := h p List.mem_cons_self
      have hrest := ih fun q hq => h q (List.mem_cons_of_mem _ hq)
      have hmovements : balance (postedMovements (p :: ps)) t a c =
          balance (p.2.movements p.1) t a c + balance (postedMovements ps) t a c := by
        rw [postedMovements, List.flatMap_cons, balance_append]; rfl
      rw [hmovements, ← hrest]
      simp only [postingsOf, List.filter_cons]
      split_ifs with hin <;> simp only [decide_eq_true_eq] at hin
      · rw [List.map_cons, List.map_cons, List.sum_cons, add_left_inj]
        simp [LedgerPosting.worth, LedgerPosting.movements, Movement.on, LedgerLeg.movement, Movement.delta, hin.1, hin.2,
          ← hp.currency]
      · have hzero : balance (p.2.movements p.1) t a c = 0 := by
          simp only [LedgerPosting.movements, balance_cons, balance_nil, Movement.on, LedgerLeg.movement, ← hp.currency]
          rw [if_neg (by tauto), if_neg (by tauto)]
          rfl
        rw [hzero, zero_add]

theorem Db.reads {db : Db} {ps : List (Id × LedgerPosting)} (hvalid : ∀ p ∈ ps, p.2.Valid)
    (hps : db.movements = postedMovements ps) (t : Id) (c : Currency) : db.Reads ps t c where
  net := by rw [db.tenantLegs_net, hps, net_posted hvalid]
  folded := by
    funext a
    rw [Data.foldl_tally applyPosting_eq, sum_worth_postingsOf hvalid, computeBalances_eq, Db.tenantLegs,
      db.ledgerView_balance, hps]
    simp [zeroBalances]
  computed := computeBalances_eq _ _
  stored := fun a => by rw [Db.tenantLegs, db.ledgerView_balance, Db.accountBalance_eq]

end Readings

/-! ## What operations post -/

/-- The ledger grows by balanced postings. -/
def Doubles (db db' : Db) : Prop :=
  ∃ ps : List (Id × LedgerPosting), (∀ p ∈ ps, p.2.Valid) ∧ Appends (postedMovements ps) db db'

theorem Doubles.of_eq {db db' : Db} (h : SameLedger db db') : Doubles db db' := ⟨[], by simp, .of_eq h⟩

theorem Doubles.of_posting {db db' : Db} {t : Id} {p : LedgerPosting} (hp : p.Valid) (h : Appends (p.movements t) db db') :
    Doubles db db' := by
  refine ⟨[(t, p)], fun q hq => ?_, by simpa [postedMovements] using h⟩
  rw [List.mem_singleton.mp hq]
  exact hp

instance : IsPreorder Db Doubles where
  refl := fun _ => .of_eq rfl
  trans := by
    rintro db₁ db₂ db₃ ⟨ps, hvalid, h⟩ ⟨ps', hvalid', h'⟩
    refine ⟨ps ++ ps', fun p hp => ?_, ?_⟩
    · exact (List.mem_append.mp hp).elim (hvalid p) (hvalid' p)
    · rw [postedMovements, List.flatMap_append]
      exact h.trans h'

theorem Doubles.net_eq {db db' : Db} (h : Doubles db db') (t : Id) (c : Currency) :
    net db'.movements t c = net db.movements t c := by
  obtain ⟨ps, hvalid, happ⟩ := h
  rw [happ.movements_eq, net_append, net_posted hvalid, add_zero]

theorem doubles_postings : Postings Doubles where
  post _ := fun _ => ensures_post fun _ hv ha => .of_posting hv ha
  postEntry _ := fun _ => ensures_postEntry fun _ _ hv ha => .of_posting hv ha

theorem doubles_ignoresWallets : IgnoresWallets Doubles := ⟨fun _ _ => .of_eq rfl, fun _ _ => .of_eq rfl⟩

theorem doubles_ignoresTables : IgnoresTables Doubles :=
  ⟨fun _ _ => .of_eq rfl, fun _ _ => .of_eq rfl, fun _ _ => .of_eq rfl, fun _ _ => .of_eq rfl, fun _ _ => .of_eq rfl,
    fun _ _ => .of_eq rfl, fun _ _ _ => .of_eq rfl⟩

theorem operation_doubles (op : Operation) : op.job.Keeps Doubles :=
  keeps_operation doubles_ignoresTables doubles_postings (fun _ => ensures_post fun _ hv ha => .of_posting hv ha) op
    fun _ => doubles_ignoresWallets

/-! ## Runs -/

/-- The postings that calls of `postEntry` wrote, one after the other. A call that fails writes nothing. -/
inductive Journal : List (Id × LedgerPosting) → Db → Prop
  | init (config : Config) : Journal [] (.empty config)
  | configured {ps : List (Id × LedgerPosting)} {db : Db} (config : Config) (h : Journal ps db) :
      Journal ps { db with toConfig := config }
  | written {ps : List (Id × LedgerPosting)} {db db' : Db} {w w' : World} {rows : LedgerEntry × LedgerEntry} (t : Id)
      (p : LedgerPosting) (h : Journal ps db) (hrun : (transaction (postEntry t p)).run db w = (.ok rows, db', w')) :
      Journal (ps ++ [(t, p)]) db'
  | failed {ps : List (Id × LedgerPosting)} {db db' : Db} {w w' : World} {e : Failure} (t : Id) (p : LedgerPosting)
      (h : Journal ps db) (hrun : (transaction (postEntry t p)).run db w = (.error e, db', w')) : Journal ps db'

theorem postEntry_effect (t : Id) (p : LedgerPosting) (db : Db) : (transaction (postEntry t p)).Ensures (fun r db' =>
    match r with
    | .ok _ => p.Valid ∧ Appends (p.movements t) db db'
    | .error _ => db' = db) db := by
  have hpost : (postEntry t p).Ensures (fun _ db' => p.Valid ∧ Appends (p.movements t) db db') (fun _ => True) db :=
    ensures_postEntry fun _ _ hv ha => ⟨hv, ha⟩
  exact hpost.mono (fun _ _ h => h) fun _ _ => rfl

theorem Journal.movements_eq {ps : List (Id × LedgerPosting)} {db : Db} (h : Journal ps db) :
    (∀ p ∈ ps, p.2.Valid) ∧ db.movements = postedMovements ps := by
  induction h with
  | init config => exact ⟨by simp, rfl⟩
  | configured config _ ih => exact ih
  | written t p _ hrun ih =>
      obtain ⟨hvalid, happ⟩ := (postEntry_effect t p _).run _ hrun
      refine ⟨fun q hq => ?_, ?_⟩
      · rcases List.mem_append.mp hq with hq | hq
        · exact ih.1 q hq
        · rw [List.mem_singleton.mp hq]
          exact hvalid
      · rw [happ.movements_eq, ih.2]
        simp [postedMovements]
  | failed t p _ hrun ih =>
      obtain rfl := (postEntry_effect t p _).run _ hrun
      exact ih

theorem Reached.doubles {db : Db} (h : Reached db) : ∃ config, Doubles (.empty config) db := by
  induction h with
  | init config => exact ⟨config, .of_eq rfl⟩
  | step op _ hrun ih =>
      obtain ⟨config, hdb⟩ := ih
      exact ⟨config, trans_of Doubles hdb ((operation_doubles op _).run _ hrun)⟩

/-- Double entry, for all that is posted and through every operation. -/
theorem double_entry :
    (∀ ps db, Journal ps db → ∀ t, isBalanced (db.tenantLegs t) = true ∧ ∀ c, db.Reads ps t c) ∧
    (∀ db, Reached db → ∃ ps, (∀ p ∈ ps, posting p.2.debit p.2.credit p.2.source = .ok p.2) ∧
      ∀ t, isBalanced (db.tenantLegs t) = true ∧ ∀ c, db.Reads ps t c) ∧
    ∀ (op : Operation) (db : Db) (t : Id), isBalanced (db.tenantLegs t) = true →
      op.job.Ensures (fun _ (db' : Db) => isBalanced (db'.tenantLegs t) = true) db := by
  have hreads : ∀ ps (db : Db), (∀ p ∈ ps, p.2.Valid) → db.movements = postedMovements ps →
      ∀ t, isBalanced (db.tenantLegs t) = true ∧ ∀ c, db.Reads ps t c := by
    intro ps db hvalid hps t
    exact ⟨(isBalanced_iff db t).mpr fun c => by rw [hps, net_posted hvalid], Db.reads hvalid hps t⟩
  refine ⟨fun ps db h => hreads ps db h.movements_eq.1 h.movements_eq.2, fun db h => ?_, fun op db t h => ?_⟩
  · obtain ⟨config, ps, hvalid, happ⟩ := h.doubles
    exact ⟨ps, fun p hp => posting_self (hvalid p hp), hreads ps db hvalid happ.movements_eq⟩
  · refine (operation_doubles op db).mono fun _ db' hdoubles => (isBalanced_iff db' t).mpr fun c => ?_
    rw [hdoubles.net_eq, (isBalanced_iff db t).mp h]

/-- A customer pays 10.00 USD. -/
def cashPosting : LedgerPosting :=
  ⟨debit .cash 1000 .capture none .usd, credit .collected 1000 .capture none .usd, ⟨some .paymentIntent, some 7⟩⟩

/-- 2.00 USD of it are a fee. -/
def feePosting : LedgerPosting :=
  ⟨debit .collected 200 .fee none .usd, credit .fees 200 .fee none .usd, ⟨some .paymentIntent, some 7⟩⟩

/-- Another one pays 5.00 MAD. -/
def dirhamPosting : LedgerPosting :=
  ⟨debit .cash 500 .capture none .mad, credit .collected 500 .capture none .mad, ⟨some .paymentIntent, some 8⟩⟩

/-- No entry has a negative amount. -/
def negativePosting : LedgerPosting :=
  ⟨debit .cash (-1) .capture none .mad, credit .collected (-1) .capture none .mad, ⟨none, none⟩⟩

theorem double_entry_cash :
    (∃ db, Journal [(1, cashPosting), (1, feePosting), (1, dirhamPosting), (2, cashPosting)] db ∧
      isBalanced (db.tenantLegs 1) = true ∧ db.accountBalance 1 .collected .usd = 800 ∧
        ∀ c, db.Reads [(1, cashPosting), (1, feePosting), (1, dirhamPosting), (2, cashPosting)] 1 c) ∧
      (Operation.settleCapture 1 plainCapture).job.Ensures (fun _ (db' : Db) => isBalanced (db'.tenantLegs 1) = true)
        (.empty plainConfig) := by
  refine ⟨?_, double_entry.2.2 (.settleCapture 1 plainCapture) (.empty plainConfig) 1 (by decide)⟩
  have hpaid := (Journal.init plainConfig).written (w := .counting) 1 cashPosting rfl
  have hrefused := hpaid.failed (w := { World.counting with clock := 10 }) 1 negativePosting rfl
  have hfee := hrefused.written (w := { World.counting with clock := 20 }) 1 feePosting rfl
  have hdirham := hfee.written (w := { World.counting with clock := 30 }) 1 dirhamPosting rfl
  have hother := hdirham.written (w := { World.counting with clock := 40 }) 2 cashPosting rfl
  have hentry := double_entry.1 _ _ hother 1
  exact ⟨_, hother, hentry.1, by decide, hentry.2⟩

end CorpoPay.Settlement
