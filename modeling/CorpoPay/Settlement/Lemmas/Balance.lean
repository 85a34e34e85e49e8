import Mathlib.Algebra.BigOperators.Group.List.Basic
import Mathlib.Algebra.BigOperators.Pi
import CorpoPay.Data.Tally
import CorpoPay.Settlement.LedgerDb

/-!
# Balances as sums over movements
-/

namespace CorpoPay.Settlement

/-! ## One movement -/

/-- What a movement adds to the balance of an account. -/
def Movement.on (m : Movement) (tenantId : Id) (account : LedgerAccount) (currency : Currency) : Int :=
  if m.tenantId = tenantId ∧ m.account = account ∧ m.currency = currency then m.delta else 0

/-- What a movement adds to the part of an account that belongs to a party, or to the tenant itself. -/
def Movement.onParty (m : Movement) (tenantId : Id) (account : LedgerAccount) (currency : Currency)
    (partyId : Option Id) : Int :=
  if m.partyId = partyId then m.on tenantId account currency else 0

/-! ## Lists of movements -/

def balance (ms : List Movement) (tenantId : Id) (account : LedgerAccount) (currency : Currency) : Int :=
  (ms.map (·.on tenantId account currency)).sum

def partyBalance (ms : List Movement) (tenantId : Id) (account : LedgerAccount) (currency : Currency)
    (partyId : Option Id) : Int :=
  (ms.map (·.onParty tenantId account currency partyId)).sum

section

variable (ms ms' : List Movement) (m : Movement) (t : Id) (a : LedgerAccount) (c : Currency) (p : Option Id)

@[simp] theorem balance_nil : balance [] t a c = 0 := rfl

@[simp] theorem balance_cons : balance (m :: ms) t a c = m.on t a c + balance ms t a c := by simp [balance]

@[simp] theorem balance_append : balance (ms ++ ms') t a c = balance ms t a c + balance ms' t a c := by
  simp [balance]

@[simp] theorem partyBalance_nil : partyBalance [] t a c p = 0 := rfl

@[simp] theorem partyBalance_cons :
    partyBalance (m :: ms) t a c p = m.onParty t a c p + partyBalance ms t a c p := by simp [partyBalance]

@[simp] theorem partyBalance_append :
    partyBalance (ms ++ ms') t a c p = partyBalance ms t a c p + partyBalance ms' t a c p := by
  simp [partyBalance]

end

theorem balance_perm {ms ms' : List Movement} (h : ms.Perm ms') (t : Id) (a : LedgerAccount) (c : Currency) :
    balance ms t a c = balance ms' t a c := (h.map _).sum_eq

theorem balance_flatMap {α : Type} (as : List α) (f : α → List Movement) (t : Id) (a : LedgerAccount)
    (c : Currency) : balance (as.flatMap f) t a c = (as.map fun x => balance (f x) t a c).sum := by
  induction as with
  | nil => rfl
  | cons x as ih => simp [ih]

/-! ## Credits of a kind -/

/-- What a movement credits to a tenant, if it is of the kind. -/
def Movement.credited (m : Movement) (kind : Movement → Bool) (tenantId : Id) (currency : Currency) : Int :=
  if m.tenantId = tenantId ∧ m.currency = currency ∧ m.direction = .credit ∧ kind m then m.amount else 0

def creditTotal (kind : Movement → Bool) (ms : List Movement) (tenantId : Id) (currency : Currency) : Int :=
  (ms.map (·.credited kind tenantId currency)).sum

section

variable (kind : Movement → Bool) (ms ms' : List Movement) (m : Movement) (t : Id) (c : Currency)

@[simp] theorem creditTotal_nil : creditTotal kind [] t c = 0 := rfl

@[simp] theorem creditTotal_cons :
    creditTotal kind (m :: ms) t c = m.credited kind t c + creditTotal kind ms t c := by simp [creditTotal]

@[simp] theorem creditTotal_append :
    creditTotal kind (ms ++ ms') t c = creditTotal kind ms t c + creditTotal kind ms' t c := by simp [creditTotal]

theorem creditTotal_flatMap {α : Type} (as : List α) (f : α → List Movement) :
    creditTotal kind (as.flatMap f) t c = (as.map fun x => creditTotal kind (f x) t c).sum := by
  induction as with
  | nil => rfl
  | cons x as ih => simp [ih]

theorem creditTotal_eq_zero {kind : Movement → Bool} {ms : List Movement} {t : Id} {c : Currency}
    (h : ∀ m ∈ ms, m.tenantId = t → m.direction = .credit → kind m = false) : creditTotal kind ms t c = 0 := by
  refine List.sum_eq_zero fun v hv => ?_
  obtain ⟨m, hm, rfl⟩ := List.mem_map.mp hv
  exact if_neg fun hk => by simp [h m hm hk.1 hk.2.2.1] at hk

theorem creditTotal_nonneg {kind : Movement → Bool} {ms : List Movement} {t : Id} {c : Currency}
    (h : ∀ m ∈ ms, 0 ≤ m.amount) : 0 ≤ creditTotal kind ms t c := by
  refine List.sum_nonneg fun v hv => ?_
  obtain ⟨m, hm, rfl⟩ := List.mem_map.mp hv
  unfold Movement.credited
  split_ifs
  · exact h m hm
  · exact le_refl _

end

/-! ## The balances that the code computes -/

def Db.movements (db : Db) : List Movement := db.ledgerEntries.map (·.toMovement)

theorem sumAmount_sub (rows : List LedgerEntry) :
    sumAmount rows .credit - sumAmount rows .debit = (rows.map (·.toMovement.delta)).sum := by
  induction rows with
  | nil => rfl
  | cons r rows ih =>
      simp only [sumAmount, List.map_cons, List.sum_cons, List.filter_cons] at ih ⊢
      rw [← ih]
      cases hd : r.direction with
      | credit => simp [Movement.delta, delta, hd]; ring
      | debit => simp [Movement.delta, delta, hd]; ring

theorem sum_filter_on (rows : List LedgerEntry) (t : Id) (a : LedgerAccount) (c : Currency) :
    ((rows.filter fun e => e.tenantId = t ∧ e.account = a ∧ e.currency = c).map (·.toMovement.delta)).sum =
      balance (rows.map (·.toMovement)) t a c := by
  induction rows with
  | nil => rfl
  | cons r rows ih =>
      simp only [List.filter_cons, List.map_cons, balance_cons, Movement.on]
      split_ifs with h h' h' <;> simp_all

theorem Db.accountBalance_eq (db : Db) (t : Id) (a : LedgerAccount) (c : Currency) :
    db.accountBalance t a c = balance db.movements t a c := by
  simp only [Db.accountBalance, Db.accountRows, sumAmount_sub]
  exact sum_filter_on _ _ _ _

/-- What a leg adds to the accounts of a currency. -/
def LedgerLeg.worth (leg : LedgerLeg) (currency : Currency) (account : LedgerAccount) : Int :=
  if leg.currency = currency ∧ leg.account = account then delta leg.direction leg.amountCents else 0

/-- The legs of one tenant are worth its balance. -/
theorem sum_worth {ms : List Movement} {t : Id} (h : ∀ m ∈ ms, m.tenantId = t) (c : Currency) (a : LedgerAccount) :
    ((ms.map (·.leg)).map (·.worth c)).sum a = balance ms t a c := by
  induction ms with
  | nil => rfl
  | cons m ms ih =>
      have hm : m.leg.worth c a = m.on t a c := by
        simp only [LedgerLeg.worth, Movement.on, Movement.leg, Movement.delta, h m List.mem_cons_self, true_and]
        exact if_congr and_comm rfl rfl
      rw [List.map_cons, List.map_cons, List.sum_cons, Pi.add_apply, hm, balance_cons,
        ih fun m' hm' => h m' (List.mem_cons_of_mem _ hm')]

theorem computeBalancesByCurrency_worth (legs : List LedgerLeg) (c : Currency) :
    computeBalancesByCurrency legs c = (legs.map (·.worth c)).sum := by
  have hstep : ∀ (balances : Currency → LedgerAccount → Int) (leg : LedgerLeg) (currency : Currency),
      (fun account => if leg.currency = currency ∧ leg.account = account then
          balances currency account + delta leg.direction leg.amountCents else balances currency account) =
        balances currency + leg.worth currency := by
    intro balances leg currency
    funext account
    unfold LedgerLeg.worth
    rw [Pi.add_apply]
    split_ifs <;> simp
  rw [computeBalancesByCurrency, Data.foldl_tally hstep]
  exact zero_add _

theorem computeBalances_eq (legs : List LedgerLeg) (c : Currency) :
    computeBalances legs c = computeBalancesByCurrency legs c := by
  have hone : ∀ (balances : LedgerAccount → Int) (leg : LedgerLeg) (account : LedgerAccount),
      (if leg.currency = c ∧ leg.account = account then balances account + delta leg.direction leg.amountCents
        else balances account) = balances account + leg.worth c account := by
    intro balances leg account
    unfold LedgerLeg.worth
    split_ifs <;> simp
  funext a
  rw [computeBalances, Data.foldl_tally hone, computeBalancesByCurrency_worth]
  rw [Pi.list_sum_apply, List.map_map, zeroBalances, zero_add]
  rfl

/-- The fold of `computeBalancesByCurrency` on rows of one tenant. -/
theorem computeBalancesByCurrency_eq (ms : List Movement) {t : Id} (h : ∀ m ∈ ms, m.tenantId = t)
    (c : Currency) (a : LedgerAccount) :
    computeBalancesByCurrency (ms.map (·.leg)) c a = balance ms t a c := by
  rw [computeBalancesByCurrency_worth, sum_worth h]

theorem balance_filter_tenant (rows : List LedgerEntry) (t : Id) (a : LedgerAccount) (c : Currency) :
    balance ((rows.filter (·.tenantId = t)).map (·.toMovement)) t a c = balance (rows.map (·.toMovement)) t a c := by
  induction rows with
  | nil => rfl
  | cons r rows ih =>
      rw [List.filter_cons]
      split_ifs with h
      · simp [ih]
      · have hr : r.tenantId ≠ t := by simpa using h
        simp [ih, Movement.on, hr]

/-- What `getTenantLedger` reports for an account is its balance. -/
theorem Db.ledgerView_balance (db : Db) (t : Id) (a : LedgerAccount) (c : Currency) :
    computeBalancesByCurrency
        ((oldestFirst (db.ledgerEntries.filter (·.tenantId = t))).map (·.toMovement.leg)) c a =
      balance db.movements t a c := by
  have hp : (oldestFirst (db.ledgerEntries.filter (·.tenantId = t))).Perm (db.ledgerEntries.filter (·.tenantId = t)) :=
    List.perm_insertionSort _ _
  have hmap : (oldestFirst (db.ledgerEntries.filter (·.tenantId = t))).map (·.toMovement.leg) =
      ((oldestFirst (db.ledgerEntries.filter (·.tenantId = t))).map (·.toMovement)).map (·.leg) := by simp
  rw [hmap, computeBalancesByCurrency_eq _ (t := t)]
  · rw [balance_perm (hp.map _), balance_filter_tenant]; rfl
  · intro m hm
    obtain ⟨e, he, rfl⟩ := List.mem_map.mp hm
    simpa using (List.mem_filter.mp (hp.mem_iff.mp he)).2

end CorpoPay.Settlement
