import CorpoPay.Settlement.Lemmas.ChangeBalance
import CorpoPay.Settlement.Operations

/-!
# Main theorem: running balances

`postEntry` reads the balances of both accounts before it writes either row. Each row then shows the balance after its
own leg. It is the balance after the posting when the other leg is on another account.
-/

namespace CorpoPay.Settlement

open Transaction.Tx

/-! ## Calls one after the other -/

/-- A call of `postEntry` and the two rows that it stored. -/
structure StoredPosting where
  tenantId : Id
  posting : LedgerPosting
  debitRow : LedgerEntry
  creditRow : LedgerEntry
  deriving Repr

def StoredPosting.rows (s : StoredPosting) : List LedgerEntry := [s.debitRow, s.creditRow]

def StoredPosting.call (s : StoredPosting) : Id × LedgerPosting := (s.tenantId, s.posting)

/-- Each call is a transaction of its own: what it stored is kept, or nothing of it is. -/
def postAll : List (Id × LedgerPosting) → Db → World → List StoredPosting × Db × World
  | [], db, w => ([], db, w)
  | (t, p) :: calls, db, w =>
      match (postEntry t p).run db w with
      | (.ok (rows, db'), w') =>
          let rest := postAll calls db' w'
          (⟨t, p, rows.1, rows.2⟩ :: rest.1, rest.2)
      | (.error _, w') => postAll calls db w'

/-! ## Snapshots -/

/-- The snapshot of a row is the balance that `ms` leaves on its account. -/
def LedgerEntry.ShowsBalance (row : LedgerEntry) (ms : List Movement) : Prop :=
  row.balanceAfter = balance ms row.tenantId row.account row.currency

/-- Each row shows the balance after the earlier postings and every leg of its own. -/
def RunningBalances (earlier : List Movement) : List StoredPosting → Prop
  | [] => True
  | s :: stored =>
      let after := earlier ++ s.rows.map (·.toMovement)
      (∀ row ∈ s.rows, row.ShowsBalance after) ∧ RunningBalances after stored

instance (row : LedgerEntry) (ms : List Movement) : Decidable (row.ShowsBalance ms) :=
  inferInstanceAs (Decidable (row.balanceAfter = balance ms row.tenantId row.account row.currency))

instance decidableRunningBalances : (earlier : List Movement) → (stored : List StoredPosting) →
    Decidable (RunningBalances earlier stored)
  | _, [] => isTrue trivial
  | earlier, s :: stored =>
      have := decidableRunningBalances (earlier ++ s.rows.map (·.toMovement)) stored
      inferInstanceAs (Decidable ((∀ row ∈ s.rows, row.ShowsBalance (earlier ++ s.rows.map (·.toMovement))) ∧
        RunningBalances (earlier ++ s.rows.map (·.toMovement)) stored))

/-- The legs of a posting are on different accounts, or move nothing. -/
def LedgerPosting.Apart (p : LedgerPosting) : Prop := p.debit.account ≠ p.credit.account ∨ p.debit.amountCents = 0

/-! ## One call -/

/-- What a call leaves: two rows with the balances before it and their own legs. -/
structure StoredPosting.From (s : StoredPosting) (db db' : Db) : Prop where
  valid : s.posting.Valid
  debit : s.debitRow.toMovement = s.posting.debit.movement s.tenantId s.posting.source
  credit : s.creditRow.toMovement = s.posting.credit.movement s.tenantId s.posting.source
  debitAfter : s.debitRow.balanceAfter =
    db.accountBalance s.tenantId s.posting.debit.account s.posting.debit.currency +
      delta s.posting.debit.direction s.posting.debit.amountCents
  creditAfter : s.creditRow.balanceAfter =
    db.accountBalance s.tenantId s.posting.credit.account s.posting.debit.currency +
      delta s.posting.credit.direction s.posting.credit.amountCents
  entries : db'.ledgerEntries = db.ledgerEntries ++ s.rows

section Call

variable {t : Id} {p : LedgerPosting} {db db' : Db} {s : StoredPosting}

theorem postEntry_from (t : Id) (p : LedgerPosting) (db : Db) : (postEntry t p).Ensures
    (fun rows db' => (⟨t, p, rows.1, rows.2⟩ : StoredPosting).From db db') (fun _ => True) db := by
  simp only [postEntry, bind_eq, pure_eq, ensures_bind, accountBalanceCents, ensures_get, ensures_acquire, ensures_ret]
  refine (ensures_lift _).mpr ⟨fun p' hp postingId => ?_, fun _ _ => trivial⟩
  obtain ⟨rfl, hv⟩ := posting_eq_ok.mp hp
  refine ensures_create_row fun d hd hdafter _ => ensures_create_row fun c hc hcafter _ => ?_
  exact ⟨hv, hd, hc, hdafter, hcafter, List.append_assoc ..⟩

theorem StoredPosting.From.movements (h : s.From db db') : s.rows.map (·.toMovement) = s.posting.movements s.tenantId := by
  simp only [rows, List.map_cons, List.map_nil, h.debit, h.credit, LedgerPosting.movements]

/-- The balance of an account after the posting. -/
theorem StoredPosting.From.balance_after (h : s.From db db') (account : LedgerAccount) :
    balance (db.movements ++ s.rows.map (·.toMovement)) s.tenantId account s.posting.debit.currency =
      db.accountBalance s.tenantId account s.posting.debit.currency +
        ((if s.posting.debit.account = account then -s.posting.debit.amountCents else 0) +
          if s.posting.credit.account = account then s.posting.debit.amountCents else 0) := by
  have hv := h.valid
  rw [balance_append, h.movements, ← Db.accountBalance_eq]
  simp only [LedgerPosting.movements, LedgerLeg.movement, balance_cons, balance_nil, Movement.on, Movement.delta,
    hv.debit_direction, hv.credit_direction, ← hv.currency, ← hv.amount, delta, true_and, and_true, add_zero]

/-- Both rows show the balance after the posting exactly when its legs are apart. -/
theorem StoredPosting.From.showsBalance_iff (h : s.From db db') :
    (∀ row ∈ s.rows, row.ShowsBalance (db.movements ++ s.rows.map (·.toMovement))) ↔ s.posting.Apart := by
  have hv := h.valid
  have hdebit : s.debitRow.ShowsBalance (db.movements ++ s.rows.map (·.toMovement)) ↔ s.posting.Apart := by
    have hrow : s.debitRow.tenantId = s.tenantId ∧ s.debitRow.account = s.posting.debit.account ∧
        s.debitRow.currency = s.posting.debit.currency := by simp [h.debit, LedgerLeg.movement]
    rw [LedgerEntry.ShowsBalance, hrow.1, hrow.2.1, hrow.2.2, h.balance_after, h.debitAfter, hv.debit_direction,
      LedgerPosting.Apart, if_pos rfl, delta]
    split_ifs with heq
    · simp [heq]
    · simp [Ne.symm heq]
  have hcredit : s.creditRow.ShowsBalance (db.movements ++ s.rows.map (·.toMovement)) ↔ s.posting.Apart := by
    have hrow : s.creditRow.tenantId = s.tenantId ∧ s.creditRow.account = s.posting.credit.account ∧
        s.creditRow.currency = s.posting.debit.currency := by simp [h.credit, LedgerLeg.movement, hv.currency]
    rw [LedgerEntry.ShowsBalance, hrow.1, hrow.2.1, hrow.2.2, h.balance_after, h.creditAfter, hv.credit_direction,
      ← hv.amount, LedgerPosting.Apart, if_pos rfl, delta]
    split_ifs with heq
    · simp [heq]
    · simp [heq]
  simp only [StoredPosting.rows, List.mem_cons, List.not_mem_nil, or_false, forall_eq_or_imp, forall_eq] at hdebit hcredit ⊢
  rw [hdebit, hcredit, and_self]

end Call

/-- Main theorem: a sequence of calls appends the rows of the postings that it stores, and the snapshots of these rows are
running balances if and only if each of these postings has its legs on different accounts or moves nothing. -/
theorem runningBalances_iff (calls : List (Id × LedgerPosting)) (db : Db) (w : World) :
    (postAll calls db w).2.1.ledgerEntries = db.ledgerEntries ++ (postAll calls db w).1.flatMap StoredPosting.rows ∧
      ((postAll calls db w).1.map StoredPosting.call).Sublist calls ∧
      (RunningBalances db.movements (postAll calls db w).1 ↔ ∀ s ∈ (postAll calls db w).1, s.posting.Apart) := by
  induction calls generalizing db w with
  | nil => exact ⟨(List.append_nil _).symm, .refl _, by simp [postAll, RunningBalances]⟩
  | cons call calls ih =>
      obtain ⟨t, p⟩ := call
      rw [postAll]
      rcases hrun : (postEntry t p).run db w with ⟨_ | ⟨rows, db'⟩, w'⟩
      · obtain ⟨hentries, hcalls, hiff⟩ := ih db w'
        exact ⟨hentries, hcalls.cons _, hiff⟩
      · have hstored := ((postEntry_from t p db).run w).1 _ _ _ hrun
        have hmovements : db'.movements = db.movements ++ (StoredPosting.rows ⟨t, p, rows.1, rows.2⟩).map (·.toMovement) := by
          rw [Db.movements, hstored.entries, List.map_append, Db.movements]
        obtain ⟨hentries, hcalls, hiff⟩ := ih db' w'
        refine ⟨?_, hcalls.cons_cons _, ?_⟩
        · rw [hentries, hstored.entries, List.flatMap_cons, List.append_assoc]
        · rw [RunningBalances, List.forall_mem_cons, ← hmovements, hiff, hmovements, hstored.showsBalance_iff]

/-- A split of 5.00 out of AVAILABLE whose beneficiary keeps it in AVAILABLE. -/
def shareOfAvailable : LedgerPosting :=
  ⟨debit .available 500 .split none .mad, credit .available 500 .split (some 5) .mad, ⟨none, none⟩⟩

/-- AVAILABLE stays at nothing, and its rows show -5.00 and 5.00. -/
theorem not_runningBalances :
    ¬ ∀ calls db w, RunningBalances db.movements (postAll calls db w).1 := by
  intro h
  have hrun := h [(1, shareOfAvailable)] (.empty { plainConfig with splitParties := [{ id := 5, tenantId := 1 }] }) .counting
  revert hrun
  decide +kernel

end CorpoPay.Settlement
