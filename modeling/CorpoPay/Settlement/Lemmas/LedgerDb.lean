import CorpoPay.Settlement.Lemmas.Balance
import CorpoPay.Settlement.SettlementDb
import CorpoPay.Transaction.Frame

/-!
# What `postEntry` does to the tables

It appends the two movements of its posting and leaves every other table as it was.
-/

namespace CorpoPay.Settlement

open Transaction.Tx

/-! ## Appended rows -/

def Db.entryIds (db : Db) : List Id := db.ledgerEntries.map (·.id)

/-- The ledger grows by rows with the movements `ms`. Unique ids stay unique. -/
def Appends (ms : List Movement) (db db' : Db) : Prop :=
  ∃ es : List LedgerEntry, es.map (·.toMovement) = ms ∧ db'.ledgerEntries = db.ledgerEntries ++ es ∧
    (db.entryIds.Nodup → db'.entryIds.Nodup)

theorem Appends.refl (db : Db) : Appends [] db db := ⟨[], rfl, by simp, id⟩

theorem Appends.trans {ms ms' : List Movement} {db₁ db₂ db₃ : Db} (h : Appends ms db₁ db₂)
    (h' : Appends ms' db₂ db₃) : Appends (ms ++ ms') db₁ db₃ := by
  obtain ⟨es, rfl, he, hn⟩ := h
  obtain ⟨es', rfl, he', hn'⟩ := h'
  exact ⟨es ++ es', by simp, by rw [he', he, List.append_assoc], fun hd => hn' (hn hd)⟩

theorem Appends.movements_eq {ms : List Movement} {db db' : Db} (h : Appends ms db db') :
    db'.movements = db.movements ++ ms := by
  obtain ⟨es, rfl, he, -⟩ := h
  simp [Db.movements, he]

theorem Appends.balance_eq {ms : List Movement} {db db' : Db} (h : Appends ms db db') (t : Id) (a : LedgerAccount)
    (c : Currency) : balance db'.movements t a c = balance db.movements t a c + balance ms t a c := by
  rw [h.movements_eq, balance_append]

/-- Nothing is posted. -/
def SameLedger (db db' : Db) : Prop := db'.ledgerEntries = db.ledgerEntries

instance : IsPreorder Db SameLedger where
  refl := fun _ => rfl
  trans := fun _ _ _ h h' => Eq.trans h' h

/-- A change of another table appends nothing. -/
theorem Appends.of_eq {db db' : Db} (h : SameLedger db db') : Appends [] db db' :=
  ⟨[], rfl, (show db'.ledgerEntries = _ from h).trans (by simp),
    fun hn => by rwa [Db.entryIds, show db'.ledgerEntries = _ from h]⟩

/-! ## Specifications -/

variable {E : Failure → Prop}

/-- One row is added, with an id of its own. -/
theorem ensures_create_row {m : Movement} {postingId : Id} {balanceAfter : Int} {db : Db} {Q : LedgerEntry → Db → Prop}
    (h : ∀ row, row.toMovement = m → row.balanceAfter = balanceAfter → (∀ e ∈ db.ledgerEntries, e.id ≠ row.id) →
      Q row { db with ledgerEntries := db.ledgerEntries ++ [row] }) :
    (LedgerEntry.create m postingId balanceAfter).Ensures Q (fun _ => True) db := by
  simp only [LedgerEntry.create, bind_eq, pure_eq, ensures_bind, ensures_get, ensures_ite, ensures_throw,
    ensures_modify, ensures_ret, implies_true, true_and]
  exact fun id createdAt hid _ => h _ rfl rfl (by simpa using hid)

theorem ensures_create {m : Movement} {postingId : Id} {balanceAfter : Int} {db : Db}
    {Q : LedgerEntry → Db → Prop}
    (h : ∀ row db', row.toMovement = m → row.balanceAfter = balanceAfter → Appends [m] db db' → Q row db') :
    (LedgerEntry.create m postingId balanceAfter).Ensures Q (fun _ => True) db := by
  refine ensures_create_row fun row hm hafter hid => h _ _ hm hafter ⟨[row], by rw [← hm]; rfl, rfl, fun hn => ?_⟩
  simp only [Db.entryIds, List.map_append, List.map_cons, List.map_nil]
  exact List.nodup_append.mpr ⟨hn, by simp, by simpa using hid⟩

theorem ensures_postEntry {tenantId : Id} {p : LedgerPosting} {db : Db} {Q : LedgerEntry × LedgerEntry → Db → Prop}
    (h : ∀ rows db', p.Valid → Appends (p.movements tenantId) db db' → Q rows db') :
    (postEntry tenantId p).Ensures Q (fun _ => True) db := by
  simp only [postEntry, bind_eq, pure_eq, ensures_bind, accountBalanceCents, ensures_get,
    ensures_acquire, ensures_ret]
  refine (ensures_lift _).mpr ⟨fun p' hp postingId => ?_, fun _ _ => trivial⟩
  obtain ⟨rfl, hv⟩ := posting_eq_ok.mp hp
  refine ensures_create fun row₁ db₁ _ _ h₁ => ensures_create fun row₂ db₂ _ _ h₂ => ?_
  exact h _ _ hv (h₁.trans h₂)

/-- The posting is valid and its movements are appended, or the transaction fails. -/
theorem ensures_post {tenantId : Id} {d c : LedgerLeg} {m : Meta} {db : Db} {Q : Unit → Db → Prop}
    (h : ∀ db', (⟨d, c, m⟩ : LedgerPosting).Valid →
      Appends ((⟨d, c, m⟩ : LedgerPosting).movements tenantId) db db' → Q () db') :
    (post tenantId d c m).Ensures Q (fun _ => True) db := by
  simp only [post, bind_eq, pure_eq, ensures_bind, ensures_ret]
  refine (ensures_lift _).mpr ⟨fun p hp => ensures_postEntry fun _ db' hv ha => ?_, fun _ _ => trivial⟩
  obtain ⟨rfl, -⟩ := posting_eq_ok.mp hp
  exact h _ hv ha

/-- The movements of a leg pair that is posted only when its amount is positive. -/
def positiveMovements (tenantId : Id) (amount : Int) (d c : LedgerLeg) (m : Meta) : List Movement :=
  if 0 < amount then (⟨d, c, m⟩ : LedgerPosting).movements tenantId else []

theorem ensures_postPositive {tenantId : Id} {amount : Int} {d c : LedgerLeg} {m : Meta} {db : Db}
    {Q : Unit → Db → Prop}
    (h : ∀ db', Appends (positiveMovements tenantId amount d c m) db db' → Q () db') :
    (postPositive tenantId amount d c m).Ensures Q (fun _ => True) db := by
  unfold postPositive positiveMovements at *
  rw [ensures_when]
  constructor
  · intro hpos
    exact ensures_post fun db' _ ha => h db' (by rwa [if_pos hpos])
  · intro hpos
    exact h db (by rw [if_neg hpos]; exact .refl db)

/-! ## Loops -/

section Loops

variable {α β : Type}

/-- Run alone from any state, the transaction appends exactly `ms`, or it fails. -/
def Books (ms : List Movement) (t : Tx α) : Prop :=
  ∀ db, t.Ensures (fun _ db' => Appends ms db db') (fun _ => True) db

theorem books_post {tenantId : Id} {d c : LedgerLeg} {m : Meta} :
    Books ((⟨d, c, m⟩ : LedgerPosting).movements tenantId) (post tenantId d c m) :=
  fun _ => ensures_post fun _ _ h => h

theorem books_bind {ms ms' : List Movement} {t : Tx α} {f : α → Tx β} (ht : Books ms t)
    (hf : ∀ a, Books ms' (f a)) : Books (ms ++ ms') (t.bind f) := by
  intro db
  rw [ensures_bind]
  exact (ht db).mono (fun a db₁ h₁ => (hf a db₁).mono (fun _ _ h₂ => h₁.trans h₂) fun _ h => h) fun _ h => h

/-- What follows a posting and writes other tables only. -/
theorem books_bind_of_keeps {ms : List Movement} {t : Tx α} {f : α → Tx β} (ht : Books ms t)
    (hf : ∀ a, (f a).Keeps SameLedger) : Books ms (t.bind f) := by
  rw [← List.append_nil ms]
  exact books_bind ht fun a db => (hf a db).mono (fun _ _ hl => .of_eq hl) fun _ h => h

theorem books_collect {f : α → Tx β} {g : α → List Movement} (hf : ∀ a, Books (g a) (f a)) (as : List α) :
    Books (as.flatMap g) (collect f as) := by
  induction as with
  | nil => exact fun db => .refl db
  | cons a as ih =>
      exact books_bind (hf a) fun b => books_bind_of_keeps ih fun bs => keeps_ret (b :: bs)

theorem books_forEach {f : α → Tx Unit} {g : α → List Movement} (hf : ∀ a, Books (g a) (f a)) (as : List α) :
    Books (as.flatMap g) (forEach f as) := by
  induction as with
  | nil => exact fun db => .refl db
  | cons a as ih => exact books_bind (hf a) fun _ => ih

end Loops

/-! ## Frames -/

section Frame

variable {R : Db → Db → Prop} [IsPreorder Db R]

theorem keeps_create {m : Movement} {postingId : Id} {balanceAfter : Int}
    (h : ∀ db es, R db { db with ledgerEntries := es }) :
    (LedgerEntry.create m postingId balanceAfter).Keeps R := by
  refine keeps_bind (keeps_query _) fun id => keeps_bind (keeps_query _) fun createdAt =>
    keeps_bind (keeps_get _) fun _ => keeps_bind (keeps_get _) fun _ => ?_
  split
  · exact keeps_throw _
  · split
    · exact keeps_throw _
    · exact keeps_bind (keeps_modify fun db => h db _) fun _ => keeps_ret _

theorem keeps_postEntry {tenantId : Id} {p : LedgerPosting} (h : ∀ db es, R db { db with ledgerEntries := es }) :
    (postEntry tenantId p).Keeps R :=
  keeps_bind (keeps_lift _) fun _ => keeps_bind (keeps_query _) fun _ => keeps_bind (keeps_acquire _) fun _ =>
    keeps_bind (keeps_get _) fun _ => keeps_bind (keeps_get _) fun _ => keeps_bind (keeps_create h) fun _ =>
      keeps_bind (keeps_create h) fun _ => keeps_ret _

theorem keeps_post {tenantId : Id} {d c : LedgerLeg} {m : Meta} (h : ∀ db es, R db { db with ledgerEntries := es }) :
    (post tenantId d c m).Keeps R :=
  keeps_bind (keeps_lift _) fun _ => keeps_bind (keeps_postEntry h) fun _ => keeps_ret _

/-- Only the ledger is written. -/
def OnlyLedger (db db' : Db) : Prop := db' = { db with ledgerEntries := db'.ledgerEntries }

instance : IsPreorder Db OnlyLedger where
  refl := fun _ => rfl
  trans := by
    intro db₁ db₂ db₃ h h'
    rw [OnlyLedger, h', h]

theorem OnlyLedger.payouts {db db' : Db} (h : OnlyLedger db db') : db'.payouts = db.payouts := by rw [h]

theorem OnlyLedger.payoutItems {db db' : Db} (h : OnlyLedger db db') : db'.payoutItems = db.payoutItems := by rw [h]

theorem keeps_postEntry_only {tenantId : Id} {p : LedgerPosting} : (postEntry tenantId p).Keeps OnlyLedger :=
  keeps_postEntry fun _ _ => rfl

theorem keeps_post_only {tenantId : Id} {d c : LedgerLeg} {m : Meta} : (post tenantId d c m).Keeps OnlyLedger :=
  keeps_post fun _ _ => rfl

end Frame

/-- The rows of a posting are appended and nothing else changes, or the transaction fails. -/
theorem ensures_post_rows {tenantId : Id} {d c : LedgerLeg} {m : Meta} {db : Db} {Q : Unit → Db → Prop}
    (h : ∀ es : List LedgerEntry, es.map (·.toMovement) = (⟨d, c, m⟩ : LedgerPosting).movements tenantId →
      Q () { db with ledgerEntries := db.ledgerEntries ++ es }) :
    (post tenantId d c m).Ensures Q (fun _ => True) db := by
  refine ((books_post db).and (keeps_post_only db)).mono (fun _ db' hdb => ?_) fun _ _ => trivial
  obtain ⟨⟨es, hes, he, -⟩, hsame⟩ := hdb
  have hq := h es hes
  rw [← he] at hq
  rwa [hsame]

theorem ensures_postPositive_rows {tenantId : Id} {amount : Int} {d c : LedgerLeg} {m : Meta} {db : Db}
    {Q : Unit → Db → Prop}
    (h : ∀ es : List LedgerEntry, es.map (·.toMovement) = positiveMovements tenantId amount d c m →
      Q () { db with ledgerEntries := db.ledgerEntries ++ es }) :
    (postPositive tenantId amount d c m).Ensures Q (fun _ => True) db := by
  unfold postPositive positiveMovements at *
  rw [ensures_when]
  constructor
  · intro hpos
    exact ensures_post_rows fun es hes => h es (by rwa [if_pos hpos])
  · intro hpos
    have hq := h [] (by rw [if_neg hpos]; rfl)
    rwa [List.append_nil] at hq

end CorpoPay.Settlement
