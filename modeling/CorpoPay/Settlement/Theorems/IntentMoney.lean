import CorpoPay.Settlement.Lemmas.Wallets

/-!
# The money of an intent enters once

A capture looks for a capture of its intent and a top-up looks for nothing. When no call for an intent comes after its
money is in, CASH is debited once for it.
-/

namespace CorpoPay.Settlement

/-! ## What enters for an intent -/

/-- The call brings in the money of the intent. -/
def Operation.names (t intentId : Id) : Operation → Bool
  | .settleCapture t' input => t' = t ∧ input.intentId = intentId
  | .topUpWallet t' _ _ paymentIntentId => t' = t ∧ paymentIntentId = some intentId
  | _ => false

def Movement.isCashDebit (m : Movement) : Bool := m.account = .cash ∧ m.direction = .debit

/-- The CASH debits that were posted between two states. -/
def cashDebits (db db' : Db) : List Movement := (db'.movements.drop db.movements.length).filter (·.isCashDebit)

/-- A run whose steps meet a condition, with the CASH debits of the calls for the intent. -/
inductive CashRun (cond : Operation → Db → Prop) (t intentId : Id) : List Movement → Db → Prop
  | init (config : Config) : CashRun cond t intentId [] (.empty config)
  | step {entered : List Movement} {db db' : Db} {w w' : World} {r : Except Failure Unit} (op : Operation)
      (h : CashRun cond t intentId entered db) (hcond : cond op db) (hrun : op.job.run db w = (r, db', w')) :
      CashRun cond t intentId (entered ++ if op.names t intentId then cashDebits db db' else []) db'

/-- A top-up was recorded for the intent. -/
def Db.isToppedUp (db : Db) (t intentId : Id) : Bool :=
  db.walletTransactions.any fun r => r.tenantId = t ∧ r.sourceType = .paymentIntent ∧ r.sourceId = intentId

/-- The money of the intent is not in yet. -/
def Db.Awaits (db : Db) (t intentId : Id) : Prop := db.isCaptured t intentId = false ∧ db.isToppedUp t intentId = false

/-- A call for the intent that is accepted comes before any money is in, and carries the amount of the intent. -/
def Operation.EntersOnce (t intentId : Id) (amount : Int) (currency : Currency) (db : Db) : Operation → Prop
  | .settleCapture t' input => t' = t → input.intentId = intentId → 0 < input.amountCents →
      (∃ cp, capturePlan db.toConfig t input = .ok cp) → db.isCaptured t intentId = false →
        db.isToppedUp t intentId = false ∧ input.amountCents = amount ∧ input.captureCurrency = currency
  | .topUpWallet t' id amountCents paymentIntentId => t' = t → paymentIntentId = some intentId →
      ∀ fee wallet, db.TopUp t id amountCents fee wallet →
        db.Awaits t intentId ∧ amountCents = amount ∧ wallet.currency = currency
  | _ => True

/-! ## One call -/

section Step

variable {t t' intentId id : Id} {db db' : Db}

theorem cashDebits_append {ms : List Movement} (h : db'.movements = db.movements ++ ms) :
    cashDebits db db' = ms.filter (·.isCashDebit) := by rw [cashDebits, h, List.drop_left]

theorem Spares.cashDebits {ms : List Movement} (h : Spares .cash ms) : ms.filter (·.isCashDebit) = [] :=
  List.filter_eq_nil_iff.mpr fun m hm hc => h m hm (of_decide_eq_true hc).1

theorem cashDebits_capture {input : SettleCaptureInput} {cp : CapturePlan} :
    (captureMovements t input cp).filter (·.isCashDebit) =
      [(debit .cash input.amountCents .capture none input.captureCurrency).movement t input.source] := by
  obtain ⟨rest, hrest, heq⟩ := spares_captureRest (a := .cash) (.inr rfl)
  rw [heq, List.filter_append, hrest.cashDebits]
  rfl

theorem cashDebits_topUp {amount fee : Int} {wallet : Wallet} :
    (topUpMovements t amount fee wallet).filter (·.isCashDebit) =
      [(debit .cash amount .capture none wallet.currency).movement t wallet.source] := by
  have hfee : Spares .cash (walletFeeMovements t wallet .wallet fee) :=
    spares_positive (by simp [debit]) (by simp [credit])
  rw [topUpMovements, List.filter_append, hfee.cashDebits]
  rfl

theorem isCaptured_append {ms : List Movement} (h : db'.movements = db.movements ++ ms)
    (hc : db.isCaptured t intentId = true) : db'.isCaptured t intentId = true := by
  rw [Db.isCaptured, h, List.any_append]
  exact Bool.or_eq_true_iff.mpr (.inl hc)

theorem isToppedUp_append {rows : List WalletTransaction} (h : db'.walletTransactions = db.walletTransactions ++ rows)
    (ht : db.isToppedUp t intentId = true) : db'.isToppedUp t intentId = true := by
  rw [Db.isToppedUp, h, List.any_append]
  exact Bool.or_eq_true_iff.mpr (.inl ht)

/-- What is in stays in. -/
theorem WalletStep.awaits (h : WalletStep db db') (hafter : db'.Awaits t intentId) : db.Awaits t intentId := by
  have hstays : (db.isCaptured t intentId = true → db'.isCaptured t intentId = true) ∧
      (db.isToppedUp t intentId = true → db'.isToppedUp t intentId = true) := by
    cases h with
    | spared hsame hm => exact ⟨isCaptured_append hm, isToppedUp_append (hsame.2.trans (List.append_nil _).symm)⟩
    | created hnew =>
        obtain ⟨wallet, -, -, rfl⟩ := hnew
        exact ⟨id, id⟩
    | moved hm => exact ⟨isCaptured_append hm.movements, isToppedUp_append hm.transactions⟩
  exact ⟨Bool.eq_false_iff.mpr fun hc => Bool.eq_false_iff.mp hafter.1 (hstays.1 hc),
    Bool.eq_false_iff.mpr fun hc => Bool.eq_false_iff.mp hafter.2 (hstays.2 hc)⟩

/-- A call for the intent posts one CASH debit, or nothing. Money that was in already is the only other case. -/
theorem Operation.enters {amount : Int} {currency : Currency} {op : Operation} (hnames : op.names t intentId = true)
    (hcond : op.EntersOnce t intentId amount currency db) : op.job.Ensures (fun _ (db' : Db) => cashDebits db db' = [] ∨
      db.Awaits t intentId ∧ ¬ db'.Awaits t intentId ∧
        ∃ m, cashDebits db db' = [m] ∧ m.amount = amount ∧ m.currency = currency) db := by
  cases op with
  | settleCapture t' input =>
      obtain ⟨rfl, rfl⟩ := of_decide_eq_true hnames
      refine ensures_discard ((settleCapture_effect _ input db).mono fun _ db' h => ?_)
      rcases h with rfl | ⟨cp, hc⟩
      · exact .inl (cashDebits_append (List.append_nil _).symm)
      · obtain ⟨htoppedUp, hamount, hcurrency⟩ := hcond rfl rfl hc.pos ⟨cp, hc.plan⟩ hc.fresh
        refine .inr ⟨⟨hc.fresh, htoppedUp⟩, fun hawaits => ?_, _, (cashDebits_append hc.booked.movements).trans cashDebits_capture,
          hamount, hcurrency⟩
        have hin : db'.isCaptured t' input.intentId = true := by
          rw [Db.isCaptured, hc.booked.movements, List.any_append, any_capture]
          simp
        rw [hawaits.1] at hin
        cases hin
  | topUpWallet t' id amountCents paymentIntentId =>
      obtain ⟨rfl, rfl⟩ := of_decide_eq_true hnames
      refine ensures_discard ((topUpWallet_moves amountCents _).mono fun _ db' h => ?_)
      rcases h with rfl | ⟨fee, wallet, row, htopUp, hsource, hmoved⟩
      · exact .inl (cashDebits_append (List.append_nil _).symm)
      · obtain ⟨hawaits, hamount, hcurrency⟩ := hcond rfl rfl fee wallet htopUp
        obtain ⟨htype, hid⟩ := hsource intentId rfl
        refine .inr ⟨hawaits, fun hafter => ?_, _, (cashDebits_append hmoved.movements).trans cashDebits_topUp, hamount,
          hcurrency⟩
        have hin : db'.isToppedUp t' intentId = true := by
          rw [Db.isToppedUp, hmoved.transactions, List.any_append]
          simp [hmoved.tenant, htype, hid]
        rw [hafter.2] at hin
        cases hin
  | _ => cases hnames

end Step

/-! ## Runs -/

/-- One CASH debit at most, of the amount of the intent. -/
theorem cash_enters_once {t intentId : Id} {amount : Int} {currency : Currency} {entered : List Movement} {db : Db}
    (h : CashRun (fun op db => op.EntersOnce t intentId amount currency db) t intentId entered db) :
    entered.length ≤ 1 ∧ ∀ m ∈ entered, m.amount = amount ∧ m.currency = currency := by
  have hrun : (entered = [] ∨ ¬ db.Awaits t intentId) ∧ entered.length ≤ 1 ∧
      ∀ m ∈ entered, m.amount = amount ∧ m.currency = currency := by
    induction h with
    | init config => simp
    | @step entered db db' w w' r op _ hcond hstep ih =>
        obtain ⟨hempty, hone, hall⟩ := ih
        have hawaits : db'.Awaits t intentId → db.Awaits t intentId := ((op.walletStep db).run _ hstep).awaits
        have hsame : (entered = [] ∨ ¬ db'.Awaits t intentId) ∧ entered.length ≤ 1 ∧
            ∀ m ∈ entered, m.amount = amount ∧ m.currency = currency :=
          ⟨hempty.imp_right fun h hafter => h (hawaits hafter), hone, hall⟩
        split_ifs with hnames
        · rcases (op.enters hnames hcond).run _ hstep with hnone | ⟨hbefore, hafter, m, hm, hamount⟩
          · rw [hnone, List.append_nil]
            exact hsame
          · have hnil : entered = [] := hempty.resolve_right fun h => h hbefore
            rw [hm, hnil]
            refine ⟨.inr hafter, le_rfl, fun m' hm' => ?_⟩
            rw [List.mem_singleton.mp hm']
            exact hamount
        · rw [List.append_nil]
          exact hsame
  exact hrun.2

/-- The CASH debits of the calls for the intent when the operations run one after the other. -/
def enteredBy (t intentId : Id) : List Operation → Db → World → List Movement
  | [], _, _ => []
  | op :: ops, db, w =>
      (if op.names t intentId then cashDebits db (op.job.run db w).2.1 else []) ++
        enteredBy t intentId ops (op.job.run db w).2.1 (op.job.run db w).2.2

theorem CashRun.execute {cond : Operation → Db → Prop} {t intentId : Id} (ops : List Operation) {entered : List Movement}
    {db : Db} (h : CashRun cond t intentId entered db) (w : World) (hmeets : Meets cond ops db w) :
    CashRun cond t intentId (entered ++ enteredBy t intentId ops db w) (Settlement.execute ops db w).1 := by
  induction ops generalizing entered db w with
  | nil => rwa [enteredBy, List.append_nil]
  | cons op ops ih =>
      rw [enteredBy, ← List.append_assoc]
      exact ih (h.step op hmeets.1 rfl) _ hmeets.2

/-- A wallet, and the calls that could bring in the 10.00 of the intent 7. -/
def paidTwice : List Operation :=
  [.createWallet 1 .customer "c" none, .topUpWallet 1 0 1000 (some 7), .settleCapture 1 plainCapture]

/-- A webhook and its duplicate, and a top-up of a wallet that is not there. -/
def deliveredTwice : List Operation :=
  [.createWallet 1 .customer "c" none, .settleCapture 1 plainCapture, .settleCapture 1 plainCapture,
    .topUpWallet 1 99 1000 (some 7)]

/-- The second capture of the intent finds the first one, and the top-up finds no wallet. -/
theorem cash_enters_once_deliveredTwice :
    (enteredBy 1 7 deliveredTwice (.empty plainConfig) .counting).length = 1 ∧
      ∀ m ∈ enteredBy 1 7 deliveredTwice (.empty plainConfig) .counting, m.amount = 1000 ∧ m.currency = .mad := by
  have hmeets : Meets (fun op db => op.EntersOnce 1 7 1000 .mad db) deliveredTwice (.empty plainConfig) .counting := by
    refine ⟨trivial, fun _ _ _ _ _ => ⟨by decide +kernel, rfl, rfl⟩, fun _ _ _ _ hnew => ?_, fun _ _ fee wallet htopUp => ?_,
      trivial⟩
    · exact absurd hnew (by decide +kernel)
    · exact absurd (Option.isSome_of_eq_some htopUp.found) (by decide +kernel)
  exact ⟨by decide +kernel, (cash_enters_once ((CashRun.init plainConfig).execute _ .counting hmeets)).2⟩

/-- The money of the top-up is captured once more. -/
theorem cash_enters_twice : ¬ ∀ entered db, CashRun (fun op _ => op ∈ paidTwice) 1 7 entered db → entered.length ≤ 1 := by
  intro h
  have hmeets : Meets (fun op _ => op ∈ paidTwice) paidTwice (.empty plainConfig) .counting :=
    ⟨by simp [paidTwice], by simp [paidTwice], by simp [paidTwice], trivial⟩
  have hrun := h _ _ ((CashRun.init plainConfig).execute paidTwice .counting hmeets)
  exact absurd hrun (by decide +kernel)

end CorpoPay.Settlement
