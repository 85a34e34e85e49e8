import CorpoPay.Settlement.Operations
import CorpoPay.Settlement.Statements

/-!
# Main theorem: statements of one currency

The statement of a period reads the legs of every currency. It is that of its own currency when the others had nothing
to say, and statements of adjacent periods chain whatever they add up.
-/

namespace CorpoPay.Settlement

open Data (totals amountsOf lookup_totals)

/-! ## Sums over a history -/

/-- The rows of a tenant. -/
def Db.historyOf (db : Db) (t : Id) : List LedgerEntry := db.ledgerEntries.filter (·.tenantId = t)

/-- The signed AVAILABLE movements of the rows for which `p` holds. -/
def availableWhere (rows : List LedgerEntry) (p : LedgerEntry → Bool) : Int :=
  ((rows.filter fun e => e.account = .available && p e).map fun e => delta e.direction e.amount).sum

/-- The signed AVAILABLE movements before an instant. -/
def availableBefore (rows : List LedgerEntry) (t : Int) : Int := availableWhere rows fun e => e.createdAt < t

/-- The signed AVAILABLE movements from one instant to before another. -/
def availableWithin (rows : List LedgerEntry) (a b : Int) : Int :=
  availableWhere rows fun e => a ≤ e.createdAt ∧ e.createdAt < b

/-- The debits from one instant to before another. -/
def debitsWithin (rows : List LedgerEntry) (a b : Int) : List LedgerEntry :=
  rows.filter fun e => a ≤ e.createdAt ∧ e.createdAt < b ∧ e.direction = .debit

/-- What a debit adds to its category: its amount and one posting. -/
def LedgerEntry.volume (e : LedgerEntry) : LedgerCategory × Int × Nat := (e.category, e.amount, 1)

def volumes (rows : List LedgerEntry) (a b : Int) : List (LedgerCategory × Int × Nat) :=
  (debitsWithin rows a b).map (·.volume)

/-- The statement of a history. -/
def statementOf (rows : List LedgerEntry) (a b : Int) : StatementResult where
  openingBalanceCents := availableBefore rows a
  closingBalanceCents := availableBefore rows b
  netCents := availableBefore rows b - availableBefore rows a
  items := statementItems (totals (volumes rows a b))

section History

variable {rows rows' : List LedgerEntry} {a b d : Int}

theorem availableWhere_cons (e : LedgerEntry) (rows : List LedgerEntry) (p : LedgerEntry → Bool) :
    availableWhere (e :: rows) p =
      (if e.account = .available ∧ p e = true then delta e.direction e.amount else 0) + availableWhere rows p := by
  unfold availableWhere
  by_cases h : e.account = .available ∧ p e = true
  · simp [h]
  · rw [List.filter_cons, if_neg h, if_neg (by simpa using h), zero_add]

theorem volumes_cons (e : LedgerEntry) (rows : List LedgerEntry) (a b : Int) :
    volumes (e :: rows) a b =
      if a ≤ (e.createdAt : Int) ∧ (e.createdAt : Int) < b ∧ e.direction = .debit then e.volume :: volumes rows a b
      else volumes rows a b := by
  unfold volumes debitsWithin
  by_cases h : a ≤ (e.createdAt : Int) ∧ (e.createdAt : Int) < b ∧ e.direction = .debit
  · simp [h]
  · rw [List.filter_cons, if_neg h, if_neg (by simpa using h)]

theorem statementEntry_row (a b : Int) (sums : StatementSums) (e : LedgerEntry) :
    statementEntry a b sums e.toStatementEntry =
      { opening :=
          sums.opening + if e.account = .available ∧ (e.createdAt : Int) < a then delta e.direction e.amount else 0
        closing :=
          sums.closing + if e.account = .available ∧ (e.createdAt : Int) < b then delta e.direction e.amount else 0
        volumeByCategory :=
          if a ≤ (e.createdAt : Int) ∧ (e.createdAt : Int) < b ∧ e.direction = .debit then
            Data.addTotal e.volume.1 e.volume.2 sums.volumeByCategory
          else sums.volumeByCategory } := by
  rw [add_ite, add_ite, add_zero, add_zero]
  rfl

theorem foldl_statementEntry (rows : List LedgerEntry) (a b : Int) (sums : StatementSums) :
    (rows.map (·.toStatementEntry)).foldl (statementEntry a b) sums =
      { opening := sums.opening + availableBefore rows a
        closing := sums.closing + availableBefore rows b
        volumeByCategory :=
          (volumes rows a b).foldl (fun byKey e => Data.addTotal e.1 e.2 byKey) sums.volumeByCategory } := by
  induction rows generalizing sums with
  | nil => simp [availableBefore, availableWhere, volumes, debitsWithin]
  | cons e rows ih =>
      rw [List.map_cons, List.foldl_cons, ih, statementEntry_row, volumes_cons]
      simp only [availableBefore, availableWhere_cons, decide_eq_true_eq, add_assoc, StatementSums.mk.injEq, true_and]
      split_ifs <;> rfl

/-- What `buildStatement` makes of a history. -/
theorem buildStatement_eq (rows : List LedgerEntry) (hab : a < b) :
    buildStatement (rows.map (·.toStatementEntry)) a b = .ok (statementOf rows a b) := by
  rw [buildStatement, if_neg (not_le.mpr hab), foldl_statementEntry, zero_add, zero_add]
  rfl

/-! ## The order of the rows -/

theorem availableWhere_perm (h : rows'.Perm rows) (p : LedgerEntry → Bool) :
    availableWhere rows' p = availableWhere rows p := ((h.filter _).map _).sum_eq

theorem mem_totals_iff {items : List (LedgerCategory × Int × Nat)} {x : LedgerCategory × Int × Nat} :
    x ∈ totals items ↔ (totals items).lookup x.1 = some x.2 := by
  constructor
  · intro h
    refine Data.lookup_of_unique h fun v hv => ?_
    exact congrArg Prod.snd (List.inj_on_of_nodup_map (Data.nodup_totals items) hv h rfl)
  · intro h
    obtain ⟨l₁, l₂, heq, -⟩ := List.lookup_eq_some_iff.mp h
    rw [heq]
    exact List.mem_append_right _ List.mem_cons_self

theorem totals_perm {items items' : List (LedgerCategory × Int × Nat)} (h : items'.Perm items) :
    (totals items').Perm (totals items) := by
  refine (List.perm_ext_iff_of_nodup (List.Nodup.of_map _ (Data.nodup_totals _))
    (List.Nodup.of_map _ (Data.nodup_totals _))).mpr fun x => ?_
  have hamounts : (amountsOf items' x.1).sum = (amountsOf items x.1).sum := ((h.filter _).map _).sum_eq
  rw [mem_totals_iff, mem_totals_iff, lookup_totals, lookup_totals, hamounts]
  simp only [(h.map Prod.fst).mem_iff]

theorem place_injective {c c' : LedgerCategory} (h : c.place = c'.place) : c = c' := by
  revert h
  cases c <;> cases c' <;> decide

theorem StatementItem.before_total (x y : StatementItem) : x.before y ∨ y.before x := Nat.le_total _ _

theorem StatementItem.before_trans {x y z : StatementItem} (h : x.before y) (h' : y.before z) : x.before z :=
  Nat.le_trans h h'

instance : Std.Total StatementItem.before := ⟨StatementItem.before_total⟩

instance : IsTrans StatementItem StatementItem.before := ⟨fun _ _ _ => StatementItem.before_trans⟩

theorem mem_statementItems {items : List (LedgerCategory × Int × Nat)} {item : StatementItem} :
    item ∈ statementItems (totals items) ↔ (item.category, item.amountCents, item.entryCount) ∈ totals items := by
  rw [statementItems, List.mem_insertionSort, List.mem_map]
  exact ⟨fun ⟨v, hv, heq⟩ => heq ▸ hv, fun h => ⟨_, h, rfl⟩⟩

/-- A category has one item. -/
theorem eq_of_category {items : List (LedgerCategory × Int × Nat)} {x y : StatementItem}
    (hx : x ∈ statementItems (totals items)) (hy : y ∈ statementItems (totals items)) (h : x.category = y.category) :
    x = y := by
  have hpair := List.inj_on_of_nodup_map (Data.nodup_totals items) (mem_statementItems.mp hx) (mem_statementItems.mp hy) h
  cases x
  cases y
  simp_all

theorem statementItems_perm {items items' : List (LedgerCategory × Int × Nat)} (h : items'.Perm items) :
    statementItems (totals items') = statementItems (totals items) := by
  have hperm : (statementItems (totals items')).Perm (statementItems (totals items)) :=
    (List.perm_insertionSort _ _).trans (((totals_perm h).map _).trans (List.perm_insertionSort _ _).symm)
  refine hperm.eq_of_pairwise (fun x y hx hy hxy hyx => ?_) (List.pairwise_insertionSort StatementItem.before _)
    (List.pairwise_insertionSort StatementItem.before _)
  exact eq_of_category (hperm.mem_iff.mp hx) hy (place_injective (Nat.le_antisymm hxy hyx))

theorem statementOf_perm (h : rows'.Perm rows) (a b : Int) : statementOf rows' a b = statementOf rows a b := by
  have hitems : statementItems (totals (volumes rows' a b)) = statementItems (totals (volumes rows a b)) :=
    statementItems_perm ((h.filter _).map LedgerEntry.volume)
  simp only [statementOf, availableBefore, availableWhere_perm h, hitems]

/-! ## The volume of a category -/

/-- The amount and the count of a category in the items of a statement. -/
def volumeOf (items : List StatementItem) (category : LedgerCategory) : Int × Nat :=
  ((items.find? (·.category = category)).map fun item => (item.amountCents, item.entryCount)).getD 0

/-- The debits of a category from one instant to before another, added up. -/
def volumeWithin (rows : List LedgerEntry) (category : LedgerCategory) (a b : Int) : Int × Nat :=
  (((debitsWithin rows a b).filter (·.category = category)).map fun e => (e.amount, 1)).sum

theorem volumeOf_statementItems (rows : List LedgerEntry) (a b : Int) (category : LedgerCategory) :
    volumeOf (statementItems (totals (volumes rows a b))) category = volumeWithin rows category a b := by
  have hamounts : (amountsOf (volumes rows a b) category).sum = volumeWithin rows category a b := by
    rw [amountsOf, volumes, List.filter_map, List.map_map]
    rfl
  have hlookup := lookup_totals (volumes rows a b) category
  rw [volumeOf]
  cases hfind : (statementItems (totals (volumes rows a b))).find? (·.category = category) with
  | none =>
      -- without an item nothing is added up
      split_ifs at hlookup with hmem
      · rcases hsum : (amountsOf (volumes rows a b) category).sum with ⟨amount, count⟩
        rw [hsum] at hlookup
        have hitem : (⟨category, amount, count⟩ : StatementItem) ∈ statementItems (totals (volumes rows a b)) :=
          mem_statementItems.mpr (mem_totals_iff.mpr hlookup)
        simpa using List.find?_eq_none.mp hfind _ hitem
      · rw [← hamounts, Data.amountsOf_eq_nil hmem]
        rfl
  | some item =>
      have hcategory : item.category = category := by simpa using List.find?_some hfind
      have hitem := mem_totals_iff.mp (mem_statementItems.mp (List.mem_of_find?_eq_some hfind))
      dsimp only at hitem
      rw [hcategory, hlookup] at hitem
      split_ifs at hitem
      rw [← hamounts, Option.some.inj hitem]
      rfl

/-! ## Adjacent periods -/

theorem availableBefore_add (rows : List LedgerEntry) (hab : a ≤ b) :
    availableBefore rows b = availableBefore rows a + availableWithin rows a b := by
  unfold availableBefore availableWithin availableWhere
  refine Data.sum_filter_or rows _ (fun e => ?_) fun e h => ?_
  · rw [← Bool.and_or_distrib_left]
    congr 1
    simp only [← Bool.decide_or, decide_eq_decide]
    omega
  · simp only [Bool.and_eq_true, decide_eq_true_eq] at h
    omega

theorem volumeWithin_add (rows : List LedgerEntry) (category : LedgerCategory) (hab : a ≤ b) (hbd : b ≤ d) :
    volumeWithin rows category a d = volumeWithin rows category a b + volumeWithin rows category b d := by
  simp only [volumeWithin, debitsWithin, List.filter_filter]
  refine Data.sum_filter_or rows _ (fun e => ?_) fun e h => ?_
  · rw [← Bool.and_or_distrib_left]
    congr 1
    simp only [← Bool.decide_or, decide_eq_decide]
    have htime : (a ≤ (e.createdAt : Int) ∧ (e.createdAt : Int) < d) ↔
        (a ≤ (e.createdAt : Int) ∧ (e.createdAt : Int) < b) ∨ (b ≤ (e.createdAt : Int) ∧ (e.createdAt : Int) < d) := by
      omega
    tauto
  · simp only [Bool.and_eq_true, decide_eq_true_eq] at h
    omega

/-! ## Currencies -/

section Currencies

variable {c : Currency}

/-- The rows in a currency. -/
def inCurrency (c : Currency) (rows : List LedgerEntry) : List LedgerEntry := rows.filter (·.currency = c)

/-- The rows in other currencies. -/
def inOthers (c : Currency) (rows : List LedgerEntry) : List LedgerEntry := rows.filter (·.currency ≠ c)

theorem availableWhere_currencies (c : Currency) (rows : List LedgerEntry) (p : LedgerEntry → Bool) :
    availableWhere rows p = availableWhere (inCurrency c rows) p + availableWhere (inOthers c rows) p := by
  simp only [availableWhere, inCurrency, inOthers, List.filter_filter]
  refine Data.sum_filter_or rows _ (fun e => ?_) fun e h => ?_
  · by_cases he : e.currency = c <;> simp [he]
  · simp only [Bool.and_eq_true, decide_eq_true_eq] at h
    exact h.2.2 h.1.2

/-- Other currencies leave a statement of `c` alone: before the period and within it their AVAILABLE movements cancel, and
within it they debit nothing. -/
structure ForeignSilent (c : Currency) (rows : List LedgerEntry) (a b : Int) : Prop where
  before : availableBefore (inOthers c rows) a = 0
  within : availableWithin (inOthers c rows) a b = 0
  debits : debitsWithin (inOthers c rows) a b = []

theorem debitsWithin_inCurrency (h : debitsWithin (inOthers c rows) a b = []) :
    debitsWithin (inCurrency c rows) a b = debitsWithin rows a b := by
  rw [debitsWithin, List.filter_eq_nil_iff] at h
  unfold debitsWithin inCurrency
  rw [List.filter_filter]
  refine List.filter_congr fun e he => ?_
  by_cases hc : e.currency = c
  · simp [hc]
  · have hout := h e (List.mem_filter.mpr ⟨he, decide_eq_true hc⟩)
    simp only [decide_eq_true_eq] at hout
    simp [hc, hout]

/-- As many debits as in the one currency leave none for the others. -/
theorem debitsWithin_inOthers (h : ∀ category, volumeWithin (inCurrency c rows) category a b = volumeWithin rows category a b) :
    debitsWithin (inOthers c rows) a b = [] := by
  rw [List.eq_nil_iff_forall_not_mem]
  intro e he
  have hsplit : volumeWithin rows e.category a b =
      volumeWithin (inCurrency c rows) e.category a b + volumeWithin (inOthers c rows) e.category a b := by
    simp only [volumeWithin, debitsWithin, inCurrency, inOthers, List.filter_filter]
    refine Data.sum_filter_or rows _ (fun e' => ?_) fun e' h' => ?_
    · by_cases hc : e'.currency = c <;> simp [hc]
    · simp only [Bool.and_eq_true, decide_eq_true_eq] at h'
      exact h'.2.2.2 h'.1.2.2
  rw [← h, left_eq_add] at hsplit
  have hcount : ∀ l : List LedgerEntry, ((l.map fun e => (e.amount, 1)).sum : Int × Nat).2 = l.length := by
    intro l
    induction l with
    | nil => rfl
    | cons e l ih => simp [ih, add_comm]
  have hlength := congrArg Prod.snd hsplit
  rw [volumeWithin, hcount] at hlength
  exact absurd (List.length_eq_zero_iff.mp hlength) (List.ne_nil_of_mem (List.mem_filter.mpr ⟨he, decide_eq_true rfl⟩))

/-- The statement of all rows is that of the rows in `c` exactly when the others are silent. -/
theorem statementOf_inCurrency_iff (c : Currency) (rows : List LedgerEntry) (hab : a ≤ b) :
    statementOf rows a b = statementOf (inCurrency c rows) a b ↔ ForeignSilent c rows a b := by
  have hbefore : ∀ t, availableBefore rows t =
      availableBefore (inCurrency c rows) t + availableBefore (inOthers c rows) t := fun t =>
    availableWhere_currencies c rows _
  have hwithin := availableBefore_add (inOthers c rows) hab
  constructor
  · intro h
    have hopening := congrArg StatementResult.openingBalanceCents h
    have hclosing := congrArg StatementResult.closingBalanceCents h
    simp only [statementOf, hbefore] at hopening hclosing
    refine ⟨by omega, by omega, debitsWithin_inOthers fun category => ?_⟩
    have hitems := congrArg (fun r => volumeOf r.items category) h
    simp only [statementOf, volumeOf_statementItems] at hitems
    exact hitems.symm
  · intro h
    have hsum : ∀ t, availableBefore (inOthers c rows) t = 0 → availableBefore rows t = availableBefore (inCurrency c rows) t :=
      fun t ht => by rw [hbefore, ht, add_zero]
    have hend : availableBefore (inOthers c rows) b = 0 := by rw [hwithin, h.before, h.within, add_zero]
    simp only [statementOf, volumes, debitsWithin_inCurrency h.debits, hsum a h.before, hsum b hend]

end Currencies

end History

/-! ## Statements that are made -/

/-- A call of `createSettlementStatement` for a currency makes the statement. -/
def Makes (db : Db) (t : Id) (c : Currency) (a b : Int) (s : SettlementStatement) : Prop :=
  ∃ currency w db' w', currency.getD "MAD" = c.code ∧
    (createSettlementStatement t { periodStart := a, periodEnd := b, currency }).run db w = (.ok s, db', w')

/-- The amounts of a statement that is stored. -/
def SettlementStatement.result (s : SettlementStatement) : StatementResult where
  openingBalanceCents := s.openingBalance
  closingBalanceCents := s.closingBalance
  netCents := s.netAmount
  items := s.items

section Makes

variable {db : Db} {t : Id} {c : Currency} {a b d : Int} {s s₁ s₂ : SettlementStatement}

theorem buildStatement_history (db : Db) (t : Id) (hab : a < b) :
    buildStatement (db.statementEntries t) a b = .ok (statementOf (db.historyOf t) a b) := by
  rw [Db.statementEntries, buildStatement_eq _ hab]
  exact congrArg _ (statementOf_perm (List.perm_insertionSort _ _) a b)

open Transaction.Job in
/-- The statement that is stored has the amounts of the rows of the tenant. -/
theorem createSettlementStatement_result (t : Id) (currency : Option String) (hab : a < b) (db : Db) :
    (createSettlementStatement t { periodStart := a, periodEnd := b, currency }).Ensures
      (fun r _ => ∀ s, r = .ok s → s.result = statementOf (db.historyOf t) a b) db := by
  unfold createSettlementStatement
  refine (ensures_bind _ _).mpr ((ensures_get _).mpr ?_)
  refine ensures_ofExcept_bind (fun result hresult => ?_) fun _ _ _ h => by cases h
  obtain rfl := Except.ok.inj ((buildStatement_history db t hab).symm.trans hresult)
  simp only [ensures_transaction, SettlementStatement.create, Transaction.Tx.bind_eq, Transaction.Tx.pure_eq,
    Transaction.Tx.ensures_bind, Transaction.Tx.ensures_get, Transaction.Tx.ensures_ite,
    Transaction.Tx.ensures_throw, Transaction.Tx.ensures_modify, Transaction.Tx.ensures_ret]
  refine fun id => ⟨fun _ s h => (by cases h), fun _ s h => ?_⟩
  rw [← Except.ok.inj h]
  rfl

theorem Makes.result_eq (hab : a < b) (h : Makes db t c a b s) : s.result = statementOf (db.historyOf t) a b := by
  obtain ⟨currency, w, db', w', -, hrun⟩ := h
  exact (createSettlementStatement_result t currency hab db).run w hrun s rfl

end Makes

/-- A statement of `c` from `a` to `b` that speaks of `c` alone and chains with those from `b` to `d` and from `a` to `d`. -/
structure SettlementStatement.Chains (s₁ s₂ s : SettlementStatement) (c : Currency) (rows : List LedgerEntry) (a b : Int) :
    Prop where
  /-- The entries in the currency alone make the same statement. -/
  only : s₁.result = statementOf (inCurrency c rows) a b
  net : s₁.netAmount = availableWithin (inCurrency c rows) a b
  chain : s₁.closingBalance = s₂.openingBalance
  nets : s.netAmount = s₁.netAmount + s₂.netAmount
  volumes : ∀ category, volumeOf s.items category = volumeOf s₁.items category + volumeOf s₂.items category

/-- Main theorem: for every history the statements of `c` over adjacent periods chain, and the first speaks of `c` alone,
if and only if the other currencies are silent in it. -/
theorem statements_chain_iff (db : Db) (t : Id) (c : Currency) {a b d : Int} (hab : a < b) (hbd : b < d)
    {s₁ s₂ s : SettlementStatement} (h₁ : Makes db t c a b s₁) (h₂ : Makes db t c b d s₂) (h : Makes db t c a d s) :
    s₁.Chains s₂ s c (db.historyOf t) a b ↔ ForeignSilent c (db.historyOf t) a b := by
  have hr₁ := h₁.result_eq hab
  have hr₂ := h₂.result_eq hbd
  have hr := h.result_eq (hab.trans hbd)
  rw [← statementOf_inCurrency_iff c (db.historyOf t) hab.le, ← hr₁]
  have hnet : ∀ {s : SettlementStatement} {rows : List LedgerEntry} {a b : Int}, a ≤ b → s.result = statementOf rows a b →
      s.netAmount = availableWithin rows a b := by
    intro s rows a b hle hs
    have hnet := congrArg StatementResult.netCents hs
    have hadd := availableBefore_add rows hle
    simp only [SettlementStatement.result, statementOf] at hnet
    omega
  refine ⟨fun hchains => hchains.only, fun honly => ⟨honly, hnet hab.le honly, ?_, ?_, fun category => ?_⟩⟩
  · have hclosing := congrArg StatementResult.closingBalanceCents hr₁
    have hopening := congrArg StatementResult.openingBalanceCents hr₂
    exact hclosing.trans hopening.symm
  · have hnet₁ := congrArg StatementResult.netCents hr₁
    have hnet₂ := congrArg StatementResult.netCents hr₂
    have hnet' := congrArg StatementResult.netCents hr
    simp only [SettlementStatement.result, statementOf] at hnet₁ hnet₂ hnet'
    omega
  · have hvolume : ∀ {s : SettlementStatement} {a b : Int}, s.result = statementOf (db.historyOf t) a b →
        volumeOf s.items category = volumeWithin (db.historyOf t) category a b := by
      intro s a b hs
      have hitems := congrArg StatementResult.items hs
      simp only [SettlementStatement.result, statementOf] at hitems
      rw [hitems, volumeOf_statementItems]
    rw [hvolume hr₁, hvolume hr₂, hvolume hr, volumeWithin_add _ category hab.le hbd.le]

/-! ## Histories in two currencies -/

def historyRow (id : Id) (account : LedgerAccount) (direction : LedgerDirection) (amount : Int) (currency : Currency)
    (createdAt : Nat) : LedgerEntry where
  tenantId := 1
  account := account
  direction := direction
  category := .capture
  amount := amount
  currency := currency
  sourceType := none
  sourceId := none
  partyId := none
  id := id
  postingId := id
  balanceAfter := 0
  createdAt := createdAt

/-- A capture of 10.00 MAD at 5, and one of 3.00 EUR at `instant`. -/
def twoCurrencies (instant : Nat) : Db :=
  { Db.empty plainConfig with
    ledgerEntries :=
      [historyRow 1 .collected .debit 1000 .mad 5, historyRow 2 .available .credit 1000 .mad 5,
       historyRow 3 .collected .debit 300 .eur instant, historyRow 4 .available .credit 300 .eur instant] }

/-- The statement that is made of two currencies, with the id 0. -/
def madeStatement (instant : Nat) (a b : Int) : SettlementStatement :=
  let result := statementOf ((twoCurrencies instant).historyOf 1) a b
  { id := 0, tenantId := 1, periodStart := a, periodEnd := b, currency := "MAD", status := .draft,
    openingBalance := result.openingBalanceCents, closingBalance := result.closingBalanceCents,
    netAmount := result.netCents, items := result.items }

theorem makes_madeStatement {instant : Nat} {a b : Int} (hab : a < b) :
    Makes (twoCurrencies instant) 1 .mad a b (madeStatement instant a b) := by
  have hrun : ((createSettlementStatement 1 { periodStart := a, periodEnd := b, currency := none }).run
      (twoCurrencies instant) World.counting).1 = .ok (madeStatement instant a b) := by
    unfold createSettlementStatement
    rw [Transaction.Job.bind_eq, Transaction.Job.run_bind, Transaction.Job.run_get]
    dsimp only
    rw [buildStatement_history _ _ hab]
    rfl
  exact ⟨none, .counting, _, _, rfl, Prod.ext hrun rfl⟩

/-- The other currency comes after the period. -/
theorem statements_chain_after :
    (madeStatement 12 0 10).Chains (madeStatement 12 10 20) (madeStatement 12 0 20) .mad ((twoCurrencies 12).historyOf 1)
      0 10 :=
  (statements_chain_iff (twoCurrencies 12) 1 .mad (show (0 : Int) < 10 by decide) (show (10 : Int) < 20 by decide)
    (makes_madeStatement (by decide)) (makes_madeStatement (by decide)) (makes_madeStatement (by decide))).mpr
    ⟨by decide, by decide, by decide⟩

/-- A statement in MAD takes the euros of the period for dirhams. -/
theorem not_statements_chain :
    ¬ ∀ (db : Db) (t : Id) (c : Currency) (a b d : Int) (s₁ s₂ s : SettlementStatement), a < b → b < d →
      Makes db t c a b s₁ → Makes db t c b d s₂ → Makes db t c a d s → s₁.Chains s₂ s c (db.historyOf t) a b := by
  intro h
  have hchains := h (twoCurrencies 7) 1 .mad 0 10 20 _ _ _ (by decide) (by decide) (makes_madeStatement (by decide))
    (makes_madeStatement (by decide)) (makes_madeStatement (by decide))
  exact absurd (hchains.net : (1300 : Int) = 1000) (by decide)

end CorpoPay.Settlement
