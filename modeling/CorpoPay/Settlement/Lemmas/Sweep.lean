import Mathlib.Algebra.BigOperators.Ring.List
import CorpoPay.Settlement.Lemmas.ChangeBalance
import CorpoPay.Settlement.Lemmas.Effects
import CorpoPay.Settlement.Lemmas.FreshIds

/-!
# The sweep of foreign balances

Every balance in another currency is converted at the rate that the provider quotes for it.
-/

namespace CorpoPay.Settlement

open Transaction.Tx

/-! ## A conversion -/

/-- With one rate there is no gain and no loss. -/
theorem planFxConversion_same {base quote : Currency} {amount : Int} {rate : Nat} {plan : FxConversionPlan}
    (h : planFxConversion base quote amount rate rate = .ok plan) :
    plan.postings =
      [⟨debit .available amount .adjustment none base, credit .cash amount .adjustment none base, ⟨some .fxConversion, none⟩⟩,
       ⟨debit .cash (convertMinor amount rate) .adjustment none quote,
        credit .available (convertMinor amount rate) .adjustment none quote, ⟨some .fxConversion, none⟩⟩] := by
  unfold planFxConversion at h
  split_ifs at h with hne
  obtain ⟨drain, hdrain, h⟩ := Except.bind_eq_ok h
  obtain ⟨settled, hsettled, h⟩ := Except.bind_eq_ok h
  rw [sub_self, if_neg (lt_irrefl 0), if_neg (lt_irrefl 0)] at h
  obtain ⟨rfl, -⟩ := posting_eq_ok.mp hdrain
  obtain ⟨rfl, -⟩ := posting_eq_ok.mp hsettled
  exact congrArg FxConversionPlan.postings (Except.ok.inj h).symm

/-- What goes to FEES as gain or loss of conversions. -/
def fxAdjusted (ms : List Movement) (t : Id) (currency : Currency) : Int :=
  balance (ms.filter (·.category = .fxAdjustment)) t .fees currency

/-- The amount that the sweep credits for the balance in `base` when it is quoted `rate`. -/
def Db.sweptAmount (db : Db) (t : Id) (quote base : Currency) (rate : Nat) : Int :=
  if base ≠ quote ∧ 0 < db.accountBalance t .available base then
    convertMinor (db.accountBalance t .available base) rate
  else 0

/-- The balances in `bases` are converted, each at its rate. -/
structure Converted (t : Id) (quote : Currency) (bases : List Currency) (rate : Currency → Nat) (db db' : Db)
    (ms : List Movement) : Prop where
  movements : db'.movements = db.movements ++ ms
  credited : balance ms t .available quote = (bases.map fun base => db.sweptAmount t quote base (rate base)).sum
  adjusted : fxAdjusted ms t quote = 0
  others : ∀ c ∉ bases, c ≠ quote → balance ms t .available c = 0

section Sweep

variable {t : Id} {quote base : Currency} {db db' : Db} {w w' : World} {rate : Nat}

theorem converted_nil (db : Db) (rate : Currency → Nat) : Converted t quote [] rate db db [] :=
  ⟨(List.append_nil _).symm, rfl, rfl, fun _ _ _ => rfl⟩

theorem ensures_convertPostings {amount : Int} (hbase : base ≠ quote) :
    (forEach (fun p => (postEntry t p).bind fun _ => (.ret () : Tx Unit))
      [⟨debit .available amount .adjustment none base, credit .cash amount .adjustment none base, ⟨some .fxConversion, none⟩⟩,
       ⟨debit .cash (convertMinor amount rate) .adjustment none quote,
        credit .available (convertMinor amount rate) .adjustment none quote, ⟨some .fxConversion, none⟩⟩]).Ensures
      (fun _ (db' : Db) => ∃ ms, db'.movements = db.movements ++ ms ∧
        balance ms t .available quote = convertMinor amount rate ∧ fxAdjusted ms t quote = 0 ∧ ∀ c, c ≠ base → c ≠ quote → balance ms t .available c = 0) (fun _ => True) db := by
  simp only [Transaction.Tx.forEach, ensures_bind, ensures_ret]
  refine ensures_postEntry fun _ db₁ _ h₁ => ensures_postEntry fun _ db₂ _ h₂ => ?_
  refine ⟨_, (h₁.trans h₂).movements_eq, ?_, ?_, fun c hc hc' => ?_⟩
  · simp [LedgerPosting.movements, LedgerLeg.movement, debit, credit, Movement.on, Movement.delta, delta, hbase]
  · simp [fxAdjusted, LedgerPosting.movements, LedgerLeg.movement, debit, credit]
  · simp [LedgerPosting.movements, LedgerLeg.movement, debit, credit, Movement.on, hc.symm, hc'.symm]

theorem converted_same {rate : Currency → Nat} (h : ¬ (base ≠ quote ∧ 0 < db.accountBalance t .available base)) :
    Converted t quote [base] rate db db [] where
  movements := (List.append_nil _).symm
  credited := by rw [List.map_singleton, List.sum_singleton, Db.sweptAmount, if_neg h, balance_nil]
  adjusted := rfl
  others _ _ _ := rfl

/-- A balance in another currency is converted at the first answer. -/
theorem convertForeignBalance_run (h : (convertForeignBalance t quote base).run db w = (.ok ((), db'), w')) :
    ∃ ms, Converted t quote [base] (fun _ => w.oracle w.clock (.quoteFx base quote)) db db' ms ∧
      (base ≠ quote → 0 < db.accountBalance t .available base → w.clock < w'.clock) := by
  unfold convertForeignBalance when at h
  split_ifs at h with hbase
  · obtain ⟨amount, s₁, w₁, hget, h⟩ := run_bind_eq_ok h
    cases hget
    split_ifs at h with hpos
    · obtain ⟨rate, s₂, w₂, hquery, h⟩ := run_bind_eq_ok h
      cases hquery
      have hlater := World.Before.of_run h
      obtain ⟨plan, s₃, w₃, hplan, h⟩ := run_bind_eq_ok h
      obtain ⟨hok, rfl, rfl⟩ := run_lift_eq_ok hplan
      rw [planFxConversion_same hok] at h
      obtain ⟨ms, hms, hcredited, hadjusted, hothers⟩ := ((ensures_convertPostings hbase).run _).1 _ _ _ h
      refine ⟨ms, ⟨hms, ?_, hadjusted, fun c hc => hothers c fun heq => hc (heq ▸ List.mem_singleton_self _)⟩, fun _ _ => ?_⟩
      · rw [hcredited, List.map_singleton, List.sum_singleton, Db.sweptAmount, if_pos ⟨hbase, hpos⟩]
        rfl
      · exact hlater.clock
    · cases h
      exact ⟨[], converted_same fun h => hpos h.2, fun _ h => absurd h hpos⟩
  · cases h
    exact ⟨[], converted_same fun h => hbase h.1, fun h => absurd h hbase⟩

/-- A sweep that finds nothing in another currency. -/
theorem sweep_nothing (w : World) (h : ∀ c ∈ SUPPORTED_CURRENCIES, c ≠ quote → db.accountBalance t .available c ≤ 0) :
    (convertForeignBalancesToSettlement t quote).run db w = (.ok ((), db), w) := by
  unfold convertForeignBalancesToSettlement
  revert h
  induction SUPPORTED_CURRENCIES with
  | nil => intro _; rfl
  | cons c cs ih =>
      intro h
      have hc : (convertForeignBalance t quote c).run db w = (.ok ((), db), w) := by
        simp only [convertForeignBalance, Transaction.Tx.when]
        split_ifs with hne
        · have hle := h c List.mem_cons_self hne
          show ((if 0 < db.accountBalance t .available c then _ else Transaction.Tx.ret ()) : Tx Unit).run db w = _
          rw [if_neg (not_lt.mpr hle)]
          rfl
        · rfl
      show ((convertForeignBalance t quote c).bind fun _ => forEach (convertForeignBalance t quote) cs).run db w = _
      rw [run_bind, hc]
      exact ih fun c' hc' => h c' (List.mem_cons_of_mem _ hc')

/-- The rate of each balance that is converted is what the provider was asked during the sweep. -/
def Quoted (t : Id) (quote : Currency) (bases : List Currency) (rate : Currency → Nat) (db : Db) (w w' : World) : Prop :=
  ∀ base ∈ bases, base ≠ quote → 0 < db.accountBalance t .available base →
    ∃ n, w.clock ≤ n ∧ n < w'.clock ∧ w.oracle n (.quoteFx base quote) = rate base

theorem convertForeignBalances_run {bases : List Currency} (hbases : bases.Nodup)
    (h : (forEach (convertForeignBalance t quote) bases).run db w = (.ok ((), db'), w')) :
    ∃ rate ms, Quoted t quote bases rate db w w' ∧ Converted t quote bases rate db db' ms := by
  induction bases generalizing db w with
  | nil =>
      cases h
      exact ⟨fun _ => 0, [], fun _ h => absurd h List.not_mem_nil, converted_nil _ _⟩
  | cons base bases ih =>
      obtain ⟨hfresh, hbases⟩ := List.nodup_cons.mp hbases
      obtain ⟨_, db₁, w₁, hfirst, hrest⟩ := run_bind_eq_ok h
      obtain ⟨ms, hms, hasked⟩ := convertForeignBalance_run hfirst
      obtain ⟨rate, ms', hquoted, hms'⟩ := ih hbases hrest
      have hlater := World.Before.of_run hfirst
      have hlater' := World.Before.of_run hrest
      have hsame : ∀ c ∈ bases, c ≠ quote → db₁.accountBalance t .available c = db.accountBalance t .available c := by
        intro c hc hne
        rw [Db.accountBalance_append hms.movements, hms.others c (fun heq => hfresh (List.mem_singleton.mp heq ▸ hc)) hne,
          add_zero]
      have hkept : ∀ c ∈ bases, Function.update rate base (w.oracle w.clock (.quoteFx base quote)) c = rate c := by
        intro c hc
        have hne : c ≠ base := by
          rintro rfl
          exact hfresh hc
        exact Function.update_of_ne hne _ _
      refine ⟨Function.update rate base (w.oracle w.clock (.quoteFx base quote)), ms ++ ms', ?_, ?_, ?_, ?_, ?_⟩
      · intro c hc hne hpos
        rcases List.mem_cons.mp hc with rfl | hc
        · refine ⟨w.clock, le_refl _, (hasked hne hpos).trans_le hlater'.clock, ?_⟩
          rw [Function.update_self]
        · rw [← hsame c hc hne] at hpos
          obtain ⟨n, hn, hn', hrate⟩ := hquoted c hc hne hpos
          rw [hlater.oracle] at hrate
          exact ⟨n, hlater.clock.trans hn, hn', hrate.trans (hkept c hc).symm⟩
      · rw [hms'.movements, hms.movements, List.append_assoc]
      · have hrates : (bases.map fun c => db₁.sweptAmount t quote c (rate c)) = bases.map fun c =>
            db.sweptAmount t quote c (Function.update rate base (w.oracle w.clock (.quoteFx base quote)) c) := by
          refine List.map_congr_left fun c hc => ?_
          rw [hkept c hc, Db.sweptAmount, Db.sweptAmount]
          by_cases hne : c ≠ quote
          · rw [hsame c hc hne]
          · rw [if_neg fun h => hne h.1, if_neg fun h => hne h.1]
        rw [balance_append, hms.credited, hms'.credited, hrates]
        simp only [List.map_cons, List.map_nil, List.sum_cons, List.sum_nil, add_zero, Function.update_self]
      · rw [fxAdjusted, List.filter_append, balance_append]
        exact (congrArg₂ (· + ·) hms.adjusted hms'.adjusted).trans (add_zero 0)
      · intro c hc hne
        obtain ⟨hc, hc'⟩ := not_or.mp (mt List.mem_cons.mpr hc)
        rw [balance_append, hms.others c (fun h => hc (List.mem_singleton.mp h)) hne, hms'.others c hc' hne, add_zero]

end Sweep

end CorpoPay.Settlement
