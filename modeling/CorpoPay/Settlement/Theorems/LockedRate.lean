import CorpoPay.Settlement.Lemmas.Sweep
import CorpoPay.Settlement.Theorems.ChargedAmount

/-!
# The locked rate and the rate of the sweep

An intent keeps the rate that was quoted when it was created. The sweep asks for a rate again, and converts the balance
with that one.
-/

namespace CorpoPay.Settlement

open Transaction.Tx

/-! ## Locked rates -/

/-- An intent that was created in another currency than `quote`, with its rate. -/
structure LockedIntent (quote : Currency) where
  intent : PaymentIntent
  base : Currency
  rate : Nat
  foreign : base ≠ quote
  fxRate : intent.fxRate = some rate
  fxCurrencyPair : intent.fxCurrencyPair = some (currencyPairKey base quote)

/-- What the capture of the intent brought to AVAILABLE. -/
def Db.proceeds (db : Db) (t intentId : Id) (currency : Currency) : Int :=
  balance (db.movements.filter fun m => m.sourceType = some CAPTURE_SOURCE_TYPE ∧ m.sourceId = some intentId) t .available
    currency

/-- The proceeds of the intents, each at its locked rate, in 10^-8 of the minor unit. -/
def Db.lockedValue {quote : Currency} (db : Db) (t : Id) (intents : List (LockedIntent quote)) : Int :=
  (intents.map fun i => db.proceeds t i.intent.id i.base * i.rate).sum

/-- The foreign balances, each converted at the rate that is quoted for it. -/
def Db.quotedValue (db : Db) (t : Id) (quote : Currency) (rate : Currency → Nat) : Int :=
  (SUPPORTED_CURRENCIES.map fun base => db.sweptAmount t quote base (rate base)).sum

/-- The foreign balances are the proceeds of the intents. -/
structure Db.HoldsProceeds {quote : Currency} (db : Db) (t : Id) (intents : List (LockedIntent quote)) : Prop where
  rows : ∀ i ∈ intents, i.intent ∈ db.paymentIntents ∧ i.intent.tenantId = t
  ids : (intents.map (·.intent.id)).Nodup
  balances : ∀ base, base ≠ quote → db.accountBalance t .available base =
    ((intents.filter (·.base = base)).map fun i => db.proceeds t i.intent.id i.base).sum
  swept : ∀ i ∈ intents, 0 < db.accountBalance t .available i.base

/-- To half a minor unit for each of the intents. -/
def Rounds {quote : Currency} (intents : List (LockedIntent quote)) (amount exact : Int) : Prop :=
  2 * |amount * FX_RATE_UNIT - exact| ≤ intents.length * FX_RATE_UNIT

/-- AVAILABLE gets the proceeds at the locked rates, and FEES the difference to the conversion at the quoted rates. -/
def HonoursLock {quote : Currency} (t : Id) (intents : List (LockedIntent quote)) (rate : Currency → Nat) (db db' : Db) :
    Prop :=
  ∃ ms, db'.movements = db.movements ++ ms ∧ Rounds intents (balance ms t .available quote) (db.lockedValue t intents) ∧
    fxAdjusted ms t quote = db.quotedValue t quote rate - balance ms t .available quote

/-- How far the quoted rates are from the locked ones, each by the proceeds that it converts. -/
def Db.drift {quote : Currency} (db : Db) (t : Id) (intents : List (LockedIntent quote)) (rate : Currency → Nat) : Int :=
  (intents.map fun i => db.proceeds t i.intent.id i.base * (rate i.base - i.rate)).sum

/-- What the conversion of a balance adds by rounding. -/
def Db.roundingOf (db : Db) (t : Id) (quote base : Currency) (rate : Nat) : Int :=
  if base ≠ quote ∧ 0 < db.accountBalance t .available base then
    convertMinor (db.accountBalance t .available base) rate * FX_RATE_UNIT - db.accountBalance t .available base * rate
  else 0

def Db.rounding (db : Db) (t : Id) (quote : Currency) (rate : Currency → Nat) : Int :=
  (SUPPORTED_CURRENCIES.map fun base => db.roundingOf t quote base (rate base)).sum

section Locked

variable {t : Id} {quote base : Currency} {db db' : Db} {w w' : World} {intents : List (LockedIntent quote)}
  {rate : Currency → Nat}

theorem sum_map_mul_eq (xs : List (LockedIntent quote)) (f g : LockedIntent quote → Int) (r : Int)
    (h : ∀ i ∈ xs, g i = r) : (xs.map fun i => f i * g i).sum = (xs.map f).sum * r := by
  rw [← List.sum_map_mul_right]
  exact congrArg List.sum (List.map_congr_left fun i hi => by rw [h i hi])

/-- A balance is converted with its rounding. -/
theorem Db.HoldsProceeds.sweptAmount_mul (h : db.HoldsProceeds t intents) (base : Currency) :
    db.sweptAmount t quote base (rate base) * FX_RATE_UNIT = db.roundingOf t quote base (rate base) +
      ((intents.filter (·.base = base)).map fun i => db.proceeds t i.intent.id i.base * rate i.base).sum := by
  have hgroup : ((intents.filter (·.base = base)).map fun i => db.proceeds t i.intent.id i.base * (rate i.base : Int)).sum =
      ((intents.filter (·.base = base)).map fun i => db.proceeds t i.intent.id i.base).sum * rate base :=
    sum_map_mul_eq _ _ _ _ fun i hi => by rw [of_decide_eq_true (List.mem_filter.mp hi).2]
  rw [Db.sweptAmount, Db.roundingOf]
  split_ifs with hswept
  · rw [hgroup, ← h.balances base hswept.1]
    ring
  · have hnone : intents.filter (·.base = base) = [] := by
      refine List.filter_eq_nil_iff.mpr fun i hi hbase => hswept ?_
      obtain rfl := of_decide_eq_true hbase
      exact ⟨i.foreign, h.swept i hi⟩
    rw [hnone]
    rfl

theorem Db.HoldsProceeds.quotedValue_sub (h : db.HoldsProceeds t intents) :
    db.quotedValue t quote rate * FX_RATE_UNIT - db.lockedValue t intents =
      db.drift t intents rate + db.rounding t quote rate := by
  have hgroups := Data.sum_groups (by decide : SUPPORTED_CURRENCIES.Nodup) (fun i : LockedIntent quote => i.base)
    (fun i => db.proceeds t i.intent.id i.base * (rate i.base : Int)) fun i (_ : i ∈ intents) => mem_supportedCurrencies i.base
  have hquoted : db.quotedValue t quote rate * FX_RATE_UNIT =
      db.rounding t quote rate + (intents.map fun i => db.proceeds t i.intent.id i.base * (rate i.base : Int)).sum := by
    rw [Db.quotedValue, ← List.sum_map_mul_right, ← hgroups, Db.rounding, ← List.sum_map_add]
    exact congrArg List.sum (List.map_congr_left fun base _ => h.sweptAmount_mul base)
  have hdrift : db.drift t intents rate = (intents.map fun i => db.proceeds t i.intent.id i.base * (rate i.base : Int)).sum -
      db.lockedValue t intents := by
    rw [eq_sub_iff_add_eq, Db.drift, Db.lockedValue, ← List.sum_map_add]
    exact congrArg List.sum (List.map_congr_left fun i _ => by ring)
  rw [hquoted, hdrift]
  ring

/-- A conversion rounds by at most half a minor unit. -/
theorem abs_convertMinor_sub_le (amount : Int) (rate : Nat) :
    2 * |convertMinor amount rate * FX_RATE_UNIT - amount * rate| ≤ FX_RATE_UNIT := by
  have hdiv := Int.mul_ediv_add_emod (2 * (amount * rate) + FX_RATE_UNIT) (2 * FX_RATE_UNIT)
  have hnonneg := Int.emod_nonneg (2 * (amount * rate) + FX_RATE_UNIT) (by decide : 2 * FX_RATE_UNIT ≠ 0)
  have hlt := Int.emod_lt_of_pos (2 * (amount * rate) + FX_RATE_UNIT) (by decide : 0 < 2 * FX_RATE_UNIT)
  rw [convertMinor, roundDiv, abs_eq_max_neg]
  simp only [FX_RATE_UNIT] at *
  omega

theorem two_abs_sum_le {ι : Type} {f g : ι → Int} (h : ∀ x, 2 * |f x| ≤ g x) (xs : List ι) :
    2 * |(xs.map f).sum| ≤ (xs.map g).sum := by
  induction xs with
  | nil => simp
  | cons x xs ih =>
      rw [List.map_cons, List.map_cons, List.sum_cons, List.sum_cons]
      have habs := abs_add_le (f x) (xs.map f).sum
      have hx := h x
      omega

/-- Rounding alone stays within the bound. -/
theorem Db.HoldsProceeds.rounding_le (h : db.HoldsProceeds t intents) :
    2 * |db.rounding t quote rate| ≤ intents.length * FX_RATE_UNIT := by
  have hbase : ∀ base, 2 * |db.roundingOf t quote base (rate base)| ≤
      ((intents.filter (·.base = base)).map fun _ => FX_RATE_UNIT).sum := by
    intro base
    rw [List.map_const', List.sum_replicate, nsmul_eq_mul, Db.roundingOf]
    split_ifs with hswept
    · have hsome : intents.filter (·.base = base) ≠ [] := by
        intro hnone
        have hzero := h.balances base hswept.1
        rw [hnone] at hzero
        exact absurd hswept.2 (by simp [hzero])
      have hone : (1 : Int) ≤ (intents.filter (·.base = base)).length := by
        exact_mod_cast List.length_pos_iff.mpr hsome
      refine (abs_convertMinor_sub_le _ _).trans ?_
      simpa using mul_le_mul_of_nonneg_right hone (by decide : 0 ≤ FX_RATE_UNIT)
    · simp [FX_RATE_UNIT]
  refine (two_abs_sum_le hbase SUPPORTED_CURRENCIES).trans_eq ?_
  rw [Data.sum_groups (by decide) _ _ fun i _ => mem_supportedCurrencies i.base]
  simp

/-- A rate that has not moved is honoured. -/
theorem honoursLock_of_unmoved (hproceeds : db.HoldsProceeds t intents) (hrate : ∀ i ∈ intents, rate i.base = i.rate) :
    2 * |db.drift t intents rate + db.rounding t quote rate| ≤ intents.length * FX_RATE_UNIT := by
  have hdrift : db.drift t intents rate = 0 :=
    List.sum_eq_zero fun v hv => by
      obtain ⟨i, hi, rfl⟩ := List.mem_map.mp hv
      rw [hrate i hi, sub_self, mul_zero]
  rw [hdrift, zero_add]
  exact hproceeds.rounding_le

/-- The locked rates are honoured exactly when the quoted rates, with the rounding, come to the same. -/
theorem honoursLock_iff (hproceeds : db.HoldsProceeds t intents)
    (hrun : (convertForeignBalancesToSettlement t quote).run db w = (.ok ((), db'), w')) :
    ∃ rate, Quoted t quote SUPPORTED_CURRENCIES rate db w w' ∧ (HonoursLock t intents rate db db' ↔
      2 * |db.drift t intents rate + db.rounding t quote rate| ≤ intents.length * FX_RATE_UNIT) := by
  obtain ⟨rate, ms, hquoted, hms⟩ := convertForeignBalances_run (by decide) hrun
  have hcredited : balance ms t .available quote = db.quotedValue t quote rate := hms.credited
  refine ⟨rate, hquoted, ?_⟩
  rw [← hproceeds.quotedValue_sub]
  constructor
  · rintro ⟨ms', hms', hrounds, -⟩
    obtain rfl : ms' = ms := List.append_cancel_left (hms'.symm.trans hms.movements)
    rwa [Rounds, hcredited] at hrounds
  · intro h
    refine ⟨ms, hms.movements, ?_, ?_⟩
    · rwa [Rounds, hcredited]
    · rw [hms.adjusted, hcredited, sub_self]

end Locked

/-! ## A rate that moves -/

/-- The rate is 10 when the intent is created, and 11 at the sweep. -/
def movingWorld : World :=
  { World.counting with
    oracle := fun n q =>
      match q with
      | .quoteFx _ _ => if n < 5 then 1000000000 else 1100000000
      | q => World.counting.oracle n q }

/-- A charge of 100.00 EUR for a tenant that settles in MAD. -/
def euroBody : CreateIntentBody where
  provider := .vps
  amount := 10000
  currency := "EUR"
  reference := "r"
  description := "d"
  isPreauth := none
  metadata := none
  isWallet := false
  amount_pos := by decide

def createdEuro : Except Failure CreatedIntent × Db × World :=
  (createIntent checkoutRuntime 1 euroBody).run
    (Db.empty { plainConfig with providerConfigs := [⟨1, .vps, "key of 1", .connected⟩] }) movingWorld

def capturedEuro : Except Failure Bool × Db × World :=
  (settleCharge 1 4 ⟨some 10000, .str "EUR"⟩).run createdEuro.2.1 createdEuro.2.2

def sweptEuro : Except Failure (Unit × Db) × World :=
  (convertForeignBalancesToSettlement 1 .mad).run capturedEuro.2.1 capturedEuro.2.2

def euroIntent : PaymentIntent where
  id := 4
  tenantId := 1
  paymentLinkId := none
  status := .requiresAction
  provider := .vps
  providerRef := some "7"
  correlationId := "5"
  metadata := some euroBody.stored
  riskVerdict := some .allow
  createdAt := 6
  providerData := some (.obj [])
  fxRate := some 1000000000
  fxCurrencyPair := some "EUR/MAD"
  fxExpiresAt := some 86400002

def lockedEuro : LockedIntent .mad where
  intent := euroIntent
  base := .eur
  rate := 1000000000
  foreign := by decide
  fxRate := rfl
  fxCurrencyPair := rfl

theorem holdsProceeds_euro : capturedEuro.2.1.HoldsProceeds 1 [lockedEuro] where
  rows := by
    have hrows : capturedEuro.2.1.paymentIntents = [euroIntent] := by rfl
    intro i hi
    obtain rfl := List.mem_singleton.mp hi
    exact ⟨hrows ▸ List.mem_singleton_self _, rfl⟩
  ids := List.nodup_singleton _
  balances := by
    intro base hbase
    have hall : ∀ base ∈ SUPPORTED_CURRENCIES, base ≠ .mad → capturedEuro.2.1.accountBalance 1 .available base =
        if Currency.eur = base then capturedEuro.2.1.proceeds 1 4 .eur else 0 := by decide +kernel
    rw [hall base (mem_supportedCurrencies base) hbase]
    by_cases heur : Currency.eur = base <;> simp [lockedEuro, euroIntent, heur]
  swept := by
    intro i hi
    obtain rfl := List.mem_singleton.mp hi
    decide +kernel

/-- The rate is still 10 at the sweep. -/
def steadyWorld : World :=
  { World.counting with
    clock := 100
    oracle := fun n q =>
      match q with
      | .quoteFx _ _ => 1000000000
      | q => World.counting.oracle n q }

def keptEuro : Except Failure (Unit × Db) × World :=
  (convertForeignBalancesToSettlement 1 .mad).run capturedEuro.2.1 steadyWorld

theorem exists_of_swept {r : Except Failure (Unit × Db) × World} {cents : Int}
    (h : (r.1.toOption.any fun x => x.2.accountBalance 1 .available .mad = cents) = true) :
    ∃ db', r = (.ok ((), db'), r.2) ∧ db'.accountBalance 1 .available .mad = cents := by
  obtain ⟨r, w⟩ := r
  cases r with
  | error e => cases h
  | ok x => exact ⟨x.2, rfl, of_decide_eq_true h⟩

theorem sweptEuro_eq : ∃ db', sweptEuro = (.ok ((), db'), sweptEuro.2) ∧ db'.accountBalance 1 .available .mad = 104500 :=
  exists_of_swept (by decide +kernel)

theorem keptEuro_eq : ∃ db', keptEuro = (.ok ((), db'), keptEuro.2) ∧ db'.accountBalance 1 .available .mad = 95000 :=
  exists_of_swept (by decide +kernel)

/-- The rate that has moved is not the locked one, and the one that has not is honoured. -/
theorem honoursLock_iff_euro :
    (∃ db' rate, Quoted 1 .mad SUPPORTED_CURRENCIES rate capturedEuro.2.1 capturedEuro.2.2 sweptEuro.2 ∧
      (HonoursLock 1 [lockedEuro] rate capturedEuro.2.1 db' ↔
        2 * |capturedEuro.2.1.drift 1 [lockedEuro] rate + capturedEuro.2.1.rounding 1 .mad rate| ≤
          [lockedEuro].length * FX_RATE_UNIT)) ∧
    ∃ db' rate, db'.accountBalance 1 .available .mad = 95000 ∧ HonoursLock 1 [lockedEuro] rate capturedEuro.2.1 db' := by
  constructor
  · obtain ⟨db', hrun, -⟩ := sweptEuro_eq
    exact ⟨db', honoursLock_iff holdsProceeds_euro hrun⟩
  · obtain ⟨db', hrun, hbalance⟩ := keptEuro_eq
    obtain ⟨rate, hquoted, hiff⟩ := honoursLock_iff holdsProceeds_euro hrun
    obtain ⟨_, -, -, hrate⟩ := hquoted .eur (by decide) (by decide) (by decide +kernel)
    refine ⟨db', rate, hbalance, hiff.mpr (honoursLock_of_unmoved holdsProceeds_euro fun i hi => ?_)⟩
    rw [List.mem_singleton.mp hi]
    exact hrate.symm

/-- 95.00 EUR at 10 are 950.00 MAD, and 1045.00 are credited. -/
theorem not_honoursLock : ¬ ∀ {t : Id} {quote : Currency} {db db' : Db} {w w' : World} {intents : List (LockedIntent quote)},
    db.HoldsProceeds t intents → (convertForeignBalancesToSettlement t quote).run db w = (.ok ((), db'), w') →
      ∃ rate, Quoted t quote SUPPORTED_CURRENCIES rate db w w' ∧ HonoursLock t intents rate db db' := by
  intro h
  obtain ⟨db', hrun, hbalance⟩ := sweptEuro_eq
  obtain ⟨rate, -, ms, hms, hrounds, -⟩ := h holdsProceeds_euro hrun
  have hbefore : capturedEuro.2.1.accountBalance 1 .available .mad = 0 := by decide +kernel
  have hlocked : capturedEuro.2.1.lockedValue 1 [lockedEuro] = 9500 * 1000000000 := by decide +kernel
  have hcredited : balance ms 1 .available .mad = 104500 := by
    rw [Db.accountBalance_append hms, hbefore, zero_add] at hbalance
    exact hbalance
  rw [Rounds, hcredited, hlocked] at hrounds
  exact absurd hrounds (by decide)

end CorpoPay.Settlement
