import Mathlib.Data.Int.Notation
import Mathlib.Tactic.Linarith
import Mathlib.Tactic.Ring

/-!
# Money

An amount is a whole number of centimes. A `Decimal(12,2)` column holds the same amount in major units and every conversion
goes through `toMinor` and `fromMinor`, which are inverse to each other on such amounts: the model keeps
centimes in the rows too. Amounts and products stay far below 2^53, where a number of the source is an integer.
In a currency that is not supported every conversion is `NaN`, which no column accepts: a row with an amount is in
one of the five.
-/

namespace CorpoPay.Settlement

abbrev Id := Nat

inductive Currency
  | mad | usd | eur | gbp | cad
  deriving DecidableEq, Repr

def SUPPORTED_CURRENCIES : List Currency := [.mad, .usd, .eur, .gbp, .cad]

theorem mem_supportedCurrencies (c : Currency) : c ∈ SUPPORTED_CURRENCIES := by cases c <;> decide

def Currency.code : Currency → String
  | .mad => "MAD"
  | .usd => "USD"
  | .eur => "EUR"
  | .gbp => "GBP"
  | .cad => "CAD"

/-- `Math.round(n / d)` for a positive `d`: the nearest integer, a half goes up. -/
def roundDiv (n d : Int) : Int := (2 * n + d) / (2 * d)

theorem roundDiv_nonneg {n d : Int} (hn : 0 ≤ n) (hd : 0 < d) : 0 ≤ roundDiv n d :=
  Int.ediv_nonneg (by omega) (by omega)

theorem roundDiv_zero {d : Int} (hd : 0 < d) : roundDiv 0 d = 0 :=
  Int.ediv_eq_zero_of_lt (by omega) (by omega)

theorem roundDiv_mul_self (n : Int) {d : Int} (hd : 0 < d) : roundDiv (n * d) d = n := by
  rw [roundDiv, Int.ediv_eq_iff_of_pos (by omega)]
  constructor <;> linarith

theorem roundDiv_mono {n m : Int} (h : n ≤ m) {d : Int} (hd : 0 < d) : roundDiv n d ≤ roundDiv m d :=
  Int.ediv_le_ediv (by omega) (by omega)

/-- A share of at most the whole rounds to at most the whole. -/
theorem roundDiv_mul_le {n k d : Int} (hn : 0 ≤ n) (hk : k ≤ d) (hd : 0 < d) : roundDiv (n * k) d ≤ n := by
  have h : n * k ≤ n * d := Int.mul_le_mul_of_nonneg_left hk hn
  have h' : (2 * (n * k) + d) / (2 * d) < n + 1 := by
    apply Int.ediv_lt_of_lt_mul (by omega)
    have : (n + 1) * (2 * d) = 2 * (n * d) + 2 * d := by ring
    omega
  exact Int.lt_add_one_iff.mp h'

/-- The errors of the modelled code: the error classes of the libraries, the HTTP errors of the routes, the
codes of the database and a transaction that the database ended. -/
inductive Failure
  | error (message : String)
  | ledgerError (message : String)
  | feeError (message : String)
  | taxError (message : String)
  | policyError (message : String)
  | splitError (message : String)
  | payoutError (message : String)
  | reversalError (message : String)
  | walletError (message code : String)
  | reconciliationError (message : String)
  | statementError (message : String)
  | appError (status : Nat) (code message : String)
  | providerError (message : String)
  | prismaError (code : String)
  | aborted
  deriving DecidableEq, Repr

end CorpoPay.Settlement
