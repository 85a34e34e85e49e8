import CorpoPay.Billing.Dunning
import CorpoPay.Transaction.Script

/-!
# What a dunning ladder calls

A ladder performs a script that depends on nothing but the number of its attempts. The calls of the script, whatever their
answers are, are some failed rounds and then one ending.
-/

namespace CorpoPay.Billing

open Data (DAY_MS)
open Settlement (Db)
open Transaction (Called Script)

variable {α : Type}

/-! ## The calls -/

/-- What a ladder calls. The number is the one of the attempt that is made, or that is to follow a sleep or a check. -/
inductive LadderCall
  | attempt (n : Nat)
  | onSuccess (n : Nat)
  | onFailure (n : Nat)
  | sleep (n : Nat)
  | shouldStop (n : Nat)
  | onExhausted
  deriving DecidableEq, Repr

@[reducible] def LadderCall.Answer (α : Type) : LadderCall → Type
  | .attempt _ => ChargeAttemptResult
  | .onSuccess _ | .onExhausted => α
  | .onFailure _ | .sleep _ => Unit
  | .shouldStop _ => Option String

abbrev LadderCalled (α : Type) := Called (LadderCall.Answer α)

def DunningLadder.part (ladder : DunningLadder α) : (call : LadderCall) → Job (call.Answer α)
  | .attempt n => ladder.attempt n
  | .onSuccess n => ladder.onSuccess n
  | .onFailure n => ladder.onFailure n
  | .sleep n => sleep ((ladder.delays.getD (n - 2) 0) * DAY_MS)
  | .shouldStop n => ladder.shouldStop n
  | .onExhausted => ladder.onExhausted

/-! ## Rounds and endings -/

/-- A failed attempt before the last, and that nothing stops the next. -/
def failedRound (n : Nat) (attempted : ChargeAttemptResult) : List (LadderCalled α) :=
  [⟨.attempt n, attempted⟩, ⟨.onFailure n, ()⟩, ⟨.sleep (n + 1), ()⟩, ⟨.shouldStop (n + 1), none⟩]

/-- The rounds of these attempts, numbered from `n` on. -/
def failedRounds : Nat → List ChargeAttemptResult → List (LadderCalled α)
  | _, [] => []
  | n, attempted :: rest => failedRound n attempted ++ failedRounds (n + 1) rest

/-- How a ladder ends with its `n`-th attempt. -/
inductive Ending (maxAttempts n : Nat) : List (LadderCalled α) → LadderResult α → Prop
  | succeeded {attempted result} (h : attempted.success = true) :
      Ending maxAttempts n [⟨.attempt n, attempted⟩, ⟨.onSuccess n, result⟩] (.done result)
  | stopped {attempted reason} (h : attempted.success = false) (hleft : n < maxAttempts) :
      Ending maxAttempts n
        [⟨.attempt n, attempted⟩, ⟨.onFailure n, ()⟩, ⟨.sleep (n + 1), ()⟩, ⟨.shouldStop (n + 1), some reason⟩]
        (.skipped reason)
  | exhausted {attempted result} (h : attempted.success = false) (hlast : n = maxAttempts) :
      Ending maxAttempts n [⟨.attempt n, attempted⟩, ⟨.onExhausted, result⟩] (.done result)

/-- From the `n`-th attempt on: failed rounds and then one ending, within `maxAttempts`. -/
def Climbed (maxAttempts n : Nat) (calls : List (LadderCalled α)) (result : LadderResult α) : Prop :=
  ∃ failed ending, (∀ attempted ∈ failed, attempted.success = false) ∧ n + failed.length ≤ maxAttempts ∧
    calls = failedRounds n failed ++ ending ∧ Ending maxAttempts (n + failed.length) ending result

theorem climbed_iff {maxAttempts n : Nat} {calls : List (LadderCalled α)} {result : LadderResult α} :
    Climbed maxAttempts n calls result ↔
      (n ≤ maxAttempts ∧ Ending maxAttempts n calls result) ∨
        ∃ attempted rest, attempted.success = false ∧ n < maxAttempts ∧ calls = failedRound n attempted ++ rest ∧
          Climbed maxAttempts (n + 1) rest result := by
  constructor
  · rintro ⟨failed, ending, hfailed, hle, rfl, hending⟩
    cases failed with
    | nil => exact .inl ⟨hle, hending⟩
    | cons attempted failed =>
        rw [List.length_cons] at hle hending
        refine .inr ⟨attempted, failedRounds (n + 1) failed ++ ending, hfailed _ List.mem_cons_self, by omega,
          by rw [failedRounds, List.append_assoc], failed, ending, fun a ha => hfailed a (List.mem_cons_of_mem _ ha),
          by omega, rfl, ?_⟩
        rwa [Nat.add_assoc, Nat.add_comm 1]
  · rintro (⟨hle, hending⟩ | ⟨attempted, rest, hattempted, hlt, rfl, failed, ending, hfailed, hle, rfl, hending⟩)
    · exact ⟨[], calls, fun _ h => (by cases h), hle, rfl, hending⟩
    · refine ⟨attempted :: failed, ending, ?_, by rw [List.length_cons]; omega, by
        rw [failedRounds, List.append_assoc], ?_⟩
      · rintro a (_ | ⟨_, ha⟩)
        · exact hattempted
        · exact hfailed a ha
      · rwa [List.length_cons, Nat.add_comm failed.length, ← Nat.add_assoc]

/-! ## The script -/

/-- The attempts from the `n`-th one on, `left` of them. -/
def climbScript (α : Type) (maxAttempts : Nat) : Nat → Nat → Script (LadderCall.Answer α) (LadderResult α)
  | 0, _ => .call .onExhausted fun result => .ret (.done result)
  | left + 1, n =>
      .call (.attempt n) fun attempted =>
        if attempted.success then .call (.onSuccess n) fun result => .ret (.done result)
        else if n < maxAttempts then
          .call (.onFailure n) fun _ => .call (.sleep (n + 1)) fun _ => .call (.shouldStop (n + 1)) fun stop =>
            match stop with
            | some reason => .ret (.skipped reason)
            | none => climbScript α maxAttempts left (n + 1)
        else climbScript α maxAttempts left (n + 1)

theorem climb_eq_perform (ladder : DunningLadder α) (left n : Nat) :
    ladder.climb left n = (climbScript α ladder.maxAttempts left n).perform ladder.part := by
  induction left generalizing n with
  | zero => rfl
  | succ left ih =>
    refine congrArg ((ladder.attempt n).bind ·) (funext fun attempted => ?_)
    dsimp only
    split_ifs
    · rfl
    · refine congrArg ((ladder.onFailure n).bind ·) (funext fun _ => ?_)
      refine congrArg ((sleep _).bind ·) (funext fun _ => ?_)
      refine congrArg ((ladder.shouldStop (n + 1)).bind ·) (funext fun stop => ?_)
      cases stop with
      | some reason => rfl
      | none => exact ih (n + 1)
    · exact ih (n + 1)

/-- What the script does with its `n`-th attempt, the last one or not. -/
theorem runs_climbScript_succ_iff {maxAttempts left n : Nat} (hleft : n + left = maxAttempts)
    {calls : List (LadderCalled α)} {result : LadderResult α} :
    (climbScript α maxAttempts (left + 1) n).Runs calls result ↔
      Ending maxAttempts n calls result ∨
        ∃ attempted rest, attempted.success = false ∧ n < maxAttempts ∧ calls = failedRound n attempted ++ rest ∧
          (climbScript α maxAttempts left (n + 1)).Runs rest result := by
  constructor
  · intro h
    obtain ⟨attempted, rest, rfl, hrest⟩ := Script.runs_call.mp h
    split_ifs at hrest with hsuccess hlt
    · obtain ⟨result, rest, rfl, hret⟩ := Script.runs_call.mp hrest
      obtain ⟨rfl, rfl⟩ := Script.runs_ret.mp hret
      exact .inl (.succeeded hsuccess)
    · have hfailed : attempted.success = false := Bool.eq_false_of_not_eq_true hsuccess
      obtain ⟨_, rest, rfl, hsleep⟩ := Script.runs_call.mp hrest
      obtain ⟨_, rest, rfl, hcheck⟩ := Script.runs_call.mp hsleep
      obtain ⟨stop, rest, rfl, hnext⟩ := Script.runs_call.mp hcheck
      cases stop with
      | some reason =>
        obtain ⟨rfl, rfl⟩ := Script.runs_ret.mp hnext
        exact .inl (.stopped hfailed hlt)
      | none => exact .inr ⟨attempted, rest, hfailed, hlt, rfl, hnext⟩
    · -- nothing is left after the last attempt
      obtain rfl : left = 0 := by omega
      obtain ⟨result, rest, rfl, hret⟩ := Script.runs_call.mp hrest
      obtain ⟨rfl, rfl⟩ := Script.runs_ret.mp hret
      exact .inl (.exhausted (Bool.eq_false_of_not_eq_true hsuccess) hleft)
  · rintro (hending | ⟨attempted, rest, hfailed, hlt, rfl, hnext⟩)
    · cases hending with
      | succeeded h =>
        refine .call ?_
        rw [if_pos h]
        exact .call .ret
      | stopped h hlt =>
        refine .call ?_
        rw [if_neg (Bool.eq_false_iff.mp h), if_pos hlt]
        exact .call (.call (.call .ret))
      | exhausted h hlast =>
        obtain rfl : left = 0 := by omega
        refine .call ?_
        rw [if_neg (Bool.eq_false_iff.mp h), if_neg hlast.not_lt]
        exact .call .ret
    · refine .call ?_
      rw [if_neg (Bool.eq_false_iff.mp hfailed), if_pos hlt]
      exact .call (.call (.call hnext))

theorem runs_climbScript_iff {maxAttempts left n : Nat} (hleft : n + left = maxAttempts)
    {calls : List (LadderCalled α)} {result : LadderResult α} :
    (climbScript α maxAttempts (left + 1) n).Runs calls result ↔ Climbed maxAttempts n calls result := by
  induction left generalizing n calls with
  | zero =>
    have hlast : n = maxAttempts := hleft
    rw [runs_climbScript_succ_iff hleft, climbed_iff]
    simp [hlast]
  | succ left ih =>
    have hle : n ≤ maxAttempts := by omega
    have hnext : n + 1 + left = maxAttempts := by omega
    rw [runs_climbScript_succ_iff hleft, climbed_iff]
    simp only [hle, true_and, ih hnext]

theorem runs_climbScript_start {maxAttempts : Nat} (hmax : 1 ≤ maxAttempts) (calls : List (LadderCalled α))
    (result : LadderResult α) :
    (climbScript α maxAttempts maxAttempts 1).Runs calls result ↔ Climbed maxAttempts 1 calls result := by
  obtain ⟨left, rfl⟩ := Nat.exists_eq_add_of_le hmax
  rw [Nat.add_comm 1 left]
  exact runs_climbScript_iff (Nat.add_comm 1 left)

/-! ## Ladders -/

/-- A ladder performs a script whose calls, whatever their answers are, are exactly these: some failed rounds numbered from
1 on, within its attempts, and one ending. -/
theorem runDunningLadder_exact (α : Type) (maxAttempts : Nat) (hmax : 1 ≤ maxAttempts) :
    ∃ script : Script (LadderCall.Answer α) (LadderResult α),
      (∀ calls result, script.Runs calls result ↔ Climbed maxAttempts 1 calls result) ∧
        ∀ ladder : DunningLadder α, ladder.maxAttempts = maxAttempts →
          runDunningLadder ladder = script.perform ladder.part := by
  refine ⟨climbScript α maxAttempts maxAttempts 1, runs_climbScript_start hmax, ?_⟩
  rintro ladder rfl
  exact climb_eq_perform ladder _ 1

/-- A failed attempt, a wait that nothing stops, and a successful attempt. -/
theorem runDunningLadder_exact_second :
    1 ≤ 2 ∧ ∃ script : Script (LadderCall.Answer String) (LadderResult String),
      script.Runs
        [⟨.attempt 1, refused "declined"⟩, ⟨.onFailure 1, ()⟩, ⟨.sleep 2, ()⟩, ⟨.shouldStop 2, none⟩,
          ⟨.attempt 2, { success := true, vpsTransactionId := none, errorMessage := none }⟩, ⟨.onSuccess 2, "paid"⟩]
        (.done "paid") ∧
      ∀ ladder : DunningLadder String, ladder.maxAttempts = 2 →
        runDunningLadder ladder = script.perform ladder.part := by
  obtain ⟨script, hruns, hperforms⟩ := runDunningLadder_exact String 2 (by decide)
  refine ⟨by decide, script, (hruns _ _).mpr ⟨[refused "declined"], _, ?_, by decide, rfl, .succeeded rfl⟩, hperforms⟩
  intro attempted h
  rw [List.mem_singleton.mp h]
  rfl

end CorpoPay.Billing
