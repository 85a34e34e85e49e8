import CorpoPay.Transaction.Program

/-!
# Scripts of calls

A script says which parts are called, one after the other, each after the answers of those before it. It does not know what
the parts do: a job that performs a script is the script with a job for each part.
-/

namespace CorpoPay.Transaction

universe u

inductive Script {ι : Type u} (Answer : ι → Type) (β : Type) : Type u
  | ret (b : β)
  | call (i : ι) (k : Answer i → Script Answer β)

variable {I : Interface} {ι : Type u} {Answer : ι → Type} {β : Type}

/-- A call and its answer. -/
abbrev Called (Answer : ι → Type) := (i : ι) × Answer i

namespace Script

/-- The calls of a script that gets these answers, and its result. -/
inductive Runs : Script Answer β → List (Called Answer) → β → Prop
  | ret {b} : Runs (.ret b) [] b
  | call {i k a calls b} (h : Runs (k a) calls b) : Runs (.call i k) (⟨i, a⟩ :: calls) b

@[simp] theorem runs_ret {b b' : β} {calls : List (Called Answer)} :
    (ret b : Script Answer β).Runs calls b' ↔ calls = [] ∧ b' = b := by
  constructor
  · rintro ⟨⟩
    exact ⟨rfl, rfl⟩
  · rintro ⟨rfl, rfl⟩
    exact .ret

@[simp] theorem runs_call {i : ι} {k : Answer i → Script Answer β} {calls : List (Called Answer)} {b : β} :
    (call i k).Runs calls b ↔ ∃ a rest, calls = ⟨i, a⟩ :: rest ∧ (k a).Runs rest b := by
  constructor
  · rintro (_ | h)
    exact ⟨_, _, rfl, h⟩
  · rintro ⟨a, rest, rfl, h⟩
    exact .call h

/-- The script with a job for each part. -/
def perform (part : (i : ι) → Job I (Answer i)) : Script Answer β → Job I β
  | .ret b => .ret b
  | .call i k => (part i).bind fun a => (k a).perform part

end Script

end CorpoPay.Transaction
