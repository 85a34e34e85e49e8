import Mathlib.Data.List.Basic

/-!
# What a run shows

A machine answers an input and moves on. Two runs that start in related states show the same outputs when one step
keeps the relation and answers alike.
-/

namespace CorpoPay.Data

variable {Input Output State : Type}

/-- The outputs of a run and the state it ends in. -/
def outputs (step : Input → State → Output × State) : List Input → State → List Output × State
  | [], s => ([], s)
  | i :: is, s =>
      let r := step i s
      let rest := outputs step is r.2
      (r.1 :: rest.1, rest.2)

/-- Unwinding: from one step to the whole run. -/
theorem outputs_congr {step : Input → State → Output × State} {Alike : State → State → Prop} {is : List Input}
    (h : ∀ i ∈ is, ∀ s s', Alike s s' → (step i s).1 = (step i s').1 ∧ Alike (step i s).2 (step i s').2) :
    ∀ {s s'}, Alike s s' →
      (outputs step is s).1 = (outputs step is s').1 ∧ Alike (outputs step is s).2 (outputs step is s').2 := by
  induction is with
  | nil => exact fun hs => ⟨rfl, hs⟩
  | cons i is ih =>
      intro s s' hs
      obtain ⟨hout, hnext⟩ := h i List.mem_cons_self s s' hs
      obtain ⟨hrest, hend⟩ := ih (fun j hj => h j (List.mem_cons_of_mem i hj)) hnext
      refine ⟨?_, hend⟩
      simp only [outputs]
      rw [hout, hrest]

end CorpoPay.Data
