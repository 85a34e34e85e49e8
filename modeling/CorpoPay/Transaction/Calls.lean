import CorpoPay.Transaction.Program

/-!
# The outside calls of a job

`Job.calls` lists what a job that runs alone asks between its transactions, each question with its answer.
-/

namespace CorpoPay.Transaction

variable {I : Interface} {α β : Type}

/-- A question and its answer. -/
abbrev Call (I : Interface) := (q : I.Query) × I.Answer q

namespace Job

def calls : Job I α → I.Store → I.World → List (Call I)
  | .ret _, _, _ => []
  | .throw _, _, _ => []
  | .txn body k, s, w =>
      match body.run s w with
      | (.ok (b, s'), w') => (k (.ok b)).calls s' w'
      | (.error e, w') => (k (.error e)).calls s w'
  | .ask q k, s, w => ⟨q, (I.reply w q).1⟩ :: (k (I.reply w q).1).calls s (I.reply w q).2

theorem calls_bind (j : Job I α) (f : α → Job I β) (s : I.Store) (w : I.World) :
    (j.bind f).calls s w = j.calls s w ++
      match j.run s w with
      | (.ok a, s', w') => (f a).calls s' w'
      | (.error _, _, _) => [] := by
  induction j generalizing s w with
  | ret a => rfl
  | throw e => rfl
  | txn body k ih =>
      simp only [bind, run, calls]
      rcases body.run s w with ⟨_ | ⟨b, s'⟩, w'⟩
      · exact ih _ _ _
      · exact ih _ _ _
  | ask q k ih => exact congrArg (List.cons _) (ih _ _ _)

@[simp] theorem calls_get (f : I.Store → α) (s : I.Store) (w : I.World) : (get f).calls s w = [] := rfl

theorem calls_bind_ok {j : Job I α} {f : α → Job I β} {s s' : I.Store} {w w' : I.World} {a : α}
    (h : j.run s w = (.ok a, s', w')) : (j.bind f).calls s w = j.calls s w ++ (f a).calls s' w' := by
  rw [calls_bind, h]

end Job

end CorpoPay.Transaction
