import CorpoPay.Transaction.Program

/-!
# Transactions that go through

`Tx.Succeeds Q t s w`: run alone from the store `s` and the world `w`, the transaction `t` returns, and its result, store
and world satisfy `Q`. Unlike `Tx.Ensures` it excludes errors, so the answers of the world matter.
-/

namespace CorpoPay.Transaction

variable {I : Interface} {α β : Type}

namespace Tx

def Succeeds (Q : α → I.Store → I.World → Prop) : Tx I α → I.Store → I.World → Prop
  | .ret a, s, w => Q a s w
  | .throw _, _, _ => False
  | .read k, s, w => (k s).Succeeds Q s w
  | .write f k, s, w => k.Succeeds Q (f s) w
  | .lock _ k, s, w => k.Succeeds Q s w
  | .ask q k, s, w => (k (I.reply w q).1).Succeeds Q s (I.reply w q).2

variable {Q Q' : α → I.Store → I.World → Prop} {s : I.Store} {w : I.World}

@[simp] theorem succeeds_ret (a : α) : (ret a : Tx I α).Succeeds Q s w ↔ Q a s w := Iff.rfl

@[simp] theorem succeeds_throw (e : I.Err) : (throw e : Tx I α).Succeeds Q s w ↔ False := Iff.rfl

@[simp] theorem succeeds_get (f : I.Store → α) : (get f).Succeeds Q s w ↔ Q (f s) s w := Iff.rfl

@[simp] theorem succeeds_modify {Q : Unit → I.Store → I.World → Prop} (f : I.Store → I.Store) :
    (modify f).Succeeds Q s w ↔ Q () (f s) w := Iff.rfl

@[simp] theorem succeeds_acquire {Q : Unit → I.Store → I.World → Prop} (l : I.Lock) :
    (acquire l).Succeeds Q s w ↔ Q () s w := Iff.rfl

@[simp] theorem succeeds_query (q : I.Query) {Q : I.Answer q → I.Store → I.World → Prop} :
    (query q).Succeeds Q s w ↔ Q (I.reply w q).1 s (I.reply w q).2 := Iff.rfl

@[simp] theorem succeeds_bind {Q : β → I.Store → I.World → Prop} (t : Tx I α) (f : α → Tx I β) :
    (t.bind f).Succeeds Q s w ↔ t.Succeeds (fun a s' w' => (f a).Succeeds Q s' w') s w := by
  induction t generalizing s w with
  | ret a => rfl
  | throw e => rfl
  | read k ih => exact ih s
  | write g k ih => exact ih
  | lock l k ih => exact ih
  | ask q k ih => exact ih _

@[simp] theorem succeeds_when {Q : Unit → I.Store → I.World → Prop} (c : Prop) [Decidable c] (t : Tx I Unit) :
    (when c t).Succeeds Q s w ↔ (c → t.Succeeds Q s w) ∧ (¬ c → Q () s w) := by
  unfold when
  split <;> simp_all

theorem succeeds_ite (c : Prop) [Decidable c] {t u : Tx I α} :
    (if c then t else u).Succeeds Q s w ↔ (c → t.Succeeds Q s w) ∧ (¬ c → u.Succeeds Q s w) := by
  split <;> simp_all

theorem succeeds_lift {r : Except I.Err α} : (lift r).Succeeds Q s w ↔ ∃ a, r = .ok a ∧ Q a s w := by
  cases r <;> simp [lift]

theorem Succeeds.mono {t : Tx I α} (h : t.Succeeds Q s w) (hQ : ∀ a s' w', Q a s' w' → Q' a s' w') :
    t.Succeeds Q' s w := by
  induction t generalizing s w with
  | ret a => exact hQ _ _ _ h
  | throw e => exact h
  | read k ih => exact ih s h
  | write g k ih => exact ih h
  | lock l k ih => exact ih h
  | ask q k ih => exact ih _ h

/-- The rule for a loop: each element keeps `J`. -/
theorem succeeds_forEach {f : α → Tx I Unit} {J : I.Store → I.World → Prop} {Q : Unit → I.Store → I.World → Prop}
    {as : List α} (hstep : ∀ a ∈ as, ∀ s w, J s w → (f a).Succeeds (fun _ => J) s w)
    (hdone : ∀ s w, J s w → Q () s w) (h : J s w) : (forEach f as).Succeeds Q s w := by
  induction as generalizing s w with
  | nil => exact hdone s w h
  | cons a as ih =>
      simp only [forEach, succeeds_bind]
      refine (hstep a List.mem_cons_self s w h).mono fun _ s' w' h' => ?_
      exact ih (fun b hb => hstep b (List.mem_cons_of_mem _ hb)) h'

theorem succeeds_collect {f : α → Tx I β} {J : I.Store → I.World → Prop} {Q : List β → I.Store → I.World → Prop}
    {as : List α} (hstep : ∀ a ∈ as, ∀ s w, J s w → (f a).Succeeds (fun _ => J) s w)
    (hdone : ∀ bs s w, J s w → Q bs s w) (h : J s w) : (collect f as).Succeeds Q s w := by
  induction as generalizing s w Q with
  | nil => exact hdone [] s w h
  | cons a as ih =>
      simp only [collect, succeeds_bind]
      refine (hstep a List.mem_cons_self s w h).mono fun b s' w' h' => ?_
      exact ih (fun c hc => hstep c (List.mem_cons_of_mem _ hc)) (fun bs s'' w'' => hdone (b :: bs) s'' w'') h'

/-- What `Succeeds` says is what `run` does. -/
theorem Succeeds.run {t : Tx I α} (h : t.Succeeds Q s w) :
    ∃ a s' w', t.run s w = (.ok (a, s'), w') ∧ Q a s' w' := by
  induction t generalizing s w with
  | ret a => exact ⟨a, s, w, rfl, h⟩
  | throw e => exact h.elim
  | read k ih => exact ih s h
  | write g k ih => exact ih h
  | lock l k ih => exact ih h
  | ask q k ih => exact ih _ h

end Tx

end CorpoPay.Transaction
