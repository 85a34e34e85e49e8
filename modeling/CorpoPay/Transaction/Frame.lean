import Mathlib.Order.Defs.Unbundled
import CorpoPay.Transaction.Ensures

/-!
# What a program leaves as it was

`Tx.Keeps R t`: run alone from any store, `t` ends in a store that is related to the first by `R`. For a preorder
`R` it is enough to look at the statements one by one.
-/

namespace CorpoPay.Transaction

variable {I : Interface} {α β : Type}

namespace Tx

def Keeps (R : I.Store → I.Store → Prop) (t : Tx I α) : Prop := ∀ s, t.Ensures (fun _ s' => R s s') (fun _ => True) s

variable {R : I.Store → I.Store → Prop}

theorem keeps_modify {f : I.Store → I.Store} (h : ∀ s, R s (f s)) : (modify f).Keeps R := h

theorem keeps_throw (e : I.Err) : (throw e : Tx I α).Keeps R := fun _ => trivial

section Refl

variable [Std.Refl R]

theorem keeps_ret (a : α) : (ret a : Tx I α).Keeps R := refl_of R

theorem keeps_get (f : I.Store → α) : (get f).Keeps R := refl_of R

theorem keeps_acquire (l : I.Lock) : (acquire l).Keeps R := refl_of R

theorem keeps_query (q : I.Query) : (query q).Keeps R := fun s _ => refl_of R s

theorem keeps_lift (r : Except I.Err α) : (lift r).Keeps R := by
  cases r with
  | ok a => exact keeps_ret a
  | error e => exact keeps_throw e

theorem keeps_when {c : Prop} [Decidable c] {t : Tx I Unit} (h : c → t.Keeps R) : (when c t).Keeps R := by
  unfold when
  split
  · rename_i hc; exact h hc
  · exact keeps_ret ()

end Refl

variable [IsPreorder I.Store R]

theorem keeps_bind {t : Tx I α} {f : α → Tx I β} (ht : t.Keeps R) (hf : ∀ a, (f a).Keeps R) :
    (t.bind f).Keeps R := by
  intro s
  rw [ensures_bind]
  exact (ht s).mono (fun a s₁ h₁ => (hf a s₁).mono (fun _ _ h₂ => trans_of R h₁ h₂) fun _ h => h) fun _ h => h

omit [IsPreorder I.Store R] in
/-- The rule for a continuation that uses what a pure function returned. -/
theorem keeps_bind_lift {r : Except I.Err α} {f : α → Tx I β} (hf : ∀ a, r = .ok a → (f a).Keeps R) :
    ((lift r).bind f).Keeps R := by
  cases r with
  | ok a => exact hf a rfl
  | error e => exact keeps_throw e

theorem keeps_forEach {f : α → Tx I Unit} {as : List α} (h : ∀ a ∈ as, (f a).Keeps R) : (forEach f as).Keeps R := by
  induction as with
  | nil => exact keeps_ret ()
  | cons a as ih =>
      exact keeps_bind (h a List.mem_cons_self) fun _ => ih fun b hb => h b (List.mem_cons_of_mem _ hb)

theorem keeps_collect {f : α → Tx I β} {as : List α} (h : ∀ a ∈ as, (f a).Keeps R) : (collect f as).Keeps R := by
  induction as with
  | nil => exact keeps_ret _
  | cons a as ih =>
      exact keeps_bind (h a List.mem_cons_self) fun _ =>
        keeps_bind (ih fun b hb => h b (List.mem_cons_of_mem _ hb)) fun _ => keeps_ret _

/-- What no answer changes stays over a run. -/
theorem world_run {R : I.World → I.World → Prop} [IsPreorder I.World R] (h : ∀ w q, R w (I.reply w q).2) (t : Tx I α)
    (s : I.Store) (w : I.World) : R w (t.run s w).2 := by
  induction t generalizing s w with
  | ret a => exact refl_of R w
  | throw e => exact refl_of R w
  | read k ih => exact ih s s w
  | write f k ih => exact ih (f s) w
  | lock l k ih => exact ih s w
  | ask q k ih => exact trans_of R (h w q) (ih _ s _)

end Tx

namespace Job

def Keeps (R : I.Store → I.Store → Prop) (j : Job I α) : Prop := ∀ s, j.Ensures (fun _ s' => R s s') s

variable {R : I.Store → I.Store → Prop} [IsPreorder I.Store R]

theorem keeps_ret (a : α) : (ret a : Job I α).Keeps R := refl_of R

theorem keeps_throw (e : I.Err) : (throw e : Job I α).Keeps R := refl_of R

theorem keeps_ofExcept (r : Except I.Err α) : (ofExcept r).Keeps R := by cases r <;> exact refl_of R

theorem keeps_get (f : I.Store → α) : (get f).Keeps R := refl_of R

theorem keeps_transaction {t : Tx I α} (h : t.Keeps R) : (transaction t).Keeps R := fun s =>
  (h s).mono (fun _ _ hs => hs) fun _ _ => refl_of R s

theorem keeps_bind {j : Job I α} {f : α → Job I β} (hj : j.Keeps R) (hf : ∀ a, (f a).Keeps R) :
    (j.bind f).Keeps R := by
  intro s
  rw [ensures_bind]
  refine (hj s).mono fun r s₁ h₁ => ?_
  cases r with
  | ok a => exact (hf a s₁).mono fun _ _ h₂ => trans_of R h₁ h₂
  | error e => exact h₁

theorem keeps_query (q : I.Query) : (query q).Keeps R := fun s _ => refl_of R s

omit [IsPreorder I.Store R] in
theorem keeps_mapError {j : Job I α} (h : j.Keeps R) (f : I.Err → I.Err) : (j.mapError f).Keeps R := fun s =>
  (ensures_mapError f j).mpr ((h s).mono fun _ _ hs => hs)

theorem keeps_orElse {j : Job I α} {f : I.Err → Job I α} (hj : j.Keeps R) (hf : ∀ e, (f e).Keeps R) :
    (j.orElse f).Keeps R := by
  intro s
  rw [ensures_orElse]
  refine (hj s).mono fun r s₁ h₁ => ?_
  cases r with
  | ok a => exact h₁
  | error e => exact (hf e s₁).mono fun _ _ h₂ => trans_of R h₁ h₂

theorem keeps_retry {j : Job I α} (hj : j.Keeps R) (n : Nat) : (j.retry n).Keeps R := by
  induction n with
  | zero => exact hj
  | succ n ih => exact keeps_orElse hj fun _ => ih

theorem world_run {R : I.World → I.World → Prop} [IsPreorder I.World R] (h : ∀ w q, R w (I.reply w q).2) (j : Job I α)
    (s : I.Store) (w : I.World) : R w (j.run s w).2.2 := by
  induction j generalizing s w with
  | ret a => exact refl_of R w
  | throw e => exact refl_of R w
  | txn body k ih =>
      have hbody := Tx.world_run h body s w
      simp only [run]
      rcases hrun : body.run s w with ⟨_ | ⟨b, s'⟩, w'⟩
      · rw [hrun] at hbody
        exact trans_of R hbody (ih _ _ _)
      · rw [hrun] at hbody
        exact trans_of R hbody (ih _ _ _)
  | ask q k ih => exact trans_of R (h w q) (ih _ s _)

omit [IsPreorder I.Store R] in
/-- What a job that is run alone does to the store. -/
theorem Keeps.run {j : Job I α} (h : j.Keeps R) {s s' : I.Store} {w w' : I.World} {r : Except I.Err α}
    (hr : j.run s w = (r, s', w')) : R s s' := (h s).run w hr

end Job

end CorpoPay.Transaction
