import CorpoPay.Transaction.Contract

/-!
# Programs that nothing interferes with

`Tx.Ensures Q E t s`: run alone from `s`, the transaction `t` ends in a result and a store with `Q`, or in an
error with `E`, whatever the outside world answers. `Job.Ensures` is the same for a job, where the store after
an error is the one before the transaction that failed.
-/

namespace CorpoPay.Transaction

variable {I : Interface} {α β : Type}

namespace Tx

def Ensures (Q : α → I.Store → Prop) (E : I.Err → Prop) : Tx I α → I.Store → Prop
  | .ret a, s => Q a s
  | .throw e, _ => E e
  | .read k, s => (k s).Ensures Q E s
  | .write f k, s => k.Ensures Q E (f s)
  | .lock _ k, s => k.Ensures Q E s
  | .ask _ k, s => ∀ a, (k a).Ensures Q E s

variable {Q Q' : α → I.Store → Prop} {E E' : I.Err → Prop} {s : I.Store}

/-! ## One rule for each statement -/

@[simp] theorem ensures_ret (a : α) : (ret a : Tx I α).Ensures Q E s ↔ Q a s := Iff.rfl

@[simp] theorem ensures_throw (e : I.Err) : (throw e : Tx I α).Ensures Q E s ↔ E e := Iff.rfl

@[simp] theorem ensures_get (f : I.Store → α) : (get f).Ensures Q E s ↔ Q (f s) s := Iff.rfl

@[simp] theorem ensures_modify {Q : Unit → I.Store → Prop} (f : I.Store → I.Store) :
    (modify f).Ensures Q E s ↔ Q () (f s) := Iff.rfl

@[simp] theorem ensures_acquire {Q : Unit → I.Store → Prop} (l : I.Lock) :
    (acquire l).Ensures Q E s ↔ Q () s := Iff.rfl

@[simp] theorem ensures_query (q : I.Query) {Q : I.Answer q → I.Store → Prop} :
    (query q).Ensures Q E s ↔ ∀ a, Q a s := Iff.rfl

@[simp] theorem ensures_bind {Q : β → I.Store → Prop} (t : Tx I α) (f : α → Tx I β) :
    (t.bind f).Ensures Q E s ↔ t.Ensures (fun a s' => (f a).Ensures Q E s') E s := by
  induction t generalizing s with
  | ret a => rfl
  | throw e => rfl
  | read k ih => exact ih s
  | write g k ih => exact ih
  | lock l k ih => exact ih
  | ask q k ih => exact forall_congr' fun a => ih a

@[simp] theorem ensures_ite (c : Prop) [Decidable c] (t u : Tx I α) :
    (if c then t else u).Ensures Q E s ↔ (c → t.Ensures Q E s) ∧ (¬ c → u.Ensures Q E s) := by
  split <;> simp_all

@[simp] theorem ensures_when {Q : Unit → I.Store → Prop} (c : Prop) [Decidable c] (t : Tx I Unit) :
    (when c t).Ensures Q E s ↔ (c → t.Ensures Q E s) ∧ (¬ c → Q () s) := by
  simp [when]

theorem ensures_lift (r : Except I.Err α) :
    (lift r).Ensures Q E s ↔ (∀ a, r = .ok a → Q a s) ∧ ∀ e, r = .error e → E e := by
  cases r <;> simp [lift]

theorem Ensures.mono {t : Tx I α} (h : t.Ensures Q E s) (hQ : ∀ a s', Q a s' → Q' a s')
    (hE : ∀ e, E e → E' e) : t.Ensures Q' E' s := by
  induction t generalizing s with
  | ret a => exact hQ _ _ h
  | throw e => exact hE _ h
  | read k ih => exact ih s h
  | write g k ih => exact ih h
  | lock l k ih => exact ih h
  | ask q k ih => exact fun a => ih a (h a)

theorem Ensures.of_forall {t : Tx I α} (hQ : ∀ a s', Q a s') (hE : ∀ e, E e) : t.Ensures Q E s := by
  induction t generalizing s with
  | ret a => exact hQ a s
  | throw e => exact hE e
  | read k ih => exact ih s
  | write f k ih => exact ih
  | lock l k ih => exact ih
  | ask q k ih => exact fun a => ih a

theorem Ensures.and {t : Tx I α} (h : t.Ensures Q E s) (h' : t.Ensures Q' E' s) :
    t.Ensures (fun a s' => Q a s' ∧ Q' a s') (fun e => E e ∧ E' e) s := by
  induction t generalizing s with
  | ret a => exact ⟨h, h'⟩
  | throw e => exact ⟨h, h'⟩
  | read k ih => exact ih s h h'
  | write g k ih => exact ih h h'
  | lock l k ih => exact ih h h'
  | ask q k ih => exact fun a => ih a (h a) (h' a)

/-- The rule for a loop: each element keeps `J`, which may speak about the elements still to come. -/
theorem ensures_forEach {f : α → Tx I Unit} {J : List α → I.Store → Prop} {Q : Unit → I.Store → Prop}
    {as : List α} (hstep : ∀ a as s, J (a :: as) s → (f a).Ensures (fun _ s' => J as s') E s)
    (hdone : ∀ s, J [] s → Q () s) (h : J as s) : (forEach f as).Ensures Q E s := by
  induction as generalizing s with
  | nil => exact hdone s h
  | cons a as ih =>
      simp only [forEach, ensures_bind]
      exact (hstep a as s h).mono (fun _ _ h' => ih h') fun _ h' => h'

/-! ## The two executions -/

/-- What `Ensures` says is what `run` does. -/
theorem Ensures.run {t : Tx I α} (h : t.Ensures Q E s) (w : I.World) :
    (∀ a s' w', t.run s w = (.ok (a, s'), w') → Q a s') ∧ ∀ e w', t.run s w = (.error e, w') → E e := by
  induction t generalizing s w with
  | ret a => simp only [Tx.run]; exact ⟨by rintro _ _ _ ⟨⟩; exact h, by rintro _ _ ⟨⟩⟩
  | throw e => simp only [Tx.run]; exact ⟨by rintro _ _ _ ⟨⟩, by rintro _ _ ⟨⟩; exact h⟩
  | read k ih => exact ih s h w
  | write g k ih => exact ih h w
  | lock l k ih => exact ih h w
  | ask q k ih => exact ih _ (h _) _

/-- In a pool, a transaction that nobody disturbs does what it does alone. -/
theorem WP.of_ensures {inv : Shared I → Prop} {C : Contract I inv} {ℓ : Local I} {w : I.Store → I.Store}
    {σ : Shared I} {t : Tx I β} {Q : β → I.Store → Prop}
    {post : Local I → (I.Store → I.Store) → β → Shared I → Prop}
    (hrely : ∀ ℓ' σ σ', ℓ.Before ℓ' → C.rely ℓ' σ σ' → σ'.store = σ.store)
    (hask : ∀ ℓ' σ w, C.guar ℓ' σ (σ.withWorld w)) (hwrite : ∀ ℓ' v v', C.write ℓ' v v')
    (h : t.Ensures Q (fun _ => True) (w σ.store))
    (hpost : ∀ ℓ' w' b σ', ℓ.Before ℓ' → inv σ' → σ'.store = σ.store → Q b (w' σ.store) → post ℓ' w' b σ') :
    t.WP C post ℓ w σ := by
  induction t generalizing ℓ w σ with
  | ret b =>
      intro σ' hr hi
      exact hpost ℓ w b σ' (.refl _) hi (hrely _ _ _ (.refl _) hr) h
  | throw e => trivial
  | read k ih =>
      intro σ' hr hi
      have hs := hrely _ _ _ (.refl _) hr
      refine ih _ (fun ℓ' σ σ' hb => hrely ℓ' σ σ' (ℓ.before_tick.trans hb)) (by rw [hs]; exact h) ?_
      intro ℓ' w' b σ'' hb hi' hs' hq
      exact hpost ℓ' w' b σ'' (ℓ.before_tick.trans hb) hi' (hs'.trans hs) (hs ▸ hq)
  | write f k ih =>
      intro σ' hr hi
      have hs := hrely _ _ _ (.refl _) hr
      refine ⟨hwrite _ _ _, ih (fun ℓ' σ σ' hb => hrely ℓ' σ σ' (ℓ.before_tick.trans hb)) ?_ ?_⟩
      · rw [hs]; exact h
      · intro ℓ' w' b σ'' hb hi' hs' hq
        exact hpost ℓ' w' b σ'' (ℓ.before_tick.trans hb) hi' (hs'.trans hs) (hs ▸ hq)
  | lock l k ih =>
      intro σ' hr hi
      have hs := hrely _ _ _ (.refl _) hr
      refine ih (fun ℓ' σ σ' hb => hrely ℓ' σ σ' ((ℓ.before_take l).trans hb)) (by rw [hs]; exact h) ?_
      intro ℓ' w' b σ'' hb hi' hs' hq
      exact hpost ℓ' w' b σ'' ((ℓ.before_take l).trans hb) hi' (hs'.trans hs) (hs ▸ hq)
  | ask q k ih =>
      intro σ' hr hi
      have hs := hrely _ _ _ (.refl _) hr
      refine ⟨hask _ _ _, ih _ (fun ℓ' σ σ' hb => hrely ℓ' σ σ' (ℓ.before_tick.trans hb)) ?_ ?_⟩
      · rw [Shared.withWorld_store, hs]; exact h _
      · intro ℓ' w' b σ'' hb hi' hs' hq
        exact hpost ℓ' w' b σ'' (ℓ.before_tick.trans hb) hi' (hs'.trans hs)
          (by rw [Shared.withWorld_store, hs] at hq; exact hq)

end Tx

namespace Job

def Ensures (Q : Except I.Err α → I.Store → Prop) : Job I α → I.Store → Prop
  | .ret a, s => Q (.ok a) s
  | .throw e, s => Q (.error e) s
  | .txn body k, s =>
      body.Ensures (fun b s' => (k (.ok b)).Ensures Q s') (fun e => (k (.error e)).Ensures Q s) s
  | .ask _ k, s => ∀ a, (k a).Ensures Q s

variable {Q : Except I.Err α → I.Store → Prop} {J : I.Store → Prop} {s : I.Store}

@[simp] theorem ensures_ret (a : α) : (ret a : Job I α).Ensures Q s ↔ Q (.ok a) s := Iff.rfl

@[simp] theorem ensures_throw (e : I.Err) : (throw e : Job I α).Ensures Q s ↔ Q (.error e) s := Iff.rfl

@[simp] theorem ensures_transaction (body : Tx I α) :
    (transaction body).Ensures Q s ↔
      body.Ensures (fun a s' => Q (.ok a) s') (fun e => Q (.error e) s) s := Iff.rfl

@[simp] theorem ensures_get (f : I.Store → α) : (get f).Ensures Q s ↔ Q (.ok (f s)) s := Iff.rfl

@[simp] theorem ensures_query (q : I.Query) {Q : Except I.Err (I.Answer q) → I.Store → Prop} :
    (query q).Ensures Q s ↔ ∀ a, Q (.ok a) s := Iff.rfl

@[simp] theorem ensures_bind {Q : Except I.Err β → I.Store → Prop} (j : Job I α) (f : α → Job I β) :
    (j.bind f).Ensures Q s ↔
      j.Ensures (fun r s' => match r with | .ok a => (f a).Ensures Q s' | .error e => Q (.error e) s') s := by
  induction j generalizing s with
  | ret a => rfl
  | throw e => rfl
  | txn body k ih =>
      simp only [bind, Ensures]
      constructor <;> intro h <;> exact h.mono (fun _ _ h' => by simpa [ih] using h') fun _ h' => by simpa [ih] using h'
  | ask q k ih => exact forall_congr' fun a => ih a

/-- A pure function that throws: what follows uses its result. -/
theorem ensures_ofExcept_bind {Q : Except I.Err β → I.Store → Prop} {r : Except I.Err α} {f : α → Job I β}
    (hok : ∀ a, r = .ok a → (f a).Ensures Q s) (herror : ∀ e, r = .error e → Q (.error e) s) :
    ((ofExcept r).bind f).Ensures Q s := by
  cases r with
  | ok a => exact hok a rfl
  | error e => exact herror e rfl

@[simp] theorem ensures_mapError (f : I.Err → I.Err) (j : Job I α) :
    (j.mapError f).Ensures Q s ↔ j.Ensures (fun r s' => Q (r.mapError f) s') s := by
  induction j generalizing s with
  | ret a => rfl
  | throw e => rfl
  | txn body k ih =>
      simp only [mapError, Ensures]
      constructor <;> intro h <;> exact h.mono (fun _ _ h' => by simpa [ih] using h') fun _ h' => by simpa [ih] using h'
  | ask q k ih => exact forall_congr' fun a => ih a

@[simp] theorem ensures_orElse (f : I.Err → Job I α) (j : Job I α) :
    (j.orElse f).Ensures Q s ↔
      j.Ensures (fun r s' => match r with | .ok a => Q (.ok a) s' | .error e => (f e).Ensures Q s') s := by
  induction j generalizing s with
  | ret a => rfl
  | throw e => rfl
  | txn body k ih =>
      simp only [orElse, Ensures]
      constructor <;> intro h <;> exact h.mono (fun _ _ h' => by simpa [ih] using h') fun _ h' => by simpa [ih] using h'
  | ask q k ih => exact forall_congr' fun a => ih a

theorem Ensures.mono {Q' : Except I.Err α → I.Store → Prop} {j : Job I α} (h : j.Ensures Q s)
    (hQ : ∀ r s', Q r s' → Q' r s') : j.Ensures Q' s := by
  induction j generalizing s with
  | ret a => exact hQ _ _ h
  | throw e => exact hQ _ _ h
  | txn body k ih => exact Tx.Ensures.mono h (fun b _ h' => ih (.ok b) h') fun e h' => ih (.error e) h'
  | ask q k ih => exact fun a => ih a (h a)

/-- A job that is run again: an attempt that fails leaves what the next one starts from. -/
theorem ensures_retry {j : Job I α} (n : Nat)
    (h : ∀ s, J s → j.Ensures (fun r s' => match r with | .ok _ => Q r s' | .error _ => J s' ∧ Q r s') s) (hs : J s) :
    (j.retry n).Ensures Q s := by
  induction n generalizing s with
  | zero =>
      refine (h s hs).mono fun r s' hr => ?_
      cases r with
      | ok a => exact hr
      | error e => exact hr.2
  | succ n ih =>
      refine (ensures_orElse _ _).mpr ((h s hs).mono fun r s' hr => ?_)
      cases r with
      | ok a => exact hr
      | error e => exact ih hr.1

theorem Ensures.and {Q' : Except I.Err α → I.Store → Prop} {j : Job I α} (h : j.Ensures Q s) (h' : j.Ensures Q' s) :
    j.Ensures (fun r s' => Q r s' ∧ Q' r s') s := by
  induction j generalizing s with
  | ret a => exact ⟨h, h'⟩
  | throw e => exact ⟨h, h'⟩
  | txn body k ih =>
      exact (Tx.Ensures.and h h').mono (fun b _ hb => ih (.ok b) hb.1 hb.2) fun e he => ih (.error e) he.1 he.2
  | ask q k ih => exact fun a => ih a (h a) (h' a)

/-- What `Ensures` says is what `run` does. -/
theorem Ensures.run {j : Job I α} (h : j.Ensures Q s) (w : I.World) {r : Except I.Err α} {s' : I.Store}
    {w' : I.World} (hr : j.run s w = (r, s', w')) : Q r s' := by
  induction j generalizing s w with
  | ret a => cases hr; exact h
  | throw e => cases hr; exact h
  | txn body k ih =>
      simp only [Job.run] at hr
      split at hr
      · rename_i b s₁ w₁ hb
        exact ih (.ok b) ((Tx.Ensures.run h w).1 _ _ _ hb) w₁ hr
      · rename_i e w₁ hb
        exact ih (.error e) ((Tx.Ensures.run h w).2 _ _ hb) w₁ hr
  | ask q k ih => exact ih _ (h _) _ hr

end Job

end CorpoPay.Transaction
