import CorpoPay.Transaction.Ensures

/-!
# Rules for contracts

Most jobs read in single statements first and then run one transaction. `Tx.Writes P t w` says what the pending
writes of `t` may come to, whatever its reads return.
-/

namespace CorpoPay.Transaction

variable {I : Interface} {α β : Type} {inv : Shared I → Prop} {C : Contract I inv}

/-! ## Jobs -/

namespace Job.WP

variable {Q : α → Shared I → Prop} {ℓ : Local I} {σ : Shared I}

/-- A transaction at the end of a job. -/
theorem transaction {body : Tx I α} (h : ∀ σ₁, C.rely ℓ σ σ₁ → inv σ₁ →
      body.WP C (fun ℓ' w b σ₂ => C.guar ℓ' σ₂ (σ₂.withStore (w σ₂.store)) ∧
        ∀ σ₃, C.rely ⟨ℓ'.pc + 1, ∅⟩ (σ₂.withStore (w σ₂.store)) σ₃ → inv σ₃ → Q b σ₃) ℓ.tick id σ₁) :
    (Job.transaction body).WP C Q ℓ σ := ⟨h, fun _ _ _ _ => trivial⟩

/-- A single statement that reads. -/
theorem get_bind (hguar : ∀ ℓ σ, C.guar ℓ σ σ) {f : I.Store → β} {k : β → Job I α}
    (h : ∀ σ₁, C.rely ℓ σ σ₁ → inv σ₁ → ∀ σ₂, C.rely ℓ.tick.tick σ₁ σ₂ → inv σ₂ →
      (k (f σ₁.store)).WP C Q ⟨ℓ.pc + 3, ∅⟩ σ₂) : ((Job.get f).bind k).WP C Q ℓ σ := by
  refine ⟨fun σ₀ hr₀ _ σ₁ hr₁ hi₁ σ₂ hr₂ hi₂ => ⟨hguar _ _, ?_⟩, fun _ _ _ _ => trivial⟩
  exact h σ₁ (C.rely_trans hr₀ (C.rely_anti ℓ.before_tick hr₁)) hi₁ σ₂ hr₂ hi₂

theorem ofExcept_bind {r : Except I.Err β} {k : β → Job I α} (h : ∀ b, r = .ok b → (k b).WP C Q ℓ σ) :
    ((Job.ofExcept r).bind k).WP C Q ℓ σ := by
  cases r with
  | ok b => exact h b rfl
  | error e => trivial

theorem bind {Q : β → Shared I → Prop} {Q' : α → Shared I → Prop} {j : Job I β} {f : β → Job I α}
    (hf : ∀ b ℓ σ, (f b).WP C Q' ℓ σ) (h : j.WP C Q ℓ σ) (hσ : inv σ) : (j.bind f).WP C Q' ℓ σ := by
  induction j generalizing ℓ σ with
  | ret b => exact hf b ℓ σ
  | throw e => trivial
  | txn body k ih =>
      refine ⟨fun σ₁ hr hi => (h.1 σ₁ hr hi).mono fun ℓ' w b σ₂ _ hi₂ hpost => ⟨hpost.1, ?_⟩, fun e pc σ₁ hi => ?_⟩
      · exact ih (.ok b) hpost.2 (C.guar_inv hpost.1 hi₂)
      · exact ih (.error e) (h.2 e pc σ₁ hi) hi
  | ask q k ih => exact fun σ₁ hr hi => ⟨(h σ₁ hr hi).1, ih _ (h σ₁ hr hi).2 (C.guar_inv (h σ₁ hr hi).1 hi)⟩

end Job.WP

/-! ## Pending writes -/

namespace Tx

/-- The pending writes and the result of the transaction satisfy `P`, whatever is read. -/
def Writes (P : (I.Store → I.Store) → α → Prop) : Tx I α → (I.Store → I.Store) → Prop
  | .ret a, w => P w a
  | .throw _, _ => True
  | .read k, w => ∀ s, (k s).Writes P w
  | .write f k, w => k.Writes P (f ∘ w)
  | .lock _ k, w => k.Writes P w
  | .ask _ k, w => ∀ a, (k a).Writes P w

variable {P : (I.Store → I.Store) → β → Prop} {w : I.Store → I.Store}

@[simp] theorem writes_ret (b : β) : (ret b : Tx I β).Writes P w ↔ P w b := Iff.rfl

@[simp] theorem writes_throw (e : I.Err) : (throw e : Tx I β).Writes P w := trivial

@[simp] theorem writes_get (f : I.Store → β) : (get f).Writes P w ↔ ∀ s, P w (f s) := Iff.rfl

@[simp] theorem writes_modify {P : (I.Store → I.Store) → Unit → Prop} (f : I.Store → I.Store) :
    (modify f).Writes P w ↔ P (f ∘ w) () := Iff.rfl

@[simp] theorem writes_acquire {P : (I.Store → I.Store) → Unit → Prop} (l : I.Lock) :
    (acquire l).Writes P w ↔ P w () := Iff.rfl

@[simp] theorem writes_query (q : I.Query) {P : (I.Store → I.Store) → I.Answer q → Prop} :
    (query q).Writes P w ↔ ∀ a, P w a := Iff.rfl

@[simp] theorem writes_bind {t : Tx I α} {f : α → Tx I β} :
    (t.bind f).Writes P w ↔ t.Writes (fun w' a => (f a).Writes P w') w := by
  induction t generalizing w with
  | ret a => rfl
  | throw e => rfl
  | read k ih => exact forall_congr' fun s => ih s
  | write g k ih => exact ih
  | lock l k ih => exact ih
  | ask q k ih => exact forall_congr' fun a => ih a

@[simp] theorem writes_locks {P : (I.Store → I.Store) → Unit → Prop} (l : α → I.Lock) (as : List α) :
    (forEach (fun a => acquire (l a)) as).Writes P w ↔ P w () := by
  induction as with
  | nil => rfl
  | cons a as ih => exact ih

theorem writes_ite (c : Prop) [Decidable c] {t u : Tx I β} (ht : c → t.Writes P w) (hu : ¬ c → u.Writes P w) :
    (if c then t else u).Writes P w := by
  split
  · rename_i hc; exact ht hc
  · rename_i hc; exact hu hc

theorem writes_lift {r : Except I.Err β} (h : ∀ a, r = .ok a → P w a) : (lift r).Writes P w := by
  cases r with
  | ok a => exact h a rfl
  | error e => trivial

theorem Writes.mono {P' : (I.Store → I.Store) → β → Prop} {t : Tx I β} (h : t.Writes P w)
    (hP : ∀ w' b, P w' b → P' w' b) : t.Writes P' w := by
  induction t generalizing w with
  | ret b => exact hP _ _ h
  | throw e => trivial
  | read k ih => exact fun s => ih s (h s)
  | write g k ih => exact ih h
  | lock l k ih => exact ih h
  | ask q k ih => exact fun a => ih a (h a)

theorem Writes.of_forall {t : Tx I β} (h : ∀ w' b, P w' b) : t.Writes P w := by
  induction t generalizing w with
  | ret b => exact h _ _
  | throw e => trivial
  | read k ih => exact fun s => ih s
  | write g k ih => exact ih
  | lock l k ih => exact ih
  | ask q k ih => exact fun a => ih a

/-- The transaction fails with an error of `E` only, and its pending writes and result satisfy `P`, when the committed rows
that its statements read are as `R` says. -/
def Passes (R : I.Store → Prop) (E : I.Err → Prop) (P : (I.Store → I.Store) → α → Prop) :
    Tx I α → (I.Store → I.Store) → Prop
  | .ret a, w => P w a
  | .throw e, _ => E e
  | .read k, w => ∀ s, R s → (k (w s)).Passes R E P w
  | .write f k, w => k.Passes R E P (f ∘ w)
  | .lock _ k, w => k.Passes R E P w
  | .ask _ k, w => ∀ a, (k a).Passes R E P w

section Passes

variable {R : I.Store → Prop} {E : I.Err → Prop}

@[simp] theorem passes_ret (b : β) : (ret b : Tx I β).Passes R E P w ↔ P w b := Iff.rfl

@[simp] theorem passes_throw (e : I.Err) : (throw e : Tx I β).Passes R E P w ↔ E e := Iff.rfl

@[simp] theorem passes_get (f : I.Store → β) : (get f).Passes R E P w ↔ ∀ s, R s → P w (f (w s)) := Iff.rfl

@[simp] theorem passes_modify {P : (I.Store → I.Store) → Unit → Prop} (f : I.Store → I.Store) :
    (modify f).Passes R E P w ↔ P (f ∘ w) () := Iff.rfl

@[simp] theorem passes_acquire {P : (I.Store → I.Store) → Unit → Prop} (l : I.Lock) :
    (acquire l).Passes R E P w ↔ P w () := Iff.rfl

@[simp] theorem passes_query (q : I.Query) {P : (I.Store → I.Store) → I.Answer q → Prop} :
    (query q).Passes R E P w ↔ ∀ a, P w a := Iff.rfl

@[simp] theorem passes_bind {t : Tx I α} {f : α → Tx I β} :
    (t.bind f).Passes R E P w ↔ t.Passes R E (fun w' a => (f a).Passes R E P w') w := by
  induction t generalizing w with
  | ret a => rfl
  | throw e => rfl
  | read k ih => exact forall_congr' fun s => imp_congr_right fun _ => ih _
  | write g k ih => exact ih
  | lock l k ih => exact ih
  | ask q k ih => exact forall_congr' fun a => ih a

theorem passes_ite (c : Prop) [Decidable c] {t u : Tx I β} (ht : c → t.Passes R E P w) (hu : ¬ c → u.Passes R E P w) :
    (if c then t else u).Passes R E P w := by
  split
  · rename_i hc; exact ht hc
  · rename_i hc; exact hu hc

theorem passes_lift {r : Except I.Err β} {b : β} (hr : r = .ok b) (h : P w b) : (lift r).Passes R E P w := by
  rw [hr]; exact h

theorem Passes.mono {P' : (I.Store → I.Store) → β → Prop} {t : Tx I β} (h : t.Passes R E P w)
    (hP : ∀ w' b, P w' b → P' w' b) : t.Passes R E P' w := by
  induction t generalizing w with
  | ret b => exact hP _ _ h
  | throw e => exact h
  | read k ih => exact fun s hs => ih _ (h s hs)
  | write g k ih => exact ih h
  | lock l k ih => exact ih h
  | ask q k ih => exact fun a => ih a (h a)

end Passes

/-- The same where the answers are as `A` says. -/
def WritesIf (A : (q : I.Query) → I.Answer q → Prop) (P : (I.Store → I.Store) → α → Prop) :
    Tx I α → (I.Store → I.Store) → Prop
  | .ret a, w => P w a
  | .throw _, _ => True
  | .read k, w => ∀ s, (k s).WritesIf A P w
  | .write f k, w => k.WritesIf A P (f ∘ w)
  | .lock _ k, w => k.WritesIf A P w
  | .ask q k, w => ∀ a, A q a → (k a).WritesIf A P w

/-- `K` holds to the end of the transaction, where the pending writes are the ones that `Writes` allows. -/
theorem WP.of_writes {ℓ : Local I} {σ : Shared I} {t : Tx I β} {K : Shared I → Prop}
    {post : Local I → (I.Store → I.Store) → β → Shared I → Prop}
    (hrely : ∀ ℓ' σ σ', ℓ.Before ℓ' → C.rely ℓ' σ σ' → inv σ' → K σ → K σ')
    (hworld : ∀ σ w, K σ → K (σ.withWorld w)) (hask : ∀ ℓ' σ w, C.guar ℓ' σ (σ.withWorld w))
    (hwrite : ∀ ℓ' v v', C.write ℓ' v v') (hK : K σ) (h : t.Writes P w)
    (hpost : ∀ ℓ' w' b σ', ℓ.Before ℓ' → inv σ' → K σ' → P w' b → post ℓ' w' b σ') : t.WP C post ℓ w σ := by
  induction t generalizing ℓ w σ with
  | ret b => exact fun σ' hr hi => hpost ℓ w b σ' (.refl _) hi (hrely _ _ _ (.refl _) hr hi hK) h
  | throw e => trivial
  | read k ih =>
      exact fun σ' hr hi => ih _ (fun ℓ' σ σ' hb => hrely ℓ' σ σ' (ℓ.before_tick.trans hb))
        (hrely _ _ _ (.refl _) hr hi hK) (h _) fun ℓ' w' b σ'' hb => hpost ℓ' w' b σ'' (ℓ.before_tick.trans hb)
  | write f k ih =>
      exact fun σ' hr hi => ⟨hwrite _ _ _, ih (fun ℓ' σ σ' hb => hrely ℓ' σ σ' (ℓ.before_tick.trans hb))
        (hrely _ _ _ (.refl _) hr hi hK) h fun ℓ' w' b σ'' hb => hpost ℓ' w' b σ'' (ℓ.before_tick.trans hb)⟩
  | lock l k ih =>
      exact fun σ' hr hi => ih (fun ℓ' σ σ' hb => hrely ℓ' σ σ' ((ℓ.before_take l).trans hb))
        (hrely _ _ _ (.refl _) hr hi hK) h fun ℓ' w' b σ'' hb => hpost ℓ' w' b σ'' ((ℓ.before_take l).trans hb)
  | ask q k ih =>
      exact fun σ' hr hi => ⟨hask _ _ _, ih _ (fun ℓ' σ σ' hb => hrely ℓ' σ σ' (ℓ.before_tick.trans hb))
        (hworld _ _ (hrely _ _ _ (.refl _) hr hi hK)) (h _)
        fun ℓ' w' b σ'' hb => hpost ℓ' w' b σ'' (ℓ.before_tick.trans hb)⟩

end Tx

/-! ## Questions -/

namespace Tx

/-- Every question of the transaction is one of `P`. -/
def Asks (P : I.Query → Prop) : Tx I α → Prop
  | .ret _ => True
  | .throw _ => True
  | .read k => ∀ s, (k s).Asks P
  | .write _ k => k.Asks P
  | .lock _ k => k.Asks P
  | .ask q k => P q ∧ ∀ a, (k a).Asks P

variable {P : I.Query → Prop}

@[simp] theorem asks_ret (a : α) : (ret a : Tx I α).Asks P := trivial

@[simp] theorem asks_throw (e : I.Err) : (throw e : Tx I α).Asks P := trivial

@[simp] theorem asks_get (f : I.Store → α) : (get f).Asks P := fun _ => trivial

@[simp] theorem asks_modify (f : I.Store → I.Store) : (modify f).Asks P := trivial

@[simp] theorem asks_acquire (l : I.Lock) : (acquire l).Asks P := trivial

@[simp] theorem asks_query (q : I.Query) : (query q).Asks P ↔ P q := ⟨fun h => h.1, fun h => ⟨h, fun _ => trivial⟩⟩

theorem asks_bind {t : Tx I α} {f : α → Tx I β} (ht : t.Asks P) (hf : ∀ a, (f a).Asks P) : (t.bind f).Asks P := by
  induction t with
  | ret a => exact hf a
  | throw e => trivial
  | read k ih => exact fun s => ih s (ht s)
  | write g k ih => exact ih ht
  | lock l k ih => exact ih ht
  | ask q k ih => exact ⟨ht.1, fun a => ih a (ht.2 a)⟩

theorem Asks.mono {P' : I.Query → Prop} {t : Tx I α} (h : t.Asks P) (hP : ∀ q, P q → P' q) : t.Asks P' := by
  induction t with
  | ret a => trivial
  | throw e => trivial
  | read k ih => exact fun s => ih s (h s)
  | write f k ih => exact ih h
  | lock l k ih => exact ih h
  | ask q k ih => exact ⟨hP q h.1, fun a => ih a (h.2 a)⟩

theorem Asks.of_forall {t : Tx I α} (h : ∀ q, P q) : t.Asks P := by
  induction t with
  | ret a => trivial
  | throw e => trivial
  | read k ih => exact fun s => ih s
  | write f k ih => exact ih
  | lock l k ih => exact ih
  | ask q k ih => exact ⟨h q, fun a => ih a⟩

theorem asks_lift (r : Except I.Err α) : (lift r).Asks P := by cases r <;> trivial

theorem asks_forEach {f : α → Tx I Unit} (h : ∀ a, (f a).Asks P) (as : List α) : (forEach f as).Asks P := by
  induction as with
  | nil => trivial
  | cons a as ih => exact asks_bind (h a) fun _ => ih

theorem asks_when {c : Prop} [Decidable c] {t : Tx I Unit} (h : t.Asks P) : (when c t).Asks P := by
  unfold when
  split
  · exact h
  · trivial

theorem asks_collect {f : α → Tx I β} (h : ∀ a, (f a).Asks P) (as : List α) : (collect f as).Asks P := by
  induction as with
  | nil => trivial
  | cons a as ih => exact asks_bind (h a) fun _ => asks_bind ih fun _ => trivial

end Tx

end CorpoPay.Transaction
