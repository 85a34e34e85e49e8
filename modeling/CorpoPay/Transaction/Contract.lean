import CorpoPay.Transaction.Pool

/-!
# Rely and guarantee

A contract of a job says what it tolerates from the others while it is at a given place (`rely`), what it does
to the shared state itself (`guar`), and what a statement may do to the rows it sees (`write`). The place is
the number of steps taken and the locks held. The others may do less as the job advances: `rely` only shrinks.

`Tx.WP` and `Job.WP` say that a program keeps its contract from a given state on, whatever the others do within
`rely`. `Pool.rely_guarantee` puts the contracts of the jobs of a pool together.
-/

namespace CorpoPay.Transaction

variable {I : Interface} {α β : Type}

/-- Where a job stands. -/
structure Local (I : Interface) where
  pc : Nat
  held : Set I.Lock

namespace Local

def tick (ℓ : Local I) : Local I := ⟨ℓ.pc + 1, ℓ.held⟩

def take (ℓ : Local I) (l : I.Lock) : Local I := ⟨ℓ.pc + 1, insert l ℓ.held⟩

/-- `ℓ'` is later in the same transaction. -/
def Before (ℓ ℓ' : Local I) : Prop := ℓ.pc ≤ ℓ'.pc ∧ ℓ.held ⊆ ℓ'.held

@[simp] theorem tick_pc (ℓ : Local I) : ℓ.tick.pc = ℓ.pc + 1 := rfl

@[simp] theorem tick_held (ℓ : Local I) : ℓ.tick.held = ℓ.held := rfl

@[simp] theorem take_pc (ℓ : Local I) (l : I.Lock) : (ℓ.take l).pc = ℓ.pc + 1 := rfl

@[simp] theorem take_held (ℓ : Local I) (l : I.Lock) : (ℓ.take l).held = insert l ℓ.held := rfl

theorem Before.refl (ℓ : Local I) : Before ℓ ℓ := ⟨Nat.le_refl _, fun _ h => h⟩

theorem Before.trans {ℓ₁ ℓ₂ ℓ₃ : Local I} (h : Before ℓ₁ ℓ₂) (h' : Before ℓ₂ ℓ₃) : Before ℓ₁ ℓ₃ :=
  ⟨Nat.le_trans h.1 h'.1, fun _ hl => h'.2 (h.2 hl)⟩

theorem before_tick (ℓ : Local I) : Before ℓ ℓ.tick := ⟨Nat.le_succ _, fun _ h => h⟩

theorem before_take (ℓ : Local I) (l : I.Lock) : Before ℓ (ℓ.take l) :=
  ⟨Nat.le_succ _, fun _ h => Set.mem_insert_of_mem _ h⟩

end Local

namespace Shared

def withStore (σ : Shared I) (s : I.Store) : Shared I := ⟨s, σ.world⟩

def withWorld (σ : Shared I) (w : I.World) : Shared I := ⟨σ.store, w⟩

@[simp] theorem withStore_store (σ : Shared I) (s : I.Store) : (σ.withStore s).store = s := rfl

@[simp] theorem withStore_world (σ : Shared I) (s : I.Store) : (σ.withStore s).world = σ.world := rfl

@[simp] theorem withWorld_store (σ : Shared I) (w : I.World) : (σ.withWorld w).store = σ.store := rfl

@[simp] theorem withWorld_world (σ : Shared I) (w : I.World) : (σ.withWorld w).world = w := rfl

end Shared

/-- The contract of one job. `inv` is the invariant of the shared state that every job may use and must keep. -/
structure Contract (I : Interface) (inv : Shared I → Prop) where
  rely : Local I → Shared I → Shared I → Prop
  guar : Local I → Shared I → Shared I → Prop
  write : Local I → I.Store → I.Store → Prop
  rely_refl : ∀ ℓ σ, rely ℓ σ σ
  rely_trans : ∀ {ℓ σ₁ σ₂ σ₃}, rely ℓ σ₁ σ₂ → rely ℓ σ₂ σ₃ → rely ℓ σ₁ σ₃
  rely_anti : ∀ {ℓ ℓ' σ σ'}, ℓ.Before ℓ' → rely ℓ' σ σ' → rely ℓ σ σ'
  guar_inv : ∀ {ℓ σ σ'}, guar ℓ σ σ' → inv σ → inv σ'

variable {inv : Shared I → Prop} (C : Contract I inv)

/-! ## Programs that keep a contract -/

/-- From state `σ`, with pending writes `w`, the transaction keeps the contract; when it returns `b`, `post` holds.
A transaction that throws is rolled back and owes nothing. -/
def Tx.WP (post : Local I → (I.Store → I.Store) → β → Shared I → Prop) :
    Tx I β → Local I → (I.Store → I.Store) → Shared I → Prop
  | .ret b, ℓ, w, σ => ∀ σ', C.rely ℓ σ σ' → inv σ' → post ℓ w b σ'
  | .throw _, _, _, _ => True
  | .read k, ℓ, w, σ => ∀ σ', C.rely ℓ σ σ' → inv σ' → (k (w σ'.store)).WP post ℓ.tick w σ'
  | .write f k, ℓ, w, σ => ∀ σ', C.rely ℓ σ σ' → inv σ' →
      C.write ℓ (w σ'.store) (f (w σ'.store)) ∧ k.WP post ℓ.tick (f ∘ w) σ'
  | .lock l k, ℓ, w, σ => ∀ σ', C.rely ℓ σ σ' → inv σ' → k.WP post (ℓ.take l) w σ'
  | .ask q k, ℓ, w, σ => ∀ σ', C.rely ℓ σ σ' → inv σ' →
      C.guar ℓ σ' (σ'.withWorld (I.reply σ'.world q).2) ∧
        (k (I.reply σ'.world q).1).WP post ℓ.tick w (σ'.withWorld (I.reply σ'.world q).2)

/-- From state `σ` the job keeps the contract; when it returns `a`, `Q a` holds. After an error it must be
safe from every state. -/
def Job.WP (Q : α → Shared I → Prop) : Job I α → Local I → Shared I → Prop
  | .ret a, ℓ, σ => ∀ σ', C.rely ℓ σ σ' → inv σ' → Q a σ'
  | .throw _, _, _ => True
  | .txn body k, ℓ, σ =>
      (∀ σ', C.rely ℓ σ σ' → inv σ' →
        body.WP C (fun ℓ' w b σ'' => C.guar ℓ' σ'' (σ''.withStore (w σ''.store)) ∧
          (k (.ok b)).WP Q ⟨ℓ'.pc + 1, ∅⟩ (σ''.withStore (w σ''.store))) ℓ.tick id σ') ∧
      ∀ e pc σ', inv σ' → (k (.error e)).WP Q ⟨pc, ∅⟩ σ'
  | .ask q k, ℓ, σ => ∀ σ', C.rely ℓ σ σ' → inv σ' →
      C.guar ℓ σ' (σ'.withWorld (I.reply σ'.world q).2) ∧
        (k (I.reply σ'.world q).1).WP Q ℓ.tick (σ'.withWorld (I.reply σ'.world q).2)

/-- What a thread of a pool still owes. -/
def Phase.OK (Q : α → Shared I → Prop) (ℓ : Local I) (σ : Shared I) : Phase I α → Prop
  | .between (.ret a) => Q a σ
  | .between job => ℓ.held = ∅ ∧ job.WP C Q ℓ σ
  | .inside w body k =>
      body.WP C (fun ℓ' w b σ'' => C.guar ℓ' σ'' (σ''.withStore (w σ''.store)) ∧
        (k (.ok b)).WP C Q ⟨ℓ'.pc + 1, ∅⟩ (σ''.withStore (w σ''.store))) ℓ w σ ∧
      ∀ e pc σ', inv σ' → (k (.error e)).WP C Q ⟨pc, ∅⟩ σ'

/-! ## Stability -/

variable {C}

theorem Tx.WP.stable {post : Local I → (I.Store → I.Store) → β → Shared I → Prop} {t : Tx I β} {ℓ : Local I}
    {w : I.Store → I.Store} {σ σ' : Shared I} (h : t.WP C post ℓ w σ) (hr : C.rely ℓ σ σ') :
    t.WP C post ℓ w σ' := by
  cases t with
  | throw e => trivial
  | _ => exact fun σ'' hr' => h σ'' (C.rely_trans hr hr')

theorem Job.WP.stable {Q : α → Shared I → Prop} {j : Job I α} {ℓ : Local I} {σ σ' : Shared I}
    (h : j.WP C Q ℓ σ) (hr : C.rely ℓ σ σ') : j.WP C Q ℓ σ' := by
  cases j with
  | throw e => trivial
  | txn body k => exact ⟨fun σ'' hr' => h.1 σ'' (C.rely_trans hr hr'), h.2⟩
  | _ => exact fun σ'' hr' => h σ'' (C.rely_trans hr hr')

theorem Phase.OK.stable {Q : α → Shared I → Prop} {ph : Phase I α} {ℓ : Local I} {σ σ' : Shared I}
    (h : ph.OK C Q ℓ σ) (hf : ¬ ph.Finished) (hr : C.rely ℓ σ σ') : ph.OK C Q ℓ σ' := by
  match ph with
  | .between (.ret a) => exact absurd trivial hf
  | .between (.throw e) => exact h
  | .between (.txn body k) => exact ⟨h.1, h.2.stable hr⟩
  | .between (.ask q k) => exact ⟨h.1, h.2.stable hr⟩
  | .inside w body k => exact ⟨h.1.stable hr, h.2⟩

theorem Phase.OK.of_job {Q : α → Shared I → Prop} {j : Job I α} {pc : Nat} {σ : Shared I} (hσ : inv σ)
    (h : j.WP C Q ⟨pc, ∅⟩ σ) : (Phase.between j).OK C Q ⟨pc, ∅⟩ σ := by
  cases j with
  | ret a => exact h σ (C.rely_refl _ _) hσ
  | _ => exact ⟨rfl, h⟩

/-! ## Rules -/

namespace Tx.WP

variable {post : Local I → (I.Store → I.Store) → β → Shared I → Prop} {ℓ : Local I}
  {w : I.Store → I.Store} {σ : Shared I}

theorem mono {post' : Local I → (I.Store → I.Store) → β → Shared I → Prop} {t : Tx I β}
    (h : t.WP C post ℓ w σ)
    (hpost : ∀ ℓ' w' b σ', ℓ.Before ℓ' → inv σ' → post ℓ' w' b σ' → post' ℓ' w' b σ') :
    t.WP C post' ℓ w σ := by
  induction t generalizing ℓ w σ with
  | ret b => exact fun σ' hr hi => hpost _ _ _ _ (.refl _) hi (h σ' hr hi)
  | throw e => trivial
  | read k ih =>
      intro σ' hr hi
      exact ih _ (h σ' hr hi) fun ℓ' w' b σ'' hb => hpost _ _ _ _ (ℓ.before_tick.trans hb)
  | write f k ih =>
      intro σ' hr hi
      obtain ⟨hw, hk⟩ := h σ' hr hi
      exact ⟨hw, ih hk fun ℓ' w' b σ'' hb => hpost _ _ _ _ (ℓ.before_tick.trans hb)⟩
  | lock l k ih =>
      intro σ' hr hi
      exact ih (h σ' hr hi) fun ℓ' w' b σ'' hb => hpost _ _ _ _ ((ℓ.before_take l).trans hb)
  | ask q k ih =>
      intro σ' hr hi
      obtain ⟨hg, hk⟩ := h σ' hr hi
      exact ⟨hg, ih _ hk fun ℓ' w' b σ'' hb => hpost _ _ _ _ (ℓ.before_tick.trans hb)⟩

theorem bind {γ : Type} {post : Local I → (I.Store → I.Store) → γ → Shared I → Prop} {t : Tx I β}
    {f : β → Tx I γ} (hσ : inv σ) (h : t.WP C (fun ℓ' w' b σ' => (f b).WP C post ℓ' w' σ') ℓ w σ) :
    (t.bind f).WP C post ℓ w σ := by
  induction t generalizing ℓ w σ with
  | ret b => exact h σ (C.rely_refl _ _) hσ
  | throw e => trivial
  | read k ih => exact fun σ' hr hi => ih _ hi (h σ' hr hi)
  | write g k ih =>
      intro σ' hr hi
      obtain ⟨hw, hk⟩ := h σ' hr hi
      exact ⟨hw, ih hi hk⟩
  | lock l k ih => exact fun σ' hr hi => ih hi (h σ' hr hi)
  | ask q k ih =>
      intro σ' hr hi
      obtain ⟨hg, hk⟩ := h σ' hr hi
      exact ⟨hg, ih _ (C.guar_inv hg hi) hk⟩

theorem ret {b : β} (h : ∀ σ', C.rely ℓ σ σ' → inv σ' → post ℓ w b σ') :
    (Tx.ret b : Tx I β).WP C post ℓ w σ := h

end Tx.WP

end CorpoPay.Transaction
