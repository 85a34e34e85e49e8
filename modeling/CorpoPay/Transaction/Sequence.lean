import CorpoPay.Transaction.Amid
import CorpoPay.Transaction.Lemmas.RelyGuarantee

/-!
# Numbers that are given out without a lock

A transaction reads the highest number, prepares its writes, and takes the entry of the next number in a unique index. It
goes through when nobody has taken the number since, and then nothing that it has read has changed.
-/

namespace CorpoPay.Transaction

variable {I : Interface} {ι α β V : Type}

/-- What the jobs see of the store, with its highest number. -/
structure Sequence (I : Interface) (V : Type) where
  view : I.Store → V
  top : V → Nat
  /-- The entry of a number in the unique index. -/
  entry : Nat → I.Lock
  inv : V → Prop

namespace Sequence

variable (S : Sequence I V)

/-- The view stays as long as no number is added, and none is added while the entry of the next one is held. -/
structure Follows (ℓ : Local I) (v v' : V) : Prop where
  grows : S.top v ≤ S.top v'
  stays : S.top v' = S.top v → v' = v
  blocked : S.entry (S.top v + 1) ∈ ℓ.held → S.top v' = S.top v

/-- A commit that adds the next number. -/
structure Adds (ℓ : Local I) (v v' : V) : Prop where
  next : S.top v' = S.top v + 1
  held : S.entry (S.top v + 1) ∈ ℓ.held
  inv : S.inv v'

variable {S}

theorem Follows.refl (ℓ : Local I) (v : V) : S.Follows ℓ v v := ⟨le_refl _, fun _ => rfl, fun _ => rfl⟩

theorem Follows.trans {ℓ : Local I} {v₁ v₂ v₃ : V} (h : S.Follows ℓ v₁ v₂) (h' : S.Follows ℓ v₂ v₃) : S.Follows ℓ v₁ v₃ where
  grows := h.grows.trans h'.grows
  stays htop := by
    have hmid : S.top v₂ = S.top v₁ := le_antisymm (htop ▸ h'.grows) h.grows
    rw [h'.stays (htop.trans hmid.symm), h.stays hmid]
  blocked hheld := by
    have hmid := h.blocked hheld
    rw [← hmid] at hheld
    exact (h'.blocked hheld).trans hmid

variable (S)

def contract : Contract I fun σ => S.inv (S.view σ.store) where
  rely ℓ σ σ' := S.Follows ℓ (S.view σ.store) (S.view σ'.store)
  guar ℓ σ σ' := S.view σ'.store = S.view σ.store ∨ S.Adds ℓ (S.view σ.store) (S.view σ'.store)
  write _ _ _ := True
  rely_refl ℓ σ := .refl ℓ _
  rely_trans := .trans
  rely_anti hb h := ⟨h.grows, h.stays, fun hheld => h.blocked (hb.2 hheld)⟩
  guar_inv := by
    rintro _ σ σ' (h | h) hi
    · rw [h]; exact hi
    · exact h.inv

/-- The view is still `v`, or a number was added since. -/
def Since (v : V) (σ : Shared I) : Prop := S.view σ.store = v ∨ S.top v < S.top (S.view σ.store)

/-- The writes of the transaction, when all that it reads is of the view `v`. -/
def Sees (v : V) (P : (I.Store → I.Store) → α → Prop) : Tx I α → (I.Store → I.Store) → Prop
  | .ret a, w => P w a
  | .throw _, _ => True
  | .read k, w => ∀ s, S.view s = v → Sees v P (k (w s)) w
  | .write f k, w => Sees v P k (f ∘ w)
  | .lock _ k, w => Sees v P k w
  | .ask _ k, w => ∀ a, Sees v P (k a) w

variable {S} {v : V} {P : (I.Store → I.Store) → α → Prop} {ℓ : Local I} {w : I.Store → I.Store} {σ : Shared I}

theorem Since.follows {ℓ : Local I} {σ σ' : Shared I} (h : S.Since v σ)
    (hr : S.Follows ℓ (S.view σ.store) (S.view σ'.store)) : S.Since v σ' := by
  rcases h with h | h
  · rcases hr.grows.lt_or_eq with hlt | heq
    · exact .inr (h ▸ hlt)
    · exact .inl ((hr.stays heq.symm).trans h)
  · exact .inr (h.trans_le hr.grows)

/-- A view that is still there was there before. -/
theorem Since.back {ℓ : Local I} {σ σ' : Shared I} (h : S.Since v σ)
    (hr : S.Follows ℓ (S.view σ.store) (S.view σ'.store)) (heq : S.view σ'.store = v) : S.view σ.store = v := by
  rcases h with h | h
  · exact h
  · exact absurd (h.trans_le hr.grows) (by rw [heq]; exact lt_irrefl _)

/-! ## Rules for what a transaction sees -/

@[simp] theorem sees_ret (a : α) : S.Sees v P (.ret a) w ↔ P w a := Iff.rfl

@[simp] theorem sees_throw (e : I.Err) : S.Sees v P (.throw e) w := trivial

@[simp] theorem sees_get (f : I.Store → α) : S.Sees v P (Tx.get f) w ↔ ∀ s, S.view s = v → P w (f (w s)) := Iff.rfl

@[simp] theorem sees_modify {P : (I.Store → I.Store) → Unit → Prop} (f : I.Store → I.Store) :
    S.Sees v P (Tx.modify f) w ↔ P (f ∘ w) () := Iff.rfl

@[simp] theorem sees_acquire {P : (I.Store → I.Store) → Unit → Prop} (l : I.Lock) :
    S.Sees v P (Tx.acquire l) w ↔ P w () := Iff.rfl

@[simp] theorem sees_query (q : I.Query) {P : (I.Store → I.Store) → I.Answer q → Prop} :
    S.Sees v P (Tx.query q) w ↔ ∀ a, P w a := Iff.rfl

@[simp] theorem sees_bind {P : (I.Store → I.Store) → β → Prop} {t : Tx I α} {f : α → Tx I β} :
    S.Sees v P (t.bind f) w ↔ S.Sees v (fun w' a => S.Sees v P (f a) w') t w := by
  induction t generalizing w with
  | ret a => rfl
  | throw e => rfl
  | read k ih => exact forall_congr' fun s => imp_congr_right fun _ => ih (w s)
  | write g k ih => exact ih
  | lock l k ih => exact ih
  | ask q k ih => exact forall_congr' fun a => ih a

theorem sees_ite (c : Prop) [Decidable c] {t u : Tx I α} (ht : c → S.Sees v P t w) (hu : ¬ c → S.Sees v P u w) :
    S.Sees v P (if c then t else u) w := by
  split
  · rename_i hc; exact ht hc
  · rename_i hc; exact hu hc

@[simp] theorem sees_locks {P : (I.Store → I.Store) → Unit → Prop} (l : β → I.Lock) (bs : List β) :
    S.Sees v P (Tx.forEach (fun b => Tx.acquire (l b)) bs) w ↔ P w () := by
  induction bs with
  | nil => rfl
  | cons b bs ih => exact ih

/-! ## Rules for the contract -/

/-- A transaction from the view `v` on, as long as it is the view. -/
theorem wp_since {t : Tx I α} {P' : (I.Store → I.Store) → α → Prop} (h : S.Since v σ)
    (hsees : S.view σ.store = v → S.Sees v P t w) (hwrites : t.Writes P' w) :
    t.WP S.contract (fun _ w' a σ' => P' w' a ∧ S.Since v σ' ∧ (S.view σ'.store = v → P w' a)) ℓ w σ := by
  induction t generalizing ℓ w σ with
  | ret a => exact fun σ' hr _ => ⟨hwrites, h.follows hr, fun heq => hsees (h.back hr heq)⟩
  | throw e => trivial
  | read k ih => exact fun σ' hr _ => ih _ (h.follows hr) (fun heq => hsees (h.back hr heq) _ heq) (hwrites _)
  | write f k ih => exact fun σ' hr _ => ⟨trivial, ih (h.follows hr) (fun heq => hsees (h.back hr heq)) hwrites⟩
  | lock l k ih => exact fun σ' hr _ => ih (h.follows hr) (fun heq => hsees (h.back hr heq)) hwrites
  | ask q k ih =>
      exact fun σ' hr _ => ⟨.inl rfl, ih _ (h.follows hr) (fun heq => hsees (h.back hr heq) _) (hwrites _)⟩

/-- A transaction that holds the next entry sees the view to its end. -/
theorem wp_held {t : Tx I α} {post : Local I → (I.Store → I.Store) → α → Shared I → Prop} (hview : S.view σ.store = v)
    (hheld : S.entry (S.top v + 1) ∈ ℓ.held) (hsees : S.Sees v P t w)
    (hpost : ∀ ℓ' w' a σ', S.entry (S.top v + 1) ∈ ℓ'.held → S.view σ'.store = v → P w' a → post ℓ' w' a σ') :
    t.WP S.contract post ℓ w σ := by
  have keeps : ∀ {ℓ : Local I} {σ σ' : Shared I}, S.entry (S.top v + 1) ∈ ℓ.held → S.view σ.store = v →
      S.Follows ℓ (S.view σ.store) (S.view σ'.store) → S.view σ'.store = v := by
    intro ℓ σ σ' hheld hview hr
    rw [hview] at hr
    exact hr.stays (hr.blocked hheld)
  induction t generalizing ℓ w σ with
  | ret a => exact fun σ' hr _ => hpost ℓ w a σ' hheld (keeps hheld hview hr) hsees
  | throw e => trivial
  | read k ih => exact fun σ' hr _ => ih _ (keeps hheld hview hr) hheld (hsees _ (keeps hheld hview hr))
  | write f k ih => exact fun σ' hr _ => ⟨trivial, ih (keeps hheld hview hr) hheld hsees⟩
  | lock l k ih => exact fun σ' hr _ => ih (keeps hheld hview hr) (Set.mem_insert_of_mem _ hheld) hsees
  | ask q k ih => exact fun σ' hr _ => ⟨.inl rfl, ih _ (keeps hheld hview hr) hheld (hsees _)⟩

/-- A transaction that numbers: it reads the highest number, prepares, takes the next entry, looks whether the number is
taken, and finishes. -/
def numbering (S : Sequence I V) (prepare : Nat → Tx I β) (taken : Nat → β → I.Store → Bool) (e : I.Err)
    (finish : Nat → β → Tx I α) : Tx I α :=
  (Tx.get fun s => S.top (S.view s)).bind fun n => (prepare n).bind fun b => (Tx.acquire (S.entry (n + 1))).bind fun _ =>
    (Tx.get (taken n b)).bind fun taken => if taken then .throw e else finish n b

/-- What a numbering has to do: an added number is seen, and without one the view that is left has the next number. -/
structure Numbers (S : Sequence I V) (prepare : Nat → Tx I β) (taken : Nat → β → I.Store → Bool)
    (finish : Nat → β → Tx I α) : Prop where
  late : ∀ n, (prepare n).Writes (fun w b => ∀ s, S.inv (S.view s) → n < S.top (S.view s) → taken n b (w s) = true) id
  timely : ∀ v, S.inv v → S.Sees v (fun w b => S.Sees v (fun w' _ => ∀ s, S.view s = v →
    S.top (S.view (w' s)) = S.top v + 1 ∧ S.inv (S.view (w' s))) (finish (S.top v) b) w) (prepare (S.top v)) id

theorem Numbers.wp {prepare : Nat → Tx I β} {taken : Nat → β → I.Store → Bool} {e : I.Err} {finish : Nat → β → Tx I α}
    (h : S.Numbers prepare taken finish) :
    (Job.transaction (S.numbering prepare taken e finish)).WP S.contract (fun _ _ => True) ℓ σ := by
  refine .transaction fun σ₁ _ _ σ₂ _ hi₂ => ?_
  let v := S.view σ₂.store
  have hprepare : (prepare (S.top v)).WP S.contract _ ℓ.tick.tick id σ₂ :=
    wp_since (.inl rfl) (fun _ => h.timely v hi₂) (h.late (S.top v))
  show Tx.WP S.contract _ ((prepare (S.top v)).bind _) _ _ _
  refine Tx.WP.bind hi₂ (hprepare.mono ?_)
  rintro ℓ' w b σ₃ - - ⟨hlate, hsince, hsees⟩ σ₄ hr₄ - σ₅ hr₅ hi₅
  have hheld : S.entry (S.top v + 1) ∈ (ℓ'.take (S.entry (S.top v + 1))).tick.held := Set.mem_insert _ _
  show Tx.WP S.contract _ (if taken (S.top v) b (w σ₅.store) then .throw e else finish (S.top v) b) _ _ _
  split_ifs with htaken
  · trivial
  rcases (hsince.follows hr₄).follows hr₅ with hview | hadded
  · have hback : S.view σ₃.store = v := hsince.back hr₄ ((hsince.follows hr₄).back hr₅ hview)
    refine wp_held hview hheld (hsees hback) fun ℓ₆ w' a σ₆ hheld₆ hview₆ hadds => ⟨.inr ?_, fun _ _ _ => trivial⟩
    obtain ⟨htop, hinv⟩ := hadds σ₆.store hview₆
    exact ⟨by rw [hview₆]; exact htop, by rw [hview₆]; exact hheld₆, hinv⟩
  · exact absurd (hlate σ₅.store hi₅ hadded) htaken

/-- A job that leaves the view. -/
theorem wp_of_does {j : Job I α} (h : j.Does (fun u => ∀ s, S.view (u s) = S.view s) fun _ => True) :
    j.WP S.contract (fun _ _ => True) ℓ σ :=
  h.wp (fun _ _ σ hu => .inl (hu σ.store)) (fun _ _ _ => .inl rfl) fun _ _ _ => trivial

end Sequence

/-! ## Runs -/

namespace Pool

variable [DecidableEq ι] [DecidableEq I.Lock] {S : Sequence I V} {jobs : ι → Job I α} {s : I.Store} {w : I.World}

/-- The invariant of the view holds in every state that is committed. -/
theorem sequence_inv (hinv : S.inv (S.view s)) (hjobs : ∀ i, (jobs i).WP S.contract (fun _ _ => True) ⟨0, ∅⟩ ⟨s, w⟩)
    {p : Pool I ι α} (hp : Reachable (init jobs s w) p) : S.inv (S.view p.shared.store) := by
  refine (rely_guarantee (C := fun _ => S.contract) (Q := fun _ _ _ => True) hinv hjobs ?_ (fun _ _ _ _ _ _ _ _ _ _ => trivial)
    hp).1
  rintro p i p' - - - (hsame | hadds) j hj -
  · show S.Follows _ _ _
    rw [hsame]
    exact .refl _ _
  · refine ⟨by rw [hadds.next]; exact Nat.le_succ _, fun htop => ?_, fun hheld => ?_⟩
    · exact absurd (hadds.next.symm.trans htop) (Nat.succ_ne_self _)
    · exact absurd (eq_of_held hheld hadds.held) hj

end Pool

end CorpoPay.Transaction
