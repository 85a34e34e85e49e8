import CorpoPay.Transaction.Amid
import CorpoPay.Transaction.Lemmas.RelyGuarantee
import Mathlib.Data.List.Nodup

/-!
# A column that is unique

An insert takes the entry of its key in the unique index, looks whether the key is there, and adds its row. Nobody else can
add the key meanwhile, so no key is there twice in any state of a run.
-/

namespace CorpoPay.Transaction

variable {I : Interface} {ι α K : Type}

/-- The keys of a table, and the entries of its unique index. -/
structure UniqueKey (I : Interface) (K : Type) where
  keys : I.Store → List K
  entry : K → I.Lock

namespace UniqueKey

variable (U : UniqueKey I K)

/-- Others add no key of which the entry is held, and whoever adds a key holds its entry. -/
def contract : Contract I fun σ => (U.keys σ.store).Nodup where
  rely ℓ σ σ' := ∀ k, U.entry k ∈ ℓ.held → k ∈ U.keys σ'.store → k ∈ U.keys σ.store
  guar ℓ σ σ' := (U.keys σ'.store).Sublist (U.keys σ.store) ∨
    ∃ k, U.entry k ∈ ℓ.held ∧ k ∉ U.keys σ.store ∧ U.keys σ'.store = U.keys σ.store ++ [k]
  write _ _ _ := True
  rely_refl _ _ _ _ := id
  rely_trans h h' k hk hmem := h k hk (h' k hk hmem)
  rely_anti hb h k hk := h k (hb.2 hk)
  guar_inv := by
    rintro ℓ σ σ' (h | ⟨k, -, hk, h⟩) hi
    · exact h.nodup hi
    · rw [h, ← List.concat_eq_append]
      exact List.Nodup.concat hk hi

/-- The body of an insert, with the entries that it takes in other indices. -/
def insertion (k : K) (others : List I.Lock) (taken : I.Store → Bool) (e : I.Err) (f : I.Store → I.Store) : Tx I Unit := do
  Tx.acquire (U.entry k)
  Tx.forEach Tx.acquire others
  if ← Tx.get taken then .throw e else Tx.modify f

variable {U} {ℓ : Local I} {σ : Shared I}

/-- Taking locks, then a transaction that tolerates what happens meanwhile. -/
theorem wp_acquires {post : Local I → (I.Store → I.Store) → α → Shared I → Prop} {t : Tx I α} {w : I.Store → I.Store}
    (others : List I.Lock) (hσ : (U.keys σ.store).Nodup)
    (h : ∀ ℓ' σ', ℓ.Before ℓ' → U.contract.rely ℓ σ σ' → (U.keys σ'.store).Nodup → t.WP U.contract post ℓ' w σ') :
    ((Tx.forEach Tx.acquire others).bind fun _ => t).WP U.contract post ℓ w σ := by
  induction others generalizing ℓ σ with
  | nil => exact h ℓ σ (.refl ℓ) (U.contract.rely_refl ℓ σ) hσ
  | cons l others ih =>
      intro σ' hr hi
      refine ih hi fun ℓ' σ'' hb hr' hi' => h ℓ' σ'' ((ℓ.before_take l).trans hb) ?_ hi'
      exact U.contract.rely_trans hr (U.contract.rely_anti (ℓ.before_take l) hr')

theorem wp_insertion {k : K} {others : List I.Lock} {taken : I.Store → Bool} {e : I.Err} {f : I.Store → I.Store}
    (htaken : ∀ s, k ∈ U.keys s → taken s = true) (hf : ∀ s, U.keys (f s) = U.keys s ++ [k]) :
    (Job.transaction (U.insertion k others taken e f)).WP U.contract (fun _ _ => True) ℓ σ := by
  refine .transaction fun σ₁ _ _ σ₂ _ hi₂ => wp_acquires others hi₂ fun ℓ₃ σ₃ hb₃ _ _ σ₄ _ _ => ?_
  have hheld : ∀ ℓ', ℓ₃.Before ℓ' → U.entry k ∈ ℓ'.held := fun ℓ' hb => hb.2 (hb₃.2 (Set.mem_insert _ _))
  show Tx.WP _ _ (if taken σ₄.store then _ else _) _ _ _
  split_ifs with hfound
  · trivial
  · -- The key is not there, and stays out until the commit.
    have hout : k ∉ U.keys σ₄.store := fun hmem => hfound (htaken _ hmem)
    have hheld₅ := hheld _ ℓ₃.before_tick
    have hheld₆ := hheld _ (ℓ₃.before_tick.trans (Local.before_tick _))
    intro σ₅ hr₅ _
    refine ⟨trivial, fun σ₆ hr₆ _ => ⟨.inr ⟨k, hheld₆, fun hmem => ?_, hf _⟩, fun _ _ _ => trivial⟩⟩
    exact hout (hr₅ k hheld₅ (hr₆ k hheld₆ hmem))

/-- A job that adds no keys. -/
theorem wp_of_does {j : Job I α} (h : j.Does (fun u => ∀ s, (U.keys (u s)).Sublist (U.keys s)) fun _ => True) :
    j.WP U.contract (fun _ _ => True) ℓ σ :=
  h.wp (fun _ _ σ hu => .inl (hu σ.store)) (fun _ _ _ => .inl (List.Sublist.refl _)) fun _ _ _ => trivial

end UniqueKey

/-! ## Runs -/

theorem Pool.unique_run [DecidableEq ι] [DecidableEq I.Lock] {U : UniqueKey I K} {jobs : ι → Job I α} {s : I.Store} {w : I.World}
    (hnodup : (U.keys s).Nodup)
    (hjobs : ∀ i, (jobs i).WP U.contract (fun _ _ => True) ⟨0, ∅⟩ ⟨s, w⟩) {p : Pool I ι α}
    (hp : Pool.Reachable (Pool.init jobs s w) p) : (U.keys p.shared.store).Nodup := by
  refine (Pool.rely_guarantee (C := fun _ => U.contract) (Q := fun _ _ _ => True) hnodup hjobs ?_
    (fun _ _ _ _ _ _ _ _ _ _ => trivial) hp).1
  rintro p i p' - - - (hsub | ⟨k, hheld, -, hadded⟩) j hj - l hl hmem
  · exact hsub.subset hmem
  · rw [hadded] at hmem
    rcases List.mem_append.mp hmem with hmem | hmem
    · exact hmem
    · obtain rfl := List.mem_singleton.mp hmem
      exact absurd (Pool.eq_of_held hl hheld) hj

end CorpoPay.Transaction
