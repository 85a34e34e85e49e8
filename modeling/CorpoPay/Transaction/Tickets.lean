import Mathlib.Algebra.BigOperators.Group.Finset.Basic
import Mathlib.Algebra.Order.BigOperators.Group.Finset
import CorpoPay.Transaction.Holding
import CorpoPay.Transaction.Lemmas.RelyGuarantee

/-!
# Tickets

A counter in the store says how many tickets were issued, and there is a ceiling. Whoever issues one holds the lock of the desk
from before he reads the counter, so the ceiling is never passed. A use of a ticket is a write of its own, perhaps much later:
what was used and what the jobs still hold was issued.
-/

namespace CorpoPay.Transaction

variable {I : Interface} {ι α β : Type}

structure Tickets (I : Interface) where
  issued : I.Store → Nat
  used : I.Store → Nat
  ceiling : Nat
  desk : I.Lock
  inv : I.Store → Prop

namespace Tickets

variable (T : Tickets I)

/-- The body of a statement that issues a ticket while there are any. -/
def issue (isOpen : I.Store → Bool) (raise : I.Store → I.Store) : Tx I Bool := do
  Tx.acquire T.desk
  if ← Tx.get isOpen then do
    Tx.modify raise
    pure true
  else pure false

/-! ## The ceiling -/

structure Fair (s : I.Store) : Prop where
  inv : T.inv s
  ceiling : T.issued s ≤ T.ceiling

/-- No others issue tickets while the desk is held, and whoever issues one holds it. -/
def contract : Contract I fun σ => T.Fair σ.store where
  rely ℓ σ σ' := T.desk ∈ ℓ.held → T.issued σ'.store = T.issued σ.store
  guar ℓ σ σ' := T.Fair σ.store → T.Fair σ'.store ∧ (T.issued σ'.store = T.issued σ.store ∨ T.desk ∈ ℓ.held)
  write _ _ _ := True
  rely_refl _ _ _ := rfl
  rely_trans h h' hdesk := (h' hdesk).trans (h hdesk)
  rely_anti hb h hdesk := h (hb.2 hdesk)
  guar_inv h hi := (h hi).1

variable {T} {ℓ : Local I} {σ : Shared I}

theorem wp_issue {isOpen : I.Store → Bool} {raise : I.Store → I.Store}
    (hopen : ∀ s, T.inv s → isOpen s = true → T.issued s < T.ceiling)
    (hraise : ∀ s, T.inv s → T.inv (raise s) ∧ T.issued (raise s) = T.issued s + 1) :
    (Job.transaction (T.issue isOpen raise)).WP T.contract (fun _ _ => True) ℓ σ := by
  refine .transaction fun σ₁ _ _ σ₂ _ _ σ₃ _ hi₃ => ?_
  have hheld : T.desk ∈ ((ℓ.tick.take T.desk).tick).held := Set.mem_insert _ _
  show Tx.WP _ _ (if isOpen σ₃.store then _ else _) _ _ _
  split_ifs with hfree
  · have hbelow := hopen _ hi₃.inv hfree
    refine fun σ₄ hr₄ _ => ⟨trivial, fun σ₅ hr₅ hi₅ => ⟨fun _ => ?_, fun _ _ _ => trivial⟩⟩
    -- The counter is still the one that was read.
    have hsame : T.issued σ₅.store = T.issued σ₃.store := (hr₅ hheld).trans (hr₄ hheld)
    obtain ⟨hinv, hissued⟩ := hraise _ hi₅.inv
    refine ⟨⟨hinv, ?_⟩, .inr hheld⟩
    show T.issued (raise σ₅.store) ≤ T.ceiling
    omega
  · exact fun σ₄ _ _ => ⟨fun h => ⟨h, .inl rfl⟩, fun _ _ _ => trivial⟩

/-- A transaction, and then what is safe from every state. -/
theorem wp_transaction_bind {Q : β → Shared I → Prop} {body : Tx I β} {f : β → Job I α}
    (h : (Job.transaction body).WP T.contract Q ℓ σ) (hf : ∀ b ℓ σ, (f b).WP T.contract (fun _ _ => True) ℓ σ) :
    ((Job.transaction body).bind f).WP T.contract (fun _ _ => True) ℓ σ :=
  ⟨fun σ₁ hr hi => (h.1 σ₁ hr hi).mono fun _ _ b _ _ _ hpost => ⟨hpost.1, hf b _ _⟩, fun _ _ _ _ => trivial⟩

/-- A job that issues none. -/
theorem wp_of_does {j : Job I α} (h : j.Does (fun w => ∀ s, T.inv s → T.inv (w s) ∧ T.issued (w s) = T.issued s) fun _ => True) :
    j.WP T.contract (fun _ _ => True) ℓ σ := by
  refine h.wp (fun _ w σ hw hfair => ?_) (fun _ _ _ h => ⟨h, .inl rfl⟩) fun _ _ _ => trivial
  obtain ⟨hinv, hissued⟩ := hw _ hfair.inv
  exact ⟨⟨hinv, hissued.trans_le hfair.ceiling⟩, .inl hissued⟩

/-! ## What the jobs hold -/

/-- Writes by which a job that holds `n` tickets comes to hold `n'`. -/
def Trades (T : Tickets I) (n : Nat) (w : I.Store → I.Store) (n' : Nat) : Prop :=
  ∀ s, T.inv s → T.inv (w s) ∧ n' + T.used (w s) + T.issued s ≤ n + T.used s + T.issued (w s)

variable (T) in
def protocol : Protocol I Nat where
  sees _ σ := T.inv σ.store
  moves n σ n' σ' := T.inv σ'.store ∧ n' + T.used σ'.store + T.issued σ.store ≤ n + T.used σ.store + T.issued σ'.store
  stays _ _ hσ := ⟨hσ, le_refl _⟩

/-- What was used since the start and what the jobs still hold was issued since. -/
structure Joint (T : Tickets I) (s₀ : I.Store) (γ : ι → Nat) (σ : Shared I) : Prop where
  inv : T.inv σ.store
  held : ∀ jobs : Finset ι, (∑ i ∈ jobs, γ i) + T.used σ.store + T.issued s₀ ≤ T.issued σ.store + T.used s₀

theorem keeps_joint [DecidableEq ι] {s₀ : I.Store} : T.protocol.Keeps (T.Joint (ι := ι) s₀) where
  sees _ _ _ h := h.inv
  moves γ σ i n' σ' h hmoves := by
    obtain ⟨hinv, htrade⟩ := hmoves
    refine ⟨hinv, fun jobs => ?_⟩
    -- The tickets of the job are among the issued ones, whether the sum names the job or not.
    have hall := h.held (insert i jobs)
    have hupdated : ∑ j ∈ jobs, Function.update γ i n' j ≤ n' + ∑ j ∈ jobs.erase i, γ j := by
      have herase : ∑ j ∈ jobs.erase i, Function.update γ i n' j = ∑ j ∈ jobs.erase i, γ j :=
        Finset.sum_congr rfl fun j hj => Function.update_of_ne (Finset.ne_of_mem_erase hj) _ _
      by_cases hi : i ∈ jobs
      · rw [← Finset.add_sum_erase _ _ hi, Function.update_self, herase]
      · rw [← herase, Finset.erase_eq_of_notMem hi]
        exact Nat.le_add_left _ _
    rw [← Finset.add_sum_erase _ _ (Finset.mem_insert_self i jobs), Finset.erase_insert_eq_erase] at hall
    omega

section Rules

variable {own : Shared I → Shared I → Prop} {n : Nat} {Q : Except I.Err α → Nat → Prop}

theorem plays_transaction {after : α → Nat} {body : Tx I α} (hwrites : body.Writes (fun w a => T.Trades n w (after a)) id)
    (hok : ∀ a, Q (.ok a) (after a)) (herror : ∀ e, Q (.error e) n) : (Job.transaction body).Plays T.protocol own Q n :=
  .transaction (.of_writes (A := fun _ => True) hwrites (.of_forall fun _ => trivial) (T.protocol.drops_self n)
    (fun _ _ _ hσ _ => ⟨hσ, le_refl _⟩) fun _ a hw σ hσ _ => ⟨after a, hw σ.store hσ, hok a⟩) herror

theorem plays_issue {isOpen : I.Store → Bool} {raise : I.Store → I.Store} {Q : Except I.Err Bool → Nat → Prop}
    (hraise : ∀ s, T.inv s → T.inv (raise s) ∧ T.issued (raise s) = T.issued s + 1) (hused : ∀ s, T.used (raise s) = T.used s)
    (hissued : Q (.ok true) (n + 1)) (hnone : Q (.ok false) n) (herror : ∀ e, Q (.error e) n) :
    (Job.transaction (T.issue isOpen raise)).Plays T.protocol own Q n := by
  have hwrites : (T.issue isOpen raise).Writes (fun w b => T.Trades n w (if b then n + 1 else n)) id := by
    intro s
    show Tx.Writes _ (if isOpen s then _ else _) _
    split_ifs
    · intro s' hs'
      obtain ⟨hinv, hone⟩ := hraise s' hs'
      refine ⟨hinv, ?_⟩
      show n + 1 + T.used (raise s') + T.issued s' ≤ n + T.used s' + T.issued (raise s')
      rw [hone, hused]
      omega
    · exact fun _ hs' => ⟨hs', le_refl _⟩
  refine plays_transaction hwrites (fun b => ?_) herror
  cases b
  · exact hnone
  · exact hissued

/-- Writes that need no ticket. -/
theorem lets_trades : T.protocol.Lets own (fun w => T.Trades 0 w 0) (fun _ => True) n where
  writes w σ hw hσ _ := by
    obtain ⟨hinv, htrade⟩ := hw _ hσ
    exact ⟨hinv, by show n + T.used (w σ.store) + _ ≤ n + _ + T.issued (w σ.store); omega⟩
  asks _ _ _ hσ _ := ⟨hσ, le_refl _⟩

end Rules

end Tickets

/-! ## Runs -/

namespace Pool

variable [DecidableEq ι] [DecidableEq I.Lock] {T : Tickets I} {jobs : ι → Job I α} {s : I.Store} {w : I.World} {p : Pool I ι α}

theorem fair_run (hfair : T.Fair s) (hjobs : ∀ i, (jobs i).WP T.contract (fun _ _ => True) ⟨0, ∅⟩ ⟨s, w⟩)
    (hp : Reachable (init jobs s w) p) : T.Fair p.shared.store := by
  refine (rely_guarantee (C := fun _ => T.contract) (Q := fun _ _ _ => True) hfair hjobs ?_
    (fun _ _ _ _ _ _ _ _ _ _ => trivial) hp).1
  intro p i p' hok _ _ hguar j hj _ hdesk
  rcases (hguar hok.1).2 with hsame | hheld
  · exact hsame
  · exact absurd (eq_of_held hdesk hheld) hj

/-- Jobs that begin without tickets use no more than are issued. -/
theorem used_le_issued (hinv : T.inv s) (hjobs : ∀ i, (jobs i).Plays T.protocol (fun _ _ => True) (fun _ _ => True) 0)
    (hp : Reachable (init jobs s w) p) : T.used p.shared.store + T.issued s ≤ T.issued p.shared.store + T.used s := by
  have hstart : T.Joint s (fun _ : ι => 0) ⟨s, w⟩ := ⟨hinv, fun jobs => by simp [Nat.add_comm]⟩
  obtain ⟨γ, hjoint, -⟩ := plays_run Tickets.keeps_joint hstart hjobs (fun _ _ _ _ _ => trivial) hp
  simpa using hjoint.held ∅

end Pool

end CorpoPay.Transaction
