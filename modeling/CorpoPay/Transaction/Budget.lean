import Mathlib.Algebra.BigOperators.Group.Finset.Basic
import Mathlib.Algebra.Order.BigOperators.Group.Finset
import CorpoPay.Transaction.Holding

/-!
# Claims that were earned

The outside world earns, and the store claims what was earned. A job that has earned holds the credit until it claims it.
It may read the claim first and write a new one later, over what the others have claimed meanwhile: a claim that is the one
it knew and what it spends of its credit is never too high.
-/

namespace CorpoPay.Transaction

variable {I : Interface} {ι α β : Type}

structure Budget (I : Interface) where
  earned : I.World → Nat
  earns : (q : I.Query) → I.Answer q → Nat
  earned_reply : ∀ w q, earned (I.reply w q).2 = earned w + earns q (I.reply w q).1
  claimed : I.Store → Nat
  inv : I.Store → Prop

/-- What a job has earned and not claimed, and a claim that was made. -/
structure Account where
  credit : Nat
  known : Nat

namespace Budget

variable (B : Budget I)

/-- A job spends what it can and gets to know no more than the claim of the moment. -/
structure Moves (g : Account) (σ : Shared I) (g' : Account) (σ' : Shared I) : Prop where
  inv : B.inv σ'.store
  grows : B.earned σ.world ≤ B.earned σ'.world
  spends : ∃ n, g'.credit + n + B.earned σ.world ≤ g.credit + B.earned σ'.world ∧
    B.claimed σ'.store ≤ max (B.claimed σ.store) (g.known + n)
  learns : g'.known ≤ max g.known (B.claimed σ.store)

def protocol : Protocol I Account where
  sees _ σ := B.inv σ.store
  moves := B.Moves
  stays _ _ hσ := ⟨hσ, le_refl _, ⟨0, le_refl _, le_max_left _ _⟩, le_max_left _ _⟩

/-- What is claimed and what the jobs still hold were earned. -/
structure Joint (γ : ι → Account) (σ : Shared I) : Prop where
  inv : B.inv σ.store
  level : ∃ level, B.claimed σ.store ≤ level ∧ (∀ i, (γ i).known ≤ level) ∧
    ∀ jobs : Finset ι, level + ∑ i ∈ jobs, (γ i).credit ≤ B.earned σ.world

variable {B} {g : Account}

theorem keeps_joint [DecidableEq ι] : B.protocol.Keeps (B.Joint (ι := ι)) where
  sees _ _ _ h := h.inv
  moves γ σ i g' σ' h hmoves := by
    obtain ⟨level, hclaimed, hknown, hsum⟩ := h.level
    obtain ⟨n, hcredit, hclaim⟩ := hmoves.spends
    have hgrows := hmoves.grows
    refine ⟨hmoves.inv, level + n, ?_, fun j => ?_, fun jobs => ?_⟩
    · have := hknown i
      omega
    · by_cases hji : j = i
      · subst hji
        rw [Function.update_self]
        have := hmoves.learns
        have := hknown j
        omega
      · rw [Function.update_of_ne hji]
        exact (hknown j).trans (Nat.le_add_right _ _)
    · -- The credit of the job is part of what was earned, whether the sum names the job or not.
      have hall := hsum (insert i jobs)
      rw [← Finset.insert_erase (Finset.mem_insert_self i jobs), Finset.sum_insert (Finset.notMem_erase i _)] at hall
      have hupdated : ∑ j ∈ jobs, (Function.update γ i g' j).credit ≤
          g'.credit + ∑ j ∈ (insert i jobs).erase i, (γ j).credit := by
        refine (Finset.sum_le_sum_of_subset (Finset.subset_insert i jobs)).trans ?_
        rw [← Finset.insert_erase (Finset.mem_insert_self i jobs), Finset.sum_insert (Finset.notMem_erase i _),
          Function.update_self]
        refine Nat.add_le_add_left (le_of_eq (Finset.sum_congr ?_ fun j hj => ?_)) _
        · rw [Finset.erase_insert_eq_erase, Finset.erase_insert_eq_erase, Finset.erase_idem]
        · rw [Function.update_of_ne (Finset.ne_of_mem_erase hj)]
      omega

/-! ## Rules for jobs -/

variable {own : Shared I → Shared I → Prop} {Q : Except I.Err α → Account → Prop}

/-- Writes by which a job that knows of the claim spends `n`. -/
def Spends (B : Budget I) (known n : Nat) (w : I.Store → I.Store) : Prop :=
  ∀ s, B.inv s → B.inv (w s) ∧ B.claimed (w s) ≤ max (B.claimed s) (known + n)

theorem Spends.moves {known credit n : Nat} {w : I.Store → I.Store} (h : B.Spends known n w) (hn : n ≤ credit) {σ : Shared I}
    (hσ : B.inv σ.store) : B.Moves ⟨credit, known⟩ σ ⟨credit - n, known⟩ (σ.committed w) where
  inv := (h _ hσ).1
  grows := le_refl _
  spends := ⟨n, by show credit - n + n + _ ≤ credit + _; rw [Nat.sub_add_cancel hn]; exact le_refl _, (h _ hσ).2⟩
  learns := le_max_left _ _

/-- A credit or a knowledge that is given up. -/
theorem drops {g g' : Account} (hcredit : g'.credit ≤ g.credit) (hknown : g'.known ≤ g.known) : B.protocol.Drops g g' :=
  fun _ hσ => ⟨hσ, le_refl _, ⟨0, by omega, le_max_left _ _⟩, le_max_of_le_left hknown⟩

theorem plays_get {f : I.Store → α} (h : ∀ s, B.inv s → Q (.ok (f s)) ⟨g.credit, max g.known (B.claimed s)⟩)
    (herror : ∀ e, Q (.error e) g) : (Job.get f).Plays B.protocol own Q g :=
  .get (fun σ hσ => ⟨⟨g.credit, max g.known (B.claimed σ.store)⟩,
    ⟨hσ, le_refl _, ⟨0, le_refl _, le_max_left _ _⟩, le_refl _⟩, drops (le_refl _) (le_max_left _ _), h σ.store hσ⟩) herror

/-- Who asks earns what the answer brings. -/
theorem moves_earned {σ : Shared I} (q : I.Query) (hσ : B.inv σ.store) :
    B.Moves g σ ⟨g.credit + B.earns q (I.reply σ.world q).1, g.known⟩ (σ.asked q) where
  inv := hσ
  grows := by rw [Shared.asked, Shared.withWorld_world, B.earned_reply]; exact Nat.le_add_right _ _
  spends := ⟨0, by rw [Shared.asked, Shared.withWorld_world, B.earned_reply]; dsimp only; omega, le_max_left _ _⟩
  learns := le_max_left _ _

theorem moves_asked {σ : Shared I} (q : I.Query) (hσ : B.inv σ.store) : B.Moves g σ g (σ.asked q) := by
  obtain ⟨hinv, hgrows, ⟨n, hn, hclaimed⟩, hlearns⟩ := moves_earned (g := g) q hσ
  exact ⟨hinv, hgrows, ⟨n, by dsimp only at hn; omega, hclaimed⟩, hlearns⟩

/-- A transaction whose writes spend `n` of the credit. -/
theorem plays_transaction {n : Nat} {A : I.Query → Prop} {body : Tx I α} (hwrites : body.Writes (fun w _ => B.Spends g.known n w) id)
    (hasks : body.Asks A) (hn : n ≤ g.credit) (hok : ∀ a, Q (.ok a) ⟨g.credit - n, g.known⟩) (herror : ∀ e, Q (.error e) g) :
    (Job.transaction body).Plays B.protocol own Q g :=
  .transaction (.of_writes hwrites hasks (B.protocol.drops_self g) (fun q _ _ hσ _ => moves_asked q hσ)
    fun _ a hw _ hσ _ => ⟨_, hw.moves hn hσ, hok a⟩) herror

/-- Writes that claim nothing. -/
theorem lets_spends (A : I.Query → Prop) : B.protocol.Lets own (fun w => ∀ known, B.Spends known 0 w) A g :=
  ⟨fun _ _ hw hσ _ => (hw g.known).moves (Nat.zero_le _) hσ, fun q _ _ hσ _ => moves_asked q hσ⟩

end Budget

namespace Pool

variable [DecidableEq ι] [DecidableEq I.Lock] {B : Budget I} {jobs : ι → Job I α} {s : I.Store} {w : I.World}

/-- Jobs that begin without credit never claim more than was earned. -/
theorem claimed_le_earned {known : Nat} (hinv : B.inv s) (hclaimed : B.claimed s ≤ B.earned w) (hknown : known ≤ B.earned w)
    (hjobs : ∀ i, (jobs i).Plays B.protocol (fun _ _ => True) (fun _ _ => True) ⟨0, known⟩) {p : Pool I ι α}
    (hp : Reachable (init jobs s w) p) : B.inv p.shared.store ∧ B.claimed p.shared.store ≤ B.earned p.shared.world := by
  have hstart : B.Joint (fun _ : ι => ⟨0, known⟩) ⟨s, w⟩ :=
    ⟨hinv, B.earned w, hclaimed, fun _ => hknown, fun jobs => by simp⟩
  obtain ⟨γ, hjoint, -⟩ := plays_run B.keeps_joint hstart hjobs (fun _ _ _ _ _ => trivial) hp
  obtain ⟨level, hlevel, -, hsum⟩ := hjoint.level
  exact ⟨hjoint.inv, hlevel.trans (by simpa using hsum ∅)⟩

end Pool

end CorpoPay.Transaction
