import CorpoPay.Transaction.Holding
import CorpoPay.Transaction.Debt

/-!
# Obligations

A protocol in which whoever makes the shared state bad owes it to make it good again, and may be rid of that only when it is
good. Where no job ends with what it owes, the state is good whenever every job has ended or has not begun.
-/

namespace CorpoPay.Transaction

variable {I : Interface} {ι α G : Type}

namespace Protocol

def owing (P : Protocol I G) (bad : Shared I → Prop) (owes : G → Prop) : Protocol I G where
  sees := P.sees
  moves g σ g' σ' := P.moves g σ g' σ' ∧ (bad σ' → bad σ ∨ owes g') ∧ (owes g → ¬ owes g' → ¬ bad σ')
  stays g σ h := ⟨P.stays g σ h, .inl, fun howes hnot => absurd howes hnot⟩

variable {P : Protocol I G} {bad : Shared I → Prop} {owes : G → Prop} {g g' : G} {σ σ' : Shared I}

/-- A step that makes nothing bad, by somebody who owes nothing or goes on owing. -/
theorem owing_of_kept (h : P.moves g σ g' σ') (hbad : bad σ' → bad σ) (howes : owes g → owes g') :
    (P.owing bad owes).moves g σ g' σ' :=
  ⟨h, fun hσ' => .inl (hbad hσ'), fun hg hg' => absurd (howes hg) hg'⟩

/-- A step of somebody who owes from then on. -/
theorem owing_of_owes (h : P.moves g σ g' σ') (howes : owes g') : (P.owing bad owes).moves g σ g' σ' :=
  ⟨h, fun _ => .inr howes, fun _ hg' => absurd howes hg'⟩

/-- A step that leaves a good state. -/
theorem owing_of_good (h : P.moves g σ g' σ') (hgood : ¬ bad σ') : (P.owing bad owes).moves g σ g' σ' :=
  ⟨h, fun hσ' => absurd hσ' hgood, fun _ _ => hgood⟩

/-- While the state is bad, somebody owes. -/
theorem Keeps.owing [DecidableEq ι] {joint : (ι → G) → Shared I → Prop} (h : P.Keeps joint) :
    (P.owing bad owes).Keeps fun γ σ => joint γ σ ∧ (bad σ → ∃ i, owes (γ i)) where
  sees γ σ i hγ := h.sees γ σ i hγ.1
  moves γ σ i g' σ' hγ hmoves := by
    obtain ⟨hmove, hbad, hrid⟩ := hmoves
    refine ⟨h.moves γ σ i g' σ' hγ.1 hmove, fun hσ' => ?_⟩
    by_cases howes' : owes g'
    · exact ⟨i, by rwa [Function.update_self]⟩
    obtain ⟨j, hj⟩ := hγ.2 ((hbad hσ').resolve_right howes')
    by_cases hji : j = i
    · subst hji
      exact absurd hσ' (hrid hj howes')
    · exact ⟨j, by rwa [Function.update_of_ne hji]⟩

end Protocol

/-- What a job has ended with. -/
theorem Phase.Plays.ended {P : Protocol I G} {own : Shared I → Shared I → Prop} {Q : Except I.Err α → G → Prop} {ph : Phase I α}
    {g : G} (h : ph.Plays P own Q g) (hph : ph.Finished) : ∃ r, Q r g := by
  rcases hph.cases with ⟨a, rfl⟩ | ⟨e, rfl⟩
  · exact ⟨.ok a, h⟩
  · exact ⟨.error e, h⟩

end CorpoPay.Transaction
