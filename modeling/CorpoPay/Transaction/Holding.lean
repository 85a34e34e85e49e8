import CorpoPay.Transaction.Amid

/-!
# What a job holds

Each job of a pool holds a value that no statement sees: a share of what was earned, or the turn to go on. A protocol says
what somebody with a value sees of the shared state, and to which values and states he may move on. `Job.Plays` follows a
job that keeps to the protocol. What a joint condition on all values says then holds throughout a run.
-/

namespace CorpoPay.Transaction

variable {I : Interface} {ι α β G : Type}

structure Protocol (I : Interface) (G : Type) where
  sees : G → Shared I → Prop
  moves : G → Shared I → G → Shared I → Prop
  stays : ∀ g σ, sees g σ → moves g σ g σ

/-- Who holds `g` may fall back to `g₀`. -/
def Protocol.Drops (P : Protocol I G) (g g₀ : G) : Prop := ∀ σ, P.sees g σ → P.moves g σ g₀ σ

section Definitions

variable (P : Protocol I G) (own : Shared I → Shared I → Prop)

/-- From `g` on, with pending writes `w`. A transaction that is rolled back falls back to what the job held at its start. -/
def Tx.Plays (g₀ : G) (post : (I.Store → I.Store) → β → G → Prop) : Tx I β → (I.Store → I.Store) → G → Prop
  | .ret b, w, g => post w b g
  | .throw _, _, _ => True
  | .read k, w, g => ∀ σ, P.sees g σ → ∃ g', P.moves g σ g' σ ∧ P.Drops g' g₀ ∧ (k (w σ.store)).Plays g₀ post w g'
  | .write f k, w, g => k.Plays g₀ post (f ∘ w) g
  | .lock _ k, w, g => k.Plays g₀ post w g
  | .ask q k, w, g => ∀ σ, P.sees g σ → own σ (σ.asked q) → ∃ g', P.moves g σ g' (σ.asked q) ∧ P.Drops g' g₀ ∧
      (k (I.reply σ.world q).1).Plays g₀ post w g'

/-- What the rest of a job owes to a commit. -/
def Commits (rest : β → G → Prop) (w : I.Store → I.Store) (b : β) (g : G) : Prop :=
  ∀ σ, P.sees g σ → own σ (σ.committed w) → ∃ g', P.moves g σ g' (σ.committed w) ∧ rest b g'

/-- From `g` on, the job keeps to the protocol and ends with `Q`. `own` is what the run says of its steps. -/
def Job.Plays (Q : Except I.Err α → G → Prop) : Job I α → G → Prop
  | .ret a, g => Q (.ok a) g
  | .throw e, g => Q (.error e) g
  | .txn body k, g =>
      body.Plays P own g (Commits P own fun b g' => (k (.ok b)).Plays Q g') id g ∧ ∀ e, (k (.error e)).Plays Q g
  | .ask q k, g => ∀ σ, P.sees g σ → own σ (σ.asked q) → ∃ g', P.moves g σ g' (σ.asked q) ∧
      (k (I.reply σ.world q).1).Plays Q g'

def Phase.Plays (Q : Except I.Err α → G → Prop) : Phase I α → G → Prop
  | .between j, g => j.Plays P own Q g
  | .inside w body k, g => ∃ g₀, P.Drops g g₀ ∧
      body.Plays P own g₀ (Commits P own fun b g' => (k (.ok b)).Plays P own Q g') w g ∧
        ∀ e, (k (.error e)).Plays P own Q g₀

/-- Whoever holds `g` may write with `W` and ask with `A`, and holds it still. -/
structure Protocol.Lets (W : (I.Store → I.Store) → Prop) (A : I.Query → Prop) (g : G) : Prop where
  writes : ∀ w σ, W w → P.sees g σ → own σ (σ.committed w) → P.moves g σ g (σ.committed w)
  asks : ∀ q σ, A q → P.sees g σ → own σ (σ.asked q) → P.moves g σ g (σ.asked q)

end Definitions

variable {P : Protocol I G} {own : Shared I → Shared I → Prop}

theorem Protocol.drops_self (g : G) : P.Drops g g := P.stays g

/-! ## Transactions -/

namespace Tx.Plays

variable {g g₀ : G} {w : I.Store → I.Store} {post post' : (I.Store → I.Store) → β → G → Prop}

theorem mono {t : Tx I β} (h : t.Plays P own g₀ post w g) (hpost : ∀ w' b g', post w' b g' → post' w' b g') :
    t.Plays P own g₀ post' w g := by
  induction t generalizing w g with
  | ret b => exact hpost _ _ _ h
  | throw e => trivial
  | read k ih =>
      intro σ hσ
      obtain ⟨g', hmoves, hdrops, hrest⟩ := h σ hσ
      exact ⟨g', hmoves, hdrops, ih _ hrest⟩
  | write f k ih => exact ih h
  | lock l k ih => exact ih h
  | ask q k ih =>
      intro σ hσ hown
      obtain ⟨g', hmoves, hdrops, hrest⟩ := h σ hσ hown
      exact ⟨g', hmoves, hdrops, ih _ hrest⟩

/-- A transaction of which only the writes and the questions matter. -/
theorem of_writes {W : (I.Store → I.Store) → β → Prop} {A : I.Query → Prop} {t : Tx I β} (hwrites : t.Writes W w)
    (hasks : t.Asks A) (hdrops : P.Drops g g₀)
    (hA : ∀ q σ, A q → P.sees g σ → own σ (σ.asked q) → P.moves g σ g (σ.asked q)) (hpost : ∀ w' b, W w' b → post w' b g) :
    t.Plays P own g₀ post w g := by
  induction t generalizing w with
  | ret b => exact hpost _ _ hwrites
  | throw e => trivial
  | read k ih => exact fun σ hσ => ⟨g, P.stays g σ hσ, hdrops, ih _ (hwrites _) (hasks _)⟩
  | write f k ih => exact ih hwrites hasks
  | lock l k ih => exact ih hwrites hasks
  | ask q k ih => exact fun σ hσ hown => ⟨g, hA q σ hasks.1 hσ hown, hdrops, ih _ (hwrites _) (hasks.2 _)⟩

end Tx.Plays

/-! ## Jobs -/

namespace Job.Plays

variable {g : G} {Q Q' : Except I.Err α → G → Prop}

theorem mono {j : Job I α} (h : j.Plays P own Q g) (hQ : ∀ r g', Q r g' → Q' r g') : j.Plays P own Q' g := by
  induction j generalizing g with
  | ret a => exact hQ _ _ h
  | throw e => exact hQ _ _ h
  | txn body k ih =>
      refine ⟨h.1.mono fun w b g' hcommits σ hσ hown => ?_, fun e => ih _ (h.2 e)⟩
      obtain ⟨g'', hmoves, hrest⟩ := hcommits σ hσ hown
      exact ⟨g'', hmoves, ih _ hrest⟩
  | ask q k ih =>
      intro σ hσ hown
      obtain ⟨g', hmoves, hrest⟩ := h σ hσ hown
      exact ⟨g', hmoves, ih _ hrest⟩

theorem bind {Q : Except I.Err β → G → Prop} {j : Job I α} {f : α → Job I β}
    (h : j.Plays P own (fun r g' => match r with | .ok a => (f a).Plays P own Q g' | .error e => Q (.error e) g') g) :
    (j.bind f).Plays P own Q g := by
  induction j generalizing g with
  | ret a => exact h
  | throw e => exact h
  | txn body k ih =>
      refine ⟨h.1.mono fun w b g' hcommits σ hσ hown => ?_, fun e => ih _ (h.2 e)⟩
      obtain ⟨g'', hmoves, hrest⟩ := hcommits σ hσ hown
      exact ⟨g'', hmoves, ih _ hrest⟩
  | ask q k ih =>
      intro σ hσ hown
      obtain ⟨g', hmoves, hrest⟩ := h σ hσ hown
      exact ⟨g', hmoves, ih _ hrest⟩

theorem orElse {j : Job I α} {f : I.Err → Job I α}
    (h : j.Plays P own (fun r g' => match r with | .ok a => Q (.ok a) g' | .error e => (f e).Plays P own Q g') g) :
    (j.orElse f).Plays P own Q g := by
  induction j generalizing g with
  | ret a => exact h
  | throw e => exact h
  | txn body k ih =>
      refine ⟨h.1.mono fun w b g' hcommits σ hσ hown => ?_, fun e => ih _ (h.2 e)⟩
      obtain ⟨g'', hmoves, hrest⟩ := hcommits σ hσ hown
      exact ⟨g'', hmoves, ih _ hrest⟩
  | ask q k ih =>
      intro σ hσ hown
      obtain ⟨g', hmoves, hrest⟩ := h σ hσ hown
      exact ⟨g', hmoves, ih _ hrest⟩

/-- Attempts, each of which may start from what the one before has left. -/
theorem retry {K : G → Prop} {j : Job I α} (h : ∀ g, K g → j.Plays P own (fun r g' => match r with
      | .ok a => Q (.ok a) g' | .error e => K g' ∧ Q (.error e) g') g) (n : Nat) (hg : K g) :
    (j.retry n).Plays P own Q g := by
  induction n generalizing g with
  | zero =>
      refine (h g hg).mono fun r g' hr => ?_
      cases r with
      | ok a => exact hr
      | error e => exact hr.2
  | succ n ih =>
      refine orElse ((h g hg).mono fun r g' hr => ?_)
      cases r with
      | ok a => exact hr
      | error e => exact ih hr.1

theorem transaction {body : Tx I α} (h : body.Plays P own g (Commits P own fun a g' => Q (.ok a) g') id g)
    (herror : ∀ e, Q (.error e) g) : (Job.transaction body).Plays P own Q g := ⟨h, herror⟩

/-- A look at the store, by which the holding may change. -/
theorem get {f : I.Store → α} (h : ∀ σ, P.sees g σ → ∃ g', P.moves g σ g' σ ∧ P.Drops g' g ∧ Q (.ok (f σ.store)) g')
    (herror : ∀ e, Q (.error e) g) : (Job.get f).Plays P own Q g := by
  refine transaction (fun σ hσ => ?_) herror
  obtain ⟨g', hmoves, hdrops, hQ⟩ := h σ hσ
  exact ⟨g', hmoves, hdrops, fun σ' hσ' _ => ⟨g', P.stays g' σ' hσ', hQ⟩⟩

/-- A job whose writes and questions leave the holding as it is. -/
theorem of_does {W : (I.Store → I.Store) → Prop} {A : I.Query → Prop} {j : Job I α} (h : j.Does W A) (hP : P.Lets own W A g)
    (hQ : ∀ r, Q r g) : j.Plays P own Q g := by
  induction j with
  | ret a => exact hQ _
  | throw e => exact hQ _
  | txn body k ih =>
      refine ⟨.of_writes h.1.1 h.1.2 (P.drops_self g) hP.asks fun w b hw σ hσ hown => ?_, fun e => ih _ (h.2 _)⟩
      exact ⟨g, hP.writes w σ hw hσ hown, ih _ (h.2 _)⟩
  | ask q k ih => exact fun σ hσ hown => ⟨g, hP.asks q σ h.1 hσ hown, ih _ (h.2 _)⟩

/-- Such a job, then another one. -/
theorem after {W : (I.Store → I.Store) → Prop} {A : I.Query → Prop} {Q : Except I.Err β → G → Prop} {j : Job I α}
    {f : α → Job I β} (h : j.Does W A) (hP : P.Lets own W A g) (hf : ∀ a, (f a).Plays P own Q g)
    (herror : ∀ e, Q (.error e) g) : (j.bind f).Plays P own Q g := by
  refine bind (of_does h hP fun r => ?_)
  cases r with
  | ok a => exact hf a
  | error e => exact herror e

end Job.Plays

/-! ## Pools -/

/-- A step of a job that keeps to the protocol. -/
theorem Phase.Plays.step {ℓ ℓ' : Local I} {σ σ' : Shared I} {ph ph' : Phase I α} {Q : Except I.Err α → G → Prop} {g : G}
    (hph : ph.Plays P own Q g) (h : Phase.Step ℓ σ ph ℓ' σ' ph') (hσ : P.sees g σ) (hown : own σ σ') :
    ∃ g', P.moves g σ g' σ' ∧ ph'.Plays P own Q g' := by
  cases h with
  | begin => exact ⟨g, P.stays g σ hσ, g, P.drops_self g, hph⟩
  | call => exact hph σ hσ hown
  | commit =>
      obtain ⟨g₀, -, hbody, -⟩ := hph
      exact hbody σ hσ hown
  | rollback =>
      obtain ⟨g₀, hdrops, -, herror⟩ := hph
      exact ⟨g₀, hdrops σ hσ, herror _⟩
  | read =>
      obtain ⟨g₀, -, hbody, herror⟩ := hph
      obtain ⟨g', hmoves, hdrops, hrest⟩ := hbody σ hσ
      exact ⟨g', hmoves, g₀, hdrops, hrest, herror⟩
  | write => exact ⟨g, P.stays g σ hσ, hph⟩
  | lock => exact ⟨g, P.stays g σ hσ, hph⟩
  | query =>
      obtain ⟨g₀, -, hbody, herror⟩ := hph
      obtain ⟨g', hmoves, hdrops, hrest⟩ := hbody σ hσ hown
      exact ⟨g', hmoves, g₀, hdrops, hrest, herror⟩

/-- A joint condition on the holdings that everybody sees his part of and that every move keeps. -/
structure Protocol.Keeps [DecidableEq ι] (P : Protocol I G) (joint : (ι → G) → Shared I → Prop) : Prop where
  sees : ∀ γ σ i, joint γ σ → P.sees (γ i) σ
  moves : ∀ γ σ i g' σ', joint γ σ → P.moves (γ i) σ g' σ' → joint (Function.update γ i g') σ'

namespace Pool

variable [DecidableEq ι] [DecidableEq I.Lock] {own : ι → Shared I → Shared I → Prop} {joint : (ι → G) → Shared I → Prop}
  {Q : ι → Except I.Err α → G → Prop} {jobs : ι → Job I α} {s : I.Store} {w : I.World}
  {cond : Pool I ι α → ι → Pool I ι α → Prop}

/-- The rule for runs. Who has not begun holds what he held at the start. -/
theorem plays_run (hP : P.Keeps joint) {γ₀ : ι → G} (hγ : joint γ₀ ⟨s, w⟩) (hjobs : ∀ i, (jobs i).Plays P (own i) (Q i) (γ₀ i))
    (hcond : ∀ p i p', p.Step i p' → cond p i p' → own i p.shared p'.shared) {p : Pool I ι α}
    (hp : ReachableIf cond (init jobs s w) p) :
    ∃ γ, joint γ p.shared ∧ (∀ i, (p.threads i).phase.Plays P (own i) (Q i) (γ i)) ∧
      ∀ i, (p.threads i).pc = 0 → γ i = γ₀ i := by
  induction hp with
  | refl => exact ⟨γ₀, hγ, hjobs, fun _ _ => rfl⟩
  | @tail p p' _ hstep ih =>
      obtain ⟨i, hs, hc⟩ := hstep
      obtain ⟨γ, hjoint, hphase, hfirst⟩ := ih
      obtain ⟨hown, hothers⟩ := hs.inv
      obtain ⟨g', hmoves, hplays⟩ := (hphase i).step hown (hP.sees γ _ i hjoint) (hcond _ _ _ hs hc)
      refine ⟨Function.update γ i g', hP.moves γ _ i g' _ hjoint hmoves, fun j => ?_, fun j hj => ?_⟩ <;> by_cases hji : j = i
      · subst hji
        rwa [Function.update_self]
      · rw [Function.update_of_ne hji, (hothers j hji).1]
        exact hphase j
      · subst hji
        have hpc : (p'.threads j).pc = (p.threads j).pc + 1 := hown.pc
        omega
      · rw [(hothers j hji).1] at hj
        rw [Function.update_of_ne hji, hfirst j hj]

end Pool

end CorpoPay.Transaction
