import CorpoPay.Transaction.Amid
import CorpoPay.Transaction.Ensures

/-!
# Jobs that run one after the other

Each job starts from what the ones before have left. What every job keeps when it starts from an allowed state, the whole list
keeps as long as each of its states is allowed.
-/

namespace CorpoPay.Transaction

variable {I : Interface} {α β ρ : Type}

/-! ## Lists of jobs -/

section Lists

variable (job : ρ → Job I α) (allowed : ρ → I.Store → Prop)

def runAll : List ρ → I.Store → I.World → I.Store × I.World
  | [], s, w => (s, w)
  | r :: rs, s, w => runAll rs ((job r).run s w).2.1 ((job r).run s w).2.2

/-- Each job starts from an allowed state. -/
def AllowedAll : List ρ → I.Store → I.World → Prop
  | [], _, _ => True
  | r :: rs, s, w => allowed r s ∧ AllowedAll rs ((job r).run s w).2.1 ((job r).run s w).2.2

variable {job allowed} {J : I.Store → Prop}

theorem leaves_runAll {K : I.Store → I.World → Prop}
    (hjob : ∀ r s w, allowed r s → K s w → K ((job r).run s w).2.1 ((job r).run s w).2.2) {rs : List ρ} {s : I.Store}
    {w : I.World} (hallowed : AllowedAll job allowed rs s w) (hs : K s w) : K (runAll job rs s w).1 (runAll job rs s w).2 := by
  induction rs generalizing s w with
  | nil => exact hs
  | cons r rs ih => exact ih hallowed.2 (hjob r s w hallowed.1 hs)

theorem runAll_append (rs rs' : List ρ) (s : I.Store) (w : I.World) :
    runAll job (rs ++ rs') s w = runAll job rs' (runAll job rs s w).1 (runAll job rs s w).2 := by
  induction rs generalizing s w with
  | nil => rfl
  | cons r rs ih => exact ih _ _

theorem inv_runAll (hjob : ∀ r s, allowed r s → J s → (job r).Ensures (fun _ s' => J s') s) {rs : List ρ} {s : I.Store}
    {w : I.World} (hallowed : AllowedAll job allowed rs s w) (hs : J s) : J (runAll job rs s w).1 :=
  leaves_runAll (K := fun s _ => J s) (fun r s w hr hs => (hjob r s hr hs).run w rfl) hallowed hs

end Lists

/-! ## Jobs of which only the writes matter -/

/-- What is written is the pending writes of what was read first. -/
theorem Tx.Writes.ensures {P : (I.Store → I.Store) → β → Prop} {t : Tx I β} {w : I.Store → I.Store} (h : t.Writes P w)
    (s₀ : I.Store) : t.Ensures (fun b s' => ∃ w', P w' b ∧ s' = w' s₀) (fun _ => True) (w s₀) := by
  induction t generalizing w with
  | ret b => exact ⟨w, h, rfl⟩
  | throw e => trivial
  | read k ih => exact ih (w s₀) (h _)
  | write f k ih => exact ih h
  | lock l k ih => exact ih h
  | ask q k ih => exact fun a => ih a (h a)

theorem Job.Does.ensures {W : (I.Store → I.Store) → Prop} {A : I.Query → Prop} {J : I.Store → Prop} {j : Job I α}
    (h : j.Does W A) (hW : ∀ w s, W w → J s → J (w s)) {s : I.Store} (hs : J s) : j.Ensures (fun _ s' => J s') s := by
  induction j generalizing s with
  | ret a => exact hs
  | throw e => exact hs
  | txn body k ih =>
      refine (h.1.1.ensures s).mono (fun b s' hb => ?_) fun e _ => ih _ (h.2 _) hs
      obtain ⟨w, hw, rfl⟩ := hb
      exact ih _ (h.2 _) (hW w s hw hs)
  | ask q k ih => exact fun a => ih a (h.2 a) hs

end CorpoPay.Transaction
