import CorpoPay.Transaction.Amid

/-!
# What a job adds to a log

A log is a part of the outside world that only grows, by what each answer adds to it. `Job.Logs L Q j s es`: run alone from
the store `s` after it has added `es`, the job ends with `Q` of its result, its store and all that it has added.
-/

namespace CorpoPay.Transaction

variable {I : Interface} {α β γ : Type}

structure Log (I : Interface) (γ : Type) where
  entries : I.World → List γ
  adds : (q : I.Query) → I.Answer q → List γ
  entries_reply : ∀ w q, entries (I.reply w q).2 = entries w ++ adds q (I.reply w q).1

/-- A question whose answer adds nothing. -/
def Log.Silent (L : Log I γ) (q : I.Query) : Prop := ∀ a, L.adds q a = []

variable {L : Log I γ}

theorem Tx.entries_run {t : Tx I α} (h : t.Asks L.Silent) (s : I.Store) (w : I.World) :
    L.entries (t.run s w).2 = L.entries w := by
  induction t generalizing s w with
  | ret a => rfl
  | throw e => rfl
  | read k ih => exact ih s (h s) s w
  | write f k ih => exact ih h (f s) w
  | lock l k ih => exact ih h s w
  | ask q k ih => exact (ih _ (h.2 _) s _).trans ((L.entries_reply w q).trans (by rw [h.1, List.append_nil]))

namespace Job

/-- Only the questions outside a transaction add to the log. -/
def Logs (L : Log I γ) (Q : Except I.Err α → I.Store → List γ → Prop) : Job I α → I.Store → List γ → Prop
  | .ret a, s, es => Q (.ok a) s es
  | .throw e, s, es => Q (.error e) s es
  | .txn body k, s, es => body.Asks L.Silent ∧
      body.Ensures (fun b s' => (k (.ok b)).Logs L Q s' es) (fun e => (k (.error e)).Logs L Q s es) s
  | .ask q k, s, es => ∀ a, (k a).Logs L Q s (es ++ L.adds q a)

variable {Q : Except I.Err α → I.Store → List γ → Prop} {s : I.Store} {es : List γ}

@[simp] theorem logs_ret (a : α) : (ret a : Job I α).Logs L Q s es ↔ Q (.ok a) s es := Iff.rfl

@[simp] theorem logs_throw (e : I.Err) : (throw e : Job I α).Logs L Q s es ↔ Q (.error e) s es := Iff.rfl

@[simp] theorem logs_get (f : I.Store → α) : (get f).Logs L Q s es ↔ Q (.ok (f s)) s es :=
  ⟨fun h => h.2, fun h => ⟨fun _ => trivial, h⟩⟩

@[simp] theorem logs_query (q : I.Query) {Q : Except I.Err (I.Answer q) → I.Store → List γ → Prop} :
    (query q).Logs L Q s es ↔ ∀ a, Q (.ok a) s (es ++ L.adds q a) := Iff.rfl

@[simp] theorem logs_bind {Q : Except I.Err β → I.Store → List γ → Prop} (j : Job I α) (f : α → Job I β) :
    (j.bind f).Logs L Q s es ↔ j.Logs L (fun r s' es' =>
      match r with | .ok a => (f a).Logs L Q s' es' | .error e => Q (.error e) s' es') s es := by
  induction j generalizing s es with
  | ret a => rfl
  | throw e => rfl
  | txn body k ih =>
      refine and_congr_right fun _ => ?_
      constructor <;> intro h <;> exact h.mono (fun _ _ h' => by simpa [ih] using h') fun _ h' => by simpa [ih] using h'
  | ask q k ih => exact forall_congr' fun a => ih a

theorem logs_transaction {body : Tx I α} (hasks : body.Asks L.Silent)
    (h : body.Ensures (fun a s' => Q (.ok a) s' es) (fun e => Q (.error e) s es) s) :
    (transaction body).Logs L Q s es := ⟨hasks, h⟩

theorem logs_ofExcept_bind {Q : Except I.Err β → I.Store → List γ → Prop} {r : Except I.Err α} {f : α → Job I β}
    (hok : ∀ a, r = .ok a → (f a).Logs L Q s es) (herror : ∀ e, r = .error e → Q (.error e) s es) :
    ((ofExcept r).bind f).Logs L Q s es := by
  cases r with
  | ok a => exact hok a rfl
  | error e => exact herror e rfl

theorem Logs.mono {Q' : Except I.Err α → I.Store → List γ → Prop} {j : Job I α} (h : j.Logs L Q s es)
    (hQ : ∀ r s' es', Q r s' es' → Q' r s' es') : j.Logs L Q' s es := by
  induction j generalizing s es with
  | ret a => exact hQ _ _ _ h
  | throw e => exact hQ _ _ _ h
  | txn body k ih => exact ⟨h.1, h.2.mono (fun b _ h' => ih (.ok b) h') fun e h' => ih (.error e) h'⟩
  | ask q k ih => exact fun a => ih a (h a)

/-- A job whose questions add nothing. -/
theorem Logs.of_does {W : (I.Store → I.Store) → Prop} {j : Job I α} (h : j.Does W L.Silent)
    (hQ : ∀ r s', Q r s' es) : j.Logs L Q s es := by
  induction j generalizing s with
  | ret a => exact hQ _ _
  | throw e => exact hQ _ _
  | txn body k ih =>
      exact ⟨h.1.2, .of_forall (fun b _ => ih (.ok b) (h.2 _)) fun e => ih (.error e) (h.2 _)⟩
  | ask q k ih =>
      intro a
      rw [h.1, List.append_nil]
      exact ih a (h.2 a)

/-- What `Logs` says is what `run` adds. -/
theorem Logs.run {j : Job I α} (h : j.Logs L Q s es) {w w' : I.World} {r : Except I.Err α} {s' : I.Store}
    (hr : j.run s w = (r, s', w')) : ∃ new, L.entries w' = L.entries w ++ new ∧ Q r s' (es ++ new) := by
  induction j generalizing s es w with
  | ret a =>
      cases hr
      exact ⟨[], (List.append_nil _).symm, by rwa [List.append_nil]⟩
  | throw e =>
      cases hr
      exact ⟨[], (List.append_nil _).symm, by rwa [List.append_nil]⟩
  | txn body k ih =>
      have hquiet : L.entries (body.run s w).2 = L.entries w := body.entries_run h.1 s w
      simp only [Job.run] at hr
      split at hr
      · rename_i b s₁ w₁ hb
        rw [hb] at hquiet
        obtain ⟨new, hnew, hQ⟩ := ih (.ok b) ((h.2.run w).1 _ _ _ hb) hr
        exact ⟨new, hnew.trans (by rw [hquiet]), hQ⟩
      · rename_i e w₁ hb
        rw [hb] at hquiet
        obtain ⟨new, hnew, hQ⟩ := ih (.error e) ((h.2.run w).2 _ _ hb) hr
        exact ⟨new, hnew.trans (by rw [hquiet]), hQ⟩
  | ask q k ih =>
      obtain ⟨new, hnew, hQ⟩ := ih _ (h _) hr
      refine ⟨L.adds q (I.reply w q).1 ++ new, ?_, ?_⟩
      · rw [hnew, L.entries_reply, List.append_assoc]
      · rw [← List.append_assoc]; exact hQ

/-! ## Jobs that return -/

/-- A job that returns does it with `R`. -/
abbrev Yields (L : Log I γ) (R : α → I.Store → List γ → Prop) (j : Job I α) (s : I.Store) (es : List γ) : Prop :=
  j.Logs L (fun r s' es' => ∀ a, r = .ok a → R a s' es') s es

variable {R : α → I.Store → List γ → Prop}

theorem yields_ret {a : α} (h : R a s es) : (ret a : Job I α).Yields L R s es := fun _ ha => Except.ok.inj ha ▸ h

theorem yields_throw (e : I.Err) : (throw e : Job I α).Yields L R s es := fun _ ha => by cases ha

theorem yields_get {f : I.Store → α} (h : R (f s) s es) : (get f).Yields L R s es :=
  (logs_get f).mpr fun _ ha => Except.ok.inj ha ▸ h

theorem yields_query {q : I.Query} {R : I.Answer q → I.Store → List γ → Prop} (h : ∀ a, R a s (es ++ L.adds q a)) :
    (query q).Yields L R s es := fun a _ ha => Except.ok.inj ha ▸ h a

theorem yields_transaction {body : Tx I α} (hasks : body.Asks L.Silent)
    (h : body.Ensures (fun a s' => R a s' es) (fun _ => True) s) : (transaction body).Yields L R s es :=
  logs_transaction hasks (h.mono (fun _ _ h' _ ha => Except.ok.inj ha ▸ h') fun _ _ _ ha => by cases ha)

theorem yields_bind {R : β → I.Store → List γ → Prop} {R' : α → I.Store → List γ → Prop} {j : Job I α} {f : α → Job I β}
    (h : j.Yields L R' s es) (hf : ∀ a s' es', R' a s' es' → (f a).Yields L R s' es') : (j.bind f).Yields L R s es := by
  refine (logs_bind j f).mpr (h.mono fun r s' es' hr => ?_)
  cases r with
  | ok a => exact hf a s' es' (hr a rfl)
  | error e => exact fun _ ha => by cases ha

theorem yields_ofExcept_bind {R : β → I.Store → List γ → Prop} {r : Except I.Err α} {f : α → Job I β}
    (hok : ∀ a, r = .ok a → (f a).Yields L R s es) : ((ofExcept r).bind f).Yields L R s es :=
  logs_ofExcept_bind hok fun _ _ _ ha => by cases ha

end Job

end CorpoPay.Transaction
