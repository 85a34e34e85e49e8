import CorpoPay.Transaction.Lemmas.Inversion
import CorpoPay.Transaction.Rules

/-!
# What a job knows amid others

A course says what every step of a run does (`later`) and what holds in its states (`inv`). `Job.Amid` follows a job
through such a run: what it has read stays known as far as later steps keep it, also after a transaction that failed, and
each of its own steps stays in the course. `own` is what the run says about the steps of the job itself, `fine` are the
places it lets the job come to, and `G` is what a commit owes besides.
-/

namespace CorpoPay.Transaction

variable {I : Interface} {ι α β γ : Type}

structure Course (I : Interface) where
  later : Shared I → Shared I → Prop
  inv : Shared I → Prop
  later_refl : ∀ σ, later σ σ
  later_trans : ∀ {σ₁ σ₂ σ₃}, later σ₁ σ₂ → later σ₂ σ₃ → later σ₁ σ₃

/-- A state that the run may have reached meanwhile. -/
def Course.Reach (C : Course I) (σ σ' : Shared I) : Prop := C.later σ σ' ∧ C.inv σ'

theorem Course.Reach.trans {C : Course I} {σ₁ σ₂ σ₃ : Shared I} (h : C.Reach σ₁ σ₂) (h' : C.Reach σ₂ σ₃) :
    C.Reach σ₁ σ₃ := ⟨C.later_trans h.1 h'.1, h'.2⟩

/-- The state after a question. -/
def Shared.asked (σ : Shared I) (q : I.Query) : Shared I := σ.withWorld (I.reply σ.world q).2

/-- The state after a commit. -/
def Shared.committed (σ : Shared I) (w : I.Store → I.Store) : Shared I := σ.withStore (w σ.store)

/-- The question that comes next. -/
def Phase.asking : Phase I α → Option I.Query
  | .between (.ask q _) => some q
  | .inside _ (.ask q _) _ => some q
  | _ => none

/-- The world changes with an answer only. -/
theorem Phase.Step.world {ℓ ℓ' : Local I} {σ σ' : Shared I} {ph ph' : Phase I α} (h : Phase.Step ℓ σ ph ℓ' σ' ph') :
    σ'.world = σ.world ∨ ∃ q, ph.asking = some q ∧ σ' = σ.asked q := by
  cases h with
  | call => exact .inr ⟨_, rfl, rfl⟩
  | query => exact .inr ⟨_, rfl, rfl⟩
  | _ => exact .inl rfl

section Definitions

variable (C : Course I) (own : Shared I → Shared I → Prop)

/-- A transaction that commits does it in a state with `post`. -/
def Tx.Amid (post : (I.Store → I.Store) → β → Shared I → Prop) : Tx I β → (I.Store → I.Store) → Shared I → Prop
  | .ret b, w, σ => ∀ σ', C.Reach σ σ' → post w b σ'
  | .throw _, _, _ => True
  | .read k, w, σ => ∀ σ', C.Reach σ σ' → (k (w σ'.store)).Amid post w σ'
  | .write f k, w, σ => k.Amid post (f ∘ w) σ
  | .lock _ k, w, σ => k.Amid post w σ
  | .ask q k, w, σ => ∀ σ', C.Reach σ σ' → own σ' (σ'.asked q) →
      C.Reach σ' (σ'.asked q) ∧ (k (I.reply σ'.world q).1).Amid post w (σ'.asked q)

/-- The job keeps the invariant, each commit owes `G`, and the job ends with `Q`. -/
def Job.Amid (G : Shared I → Shared I → Job I α → Prop) (fine : Shared I → Job I α → Prop) (Q : Except I.Err α → Shared I → Prop) :
    Job I α → Shared I → Prop
  | .ret a, σ => ∀ σ', C.Reach σ σ' → Q (.ok a) σ'
  | .throw e, σ => ∀ σ', C.Reach σ σ' → Q (.error e) σ'
  | .txn body k, σ =>
      (∀ σ', C.Reach σ σ' → body.Amid C own (fun w b σ'' => own σ'' (σ''.committed w) → fine (σ''.committed w) (k (.ok b)) →
        C.Reach σ'' (σ''.committed w) ∧ G σ'' (σ''.committed w) (k (.ok b)) ∧ (k (.ok b)).Amid G fine Q (σ''.committed w))
        id σ') ∧
      ∀ e σ', C.Reach σ σ' → fine σ' (k (.error e)) → (k (.error e)).Amid G fine Q σ'
  | .ask q k, σ => ∀ σ', C.Reach σ σ' → own σ' (σ'.asked q) → fine (σ'.asked q) (k (I.reply σ'.world q).1) →
      C.Reach σ' (σ'.asked q) ∧ (k (I.reply σ'.world q).1).Amid G fine Q (σ'.asked q)

def Phase.Amid (G : Shared I → Shared I → Job I α → Prop) (fine : Shared I → Job I α → Prop) (Q : Except I.Err α → Shared I → Prop)
    (σ : Shared I) : Phase I α → Prop
  | .between job => job.Amid C own G fine Q σ
  | .inside w body k =>
      body.Amid C own (fun w b σ'' => own σ'' (σ''.committed w) → fine (σ''.committed w) (k (.ok b)) →
        C.Reach σ'' (σ''.committed w) ∧ G σ'' (σ''.committed w) (k (.ok b)) ∧ (k (.ok b)).Amid C own G fine Q (σ''.committed w))
        w σ ∧
      ∀ e σ', C.Reach σ σ' → fine σ' (k (.error e)) → (k (.error e)).Amid C own G fine Q σ'

end Definitions

variable {C : Course I} {own : Shared I → Shared I → Prop}

/-! ## Stability -/

theorem Tx.Amid.stable {post : (I.Store → I.Store) → β → Shared I → Prop} {t : Tx I β} {w : I.Store → I.Store}
    {σ σ' : Shared I} (h : t.Amid C own post w σ) (hl : C.later σ σ') : t.Amid C own post w σ' := by
  have hreach : ∀ {σ''}, C.Reach σ' σ'' → C.Reach σ σ'' := fun h' => ⟨C.later_trans hl h'.1, h'.2⟩
  induction t generalizing w with
  | ret b => exact fun σ'' h' => h σ'' (hreach h')
  | throw e => trivial
  | read k _ => exact fun σ'' h' => h σ'' (hreach h')
  | write f k ih => exact ih h
  | lock l k ih => exact ih h
  | ask q k _ => exact fun σ'' h' => h σ'' (hreach h')

variable {G : Shared I → Shared I → Job I α → Prop} {fine : Shared I → Job I α → Prop} {Q : Except I.Err α → Shared I → Prop}
  {σ σ' : Shared I}

theorem Job.Amid.stable {j : Job I α} (h : j.Amid C own G fine Q σ) (hl : C.later σ σ') : j.Amid C own G fine Q σ' := by
  have hreach : ∀ {σ''}, C.Reach σ' σ'' → C.Reach σ σ'' := fun h' => ⟨C.later_trans hl h'.1, h'.2⟩
  cases j with
  | ret a => exact fun σ'' h' => h σ'' (hreach h')
  | throw e => exact fun σ'' h' => h σ'' (hreach h')
  | txn body k => exact ⟨fun σ'' h' => h.1 σ'' (hreach h'), fun e σ'' h' => h.2 e σ'' (hreach h')⟩
  | ask q k => exact fun σ'' h' => h σ'' (hreach h')

theorem Phase.Amid.stable {ph : Phase I α} (h : ph.Amid C own G fine Q σ) (hl : C.later σ σ') : ph.Amid C own G fine Q σ' := by
  cases ph with
  | between job => exact Job.Amid.stable h hl
  | inside w body k =>
      exact ⟨h.1.stable hl, fun e σ'' h' => h.2 e σ'' ⟨C.later_trans hl h'.1, h'.2⟩⟩

/-! ## Steps -/

/-- A step of a job amid others. -/
theorem Phase.Amid.step {ℓ ℓ' : Local I} {ph ph' : Phase I α} (h : Phase.Step ℓ σ ph ℓ' σ' ph')
    (hph : ph.Amid C own G fine Q σ) (hinv : C.inv σ) (hm : own σ σ') (hfine : ∀ j, ph' = .between j → fine σ' j) :
    C.Reach σ σ' ∧ ph'.Amid C own G fine Q σ' ∧ (σ'.store = σ.store ∨ ∃ j, ph' = .between j ∧ G σ σ' j) := by
  have hnow : C.Reach σ σ := ⟨C.later_refl σ, hinv⟩
  cases h with
  | begin => exact ⟨hnow, ⟨hph.1 _ hnow, hph.2⟩, .inl rfl⟩
  | call =>
      obtain ⟨hreach, hrest⟩ := hph _ hnow hm (hfine _ rfl)
      exact ⟨hreach, hrest, .inl rfl⟩
  | commit =>
      obtain ⟨hreach, hG, hrest⟩ := hph.1 _ hnow hm (hfine _ rfl)
      exact ⟨hreach, hrest, .inr ⟨_, rfl, hG⟩⟩
  | rollback => exact ⟨hnow, hph.2 _ _ hnow (hfine _ rfl), .inl rfl⟩
  | read => exact ⟨hnow, ⟨hph.1 _ hnow, hph.2⟩, .inl rfl⟩
  | write => exact ⟨hnow, hph, .inl rfl⟩
  | lock => exact ⟨hnow, hph, .inl rfl⟩
  | query =>
      obtain ⟨hreach, hrest⟩ := hph.1 _ hnow hm
      exact ⟨hreach, ⟨hrest, fun e σ'' h' => hph.2 e σ'' (hreach.trans h')⟩, .inl rfl⟩

/-! ## Rules for transactions -/

namespace Tx.Amid

variable {post post' : (I.Store → I.Store) → β → Shared I → Prop} {w : I.Store → I.Store}

theorem mono {t : Tx I β} (h : t.Amid C own post w σ)
    (hpost : ∀ w' b σ', C.Reach σ σ' → post w' b σ' → post' w' b σ') : t.Amid C own post' w σ := by
  induction t generalizing w σ with
  | ret b => exact fun σ' hr => hpost _ _ _ hr (h σ' hr)
  | throw e => trivial
  | read k ih => exact fun σ' hr => ih _ (h σ' hr) fun w' b σ'' hr' => hpost w' b σ'' (hr.trans hr')
  | write f k ih => exact ih h hpost
  | lock l k ih => exact ih h hpost
  | ask q k ih =>
      refine fun σ' hr hm => ⟨(h σ' hr hm).1, ih _ (h σ' hr hm).2 fun w' b σ'' hr' => hpost w' b σ'' ?_⟩
      exact hr.trans ((h σ' hr hm).1.trans hr')

/-- A transaction of which only the pending writes and the questions matter. `K` is what is known. -/
theorem of_writes {W : (I.Store → I.Store) → β → Prop} {P : I.Query → Prop} {K : Shared I → Prop} {t : Tx I β}
    (hwrites : t.Writes W w) (hasks : t.Asks P) (hK : ∀ σ σ', C.Reach σ σ' → K σ → K σ') (hσ : K σ)
    (hask : ∀ q σ', P q → K σ' → C.inv σ' → own σ' (σ'.asked q) → C.Reach σ' (σ'.asked q))
    (hpost : ∀ w' b σ', C.Reach σ σ' → W w' b → post w' b σ') : t.Amid C own post w σ := by
  induction t generalizing w σ with
  | ret b => exact fun σ' hr => hpost w b σ' hr hwrites
  | throw e => trivial
  | read k ih =>
      exact fun σ' hr => ih _ (hwrites _) (hasks _) (hK _ _ hr hσ) fun w' b σ'' hr' => hpost w' b σ'' (hr.trans hr')
  | write f k ih => exact ih hwrites hasks hσ hpost
  | lock l k ih => exact ih hwrites hasks hσ hpost
  | ask q k ih =>
      refine fun σ' hr hm => ?_
      have hknown := hK _ _ hr hσ
      have hnext := hask q σ' hasks.1 hknown hr.2 hm
      exact ⟨hnext, ih _ (hwrites _) (hasks.2 _) (hK _ _ hnext hknown) fun w' b σ'' hr' =>
        hpost w' b σ'' (hr.trans (hnext.trans hr'))⟩

end Tx.Amid

/-! ## Rules for jobs -/

namespace Job.Amid

theorem mono {G' : Shared I → Shared I → Job I α → Prop} {Q' : Except I.Err α → Shared I → Prop} {j : Job I α}
    (h : j.Amid C own G fine Q σ) (hG : ∀ σ τ r, G σ τ r → G' σ τ r)
    (hQ : ∀ r σ', C.Reach σ σ' → Q r σ' → Q' r σ') : j.Amid C own G' fine Q' σ := by
  induction j generalizing σ with
  | ret a => exact fun σ' hr => hQ _ _ hr (h σ' hr)
  | throw e => exact fun σ' hr => hQ _ _ hr (h σ' hr)
  | txn body k ih =>
      refine ⟨fun σ' hr => (h.1 σ' hr).mono fun w b σ'' hr' hpost hm hfine => ?_, fun e σ' hr hfine => ?_⟩
      · obtain ⟨hnext, hg, hrest⟩ := hpost hm hfine
        refine ⟨hnext, hG _ _ _ hg, ih _ hrest fun r σ₃ hr₃ => hQ r σ₃ ?_⟩
        exact (hr.trans hr').trans (hnext.trans hr₃)
      · exact ih _ (h.2 e σ' hr hfine) fun r σ'' hr' => hQ r σ'' (hr.trans hr')
  | ask q k ih =>
      intro σ' hr hm hfine
      obtain ⟨hnext, hrest⟩ := h σ' hr hm hfine
      exact ⟨hnext, ih _ hrest fun r σ'' hr' => hQ r σ'' (hr.trans (hnext.trans hr'))⟩

/-- A job that may come to every place. -/
theorem anywhere {j : Job I α} (h : j.Amid C own G (fun _ _ => True) Q σ) : j.Amid C own G fine Q σ := by
  induction j generalizing σ with
  | ret a => exact h
  | throw e => exact h
  | txn body k ih =>
      refine ⟨fun σ' hr => (h.1 σ' hr).mono fun w b σ'' _ hpost hm _ => ?_, fun e σ' hr _ => ih _ (h.2 e σ' hr trivial)⟩
      obtain ⟨hnext, hg, hrest⟩ := hpost hm trivial
      exact ⟨hnext, hg, ih _ hrest⟩
  | ask q k ih =>
      intro σ' hr hm _
      obtain ⟨hnext, hrest⟩ := h σ' hr hm trivial
      exact ⟨hnext, ih _ hrest⟩

/-- The first job comes to every place, the second one to fine places only. -/
theorem bind {fine : Shared I → Job I β → Prop} {G : Shared I → Shared I → Job I β → Prop} {Q : Except I.Err α → Shared I → Prop}
    {Q' : Except I.Err β → Shared I → Prop} {j : Job I α} {f : α → Job I β} (hσ : C.inv σ) (hfine : ∀ a, j = .ret a → fine σ (f a))
    (h : j.Amid C own (fun σ τ r => G σ τ (r.bind f)) (fun _ _ => True) Q σ)
    (hok : ∀ a σ', C.Reach σ σ' → Q (.ok a) σ' → fine σ' (f a) → (f a).Amid C own G fine Q' σ')
    (herror : ∀ e σ', C.Reach σ σ' → Q (.error e) σ' → Q' (.error e) σ') : (j.bind f).Amid C own G fine Q' σ := by
  have fine_of_ret : ∀ {τ} {r : Job I α}, fine τ (r.bind f) → ∀ a, r = .ret a → fine τ (f a) := by
    rintro _ _ h a rfl; exact h
  induction j generalizing σ with
  | ret a => exact hok a σ ⟨C.later_refl σ, hσ⟩ (h σ ⟨C.later_refl σ, hσ⟩) (hfine a rfl)
  | throw e => exact fun σ' hr => herror e σ' hr (h σ' hr)
  | txn body k ih =>
      refine ⟨fun σ' hr => (h.1 σ' hr).mono fun w b σ'' hr' hpost hm hfine' => ?_, fun e σ' hr hfine' => ?_⟩
      · obtain ⟨hnext, hg, hrest⟩ := hpost hm trivial
        have hreach : ∀ {σ₃}, C.Reach (σ''.committed w) σ₃ → C.Reach σ σ₃ := fun h₃ =>
          (hr.trans hr').trans (hnext.trans h₃)
        exact ⟨hnext, hg, ih _ hnext.2 (fine_of_ret hfine') hrest (fun a σ₃ h₃ => hok a σ₃ (hreach h₃))
          fun e σ₃ h₃ => herror e σ₃ (hreach h₃)⟩
      · exact ih _ hr.2 (fine_of_ret hfine') (h.2 e σ' hr trivial) (fun a σ'' hr' => hok a σ'' (hr.trans hr'))
          fun e σ'' hr' => herror e σ'' (hr.trans hr')
  | ask q k ih =>
      intro σ' hr hm hfine'
      obtain ⟨hnext, hrest⟩ := h σ' hr hm trivial
      have hreach : ∀ {σ₃}, C.Reach (σ'.asked q) σ₃ → C.Reach σ σ₃ := fun h₃ => hr.trans (hnext.trans h₃)
      exact ⟨hnext, ih _ hnext.2 (fine_of_ret hfine') hrest (fun a σ₃ h₃ => hok a σ₃ (hreach h₃)) fun e σ₃ h₃ => herror e σ₃ (hreach h₃)⟩

theorem orElse {Q Q' : Except I.Err α → Shared I → Prop} {j : Job I α} {f : I.Err → Job I α} (hσ : C.inv σ)
    (hfine : fine σ (j.orElse f)) (h : j.Amid C own (fun σ τ r => G σ τ (r.orElse f)) (fun _ _ => True) Q σ)
    (hok : ∀ a σ', C.Reach σ σ' → Q (.ok a) σ' → Q' (.ok a) σ')
    (herror : ∀ e σ', C.Reach σ σ' → Q (.error e) σ' → fine σ' (f e) → (f e).Amid C own G fine Q' σ') :
    (j.orElse f).Amid C own G fine Q' σ := by
  induction j generalizing σ with
  | ret a => exact fun σ' hr => hok a σ' hr (h σ' hr)
  | throw e => exact herror e σ ⟨C.later_refl σ, hσ⟩ (h σ ⟨C.later_refl σ, hσ⟩) hfine
  | txn body k ih =>
      refine ⟨fun σ' hr => (h.1 σ' hr).mono fun w b σ'' hr' hpost hm hfine' => ?_, fun e σ' hr hfine' => ?_⟩
      · obtain ⟨hnext, hg, hrest⟩ := hpost hm trivial
        have hreach : ∀ {σ₃}, C.Reach (σ''.committed w) σ₃ → C.Reach σ σ₃ := fun h₃ =>
          (hr.trans hr').trans (hnext.trans h₃)
        exact ⟨hnext, hg, ih _ hnext.2 hfine' hrest (fun a σ₃ h₃ => hok a σ₃ (hreach h₃))
          fun e σ₃ h₃ => herror e σ₃ (hreach h₃)⟩
      · exact ih _ hr.2 hfine' (h.2 e σ' hr trivial) (fun a σ'' hr' => hok a σ'' (hr.trans hr'))
          fun e σ'' hr' => herror e σ'' (hr.trans hr')
  | ask q k ih =>
      intro σ' hr hm hfine'
      obtain ⟨hnext, hrest⟩ := h σ' hr hm trivial
      have hreach : ∀ {σ₃}, C.Reach (σ'.asked q) σ₃ → C.Reach σ σ₃ := fun h₃ => hr.trans (hnext.trans h₃)
      exact ⟨hnext, ih _ hnext.2 hfine' hrest (fun a σ₃ h₃ => hok a σ₃ (hreach h₃)) fun e σ₃ h₃ => herror e σ₃ (hreach h₃)⟩

/-- The attempts of a job that is run again: one that fails leaves what the next one starts from, and what is committed
owes as much as the rest of the attempt and those that follow it. -/
theorem attempts {J : Shared I → Prop} {j : Job I α} (n : Nat) (hσ : C.inv σ) (hJ : J σ)
    (h : ∀ σ f, C.inv σ → J σ → j.Amid C own (fun σ τ r => G σ τ (r.orElse f)) (fun _ _ => True)
      (fun r σ' => match r with | .ok _ => Q r σ' | .error _ => J σ' ∧ Q r σ') σ) :
    (j.retry n).Amid C own G (fun _ _ => True) Q σ := by
  induction n generalizing σ with
  | zero =>
      have hlast := h σ .throw hσ hJ
      simp only [orElse_throw] at hlast
      refine hlast.mono (fun _ _ _ hG => hG) fun r σ' _ hr => ?_
      cases r with
      | ok a => exact hr
      | error e => exact hr.2
  | succ n ih =>
      refine orElse hσ trivial (h σ _ hσ hJ) (fun _ _ _ hr => hr) ?_
      exact fun e σ' hreach hr _ => ih hreach.2 hr.1

/-- Attempts whose commits owe nothing to what follows. -/
theorem retry {J : Shared I → Prop} {D : Shared I → Shared I → Prop} {j : Job I α} (n : Nat) (hσ : C.inv σ) (hJ : J σ)
    (hG : ∀ σ τ r, D σ τ → G σ τ r)
    (h : ∀ σ, C.inv σ → J σ → j.Amid C own (fun σ τ _ => D σ τ) (fun _ _ => True)
      (fun r σ' => match r with | .ok _ => Q r σ' | .error _ => J σ' ∧ Q r σ') σ) :
    (j.retry n).Amid C own G (fun _ _ => True) Q σ :=
  attempts n hσ hJ fun σ _ hinv hJ => (h σ hinv hJ).mono (fun _ _ _ => hG _ _ _) fun _ _ _ hr => hr

theorem transaction {body : Tx I α} (h : ∀ σ', C.Reach σ σ' → body.Amid C own (fun w b σ'' =>
      own σ'' (σ''.committed w) → C.Reach σ'' (σ''.committed w) ∧ G σ'' (σ''.committed w) (.ret b) ∧
        ∀ σ₃, C.Reach (σ''.committed w) σ₃ → Q (.ok b) σ₃) id σ')
    (herror : ∀ e σ', C.Reach σ σ' → Q (.error e) σ') : (Job.transaction body).Amid C own G fine Q σ :=
  ⟨fun σ' hr => (h σ' hr).mono fun _ _ _ _ hpost hm _ => hpost hm,
    fun e _ hr _ σ'' hr' => herror e σ'' (hr.trans hr')⟩

theorem get {f : I.Store → α} (hG : ∀ σ r, G σ σ r) (hok : ∀ σ₁, C.Reach σ σ₁ → ∀ σ₂, C.Reach σ₁ σ₂ → Q (.ok (f σ₁.store)) σ₂)
    (herror : ∀ e σ', C.Reach σ σ' → Q (.error e) σ') : (Job.get f).Amid C own G fine Q σ := by
  refine transaction (fun σ₀ hr₀ σ₁ hr₁ σ₂ hr₂ _ => ⟨⟨C.later_refl _, hr₂.2⟩, hG _ _, fun σ₃ hr₃ => ?_⟩) herror
  exact hok σ₁ (hr₀.trans hr₁) σ₃ (hr₂.trans hr₃)

theorem ofExcept {r : Except I.Err α} (h : ∀ σ', C.Reach σ σ' → Q r σ') : (Job.ofExcept r).Amid C own G fine Q σ := by
  cases r <;> exact h

end Job.Amid

/-! ## What a job returns -/

namespace Job

/-- The result that a job returns is as `R` says. -/
def Returns (R : α → Shared I → Prop) (r : Except I.Err α) (σ : Shared I) : Prop := ∀ a, r = .ok a → R a σ

@[simp] theorem returns_error {R : α → Shared I → Prop} (e : I.Err) : Returns R (.error e) σ := fun _ h => by cases h

theorem returns_ok {R : α → Shared I → Prop} {a : α} (h : R a σ) : Returns R (.ok a) σ := fun _ ha => Except.ok.inj ha ▸ h

theorem amid_ret {R : α → Shared I → Prop} {a : α} (h : ∀ σ', C.Reach σ σ' → R a σ') :
    (ret a : Job I α).Amid C own G fine (Returns R) σ := fun σ' hr => returns_ok (h σ' hr)

theorem amid_throw {R : α → Shared I → Prop} (e : I.Err) : (throw e : Job I α).Amid C own G fine (Returns R) σ :=
  fun _ _ => returns_error e

theorem amid_select {f : I.Store → α} {R : α → Shared I → Prop} (hG : ∀ σ r, G σ σ r)
    (hR : ∀ a σ σ', C.Reach σ σ' → R a σ → R a σ') (h : ∀ σ', C.Reach σ σ' → R (f σ'.store) σ') :
    (get f).Amid C own G fine (Returns R) σ :=
  Amid.get hG (fun σ₁ hr₁ σ₂ hr₂ => returns_ok (hR _ σ₁ σ₂ hr₂ (h σ₁ hr₁))) fun e _ _ => returns_error e

/-- A job, then one that starts from what the first one returned. -/
theorem amid_bind {fine : Shared I → Job I β → Prop} {G : Shared I → Shared I → Job I β → Prop} {R : α → Shared I → Prop}
    {Q : Except I.Err β → Shared I → Prop} {j : Job I α} {f : α → Job I β} (hσ : C.inv σ) (hfine : ∀ a, j = .ret a → fine σ (f a))
    (h : j.Amid C own (fun σ τ r => G σ τ (r.bind f)) (fun _ _ => True) (Returns R) σ)
    (hok : ∀ a σ', C.Reach σ σ' → R a σ' → fine σ' (f a) → (f a).Amid C own G fine Q σ')
    (herror : ∀ e σ', C.Reach σ σ' → Q (.error e) σ') : (j.bind f).Amid C own G fine Q σ :=
  Amid.bind hσ hfine h (fun a σ' hr ha => hok a σ' hr (ha a rfl)) fun e σ' hr _ => herror e σ' hr

theorem amid_ofExcept_bind {fine : Shared I → Job I β → Prop} {G : Shared I → Shared I → Job I β → Prop}
    {Q : Except I.Err β → Shared I → Prop} {r : Except I.Err α} {f : α → Job I β}
    (hok : ∀ a, r = .ok a → (f a).Amid C own G fine Q σ) (herror : ∀ e σ', C.Reach σ σ' → Q (.error e) σ') :
    ((ofExcept r).bind f).Amid C own G fine Q σ := by
  cases r with
  | ok a => exact hok a rfl
  | error e => exact fun σ' hr => herror e σ' hr

end Job

/-! ## Jobs of which only the writes and the questions matter -/

namespace Job

/-- Every transaction comes to writes with `W`, and every question is one of `A`. -/
def Does (W : (I.Store → I.Store) → Prop) (A : I.Query → Prop) : Job I α → Prop
  | .ret _ => True
  | .throw _ => True
  | .txn body k => (body.Writes (fun w _ => W w) id ∧ body.Asks A) ∧ ∀ r, (k r).Does W A
  | .ask q k => A q ∧ ∀ a, (k a).Does W A

variable {W : (I.Store → I.Store) → Prop} {A : I.Query → Prop}

@[simp] theorem does_ret (a : α) : (ret a : Job I α).Does W A := trivial

@[simp] theorem does_throw (e : I.Err) : (throw e : Job I α).Does W A := trivial

@[simp] theorem does_ofExcept (r : Except I.Err α) : (ofExcept r).Does W A := by cases r <;> trivial

theorem does_transaction {body : Tx I α} (hwrites : body.Writes (fun w _ => W w) id) (hasks : body.Asks A) :
    (transaction body).Does W A := ⟨⟨hwrites, hasks⟩, fun _ => does_ofExcept _⟩

theorem does_get (hid : W id) (f : I.Store → α) : (get f).Does W A :=
  does_transaction (fun _ => hid) (Tx.asks_get f)

theorem does_query {q : I.Query} (h : A q) : (query q).Does W A := ⟨h, fun _ => trivial⟩

theorem Does.bind {j : Job I α} {f : α → Job I β} (hj : j.Does W A) (hf : ∀ a, (f a).Does W A) : (j.bind f).Does W A := by
  induction j with
  | ret a => exact hf a
  | throw e => trivial
  | txn body k ih => exact ⟨hj.1, fun r => ih r (hj.2 r)⟩
  | ask q k ih => exact ⟨hj.1, fun a => ih a (hj.2 a)⟩

theorem Does.orElse {j : Job I α} {f : I.Err → Job I α} (hj : j.Does W A) (hf : ∀ e, (f e).Does W A) :
    (j.orElse f).Does W A := by
  induction j with
  | ret a => trivial
  | throw e => exact hf e
  | txn body k ih => exact ⟨hj.1, fun r => ih r (hj.2 r)⟩
  | ask q k ih => exact ⟨hj.1, fun a => ih a (hj.2 a)⟩

theorem Does.mapError {j : Job I α} (hj : j.Does W A) (f : I.Err → I.Err) : (j.mapError f).Does W A := by
  induction j with
  | ret a => trivial
  | throw e => trivial
  | txn body k ih => exact ⟨hj.1, fun r => ih r (hj.2 r)⟩
  | ask q k ih => exact ⟨hj.1, fun a => ih a (hj.2 a)⟩

theorem Does.retry {j : Job I α} (hj : j.Does W A) (n : Nat) : (j.retry n).Does W A := by
  induction n with
  | zero => exact hj
  | succ n ih => exact hj.orElse fun _ => ih

theorem Does.mono {W' : (I.Store → I.Store) → Prop} {A' : I.Query → Prop} {j : Job I α} (h : j.Does W A)
    (hW : ∀ w, W w → W' w) (hA : ∀ q, A q → A' q) : j.Does W' A' := by
  induction j with
  | ret a => trivial
  | throw e => trivial
  | txn body k ih => exact ⟨⟨h.1.1.mono fun w _ => hW w, h.1.2.mono hA⟩, fun r => ih r (h.2 r)⟩
  | ask q k ih => exact ⟨hA q h.1, fun a => ih a (h.2 a)⟩

/-- The rule for contracts that allow every question and write. -/
theorem Does.wp {inv : Shared I → Prop} {C : Contract I inv} {j : Job I α} {ℓ : Local I} {σ : Shared I} (h : j.Does W A)
    (hcommit : ∀ ℓ w σ, W w → C.guar ℓ σ (σ.committed w)) (hworld : ∀ ℓ σ w, C.guar ℓ σ (σ.withWorld w))
    (hwrite : ∀ ℓ s s', C.write ℓ s s') : j.WP C (fun _ _ => True) ℓ σ := by
  induction j generalizing ℓ σ with
  | ret a => exact fun _ _ _ => trivial
  | throw e => trivial
  | txn body k ih =>
      refine ⟨fun σ₁ _ _ => ?_, fun e pc σ₁ _ => ih _ (h.2 _)⟩
      exact Tx.WP.of_writes (K := fun _ => True) (fun _ _ _ _ _ _ _ => trivial) (fun _ _ _ => trivial) hworld hwrite trivial
        h.1.1 fun ℓ' w b σ₂ _ _ _ hw => ⟨hcommit ℓ' w σ₂ hw, ih _ (h.2 _)⟩
  | ask q k ih => exact fun σ₁ _ _ => ⟨hworld _ _ _, ih _ (h.2 _)⟩

/-- The rule for jobs of which only the writes and the questions matter. `K` is what is known when the job begins. -/
theorem Does.amid {K : Shared I → Prop} {j : Job I α} (h : j.Does W A)
    (hK : ∀ σ σ', C.Reach σ σ' → K σ → K σ') (hσ : K σ)
    (hW : ∀ w σ, W w → K σ → C.inv σ → own σ (σ.committed w) → C.Reach σ (σ.committed w))
    (hG : ∀ w σ r, W w → K σ → C.inv σ → own σ (σ.committed w) → fine (σ.committed w) r → G σ (σ.committed w) r)
    (hA : ∀ q σ, A q → K σ → C.inv σ → own σ (σ.asked q) → C.Reach σ (σ.asked q))
    (hQ : ∀ r σ', C.Reach σ σ' → K σ' → Q r σ') : j.Amid C own G fine Q σ := by
  induction j generalizing σ with
  | ret a => exact fun σ' hr => hQ _ _ hr (hK _ _ hr hσ)
  | throw e => exact fun σ' hr => hQ _ _ hr (hK _ _ hr hσ)
  | txn body k ih =>
      refine ⟨fun σ' hr => .of_writes (K := K) h.1.1 h.1.2 hK (hK _ _ hr hσ) hA fun w b σ'' hr' hw hm hfine => ?_,
        fun e σ' hr _ => ?_⟩
      · have hknown : K σ'' := hK _ _ (hr.trans hr') hσ
        have hnext := hW w σ'' hw hknown hr'.2 hm
        have hlater : C.Reach σ (σ''.committed w) := (hr.trans hr').trans hnext
        exact ⟨hnext, hG w σ'' _ hw hknown hr'.2 hm hfine, ih _ (h.2 _) (hK _ _ hlater hσ) fun r σ₃ h₃ => hQ r σ₃
          (hlater.trans h₃)⟩
      · exact ih _ (h.2 _) (hK _ _ hr hσ) fun r σ'' hr' => hQ r σ'' (hr.trans hr')
  | ask q k ih =>
      refine fun σ' hr hm _ => ?_
      have hnext := hA q σ' h.1 (hK _ _ hr hσ) hr.2 hm
      have hlater : C.Reach σ (σ'.asked q) := hr.trans hnext
      exact ⟨hnext, ih _ (h.2 _) (hK _ _ hlater hσ) fun r σ'' hr' => hQ r σ'' (hlater.trans hr')⟩

end Job

/-! ## Pools -/

namespace Pool

variable {ι : Type} [DecidableEq ι] [DecidableEq I.Lock]

/-- Every job of a pool keeps what it promises. -/
structure Amid (C : Course I) (own : ι → Shared I → Shared I → Prop) (G : ι → Shared I → Shared I → Job I α → Prop)
    (fine : ι → Shared I → Job I α → Prop) (Q : ι → Except I.Err α → Shared I → Prop) (p : Pool I ι α) : Prop where
  inv : C.inv p.shared
  phase : ∀ i, (p.threads i).phase.Amid C (own i) (G i) (fine i) (Q i) p.shared

/-- A step is one that the run says of the job, and brings it to a fine place. -/
structure InCourse (own : ι → Shared I → Shared I → Prop) (fine : ι → Shared I → Job I α → Prop) (p : Pool I ι α) (i : ι)
    (p' : Pool I ι α) : Prop where
  moves : own i p.shared p'.shared
  fine : ∀ j, (p'.threads i).phase = .between j → fine i p'.shared j

variable {own : ι → Shared I → Shared I → Prop} {G : ι → Shared I → Shared I → Job I α → Prop}
  {fine : ι → Shared I → Job I α → Prop} {Q : ι → Except I.Err α → Shared I → Prop} {p p' : Pool I ι α} {i : ι}

theorem Amid.step (h : p.Amid C own G fine Q) (hstep : p.Step i p') (hcond : InCourse own fine p i p') :
    p'.Amid C own G fine Q ∧ C.Reach p.shared p'.shared ∧ (p'.shared.store = p.shared.store ∨
      ∃ j, (p'.threads i).phase = .between j ∧ G i p.shared p'.shared j) := by
  obtain ⟨hown, hothers⟩ := hstep.inv
  obtain ⟨hnext, hphase, hG⟩ := (h.phase i).step hown h.inv hcond.moves hcond.fine
  refine ⟨⟨hnext.2, fun j => ?_⟩, hnext, hG⟩
  by_cases hji : j = i
  · subst hji; exact hphase
  · rw [(hothers j hji).1]; exact (h.phase j).stable hnext.1

variable {jobs : ι → Job I α} {s : I.Store} {w : I.World} {cond : Pool I ι α → ι → Pool I ι α → Prop}

/-- The rule for runs. -/
theorem amid_run (hinv : C.inv ⟨s, w⟩) (hjobs : ∀ i, (jobs i).Amid C (own i) (G i) (fine i) (Q i) ⟨s, w⟩)
    (hcond : ∀ p i p', p.Step i p' → cond p i p' → InCourse own fine p i p')
    (hp : ReachableIf cond (init jobs s w) p) : p.Amid C own G fine Q := by
  induction hp with
  | refl => exact ⟨hinv, hjobs⟩
  | tail _ hstep ih =>
      obtain ⟨i, hs, hc⟩ := hstep
      exact (ih.step hs (hcond _ _ _ hs hc)).1

/-- What every write and every answer keeps holds throughout. -/
theorem inv_of_does {W : (I.Store → I.Store) → Prop} {A : I.Query → Prop} {J : Shared I → Prop} {p : Pool I ι α}
    (hjobs : ∀ i, (jobs i).Does W A) (hW : ∀ w σ, W w → J σ → J (σ.committed w)) (hA : ∀ q σ, A q → J σ → J (σ.asked q))
    (hJ : J ⟨s, w⟩) (hp : Reachable (init jobs s w) p) : J p.shared := by
  let C : Course I := ⟨fun _ _ => True, J, fun _ => trivial, fun _ _ => trivial⟩
  have hrun : p.Amid C (fun _ _ _ => True) (fun _ _ _ _ => True) (fun _ _ _ => True) (fun _ _ _ => True) :=
    amid_run hJ (fun i => (hjobs i).amid (K := fun _ => True) (fun _ _ _ _ => trivial) trivial
      (fun w σ hw _ hσ _ => ⟨trivial, hW w σ hw hσ⟩) (fun _ _ _ _ _ _ _ _ => trivial)
      (fun q σ hq _ hσ _ => ⟨trivial, hA q σ hq hσ⟩) fun _ _ _ _ => trivial)
      (fun _ _ _ _ _ => ⟨trivial, fun _ _ => trivial⟩) hp
  exact hrun.inv

end Pool

end CorpoPay.Transaction
