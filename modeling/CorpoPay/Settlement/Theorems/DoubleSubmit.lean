import CorpoPay.Settlement.Lemmas.Submissions
import CorpoPay.Settlement.Theorems.ChargedAmount

/-!
# Main theorem: one session for a reference

`POST /payment-intents` looks for an intent with the reference, creates one, opens its session and only then writes the
reference to it. Submissions that follow each other, each within five minutes of the intent and for what its session
charges, open one session and are all answered with its intent.
-/

namespace CorpoPay.Settlement

open Transaction (Phase Pool)

/-- What runs side by side: submissions of the tenant, and jobs of any other kind. -/
inductive Visit
  | submit (body : CreateIntentBody)
  | other (job : Job Unit)

def Visit.job (rt : Runtime) (t : Id) : Visit → Job (Option CreatedIntent)
  | .submit body => submitIntent rt t body
  | .other job => job.bind fun _ => .ret none

/-- The visit submits the reference. -/
def Visit.Submits (reference : String) (body : CreateIntentBody) (visit : Visit) : Prop :=
  visit = .submit body ∧ body.reference = reference

/-- The submission is about to call the provider. -/
def opensSession : Phase Backend (Option CreatedIntent) → Bool
  | .between (.ask (.createCheckoutSession _) _) => true
  | _ => false

/-- The submission is about to call the provider, or has called and is about to answer with the new intent. -/
def SessionAsked : Phase Backend (Option CreatedIntent) → Prop
  | .between (.ask (.createCheckoutSession _) _) => True
  | .between (.txn _ k) => ∃ id, ∀ x, k (.ok x) = .ret (some ⟨id, false⟩)
  | .inside _ _ k => ∃ id, ∀ x, k (.ok x) = .ret (some ⟨id, false⟩)
  | _ => False

section Runs

variable {ι : Type} [DecidableEq ι] (rt : Runtime) (t : Id) (reference : String) (visits : ι → Visit)

abbrev Submissions (ι : Type) := Pool Backend ι (Option CreatedIntent)

def InProgress (p : Submissions ι) (i : ι) : Prop := 0 < (p.threads i).pc ∧ ¬ (p.threads i).phase.Finished

def Answered (p : Submissions ι) (i : ι) (answer : CreatedIntent) : Prop :=
  (p.threads i).phase = .between (.ret (some answer))

/-- The session has been opened, or a submission is about to open it. -/
def SessionOpened (p : Submissions ι) (session : CheckoutSession) : Prop :=
  session ∈ p.shared.world.charges ∨ ∃ j body k, (visits j).Submits reference body ∧
    (p.threads j).phase = .between (.ask (.createCheckoutSession session) k)

/-- The time. -/
def World.time (w : World) : Nat := w.oracle w.clock .now

/-- The condition on the steps of a run. -/
structure Orderly (p : Submissions ι) (i : ι) (p' : Submissions ι) : Prop where
  /-- A submission begins while no other one is in progress. -/
  alone : ∀ body, (visits i).Submits reference body → (p.threads i).pc = 0 →
    ∀ j body', j ≠ i → (visits j).Submits reference body' → ¬ InProgress p j
  /-- What it finds serves it. -/
  served : ∀ body k, (visits i).Submits reference body → (p.threads i).phase = .between (.ask .now k) →
    ∀ r, p.shared.store.recentIntent rt t reference p.shared.world.time = some r → r.Serves body
  /-- The intents that others were answered with are at most five minutes old. -/
  window : ∀ body k, (visits i).Submits reference body → (p.threads i).phase = .between (.ask .now k) →
    ∀ j body' answer, (visits j).Submits reference body' → Answered p j answer →
      ∀ r ∈ p.shared.store.paymentIntents, r.id = answer.intentId → r.isRecent p.shared.world.time = true
  /-- It does not fail once it calls the provider. -/
  settles : ∀ body, (visits i).Submits reference body → SessionAsked (p.threads i).phase → ¬ (p'.threads i).phase.Failed
  /-- Other jobs leave the intents alone. -/
  leaves : (∀ body, ¬ (visits i).Submits reference body) →
    p.shared.store.Leaves rt t reference (SessionOpened reference visits p) p'.shared.store
  /-- The primary key. -/
  unique : (p'.shared.store.paymentIntents.map (·.id)).Nodup

/-- The submissions ask for the same charge in the same mode. -/
structure CreateIntentBody.SameTerms (body body' : CreateIntentBody) : Prop where
  provider : body.provider = body'.provider
  amount : body.amount = body'.amount
  currency : body.currency = body'.currency
  mode : body.isWallet = body'.isWallet

/-- One session for the submissions with the same terms, and no answer with the intent of other terms. -/
structure OneSession (cond : Submissions ι → ι → Submissions ι → Prop) (p : Submissions ι) : Prop where
  /-- After one of them has called the provider, none does. -/
  once : ∀ i j body body' p₁ p₂, (visits i).Submits reference body → (visits j).Submits reference body' →
    body.SameTerms body' → opensSession (p.threads i).phase = true → p.Step i p₁ → cond p i p₁ → Pool.ReachableIf cond p₁ p₂ →
      opensSession (p₂.threads j).phase = false
  same : ∀ i j body body' answer answer', (visits i).Submits reference body → (visits j).Submits reference body' →
    body.SameTerms body' → Answered p i answer → Answered p j answer' → answer.intentId = answer'.intentId
  /-- A cached intent has the session that the submission asks for. -/
  terms : ∀ i j body body' answer answer', (visits i).Submits reference body → (visits j).Submits reference body' →
    Answered p i answer → Answered p j answer' → answer.idempotent = true → answer'.idempotent = false →
      answer.intentId = answer'.intentId →
        body.provider = body'.provider ∧ body.amount = body'.amount ∧ body.currency = body'.currency

/-! ## The invariant -/

/-- A submission has been answered with the intent. -/
def Known (p : Submissions ι) (x : Id) : Prop :=
  ∃ j body answer, (visits j).Submits reference body ∧ Answered p j answer ∧ answer.intentId = x

structure Served (p : Submissions ι) : Prop where
  forward : p.shared.world.Forward
  start : ∀ i, (p.threads i).pc = 0 → (p.threads i).phase = .between ((visits i).job rt t)
  alone : ∀ i j body body', (visits i).Submits reference body → (visits j).Submits reference body' → InProgress p i →
    InProgress p j → i = j
  place : ∀ i body, (visits i).Submits reference body → InProgress p i →
    Place t reference body rt (Known reference visits p) p.shared (p.threads i).phase
  answers : ∀ i body answer, (visits i).Submits reference body → Answered p i answer →
    ∃ r, p.shared.store.Answers rt t reference body answer r

variable {rt t reference visits} {p p' : Submissions ι} {i : ι}

omit [DecidableEq ι] in
theorem not_inProgress_of_answered {answer : CreatedIntent} (h : Answered p i answer) : ¬ InProgress p i := fun hi => by
  have hfinished : (p.threads i).phase.Finished := by rw [h]; trivial
  exact hi.2 hfinished

/-- A submission on its way has not been answered. -/
theorem Place.not_ret {body : CreateIntentBody} {known : Id → Prop} {σ : Transaction.Shared Backend}
    {ph : Phase Backend (Option CreatedIntent)} {answer : Option CreatedIntent}
    (h : Place t reference body rt known σ ph) : ph ≠ .between (.ret answer) := by
  cases h with
  | config h => cases h <;> exact fun heq => by cases heq
  | time config =>
      rw [afterConfig]
      cases config.filter (·.status = .connected) <;> exact fun heq => by cases heq
  | look _ h => cases h <;> exact fun heq => by cases heq
  | make _ _ h => rintro rfl; exact h
  | call _ _ h => cases h; exact fun heq => by cases heq
  | record _ _ _ h => cases h <;> exact fun heq => by cases heq

/-- A step of a job that is no submission. -/
theorem Served.step_other (h : Served rt t reference visits p) (hstep : p.Step i p')
    (hcond : Orderly rt t reference visits p i p') (hi : ∀ body, ¬ (visits i).Submits reference body) :
    Served rt t reference visits p' := by
  obtain ⟨hown, hothers⟩ := hstep.inv
  have hlater := World.later_step hown
  have hleaves := hcond.leaves hi
  have hsame : ∀ j body, (visits j).Submits reference body → p'.threads j = p.threads j := fun j body hj =>
    (hothers j fun hji => hi body (hji ▸ hj)).1
  have hknown : Known reference visits p' = Known reference visits p := by
    funext x
    refine propext (exists_congr fun j => exists_congr fun body => exists_congr fun answer => and_congr_right fun hj => ?_)
    rw [Answered, Answered, hsame j body hj]
  refine ⟨h.forward.later hlater.toBefore, fun j hj => ?_, fun j k body body' hj hk hpj hpk => ?_,
    fun j body hj hpj => ?_, fun j body answer hj hanswer => ?_⟩
  · by_cases hji : j = i
    · subst hji
      have hpc := hown.pc
      have hpc' : (p'.threads j).pc = (p.threads j).pc + 1 := hpc
      omega
    · rw [(hothers j hji).1] at hj ⊢
      exact h.start j hj
  · rw [InProgress, hsame _ _ hj] at hpj
    rw [InProgress, hsame _ _ hk] at hpk
    exact h.alone j k body body' hj hk hpj hpk
  · rw [InProgress, hsame _ _ hj] at hpj
    rw [hsame _ _ hj, hknown]
    refine (h.place j body hj hpj).stable h.forward hlater hleaves (fun session hsession => .inl hsession) ?_
    exact fun session k hphase => .inr ⟨j, body, k, hj, hphase⟩
  · rw [Answered, hsame _ _ hj] at hanswer
    obtain ⟨r, hr⟩ := h.answers j body answer hj hanswer
    exact hr.leaves hleaves

/-- While a submission takes a step, no other one is in progress. -/
theorem Served.idle (h : Served rt t reference visits p) (hstep : p.Step i p')
    (hcond : Orderly rt t reference visits p i p') {body : CreateIntentBody} (hi : (visits i).Submits reference body) :
    ∀ j body', j ≠ i → (visits j).Submits reference body' → ¬ InProgress p j := by
  intro j body' hji hj hpj
  rcases Nat.eq_zero_or_pos (p.threads i).pc with hpc | hpc
  · exact hcond.alone body hi hpc j body' hji hj hpj
  · exact hji (h.alone j i body' body hj hi hpj ⟨hpc, hstep.inv.1.not_finished⟩)

/-- A step of a submission. -/
theorem Served.next (hjson : ∀ s, rt.jsonEquals (.str s) (.str s) = true) (h : Served rt t reference visits p)
    (hstep : p.Step i p') (hcond : Orderly rt t reference visits p i p') {body : CreateIntentBody}
    (hi : (visits i).Submits reference body) :
    Next t reference body rt (Known reference visits p) p.shared p'.shared (p'.threads i).phase := by
  have hplace : Place t reference body rt (Known reference visits p) p.shared (p.threads i).phase := by
    rcases Nat.eq_zero_or_pos (p.threads i).pc with hpc | hpc
    · rw [h.start i hpc, hi.1, Visit.job, submitIntent_eq]
      exact .config .before
    · exact h.place i body hi ⟨hpc, hstep.inv.1.not_finished⟩
  refine hplace.step hjson hi.2 hstep.inv.1 h.forward hcond.unique fun k hphase => ⟨le_rfl, fun x hx => ?_, fun r hr => ?_⟩
  · obtain ⟨j, body', answer, hj, hanswer, rfl⟩ := hx
    obtain ⟨r, hr⟩ := h.answers j body' answer hj hanswer
    exact ⟨r, hr.newest, hcond.window body k hi hphase j body' answer hj hanswer r
      (List.mem_filter.mp (Data.mem_of_newest hr.newest)).1 hr.answered⟩
  · exact hcond.served body k hi hphase r hr

theorem Visit.Submits.unique {visit : Visit} {body body' : CreateIntentBody} (h : visit.Submits reference body)
    (h' : visit.Submits reference body') : body' = body := by
  have hsame := h'.1.symm.trans h.1
  cases hsame
  rfl

theorem answered_before (hstep : p.Step i p') {j : ι} {answer : CreatedIntent} (hji : j ≠ i) (h : Answered p' j answer) :
    Answered p j answer := by
  rwa [Answered, (hstep.inv.2 j hji).1] at h

/-- After a step of a submission no other one is in progress. -/
theorem Served.only (h : Served rt t reference visits p) (hstep : p.Step i p')
    (hcond : Orderly rt t reference visits p i p') {body body' : CreateIntentBody}
    (hi : (visits i).Submits reference body) {j : ι} (hj : (visits j).Submits reference body') (hpj : InProgress p' j) :
    j = i := by
  by_contra hji
  rw [InProgress, (hstep.inv.2 j hji).1] at hpj
  exact h.idle hstep hcond hi j body' hji hj hpj

/-- While a submission goes on, the answers are those from before its step. -/
theorem known_of_inProgress (hstep : p.Step i p') (hpi : InProgress p' i) :
    Known reference visits p' = Known reference visits p := by
  funext x
  refine propext ⟨fun ⟨k, body, answer, hk, hanswer, hx⟩ => ?_, fun ⟨k, body, answer, hk, hanswer, hx⟩ => ?_⟩
  · have hki : k ≠ i := by rintro rfl; exact not_inProgress_of_answered hanswer hpi
    exact ⟨k, body, answer, hk, answered_before hstep hki hanswer, hx⟩
  · have hki : k ≠ i := by
      rintro rfl
      refine hstep.inv.1.not_finished ?_
      rw [hanswer]
      trivial
    refine ⟨k, body, answer, hk, ?_, hx⟩
    rwa [Answered, (hstep.inv.2 k hki).1]

/-- A step that leaves the store where something was answered, and answers with a stored intent. -/
theorem Served.answers_after (h : Served rt t reference visits p) (hstep : p.Step i p') {body : CreateIntentBody}
    (hi : (visits i).Submits reference body)
    (hstore : (∃ x, Known reference visits p x) → p'.shared.store = p.shared.store)
    (hown : ∀ answer, Answered p' i answer → ∃ r, p'.shared.store.Answers rt t reference body answer r) (j : ι)
    (body' : CreateIntentBody) (answer : CreatedIntent) (hj : (visits j).Submits reference body')
    (hanswer : Answered p' j answer) : ∃ r, p'.shared.store.Answers rt t reference body' answer r := by
  by_cases hji : j = i
  · subst hji
    obtain rfl := hi.unique hj
    exact hown answer hanswer
  · have hbefore := answered_before hstep hji hanswer
    obtain ⟨r, hr⟩ := h.answers j body' answer hj hbefore
    rw [hstore ⟨_, j, body', answer, hj, hbefore, rfl⟩]
    exact ⟨r, hr⟩

theorem Served.step_submission (hjson : ∀ s, rt.jsonEquals (.str s) (.str s) = true)
    (h : Served rt t reference visits p) (hstep : p.Step i p') (hcond : Orderly rt t reference visits p i p')
    {body : CreateIntentBody} (hi : (visits i).Submits reference body) : Served rt t reference visits p' := by
  obtain ⟨hown, hothers⟩ := hstep.inv
  have hpc : (p'.threads i).pc = (p.threads i).pc + 1 := hown.pc
  have hnext := h.next hjson hstep hcond hi
  refine ⟨h.forward.later (World.later_step hown).toBefore, fun j hj => ?_, fun j k body₁ body₂ hj hk hpj hpk => ?_,
    fun j body' hj hpj => ?_, ?_⟩
  · by_cases hji : j = i
    · subst hji; omega
    · rw [(hothers j hji).1] at hj ⊢
      exact h.start j hj
  · exact (h.only hstep hcond hi hj hpj).trans (h.only hstep hcond hi hk hpk).symm
  · obtain rfl := h.only hstep hcond hi hj hpj
    obtain rfl := hi.unique hj
    rw [known_of_inProgress hstep hpj]
    cases hnext with
    | goes _ hplace => exact hplace
    | fails _ e hphase => exact absurd (by rw [hphase]; trivial) hpj.2
    | answers _ answer r hphase _ => exact absurd (by rw [hphase]; trivial) hpj.2
  · cases hnext with
    | goes hstore hplace => exact h.answers_after hstep hi hstore fun answer hanswer => absurd hanswer hplace.not_ret
    | fails hstore e hphase =>
        refine h.answers_after hstep hi hstore fun answer hanswer => ?_
        rw [Answered, hphase] at hanswer
        cases hanswer
    | answers hstore answer r hphase hr =>
        refine h.answers_after hstep hi hstore fun answer' hanswer => ?_
        rw [Answered, hphase] at hanswer
        cases hanswer
        exact ⟨r, hr⟩

theorem Served.step (hjson : ∀ s, rt.jsonEquals (.str s) (.str s) = true) (h : Served rt t reference visits p)
    (hstep : p.Step i p') (hcond : Orderly rt t reference visits p i p') : Served rt t reference visits p' := by
  by_cases hi : ∃ body, (visits i).Submits reference body
  · obtain ⟨body, hi⟩ := hi
    exact h.step_submission hjson hstep hcond hi
  · exact h.step_other hstep hcond fun body hbody => hi ⟨body, hbody⟩

theorem Served.run (hjson : ∀ s, rt.jsonEquals (.str s) (.str s) = true) (h : Served rt t reference visits p)
    (hp : Pool.ReachableIf (Orderly rt t reference visits) p p') : Served rt t reference visits p' := by
  induction hp with
  | refl => exact h
  | tail _ hstep ih =>
      obtain ⟨i, hs, hcond⟩ := hstep
      exact ih.step hjson hs hcond

omit [DecidableEq ι] in
theorem served_init {db : Db} {w : World} (hclock : w.Forward) :
    Served rt t reference visits (Pool.init (fun i => (visits i).job rt t) db w) where
  forward := hclock
  start _ _ := rfl
  alone _ _ _ _ _ _ hi _ := absurd hi.1 (lt_irrefl 0)
  place _ _ _ hi := absurd hi.1 (lt_irrefl 0)
  answers i body answer hi hanswer := by
    exfalso
    have hphase : (Pool.init (fun i => (visits i).job rt t) db w).threads i = ⟨0, .between ((visits i).job rt t)⟩ := rfl
    rw [Answered, hphase, hi.1, Visit.job, submitIntent_eq] at hanswer
    cases hanswer

/-! ## One call -/

/-- The submission has called the provider: it records the session, or has answered with its intent. -/
def Past (p : Submissions ι) (i : ι) : Prop :=
  0 < (p.threads i).pc ∧ ((∃ body id, RecordingAt body id (p.threads i).phase) ∨ ∃ answer, Answered p i answer)

theorem RecordingAt.sessionAsked {body : CreateIntentBody} {id : Id} {ph : Phase Backend (Option CreatedIntent)}
    (h : RecordingAt body id ph) : SessionAsked ph := by
  cases h with
  | between _ hok _ => exact ⟨id, hok⟩
  | inside _ hok _ => exact ⟨id, hok⟩

theorem sessionAsked_of_opens {ph : Phase Backend (Option CreatedIntent)} (h : opensSession ph = true) : SessionAsked ph := by
  match ph, h with
  | .between (.ask (.createCheckoutSession _) _), _ => trivial

/-- A submission that is about to call the provider has created its intent, and no other one has been answered. -/
theorem Place.calling {body : CreateIntentBody} {known : Id → Prop} {σ : Transaction.Shared Backend}
    {ph : Phase Backend (Option CreatedIntent)} (h : Place t reference body rt known σ ph) (hopens : opensSession ph = true) :
    (∀ x, ¬ known x) ∧ ∃ row, CallingAt reference body row ph := by
  match ph, hopens with
  | .between (.ask (.createCheckoutSession session) k), _ =>
      generalize hph : (Phase.between (.ask (.createCheckoutSession session) k) : Phase Backend (Option CreatedIntent)) = ph' at h
      cases h with
      | config h => cases h <;> cases hph
      | time config =>
          rw [afterConfig] at hph
          revert hph
          cases config.filter (·.status = .connected) <;> exact fun hph => by cases hph
      | look _ h => cases h <;> cases hph
      | make _ _ h =>
          subst hph
          exact absurd rfl (h.1 session)
      | @call row _ hnone _ h => exact ⟨hnone, row, h⟩
      | record _ _ _ h => cases h <;> cases hph

omit [DecidableEq ι] in
/-- A submission that is about to call is in progress. -/
theorem Served.inProgress (h : Served rt t reference visits p) {body : CreateIntentBody}
    (hi : (visits i).Submits reference body) (hopens : opensSession (p.threads i).phase = true) : InProgress p i := by
  constructor
  · by_contra hpc
    have hstart := h.start i (by omega)
    rw [hi.1, Visit.job, submitIntent_eq] at hstart
    rw [hstart] at hopens
    exact Bool.false_ne_true hopens
  · match hphase : (p.threads i).phase, hopens with
    | .between (.ask (.createCheckoutSession _) _), _ => exact id

/-- The call of the provider. -/
theorem past_of_call (h : Served rt t reference visits p) {body : CreateIntentBody}
    (hi : (visits i).Submits reference body) (hopens : opensSession (p.threads i).phase = true) (hstep : p.Step i p')
    (hcond : Orderly rt t reference visits p i p') : Past p' i := by
  obtain ⟨hown, -⟩ := hstep.inv
  have hpc : (p'.threads i).pc = (p.threads i).pc + 1 := hown.pc
  obtain ⟨-, row, hcalling⟩ := (h.place i body hi (h.inProgress hi hopens)).calling hopens
  refine ⟨by omega, ?_⟩
  obtain ⟨-, ⟨e, he⟩ | ⟨hrecording, -⟩⟩ := hcalling.step hown
  · refine absurd ?_ (hcond.settles body hi (sessionAsked_of_opens hopens))
    rw [he]
    trivial
  · exact .inl ⟨body, row.id, hrecording⟩

theorem Past.step {j : ι} {body : CreateIntentBody} (hj : (visits j).Submits reference body) (h : Past p j)
    (hstep : p.Step i p') (hcond : Orderly rt t reference visits p i p') : Past p' j := by
  obtain ⟨hown, hothers⟩ := hstep.inv
  have hpc : (p'.threads i).pc = (p.threads i).pc + 1 := hown.pc
  by_cases hji : j = i
  · subst hji
    refine ⟨by omega, ?_⟩
    rcases h.2 with ⟨body', id, hrecording⟩ | ⟨answer, hanswer⟩
    · rcases hrecording.step hown with ⟨-, hrecording' | ⟨e, he⟩⟩ | ⟨-, -, -, hanswer⟩
      · exact .inl ⟨body', id, hrecording'⟩
      · refine absurd ?_ (hcond.settles body hj hrecording.sessionAsked)
        rw [he]
        trivial
      · exact .inr ⟨_, hanswer⟩
    · refine absurd ?_ hown.not_finished
      rw [hanswer]
      trivial
  · unfold Past Answered
    rw [(hothers j hji).1]
    exact h

omit [DecidableEq ι] in
/-- After the call no submission is about to call. -/
theorem not_opensSession_of_past (h : Served rt t reference visits p) {j : ι} {body body' : CreateIntentBody}
    (hi : (visits i).Submits reference body) (hj : (visits j).Submits reference body') (hpast : Past p i) :
    opensSession (p.threads j).phase = false := by
  refine Bool.eq_false_iff.mpr fun hopens => ?_
  have hprogress := h.inProgress hj hopens
  obtain ⟨hnone, row, hcalling⟩ := (h.place j body' hj hprogress).calling hopens
  rcases hpast.2 with ⟨body₁, intentId, hrecording⟩ | ⟨answer, hanswer⟩
  · have hprogress' : InProgress p i := by
      refine ⟨hpast.1, ?_⟩
      generalize (p.threads i).phase = ph at hrecording
      cases hrecording <;> exact not_false
    obtain rfl := h.alone i j body body' hi hj hprogress' hprogress
    generalize (p.threads i).phase = ph at hrecording hcalling
    cases hrecording <;> cases hcalling
  · exact hnone answer.intentId ⟨i, body, answer, hi, hanswer, rfl⟩

/-- Any number of submissions beside any other jobs. -/
theorem submissions_open_once (hjson : ∀ s, rt.jsonEquals (.str s) (.str s) = true) {db : Db} {w : World}
    (hclock : w.Forward)
    (hp : Pool.ReachableIf (Orderly rt t reference visits) (Pool.init (fun i => (visits i).job rt t) db w) p) :
    OneSession reference visits (Orderly rt t reference visits) p := by
  have hserved := (served_init hclock).run hjson hp
  refine ⟨fun i j body body' p₁ p₂ hi hj _ hopens hstep hcond hrun => ?_,
    fun i j body body' answer answer' hi hj _ hanswer hanswer' => ?_,
    fun i j body body' answer answer' hi hj hanswer hanswer' hcached hcreated hsame => ?_⟩
  · have hpast : Served rt t reference visits p₂ ∧ Past p₂ i := by
      induction hrun with
      | refl => exact ⟨hserved.step hjson hstep hcond, past_of_call hserved hi hopens hstep hcond⟩
      | tail _ hnext ih =>
          obtain ⟨k, hs, hc⟩ := hnext
          exact ⟨ih.1.step hjson hs hc, ih.2.step hi hs hc⟩
    exact not_opensSession_of_past hpast.1 hi hj hpast.2
  · obtain ⟨r, hr⟩ := hserved.answers i body answer hi hanswer
    obtain ⟨r', hr'⟩ := hserved.answers j body' answer' hj hanswer'
    obtain rfl := Option.some.inj (hr.newest.symm.trans hr'.newest)
    exact hr.answered.symm.trans hr'.answered
  · obtain ⟨r, hr⟩ := hserved.answers i body answer hi hanswer
    obtain ⟨r', hr'⟩ := hserved.answers j body' answer' hj hanswer'
    obtain rfl := Option.some.inj (hr.newest.symm.trans hr'.newest)
    have hserves := hr.cached hcached
    obtain ⟨hprovider, hmetadata⟩ := hr'.created hcreated
    have hamount := hserves.amount
    have hcurrency := hserves.currency
    rw [metadataOr_stored_amount hmetadata] at hamount
    rw [metadataOr_stored_currency hmetadata] at hcurrency
    exact ⟨hserves.provider.symm.trans hprovider, by exact_mod_cast (Json.num.inj hamount).symm, (Json.str.inj hcurrency).symm⟩

end Runs

/-! ## Two submissions -/

/-- A charge of 120.00 that is submitted twice. -/
def bookingBody : CreateIntentBody where
  provider := .vps
  amount := 12000
  currency := "MAD"
  reference := "booking"
  description := "d"
  isPreauth := none
  metadata := none
  isWallet := false
  amount_pos := by decide

/-- Texts in the database are equal when they are the same. -/
def bookingRuntime : Runtime :=
  { checkoutRuntime with
    jsonEquals := fun a b =>
      match a, b with
      | .str s, .str s' => s = s'
      | _, _ => false }

def bookingVisits (_ : Bool) : Visit := .submit bookingBody

def submittedTwice : Submissions Bool :=
  Pool.init (fun i => (bookingVisits i).job bookingRuntime 1)
    (.empty { plainConfig with providerConfigs := [⟨1, .vps, "key of 1", .connected⟩] }) .counting

def servesBooking (r : PaymentIntent) : Bool :=
  r.provider = .vps && !r.isWallet &&
    (match r.metadataOr "amount" (.num 0) with
      | .num n => n = 12000
      | _ => false) &&
    (match r.metadataOr "currency" (.str Currency.mad.code) with
      | .str s => s = "MAD"
      | _ => false)

theorem serves_of_servesBooking {r : PaymentIntent} (h : servesBooking r = true) : r.Serves bookingBody := by
  simp only [servesBooking, Bool.and_eq_true, decide_eq_true_eq, Bool.not_eq_true'] at h
  obtain ⟨⟨⟨hprovider, hmode⟩, hamount⟩, hcurrency⟩ := h
  refine ⟨hprovider, hmode, ?_, ?_⟩
  · cases hvalue : r.metadataOr "amount" (.num 0) with
    | num n =>
        rw [hvalue] at hamount
        rw [of_decide_eq_true hamount]
        rfl
    | _ => rw [hvalue] at hamount; cases hamount
  · cases hvalue : r.metadataOr "currency" (.str Currency.mad.code) with
    | str s =>
        rw [hvalue] at hcurrency
        rw [of_decide_eq_true hcurrency]
        rfl
    | _ => rw [hvalue] at hcurrency; cases hcurrency

/-- A step that meets the condition. -/
def orderlyStep (p : Submissions Bool) (i : Bool) (p' : Submissions Bool) : Bool :=
  (0 < (p.threads i).pc || (p.threads !i).pc = 0 || (p.threads !i).phase.Finished) &&
    (p.shared.store.recentIntent bookingRuntime 1 "booking" p.shared.world.time).all servesBooking &&
    p.shared.store.paymentIntents.all (·.isRecent p.shared.world.time) && !(p'.threads i).phase.Failed &&
    (p'.shared.store.paymentIntents.map (·.id)).Nodup

theorem orderly_of_orderlyStep {p p' : Submissions Bool} {i : Bool} (h : orderlyStep p i p' = true) :
    Orderly bookingRuntime 1 "booking" bookingVisits p i p' := by
  simp only [orderlyStep, Bool.and_eq_true, Bool.or_eq_true, decide_eq_true_eq, Bool.not_eq_true',
    decide_eq_false_iff_not] at h
  obtain ⟨⟨⟨⟨halone, hserved⟩, hrecent⟩, hfailed⟩, hunique⟩ := h
  have hbody : ∀ i body, (bookingVisits i).Submits "booking" body → bookingBody = body := fun i body hi => by
    have hsame := hi.1
    cases hsame
    rfl
  refine ⟨fun body _ hpc j body' hji _ hprogress => ?_, fun body k hi _ r hr => ?_,
    fun body k _ _ j body' answer _ _ r hr _ => List.all_eq_true.mp hrecent r hr, fun body _ _ => hfailed,
    fun hother => absurd ⟨rfl, rfl⟩ (hother bookingBody), hunique⟩
  · obtain rfl : j = !i := by cases i <;> cases j <;> simp_all
    rcases halone with (hpos | hzero) | hfinished
    · omega
    · exact absurd hprogress.1 (by omega)
    · exact hprogress.2 hfinished
  · rw [hr] at hserved
    exact hbody i body hi ▸ serves_of_servesBooking hserved

/-- The answer of a submission that has ended with one. -/
def answerOf : Phase Backend (Option CreatedIntent) → Option CreatedIntent
  | .between (.ret answer) => answer
  | _ => none

theorem answered_of_answerOf {ι : Type} {p : Submissions ι} {i : ι} {answer : CreatedIntent}
    (h : answerOf (p.threads i).phase = some answer) : Answered p i answer := by
  match hphase : (p.threads i).phase, h with
  | .between (.ret (some _)), rfl => exact hphase

theorem bookingRuntime_jsonEquals (s : String) : bookingRuntime.jsonEquals (.str s) (.str s) = true := decide_eq_true rfl

/-- The second submission is answered with the intent of the first one. -/
theorem submissions_open_once_repeated : ∃ p,
    Pool.ReachableIf (Orderly bookingRuntime 1 "booking" bookingVisits) submittedTwice p ∧
    Answered p false ⟨2, false⟩ ∧ Answered p true ⟨2, true⟩ ∧
    OneSession "booking" bookingVisits (Orderly bookingRuntime 1 "booking" bookingVisits) p := by
  obtain ⟨p, hp, hend⟩ := Pool.ReachableIf.exists_of_check submittedTwice
    (List.replicate 27 false ++ List.replicate 7 true)
    (fun p => answerOf (p.threads false).phase = some ⟨2, false⟩ ∧ answerOf (p.threads true).phase = some ⟨2, true⟩)
    orderlyStep (fun _ _ _ _ => orderly_of_orderlyStep) (by decide +kernel)
  obtain ⟨hfirst, hsecond⟩ := of_decide_eq_true hend
  exact ⟨p, hp, answered_of_answerOf hfirst, answered_of_answerOf hsecond,
    submissions_open_once bookingRuntime_jsonEquals (fun _ _ h => h) hp⟩

/-- Both submissions look before either has written the reference, and both open a session. -/
theorem not_submissions_open_once :
    ¬ ∀ (rt : Runtime) (t : Id) (reference : String) (visits : Bool → Visit) (db : Db) (w : World),
      (∀ s, rt.jsonEquals (.str s) (.str s) = true) → w.Forward →
        ∀ p, Pool.Reachable (Pool.init (fun i => (visits i).job rt t) db w) p →
          OneSession reference visits (fun _ _ _ => True) p := by
  intro h
  obtain ⟨p, hp, hend⟩ := Pool.ReachableIf.exists_of_runSchedule submittedTwice
    (List.replicate 18 false ++ List.replicate 18 true)
    (fun p => opensSession (p.threads false).phase && opensSession (p.threads true).phase && (p.step false).isSome)
    (fun _ _ _ => trivial) (by decide +kernel)
  simp only [Bool.and_eq_true] at hend
  obtain ⟨⟨hfirst, hsecond⟩, hnext⟩ := hend
  obtain ⟨p₁, hstep⟩ := Option.isSome_iff_exists.mp hnext
  have hsubmits : ∀ i, (bookingVisits i).Submits "booking" bookingBody := fun _ => ⟨rfl, rfl⟩
  have honce := (h bookingRuntime 1 "booking" bookingVisits _ .counting bookingRuntime_jsonEquals (fun _ _ h => h) p hp).once
    false true bookingBody bookingBody p₁ p₁ (hsubmits false) (hsubmits true) ⟨rfl, rfl, rfl, rfl⟩ hfirst (.inl hstep) trivial
    .refl
  rw [((Pool.Step.inv (.inl hstep)).2 true (by decide)).1, hsecond] at honce
  cases honce

end CorpoPay.Settlement
