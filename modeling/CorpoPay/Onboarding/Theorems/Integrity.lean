import CorpoPay.Onboarding.Lifecycle
import CorpoPay.Transaction.Watch

/-!
# Main theorem: onboarding integrity

Where no edit reaches an application under review and nobody changes one between the look of an operation and its write,
every run takes each application through its lifecycle.
-/

namespace CorpoPay.Onboarding

open Transaction (Contract Local Pool Shared)
open Transaction.Pool (ReachableIf StepIf)

/-! ## Rows -/

section Rows

variable {db : Db} {t : String} {r : MerchantOnboarding} {f : MerchantOnboarding → MerchantOnboarding}

theorem tenantId_of_onboarding (h : db.onboarding t = some r) : r.tenantId = t := by
  simpa using List.find?_some h

theorem onboarding_update (hf : ∀ r, (f r).tenantId = r.tenantId) (t' : String) :
    (db.updateOnboarding t f).onboarding t' = if t' = t then (db.onboarding t').map f else db.onboarding t' := by
  have hkept : ∀ r : MerchantOnboarding, (if r.tenantId = t then f r else r).tenantId = r.tenantId := fun r => by
    split_ifs
    · exact hf r
    · rfl
  have hfind : (db.updateOnboarding t f).onboarding t' =
      (db.onboarding t').map fun r => if r.tenantId = t then f r else r := by
    simp only [Db.onboarding, Db.updateOnboarding, List.find?_map, Function.comp_def, hkept]
  rw [hfind]
  cases hrow : db.onboarding t' with
  | none => split_ifs <;> rfl
  | some r =>
      have htenant := tenantId_of_onboarding hrow
      split_ifs with h
      · rw [Option.map_some, Option.map_some, if_pos (htenant.trans h)]
      · rw [Option.map_some, if_neg (htenant ▸ h)]

theorem onboarding_upsert (hf : ∀ r, (f r).tenantId = r.tenantId) (row : MerchantOnboarding) (t' : String) :
    (db.upsertOnboarding row f).onboarding t' =
      if t' = row.tenantId then some ((db.onboarding t').elim row f) else db.onboarding t' := by
  unfold Db.upsertOnboarding
  split
  · rename_i r hrow
    rw [onboarding_update hf]
    split_ifs with h
    · rw [h, hrow]
      rfl
    · rfl
  · rename_i hnone
    simp only [Db.onboarding, List.find?_append]
    split_ifs with h
    · subst h
      rw [show db.merchantOnboardings.find? (·.tenantId = row.tenantId) = none from hnone]
      simp
    · have hother : ([row] : List MerchantOnboarding).find? (·.tenantId = t') = none := by
        simp [Ne.symm h]
      rw [hother, Option.or_none]

end Rows

/-! ## What the operations do -/

/-- What a transition has looked at. -/
def Db.look (tenantId : String) (db : Db) : Option (OnboardingStatus × KycFields × RiskTier) :=
  (db.onboarding tenantId).map fun r => (r.status, r.answers)

/-- A transition to `target` that a check of the record allows. -/
structure Transition (tenantId : String) (target : OnboardingStatus) (db db' : Db) : Prop where
  moves : ∃ r r', db.onboarding tenantId = some r ∧ db'.onboarding tenantId = some r' ∧ r'.status = target ∧
    canTransition r.status target = true ∧ r'.answers = r.answers ∧ (target = .submitted → r.toKycFields.Complete)
  others : ∀ t, t ≠ tenantId → db'.onboarding t = db.onboarding t

/-- A creation or an edit. -/
def Upsert (tenantId : String) (db db' : Db) : Prop :=
  ∃ id input, db' = db.upsertOnboarding (draft id tenantId input) (·.setFields input)

namespace Operation

/-- What the write of an operation rests on. An upsert has looked at nothing. -/
def view : Operation → Db → Option (OnboardingStatus × KycFields × RiskTier)
  | .upsert _ _ => fun _ => none
  | .submit t => Db.look t
  | .approve t _ => Db.look t
  | .reject t _ _ => Db.look t
  | .requestInfo t _ _ => Db.look t

/-- The step from which on an operation needs its view. -/
def lookedAt : Operation → Nat
  | .upsert _ _ => 0
  | _ => 2

def changes : Operation → Db → Db → Prop
  | .upsert t _ => Upsert t
  | .submit t => Transition t .submitted
  | .approve t _ => Transition t .approved
  | .reject t _ _ => Transition t .rejected
  | .requestInfo t _ _ => Transition t .needsInfo

end Operation

section Jobs

variable {α : Type} {t : String} {ℓ : Local Backend} {σ : Shared Backend} {target : OnboardingStatus}
  {f : MerchantOnboarding → MerchantOnboarding}

theorem transition_update {r : MerchantOnboarding} {db : Db} (hlook : db.look t = some (r.status, r.answers))
    (hmove : canTransition r.status target = true) (hcomplete : target = .submitted → r.toKycFields.Complete)
    (hf : ∀ r, (f r).tenantId = r.tenantId ∧ (f r).status = target ∧ (f r).answers = r.answers) :
    Transition t target db (db.updateOnboarding t f) := by
  obtain ⟨r₁, hrow, hsame⟩ := Option.map_eq_some_iff.mp hlook
  obtain ⟨hstatus, hanswers⟩ := Prod.mk.inj hsame
  refine ⟨⟨r₁, f r₁, hrow, ?_, (hf r₁).2.1, hstatus ▸ hmove, (hf r₁).2.2, fun hsub => ?_⟩, fun t' ht' => ?_⟩
  · rw [onboarding_update fun r => (hf r).1, if_pos rfl, hrow, Option.map_some]
  · have hfields : r₁.toKycFields = r.toKycFields := congrArg Prod.fst hanswers
    exact hfields ▸ hcomplete hsub
  · rw [onboarding_update fun r => (hf r).1, if_neg ht']

theorem writes_returning {P : (Db → Db) → Prop} {w : Db → Db} (h : P w) :
    (returning t).Writes (fun w _ => P w) w := by
  simp only [returning, Transaction.Tx.bind_eq, Transaction.Tx.writes_bind, Transaction.Tx.writes_get]
  intro db
  cases db.onboarding t with
  | none => trivial
  | some row => exact h

/-- The write of a transition that still finds what it looked at. -/
theorem update_wp {r : MerchantOnboarding} (hpc : 2 ≤ ℓ.pc) (hlook : σ.store.look t = some (r.status, r.answers))
    (hmove : canTransition r.status target = true) (hcomplete : target = .submitted → r.toKycFields.Complete)
    (hf : ∀ r, (f r).tenantId = r.tenantId ∧ (f r).status = target ∧ (f r).answers = r.answers) :
    (update t f).WP (.watching (Db.look t) 2 (Transition t target)) (fun _ _ => True) ℓ σ := by
  exact Transaction.Job.WP.act hpc (writes_returning fun db hdb =>
    .inr (transition_update (hdb.trans hlook) hmove hcomplete hf))

/-- The look of a transition. -/
theorem existing_bind {message : String} {change : Db → Db → Prop} {k : MerchantOnboarding → Job α} {Q : α → Shared Backend → Prop}
    (h : ∀ r σ', σ'.store.look t = some (r.status, r.answers) →
      (k r).WP (.watching (Db.look t) 2 change) Q ⟨3, ∅⟩ σ') :
    ((existing t message).bind k).WP (.watching (Db.look t) 2 change) Q ⟨0, ∅⟩ σ := by
  unfold existing
  rw [Transaction.Job.bind_eq, Transaction.Job.bind_assoc]
  refine Transaction.Job.WP.look_bind (le_refl 2) fun s σ' hview => ?_
  cases hrow : s.onboarding t with
  | none => trivial
  | some r => exact h r σ' (hview.trans (by rw [Db.look, hrow, Option.map_some]))

theorem check_bind {V : Type} {view : Db → V} {change : Db → Db → Prop} {r : Except OnboardingError Unit} {k : Unit → Job α}
    {Q : α → Shared Backend → Prop} (h : r = .ok () → (k ()).WP (.watching view 2 change) Q ℓ σ) :
    ((check r).bind k).WP (.watching view 2 change) Q ℓ σ := by
  refine Transaction.Job.WP.ofExcept_bind fun b hb => ?_
  cases r with
  | ok u => exact h rfl
  | error e => cases hb

/-- A transition without a clock: look, check, write. -/
theorem transition_wp {message : String} (htarget : target ≠ .submitted)
    (hf : ∀ r, (f r).tenantId = r.tenantId ∧ (f r).status = target ∧ (f r).answers = r.answers) :
    ((existing t message).bind fun onboarding =>
        (check (assertTransition onboarding.status target)).bind fun _ => update t f).WP
      (.watching (Db.look t) 2 (Transition t target)) (fun _ _ => True) ⟨0, ∅⟩ σ :=
  existing_bind fun _ _ hlook => check_bind fun hmove =>
    update_wp (by simp) hlook (assertTransition_eq_ok.mp hmove) (fun h => absurd h htarget) hf

theorem submitOnboarding_wp :
    (submitOnboarding t).WP (.watching (Db.look t) 2 (Transition t .submitted)) (fun _ _ => True) ⟨0, ∅⟩ σ := by
  refine existing_bind fun r σ₁ hlook => check_bind fun hmove => check_bind fun hvalid => ?_
  refine Transaction.Job.WP.query_bind fun now σ₂ hsame => ?_
  exact update_wp (by simp) ((hsame (by simp)).trans hlook) (assertTransition_eq_ok.mp hmove)
    (fun _ => validateOnboarding_eq_ok.mp hvalid) fun r => ⟨rfl, rfl, rfl⟩

theorem approveOnboarding_wp (reviewerId : String) :
    (approveOnboarding t reviewerId).WP (.watching (Db.look t) 2 (Transition t .approved)) (fun _ _ => True)
      ⟨0, ∅⟩ σ := by
  refine existing_bind fun r σ₁ hlook => check_bind fun hmove => ?_
  refine Transaction.Job.WP.query_bind fun now σ₂ hsame => ?_
  refine Transaction.Job.WP.bind (Q := fun _ _ => True) (fun _ _ _ _ _ _ => trivial) ?_ trivial
  exact update_wp (by simp) ((hsame (by simp)).trans hlook) (assertTransition_eq_ok.mp hmove) nofun
    fun r => ⟨rfl, rfl, rfl⟩

theorem upsertOnboarding_wp {V : Type} (v : V) (input : OnboardingFields) :
    (upsertOnboarding t input).WP (.watching (fun _ => v) 0 (Upsert t)) (fun _ _ => True) ⟨0, ∅⟩ σ := by
  refine Transaction.Job.WP.query_bind fun id σ₁ _ => ?_
  exact Transaction.Job.WP.act (Nat.zero_le _) (writes_returning fun db _ => .inr ⟨id, input, rfl⟩)

theorem operation_wp (op : Operation) :
    op.job.WP (.watching op.view op.lookedAt op.changes) (fun _ _ => True) ⟨0, ∅⟩ σ := by
  cases op with
  | upsert t input => exact (upsertOnboarding_wp none input).discard fun _ => trivial
  | submit t => exact submitOnboarding_wp.discard fun _ => trivial
  | approve t reviewerId => exact (approveOnboarding_wp reviewerId).discard fun _ => trivial
  | reject t reviewerId reason =>
      exact Transaction.Job.WP.discard (transition_wp nofun fun r => ⟨rfl, rfl, rfl⟩) fun _ => trivial
  | requestInfo t reviewerId notes =>
      exact Transaction.Job.WP.discard (transition_wp nofun fun r => ⟨rfl, rfl, rfl⟩) fun _ => trivial

end Jobs

/-! ## Runs -/

variable {ι : Type} [DecidableEq ι]

/-- A run of the operations that `calls` names. -/
abbrev calling (calls : ι → Operation) (db : Db) (w : World) : Pool Backend ι Unit :=
  Pool.init (fun i => (calls i).job) db w

/-- The application of a tenant. -/
def application (p : Pool Backend ι Unit) (tenantId : String) : Option MerchantOnboarding :=
  p.shared.store.onboarding tenantId

/-- A step in which no upsert writes to an application under review, and no write changes the status or the answers that
another operation has looked at and still means to write over. -/
structure InTurn (calls : ι → Operation) (p : Pool Backend ι Unit) (i : ι) (p' : Pool Backend ι Unit) : Prop where
  edits : ∀ t input, calls i = .upsert t input → p'.shared.store ≠ p.shared.store →
    ∀ r, application p t = some r → ¬ r.status.UnderReview
  undisturbed : p.Undisturbed (fun i => (calls i).view) (fun i => (calls i).lookedAt) i p'

variable {calls : ι → Operation} {db : Db} {w : World} {p p' : Pool Backend ι Unit}

theorem step_of_upsert {t : String} {d d' : Db} (h : Upsert t d d')
    (hfree : ∀ r, d.onboarding t = some r → ¬ r.status.UnderReview) (tenantId : String) :
    Lifecycle.Step (d.onboarding tenantId) (d'.onboarding tenantId) := by
  obtain ⟨id, input, rfl⟩ := h
  rw [onboarding_upsert (f := (·.setFields input)) fun _ => rfl]
  split_ifs with heq
  · obtain rfl : tenantId = t := heq
    cases hrow : d.onboarding tenantId with
    | none => exact .create rfl
    | some r => exact .edit (hfree r hrow) rfl
  · exact .stay _

theorem step_of_transition {t : String} {target : OnboardingStatus} {d d' : Db} (h : Transition t target d d')
    (tenantId : String) : Lifecycle.Step (d.onboarding tenantId) (d'.onboarding tenantId) := by
  by_cases heq : tenantId = t
  · subst heq
    obtain ⟨r, r', hr, hr', rfl, hmove, hanswers, hcomplete⟩ := h.moves
    rw [hr, hr']
    exact .move hmove hanswers hcomplete
  · rw [h.others tenantId heq]
    exact .stay _

/-- Every step of a run takes every application one step through its lifecycle. -/
theorem lifecycle_of_step (hp : ReachableIf (InTurn calls) (calling calls db w) p) {i : ι} (hstep : p.Step i p')
    (hcond : InTurn calls p i p') (t : String) : Lifecycle.Step (application p t) (application p' t) := by
  have hchange := Pool.changes_of_watching (fun i => operation_wp (calls i)) (fun _ _ _ h => h.undisturbed) hp hstep
  by_cases hsame : p'.shared.store = p.shared.store
  · rw [application, application, hsame]
    exact .stay _
  · have hdone := hchange.resolve_left hsame
    cases hcall : calls i with
    | upsert t' input =>
        rw [hcall] at hdone
        exact step_of_upsert hdone (fun r hr => hcond.edits t' input hcall hsame r hr) t
    | submit t' => rw [hcall] at hdone; exact step_of_transition hdone t
    | approve t' reviewerId => rw [hcall] at hdone; exact step_of_transition hdone t
    | reject t' reviewerId reason => rw [hcall] at hdone; exact step_of_transition hdone t
    | requestInfo t' reviewerId notes => rw [hcall] at hdone; exact step_of_transition hdone t

theorem application_sound (hdb : db.merchantOnboardings = []) (hp : ReachableIf (InTurn calls) (calling calls db w) p)
    (t : String) : Lifecycle.Sound (application p t) := by
  induction hp with
  | refl =>
      intro r hr
      simp [application, calling, Pool.init, Db.onboarding, hdb] at hr
  | tail hq hstep ih =>
      obtain ⟨i, hi, hcond⟩ := hstep
      exact (lifecycle_of_step hq hi hcond t).sound ih

/-- The application was submitted with these answers, complete, and has been under review with them ever since. -/
def SubmittedWith (calls : ι → Operation) (p₀ : Pool Backend ι Unit) (t : String) (answers : KycFields × RiskTier)
    (p : Pool Backend ι Unit) : Prop :=
  ∃ q q', ReachableIf (InTurn calls) p₀ q ∧ StepIf (InTurn calls) q q' ∧
    (∃ r, application q t = some r ∧ r.answers = answers ∧ r.toKycFields.Complete ∧
      canTransition r.status .submitted = true) ∧
    (∃ r, application q' t = some r ∧ r.answers = answers ∧ r.status = .submitted) ∧
    ReachableIf (fun p i p' => InTurn calls p i p' ∧
      ∃ r, application p' t = some r ∧ r.answers = answers ∧ r.status.UnderReview) q' p

theorem submittedWith_of_underReview (hdb : db.merchantOnboardings = [])
    (hp : ReachableIf (InTurn calls) (calling calls db w) p) {t : String} {r : MerchantOnboarding}
    (hr : application p t = some r) (hreview : r.status.UnderReview) :
    SubmittedWith calls (calling calls db w) t r.answers p := by
  induction hp generalizing r with
  | refl => simp [application, calling, Pool.init, Db.onboarding, hdb] at hr
  | @tail q q' hq hstep ih =>
      obtain ⟨i, hi, hcond⟩ := hstep
      have hlife := lifecycle_of_step hq hi hcond t
      rw [hr] at hlife
      obtain ⟨r₀, hr₀, hanswers, hbefore | ⟨hmove, hnow, hcomplete⟩⟩ := hlife.underReview hreview
      · obtain ⟨q₀, q₁, hq₀, hq₁, hcomplete, hsubmitted, hsince⟩ := ih hr₀ hbefore
        rw [hanswers] at hcomplete hsubmitted hsince
        exact ⟨q₀, q₁, hq₀, hq₁, hcomplete, hsubmitted, hsince.tail ⟨i, hi, hcond, r, hr, rfl, hreview⟩⟩
      · exact ⟨q, q', hq, ⟨i, hi, hcond⟩, ⟨r₀, hr₀, hanswers, hcomplete, hmove⟩, ⟨r, hr, rfl, hnow⟩, .refl⟩

theorem approved_forever (hp : ReachableIf (InTurn calls) (calling calls db w) p) {t : String} {r : MerchantOnboarding}
    (hr : application p t = some r) (happroved : r.status = .approved) (hp' : ReachableIf (InTurn calls) p p') :
    application p' t = some r := by
  induction hp' with
  | refl => exact hr
  | @tail q q' hq hstep ih =>
      obtain ⟨i, hi, hcond⟩ := hstep
      have hlife := lifecycle_of_step (hp.trans hq) hi hcond t
      rw [ih] at hlife
      exact hlife.approved happroved

/-- In turn, an application under review is complete, an approved one holds the answers that were submitted and reviewed,
and its approval is final. -/
theorem onboarding_integrity (hdb : db.merchantOnboardings = [])
    (hp : ReachableIf (InTurn calls) (calling calls db w) p) {t : String} {r : MerchantOnboarding}
    (hr : application p t = some r) :
    (r.status.UnderReview → r.toKycFields.Complete) ∧
      (r.status = .approved → SubmittedWith calls (calling calls db w) t r.answers p) ∧
      (r.status = .approved → ∀ p', ReachableIf (InTurn calls) p p' → application p' t = some r) :=
  ⟨application_sound hdb hp t r hr, fun h => submittedWith_of_underReview hdb hp hr (.inr h),
    fun h _ hp' => approved_forever hp hr h hp'⟩

/-! ## Runs of one application -/

def complete : OnboardingFields :=
  { legalName := some "Acme SARL", entityType := some "llc", registrationNumber := none, country := some "MA",
    businessAddress := none, website := none, contactEmail := none, industry := some "retail", mcc := some "5999",
    riskTier := none }

def blank : OnboardingFields :=
  { legalName := none, entityType := none, registrationNumber := none, country := none, businessAddress := none,
    website := none, contactEmail := none, industry := none, mcc := none, riskTier := none }

def idle : World := { answered := 0, clock := id, cuid := fun n => "c" ++ toString n }

/-- An application that is drafted, submitted, approved and then edited. -/
def editedCalls : Fin 4 → Operation
  | 0 => .upsert "t" complete
  | 1 => .submit "t"
  | 2 => .approve "t" "reviewer"
  | 3 => .upsert "t" blank

/-- The edit of an approved application goes through. -/
theorem approved_incomplete : ∃ p, Pool.Reachable (calling editedCalls ⟨[]⟩ idle) p ∧
    ((application p "t").any fun r => r.status = .approved ∧ ¬ r.toKycFields.Complete) = true :=
  ReachableIf.exists_of_runSchedule _
    (List.replicate 5 0 ++ List.replicate 8 1 ++ List.replicate 8 2 ++ List.replicate 5 3) _ (fun _ _ _ => trivial)
    (by decide +kernel)

/-- The same application left alone. -/
def approvedCalls : Fin 3 → Operation
  | 0 => .upsert "t" complete
  | 1 => .submit "t"
  | 2 => .approve "t" "reviewer"

/-- The others have not begun or have ended, and the draft is the first write. -/
def oneByOne (p : Pool Backend (Fin 3) Unit) (i : Fin 3) (_ : Pool Backend (Fin 3) Unit) : Bool :=
  (∀ j, j ≠ i → (p.threads j).pc = 0 ∨ (p.threads j).phase.Finished) ∧ (i.val = 0 → application p "t" = none)

theorem eq_of_upsert {t : String} {input : OnboardingFields} :
    ∀ {i : Fin 3}, approvedCalls i = .upsert t input → i = 0 ∧ t = "t"
  | 0, h => ⟨rfl, (Operation.upsert.inj h).1.symm⟩
  | 1, h => nomatch h
  | 2, h => nomatch h

theorem inTurn_of_oneByOne {p p' : Pool Backend (Fin 3) Unit} {i : Fin 3} (h : oneByOne p i p' = true) :
    InTurn approvedCalls p i p' := by
  obtain ⟨hothers, hfirst⟩ := of_decide_eq_true h
  refine ⟨fun t input hcall _ r hr => ?_, fun j hj hpast => ?_⟩
  · obtain ⟨hzero, rfl⟩ := eq_of_upsert hcall
    rw [hfirst (congrArg Fin.val hzero)] at hr
    cases hr
  · rcases hothers j hj with hpc | hfin
    · have hlooked : (approvedCalls j).lookedAt ≤ 0 := hpc ▸ hpast.1
      have hview : ∀ d d', (approvedCalls j).view d = (approvedCalls j).view d' := by
        cases hcall : approvedCalls j with
        | upsert t input => exact fun _ _ => rfl
        | _ => rw [hcall] at hlooked; simp [Operation.lookedAt] at hlooked
      exact hview _ _
    · exact absurd hfin hpast.2

theorem onboarding_integrity_approved : ∃ p r, ReachableIf (InTurn approvedCalls) (calling approvedCalls ⟨[]⟩ idle) p ∧
    application p "t" = some r ∧ r.status = .approved ∧ r.toKycFields.Complete ∧
      SubmittedWith approvedCalls (calling approvedCalls ⟨[]⟩ idle) "t" r.answers p := by
  obtain ⟨p, hp, hdone⟩ : ∃ p, ReachableIf (InTurn approvedCalls) (calling approvedCalls ⟨[]⟩ idle) p ∧
      ((application p "t").any fun r => r.status = .approved) = true :=
    ReachableIf.exists_of_check _ (List.replicate 5 0 ++ List.replicate 8 1 ++ List.replicate 8 2) _ oneByOne
      (fun _ _ _ _ => inTurn_of_oneByOne) (by decide +kernel)
  obtain ⟨r, hr, happroved⟩ := (Option.any_eq_true _ _).mp hdone
  have hstatus : r.status = .approved := of_decide_eq_true happroved
  have hintegrity := onboarding_integrity rfl hp hr
  exact ⟨p, r, hp, hr, hstatus, hintegrity.1 (.inr hstatus), hintegrity.2.1 hstatus⟩

end CorpoPay.Onboarding
