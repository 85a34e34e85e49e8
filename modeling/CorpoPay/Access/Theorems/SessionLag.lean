import CorpoPay.Access.Lemmas.Requests
import CorpoPay.Transaction.Onward

/-!
# How long a session outlives its tenant

The status of a tenant is cached for a minute. A session is let through by what the database says, or by what a request has
read in the minute before.
-/

namespace CorpoPay.Access

open Settlement (TenantStatus)
open Transaction (Course Pool Shared)
open Transaction.Job (knows_bind knows_get knows_orElse knows_query knows_ret knows_throw)

variable {ι α β : Type}

/-! ## Rules for the cache -/

/-- What the run says of the statuses in the database, and what follows for the cached ones. -/
structure StatusRule where
  holds : Db → Prop
  /-- What may be cached for a tenant at a time. -/
  cached : String → CacheEntry → Nat → Prop
  reads : ∀ {db tenantId n time}, holds db → n ≤ time →
    cached tenantId { status := db.tenantStatus tenantId, expiresAt := n + TENANT_CACHE_TTL_MS } time
  later : ∀ {tenantId entry time time'}, cached tenantId entry time → time ≤ time' → cached tenantId entry time'

namespace StatusRule

def course (R : StatusRule) : Course Backend where
  later σ σ' := σ.world.clock ≤ σ'.world.clock
  inv σ := R.holds σ.store ∧
    ∀ tenantId entry, σ.world.tenantStatusCache tenantId = some entry → R.cached tenantId entry σ.world.clock
  later_refl _ := le_refl _
  later_trans := le_trans

def own (R : StatusRule) (_ σ' : Shared Backend) : Prop := R.holds σ'.store

/-- The job keeps the rule, and what it returns is as `P` says. -/
abbrev Knows (R : StatusRule) (P : α → Shared Backend → Prop) (j : Job α) (σ : Shared Backend) : Prop :=
  Transaction.Job.Knows R.course R.own P j σ

/-- Why a session of the tenant may be let through from a time on. -/
def Admits (R : StatusRule) (tenantId : String) (time : Nat) : Prop :=
  (∃ db, R.holds db ∧ db.tenantStatus tenantId = .active) ∨
    ∃ entry n time', R.cached tenantId entry time' ∧ entry.status = .active ∧ time ≤ n ∧ n < entry.expiresAt

variable {R : StatusRule} {σ : Shared Backend} {P : α → Shared Backend → Prop}

theorem cache_reply {w : World} {q : Query} (hq : ∀ tenantId entry, q ≠ .cache tenantId entry) :
    (w.reply q).2.tenantStatusCache = w.tenantStatusCache := by
  cases q with
  | cache tenantId entry => exact absurd rfl (hq tenantId entry)
  | _ => rfl

theorem clock_reply (w : World) (q : Query) : w.clock ≤ (w.reply q).2.clock := by
  cases q <;> exact Nat.le_add_right _ _

theorem reach_asked {q : Query} (hq : ∀ tenantId entry, q ≠ .cache tenantId entry) (hσ : R.course.inv σ) :
    R.course.Reach σ (σ.asked q) := by
  refine ⟨clock_reply _ _, hσ.1, fun tenantId entry hentry => ?_⟩
  have hentry' : (World.reply σ.world q).2.tenantStatusCache tenantId = some entry := hentry
  rw [cache_reply hq] at hentry'
  exact R.later (hσ.2 tenantId entry hentry') (clock_reply _ _)

theorem reach_cache {tenantId : String} {entry : CacheEntry} (hσ : R.course.inv σ)
    (hentry : R.cached tenantId entry σ.world.clock) : R.course.Reach σ (σ.asked (.cache tenantId entry)) := by
  refine ⟨clock_reply _ _, hσ.1, fun t e he => ?_⟩
  have he' : (if t = tenantId then some entry else σ.world.tenantStatusCache t) = some e := he
  refine R.later ?_ (clock_reply _ _)
  split_ifs at he' with ht
  · obtain rfl := Option.some.inj he'
    exact ht ▸ hentry
  · exact hσ.2 t e he'

theorem reach_committed {w : Db → Db} (hσ : R.course.inv σ) (hown : R.own σ (σ.committed w)) :
    R.course.Reach σ (σ.committed w) := ⟨le_refl _, hown, hσ.2⟩

/-- What does not write the cache keeps the rule. -/
theorem knows_of_does {j : Job α}
    (h : j.Does (fun _ => True) fun q : Query => ∀ tenantId entry, q ≠ .cache tenantId entry)
    (hP : ∀ a σ', P a σ') : R.Knows P j σ :=
  h.knows (K := fun _ => True) (fun _ _ _ _ => trivial) trivial (fun _ _ _ _ hσ hown => reach_committed hσ hown)
    (fun _ _ hq _ hσ _ => reach_asked hq hσ) fun _ _ _ _ => hP _ _

theorem knows_ask {q : Query} {P : Answer q → Shared Backend → Prop} (hq : ∀ tenantId entry, q ≠ .cache tenantId entry)
    (h : ∀ σ', R.course.Reach σ σ' → ∀ σ'', R.course.Reach (σ'.asked q) σ'' → P (World.answer σ'.world q) σ'') :
    R.Knows P (Backend.ask q) σ :=
  knows_query (fun _ hσ' _ => reach_asked hq hσ'.2) h

/-! ## Sessions -/

theorem knows_readTenantActive (hσ : R.course.inv σ) (tenantId : String) :
    R.Knows (fun active _ => active = true → ∃ db, R.holds db ∧ db.tenantStatus tenantId = .active)
      (readTenantActive tenantId) σ := by
  refine knows_bind hσ (P := fun status _ => ∃ db, R.holds db ∧ db.tenantStatus tenantId = status)
    (knows_get (fun _ _ _ _ h => h) fun σ' hσ' => ⟨σ'.store, hσ'.2.1, rfl⟩) ?_
  rintro status σ₁ hσ₁ ⟨db, hdb, rfl⟩
  refine knows_bind hσ₁.2 (P := fun now (σ' : Shared Backend) => now ≤ σ'.world.clock)
    (knows_ask (fun _ _ => Query.noConfusion) fun σ' _ σ'' hσ'' => (clock_reply σ'.world .now).trans hσ''.1) ?_
  intro now σ₂ hσ₂ hnow
  refine knows_bind hσ₂.2 (P := fun _ _ => True) (knows_query (fun σ' hσ' _ => ?_) fun _ _ _ _ => trivial) fun _ σ₃ _ _ => ?_
  · exact reach_cache hσ'.2 (R.reads hdb (hnow.trans hσ'.1))
  · exact knows_ret fun _ _ hactive => ⟨db, hdb, of_decide_eq_true hactive⟩

theorem knows_checkTenantActive (hσ : R.course.inv σ) (tenantId : String) {time : Nat} (htime : time ≤ σ.world.clock) :
    R.Knows (fun active _ => active = true → R.Admits tenantId time) (checkTenantActive tenantId) σ := by
  have hread : ∀ σ', R.course.inv σ' →
      R.Knows (fun active _ => active = true → R.Admits tenantId time) (readTenantActive tenantId) σ' := fun σ' hσ' =>
    (knows_readTenantActive hσ' tenantId).mono fun _ _ _ h hactive => .inl (h hactive)
  refine knows_bind hσ (P := fun cached _ => ∀ entry, cached = some entry → ∃ time', R.cached tenantId entry time')
    (knows_ask (fun _ _ => Query.noConfusion) fun σ' hσ' _ _ entry hentry => ⟨_, hσ'.2.2 tenantId entry hentry⟩) ?_
  intro cached σ₁ hσ₁ hcached
  cases cached with
  | none => exact hread σ₁ hσ₁.2
  | some entry =>
      obtain ⟨time', hentry⟩ := hcached entry rfl
      refine knows_bind hσ₁.2 (P := fun now _ => time ≤ now)
        (knows_ask (fun _ _ => Query.noConfusion) fun σ' hσ' _ _ => (htime.trans hσ₁.1).trans hσ'.1) ?_
      intro now σ₂ hσ₂ hnow
      split_ifs with hfresh
      · refine knows_ret fun _ _ hactive => ?_
        exact .inr ⟨entry, now, time', hentry, of_decide_eq_true hactive, hnow, hfresh⟩
      · exact hread σ₂ hσ₂.2

/-- A session that is let through is one of a tenant that the rule admits. -/
theorem knows_authenticateSession (hσ : R.course.inv σ) (rt : Runtime) (token : String) {time : Nat}
    (htime : time ≤ σ.world.clock) :
    R.Knows (fun user _ => ∃ now payload, rt.jwtVerify now token = some payload ∧ user = payload.user ∧
      R.Admits payload.tenantId time) (authenticateSession rt token) σ := by
  let Verified (checked : JwtPayload × Bool) : Prop :=
    checked.2 = true → (∃ now, rt.jwtVerify now token = some checked.1) ∧ R.Admits checked.1.tenantId time
  refine knows_bind hσ (P := fun checked _ => Verified checked) ?_ ?_
  · refine knows_orElse hσ ?_ fun e σ' _ => knows_throw _
    refine knows_bind hσ (P := fun now (σ' : Shared Backend) => time ≤ σ'.world.clock)
      (knows_ask (fun _ _ => Query.noConfusion) fun σ' hσ' σ'' hσ'' => ?_) ?_
    · exact (htime.trans hσ'.1).trans ((clock_reply σ'.world .now).trans hσ''.1)
    intro now σ₁ hσ₁ htime₁
    cases hpayload : rt.jwtVerify now token with
    | none => exact knows_throw _
    | some payload =>
        refine knows_bind hσ₁.2 (knows_checkTenantActive hσ₁.2 payload.tenantId htime₁) ?_
        exact fun active σ₂ _ hactive => knows_ret fun _ _ htrue => ⟨⟨now, hpayload⟩, hactive htrue⟩
  · rintro ⟨payload, active⟩ σ₁ hσ₁ hverified
    cases active with
    | false => exact knows_throw _
    | true =>
        obtain ⟨⟨now, hpayload⟩, hadmits⟩ := hverified rfl
        exact knows_ret fun _ _ => ⟨now, payload, hpayload, rfl, hadmits⟩

/-! ## Requests -/

/-- What the routes ask besides the middleware. -/
abbrev Uncached (q : Query) : Prop := ∀ tenantId entry, q ≠ .cache tenantId entry

theorem uncached_of_plain {q : Query} (h : q.Plain) : Uncached q := by
  rintro tenantId entry rfl
  exact h

theorem knows_requireAuth (hσ : R.course.inv σ) (rt : Runtime) (header : Option String) {time : Nat}
    (htime : time ≤ σ.world.clock) :
    R.Knows (fun _ _ => ∀ token, bearerToken header = some token → isApiKey token = false →
      ∃ now payload, rt.jwtVerify now token = some payload ∧ R.Admits payload.tenantId time) (requireAuth rt header) σ := by
  unfold requireAuth
  cases hheader : bearerToken header with
  | none => exact knows_throw _
  | some token =>
      dsimp only
      split_ifs with hkey
      · refine knows_of_does (does_authenticateApiKey trivial (fun _ => uncached_of_plain) rt fun _ _ _ => Query.noConfusion) ?_
        intro user _ token' htoken hsession
        rw [← Option.some.inj htoken, hkey] at hsession
        cases hsession
      · refine (knows_authenticateSession hσ rt token htime).mono ?_
        rintro user σ' - ⟨now, payload, hpayload, -, hadmits⟩ token' htoken -
        exact ⟨now, payload, Option.some.inj htoken ▸ hpayload, hadmits⟩

theorem does_handle (rt : Runtime) (user : AuthUser) (route : Route) :
    (route.handle rt user).Does (fun _ => True) Uncached := by
  have hplain : ∀ q : Query, q.Plain → Uncached q := fun _ => uncached_of_plain
  cases route with
  | elsewhere => trivial
  | createApiKey name =>
      exact (does_requireRole _ user).bind fun _ => does_createApiKey hplain rt user name fun _ => trivial
  | revokeApiKey keyId =>
      exact (does_requireRole _ user).bind fun _ => does_revokeApiKey trivial hplain user keyId fun _ _ => trivial
  | invite email role password =>
      exact (does_requireRole _ user).bind fun _ => does_invite trivial hplain user email role password fun _ _ _ => trivial
  | changeRole userId role =>
      exact (does_requireRole _ user).bind fun _ => does_changeRole trivial user userId role fun _ _ => trivial
  | removeUser userId => exact (does_requireRole _ user).bind fun _ => does_removeUser hplain user userId trivial
  | setTenantStatus tenantId status => exact (does_requireRole _ user).bind fun _ => does_setTenantStatus trivial

theorem knows_request (hσ : R.course.inv σ) (rt : Runtime) (request : AccessRequest) :
    R.Knows (fun _ _ => True) (request.job rt) σ := by
  have hplain : ∀ q : Query, q.Plain → Uncached q := fun _ => uncached_of_plain
  cases request with
  | routed header route =>
      exact knows_bind hσ (knows_requireAuth hσ rt header (le_refl _))
        fun user _ _ _ => knows_of_does (does_handle rt user route) fun _ _ => trivial
  | register email password =>
      exact knows_of_does (does_register trivial hplain rt email password fun _ _ => trivial) fun _ _ => trivial
  | login email password => exact knows_of_does (does_login trivial hplain rt email password) fun _ _ => trivial
  | detached n =>
      refine knows_of_does (Transaction.Job.Does.bind ?_ fun update => ?_) fun _ _ => trivial
      · exact Transaction.Job.does_query fun _ _ => Query.noConfusion
      · cases update with
        | none => trivial
        | some update => exact (does_detached (fun _ _ _ => trivial) fun _ _ _ => trivial).bind fun _ => trivial

/-- A session is refused while the rule does not admit its tenant. -/
theorem refuses_session (hσ : R.course.inv σ) (rt : Runtime) {header : Option String} {token : String} (route : Route)
    (htoken : bearerToken header = some token) (hsession : isApiKey token = false)
    (hadmits : ∀ now payload, rt.jwtVerify now token = some payload → ¬ R.Admits payload.tenantId σ.world.clock) :
    R.Knows (fun _ _ => False) ((AccessRequest.routed header route).job rt) σ := by
  refine knows_bind hσ (knows_requireAuth hσ rt header (le_refl _)) fun user σ' _ hadmitted => ?_
  obtain ⟨now, payload, hpayload, hyes⟩ := hadmitted token htoken hsession
  exact absurd hyes (hadmits now payload hpayload)

end StatusRule

/-! ## Runs -/

/-- Any statuses: what is cached ends within a minute. -/
def anyStatus : StatusRule where
  holds _ := True
  cached _ entry time := entry.expiresAt ≤ time + TENANT_CACHE_TTL_MS
  reads _ hn := Nat.add_le_add_right hn _
  later h htime := h.trans (Nat.add_le_add_right htime _)

/-- The tenant is not active: what is cached as active ends a minute after the time. -/
def disabledSince (tenantId : String) (time : Nat) : StatusRule where
  holds db := db.tenantStatus tenantId ≠ .active
  cached t entry _ := t = tenantId → entry.status = .active → entry.expiresAt ≤ time + TENANT_CACHE_TTL_MS
  reads h _ := fun ht hactive => absurd (ht ▸ hactive) h
  later h _ := h

theorem not_admits_disabled {tenantId : String} {time time' : Nat} (h : time + TENANT_CACHE_TTL_MS ≤ time') :
    ¬ (disabledSince tenantId time).Admits tenantId time' := by
  rintro (⟨db, hdb, hactive⟩ | ⟨entry, n, _, hcached, hactive, hn, hfresh⟩)
  · exact hdb hactive
  · exact absurd (hcached rfl hactive) (by omega)

/-- Nobody enables the tenant. -/
def StaysDisabled (tenantId : String) (_ : Pool Backend ι Response) (_ : ι) (p' : Pool Backend ι Response) : Prop :=
  p'.shared.store.tenantStatus tenantId ≠ .active

/-- A minute after a tenant was disabled and the requests of before have ended, no session of it is let through any more,
whatever the requests beside it do, as long as nobody enables the tenant again. -/
theorem session_ends [DecidableEq ι] (rt : Runtime) (requests : ι → AccessRequest) (db : Db) (w : World)
    (hcache : ∀ t entry, w.tenantStatusCache t = some entry → entry.expiresAt ≤ w.clock + TENANT_CACHE_TTL_MS)
    (p : Pool Backend ι Response) (hp : Pool.Reachable (Pool.init (fun i => (requests i).job rt) db w) p)
    (tenantId : String) (hdisabled : p.shared.store.tenantStatus tenantId ≠ .active) (hquiet : p.Quiescent)
    (p' : Pool Backend ι Response)
    (hp' : Pool.ReachableIf (StaysDisabled tenantId) p p')
    (hclock : p.shared.world.clock + TENANT_CACHE_TTL_MS ≤ p'.shared.world.clock)
    (i : ι) (hi : (p'.threads i).pc = 0) (header : Option String) (route : Route) (hroute : requests i = .routed header route)
    (token : String) (htoken : bearerToken header = some token) (hsession : isApiKey token = false)
    (hpayload : ∀ now payload, rt.jwtVerify now token = some payload → payload.tenantId = tenantId)
    (p'' : Pool Backend ι Response)
    (hp'' : Pool.ReachableIf (StaysDisabled tenantId) p' p'') (response : Response) :
    (p''.threads i).phase ≠ .between (.ret response) := by
  let R := disabledSince tenantId p.shared.world.clock
  have hfirst : p.AtFirst fun i => (requests i).job rt := Pool.atFirst_of_reachable hp
  have hcached : anyStatus.course.inv ⟨db, w⟩ := ⟨trivial, hcache⟩
  have hstart : p.Knows anyStatus.course (fun _ => anyStatus.own) fun _ _ _ => True :=
    (Pool.knows_init hcached fun i => StatusRule.knows_request hcached rt (requests i)).run (fun _ _ _ _ _ => trivial) hp
  have hinv : R.course.inv p.shared := ⟨hdisabled, fun t entry hentry _ _ => hstart.inv.2 t entry hentry⟩
  -- The requests of before know nothing any more.
  have hcourse : p.Knows R.course (fun _ => R.own) fun _ _ _ => True :=
    Pool.knows_of_quiescent hfirst hquiet hinv (fun i => StatusRule.knows_request hinv rt (requests i)) fun _ _ _ _ => trivial
  have hmiddle := hcourse.run (fun _ _ _ _ h => h) hp'
  have hrefuses : p'.Knows R.course (fun _ => R.own) fun k _ _ => k ≠ i := by
    refine hmiddle.strengthen (Pool.atFirst_run hfirst hp' i hi) ?_ fun k hk => ?_
    · dsimp only
      rw [hroute]
      refine (StatusRule.refuses_session hmiddle.inv rt route htoken hsession fun now payload hverified => ?_).mono
        fun _ _ _ h => h.elim
      exact hpayload now payload hverified ▸ not_admits_disabled hclock
    · exact funext fun _ => funext fun _ => eq_true hk
  exact fun hret => (hrefuses.run (fun _ _ _ _ h => h) hp'').returned hret rfl

/-! ## A tenant that is disabled -/

def lagRuntime : Runtime where
  sha256 := id
  bcryptCompare text hash := text = hash
  jwtVerify
    | _, "s" => some { sub := "u", tenantId := "t", role := .staff, email := "u" }
    | _, "r" => some { sub := "v", tenantId := "r", role := .superAdmin, email := "v" }
    | _, _ => none
  jwtSign _ payload := payload.sub

def lagDb : Db where
  tenants := [⟨"t", .active⟩, ⟨"r", .active⟩]
  users := []
  apiKeys := []

/-- Half a minute passes with every answer. -/
def lagWorld : World where
  clock := 0
  answered := 0
  oracle :=
    { tick := fun _ => 30000, cuid := fun _ => "c", randomHex := fun _ => "x", bcryptHash := fun _ text => text
      refunds := fun _ _ => false }
  tenantStatusCache _ := none
  detached := []

/-- A session of the tenant, the request that disables it, another tenant, and the session again. -/
def lagRequests : Fin 4 → AccessRequest
  | 0 => .routed (some "Bearer s") .elsewhere
  | 1 => .routed (some "Bearer r") (.setTenantStatus "t" .disabled)
  | 2 => .routed (some "Bearer r") .elsewhere
  | 3 => .routed (some "Bearer s") .elsewhere

theorem session_ends_minute : ∃ p p' p'',
    Pool.Reachable (Pool.init (fun i => (lagRequests i).job lagRuntime) lagDb lagWorld) p ∧
      Pool.ReachableIf (StaysDisabled "t") p p' ∧ Pool.ReachableIf (StaysDisabled "t") p' p'' ∧
      (p''.threads 3).phase.Finished ∧ ∀ response, (p''.threads 3).phase ≠ .between (.ret response) := by
  let check (_ : Pool Backend (Fin 4) Response) (_ : Fin 4) (p' : Pool Backend (Fin 4) Response) : Bool :=
    decide (p'.shared.store.tenantStatus "t" ≠ .active)
  have hcheck : ∀ p i p', p.step i = some p' → check p i p' = true → StaysDisabled "t" p i p' :=
    fun _ _ _ _ => of_decide_eq_true
  let Last (p : Pool Backend (Fin 4) Response) : Bool := decide (p.threads 3).phase.Finished
  let Middle (p p' : Pool Backend (Fin 4) Response) : Bool :=
    decide (p.shared.world.clock + TENANT_CACHE_TTL_MS ≤ p'.shared.world.clock ∧ (p'.threads 3).pc = 0) &&
      (p'.runSchedule check (List.replicate 8 3)).any Last
  let First (p : Pool Backend (Fin 4) Response) : Bool :=
    decide (p.shared.store.tenantStatus "t" ≠ .active ∧ ∀ i, (p.threads i).pc = 0 ∨ (p.threads i).phase.Finished) &&
      (p.runSchedule check (List.replicate 8 2)).any (Middle p)
  obtain ⟨p, hp, hfirst⟩ := Pool.ReachableIf.exists_of_runSchedule
    (Pool.init (fun i => (lagRequests i).job lagRuntime) lagDb lagWorld) (List.replicate 7 0 ++ List.replicate 12 1) First
    (fun _ _ _ => trivial) (by decide +kernel)
  obtain ⟨hstart, hmiddle⟩ := Bool.and_eq_true_iff.mp hfirst
  obtain ⟨hdisabled, hquiet⟩ := of_decide_eq_true hstart
  obtain ⟨p', hp', hmiddle'⟩ := Pool.ReachableIf.exists_of_check p _ _ check hcheck hmiddle
  obtain ⟨hlate, hlast⟩ := Bool.and_eq_true_iff.mp hmiddle'
  obtain ⟨hclock, hbegin⟩ := of_decide_eq_true hlate
  obtain ⟨p'', hp'', hend⟩ := Pool.ReachableIf.exists_of_check p' _ _ check hcheck hlast
  refine ⟨p, p', p'', hp, hp', hp'', of_decide_eq_true hend, fun response => ?_⟩
  refine session_ends lagRuntime lagRequests lagDb lagWorld (fun _ _ h => by cases h) p hp "t" hdisabled hquiet p' hp' hclock 3
    hbegin (some "Bearer s") .elsewhere rfl "s" (by decide +kernel) (by decide +kernel) (fun _ payload hpayload => ?_) p'' hp'' response
  obtain rfl := Option.some.inj hpayload
  rfl

end CorpoPay.Access
