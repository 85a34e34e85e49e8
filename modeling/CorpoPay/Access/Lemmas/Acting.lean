import CorpoPay.Access.Lemmas.Keys

/-!
# Who a request acts for

A request acts for the tenant of its session or of its key, and a rule for the rows holds on as long as these tenants are free.
-/

namespace CorpoPay.Access

open Transaction (Pool Shared)
open Transaction.Job (knows_bind knows_get knows_orElse knows_query knows_ret knows_throw)

variable {ι α : Type} {rt : Runtime}

theorem noBackfill_of_plain {q : Query} (h : q.Plain) : NoBackfill q := by
  rintro sid sha256 rfl
  exact h

/-! ## Authentication -/

/-- The row of a key that a request has read and that was not revoked in `σ₀`. -/
def ReadLive (σ₀ : Shared Backend) (key : ApiKey) (σ : Shared Backend) : Prop :=
  ∃ r ∈ σ.store.apiKeys, r.id = key.id ∧ r.tenantId = key.tenantId ∧ r.keyHash = key.keyHash ∧
    ∀ r₀ ∈ σ₀.store.apiKeys, r₀.id = r.id → r₀.revokedAt = none

/-- A key of the tenant that was not revoked in `σ₀`. Bcrypt accepts the token for it, or a text with the same SHA-256. -/
def Live (rt : Runtime) (σ₀ : Shared Backend) (token tenantId : String) (σ : Shared Backend) : Prop :=
  ∃ r ∈ σ.store.apiKeys, r.tenantId = tenantId ∧ Backed rt (rt.sha256 token) r.keyHash ∧
    ∀ r₀ ∈ σ₀.store.apiKeys, r₀.id = r.id → r₀.revokedAt = none

variable {R : RowRule} {σ σ₀ : Shared Backend} {key : ApiKey} {token : String}

theorem ReadLive.later {σ' : Shared Backend} (h : ReadLive σ₀ key σ) (hlater : (keyCourse rt R).Reach σ σ') : ReadLive σ₀ key σ' := by
  obtain ⟨r, hr, hid, htenant, hhash, hlive⟩ := h
  obtain ⟨r', hr', hremains⟩ := hlater.1 r hr
  refine ⟨r', hr', hremains.id.trans hid, hremains.tenantId.trans htenant, hremains.keyHash.trans hhash, fun r₀ hr₀ hid' => ?_⟩
  exact hlive r₀ hr₀ (hid'.trans hremains.id)

theorem Live.later {σ' : Shared Backend} {tenantId : String} (h : Live rt σ₀ token tenantId σ)
    (hlater : (keyCourse rt R).Reach σ σ') : Live rt σ₀ token tenantId σ' := by
  obtain ⟨r, hr, htenant, hbacked, hlive⟩ := h
  obtain ⟨r', hr', hremains⟩ := hlater.1 r hr
  refine ⟨r', hr', hremains.tenantId.trans htenant, hremains.keyHash.symm ▸ hbacked, fun r₀ hr₀ hid => ?_⟩
  exact hlive r₀ hr₀ (hid.trans hremains.id)

theorem ReadLive.live (h : ReadLive σ₀ key σ) (hbacked : Backed rt (rt.sha256 token) key.keyHash) :
    Live rt σ₀ token key.tenantId σ := by
  obtain ⟨r, hr, -, htenant, hhash, hlive⟩ := h
  exact ⟨r, hr, htenant, hhash.symm ▸ hbacked, hlive⟩

/-- A key that is not revoked now was not revoked before. -/
theorem readLive_of_mem (hlater : (keyCourse rt R).Reach σ₀ σ) (hkey : key ∈ σ.store.apiKeys) (hlive : key.revokedAt = none) :
    ReadLive σ₀ key σ := by
  refine ⟨key, hkey, rfl, rfl, rfl, fun r₀ hr₀ hid => ?_⟩
  obtain ⟨r, hr, hremains⟩ := hlater.1 r₀ hr₀
  obtain rfl := eq_of_id hlater.2.unique hr hkey (hremains.id.trans hid)
  by_contra hrevoked
  exact hremains.revoked hrevoked hlive

theorem keeps_loadOwner {K : Shared Backend → Prop} (hK : ∀ σ₁ σ₂, (keyCourse rt R).Reach σ₁ σ₂ → K σ₁ → K σ₂)
    (hinv : KeyInv rt R σ) (hσ : K σ) (apiKey : ApiKey) :
    Keeps rt R (fun user σ' => user.tenantId = apiKey.tenantId ∧ user.role = .owner ∧ K σ') (loadOwner apiKey) σ := by
  refine knows_bind hinv (P := fun _ => K) (knows_get (fun _ _ _ hr h => hK _ _ hr h) fun σ' hσ' => hK _ _ hσ' hσ) ?_
  intro tenant σ₁ hσ₁ hk₁
  cases tenant with
  | none => exact knows_throw _
  | some tenant =>
      dsimp only
      split_ifs
      · exact knows_throw _
      · refine knows_bind hσ₁.2 (P := fun _ => K) (knows_get (fun _ _ _ hr h => hK _ _ hr h) fun σ' hσ' => hK _ _ hσ' hk₁) ?_
        intro owner σ₂ hσ₂ hk₂
        cases owner with
        | none => exact knows_throw _
        | some owner =>
            have hask : ∀ q, NoBackfill q → ∀ {σ}, K σ → Keeps rt R (fun _ => K) (Backend.ask q) σ := fun q hq σ hk =>
              keeps_ask hq fun σ' hσ' σ'' hσ'' => hK _ _ hσ'' (hK _ _ (reach_asked hq hσ'.2) (hK _ _ hσ' hk))
            refine knows_bind hσ₂.2 (hask .now (fun _ _ => Query.noConfusion) hk₂) fun time σ₃ hσ₃ hk₃ => ?_
            refine knows_bind hσ₃.2 (hask _ (fun _ _ h => by cases h) hk₃) fun _ σ₄ hσ₄ hk₄ => ?_
            exact knows_ret fun σ' hσ' => ⟨rfl, rfl, hK _ _ hσ' hk₄⟩

/-- Whoever is let through by a key has a live one. -/
theorem keeps_authenticateApiKey (hσ : (keyCourse rt R).Reach σ₀ σ) (token : String) :
    Keeps rt R (fun user σ' => user.role = .owner ∧ Live rt σ₀ token user.tenantId σ') (authenticateApiKey rt token) σ := by
  have hload : ∀ {σ'} (key : ApiKey), KeyInv rt R σ' → ReadLive σ₀ key σ' → Backed rt (rt.sha256 token) key.keyHash →
      Keeps rt R (fun user σ'' => user.role = .owner ∧ Live rt σ₀ token user.tenantId σ'') (loadOwner key) σ' := by
    intro σ' key hinv hlive hbacked
    refine (keeps_loadOwner (fun _ _ hr h => h.later hr) hinv hlive key).mono ?_
    rintro user σ'' - ⟨htenant, howner, hlive'⟩
    exact ⟨howner, htenant.symm ▸ hlive'.live hbacked⟩
  refine knows_bind hσ.2
    (P := fun found σ' => ∀ key, found = some key → ReadLive σ₀ key σ' ∧ Backed rt (rt.sha256 token) key.keyHash) ?_ ?_
  · refine knows_get (fun _ σ₁ σ₂ hr h key hkey => ⟨(h key hkey).1.later hr, (h key hkey).2⟩) fun σ₁ hσ₁ key hfound => ?_
    obtain ⟨hindexed, hlive⟩ : key.keySha256 = some (rt.sha256 token) ∧ key.revokedAt = none := by
      simpa using List.find?_some hfound
    have hkey := List.mem_of_find?_eq_some hfound
    exact ⟨readLive_of_mem (hσ.trans hσ₁) hkey hlive, hσ₁.2.rows key hkey _ hindexed⟩
  intro found σ₁ hσ₁ hfound
  cases found with
  | some key => exact hload key hσ₁.2 (hfound key rfl).1 (hfound key rfl).2
  | none =>
      refine knows_bind hσ₁.2 (P := fun candidates σ' => ∀ key ∈ candidates, ReadLive σ₀ key σ') ?_ ?_
      · refine knows_get (fun _ σ₂ σ₃ hr h key hkey => (h key hkey).later hr) fun σ₂ hσ₂ key hmem => ?_
        obtain ⟨hkey, hcandidate⟩ := List.mem_filter.mp hmem
        obtain ⟨-, -, hlive⟩ := of_decide_eq_true hcandidate
        exact readLive_of_mem ((hσ.trans hσ₁).trans hσ₂) hkey hlive
      intro candidates σ₂ hσ₂ hcandidates
      cases hmatch : candidates.find? fun candidate => rt.bcryptCompare token candidate.keyHash with
      | none => exact knows_throw _
      | some key =>
          have hbacked : Backed rt (rt.sha256 token) key.keyHash := ⟨token, rfl, by simpa using List.find?_some hmatch⟩
          have hlive := hcandidates key (List.mem_of_find?_eq_some hmatch)
          have hdetach : ∀ {σ'}, (keyCourse rt R).Reach σ₂ σ' →
              (keyCourse rt R).Reach σ' (σ'.asked (.detach (.keySha256 key.id (rt.sha256 token)))) := by
            intro σ' hσ'
            obtain ⟨r, hr, hid, -, hhash, -⟩ := hlive.later hσ'
            exact reach_backfill hσ'.2 ⟨r, hr, hid, hhash.symm ▸ hbacked⟩
          refine knows_bind hσ₂.2 (P := fun _ => ReadLive σ₀ key) (knows_query (fun σ' hσ' _ => hdetach hσ') ?_) ?_
          · exact fun σ' hσ' σ'' hσ'' => ((hlive.later hσ').later (hdetach hσ')).later hσ''
          · exact fun _ σ₃ hσ₃ hlive₃ => hload key hσ₃.2 hlive₃ hbacked

/-- Whoever is let through by a session is the user of its payload. -/
theorem keeps_authenticateSession (hinv : KeyInv rt R σ) (token : String) :
    Keeps rt R (fun user _ => ∃ now payload, rt.jwtVerify now token = some payload ∧ user = payload.user)
      (authenticateSession rt token) σ := by
  refine knows_bind hinv (P := fun checked _ => ∃ now, rt.jwtVerify now token = some checked.1) ?_ ?_
  · refine knows_orElse hinv ?_ fun e σ' _ => knows_throw _
    refine knows_bind hinv (P := fun _ _ => True)
      (keeps_ask (fun _ _ => Query.noConfusion) fun _ _ _ _ => trivial) fun now σ₁ hσ₁ _ => ?_
    cases hpayload : rt.jwtVerify now token with
    | none => exact knows_throw _
    | some payload =>
        refine knows_bind hσ₁.2 (P := fun _ _ => True) ?_ fun _ _ _ _ => knows_ret fun _ _ => ⟨now, hpayload⟩
        refine keeps_of_does (K := fun _ => True) ?_ (fun _ _ _ _ => trivial) trivial fun _ _ _ => trivial
        exact does_checkTenantActive ⟨spares_of_eq fun _ => rfl, fun _ h => h⟩ (fun _ => noBackfill_of_plain)
          fun _ _ _ => Query.noConfusion
  · rintro ⟨payload, active⟩ σ₁ hσ₁ ⟨now, hpayload⟩
    cases active with
    | false => exact knows_throw _
    | true => exact knows_ret fun _ _ => ⟨now, payload, hpayload, rfl⟩

/-- The user that a header stands for, since `σ₀`. -/
def ActsFor (rt : Runtime) (σ₀ : Shared Backend) (header : Option String) (user : AuthUser) (σ : Shared Backend) : Prop :=
  ∃ token, bearerToken header = some token ∧
    (isApiKey token = true → user.role = .owner ∧ Live rt σ₀ token user.tenantId σ) ∧
    (isApiKey token = false → ∃ now payload, rt.jwtVerify now token = some payload ∧ user = payload.user)

theorem ActsFor.later {header : Option String} {user : AuthUser} {σ' : Shared Backend} (h : ActsFor rt σ₀ header user σ)
    (hlater : (keyCourse rt R).Reach σ σ') : ActsFor rt σ₀ header user σ' := by
  obtain ⟨token, htoken, hkey, hsession⟩ := h
  exact ⟨token, htoken, fun h => ⟨(hkey h).1, (hkey h).2.later hlater⟩, hsession⟩

theorem keeps_requireAuth (hinv : KeyInv rt R σ) (header : Option String) :
    Keeps rt R (ActsFor rt σ header) (requireAuth rt header) σ := by
  unfold requireAuth
  cases hheader : bearerToken header with
  | none => exact knows_throw _
  | some token =>
      dsimp only
      split_ifs with hkey
      · refine (keeps_authenticateApiKey ⟨continues_of_eq rfl, hinv⟩ token).mono fun user σ' _ h => ?_
        exact ⟨token, hheader, fun _ => h, fun hsession => absurd hkey (Bool.eq_false_iff.mp hsession)⟩
      · refine (keeps_authenticateSession hinv token).mono fun user σ' _ h => ?_
        exact ⟨token, hheader, fun hkey' => absurd hkey' hkey, fun _ => h⟩

/-! ## Routes -/

section Routes

variable {K : Shared Backend → Prop} (hK : ∀ σ₁ σ₂, (keyCourse rt R).Reach σ₁ σ₂ → K σ₁ → K σ₂) {user : AuthUser}
  (hfree : R.free user.tenantId)
include hK hfree

/-- The hash of a new key is one of its own text. -/
theorem keeps_createApiKey (hinv : KeyInv rt R σ) (hσ : K σ) (name : String) :
    Keeps rt R (fun _ => K) (createApiKey rt user name) σ := by
  have hask : ∀ q : Query, q.Plain → ∀ {σ}, K σ → Keeps rt R (fun _ => K) (Backend.ask q) σ := fun q hq σ hk =>
    keeps_ask (noBackfill_of_plain hq) fun σ' hσ' σ'' hσ'' =>
      hK _ _ hσ'' (hK _ _ (reach_asked (noBackfill_of_plain hq) hσ'.2) (hK _ _ hσ' hk))
  refine knows_bind hinv (hask .randomHex trivial hσ) fun random σ₁ hσ₁ hk₁ => ?_
  refine knows_bind hσ₁.2
    (P := fun keyHash σ' => rt.bcryptCompare ("cp_live_" ++ random) keyHash = true ∧ K σ') (keeps_ask ?_ ?_) ?_
  · exact fun _ _ => Query.noConfusion
  · refine fun σ' hσ' σ'' hσ'' => ⟨hσ'.2.bcrypt _ _, ?_⟩
    exact hK _ _ hσ'' (hK _ _ (reach_asked (fun _ _ => Query.noConfusion) hσ'.2) (hK _ _ hσ' hk₁))
  rintro keyHash σ₂ hσ₂ ⟨hbcrypt, hk₂⟩
  refine knows_bind hσ₂.2 (hask .cuid trivial hk₂) fun keyId σ₃ hσ₃ hk₃ => ?_
  refine knows_bind hσ₃.2 (P := fun _ => K) ?_ fun _ _ _ hk₄ => knows_ret fun σ' hσ' => hK _ _ hσ' hk₄
  refine (does_createApiKeyRow (W := (· = _)) rfl).knows (A := fun _ => False) hK hk₃ ?_ (fun _ _ hq => hq.elim) fun _ _ _ hk => hk
  rintro w σ' rfl - hinv' hown
  exact reach_insertApiKey hinv' ⟨_, rfl, hbcrypt⟩ hfree hown

/-- The key that is revoked is one of the tenant. -/
theorem keeps_revokeApiKey (hinv : KeyInv rt R σ) (hσ : K σ) (keyId : String) :
    Keeps rt R (fun _ => K) (revokeApiKey user keyId) σ := by
  let Own (key : ApiKey) (σ' : Shared Backend) : Prop :=
    K σ' ∧ ∃ r ∈ σ'.store.apiKeys, r.id = key.id ∧ r.tenantId = user.tenantId
  have hown : ∀ {key σ₁ σ₂}, (keyCourse rt R).Reach σ₁ σ₂ → Own key σ₁ → Own key σ₂ := by
    rintro key σ₁ σ₂ hr ⟨hk, r, hmem, hid, htenant⟩
    obtain ⟨r', hr', hremains⟩ := hr.1 r hmem
    exact ⟨hK _ _ hr hk, r', hr', hremains.id.trans hid, hremains.tenantId.trans htenant⟩
  refine knows_bind hinv (P := fun found σ' => ∀ key, found = some key → Own key σ') (knows_get ?_ ?_) fun found σ₁ hσ₁ hfound => ?_
  · exact fun _ _ _ hr h key hkey => hown hr (h key hkey)
  · intro σ' hσ' key hfound
    obtain ⟨-, -, htenant⟩ : key.id = keyId ∧ key.revokedAt = none ∧ key.tenantId = user.tenantId := by
      simpa using List.find?_some hfound
    exact ⟨hK _ _ hσ' hσ, key, List.mem_of_find?_eq_some hfound, rfl, htenant⟩
  cases found with
  | none => exact knows_throw _
  | some key =>
      have hkey := hfound key rfl
      refine knows_bind hσ₁.2 (P := fun _ => Own key) (keeps_ask (fun _ _ => Query.noConfusion) ?_) fun time σ₂ hσ₂ hkey₂ => ?_
      · exact fun σ' hσ' σ'' hσ'' => hown hσ'' (hown (reach_asked (fun _ _ => Query.noConfusion) hσ'.2) (hown hσ' hkey))
      refine knows_bind hσ₂.2 (P := fun _ => K) ?_ fun _ _ _ hk => knows_ret fun σ' hσ' => hK _ _ hσ' hk
      refine (does_updateApiKey (W := (· = (·.setApiKey key.id fun r => { r with revokedAt := some time }))) rfl).knows
        (A := fun _ => False) (fun _ _ => hown) hkey₂ ?_ (fun _ _ hq => hq.elim) fun _ _ _ hk => hk.1
      rintro w σ' rfl ⟨-, r, hr, hid, htenant⟩ hinv' hunique
      have hspares : Spares (·.setApiKey key.id fun r => { r with revokedAt := some time }) :=
        spares_setApiKey (fun _ => ⟨rfl, rfl, rfl, fun _ => Option.some_ne_none time⟩) fun _ => rfl
      refine reach_spares hspares (R.revoke (fun r' hr' hid' => ?_) hinv'.rule) hinv' hunique
      obtain rfl := eq_of_id hinv'.unique hr' hr (hid'.trans hid.symm)
      exact htenant ▸ hfree

theorem keeps_handle (hinv : KeyInv rt R σ) (hσ : K σ) (route : Route) :
    Keeps rt R (fun _ => K) (route.handle rt user) σ := by
  have hid : SparesRule R id := ⟨spares_of_eq fun _ => rfl, fun _ h => h⟩
  have hplain : ∀ q : Query, q.Plain → NoBackfill q := fun _ => noBackfill_of_plain
  have hdoes : ∀ {α : Type} {j : Job α} {σ}, K σ → j.Does (SparesRule R) NoBackfill → Keeps rt R (fun _ => K) j σ :=
    fun hk h => keeps_of_does h hK hk fun _ _ hk' => hk'
  have hrole : ∀ roles, (requireRole roles user).Does (SparesRule R) NoBackfill := fun roles => does_requireRole roles user
  cases route with
  | elsewhere => exact hdoes hσ trivial
  | createApiKey name =>
      exact knows_bind hinv (hdoes hσ (hrole _)) fun _ σ₁ hσ₁ hk₁ => keeps_createApiKey hK hfree hσ₁.2 hk₁ name
  | revokeApiKey keyId =>
      exact knows_bind hinv (hdoes hσ (hrole _)) fun _ σ₁ hσ₁ hk₁ => keeps_revokeApiKey hK hfree hσ₁.2 hk₁ keyId
  | invite email role password =>
      refine hdoes hσ ((hrole _).bind fun _ => does_invite hid hplain user email role password fun row htenant _ => ?_)
      exact ⟨spares_of_eq fun _ => rfl, fun _ => R.insertUser (htenant ▸ hfree)⟩
  | changeRole userId role =>
      refine hdoes hσ ((hrole _).bind fun _ => does_changeRole hid user userId role fun _ _ => ?_)
      exact ⟨spares_of_eq fun _ => rfl, fun _ => R.setUserRole hfree⟩
  | removeUser userId =>
      refine hdoes hσ ((hrole _).bind fun _ => does_removeUser hplain user userId ?_)
      exact ⟨spares_of_eq fun _ => rfl, fun _ => R.deleteUser hfree⟩
  | setTenantStatus tenantId status =>
      refine hdoes hσ ((hrole _).bind fun _ => does_setTenantStatus ?_)
      exact ⟨spares_of_eq fun _ => rfl, fun _ => R.setTenantStatus⟩

end Routes

/-! ## Other requests -/

/-- A detached update writes the hash that bcrypt has accepted. -/
theorem keeps_detached (hinv : KeyInv rt R σ) (n : Nat) :
    Keeps rt R (fun _ _ => True) ((AccessRequest.detached n).job rt) σ := by
  let Known (update : Option Detached) (σ' : Shared Backend) : Prop := ∀ sid sha256, update = some (.keySha256 sid sha256) →
    ∃ r ∈ σ'.store.apiKeys, r.id = sid ∧ Backed rt sha256 r.keyHash
  have hknown : ∀ {update σ₁ σ₂}, (keyCourse rt R).Reach σ₁ σ₂ → Known update σ₁ → Known update σ₂ := by
    intro update σ₁ σ₂ hr h sid sha256 hupdate
    obtain ⟨r, hmem, hid, hbacked⟩ := h sid sha256 hupdate
    obtain ⟨r', hr', hremains⟩ := hr.1 r hmem
    exact ⟨r', hr', hremains.id.trans hid, hremains.keyHash ▸ hbacked⟩
  refine knows_bind hinv (P := Known) (keeps_ask (fun _ _ => Query.noConfusion) fun σ' hσ' σ'' hσ'' => ?_) ?_
  · refine hknown hσ'' fun sid sha256 hupdate => ?_
    exact hσ'.2.detached sid sha256 (List.mem_of_getElem? hupdate)
  · intro update σ₁ hσ₁ hupdate
    cases update with
    | none => exact knows_ret fun _ _ => trivial
    | some update =>
        refine knows_bind hσ₁.2 (P := fun _ _ => True) ?_ fun _ _ _ _ => knows_ret fun _ _ => trivial
        cases update with
        | lastUsedAt sid time =>
            refine keeps_of_does (K := fun _ => True) (does_detached ?_ ?_) (fun _ _ _ _ => trivial) trivial fun _ _ _ => trivial
            · exact fun _ _ => Detached.noConfusion
            · rintro sid' time' ⟨⟩
              exact ⟨spares_setApiKey (fun _ => ⟨rfl, rfl, rfl, fun h => h⟩) fun _ => rfl, fun _ => R.stamp⟩
        | keySha256 sid sha256 =>
            refine (does_detached (W := (· = (·.setApiKey sid fun r => { r with keySha256 := some sha256 })))
              (A := fun _ => False) ?_ ?_).knows (fun _ _ => hknown) hupdate ?_ (fun _ _ hq => hq.elim) fun _ _ _ _ => trivial
            · rintro sid' sha256' ⟨⟩
              rfl
            · exact fun _ _ => Detached.noConfusion
            · rintro w σ' rfl hk hinv' hown
              obtain ⟨r₀, hr₀, hid, hbacked⟩ := hk sid sha256 rfl
              refine reach_mapped hinv' hown (R.index hinv'.rule) rfl (fun r hr => ?_) fun r hr text htext => ?_
              · split_ifs
                · exact ⟨rfl, rfl, rfl, fun h => h⟩
                · exact .refl r
              · split_ifs at htext with hsid
                · obtain rfl := eq_of_id hinv'.unique hr hr₀ (hsid.trans hid.symm)
                  exact Option.some.inj htext ▸ hbacked
                · exact hinv'.rows r hr text htext

/-- The tenant of somebody who registers is a new one. -/
theorem keeps_register (hinv : KeyInv rt R σ) (email password : String) :
    Keeps rt R (fun _ _ => True) (register rt email password) σ := by
  have hask : ∀ q : Query, q.Plain → ∀ {σ}, Keeps rt R (fun _ _ => True) (Backend.ask q) σ := fun q hq σ =>
    keeps_ask (noBackfill_of_plain hq) fun _ _ _ _ => trivial
  refine knows_bind hinv (P := fun _ _ => True) (knows_get (fun _ _ _ _ h => h) fun _ _ => trivial) fun existing σ₁ hσ₁ _ => ?_
  cases existing with
  | some _ => exact knows_throw _
  | none =>
      refine knows_bind hσ₁.2 (hask (.bcryptHash password) trivial) fun passwordHash σ₂ hσ₂ _ => ?_
      refine knows_bind hσ₂.2 (P := fun _ _ => True) (Transaction.Job.Amid.transaction ?_ fun e _ _ => Transaction.Job.returns_error e)
        fun user σ₃ hσ₃ _ => ?_
      · intro σ₃ hσ₃ σ₄ hσ₄ _
        refine ⟨reach_asked (fun _ _ => Query.noConfusion) hσ₄.2, fun σ₅ hσ₅ => ?_⟩
        show Transaction.Tx.Amid _ _ _ (Transaction.Tx.bind (if σ₅.store.tenants.any _ then _ else _) _) _ _
        split_ifs with htaken
        · trivial
        have hfree : R.free (World.answer σ₄.world .cuid) := R.free_of_new hσ₅.2.rule fun r hr hid =>
          htaken (List.any_eq_true.mpr ⟨r, hr, decide_eq_true hid⟩)
        intro σ₆ hσ₆ _
        refine ⟨reach_asked (fun _ _ => Query.noConfusion) hσ₆.2, fun σ₇ hσ₇ => ?_⟩
        show Transaction.Tx.Amid _ _ _ (Transaction.Tx.bind (if Db.users _ |>.any _ then _ else _) _) _ _
        split_ifs
        · trivial
        intro σ₈ hσ₈ hown
        refine ⟨?_, trivial, fun _ _ => Transaction.Job.returns_ok trivial⟩
        exact reach_spares (spares_of_eq fun _ => rfl) (R.insertUser hfree (R.insertTenant hσ₈.2.rule)) hσ₈.2 hown
      · exact knows_bind hσ₃.2 (hask .now trivial) fun _ _ _ _ => knows_ret fun _ _ => trivial

/-! ## Requests -/

/-- Who a request may act for is free. -/
def Frees (rt : Runtime) (R : RowRule) : AccessRequest → Prop
  | .routed header _ => ∀ token, bearerToken header = some token →
      (isApiKey token = true → ∀ db, R.holds db → ∀ r ∈ db.apiKeys, Backed rt (rt.sha256 token) r.keyHash → R.free r.tenantId) ∧
        (isApiKey token = false → ∀ now payload, rt.jwtVerify now token = some payload → R.free payload.tenantId)
  | .register _ _ | .login _ _ | .detached _ => True

theorem ActsFor.free {header : Option String} {route : Route} {user : AuthUser} (h : ActsFor rt σ₀ header user σ)
    (hσ : R.holds σ.store) (hfrees : Frees rt R (.routed header route)) : R.free user.tenantId := by
  obtain ⟨token, htoken, hkey, hsession⟩ := h
  obtain ⟨hkeys, hsessions⟩ := hfrees token htoken
  cases hapi : isApiKey token with
  | true =>
      obtain ⟨-, r, hr, htenant, hbacked, -⟩ := hkey hapi
      exact htenant ▸ hkeys hapi σ.store hσ r hr hbacked
  | false =>
      obtain ⟨now, payload, hpayload, rfl⟩ := hsession hapi
      exact hsessions hapi now payload hpayload

/-- The user of a request that was let through since `σ₀`. -/
def LetThrough (rt : Runtime) (σ₀ : Shared Backend) (request : AccessRequest) (response : Response) (σ : Shared Backend) : Prop :=
  ∀ header route, request = .routed header route →
    ∃ user, ActsFor rt σ₀ header user σ ∧ (route = .elsewhere → response = .next user)

/-- Every request keeps the rule. -/
theorem keeps_request (hinv : KeyInv rt R σ) {request : AccessRequest} (hfrees : Frees rt R request) :
    Keeps rt R (LetThrough rt σ request) (request.job rt) σ := by
  cases request with
  | register email password => exact (keeps_register hinv email password).mono fun _ _ _ _ _ _ h => by cases h
  | login email password =>
      refine keeps_of_does (K := fun _ => True) ?_ (fun _ _ _ _ => trivial) trivial fun _ _ _ _ _ h => by cases h
      exact does_login ⟨spares_of_eq fun _ => rfl, fun _ h => h⟩ (fun _ => noBackfill_of_plain) rt email password
  | detached n => exact (keeps_detached hinv n).mono fun _ _ _ _ _ _ h => by cases h
  | routed header route =>
      refine knows_bind hinv (keeps_requireAuth hinv header) fun user σ₁ hσ₁ huser => ?_
      have hK : ∀ σ₁ σ₂, (keyCourse rt R).Reach σ₁ σ₂ → ActsFor rt σ header user σ₁ → ActsFor rt σ header user σ₂ :=
        fun _ _ hr h => h.later hr
      by_cases hroute : route = .elsewhere
      · subst hroute
        refine knows_ret fun σ' hσ' => ?_
        rintro header' route' ⟨⟩
        exact ⟨user, hK _ _ hσ' huser, fun _ => rfl⟩
      · have hfree : R.free user.tenantId := huser.free hσ₁.2.rule hfrees
        refine (keeps_handle hK hfree hσ₁.2 huser route).mono fun response σ' _ hk => ?_
        rintro header' route' ⟨⟩
        exact ⟨user, hk, fun h => absurd h hroute⟩

/-- What a run keeps. -/
theorem keeps_run [DecidableEq ι] {requests : ι → AccessRequest} {db : Db} {w : World} (hinv : KeyInv rt R ⟨db, w⟩)
    (hfrees : ∀ i, Frees rt R (requests i)) {p : Pool Backend ι Response}
    (hp : Pool.Reachable (Pool.init (fun i => (requests i).job rt) db w) p) :
    p.Knows (keyCourse rt R) (fun _ => UniqueIds) fun _ _ _ => True :=
  (Pool.knows_init hinv fun i => (keeps_request hinv (hfrees i)).mono fun _ _ _ _ => trivial).run
    (fun _ _ _ _ h => h) (hp.holding fun _ hp' => keyIds_nodup requests hinv.unique hp')

end CorpoPay.Access
