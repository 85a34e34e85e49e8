import CorpoPay.Access.Lemmas.Requests
import CorpoPay.Transaction.Onward
import CorpoPay.Transaction.Unique

/-!
# Keys in a run

No two keys have one id, and an indexed hash is one of a text that bcrypt accepts for the key. A key that is revoked stays
revoked.
-/

namespace CorpoPay.Access

open Transaction (Course Pool Shared UniqueKey)
open Transaction.Job (knows_query)

variable {ι α : Type} {rt : Runtime}

/-! ## Ids -/

/-- The ids of the keys. -/
def keyIds : UniqueKey Backend String where
  keys db := db.apiKeys.map (·.id)
  entry := .apiKey

/-- Writes that leave the ids of the keys. -/
abbrev LeavesIds (w : Db → Db) : Prop := ∀ db, (keyIds.keys (w db)).Sublist (keyIds.keys db)

theorem leavesIds_of_eq {w : Db → Db} (h : ∀ db, (w db).apiKeys = db.apiKeys) : LeavesIds w := fun db => by
  show ((w db).apiKeys.map _).Sublist _
  rw [h]
  exact .refl _

theorem leavesIds_setApiKey {sid : String} {f : ApiKey → ApiKey} (h : ∀ r, (f r).id = r.id) : LeavesIds (·.setApiKey sid f) := by
  intro db
  have hids : (db.setApiKey sid f).apiKeys.map (·.id) = db.apiKeys.map (·.id) := by
    show (db.apiKeys.map _).map _ = _
    rw [List.map_map]
    refine List.map_congr_left fun r _ => ?_
    dsimp only [Function.comp]
    split_ifs <;> simp [h]
  show ((db.setApiKey sid f).apiKeys.map _).Sublist _
  rw [hids]
  exact .refl _

theorem wp_createApiKeyRow (row : ApiKey) (sha256 : String) {ℓ : Transaction.Local Backend} {σ : Shared Backend} :
    (transaction (createApiKeyRow row sha256)).WP keyIds.contract (fun _ _ => True) ℓ σ := by
  show (transaction (keyIds.insertion row.id [.keyHash row.keyHash, .keySha256 sha256]
    (fun db => db.apiKeys.any fun r => r.id = row.id ∨ r.keyHash = row.keyHash ∨ r.keySha256 = some sha256) notUnique
    (·.insertApiKey { row with keySha256 := some sha256 }))).WP _ _ _ _
  refine UniqueKey.wp_insertion (fun db hmem => ?_) fun db => List.map_append
  obtain ⟨r, hr, hid⟩ := List.mem_map.mp hmem
  exact List.any_eq_true.mpr ⟨r, hr, decide_eq_true (.inl hid)⟩

theorem leavesIds_detached (update : Detached) : update.job.Does LeavesIds fun _ => True := by
  refine does_detached (fun sid sha256 _ => leavesIds_setApiKey ?_) fun sid time _ => leavesIds_setApiKey ?_
  · exact fun _ => rfl
  · exact fun _ => rfl

theorem leavesIds_requireAuth (rt : Runtime) (header : Option String) : (requireAuth rt header).Does LeavesIds fun _ => True := by
  have hid : LeavesIds id := leavesIds_of_eq fun _ => rfl
  unfold requireAuth
  cases bearerToken header with
  | none => trivial
  | some token =>
      dsimp only
      split_ifs
      · exact does_authenticateApiKey hid (fun _ _ => trivial) rt fun _ => trivial
      · exact does_authenticateSession hid (fun _ _ => trivial) rt token fun _ _ => trivial

theorem leavesIds_handle (rt : Runtime) (user : AuthUser) {route : Route} (h : ∀ name, route ≠ .createApiKey name) :
    (route.handle rt user).Does LeavesIds fun _ => True := by
  have hid : LeavesIds id := leavesIds_of_eq fun _ => rfl
  have hplain : ∀ q : Query, q.Plain → True := fun _ _ => trivial
  cases route with
  | elsewhere => trivial
  | createApiKey name => exact absurd rfl (h name)
  | revokeApiKey keyId =>
      refine (does_requireRole _ user).bind fun _ => does_revokeApiKey hid hplain user keyId fun sid time => ?_
      exact leavesIds_setApiKey fun _ => rfl
  | invite email role password =>
      refine (does_requireRole _ user).bind fun _ => does_invite hid hplain user email role password fun _ _ _ => ?_
      exact leavesIds_of_eq fun _ => rfl
  | changeRole userId role =>
      refine (does_requireRole _ user).bind fun _ => does_changeRole hid user userId role fun _ _ => ?_
      exact leavesIds_of_eq fun _ => rfl
  | removeUser userId =>
      exact (does_requireRole _ user).bind fun _ => does_removeUser hplain user userId (leavesIds_of_eq fun _ => rfl)
  | setTenantStatus tenantId status =>
      exact (does_requireRole _ user).bind fun _ => does_setTenantStatus (leavesIds_of_eq fun _ => rfl)

theorem wp_createApiKey (rt : Runtime) (user : AuthUser) (name : String) {ℓ : Transaction.Local Backend} {σ : Shared Backend} :
    (createApiKey rt user name).WP keyIds.contract (fun _ _ => True) ℓ σ := by
  intro σ₁ _ _
  refine ⟨.inl (.refl _), fun σ₂ _ _ => ⟨.inl (.refl _), fun σ₃ _ hids => ⟨.inl (.refl _), ?_⟩⟩⟩
  show ((transaction (createApiKeyRow _ _)).bind _).WP _ _ _ _
  exact Transaction.Job.WP.bind (Q := fun _ _ => True) (fun _ _ _ _ _ _ => trivial) (wp_createApiKeyRow _ _) hids

theorem wp_request (rt : Runtime) (request : AccessRequest) {ℓ : Transaction.Local Backend} {σ : Shared Backend}
    (hσ : (keyIds.keys σ.store).Nodup) : (request.job rt).WP keyIds.contract (fun _ _ => True) ℓ σ := by
  have hid : LeavesIds id := leavesIds_of_eq fun _ => rfl
  have hplain : ∀ q : Query, q.Plain → True := fun _ _ => trivial
  cases request with
  | register email password =>
      exact UniqueKey.wp_of_does (does_register hid hplain rt email password fun _ _ => leavesIds_of_eq fun _ => rfl)
  | login email password => exact UniqueKey.wp_of_does (does_login hid hplain rt email password)
  | detached n =>
      refine UniqueKey.wp_of_does (Transaction.Job.Does.bind (Transaction.Job.does_query trivial) fun update => ?_)
      cases update with
      | none => trivial
      | some update => exact (leavesIds_detached update).bind fun _ => trivial
  | routed header route =>
      refine Transaction.Job.WP.bind (Q := fun _ _ => True) (fun user ℓ' σ' => ?_)
        (UniqueKey.wp_of_does (leavesIds_requireAuth rt header)) hσ
      by_cases hcreate : ∃ name, route = .createApiKey name
      · obtain ⟨name, rfl⟩ := hcreate
        show ((requireOwner user).bind fun _ => createApiKey rt user name).WP _ _ _ _
        unfold requireOwner requireRole
        split_ifs
        · exact wp_createApiKey rt user name
        · trivial
      · exact UniqueKey.wp_of_does (leavesIds_handle rt user fun name hname => hcreate ⟨name, hname⟩)

/-- No two keys have one id, in any run. -/
theorem keyIds_nodup [DecidableEq ι] (requests : ι → AccessRequest) {db : Db} {w : World} (hids : (keyIds.keys db).Nodup)
    {p : Pool Backend ι Response} (hp : Pool.Reachable (Pool.init (fun i => (requests i).job rt) db w) p) :
    (keyIds.keys p.shared.store).Nodup :=
  Pool.unique_run hids (fun i => wp_request rt (requests i) hids) hp

/-! ## Hashes -/

/-- The indexed hash is one of a text that bcrypt accepts. -/
def Backed (rt : Runtime) (sha256 keyHash : String) : Prop := ∃ text, sha256 = rt.sha256 text ∧ rt.bcryptCompare text keyHash = true

structure KeysBacked (rt : Runtime) (σ : Shared Backend) : Prop where
  unique : (keyIds.keys σ.store).Nodup
  rows : ∀ r ∈ σ.store.apiKeys, ∀ sha256, r.keySha256 = some sha256 → Backed rt sha256 r.keyHash
  detached : ∀ sid sha256, .keySha256 sid sha256 ∈ σ.world.detached →
    ∃ r ∈ σ.store.apiKeys, r.id = sid ∧ Backed rt sha256 r.keyHash
  bcrypt : ∀ n text, rt.bcryptCompare text (σ.world.oracle.bcryptHash n text) = true

/-- What becomes of a row: a key that is revoked stays revoked. -/
structure Remains (r r' : ApiKey) : Prop where
  id : r'.id = r.id
  tenantId : r'.tenantId = r.tenantId
  keyHash : r'.keyHash = r.keyHash
  revoked : r.revokedAt ≠ none → r'.revokedAt ≠ none

theorem Remains.refl (r : ApiKey) : Remains r r := ⟨rfl, rfl, rfl, fun h => h⟩

theorem Remains.trans {r₁ r₂ r₃ : ApiKey} (h : Remains r₁ r₂) (h' : Remains r₂ r₃) : Remains r₁ r₃ :=
  ⟨h'.id.trans h.id, h'.tenantId.trans h.tenantId, h'.keyHash.trans h.keyHash, fun hr => h'.revoked (h.revoked hr)⟩

/-- Every row is still there. -/
def Continues (db db' : Db) : Prop := ∀ r ∈ db.apiKeys, ∃ r' ∈ db'.apiKeys, Remains r r'

theorem continues_of_eq {db db' : Db} (h : db'.apiKeys = db.apiKeys) : Continues db db' := fun r hr => ⟨r, h ▸ hr, .refl r⟩

theorem Continues.trans {db₁ db₂ db₃ : Db} (h : Continues db₁ db₂) (h' : Continues db₂ db₃) : Continues db₁ db₃ := by
  intro r hr
  obtain ⟨r', hr', hremains⟩ := h r hr
  obtain ⟨r'', hr'', hremains'⟩ := h' r' hr'
  exact ⟨r'', hr'', hremains.trans hremains'⟩

/-! ## What else is kept -/

/-- What the run keeps of the rows, as long as users act for some tenants only. -/
structure RowRule where
  holds : Db → Prop
  /-- Whether somebody may act for the tenant. -/
  free : String → Prop
  free_of_new : ∀ {db tenantId}, holds db → (∀ r ∈ db.tenants, r.id ≠ tenantId) → free tenantId
  insertTenant : ∀ {db row}, holds db → holds (db.insertTenant row)
  setTenantStatus : ∀ {db tenantId status}, holds db → holds (db.setTenantStatus tenantId status)
  insertUser : ∀ {db row}, free row.tenantId → holds db → holds (db.insertUser row)
  setUserRole : ∀ {db userId tenantId role}, free tenantId → holds db → holds (db.setUserRole userId tenantId role)
  deleteUser : ∀ {db userId tenantId}, free tenantId → holds db → holds (db.deleteUser userId tenantId)
  insertApiKey : ∀ {db row}, free row.tenantId → holds db → holds (db.insertApiKey row)
  revoke : ∀ {db sid time}, (∀ r ∈ db.apiKeys, r.id = sid → free r.tenantId) → holds db →
    holds (db.setApiKey sid fun r => { r with revokedAt := some time })
  index : ∀ {db sid sha256}, holds db → holds (db.setApiKey sid fun r => { r with keySha256 := some sha256 })
  stamp : ∀ {db sid time}, holds db → holds (db.setApiKey sid fun r => { r with lastUsedAt := some time })

/-- Nothing else. -/
def anyRows : RowRule where
  holds _ := True
  free _ := True
  free_of_new _ _ := trivial
  insertTenant _ := trivial
  setTenantStatus _ := trivial
  insertUser _ _ := trivial
  setUserRole _ _ := trivial
  deleteUser _ _ := trivial
  insertApiKey _ _ := trivial
  revoke _ _ := trivial
  index _ := trivial
  stamp _ := trivial

structure KeyInv (rt : Runtime) (R : RowRule) (σ : Shared Backend) : Prop extends KeysBacked rt σ where
  rule : R.holds σ.store

def keyCourse (rt : Runtime) (R : RowRule) : Course Backend where
  later σ σ' := Continues σ.store σ'.store
  inv := KeyInv rt R
  later_refl _ := continues_of_eq rfl
  later_trans := .trans

/-- The ids are unique, as `keyIds_nodup` says of every run. -/
def UniqueIds (_ σ' : Shared Backend) : Prop := (keyIds.keys σ'.store).Nodup

abbrev Keeps (rt : Runtime) (R : RowRule) (P : α → Shared Backend → Prop) (j : Job α) (σ : Shared Backend) : Prop :=
  Transaction.Job.Knows (keyCourse rt R) UniqueIds P j σ

theorem eq_of_id {db : Db} (hids : (keyIds.keys db).Nodup) {r r' : ApiKey} (hr : r ∈ db.apiKeys) (hr' : r' ∈ db.apiKeys)
    (hid : r.id = r'.id) : r = r' := List.inj_on_of_nodup_map hids hr hr' hid

/-! ## Commits and answers -/

variable {R : RowRule} {σ : Shared Backend}

/-- Rows that change where the ids and the hashes stay. -/
def Spares (w : Db → Db) : Prop :=
  ∀ db, ∃ f : ApiKey → ApiKey, (w db).apiKeys = db.apiKeys.map f ∧ ∀ r, Remains r (f r) ∧ (f r).keySha256 = r.keySha256

theorem spares_of_eq {w : Db → Db} (h : ∀ db, (w db).apiKeys = db.apiKeys) : Spares w := fun db =>
  ⟨id, by rw [h, List.map_id], fun r => ⟨.refl r, rfl⟩⟩

theorem spares_setApiKey {sid : String} {f : ApiKey → ApiKey} (h : ∀ r, Remains r (f r))
    (hsha256 : ∀ r, (f r).keySha256 = r.keySha256) : Spares (·.setApiKey sid f) := fun db =>
  ⟨fun r => if r.id = sid then f r else r, rfl, fun r => by
    dsimp only
    split_ifs
    · exact ⟨h r, hsha256 r⟩
    · exact ⟨.refl r, rfl⟩⟩

/-- Rows that change where every indexed hash is backed. -/
theorem reach_mapped {w : Db → Db} {f : ApiKey → ApiKey} (hσ : KeyInv rt R σ) (hown : UniqueIds σ (σ.committed w))
    (hrule : R.holds (w σ.store))
    (hw : (w σ.store).apiKeys = σ.store.apiKeys.map f) (hf : ∀ r ∈ σ.store.apiKeys, Remains r (f r))
    (hsha256 : ∀ r ∈ σ.store.apiKeys, ∀ sha256, (f r).keySha256 = some sha256 → Backed rt sha256 r.keyHash) :
    (keyCourse rt R).Reach σ (σ.committed w) := by
  have hlater : Continues σ.store (w σ.store) := fun r hr =>
    ⟨f r, hw ▸ List.mem_map_of_mem hr, hf r hr⟩
  refine ⟨hlater, ⟨hown, fun r' hr' sha256 hs => ?_, fun sid sha256 hmem => ?_, hσ.bcrypt⟩, hrule⟩
  · have hr'' : r' ∈ (w σ.store).apiKeys := hr'
    rw [hw] at hr''
    obtain ⟨r, hr, rfl⟩ := List.mem_map.mp hr''
    rw [(hf r hr).keyHash]
    exact hsha256 r hr sha256 hs
  · obtain ⟨r, hr, hid, hbacked⟩ := hσ.detached sid sha256 hmem
    obtain ⟨r', hr', hremains⟩ := hlater r hr
    exact ⟨r', hr', hremains.id.trans hid, hremains.keyHash ▸ hbacked⟩

theorem reach_spares {w : Db → Db} (hw : Spares w) (hrule : R.holds (w σ.store)) (hσ : KeyInv rt R σ)
    (hown : UniqueIds σ (σ.committed w)) : (keyCourse rt R).Reach σ (σ.committed w) := by
  obtain ⟨f, hmap, hf⟩ := hw σ.store
  exact reach_mapped hσ hown hrule hmap (fun r _ => (hf r).1) fun r hr sha256 hs => hσ.rows r hr sha256 ((hf r).2 ▸ hs)

theorem reach_insertApiKey {row : ApiKey} {sha256 : String} (hσ : KeyInv rt R σ) (hrow : Backed rt sha256 row.keyHash)
    (hfree : R.free row.tenantId)
    (hown : UniqueIds σ (σ.committed (·.insertApiKey { row with keySha256 := some sha256 }))) :
    (keyCourse rt R).Reach σ (σ.committed (·.insertApiKey { row with keySha256 := some sha256 })) := by
  refine ⟨fun r hr => ⟨r, List.mem_append_left _ hr, .refl r⟩,
    ⟨hown, fun r hr text hs => ?_, fun sid text hmem => ?_, hσ.bcrypt⟩, R.insertApiKey hfree hσ.rule⟩
  · rcases List.mem_append.mp hr with hr | hr
    · exact hσ.rows r hr text hs
    · obtain rfl := List.mem_singleton.mp hr
      exact Option.some.inj hs ▸ hrow
  · obtain ⟨r, hr, hid, hbacked⟩ := hσ.detached sid text hmem
    exact ⟨r, List.mem_append_left _ hr, hid, hbacked⟩

/-- A question that detaches no indexed hash. -/
def NoBackfill (q : Query) : Prop := ∀ sid sha256, q ≠ .detach (.keySha256 sid sha256)

theorem oracle_reply (w : World) (q : Query) : (w.reply q).2.oracle = w.oracle := by cases q <;> rfl

theorem detached_reply {w : World} {q : Query} (hq : NoBackfill q) {sid sha256 : String}
    (h : .keySha256 sid sha256 ∈ (w.reply q).2.detached) : .keySha256 sid sha256 ∈ w.detached := by
  cases q with
  | detach update =>
      rcases List.mem_append.mp h with h | h
      · exact h
      · exact absurd (congrArg Query.detach (List.mem_singleton.mp h).symm) (hq sid sha256)
  | takeDetached n => exact List.mem_of_mem_eraseIdx h
  | _ => exact h

theorem reach_asked {q : Query} (hq : NoBackfill q) (hσ : KeyInv rt R σ) : (keyCourse rt R).Reach σ (σ.asked q) := by
  refine ⟨continues_of_eq rfl,
    ⟨hσ.unique, hσ.rows, fun sid sha256 hmem => hσ.detached sid sha256 (detached_reply hq hmem), ?_⟩, hσ.rule⟩
  intro n text
  show rt.bcryptCompare text ((World.reply σ.world q).2.oracle.bcryptHash n text) = true
  rw [oracle_reply]
  exact hσ.bcrypt n text

theorem reach_backfill {sid sha256 : String} (hσ : KeyInv rt R σ)
    (hrow : ∃ r ∈ σ.store.apiKeys, r.id = sid ∧ Backed rt sha256 r.keyHash) :
    (keyCourse rt R).Reach σ (σ.asked (.detach (.keySha256 sid sha256))) := by
  refine ⟨continues_of_eq rfl, ⟨hσ.unique, hσ.rows, fun sid' sha256' hmem => ?_, hσ.bcrypt⟩, hσ.rule⟩
  rcases List.mem_append.mp hmem with hmem | hmem
  · exact hσ.detached sid' sha256' hmem
  · obtain ⟨rfl, rfl⟩ := Detached.keySha256.inj (List.mem_singleton.mp hmem)
    exact hrow

/-- Writes that spare the hashes and keep the rule, and questions that detach none. -/
abbrev SparesRule (R : RowRule) (w : Db → Db) : Prop := Spares w ∧ ∀ db, R.holds db → R.holds (w db)

theorem keeps_of_does {K : Shared Backend → Prop} {P : α → Shared Backend → Prop} {j : Job α}
    (h : j.Does (SparesRule R) NoBackfill) (hK : ∀ σ₁ σ₂, (keyCourse rt R).Reach σ₁ σ₂ → K σ₁ → K σ₂) (hσ : K σ)
    (hP : ∀ a σ', K σ' → P a σ') : Keeps rt R P j σ :=
  h.knows hK hσ (fun _ σ' hw _ hinv hown => reach_spares hw.1 (hw.2 σ'.store hinv.rule) hinv hown)
    (fun _ _ hq _ hinv _ => reach_asked hq hinv) fun a σ' _ hk => hP a σ' hk

theorem keeps_ask {q : Query} {P : Answer q → Shared Backend → Prop} (hq : NoBackfill q)
    (h : ∀ σ', (keyCourse rt R).Reach σ σ' → ∀ σ'', (keyCourse rt R).Reach (σ'.asked q) σ'' →
      P (World.answer σ'.world q) σ'') :
    Keeps rt R P (Backend.ask q) σ :=
  knows_query (fun _ hσ' _ => reach_asked hq hσ'.2) h

end CorpoPay.Access
