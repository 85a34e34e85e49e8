import CorpoPay.Access.Lemmas.Requests
import CorpoPay.Transaction.OneByOne

/-!
# The owners of a tenant

Nobody removes himself, and nobody who is the only owner gives up his role. What a request does as an owner leaves him or
another owner, as long as its session still says what the database does.
-/

namespace CorpoPay.Access

open Settlement (TenantStatus)
open Transaction (AllowedAll runAll)
open Transaction.Job (ensures_bind ensures_get ensures_ofExcept_bind ensures_orElse ensures_query ensures_transaction)

variable {α : Type} {rt : Runtime} {db : Db} {tenantId : String}

/-! ## Users -/

def Db.HasOwner (tenantId : String) (db : Db) : Prop := ∃ r ∈ db.users, r.tenantId = tenantId ∧ r.role = .owner

/-- The tenant has an owner, and no two users have one id. -/
structure Owned (tenantId : String) (db : Db) : Prop where
  ids : (db.users.map (·.id)).Nodup
  owner : db.HasOwner tenantId

/-- The user is an owner in the database. -/
def IsOwner (user : AuthUser) (db : Db) : Prop := ∃ r ∈ db.users, r.id = user.id ∧ r.tenantId = user.tenantId ∧ r.role = .owner

/-- Where two owners are counted, one has another id. -/
theorem exists_other_owner (hids : (db.users.map (·.id)).Nodup) (hcount : ¬ db.ownerCount tenantId ≤ 1) (userId : String) :
    ∃ r ∈ db.users, r.tenantId = tenantId ∧ r.role = .owner ∧ r.id ≠ userId := by
  by_contra hnone
  have hsame : ∀ r ∈ db.users.filter fun r => r.role = .owner ∧ r.tenantId = tenantId, r.id = userId := fun r hr => by
    obtain ⟨hr, howner⟩ := List.mem_filter.mp hr
    obtain ⟨hrole, htenant⟩ := of_decide_eq_true howner
    by_contra hid
    exact hnone ⟨r, hr, htenant, hrole, hid⟩
  have hrepeat : (db.users.filter fun r => r.role = .owner ∧ r.tenantId = tenantId).map (·.id) =
      List.replicate (db.ownerCount tenantId) userId := by
    rw [List.eq_replicate_iff, List.length_map, Db.ownerCount, List.countP_eq_length_filter]
    exact ⟨rfl, fun sid hsid => by obtain ⟨r, hr, rfl⟩ := List.mem_map.mp hsid; exact hsame r hr⟩
  have hnodup : (List.replicate (db.ownerCount tenantId) userId).Nodup :=
    hrepeat ▸ hids.sublist (List.filter_sublist.map _)
  exact hcount (List.nodup_replicate.mp hnodup)

theorem Owned.of_users {db' : Db} (h : Owned tenantId db) (husers : db'.users = db.users) : Owned tenantId db' where
  ids := husers ▸ h.ids
  owner := by
    unfold Db.HasOwner
    rw [husers]
    exact h.owner

/-- An owner is another owner to everybody else. -/
theorem IsOwner.spares {user : AuthUser} (h : IsOwner user db) {userId : String} (hid : userId ≠ user.id) :
    ∃ r ∈ db.users, r.tenantId = user.tenantId ∧ r.role = .owner ∧ r.id ≠ userId := by
  obtain ⟨r, hr, hid', htenant, hrole⟩ := h
  exact ⟨r, hr, htenant, hrole, fun hr' => hid (hr'.symm.trans hid')⟩

theorem Owned.insertUser {row : User} (h : Owned tenantId db) (hnew : ∀ r ∈ db.users, r.id ≠ row.id) :
    Owned tenantId (db.insertUser row) where
  ids := by
    show ((db.users ++ [row]).map (·.id)).Nodup
    rw [List.map_append, List.map_singleton, ← List.concat_eq_append]
    refine h.ids.concat fun hmem => ?_
    obtain ⟨r, hr, hid⟩ := List.mem_map.mp hmem
    exact hnew r hr hid
  owner := by
    obtain ⟨r, hr, howner⟩ := h.owner
    exact ⟨r, List.mem_append_left _ hr, howner⟩

/-- A change of a role leaves an owner, when it leaves one of the tenant of the user. -/
theorem Owned.setUserRole {userId t : String} {role : UserRole} (h : Owned tenantId db)
    (hleft : role = .owner ∨ ∃ r ∈ db.users, r.tenantId = t ∧ r.role = .owner ∧ r.id ≠ userId) :
    Owned tenantId (db.setUserRole userId t role) where
  ids := by
    have hids : (db.setUserRole userId t role).users.map (·.id) = db.users.map (·.id) := by
      show (db.users.map _).map _ = _
      rw [List.map_map]
      refine List.map_congr_left fun r _ => ?_
      dsimp only [Function.comp]
      split_ifs <;> rfl
    rw [hids]
    exact h.ids
  owner := by
    have hkept : ∀ r ∈ db.users, ¬ (r.id = userId ∧ r.tenantId = t) → r ∈ (db.setUserRole userId t role).users := fun r hr hne =>
      List.mem_map.mpr ⟨r, hr, if_neg hne⟩
    obtain ⟨r, hr, htenant, howner⟩ := h.owner
    by_cases hset : r.id = userId ∧ r.tenantId = t
    · rcases hleft with rfl | ⟨r', hr', htenant', howner', hid'⟩
      · exact ⟨{ r with role := .owner }, List.mem_map.mpr ⟨r, hr, if_pos hset⟩, htenant, rfl⟩
      · refine ⟨r', hkept r' hr' fun h' => hid' h'.1, ?_, howner'⟩
        exact htenant'.trans (hset.2.symm.trans htenant)
    · exact ⟨r, hkept r hr hset, htenant, howner⟩

theorem Owned.deleteUser {userId t : String} (h : Owned tenantId db)
    (hleft : ∃ r ∈ db.users, r.tenantId = t ∧ r.role = .owner ∧ r.id ≠ userId) : Owned tenantId (db.deleteUser userId t) where
  ids := h.ids.sublist (List.filter_sublist.map _)
  owner := by
    have hkept : ∀ r ∈ db.users, ¬ (r.id = userId ∧ r.tenantId = t) → r ∈ (db.deleteUser userId t).users := fun r hr hne =>
      List.mem_filter.mpr ⟨hr, decide_eq_true hne⟩
    obtain ⟨r, hr, htenant, howner⟩ := h.owner
    by_cases hdeleted : r.id = userId ∧ r.tenantId = t
    · obtain ⟨r', hr', htenant', howner', hid'⟩ := hleft
      exact ⟨r', hkept r' hr' fun h' => hid' h'.1, htenant'.trans (hdeleted.2.symm.trans htenant), howner'⟩
    · exact ⟨r, hkept r hr hdeleted, htenant, howner⟩

/-! ## Authentication -/

/-- The role of a session is the one that the user still has. -/
def Current (rt : Runtime) (request : AccessRequest) (db : Db) : Prop :=
  ∀ header route token now payload, request = .routed header route → bearerToken header = some token → isApiKey token = false →
    rt.jwtVerify now token = some payload →
      ∃ r ∈ db.users, r.id = payload.sub ∧ r.tenantId = payload.tenantId ∧ r.role = payload.role

theorem ensures_checkTenantActive (t : String) : (checkTenantActive t).Ensures (fun _ db' => db' = db) db :=
  (does_checkTenantActive (W := (· = id)) (A := fun _ => True) rfl (fun _ _ => trivial) fun _ => trivial).ensures (J := (· = db))
    (fun _ _ hw hs => by rw [hw]; exact hs) rfl

theorem ensures_loadOwner (apiKey : ApiKey) :
    (loadOwner apiKey).Ensures (fun r db' => db' = db ∧ ∀ user, r = .ok user → user.role = .owner → IsOwner user db) db := by
  refine (ensures_bind _ _).mpr ((ensures_get _).mpr ?_)
  cases db.tenant apiKey.tenantId with
  | none => exact ⟨rfl, fun _ h => by cases h⟩
  | some tenant =>
      dsimp only
      split_ifs
      · exact ⟨rfl, fun _ h => by cases h⟩
      refine (ensures_bind _ _).mpr ((ensures_get _).mpr ?_)
      cases howner : db.owner apiKey.tenantId with
      | none => exact ⟨rfl, fun _ h => by cases h⟩
      | some owner =>
          obtain ⟨htenant, hrole⟩ : owner.tenantId = apiKey.tenantId ∧ owner.role = .owner := by
            simpa using List.find?_some howner
          refine fun time _ => ⟨rfl, fun user huser _ => ?_⟩
          obtain rfl := Except.ok.inj huser
          exact ⟨owner, List.mem_of_find?_eq_some howner, rfl, htenant, hrole⟩

theorem ensures_requireAuth {header : Option String} {route : Route} (hcurrent : Current rt (.routed header route) db) :
    (requireAuth rt header).Ensures (fun r db' => db' = db ∧ ∀ user, r = .ok user → user.role = .owner → IsOwner user db) db := by
  have hnone : ∀ e : Failure, db = db ∧ ∀ user : AuthUser, Except.error e = .ok user → user.role = .owner → IsOwner user db :=
    fun _ => ⟨rfl, fun _ h => by cases h⟩
  unfold requireAuth
  cases htoken : bearerToken header with
  | none => exact hnone _
  | some token =>
      dsimp only
      split_ifs with hkey
      · refine (ensures_bind _ _).mpr ((ensures_get _).mpr ?_)
        cases db.apiKeys.find? fun r => r.keySha256 = some (rt.sha256 token) ∧ r.revokedAt = none with
        | some apiKey => exact ensures_loadOwner apiKey
        | none =>
            refine (ensures_bind _ _).mpr ((ensures_get _).mpr ?_)
            dsimp only
            cases List.find? (fun candidate : ApiKey => rt.bcryptCompare token candidate.keyHash) _ with
            | none => exact hnone _
            | some apiKey => exact fun _ => ensures_loadOwner apiKey
      · have hactive : (verifySession rt token).Ensures
            (fun r db' => db' = db ∧ ∀ p, r = .ok p → p.1.role = .owner → IsOwner p.1.user db) db := by
          refine (ensures_bind _ _).mpr ((ensures_query _).mpr fun now => ?_)
          dsimp only
          cases hverify : rt.jwtVerify now token with
          | none => exact ⟨rfl, fun _ h => by cases h⟩
          | some payload =>
              refine (ensures_bind _ _).mpr ((ensures_checkTenantActive _).mono fun r db' hdb => ?_)
              cases r with
              | error e => exact ⟨hdb, fun _ h => by cases h⟩
              | ok active =>
                  refine ⟨hdb, fun p hp hrole => ?_⟩
                  obtain rfl := Except.ok.inj hp
                  obtain ⟨r, hr, hid, htenant, hrole'⟩ := hcurrent _ _ _ now payload rfl htoken (by simpa using hkey) hverify
                  exact ⟨r, hr, hid, htenant, hrole'.trans hrole⟩
        refine (ensures_bind _ _).mpr ((ensures_orElse _ _).mpr (hactive.mono fun r db' hr => ?_))
        obtain ⟨rfl, hr⟩ := hr
        cases r with
        | error e => exact hnone _
        | ok p =>
            obtain ⟨payload, active⟩ := p
            cases active with
            | false => exact hnone _
            | true =>
                refine ⟨rfl, fun user huser hrole => ?_⟩
                obtain rfl := Except.ok.inj huser
                exact hr _ rfl hrole

/-! ## Routes -/

/-- What leaves the users alone. -/
theorem ensures_of_users {j : Job α} (h : j.Does (fun w : Db → Db => ∀ db, (w db).users = db.users) fun _ => True)
    (hdb : Owned tenantId db) : j.Ensures (fun _ db' => Owned tenantId db') db :=
  h.ensures (fun _ db hw hdb => hdb.of_users (hw db)) hdb

theorem ensures_createUser {row : User} (hdb : Owned tenantId db) :
    (createUser row).Ensures (fun _ db' => Owned tenantId db') (fun _ => True) db := by
  simp only [createUser, Transaction.Tx.bind_eq, Transaction.Tx.ensures_bind, Transaction.Tx.ensures_acquire, Transaction.Tx.ensures_get, Transaction.Tx.ensures_ite, Transaction.Tx.ensures_throw]
  refine ⟨fun _ => trivial, fun htaken => hdb.insertUser fun r hr hid => htaken ?_⟩
  exact List.any_eq_true.mpr ⟨r, hr, decide_eq_true (.inl hid)⟩

theorem ensures_invite {user : AuthUser} {email roleText password : String} (hdb : Owned tenantId db) :
    (invite user email roleText password).Ensures (fun _ db' => Owned tenantId db') db := by
  refine ensures_ofExcept_bind (fun role _ => ?_) fun _ _ => hdb
  refine (ensures_bind _ _).mpr ((ensures_get _).mpr ?_)
  cases db.users.find? fun r => r.email = email ∧ r.tenantId = user.tenantId with
  | some _ => exact hdb
  | none =>
      refine (ensures_bind _ _).mpr ((ensures_query _).mpr fun passwordHash => ?_)
      refine (ensures_bind _ _).mpr ((ensures_query _).mpr fun userId => ?_)
      exact (ensures_bind _ _).mpr ((ensures_transaction _).mpr <| (ensures_createUser hdb).mono (fun _ _ h => h) fun _ _ => hdb)

/-- Where an owner gives up his role, he has counted another one. -/
theorem ensures_changeRole {user : AuthUser} {userId roleText : String} (hdb : Owned tenantId db) (howner : IsOwner user db) :
    (changeRole user userId roleText).Ensures (fun _ db' => Owned tenantId db') db := by
  refine ensures_ofExcept_bind (fun role _ => ?_) fun _ _ => hdb
  have hchecked : (checkLastOwner user userId role).Ensures (fun r db' => db' = db ∧ (r = .ok () → role = .owner ∨
      ∃ r ∈ db.users, r.tenantId = user.tenantId ∧ r.role = .owner ∧ r.id ≠ userId)) db := by
    unfold checkLastOwner
    split_ifs with hself
    · refine (ensures_bind _ _).mpr ((ensures_get _).mpr ?_)
      dsimp only
      split_ifs with hcount
      · exact ⟨rfl, fun h => by cases h⟩
      · exact ⟨rfl, fun _ => .inr (exists_other_owner hdb.ids hcount userId)⟩
    · refine ⟨rfl, fun _ => ?_⟩
      by_cases hrole : role = .owner
      · exact .inl hrole
      · exact .inr (howner.spares fun hid => hself ⟨hid, hrole⟩)
  refine (ensures_bind _ _).mpr (hchecked.mono fun r db' hr => ?_)
  obtain ⟨rfl, hr⟩ := hr
  cases r with
  | error e => exact hdb
  | ok _ =>
      refine (ensures_bind _ _).mpr ((ensures_transaction _).mpr ?_)
      simp only [updateUserRole, Transaction.Tx.bind_eq, Transaction.Tx.ensures_bind, Transaction.Tx.ensures_acquire, Transaction.Tx.ensures_get, Transaction.Tx.ensures_ite, Transaction.Tx.ensures_throw]
      exact ⟨fun _ => hdb.setUserRole (hr rfl), fun _ => hdb⟩

theorem ensures_removeUser {user : AuthUser} {userId : String} (hdb : Owned tenantId db) (howner : IsOwner user db) :
    (removeUser user userId).Ensures (fun _ db' => Owned tenantId db') db := by
  unfold removeUser
  split_ifs with hself
  · exact hdb
  · refine (ensures_bind _ _).mpr ((ensures_transaction _).mpr ?_)
    simp only [deleteUser, Transaction.Tx.bind_eq, Transaction.Tx.ensures_bind, Transaction.Tx.ensures_acquire, Transaction.Tx.ensures_get, Transaction.Tx.ensures_ite, Transaction.Tx.ensures_throw]
    exact ⟨fun _ _ => ⟨fun _ => hdb, fun _ => hdb.deleteUser (howner.spares hself)⟩, fun _ => hdb⟩

theorem ensures_handle {user : AuthUser} {route : Route} (hdb : Owned tenantId db) (howner : user.role = .owner → IsOwner user db) :
    (route.handle rt user).Ensures (fun _ db' => Owned tenantId db') db := by
  have hown : ∀ f : Unit → Job Response, (IsOwner user db → (f ()).Ensures (fun _ db' => Owned tenantId db') db) →
      ((requireOwner user).bind f).Ensures (fun _ db' => Owned tenantId db') db := fun f hf => by
    unfold requireOwner requireRole
    split_ifs with hrole
    · exact hf (howner (by simpa using hrole))
    · exact hdb
  have hid : ∀ db : Db, (id db).users = db.users := fun _ => rfl
  cases route with
  | elsewhere => exact hdb
  | createApiKey name => exact hown _ fun _ => ensures_of_users (does_createApiKey (fun _ _ => trivial) rt user name fun _ _ => rfl) hdb
  | revokeApiKey keyId =>
      exact hown _ fun _ => ensures_of_users (does_revokeApiKey hid (fun _ _ => trivial) user keyId fun _ _ _ => rfl) hdb
  | invite email role password => exact hown _ fun _ => ensures_invite hdb
  | changeRole userId role => exact hown _ fun h => ensures_changeRole hdb h
  | removeUser userId => exact hown _ fun h => ensures_removeUser hdb h
  | setTenantStatus t status =>
      refine ensures_of_users (Transaction.Job.Does.bind (does_requireRole _ _) fun _ => ?_) hdb
      exact does_setTenantStatus fun _ => rfl

theorem ensures_register {email password : String} (hdb : Owned tenantId db) :
    (register rt email password).Ensures (fun _ db' => Owned tenantId db') db := by
  refine (ensures_bind _ _).mpr ((ensures_get _).mpr ?_)
  cases db.users.find? (·.email = email) with
  | some _ => exact hdb
  | none =>
      refine (ensures_bind _ _).mpr ((ensures_query _).mpr fun passwordHash => ?_)
      refine (ensures_bind _ _).mpr ((ensures_transaction _).mpr ?_)
      simp only [createTenant, Transaction.Tx.bind_eq, Transaction.Tx.ensures_bind, Transaction.Tx.ensures_acquire, Transaction.Tx.ensures_get, Transaction.Tx.ensures_ite, Transaction.Tx.ensures_throw,
        Transaction.Tx.ensures_modify]
      refine fun t => ⟨fun _ => hdb, fun _ userId => ?_⟩
      have hdb' : Owned tenantId (db.insertTenant { id := t, status := .active }) := hdb.of_users rfl
      exact (ensures_createUser hdb').mono (fun _ _ h _ => h) fun _ _ => hdb

theorem ensures_request {request : AccessRequest} (hcurrent : Current rt request db) (hdb : Owned tenantId db) :
    (request.job rt).Ensures (fun _ db' => Owned tenantId db') db := by
  have hid : ∀ db : Db, (id db).users = db.users := fun _ => rfl
  cases request with
  | routed header route =>
      refine (ensures_bind _ _).mpr ((ensures_requireAuth hcurrent).mono fun r db' hr => ?_)
      obtain ⟨rfl, hr⟩ := hr
      cases r with
      | error e => exact hdb
      | ok user => exact ensures_handle hdb (hr user rfl)
  | register email password => exact ensures_register hdb
  | login email password => exact ensures_of_users (does_login hid (fun _ _ => trivial) rt email password) hdb
  | detached n =>
      refine ensures_of_users (Transaction.Job.Does.bind (Transaction.Job.does_query trivial) fun update => ?_) hdb
      cases update with
      | none => trivial
      | some update => exact Transaction.Job.Does.bind (does_detached (fun _ _ _ _ => rfl) fun _ _ _ _ => rfl) fun _ => trivial

/-- Requests that run one after the other never take the last owner of a tenant, as long as the role of each session is the one
that its user has when the request begins. -/
theorem tenant_keeps_owner (rt : Runtime) (tenantId : String) (requests : List AccessRequest) (db : Db) (w : World)
    (hcurrent : AllowedAll (I := Backend) (fun r : AccessRequest => r.job rt) (Current rt) requests db w)
    (hdb : Owned tenantId db) : (runAll (I := Backend) (fun r : AccessRequest => r.job rt) requests db w).1.HasOwner tenantId :=
  (Transaction.inv_runAll (fun _ _ hr hdb => ensures_request hr hdb) hcurrent hdb).owner

/-! ## Two owners -/

def ownersRuntime : Runtime where
  sha256 := id
  bcryptCompare text hash := text = hash
  jwtVerify
    | _, "u" => some { sub := "u", tenantId := "t", role := .owner, email := "u" }
    | _, "v" => some { sub := "v", tenantId := "t", role := .owner, email := "v" }
    | _, _ => none
  jwtSign _ payload := payload.sub

def ownersDb : Db where
  tenants := [⟨"t", .active⟩]
  users := [⟨"u", "t", "u", "h", .owner⟩, ⟨"v", "t", "v", "h", .owner⟩]
  apiKeys := []

def ownersWorld : World where
  clock := 0
  answered := 0
  oracle :=
    { tick := fun _ => 1, cuid := fun _ => "c", randomHex := fun _ => "x", bcryptHash := fun _ text => text
      refunds := fun _ _ => false }
  tenantStatusCache _ := none
  detached := []

/-- Each of the two gives up his role. -/
def ownersRequests : List AccessRequest :=
  [.routed (some "Bearer u") (.changeRole "u" "STAFF"), .routed (some "Bearer v") (.changeRole "v" "STAFF")]

theorem current_ownersRuntime (sid : String) {route : Route} {db : Db}
    (htoken : ∀ token, bearerToken (some ("Bearer " ++ sid)) = some token → token = sid)
    (hverify : ∀ now payload, ownersRuntime.jwtVerify now sid = some payload →
      payload = { sub := sid, tenantId := "t", role := .owner, email := sid })
    (hrow : ∃ r ∈ db.users, r.id = sid ∧ r.tenantId = "t" ∧ r.role = .owner) :
    Current ownersRuntime (.routed (some ("Bearer " ++ sid)) route) db := by
  rintro _ _ token now payload heq hbearer - hpayload
  cases heq
  obtain rfl := htoken token hbearer
  obtain rfl := hverify now payload hpayload
  exact hrow

theorem tenant_keeps_owner_two :
    (runAll (I := Backend) (fun r : AccessRequest => r.job ownersRuntime) ownersRequests ownersDb ownersWorld).1.users =
        [⟨"u", "t", "u", "h", .staff⟩, ⟨"v", "t", "v", "h", .owner⟩] ∧
      (runAll (I := Backend) (fun r : AccessRequest => r.job ownersRuntime) ownersRequests ownersDb ownersWorld).1.HasOwner
        "t" := by
  refine ⟨by decide +kernel, ?_⟩
  refine tenant_keeps_owner ownersRuntime "t" ownersRequests ownersDb ownersWorld ⟨?_, ?_, trivial⟩ ⟨by decide, ?_⟩
  · refine current_ownersRuntime "u" (fun token h => ?_) (fun now payload h => ?_) (by decide)
    · exact Option.some.inj (h.symm.trans (by decide +kernel))
    · exact (Option.some.inj h).symm
  · refine current_ownersRuntime "v" (fun token h => ?_) (fun now payload h => ?_) ?_
    · exact Option.some.inj (h.symm.trans (by decide +kernel))
    · exact (Option.some.inj h).symm
    · exact ⟨⟨"v", "t", "v", "h", .owner⟩, by decide +kernel, rfl, rfl, rfl⟩
  · exact ⟨_, List.mem_cons_self, rfl, rfl⟩

end CorpoPay.Access
