import CorpoPay.Access.Lemmas.Acting

/-!
# The users and keys of a tenant

The routes for users and keys look their rows up by the tenant of the request. As long as no request acts for a tenant, its
users stay as they are, and so do its keys, except for their indexed hashes and the times of their last use.
-/

namespace CorpoPay.Access

open Transaction (Pool)

variable {ι α β : Type}

/-! ## Rows of a tenant -/

/-- An update that spares the rows that are looked at. -/
theorem map_filter_map {p : α → Bool} {f : α → α} {g : α → β} {l : List α} (hp : ∀ r ∈ l, p (f r) = p r)
    (hg : ∀ r ∈ l, p r = true → g (f r) = g r) : ((l.map f).filter p).map g = (l.filter p).map g := by
  induction l with
  | nil => rfl
  | cons r l ih =>
      have hrest := ih (fun r' hr' => hp r' (List.mem_cons_of_mem _ hr')) fun r' hr' => hg r' (List.mem_cons_of_mem _ hr')
      rw [List.map_cons]
      cases hr : p r with
      | false => rw [List.filter_cons_of_neg (by simp [hp r List.mem_cons_self, hr]), List.filter_cons_of_neg (by simp [hr]), hrest]
      | true =>
          rw [List.filter_cons_of_pos (by rw [hp r List.mem_cons_self, hr]), List.filter_cons_of_pos hr, List.map_cons, List.map_cons,
            hrest, hg r List.mem_cons_self hr]

/-- What the middleware never changes of a key. -/
def ApiKey.core (r : ApiKey) : ApiKey := { r with keySha256 := none, lastUsedAt := none }

def Db.usersOf (tenantId : String) (db : Db) : List User := db.users.filter (·.tenantId = tenantId)

def Db.keysOf (tenantId : String) (db : Db) : List ApiKey := (db.apiKeys.filter (·.tenantId = tenantId)).map (·.core)

theorem keysOf_setApiKey {tenantId sid : String} {f : ApiKey → ApiKey} {db : Db} (htenant : ∀ r, (f r).tenantId = r.tenantId)
    (hcore : ∀ r ∈ db.apiKeys, r.id = sid → r.tenantId = tenantId → (f r).core = r.core) :
    (db.setApiKey sid f).keysOf tenantId = db.keysOf tenantId := by
  refine map_filter_map (fun r _ => ?_) fun r hr htrue => ?_
  · split_ifs
    · rw [htenant]
    · rfl
  · split_ifs with hid
    · exact hcore r hr hid (of_decide_eq_true htrue)
    · rfl

/-! ## The rule -/

/-- Nobody acts for the tenant, and its rows stay. -/
def otherTenants (tenantId : String) (users : List User) (keys : List ApiKey) : RowRule where
  holds db := (∃ r ∈ db.tenants, r.id = tenantId) ∧ db.usersOf tenantId = users ∧ db.keysOf tenantId = keys
  free t := t ≠ tenantId
  free_of_new h hnew ht := by
    obtain ⟨⟨r, hr, hid⟩, -⟩ := h
    exact hnew r hr (hid.trans ht.symm)
  insertTenant h := by
    obtain ⟨⟨r, hr, hid⟩, hrows⟩ := h
    exact ⟨⟨r, List.mem_append_left _ hr, hid⟩, hrows⟩
  setTenantStatus h := by
    obtain ⟨⟨r, hr, hid⟩, hrows⟩ := h
    refine ⟨⟨_, List.mem_map_of_mem hr, ?_⟩, hrows⟩
    split_ifs <;> exact hid
  insertUser hfree h := by
    refine ⟨h.1, ?_, h.2.2⟩
    show (_ ++ [_]).filter _ = _
    rw [List.filter_append, List.filter_cons_of_neg (by simpa using hfree)]
    exact (List.append_nil _).trans h.2.1
  setUserRole := @fun db userId t role hfree h => by
    refine ⟨h.1, ?_, h.2.2⟩
    have hspared : (((db.setUserRole userId t role).usersOf tenantId).map id) = (db.usersOf tenantId).map id := by
      refine map_filter_map (fun r _ => ?_) fun r _ htrue => ?_
      · split_ifs <;> rfl
      · rw [if_neg fun hr => hfree (hr.2.symm.trans (of_decide_eq_true htrue))]
    rw [List.map_id, List.map_id] at hspared
    exact hspared.trans h.2.1
  deleteUser := @fun db userId t hfree h => by
    refine ⟨h.1, ?_, h.2.2⟩
    show (db.users.filter _).filter _ = _
    rw [List.filter_filter]
    refine Eq.trans (List.filter_congr fun r _ => ?_) h.2.1
    by_cases hr : r.tenantId = tenantId
    · have ht : ¬ tenantId = t := fun h => hfree h.symm
      simp [hr, ht]
    · simp [hr]
  insertApiKey hfree h := by
    refine ⟨h.1, h.2.1, ?_⟩
    show ((_ ++ [_]).filter _).map _ = _
    rw [List.filter_append, List.filter_cons_of_neg (by simpa using hfree), List.filter_nil, List.append_nil]
    exact h.2.2
  revoke hfree h := by
    refine ⟨h.1, h.2.1, Eq.trans (keysOf_setApiKey ?_ ?_) h.2.2⟩
    · exact fun _ => rfl
    · exact fun r hr hid htenant => absurd htenant (hfree r hr hid)
  index h := by
    refine ⟨h.1, h.2.1, Eq.trans (keysOf_setApiKey ?_ ?_) h.2.2⟩
    · exact fun _ => rfl
    · exact fun _ _ _ _ => rfl
  stamp h := by
    refine ⟨h.1, h.2.1, Eq.trans (keysOf_setApiKey ?_ ?_) h.2.2⟩
    · exact fun _ => rfl
    · exact fun _ _ _ _ => rfl

/-- The request has neither a session nor a key of the tenant. -/
def ActsElsewhere (rt : Runtime) (db : Db) (tenantId : String) : AccessRequest → Prop
  | .routed header _ => ∀ token, bearerToken header = some token →
      (isApiKey token = true → ∀ r ∈ db.apiKeys, r.tenantId = tenantId → ¬ Backed rt (rt.sha256 token) r.keyHash) ∧
        (isApiKey token = false → ∀ now payload, rt.jwtVerify now token = some payload → payload.tenantId ≠ tenantId)
  | .register _ _ | .login _ _ | .detached _ => True

theorem ActsElsewhere.frees {rt : Runtime} {db : Db} {tenantId : String} {request : AccessRequest}
    (h : ActsElsewhere rt db tenantId request) :
    Frees rt (otherTenants tenantId (db.usersOf tenantId) (db.keysOf tenantId)) request := by
  cases request with
  | routed header route =>
      refine fun token htoken => ⟨fun hkey db' hrule r hr hbacked htenant => ?_, (h token htoken).2⟩
      -- The keys of the tenant have the hashes that they had.
      have hmem : r.core ∈ db.keysOf tenantId :=
        hrule.2.2 ▸ List.mem_map_of_mem (List.mem_filter.mpr ⟨hr, decide_eq_true htenant⟩)
      obtain ⟨r₀, hr₀, hcore⟩ := List.mem_map.mp hmem
      obtain ⟨hr₀, htenant₀⟩ := List.mem_filter.mp hr₀
      have hhash : r₀.core.keyHash = r.core.keyHash := congrArg ApiKey.keyHash hcore
      exact (h token htoken).1 hkey r₀ hr₀ (of_decide_eq_true htenant₀) ((show r.keyHash = r₀.keyHash from hhash.symm) ▸ hbacked)
  | _ => trivial

/-- As long as no request has a session or a key of a tenant, nobody changes its users or its keys, whatever the requests for
other tenants, the registrations and the detached updates do. -/
theorem tenant_rows_kept [DecidableEq ι] (rt : Runtime) (requests : ι → AccessRequest) (db : Db) (w : World)
    (hinv : KeysBacked rt ⟨db, w⟩) (tenantId : String) (htenant : ∃ r ∈ db.tenants, r.id = tenantId)
    (hforeign : ∀ i, ActsElsewhere rt db tenantId (requests i)) (p : Pool Backend ι Response)
    (hp : Pool.Reachable (Pool.init (fun i => (requests i).job rt) db w) p) :
    p.shared.store.usersOf tenantId = db.usersOf tenantId ∧ p.shared.store.keysOf tenantId = db.keysOf tenantId := by
  have hinv' : KeyInv rt (otherTenants tenantId (db.usersOf tenantId) (db.keysOf tenantId)) ⟨db, w⟩ :=
    ⟨hinv, htenant, rfl, rfl⟩
  exact (keeps_run hinv' (fun i => (hforeign i).frees) hp).inv.rule.2

/-! ## Another owner -/

def rowsRuntime : Runtime where
  sha256 := id
  bcryptCompare text hash := text = hash
  jwtVerify
    | _, "s" => some { sub := "v", tenantId := "r", role := .owner, email := "v" }
    | _, _ => none
  jwtSign _ payload := payload.sub

def rowsDb : Db where
  tenants := [⟨"t", .active⟩, ⟨"r", .active⟩]
  users := [⟨"u", "t", "u", "h", .owner⟩, ⟨"v", "r", "v", "h", .owner⟩]
  apiKeys := [⟨"k", "t", "n", "cp_test_a", none, "cp_test_a", none, none⟩]

def rowsWorld : World where
  clock := 0
  answered := 0
  oracle :=
    { tick := fun _ => 1, cuid := fun _ => "c", randomHex := fun _ => "x", bcryptHash := fun _ text => text
      refunds := fun _ _ => false }
  tenantStatusCache _ := none
  detached := []

/-- The owner of another tenant removes the user, revokes the key, and makes a key of his own. -/
def rowsRequests : Fin 3 → AccessRequest
  | 0 => .routed (some "Bearer s") (.removeUser "u")
  | 1 => .routed (some "Bearer s") (.revokeApiKey "k")
  | 2 => .routed (some "Bearer s") (.createApiKey "n")

theorem keysBacked_rowsDb : KeysBacked rowsRuntime ⟨rowsDb, rowsWorld⟩ where
  unique := by decide +kernel
  rows r hr sha256 hsha256 := by
    obtain rfl := List.mem_singleton.mp hr
    cases hsha256
  detached _ _ h := by cases h
  bcrypt _ _ := decide_eq_true rfl

theorem actsElsewhere_rowsRequests (i : Fin 3) : ActsElsewhere rowsRuntime rowsDb "t" (rowsRequests i) := by
  have hsession : ∀ token, bearerToken (some "Bearer s") = some token → token = "s" := fun token htoken =>
    Option.some.inj (htoken.symm.trans (by decide +kernel))
  have hacts : ∀ route, ActsElsewhere rowsRuntime rowsDb "t" (.routed (some "Bearer s") route) := by
    intro route token htoken
    obtain rfl := hsession token htoken
    refine ⟨fun hkey => absurd hkey (by decide +kernel), fun _ now payload hpayload => ?_⟩
    obtain rfl := Option.some.inj hpayload
    decide
  match i with
  | 0 | 1 | 2 => exact hacts _

theorem tenant_rows_kept_owner : ∃ p : Pool Backend (Fin 3) Response,
    Pool.Reachable (Pool.init (fun i => (rowsRequests i).job rowsRuntime) rowsDb rowsWorld) p ∧
      (∀ i, (p.threads i).phase.Finished) ∧ p.shared.store.apiKeys.length = 2 ∧
      p.shared.store.usersOf "t" = [⟨"u", "t", "u", "h", .owner⟩] ∧
      p.shared.store.keysOf "t" = [⟨"k", "t", "n", "cp_test_a", none, "cp_test_a", none, none⟩] := by
  obtain ⟨p, hp, hend⟩ := Pool.ReachableIf.exists_of_runSchedule
    (Pool.init (fun i => (rowsRequests i).job rowsRuntime) rowsDb rowsWorld)
    (List.replicate 11 0 ++ List.replicate 6 1 ++ List.replicate 13 2)
    (fun p => decide ((∀ i, (p.threads i).phase.Finished) ∧ p.shared.store.apiKeys.length = 2))
    (fun _ _ _ => trivial) (by decide +kernel)
  obtain ⟨hended, hkeys⟩ := of_decide_eq_true hend
  refine ⟨p, hp, hended, hkeys, ?_⟩
  exact tenant_rows_kept rowsRuntime rowsRequests rowsDb rowsWorld keysBacked_rowsDb "t" ⟨_, List.mem_cons_self, rfl⟩
    actsElsewhere_rowsRequests p hp

end CorpoPay.Access
