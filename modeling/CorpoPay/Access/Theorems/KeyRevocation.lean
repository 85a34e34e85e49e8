import CorpoPay.Access.Lemmas.Acting

/-!
# API keys

The indexed hash of a key is a short cut for its bcrypt hash, and old keys get theirs when they are used. The short cut never
lets a token through that bcrypt would refuse, and a key that is revoked lets nobody through any more.
-/

namespace CorpoPay.Access

open Transaction (Pool Shared)

variable {ι : Type}

theorem frees_anyRows (rt : Runtime) (request : AccessRequest) : Frees rt anyRows request := by
  cases request with
  | routed header route => exact fun _ _ => ⟨fun _ _ _ _ _ _ => trivial, fun _ _ _ _ => trivial⟩
  | _ => trivial

/-- A request that begins with an API key is let through by a key that was not revoked when the request began, and of which the
bcrypt hash is one of the token, or of a text with the same SHA-256. -/
theorem api_key_live [DecidableEq ι] (rt : Runtime) (requests : ι → AccessRequest) (db : Db) (w : World)
    (hinv : KeysBacked rt ⟨db, w⟩) (p : Pool Backend ι Response)
    (hp : Pool.Reachable (Pool.init (fun i => (requests i).job rt) db w) p) (i : ι) (hi : (p.threads i).pc = 0)
    (header : Option String) (route : Route) (hrequest : requests i = .routed header route) (token : String)
    (htoken : bearerToken header = some token) (hkey : isApiKey token = true)
    (p' : Pool Backend ι Response) (hp' : Pool.Reachable p p') (response : Response)
    (hret : (p'.threads i).phase = .between (.ret response)) :
    ∃ user : AuthUser, user.role = .owner ∧ (route = .elsewhere → response = .next user) ∧
      ∃ r ∈ p'.shared.store.apiKeys, r.tenantId = user.tenantId ∧ Backed rt (rt.sha256 token) r.keyHash ∧
        ∀ r₀ ∈ p.shared.store.apiKeys, r₀.id = r.id → r₀.revokedAt = none := by
  have hinv' : KeyInv rt anyRows ⟨db, w⟩ := ⟨hinv, trivial⟩
  have hknows := keeps_run hinv' (fun i => frees_anyRows rt (requests i)) hp
  have hbegin : (p.threads i).phase = .between ((requests i).job rt) := Pool.atFirst_of_reachable hp i hi
  let P (k : ι) : Response → Shared Backend → Prop :=
    if k = i then LetThrough rt p.shared (requests i) else fun _ _ => True
  have hP : P i = LetThrough rt p.shared (requests i) := if_pos rfl
  have hstronger : p.Knows (keyCourse rt anyRows) (fun _ => UniqueIds) P := by
    refine hknows.strengthen (i := i) hbegin ?_ fun k hk => if_neg hk
    rw [hP]
    exact keeps_request hknows.inv (frees_anyRows rt (requests i))
  have hlet := (hstronger.run (fun _ _ _ _ h => h)
    (hp'.holding fun _ hp'' => keyIds_nodup requests hinv.unique (hp.trans hp''))).returned hret
  rw [hP] at hlet
  obtain ⟨user, ⟨token', htoken', hlive, -⟩, hresponse⟩ := hlet header route hrequest
  obtain rfl := Option.some.inj (htoken.symm.trans htoken')
  exact ⟨user, (hlive hkey).1, hresponse, (hlive hkey).2⟩

/-! ## A key that has no indexed hash yet -/

def keyRuntime : Runtime where
  sha256 := id
  bcryptCompare text hash := text = hash
  jwtVerify _ _ := none
  jwtSign _ payload := payload.sub

def keyDb : Db where
  tenants := [⟨"t", .active⟩]
  users := [⟨"u", "t", "u", "h", .owner⟩]
  apiKeys := [⟨"k", "t", "n", "cp_test_a", none, "cp_test_a", none, none⟩]

def keyWorld : World where
  clock := 0
  answered := 0
  oracle :=
    { tick := fun _ => 1, cuid := fun _ => "c", randomHex := fun _ => "x", bcryptHash := fun _ text => text
      refunds := fun _ _ => false }
  tenantStatusCache _ := none
  detached := []

/-- The key is used, the database writes its indexed hash, and the key is used again. -/
def keyRequests : Fin 3 → AccessRequest
  | 0 => .routed (some "Bearer cp_test_a") .elsewhere
  | 1 => .detached 0
  | 2 => .routed (some "Bearer cp_test_a") .elsewhere

def returned : Transaction.Phase Backend Response → Option Response
  | .between (.ret response) => some response
  | _ => none

theorem phase_of_returned {ph : Transaction.Phase Backend Response} {response : Response} (h : returned ph = some response) :
    ph = .between (.ret response) := by
  unfold returned at h
  split at h
  · exact Option.some.inj h ▸ rfl
  · cases h

theorem keysBacked_keyDb : KeysBacked keyRuntime ⟨keyDb, keyWorld⟩ where
  unique := by decide +kernel
  rows r hr sha256 hsha256 := by
    obtain rfl := List.mem_singleton.mp hr
    cases hsha256
  detached _ _ h := by cases h
  bcrypt _ _ := decide_eq_true rfl

theorem api_key_live_indexed : ∃ p p' : Pool Backend (Fin 3) Response,
    Pool.Reachable (Pool.init (fun i => (keyRequests i).job keyRuntime) keyDb keyWorld) p ∧ Pool.Reachable p p' ∧
      (∀ r ∈ p.shared.store.apiKeys, r.keySha256 ≠ none) ∧
      ∃ user : AuthUser, (p'.threads 2).phase = .between (.ret (.next user)) ∧ user.role = .owner ∧
        ∃ r ∈ p'.shared.store.apiKeys, r.tenantId = user.tenantId ∧ Backed keyRuntime "cp_test_a" r.keyHash ∧
          ∀ r₀ ∈ p.shared.store.apiKeys, r₀.id = r.id → r₀.revokedAt = none := by
  let Last (p : Pool Backend (Fin 3) Response) : Bool := (returned (p.threads 2).phase).isSome
  let First (p : Pool Backend (Fin 3) Response) : Bool :=
    decide ((∀ r ∈ p.shared.store.apiKeys, r.keySha256 ≠ none) ∧ (p.threads 2).pc = 0) &&
      (p.runSchedule (fun _ _ _ => true) (List.replicate 11 2)).any Last
  obtain ⟨p, hp, hfirst⟩ := Pool.ReachableIf.exists_of_runSchedule
    (Pool.init (fun i => (keyRequests i).job keyRuntime) keyDb keyWorld) (List.replicate 15 0 ++ List.replicate 8 1) First
    (fun _ _ _ => trivial) (by decide +kernel)
  obtain ⟨hstart, hlast⟩ := Bool.and_eq_true_iff.mp hfirst
  obtain ⟨hindexed, hbegin⟩ := of_decide_eq_true hstart
  obtain ⟨p', hp', hend⟩ := Pool.ReachableIf.exists_of_check p _ _ _ (fun _ _ _ _ _ => trivial) hlast
  obtain ⟨response, hresponse⟩ := Option.isSome_iff_exists.mp hend
  obtain ⟨user, howner, hnext, hlive⟩ := api_key_live keyRuntime keyRequests keyDb keyWorld keysBacked_keyDb p hp 2 hbegin
    (some "Bearer cp_test_a") .elsewhere rfl "cp_test_a" (by decide +kernel) (by decide +kernel) p' hp' response
    (phase_of_returned hresponse)
  refine ⟨p, p', hp, hp', hindexed, user, ?_, howner, hlive⟩
  rw [phase_of_returned hresponse, hnext rfl]

end CorpoPay.Access
