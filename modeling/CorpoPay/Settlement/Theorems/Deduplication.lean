import CorpoPay.Settlement.Lemmas.WebhookEvents
import CorpoPay.Settlement.Theorems.WebhookBinding

/-!
# Duplicates among webhooks

The keys of all providers and tenants are one name space, and each sender chooses its own. A request whose key an event of
another sender has is answered as a duplicate of it, and its event is lost. With keys that are apart, and repetitions within
a day, every request is a duplicate of its own event only, and no event is processed twice.
-/

namespace CorpoPay.Settlement

open Transaction (Contract Job Pool)
open Data (DAY_MS DedupQueue)

/-! ## Sources and events -/

namespace VerifiedWebhook

/-- The requests are from one provider, and about intents of one tenant. -/
def SameSource (r r' : VerifiedWebhook) : Prop := r.provider = r'.provider ∧ r.tenantId = r'.tenantId

/-- The row has the key of the request. -/
def HasKey (rt : Runtime) (request : VerifiedWebhook) (row : WebhookEvent) : Prop :=
  ∃ key, request.idempotencyKey rt = .ok key ∧ row.idempotencyKey = some key

/-- The requests deliver one event of one provider. -/
def SameEvent (rt : Runtime) (r r' : VerifiedWebhook) : Prop :=
  r.provider = r'.provider ∧ ∃ key, r.idempotencyKey rt = .ok key ∧ r'.idempotencyKey rt = .ok key

end VerifiedWebhook

section Deduplication

variable {ι : Type} {rt : Runtime} {request : ι → VerifiedWebhook} {db : Db} {w : World} {s s' : Intake ι}

/-- Requests from different sources have different keys. -/
def KeysApart (rt : Runtime) (request : ι → VerifiedWebhook) : Prop :=
  ∀ i j key, (request i).idempotencyKey rt = .ok key → (request j).idempotencyKey rt = .ok key →
    (request i).SameSource (request j)

namespace Intake

/-- An event that is sent again is sent within a day. -/
def OnTime (rt : Runtime) (request : ι → VerifiedWebhook) (s : Intake ι) : Action ι → Prop
  | .send i => s.queue.InWindow DAY_MS ((request i).eventId rt)
  | _ => True

instance (s : Intake ι) : DecidablePred (s.OnTime rt request)
  | .send _ => inferInstanceAs (Decidable (DedupQueue.InWindow _ _ _))
  | .run _ | .abort _ | .deliver _ | .wait _ => .isTrue trivial

/-- What deduplication does in a state: requests are duplicates of events from their own source only, and of each event
one job runs. -/
structure Deduplicates (rt : Runtime) (request : ι → VerifiedWebhook) (s : Intake ι) : Prop where
  /-- The rows that the look-up or the constraint finds for a request. -/
  rows : ∀ i j row, (j, row) ∈ s.stored → (request i).HasKey rt row → (request i).SameSource (request j)
  lookUp : ∀ i, s.response i = some .duplicate →
    ∃ j row, (j, row) ∈ s.stored ∧ (request i).HasKey rt row ∧ (request i).SameSource (request j)
  queue : ∀ i ∈ s.sent, ∃ j ∈ s.queue.messages,
    (request i).SameEvent rt (request j) ∧ (request i).SameSource (request j)
  /-- No job is refused its row because of another one. -/
  constraint : ∀ i ∈ s.queue.delivered, ∀ j row, (j, row) ∈ s.stored → (request i).HasKey rt row → i = j
  once : ∀ i ∈ s.queue.delivered, ∀ j ∈ s.queue.delivered, (request i).SameEvent rt (request j) → i = j
  nodup : s.queue.delivered.Nodup

/-! ## Routes and jobs -/

/-- What follows from the answer of a route. -/
def Told (rt : Runtime) (request : ι → VerifiedWebhook) : ι ⊕ ι → IntakeResult → Db → Prop
  | .inr _ => fun _ _ => True
  | .inl i => fun result db =>
      match result with
      | .answered .duplicate => ∃ row ∈ db.webhookEvents, (request i).HasKey rt row
      | .answered (.queued _) => ∃ key, (request i).idempotencyKey rt = .ok key
      | _ => True

/-- The rows that a thread may store. -/
def MayStore (rt : Runtime) (request : ι → VerifiedWebhook) : ι ⊕ ι → WebhookEvent → Prop
  | .inl _ => fun _ => False
  | .inr i => (request i).HasKey rt

theorem told_grows {thread : ι ⊕ ι} {a : IntakeResult} {db db' : Db} (hgrow : EventsGrow db db')
    (h : Told rt request thread a db) : Told rt request thread a db' := by
  cases thread with
  | inr i => trivial
  | inl i =>
      cases a with
      | processed => trivial
      | answered response =>
          cases response with
          | rejected status => trivial
          | queued event => exact h
          | duplicate =>
              obtain ⟨row, hrow, hhas⟩ := h
              exact ⟨row, hgrow.subset hrow, hhas⟩

/-- The look-up answers for the rows of the moment, and these stay. -/
theorem wp_lookUp {i : ι} {key : String} (hkey : (request i).idempotencyKey rt = .ok key) {event : QueuedWebhook}
    (hevent : event.idempotencyKey = key) {W : (Db → Db) → Prop} :
    ((lookUp event).bind fun response => .ret (.answered response)).WP (.committing EventsGrow W)
      (fun a σ => Told rt request (.inl i) a σ.store) ⟨0, ∅⟩ ⟨db, w⟩ := by
  simp only [lookUp, Job.bind_eq, Job.pure_eq, Job.bind_assoc]
  refine Job.WP.look (I := Backend) (R := EventsGrow) (W := W) (Q := Told rt request (.inl i)) (f := fun db : Db =>
    db.webhookEvents.any (·.idempotencyKey = some event.idempotencyKey))
    (g := fun existing => IntakeResult.answered (if existing then .duplicate else .queued event)) (fun db => ?_)
    fun _ _ _ => told_grows
  cases hany : db.webhookEvents.any (·.idempotencyKey = some event.idempotencyKey) with
  | false => exact ⟨key, hkey⟩
  | true =>
      obtain ⟨row, hrow, hsame⟩ := List.any_eq_true.mp hany
      exact ⟨row, hrow, key, hkey, hevent ▸ of_decide_eq_true hsame⟩

theorem queued_idempotencyKey (request : VerifiedWebhook) (key : String) : (request.queued key).idempotencyKey = key := by
  unfold VerifiedWebhook.queued
  split <;> rfl

theorem wp_intake (thread : ι ⊕ ι) :
    (intakeJobs rt request thread).WP (.committing EventsGrow (Stores (MayStore rt request thread)))
      (fun a σ => Told rt request thread a σ.store) ⟨0, ∅⟩ ⟨db, w⟩ := by
  cases thread with
  | inl i =>
      simp only [intakeJobs, receive, Job.bind_eq, Job.pure_eq, Job.bind_assoc]
      cases hkey : (request i).idempotencyKey rt with
      | error e => trivial
      | ok key => exact wp_lookUp hkey (queued_idempotencyKey _ _)
  | inr i =>
      simp only [intakeJobs, Job.bind_eq, Job.pure_eq]
      cases hkey : (request i).idempotencyKey rt with
      | error e => trivial
      | ok key =>
          have hjob : (((request i).queued key).job rt).Does (Stores ((request i).HasKey rt)) fun _ => True :=
            (stores_job _).mono (fun _ hv => hv.mono fun row hrow => ⟨key, hkey, by rw [hrow, queued_idempotencyKey]⟩)
              fun _ h => h
          exact (hjob.bind fun _ => Job.does_ret IntakeResult.processed).wp_committing

theorem response_eq_some {i : ι} {response : IntakeResponse} :
    s.response i = some response ↔ (s.pool.threads (.inl i)).phase = .between (.ret (.answered response)) := by
  unfold Intake.response
  constructor
  · intro h
    split at h
    · cases h; assumption
    · cases h
  · intro h
    rw [h]

section Runs

variable [DecidableEq ι]

/-- What the routes were told still holds, and a step stores rows with the key of its own event only. -/
theorem intake_pool {p : Pool Backend (ι ⊕ ι) IntakeResult}
    (hp : Pool.Reachable (.init (intakeJobs rt request) db w) p) :
    (∀ thread a, (p.threads thread).phase = .between (.ret a) → Told rt request thread a p.shared.store) ∧
      ∀ thread p', p.Step thread p' → ∃ new, p'.shared.store.webhookEvents = p.shared.store.webhookEvents ++ new ∧
        ∀ row ∈ new, MayStore rt request thread row := by
  obtain ⟨htold, hstep⟩ := Pool.committing_run (W := fun thread => Stores (MayStore rt request thread))
    (Q := Told rt request) (fun thread => wp_intake thread) (fun _ v db hv => hv.grow db) (fun _ _ _ _ => told_grows) hp
  refine ⟨htold, fun thread p' hp' => ?_⟩
  rcases hstep thread p' hp' with hsame | ⟨v, hv, hstore⟩
  · exact ⟨[], by rw [hsame, List.append_nil], fun _ hrow => absurd hrow List.not_mem_nil⟩
  · rw [hstore]
    exact hv _

/-! ## The invariant -/

/-- What holds in every state of the intake. -/
structure Sound (rt : Runtime) (request : ι → VerifiedWebhook) (db : Db) (w : World) (s : Intake ι) : Prop where
  pool : Pool.Reachable (.init (intakeJobs rt request) db w) s.pool
  events : s.stored.map (·.2) = s.pool.shared.store.webhookEvents
  authors : ∀ i row, (i, row) ∈ s.stored → i ∈ s.queue.delivered ∧ (request i).HasKey rt row
  known : s.queue.Known fun i => (request i).eventId rt
  sent : ∀ i ∈ s.sent, (∃ key, (request i).idempotencyKey rt = .ok key) ∧
    ∃ j ∈ s.queue.messages, (request j).eventId rt = (request i).eventId rt

theorem sound_init (hempty : db.webhookEvents = []) (clock : Nat) :
    (Intake.init rt request db w clock).Sound rt request db w where
  pool := .refl
  events := hempty.symm
  authors _ _ h := absurd h List.not_mem_nil
  known := DedupQueue.known_empty clock
  sent _ h := absurd h List.not_mem_nil

theorem Sound.advance (h : s.Sound rt request db w) {thread : ι ⊕ ι} {p : Pool Backend (ι ⊕ ι) IntakeResult}
    (hmay : s.mayRun thread = true) (hstep : s.pool.Step thread p) : (s.advance thread p).Sound rt request db w := by
  obtain ⟨new, hnew, hrows⟩ := (intake_pool h.pool).2 thread p hstep
  have hdrop : p.shared.store.webhookEvents.drop s.pool.shared.store.webhookEvents.length = new := by
    rw [hnew, List.drop_left]
  have hstored : (s.advance thread p).stored = s.stored ++ new.map fun row => (thread.elim id id, row) := by
    rw [Intake.advance, hdrop]
  refine { h with pool := h.pool.tail ⟨thread, hstep, trivial⟩, events := ?_, authors := fun i row hmem => ?_ }
  · rw [hstored, List.map_append, List.map_map, h.events]
    exact (congrArg _ (List.map_id new)).trans hnew.symm
  · rw [hstored] at hmem
    rcases List.mem_append.mp hmem with hold | hadded
    · exact h.authors i row hold
    · obtain ⟨row', hrow', heq⟩ := List.mem_map.mp hadded
      obtain ⟨rfl, rfl⟩ := Prod.mk.inj heq
      cases thread with
      | inl j => exact (hrows row' hrow').elim
      | inr j => exact ⟨of_decide_eq_true hmay, hrows row' hrow'⟩

/-- The route of a request that is sent found its key. -/
theorem Sound.key_of_queued (h : s.Sound rt request db w) {i : ι} {event : QueuedWebhook}
    (hresponse : s.response i = some (.queued event)) : ∃ key, (request i).idempotencyKey rt = .ok key :=
  (intake_pool h.pool).1 (.inl i) _ (response_eq_some.mp hresponse)

theorem Sound.accept (h : s.Sound rt request db w) {i : ι} (hkey : ∃ key, (request i).idempotencyKey rt = .ok key) :
    (s.accept rt request i).Sound rt request db w where
  pool := h.pool
  events := h.events
  authors j row hmem := by
    refine ⟨?_, (h.authors j row hmem).2⟩
    rw [Intake.accept, DedupQueue.delivered_take]
    exact (h.authors j row hmem).1
  known := h.known.take
  sent j hj := by
    rcases List.mem_append.mp hj with hold | hnew
    · obtain ⟨hfound, k, hk, hsame⟩ := h.sent j hold
      exact ⟨hfound, k, DedupQueue.mem_take_of_mem hk, hsame⟩
    · obtain rfl := List.mem_singleton.mp hnew
      exact ⟨hkey, DedupQueue.exists_of_take h.known DAY_MS j⟩

theorem Sound.deliver (h : s.Sound rt request db w) {i : ι} {queue : DedupQueue (Option String) ι}
    (hdeliver : s.queue.deliver i = some queue) : ({ s with queue } : Intake ι).Sound rt request db w where
  pool := h.pool
  events := h.events
  authors j row hmem := by
    refine ⟨?_, (h.authors j row hmem).2⟩
    exact DedupQueue.mem_delivered_of_mem hdeliver (h.authors j row hmem).1
  known := h.known.deliver hdeliver
  sent j hj := by
    obtain ⟨hfound, k, hk, hsame⟩ := h.sent j hj
    exact ⟨hfound, k, (DedupQueue.messages_deliver hdeliver).mem_iff.mpr hk, hsame⟩

/-- Every action keeps the invariant. -/
theorem Sound.step (h : s.Sound rt request db w) {a : Action ι} (hstep : s.step rt request a = some s') :
    s'.Sound rt request db w := by
  cases a with
  | run thread =>
      simp only [Intake.step] at hstep
      split_ifs at hstep with hmay
      obtain ⟨p, hp, rfl⟩ := Option.map_eq_some_iff.mp hstep
      exact h.advance hmay (.inl hp)
  | abort thread =>
      simp only [Intake.step] at hstep
      split_ifs at hstep with hmay
      obtain ⟨p, hp, rfl⟩ := Option.map_eq_some_iff.mp hstep
      exact h.advance hmay (.inr hp)
  | send i =>
      simp only [Intake.step] at hstep
      split at hstep
      · rename_i event hresponse
        split_ifs at hstep
        cases hstep
        exact h.accept (h.key_of_queued hresponse)
      · cases hstep
  | deliver i =>
      obtain ⟨queue, hqueue, rfl⟩ := Option.map_eq_some_iff.mp hstep
      exact h.deliver hqueue
  | wait duration =>
      cases hstep
      exact { h with known := h.known.wait }

/-- Actions that are on time keep the ids of the queue apart. -/
theorem distinct_step (h : s.Sound rt request db w) {a : Action ι} (hon : s.OnTime rt request a)
    (hdistinct : s.queue.Distinct fun i => (request i).eventId rt) (hstep : s.step rt request a = some s') :
    s'.queue.Distinct fun i => (request i).eventId rt := by
  cases a with
  | run thread | abort thread =>
      simp only [Intake.step] at hstep
      split_ifs at hstep
      obtain ⟨p, -, rfl⟩ := Option.map_eq_some_iff.mp hstep
      exact hdistinct
  | send i =>
      simp only [Intake.step] at hstep
      split at hstep
      · split_ifs at hstep
        cases hstep
        exact hdistinct.take h.known hon
      · cases hstep
  | deliver i =>
      obtain ⟨queue, hqueue, rfl⟩ := Option.map_eq_some_iff.mp hstep
      exact hdistinct.deliver hqueue
  | wait duration =>
      cases hstep
      exact hdistinct.wait

theorem sound_of_reaches {s₀ : Intake ι} (h₀ : s₀.Sound rt request db w)
    (hdistinct : s₀.queue.Distinct fun i => (request i).eventId rt)
    (hs : Reaches rt request (OnTime rt request) s₀ s) :
    s.Sound rt request db w ∧ s.queue.Distinct fun i => (request i).eventId rt := by
  induction hs with
  | refl => exact ⟨h₀, hdistinct⟩
  | tail _ hstep ih =>
      obtain ⟨a, hon, hstep⟩ := hstep
      exact ⟨ih.1.step hstep, distinct_step ih.1 hon ih.2 hstep⟩

end Runs

end Intake

/-! ## Duplicates -/

theorem code_key_inj {p p' : Provider} {k k' : String} (h : p.code ++ ":" ++ k = p'.code ++ ":" ++ k') :
    p = p' ∧ k = k' := by
  have hlist := congrArg String.toList h
  simp only [String.toList_append] at hlist
  -- The first letters of the providers differ.
  cases p <;> cases p' <;> simp [Provider.code] at hlist
  all_goals exact ⟨rfl, String.toList_inj.mp hlist⟩

theorem VerifiedWebhook.eventId_of_key {r : VerifiedWebhook} {key : String} (h : r.idempotencyKey rt = .ok key) :
    r.eventId rt = some (r.provider.code ++ ":" ++ key) := by
  have hprovider : (r.queued key).provider = r.provider := by
    unfold VerifiedWebhook.queued
    split
    · rename_i hstripe
      exact hstripe.symm
    · rfl
  rw [VerifiedWebhook.eventId, h]
  show some ((r.queued key).provider.code ++ ":" ++ (r.queued key).idempotencyKey) = _
  rw [hprovider, Intake.queued_idempotencyKey]

/-- Events have the same id when they are one event of one provider. -/
theorem VerifiedWebhook.sameEvent_iff {r r' : VerifiedWebhook} {key : String} (h : r.idempotencyKey rt = .ok key) :
    r'.eventId rt = r.eventId rt ↔ r.SameEvent rt r' := by
  rw [eventId_of_key h]
  constructor
  · intro hid
    cases hkey' : r'.idempotencyKey rt with
    | error e =>
        rw [eventId, hkey'] at hid
        cases hid
    | ok key' =>
        rw [eventId_of_key hkey'] at hid
        obtain ⟨hprovider, rfl⟩ := code_key_inj (Option.some.inj hid)
        exact ⟨hprovider.symm, key', h, hkey'⟩
  · rintro ⟨hprovider, key', hkey, hkey'⟩
    obtain rfl := Except.ok.inj (h.symm.trans hkey)
    rw [eventId_of_key hkey', hprovider]

/-- In every run in which different sources have different keys, and what is sent again is sent within a day, requests are
duplicates of events from their own source only, and no event is processed twice. -/
theorem deduplicates [DecidableEq ι] (rt : Runtime) (request : ι → VerifiedWebhook) (db : Db) (w : World) (clock : Nat) (s : Intake ι)
    (hempty : db.webhookEvents = []) (hapart : KeysApart rt request)
    (hs : Intake.Reaches rt request (Intake.OnTime rt request) (Intake.init rt request db w clock) s) :
    s.Deduplicates rt request := by
  obtain ⟨h, hdistinct⟩ := Intake.sound_of_reaches (Intake.sound_init hempty clock) (DedupQueue.distinct_empty clock) hs
  have hsource : ∀ i j row, (j, row) ∈ s.stored → (request i).HasKey rt row → (request i).SameSource (request j) := by
    rintro i j row hmem ⟨key, hkey, hrow⟩
    obtain ⟨-, key', hkey', hrow'⟩ := h.authors j row hmem
    obtain rfl := Option.some.inj (hrow.symm.trans hrow')
    exact hapart i j key hkey hkey'
  have honce : ∀ i ∈ s.queue.delivered, ∀ j ∈ s.queue.delivered, (request i).SameEvent rt (request j) → i = j := by
    intro i hi j hj hsame
    obtain ⟨key, hkey, -⟩ := hsame.2
    exact (List.inj_on_of_nodup_map hdistinct.delivered hj hi ((VerifiedWebhook.sameEvent_iff hkey).mpr hsame)).symm
  refine ⟨hsource, fun i hduplicate => ?_, fun i hi => ?_, fun i hi j row hmem hhas => ?_, honce,
    List.Nodup.of_map _ hdistinct.delivered⟩
  · obtain ⟨row, hrow, hhas⟩ := (Intake.intake_pool h.pool).1 (.inl i) _ (Intake.response_eq_some.mp hduplicate)
    rw [← h.events] at hrow
    obtain ⟨⟨j, row⟩, hmem, rfl⟩ := List.mem_map.mp hrow
    exact ⟨j, row, hmem, hhas, hsource i j row hmem hhas⟩
  · obtain ⟨⟨key, hkey⟩, j, hj, hid⟩ := h.sent i hi
    have hevent := (VerifiedWebhook.sameEvent_iff hkey).mp hid
    obtain ⟨key', hkey', hkeyj⟩ := hevent.2
    exact ⟨j, hj, hevent, hapart i j key' hkey' hkeyj⟩
  · obtain ⟨key, hkey, hrow⟩ := hhas
    obtain ⟨hj, key', hkey', hrow'⟩ := h.authors j row hmem
    obtain rfl := Option.some.inj (hrow.symm.trans hrow')
    exact honce i hi j hj ⟨(hapart i j key hkey hkey').1, key, hkey, hkey'⟩

end Deduplication

/-! ## One event id, two tenants -/

/-- A declined charge of the account of a tenant. -/
def declinedPayload (correlationId eventId : String) : Json :=
  .obj [("chargeId", .str correlationId), ("customerId", .str correlationId), ("eventId", .str eventId),
    ("status", .str "DECLINED")]

def accountsRuntime : Runtime :=
  { signingRuntime .null with
    parseJson := fun rawBody => .ok (declinedPayload (if rawBody = [] then "c7" else "c8")
      (if rawBody = [1] then "2002" else "1001")) }

/-- The charge of tenant 1, or that of tenant 2, with the event ids of their accounts. -/
def declinedCharge (second : Bool) : VerifiedWebhook where
  provider := .vps
  payload := declinedPayload (if second then "c8" else "c7") "1001"
  rawBody := if second then [0] else []
  headers := [("x-callback-signature", if second then "key of 2" else "key of 1")]
  tenantId := if second then 2 else 1

/-- A charge of tenant 2 with another event id. -/
def otherCharge : VerifiedWebhook :=
  { declinedCharge true with payload := declinedPayload "c8" "2002", rawBody := [1] }

/-- The charge of tenant 1 is delivered again before its event is stored, and one of tenant 2 arrives. -/
def chargeAgain (i : Option Bool) : VerifiedWebhook := if i.isNone then otherCharge else declinedCharge false

theorem keysApart_chargeAgain : KeysApart accountsRuntime chargeAgain := by
  have hne : otherCharge.idempotencyKey accountsRuntime ≠ (declinedCharge false).idempotencyKey accountsRuntime := by
    decide +kernel
  rintro (_ | _) (_ | _) key hi hj
  · exact ⟨rfl, rfl⟩
  · exact absurd (hi.trans hj.symm) hne
  · exact absurd (hj.trans hi.symm) hne
  · exact ⟨rfl, rfl⟩

/-- The requests are looked up and sent, and two jobs run. -/
def afterRedelivery : Intake (Option Bool) :=
  (Intake.init accountsRuntime chargeAgain twoTenantsDb .counting 0).exec accountsRuntime chargeAgain
    (fun s a => s.OnTime accountsRuntime chargeAgain a)
    (List.replicate 3 (.run (.inl (some false))) ++ List.replicate 3 (.run (.inl (some true))) ++
      List.replicate 3 (.run (.inl none)) ++ [.send (some false), .send (some true), .send none, .deliver (some false),
        .deliver (some true), .deliver none] ++ List.replicate 30 (.run (.inr none)) ++
          List.replicate 30 (.run (.inr (some false))))

theorem deduplicates_redelivery : afterRedelivery.sent = [some false, some true, none] ∧
    afterRedelivery.stored.map (·.1) = [none, some false] ∧ afterRedelivery.Deduplicates accountsRuntime chargeAgain :=
  ⟨by decide +kernel, by decide +kernel, deduplicates accountsRuntime chargeAgain twoTenantsDb .counting 0 _ rfl
    keysApart_chargeAgain (Intake.reaches_exec (fun _ _ h => of_decide_eq_true h) _ _)⟩

/-- The charge of tenant 2 arrives when the event of tenant 1 is stored. -/
def afterSecond : Intake Bool :=
  (Intake.init accountsRuntime declinedCharge twoTenantsDb .counting 0).exec accountsRuntime declinedCharge
    (fun _ _ => true)
    (List.replicate 3 (.run (.inl false)) ++ [.send false, .deliver false] ++
      List.replicate 30 (.run (.inr false)) ++ List.replicate 3 (.run (.inl true)))

/-- It is answered as a duplicate, and its event is lost. -/
theorem event_of_other_tenant_lost :
    ¬ ∀ (ι : Type) (_ : DecidableEq ι) (rt : Runtime) (request : ι → VerifiedWebhook) (db : Db) (w : World) (clock : Nat)
      (s : Intake ι), db.webhookEvents = [] →
        (∀ i, ((verifyWebhook rt (request i).provider (request i).rawBody (request i).headers).run db w).1 =
          .ok (.ok (request i).payload (request i).tenantId)) →
        Intake.Reaches rt request (fun _ _ => True) (Intake.init rt request db w clock) s → s.Deduplicates rt request := by
  intro h
  have hdedup := h Bool inferInstance accountsRuntime declinedCharge twoTenantsDb .counting 0 afterSecond rfl
    (fun second => by cases second <;> rfl) (Intake.reaches_exec (fun _ _ _ => trivial) _ _)
  have hduplicate : (afterSecond.response true).any (·.isDuplicate) = true := by decide +kernel
  have hauthors : ∀ p ∈ afterSecond.stored, p.1 = false := by decide +kernel
  obtain ⟨response, hresponse, hkind⟩ := (Option.any_eq_true _ _).mp hduplicate
  obtain rfl : response = .duplicate := by cases response <;> first | rfl | cases hkind
  obtain ⟨j, row, hmem, -, hsource⟩ := hdedup.lookUp true hresponse
  obtain rfl : j = false := hauthors _ hmem
  exact absurd hsource.2 (by decide)

end CorpoPay.Settlement
