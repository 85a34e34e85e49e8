import CorpoPay.Settlement.Lemmas.Intents
import CorpoPay.Settlement.Theorems.ChargedAmount
import CorpoPay.Transaction.Alone

/-!
# Holds and the timeout of the poller

The poller knows a hold from the metadata of the intent. Only what the merchant asked for is written there, a hold that
the verdict on the charge brought about is not.
-/

namespace CorpoPay.Settlement

open Transaction (Course Pool Shared)
open Transaction.Job (Does Does.amid yields_bind yields_ret)

/-- The merchant asks for a hold. -/
def CreationRequest.asksHold : CreationRequest → Bool
  | .direct _ body => body.isPreauth.getD false
  | .link _ _ => false

def Db.Failed (db : Db) (id : Id) : Prop := ∃ r ∈ db.paymentIntents, r.id = id ∧ r.status = .failed

/-- The provider has answered that the payment failed. -/
def Reported (σ : Shared Backend) (provider : Provider) (id : Id) : Prop :=
  ∃ n < σ.world.clock, ∃ r ∈ σ.store.paymentIntents, r.id = id ∧
    σ.world.oracle n (.queryTransactionStatus provider (r.providerRef.getD "")) = .ok .failed

/-- Whatever requests run beside each other, a poller that marks the intent as failed was told so by the provider. -/
def Db.NeverTimedOut (rt : Runtime) (db : Db) (id : Id) : Prop :=
  ∀ {ι : Type} [DecidableEq ι] (requests : ι → Request) (w : World) (p p' : Pool Backend ι Unit) (i : ι)
    (event : PollStatus) (rounds : Nat), Pool.Reachable (Pool.init (fun i => (requests i).job rt) db w) p →
      requests i = .poll event rounds → p.Step i p' → p'.shared.store.Failed id →
        p.shared.store.Failed id ∨ Reported p.shared event.provider id

section Held

variable {rt : Runtime} {db : Db} {id : Id} {σ : Shared Backend}

/-- The metadata of the intent says that it is held. -/
def Db.KnownHeld (db : Db) (id : Id) : Prop := ∀ r ∈ db.paymentIntents, r.id = id → r.isPreauth = true

theorem PaymentIntent.isPreauth_eq {r r' : PaymentIntent} (h : r'.metadata = r.metadata) : r'.isPreauth = r.isPreauth := by
  simp only [PaymentIntent.isPreauth, h]

theorem KeepsTerms.knownHeld {v : Db → Db} (h : KeepsTerms v) (hdb : db.KnownHeld id) : (v db).KnownHeld id := by
  obtain ⟨⟨f, hintents, hf⟩, -⟩ := h
  intro r' hr' hid
  rw [hintents] at hr'
  obtain ⟨r, hr, rfl⟩ := List.mem_map.mp hr'
  rw [PaymentIntent.isPreauth_eq (by rw [hf r] : (f r).metadata = r.metadata)]
  exact hdb r hr (by rw [hf r] at hid; exact hid)

/-- The status of another intent. -/
theorem SetsStatus.failed {i : Id} {v : Db → Db} (h : SetsStatus i v) (hne : i ≠ id) (hfailed : (v db).Failed id) :
    db.Failed id := by
  obtain ⟨r', hr', hid, hstatus⟩ := hfailed
  obtain h | ⟨status, h⟩ := h
  · rw [h.paymentIntents, List.map_id] at hr'
    exact ⟨r', hr', hid, hstatus⟩
  · rw [h.paymentIntents] at hr'
    obtain ⟨r, hr, rfl⟩ := List.mem_map.mp hr'
    split_ifs at hid hstatus with hri
    · exact absurd (hri.symm.trans hid) hne
    · exact ⟨r, hr, hid, hstatus⟩

/-- The runs in which the metadata of the intent says that it is held. -/
def heldCourse (id : Id) : Course Backend :=
  ⟨fun _ _ => True, fun σ => σ.store.KnownHeld id, fun _ => trivial, fun _ _ => trivial⟩

/-- The step does not mark the intent as failed. -/
def NotMarked (id : Id) (σ σ' : Shared Backend) : Prop := σ'.store.Failed id → σ.store.Failed id

theorem amid_foundHeld (event : PollStatus) (hσ : σ.store.KnownHeld id) :
    (stepRun DEFAULT_RETRIES (selectOnce (·.paymentIntent event.intentId))).Amid (heldCourse id) (fun _ _ => True)
      (fun σ σ' _ => NotMarked id σ σ') (fun _ _ => True)
      (Transaction.Job.Returns fun found _ => ∀ r ∈ found, r.id = id → r.isPreauth = true) σ := by
  refine Transaction.Job.Amid.retry (J := fun _ => True) (D := NotMarked id) _ hσ trivial (fun _ _ _ h => h) fun σ₁ _ _ => ?_
  refine Transaction.Job.Amid.get (fun _ _ hfailed => hfailed) (fun σ₂ hr₂ _ _ => ?_) fun e _ _ => ⟨trivial, ?_⟩
  · exact Transaction.Job.returns_ok fun r hr hid => hr₂.2 r (List.mem_of_find?_eq_some hr) hid
  · exact Transaction.Job.returns_error e

theorem amid_pollRound (event : PollStatus) (started : Nat) (hσ : σ.store.KnownHeld id) :
    (pollRound rt event started).Amid (heldCourse id) (fun _ _ => True) (fun σ σ' _ => NotMarked id σ σ') (fun _ _ => True)
      (fun _ _ => True) σ := by
  refine Transaction.Job.amid_bind hσ (fun _ _ => trivial) (amid_foundHeld event hσ) (fun found σ₁ hr hheld _ => ?_)
    fun _ _ _ => trivial
  cases found with
  | none => exact fun _ _ => trivial
  | some intent =>
      dsimp only
      split_ifs
      · exact fun _ _ => trivial
      · by_cases hid : intent.id = id
        · rw [pollOpen, if_pos (hheld intent rfl hid)]
          exact fun _ _ => trivial
        · exact (does_pollOpen event started intent).amid (K := fun _ => True) (fun _ _ _ _ => trivial) trivial
            (fun v σ₂ hv _ hσ₂ _ => ⟨trivial, hv.keepsTerms.knownHeld hσ₂⟩) (fun v σ₂ _ hv _ _ _ _ => hv.failed hid)
            (fun _ _ _ _ hσ₂ _ => ⟨trivial, hσ₂⟩) fun _ _ _ _ => trivial

theorem amid_paymentPoller (event : PollStatus) (rounds : Nat) :
    (paymentPoller rt event rounds).Amid (heldCourse id) (fun _ _ => True) (fun σ σ' _ => NotMarked id σ σ')
      (fun _ _ => True) (fun _ _ => True) σ := by
  have hloop : ∀ started σ, σ.store.KnownHeld id → (pollRounds rt event started rounds).Amid (heldCourse id)
      (fun _ _ => True) (fun σ σ' _ => NotMarked id σ σ') (fun _ _ => True) (fun _ _ => True) σ := by
    intro started
    induction rounds with
    | zero => exact fun _ _ _ _ => trivial
    | succ rounds ih =>
        intro σ hσ
        refine Transaction.Job.Amid.bind hσ (fun _ _ => trivial) (amid_pollRound event started hσ) (fun goesOn σ₂ hr₂ _ _ => ?_)
          fun _ _ _ _ => trivial
        dsimp only
        split_ifs
        · exact ih σ₂ hr₂.2
        · exact fun _ _ => trivial
  exact fun σ₁ hr₁ _ _ => ⟨⟨trivial, hr₁.2⟩, hloop _ _ hr₁.2⟩

/-- A poller never marks an intent that is known to be held. -/
theorem Db.KnownHeld.neverTimedOut (h : db.KnownHeld id) : db.NeverTimedOut rt id := by
  intro ι _ requests w p p' i event rounds hp hpoll hstep hfailed
  have hrun : p.Amid (heldCourse id) (fun _ _ _ => True)
      (fun i σ σ' _ => ∀ event rounds, requests i = .poll event rounds → NotMarked id σ σ') (fun _ _ _ => True)
      (fun _ _ _ => True) := by
    refine Pool.amid_run h (fun j => ?_) (fun _ _ _ _ _ => ⟨trivial, fun _ _ => trivial⟩) hp
    by_cases hpoller : ∃ event rounds, requests j = .poll event rounds
    · obtain ⟨event, rounds, hrequest⟩ := hpoller
      rw [hrequest]
      exact (amid_paymentPoller event rounds).mono (fun _ _ _ hmarked _ _ _ => hmarked) fun _ _ _ _ => trivial
    · refine (keepsTerms_request (requests j)).amid (K := fun _ => True) (fun _ _ _ _ => trivial) trivial
        (fun v σ hv _ hσ _ => ⟨trivial, hv.knownHeld hσ⟩) (fun _ _ _ _ _ _ _ _ event rounds hrequest => ?_)
        (fun _ _ _ _ hσ _ => ⟨trivial, hσ⟩) fun _ _ _ _ => trivial
      exact absurd ⟨event, rounds, hrequest⟩ hpoller
  obtain ⟨-, -, hsame | ⟨j, -, hmarked⟩⟩ := hrun.step hstep ⟨trivial, fun _ _ => trivial⟩
  · exact .inl (hsame ▸ hfailed)
  · exact .inl (hmarked event rounds hpoll hfailed)

/-! ## A hold that is not known -/

/-- A day passes with every question. -/
def World.daily : World :=
  { World.counting with
    oracle := fun n q =>
      match q with
      | .now => n * MAX_DURATION_MS_STRIPE
      | q => World.counting.oracle n q }

theorem maxDurationFor_le (provider : Provider) : maxDurationFor provider ≤ MAX_DURATION_MS_STRIPE := by
  unfold maxDurationFor
  split_ifs <;> decide

theorem Db.Sole.paymentIntent {row : PaymentIntent} (h : db.Sole row) : db.paymentIntent row.id = some row := by
  unfold Db.paymentIntent
  cases hfound : db.paymentIntents.find? (·.id = row.id) with
  | none => simpa using List.find?_eq_none.mp hfound row h.1
  | some found => rw [h.2 found (List.mem_of_find?_eq_some hfound) (by simpa using List.find?_some hfound)]

/-- The status of the row is set. -/
theorem setStatus_run {row : PaymentIntent} (hrow : db.Sole row) (status : PaymentIntentStatus) (w : World) :
    ∃ updated db', (transaction (PaymentIntent.setStatus row.id status)).run db w = (.ok updated, db', w) ∧
      ∃ r ∈ db'.paymentIntents, r.id = row.id ∧ r.status = status := by
  have hset : Transaction.Tx.Succeeds (I := Backend) (fun _ db' w' => w' = w ∧ ∃ r ∈ db'.paymentIntents, r.id = row.id ∧
      r.status = status) (PaymentIntent.setStatus row.id status) db w := by
    refine succeeds_setStatus hrow.paymentIntent ⟨rfl, { row with status }, List.mem_map.mpr ⟨row, hrow.1, ?_⟩, rfl, rfl⟩
    exact if_pos rfl
  obtain ⟨updated, db', w', hrun, rfl, hfound⟩ := hset.run
  exact ⟨updated, db', by rw [Transaction.Job.run_transaction, hrun], hfound⟩

/-- The poller of a waiting intent that is not known to be held, a day later. -/
theorem paymentPoller_run (rt : Runtime) {row : PaymentIntent} (hrow : db.Sole row) (hstatus : row.status = .requiresAction)
    (hheld : row.isPreauth = false) :
    ∃ db' w', (paymentPoller rt ⟨row.id, row.provider, row.tenantId⟩ 1).run db World.daily = (.ok (), db', w') ∧
      db'.Failed row.id := by
  let w₁ : World := (World.daily.reply .now).2
  let w₂ : World := (w₁.reply .now).2
  obtain ⟨updated, db', hset, hfailed⟩ := setStatus_run hrow .failed w₂
  have hfound : (stepRun DEFAULT_RETRIES (selectOnce (·.paymentIntent row.id))).run db w₁ = (.ok (some row), db, w₁) := by
    rw [← hrow.paymentIntent]
    exact Transaction.Job.run_retry_ok (Transaction.Job.run_get _ _ _) _
  have hnow : (@Transaction.Job.query Backend .now).run db w₁ = (.ok (w₁.reply .now).1, db, w₂) := rfl
  have hlate : 0 + maxDurationFor row.provider ≤ (w₁.reply .now).1 := by
    rw [Nat.zero_add]
    exact (maxDurationFor_le _).trans (by decide)
  have hopen : (pollOpen rt ⟨row.id, row.provider, row.tenantId⟩ 0 row).run db w₁ = (.ok false, db', w₂) := by
    rw [pollOpen, if_neg (by rw [hheld]; decide)]
    refine (Transaction.Job.run_bind_ok hnow).trans ?_
    rw [if_pos hlate]
    exact (Transaction.Job.run_bind_ok (Transaction.Job.run_retry_ok hset _)).trans rfl
  have hround : (pollRound rt ⟨row.id, row.provider, row.tenantId⟩ 0).run db w₁ = (.ok false, db', w₂) := by
    refine (Transaction.Job.run_bind_ok hfound).trans ?_
    dsimp only
    rw [if_neg (by rw [hstatus]; decide)]
    exact hopen
  exact ⟨db', w₂, Transaction.Job.run_bind_ok hround, hfailed⟩

/-- An intent that is not known to be held is marked as failed when a day passes. -/
theorem Db.Sole.timedOut {row : PaymentIntent} (hrow : db.Sole row) (hstatus : row.status = .requiresAction)
    (hheld : row.isPreauth = false) : ¬ db.NeverTimedOut rt row.id := by
  intro h
  let requests : Unit → Request := fun _ => .poll ⟨row.id, row.provider, row.tenantId⟩ 1
  have hsilent : ∀ q, Pool.Reachable (Pool.init (fun i => (requests i).job rt) db World.daily) q →
      q.shared.world.oracle = World.daily.oracle := fun q hq =>
    Pool.inv_of_does (J := fun σ : Shared Backend => σ.world.oracle = World.daily.oracle)
      (fun i => keepsTerms_request (requests i)) (fun _ _ _ hσ => hσ) (fun _ _ _ hσ => hσ) rfl hq
  have hopen : ¬ db.Failed row.id := by
    rintro ⟨r, hr, hid, hfailed⟩
    rw [hrow.2 r hr hid, hstatus] at hfailed
    cases hfailed
  obtain ⟨db', w', hrun, hfailed⟩ := paymentPoller_run rt hrow hstatus hheld
  obtain ⟨p, hp, hshared⟩ := Pool.exists_of_run (fun i => (requests i).job rt) () hrun
  obtain ⟨q, i, q', hq, hstep, hbefore, hafter⟩ :=
    Pool.ReachableIf.exists_step (P := fun q : Pool Backend Unit Unit => q.shared.store.Failed row.id) hp hopen
      (by rw [hshared]; exact hfailed)
  rcases h requests World.daily q q' i _ _ hq rfl hstep hafter with hfailed | ⟨n, -, r, -, -, hreported⟩
  · exact hbefore hfailed
  · rw [hsilent q hq] at hreported
    cases hreported

/-! ## Creation -/

theorem stored_isPreauth {row : PaymentIntent} {body : CreateIntentBody} (h : row.metadata = some body.stored) :
    row.isPreauth = body.isPreauth.getD false := by
  simp only [PaymentIntent.isPreauth, h, CreateIntentBody.stored, List.foldl_cons, List.foldl_nil, find?_setField,
    if_true]
  cases body.isPreauth.getD false <;> rfl

/-- A hold is known when the merchant asked for it. -/
theorem yields_held (request : CreationRequest) {es : List CheckoutSession} :
    (request.job rt).Yields checkouts (fun created db' es' => created.idempotent = false → ∃ session,
      es' = es ++ [session] ∧ (session.isPreauth = true → ∃ row, db'.Sole row ∧ row.id = created.intentId ∧
        row.status = .requiresAction ∧ row.isPreauth = request.asksHold)) db es := by
  cases request with
  | direct t body =>
      refine (yields_createRoute t body).mono fun r db' es' h created hr hnew => ?_
      obtain ⟨session, -, -, hes, row, hrow, hid, hstatus, -, -, hmetadata⟩ := h created hr hnew
      exact ⟨session, hes, fun _ => ⟨row, hrow, hid, hstatus, stored_isPreauth hmetadata⟩⟩
  | link slug body =>
      refine yields_bind (yields_payLink slug body) ?_
      rintro paid db' es' ⟨-, link, session, -, -, -, metadata, hheld, hes, row, hrow, hid, hstatus, -, -, hmetadata⟩
      refine yields_ret fun _ => ⟨session, hes, fun hpreauth => ⟨row, hrow, hid, hstatus, ?_⟩⟩
      rw [PaymentIntent.isPreauth, hmetadata, hheld hpreauth]
      rfl

/-- A hold is never timed out exactly when the merchant asked for it. -/
theorem neverTimedOut_iff {request : CreationRequest} {db' : Db} {w w' : World} {created : CreatedIntent}
    (hrun : (request.job rt).run db w = (.ok created, db', w')) (hnew : created.idempotent = false) :
    ∃ session, w'.charges = w.charges ++ [session] ∧
      (session.isPreauth = true → (db'.NeverTimedOut rt created.intentId ↔ request.asksHold = true)) := by
  have hyields : (request.job rt).Yields checkouts _ db [] := yields_held request
  obtain ⟨new, hcharges, h⟩ := hyields.run hrun
  obtain ⟨session, hes, hheld⟩ := h created rfl hnew
  obtain rfl := hes
  refine ⟨session, hcharges, fun hpreauth => ?_⟩
  obtain ⟨row, hrow, hid, hstatus, hknown⟩ := hheld hpreauth
  rw [← hid, ← hknown]
  constructor
  · intro h
    by_contra hunknown
    exact hrow.timedOut hstatus (Bool.eq_false_iff.mpr hunknown) h
  · intro h
    exact Db.KnownHeld.neverTimedOut fun r hr hid => by rw [hrow.2 r hr hid, h]

end Held

/-! ## A hold for review -/

/-- Every charge has to be reviewed. -/
def World.reviewing : World :=
  { World.counting with
    oracle := fun n q =>
      match q with
      | .scoreRisk _ _ => .review
      | q => World.counting.oracle n q }

def reviewedBody (isPreauth : Option Bool) : CreateIntentBody where
  provider := .vps
  amount := 20000
  currency := "MAD"
  reference := "r"
  description := "a hold"
  isPreauth
  metadata := none
  isWallet := false
  amount_pos := by decide

def reviewedRun (isPreauth : Option Bool) : Except Failure CreatedIntent × Db × World :=
  ((CreationRequest.direct 1 (reviewedBody isPreauth)).job checkoutRuntime).run installmentDb .reviewing

theorem reviewedRun_eq (isPreauth : Option Bool) :
    reviewedRun isPreauth = (.ok ⟨2, false⟩, (reviewedRun isPreauth).2.1, (reviewedRun isPreauth).2.2) := by
  have hok : (reviewedRun isPreauth).1.toOption = some ⟨2, false⟩ := by
    rcases isPreauth with _ | _ | _ <;> decide +kernel
  exact Prod.ext (Except.of_toOption hok) rfl

theorem neverTimedOut_asked : ∃ session, (reviewedRun (some true)).2.2.charges = World.reviewing.charges ++ [session] ∧
    (session.isPreauth = true → ((reviewedRun (some true)).2.1.NeverTimedOut checkoutRuntime 2 ↔
      (CreationRequest.direct 1 (reviewedBody (some true))).asksHold = true)) :=
  neverTimedOut_iff (reviewedRun_eq (some true)) rfl

/-- The charge is held for review, and a day later the poller marks the intent as failed. -/
theorem not_neverTimedOut : ¬ ∀ {rt : Runtime} {request : CreationRequest} {db db' : Db} {w w' : World}
    {created : CreatedIntent}, (request.job rt).run db w = (.ok created, db', w') → created.idempotent = false →
      ∃ session, w'.charges = w.charges ++ [session] ∧
        (session.isPreauth = true → db'.NeverTimedOut rt created.intentId) := by
  intro h
  obtain ⟨session, hcharges, hnever⟩ := h (reviewedRun_eq none) rfl
  have hheld : (reviewedRun none).2.2.charges.map (·.isPreauth) = [true] := by decide +kernel
  rw [hcharges] at hheld
  have hpreauth : session.isPreauth = true := by simpa [World.reviewing, World.counting] using hheld
  have hyields : ((CreationRequest.direct 1 (reviewedBody none)).job checkoutRuntime).Yields checkouts _ installmentDb [] :=
    yields_held _
  obtain ⟨new, hnew, hopened⟩ := hyields.run (reviewedRun_eq none)
  obtain ⟨session', hes, hrow⟩ := hopened _ rfl rfl
  obtain rfl := hes
  have hsame : World.reviewing.charges ++ [session'] = World.reviewing.charges ++ [session] := hnew.symm.trans hcharges
  obtain rfl : session' = session := (List.cons.inj (List.append_cancel_left hsame)).1
  obtain ⟨row, hsole, hid, hstatus, hknown⟩ := hrow hpreauth
  exact hsole.timedOut hstatus hknown (hid ▸ hnever hpreauth)

end CorpoPay.Settlement
