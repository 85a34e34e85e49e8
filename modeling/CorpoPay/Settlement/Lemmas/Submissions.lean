import CorpoPay.Data.Newest
import CorpoPay.Settlement.Lemmas.ChargeTerms
import CorpoPay.Settlement.Lemmas.Checkout
import CorpoPay.Transaction.CallOnce

/-!
# Submissions with one reference

A submission of an intent looks for an open intent with its reference, and opens a session when it finds none. What a
submission knows at each point of its way is a `Place`.
-/

namespace CorpoPay.Settlement

open Transaction.Tx
open Transaction (Phase Local Shared)

section Reference

variable (rt : Runtime) (t : Id) (reference : String)

/-! ## Open intents with the reference -/

def PaymentIntent.isOpen (r : PaymentIntent) : Bool := r.status ∉ PaymentIntentStatus.TERMINAL

def PaymentIntent.isOpenWith (r : PaymentIntent) : Bool :=
  r.tenantId = t && r.isOpen && r.hasReference rt (.str reference)

def Db.openWith (db : Db) : List PaymentIntent := db.paymentIntents.filter (PaymentIntent.isOpenWith rt t reference)

def Db.newestOpen (db : Db) : Option PaymentIntent := Data.newest PaymentIntent.createdAt (db.openWith rt t reference)

/-- The intent is at most five minutes old. -/
def PaymentIntent.isRecent (now : Nat) (r : PaymentIntent) : Bool := now - 5 * 60 * 1000 ≤ r.createdAt

/-- The lookup finds the newest open intent, when it is recent. -/
theorem recentIntent_eq (db : Db) (now : Nat) :
    db.recentIntent rt t reference now = (db.newestOpen rt t reference).filter (PaymentIntent.isRecent now) := by
  have hlater : ∀ a b : PaymentIntent, a.createdAt ≤ b.createdAt → a.isRecent now = true → b.isRecent now = true := by
    intro a b hle ha
    simp only [PaymentIntent.isRecent, decide_eq_true_eq] at ha ⊢
    exact ha.trans hle
  rw [Db.newestOpen, ← Data.newest_filter hlater, Db.openWith, List.filter_filter]
  refine congrArg (Data.newest PaymentIntent.createdAt) (List.filter_congr fun r _ => ?_)
  simp only [PaymentIntent.isOpenWith, PaymentIntent.isOpen, PaymentIntent.isRecent]
  cases decide (r.tenantId = t) <;> cases decide (r.status ∉ PaymentIntentStatus.TERMINAL) <;>
    cases decide (now - 5 * 60 * 1000 ≤ r.createdAt) <;> rfl

/-! ## What others leave as it is -/

/-- An intent but for its status and its verdict. -/
def PaymentIntent.sketch (r : PaymentIntent) : PaymentIntent := { r with status := .created, riskVerdict := none }

/-- The open intents with the reference stay but for their statuses and verdicts, and so do the open intents of the
tenant whose sessions are `opened` for the reference. -/
structure Db.Leaves (opened : CheckoutSession → Prop) (db db' : Db) : Prop where
  same : (db'.openWith rt t reference).map PaymentIntent.sketch = (db.openWith rt t reference).map PaymentIntent.sketch
  inHand : ∀ session, opened session → session.reference = reference → ∀ r ∈ db.paymentIntents, r.tenantId = t →
    r.isOpen = true → r.correlationId = session.correlationId →
      ∃ r' ∈ db'.paymentIntents, r'.isOpen = true ∧ r'.sketch = r.sketch

variable {rt t reference} {opened : CheckoutSession → Prop} {db db' : Db}

theorem Db.Leaves.mem (h : db.Leaves rt t reference opened db') {r : PaymentIntent}
    (hr : r ∈ db'.openWith rt t reference) : ∃ r₀ ∈ db.openWith rt t reference, r₀.sketch = r.sketch :=
  List.mem_map.mp (h.same ▸ List.mem_map_of_mem hr)

theorem Db.Leaves.newest (h : db.Leaves rt t reference opened db') :
    (db'.newestOpen rt t reference).map PaymentIntent.sketch = (db.newestOpen rt t reference).map PaymentIntent.sketch := by
  have hdate : ∀ r : PaymentIntent, r.sketch.createdAt = r.createdAt := fun _ => rfl
  rw [Db.newestOpen, Db.newestOpen, ← Data.newest_map hdate, h.same, Data.newest_map hdate]

theorem Db.Leaves.recent (h : db.Leaves rt t reference opened db') (now : Nat) :
    (db'.recentIntent rt t reference now).map PaymentIntent.sketch =
      (db.recentIntent rt t reference now).map PaymentIntent.sketch := by
  have hfilter : ∀ o : Option PaymentIntent, (o.filter (PaymentIntent.isRecent now)).map PaymentIntent.sketch =
      (o.map PaymentIntent.sketch).filter (PaymentIntent.isRecent now) := by
    intro o
    cases o with
    | none => rfl
    | some r =>
        have hsketch : r.sketch.isRecent now = r.isRecent now := rfl
        cases hr : r.isRecent now <;> simp [Option.filter_some, hsketch, hr]
  rw [recentIntent_eq, recentIntent_eq, hfilter, hfilter, h.newest]

/-! ## What a submission is answered -/

/-- The session of the intent is what the body asks for. -/
structure PaymentIntent.Serves (r : PaymentIntent) (body : CreateIntentBody) : Prop where
  provider : r.provider = body.provider
  mode : r.isWallet = body.isWallet
  amount : r.metadataOr "amount" (.num 0) = .num body.amount
  currency : r.metadataOr "currency" (.str Currency.mad.code) = .str body.currency

theorem PaymentIntent.Serves.of_sketch {r r' : PaymentIntent} {body : CreateIntentBody} (h : r.Serves body)
    (hr : r'.sketch = r.sketch) : r'.Serves body := by
  have hprovider : r'.provider = r.provider := congrArg (·.provider) hr
  have hdata : r'.providerData = r.providerData := congrArg (·.providerData) hr
  have hmetadata : r'.metadata = r.metadata := congrArg (·.metadata) hr
  refine ⟨hprovider.trans h.provider, ?_, ?_, ?_⟩
  · rw [← h.mode, PaymentIntent.isWallet, PaymentIntent.isWallet, hdata]
  · rw [← h.amount, PaymentIntent.metadataOr, PaymentIntent.metadataOr, hmetadata]
  · rw [← h.currency, PaymentIntent.metadataOr, PaymentIntent.metadataOr, hmetadata]

variable (rt t reference) in
/-- The newest open intent is the one of the answer. -/
structure Db.Answers (db : Db) (body : CreateIntentBody) (answer : CreatedIntent) (r : PaymentIntent) : Prop where
  newest : db.newestOpen rt t reference = some r
  answered : r.id = answer.intentId
  cached : answer.idempotent = true → r.Serves body
  created : answer.idempotent = false → r.provider = body.provider ∧ r.metadata = some body.stored

theorem Db.Answers.leaves {body : CreateIntentBody} {answer : CreatedIntent} {r : PaymentIntent}
    (hr : db.Answers rt t reference body answer r) (h : db.Leaves rt t reference opened db') :
    ∃ r', db'.Answers rt t reference body answer r' := by
  have hnewest := h.newest
  rw [hr.newest, Option.map_some] at hnewest
  obtain ⟨r', hr', hsketch⟩ := Option.map_eq_some_iff.mp hnewest
  have hid : r'.id = r.id := congrArg (·.id) hsketch
  have hprovider : r'.provider = r.provider := congrArg (·.provider) hsketch
  have hmetadata : r'.metadata = r.metadata := congrArg (·.metadata) hsketch
  refine ⟨r', hr', hid.trans hr.answered, fun hcached => (hr.cached hcached).of_sketch hsketch, fun hcreated => ?_⟩
  obtain ⟨hp, hm⟩ := hr.created hcreated
  exact ⟨hprovider.trans hp, hmetadata.trans hm⟩

/-! ## The job of a submission -/

/-- `POST /payment-intents`, beside jobs with other results. -/
def submitIntent (rt : Runtime) (t : Id) (body : CreateIntentBody) : Job (Option CreatedIntent) :=
  (createIntent rt t body).bind fun created => .ret (some created)

def afterLook (rt : Runtime) (t : Id) (body : CreateIntentBody) (config : ProviderConfig)
    (existing : Option PaymentIntent) : Job (Option CreatedIntent) :=
  match existing.filter (·.isWallet = body.isWallet) with
  | some existing => .ret (some { intentId := existing.id, idempotent := true })
  | none => (openIntent rt t body config).bind fun created => .ret (some created)

def afterConfig (rt : Runtime) (t : Id) (body : CreateIntentBody) (config : Option ProviderConfig) :
    Job (Option CreatedIntent) :=
  match config.filter (·.status = .connected) with
  | none => .throw (.appError 503 "PROVIDER_UNAVAILABLE"
      (if config.any (·.status = .disabled) then "Provider " ++ body.provider.code ++ " is disabled"
        else "Provider " ++ body.provider.code ++ " is not configured or not connected"))
  | some config => .ask .now fun now =>
      (selectOnce (·.recentIntent rt t body.reference now) : Job _).bind (afterLook rt t body config)

theorem submitIntent_eq (rt : Runtime) (t : Id) (body : CreateIntentBody) :
    submitIntent rt t body = (selectOnce (·.providerConfig t body.provider) : Job _).bind (afterConfig rt t body) := by
  rw [submitIntent, createIntent, Transaction.Job.bind_eq, Transaction.Job.bind_assoc]
  refine congrArg _ (funext fun config => ?_)
  rw [afterConfig]
  cases config.filter (·.status = .connected) with
  | none => rfl
  | some config =>
      refine congrArg (Transaction.Job.ask (I := Backend) .now) (funext fun now => ?_)
      refine (Transaction.Job.bind_assoc (selectOnce (·.recentIntent rt t body.reference now) : Job _) _ _).trans ?_
      refine congrArg _ (funext fun existing => ?_)
      rw [afterLook]
      cases existing.filter (·.isWallet = body.isWallet) with
      | none => rfl
      | some existing => rfl

/-! ## The way of a submission -/

section Way

variable (t : Id) (reference : String) (body : CreateIntentBody)

/-- The clock does not go back. -/
def World.Forward (w : World) : Prop := ∀ m n, m ≤ n → w.oracle m .now ≤ w.oracle n .now

/-- What a clock that has reached `n` answers. -/
def Timely (n : Nat) : (q : Query) → Answer q → Prop
  | .now, (answer : Nat) => n ≤ answer
  | _, _ => True

/-- The transaction adds `row`. -/
structure Inserts (n : Nat) (row : PaymentIntent) (v : Db → Db) : Prop where
  adds : ∀ db, (v db).paymentIntents = db.paymentIntents ++ [row]
  tenant : row.tenantId = t
  status : row.status = .created
  provider : row.provider = body.provider
  timely : n ≤ row.createdAt

/-- The transaction records the session of an intent. -/
def Records (id : Id) (v : Db → Db) : Prop :=
  ∃ f : PaymentIntent → PaymentIntent,
    (∀ db, (v db).paymentIntents = db.paymentIntents.map fun r => if r.id = id then f r else r) ∧
    ∀ r, f r =
      { r with
        status := .requiresAction
        providerRef := (f r).providerRef
        providerData := (f r).providerData
        metadata := some body.stored }

/-- The last transaction of a submission, which records the session and answers with the intent. -/
inductive RecordingAt (id : Id) : Phase Backend (Option CreatedIntent) → Prop
  | between {β : Type} {b : Tx β} {k : Except Failure β → Job (Option CreatedIntent)}
      (hwrites : b.Writes (fun v _ => Records body id v) fun db => db) (hok : ∀ x, k (.ok x) = .ret (some ⟨id, false⟩))
      (herror : ∀ e, k (.error e) = .throw e) : RecordingAt id (.between (.txn b k))
  | inside {β : Type} {w : Db → Db} {b : Tx β} {k : Except Failure β → Job (Option CreatedIntent)}
      (hwrites : b.Writes (fun v _ => Records body id v) w) (hok : ∀ x, k (.ok x) = .ret (some ⟨id, false⟩))
      (herror : ∀ e, k (.error e) = .throw e) : RecordingAt id (.inside w b k)

/-- The submission is about to open the session of `row`. -/
inductive CallingAt (row : PaymentIntent) : Phase Backend (Option CreatedIntent) → Prop
  | intro {session : CheckoutSession} {k : Answer (.createCheckoutSession session) → Job (Option CreatedIntent)}
      (hreference : session.reference = reference) (hcorrelation : row.correlationId = session.correlationId)
      (herror : ∀ message, ∃ e, k (.error message) = .throw e)
      (hok : ∀ result, RecordingAt body row.id (.between (k (.ok result)))) :
      CallingAt row (.between (.ask (.createCheckoutSession session) k))

/-- What a transaction on the way to the session leads to: nothing is written yet, or the intent is there. -/
def Made (n : Nat) (making : Prop) (v : Db → Db) (j : Job (Option CreatedIntent)) : Prop :=
  (∀ db, v db = db) ∧ making ∨
    ∃ row, Inserts t body n row v ∧ (CallingAt reference body row (.between j) ∨ ∃ e, j = .throw e)

/-- The submission has found no intent. -/
def Making (n : Nat) : Job (Option CreatedIntent) → Prop
  | .ret _ => False
  | .throw _ => True
  | .txn b k => b.WritesIf (Timely n) (fun v x => Made t reference body n (Making n (k (.ok x))) v (k (.ok x))) (fun db => db) ∧
      ∀ e, k (.error e) = .throw e
  | .ask q k => (∀ session, q ≠ .createCheckoutSession session) ∧ ∀ a, Timely n q a → Making n (k a)

def MakingAt (n : Nat) : Phase Backend (Option CreatedIntent) → Prop
  | .between j => Making t reference body n j
  | .inside w b k =>
      b.WritesIf (Timely n) (fun v x => Made t reference body n (Making t reference body n (k (.ok x))) v (k (.ok x))) w ∧
        ∀ e, k (.error e) = .throw e

variable {t reference body} in
theorem MakingAt.step {n : Nat} {ℓ ℓ' : Local Backend} {σ σ' : Shared Backend} {ph ph' : Phase Backend (Option CreatedIntent)}
    (h : MakingAt t reference body n ph) (hstep : Phase.Step ℓ σ ph ℓ' σ' ph')
    (hanswers : ∀ q, Timely n q (σ.world.reply q).1) :
    σ'.store = σ.store ∧ MakingAt t reference body n ph' ∨
      ∃ row v, Inserts t body n row v ∧ σ' = σ.withStore (v σ.store) ∧
        (CallingAt reference body row ph' ∨ ∃ e, ph' = .between (.throw e)) := by
  cases hstep with
  | begin => exact .inl ⟨rfl, h⟩
  | call => exact .inl ⟨rfl, h.2 _ (hanswers _)⟩
  | commit =>
      rcases h.1 with ⟨hsame, hmaking⟩ | ⟨row, hinserts, hnext⟩
      · exact .inl ⟨hsame _, hmaking⟩
      · refine .inr ⟨row, _, hinserts, rfl, hnext.imp_right ?_⟩
        rintro ⟨e, he⟩
        exact ⟨e, congrArg _ he⟩
  | rollback =>
      refine .inl ⟨rfl, ?_⟩
      show Making t reference body n _
      rw [h.2]
      trivial
  | read => exact .inl ⟨rfl, h.1 _, h.2⟩
  | write => exact .inl ⟨rfl, h⟩
  | lock => exact .inl ⟨rfl, h⟩
  | query => exact .inl ⟨rfl, h.1 _ (hanswers _), h.2⟩

variable {t reference body} in
/-- A step of the last transaction. -/
theorem RecordingAt.step {id : Id} {ℓ ℓ' : Local Backend} {σ σ' : Shared Backend}
    {ph ph' : Phase Backend (Option CreatedIntent)} (h : RecordingAt body id ph) (hstep : Phase.Step ℓ σ ph ℓ' σ' ph') :
    σ'.store = σ.store ∧ (RecordingAt body id ph' ∨ ∃ e, ph' = .between (.throw e)) ∨
      ∃ v, Records body id v ∧ σ' = σ.withStore (v σ.store) ∧ ph' = .between (.ret (some ⟨id, false⟩)) := by
  cases h with
  | between hwrites hok herror =>
      cases hstep
      exact .inl ⟨rfl, .inl (.inside hwrites hok herror)⟩
  | inside hwrites hok herror =>
      cases hstep with
      | commit => exact .inr ⟨_, hwrites, rfl, congrArg _ (hok _)⟩
      | rollback => exact .inl ⟨rfl, .inr ⟨_, congrArg _ (herror _)⟩⟩
      | read => exact .inl ⟨rfl, .inl (.inside (hwrites _) hok herror)⟩
      | write => exact .inl ⟨rfl, .inl (.inside hwrites hok herror)⟩
      | lock => exact .inl ⟨rfl, .inl (.inside hwrites hok herror)⟩
      | query => exact .inl ⟨rfl, .inl (.inside (hwrites _) hok herror)⟩

variable {t reference body} in
/-- The call of the provider. -/
theorem CallingAt.step {row : PaymentIntent} {ℓ ℓ' : Local Backend} {σ σ' : Shared Backend}
    {ph ph' : Phase Backend (Option CreatedIntent)} (h : CallingAt reference body row ph)
    (hstep : Phase.Step ℓ σ ph ℓ' σ' ph') :
    σ'.store = σ.store ∧ ((∃ e, ph' = .between (.throw e)) ∨ RecordingAt body row.id ph' ∧
      ∃ session ∈ σ'.world.charges, session.reference = reference ∧ row.correlationId = session.correlationId) := by
  cases h with
  | @intro session k hreference hcorrelation herror hok =>
      cases hstep
      refine ⟨rfl, ?_⟩
      have hlog := checkouts.entries_reply σ.world (.createCheckoutSession session)
      cases hanswer : (σ.world.reply (.createCheckoutSession session)).1 with
      | error message =>
          obtain ⟨e, he⟩ := herror message
          exact .inl ⟨e, congrArg _ he⟩
      | ok result =>
          rw [show (Backend.reply σ.world (.createCheckoutSession session)).1 = _ from hanswer] at hlog
          refine .inr ⟨hok result, session, ?_, hreference, hcorrelation⟩
          show session ∈ checkouts.entries (σ.world.reply (.createCheckoutSession session)).2
          rw [hlog]
          exact List.mem_append_right _ (List.mem_singleton_self session)

/-! ## Places -/

variable (rt : Runtime)

/-- The submission has asked for the time: an intent that was answered is still recent, and one that it finds serves it. -/
structure Ready (known : Id → Prop) (n : Nat) (σ : Shared Backend) : Prop where
  reached : n ≤ σ.world.oracle σ.world.clock .now
  recent : ∀ x, known x → ∃ r, σ.store.newestOpen rt t reference = some r ∧ r.isRecent n = true
  serves : ∀ r, σ.store.recentIntent rt t reference n = some r → r.Serves body

/-- No open intent is recent at `n`. -/
structure Absent (n : Nat) (σ : Shared Backend) : Prop where
  reached : n ≤ σ.world.oracle σ.world.clock .now
  old : ∀ r ∈ σ.store.openWith rt t reference, r.isRecent n = false

/-- The intent that the submission has created. The other open intents are older. -/
structure InHand (row : PaymentIntent) (db : Db) : Prop where
  tenant : row.tenantId = t
  provider : row.provider = body.provider
  there : ∃ r ∈ db.paymentIntents, r.isOpen = true ∧ r.sketch = row.sketch
  newest : ∀ r ∈ db.openWith rt t reference, r.id ≠ row.id → r.createdAt < row.createdAt

/-- Where a submission is, and what it knows there. `known` are the intents that submissions have been answered with. -/
inductive Place (known : Id → Prop) (σ : Shared Backend) : Phase Backend (Option CreatedIntent) → Prop
  | config {ph} (h : ph.Getting (fun db : Db => db.providerConfig t body.provider) (afterConfig rt t body) fun _ => True) : Place known σ ph
  | time (config : Option ProviderConfig) : Place known σ (.between (afterConfig rt t body config))
  | look {config n ph} (hready : Ready t reference body rt known n σ)
      (h : ph.Getting (fun db : Db => db.recentIntent rt t body.reference n) (afterLook rt t body config) fun existing =>
        existing.map PaymentIntent.sketch = (σ.store.recentIntent rt t reference n).map PaymentIntent.sketch) :
      Place known σ ph
  | make {n ph} (hnone : ∀ x, ¬ known x) (habsent : Absent t reference rt n σ) (h : MakingAt t reference body n ph) :
      Place known σ ph
  | call {row ph} (hnone : ∀ x, ¬ known x) (hrow : InHand t reference body rt row σ.store)
      (h : CallingAt reference body row ph) : Place known σ ph
  | record {row ph} (hnone : ∀ x, ¬ known x) (hrow : InHand t reference body rt row σ.store)
      (hopened : ∃ session ∈ σ.world.charges, session.reference = reference ∧ row.correlationId = session.correlationId)
      (h : RecordingAt body row.id ph) : Place known σ ph

/-- A later state of the outside world. -/
structure World.Later (w w' : World) : Prop extends w.Before w' where
  charges : ∀ session ∈ w.charges, session ∈ w'.charges

theorem World.later_reply (w : World) (q : Query) : w.Later (w.reply q).2 where
  toBefore := w.before_reply q
  charges session hsession := by
    show session ∈ checkouts.entries (w.reply q).2
    rw [checkouts.entries_reply w q]
    exact List.mem_append_left _ hsession

theorem World.later_step {α : Type} {ℓ ℓ' : Local Backend} {σ σ' : Shared Backend} {ph ph' : Phase Backend α}
    (h : Phase.Step ℓ σ ph ℓ' σ' ph') : σ.world.Later σ'.world := by
  cases h with
  | call => exact World.later_reply _ _
  | query => exact World.later_reply _ _
  | _ => exact ⟨.refl _, fun _ hsession => hsession⟩

theorem World.Forward.later {w w' : World} (h : w.Forward) (hw : w.Before w') : w'.Forward := by
  rw [World.Forward, hw.oracle]
  exact h

/-- A time that the clock has reached. -/
theorem World.Forward.reached {w w' : World} (h : w.Forward) (hw : w.Before w') {n : Nat}
    (hn : n ≤ w.oracle w.clock .now) : n ≤ w'.oracle w'.clock .now := by
  rw [hw.oracle]
  exact hn.trans (h _ _ hw.clock)

variable {t reference body rt}

/-- What a submission knows stays true while others leave the intents alone. -/
theorem Place.stable {known : Id → Prop} {σ σ' : Shared Backend} {ph : Phase Backend (Option CreatedIntent)}
    {opened : CheckoutSession → Prop} (h : Place t reference body rt known σ ph) (hforward : σ.world.Forward)
    (hworld : σ.world.Later σ'.world) (hleaves : σ.store.Leaves rt t reference opened σ'.store)
    (hcharges : ∀ session ∈ σ.world.charges, opened session)
    (hcalls : ∀ session k, ph = .between (.ask (.createCheckoutSession session) k) → opened session) :
    Place t reference body rt known σ' ph := by
  have hreached : ∀ {n}, n ≤ σ.world.oracle σ.world.clock .now → n ≤ σ'.world.oracle σ'.world.clock .now := fun hn =>
    hforward.reached hworld.toBefore hn
  have hinHand : ∀ {row : PaymentIntent} {session : CheckoutSession}, opened session → session.reference = reference →
      row.correlationId = session.correlationId → InHand t reference body rt row σ.store →
        InHand t reference body rt row σ'.store := by
    intro row session hopened hreference hcorrelation hrow
    obtain ⟨r, hr, hopen, hsketch⟩ := hrow.there
    have htenant : r.tenantId = row.tenantId := congrArg (·.tenantId) hsketch
    have hsession : r.correlationId = row.correlationId := congrArg (·.correlationId) hsketch
    obtain ⟨r', hr', hopen', hsketch'⟩ := hleaves.inHand session hopened hreference r hr (htenant.trans hrow.tenant) hopen
      (hsession.trans hcorrelation)
    refine ⟨hrow.tenant, hrow.provider, ⟨r', hr', hopen', hsketch'.trans hsketch⟩, fun r₁ hr₁ hne => ?_⟩
    obtain ⟨r₀, hr₀, hsketch₀⟩ := hleaves.mem hr₁
    have hid : r₀.id = r₁.id := congrArg (·.id) hsketch₀
    have hdate : r₀.createdAt = r₁.createdAt := congrArg (·.createdAt) hsketch₀
    rw [← hdate]
    exact hrow.newest r₀ hr₀ (hid ▸ hne)
  cases h with
  | config h => exact .config h
  | time config => exact .time config
  | @look config n ph hready h =>
      refine .look ⟨hreached hready.reached, fun x hx => ?_, fun r hr => ?_⟩
        (h.mono fun existing hexisting => hexisting.trans (hleaves.recent _).symm)
      · obtain ⟨r, hr, hrecent⟩ := hready.recent x hx
        have hnewest := hleaves.newest
        rw [hr, Option.map_some] at hnewest
        obtain ⟨r', hr', hsketch⟩ := Option.map_eq_some_iff.mp hnewest
        have hdate : r'.createdAt = r.createdAt := congrArg (·.createdAt) hsketch
        refine ⟨r', hr', ?_⟩
        rw [PaymentIntent.isRecent, hdate]
        exact hrecent
      · have hfound := hleaves.recent n
        rw [hr, Option.map_some] at hfound
        obtain ⟨r₀, hr₀, hsketch⟩ := Option.map_eq_some_iff.mp hfound.symm
        exact (hready.serves r₀ hr₀).of_sketch hsketch.symm
  | make hnone habsent h =>
      refine .make hnone ⟨hreached habsent.reached, fun r hr => ?_⟩ h
      obtain ⟨r₀, hr₀, hsketch⟩ := hleaves.mem hr
      have hdate : r₀.createdAt = r.createdAt := congrArg (·.createdAt) hsketch
      have hold := habsent.old r₀ hr₀
      rwa [PaymentIntent.isRecent, hdate] at hold
  | call hnone hrow h =>
      cases h with
      | intro hreference hcorrelation herror hok =>
          exact .call hnone (hinHand (hcalls _ _ rfl) hreference hcorrelation hrow)
            (.intro hreference hcorrelation herror hok)
  | record hnone hrow hopened h =>
      obtain ⟨session, hsession, hreference, hcorrelation⟩ := hopened
      exact .record hnone (hinHand (hcharges session hsession) hreference hcorrelation hrow)
        ⟨session, hworld.charges session hsession, hreference, hcorrelation⟩ h

/-! ## Steps -/

/-- A new intent is in hand. -/
theorem Inserts.inHand {n : Nat} {row : PaymentIntent} {v : Db → Db} {σ : Shared Backend} (h : Inserts t body n row v)
    (habsent : Absent t reference rt n σ) : InHand t reference body rt row (v σ.store) where
  tenant := h.tenant
  provider := h.provider
  there := by
    refine ⟨row, ?_, ?_, rfl⟩
    · rw [h.adds]
      exact List.mem_append_right _ (List.mem_singleton_self row)
    · rw [PaymentIntent.isOpen, h.status]
      rfl
  newest r hr hne := by
    obtain ⟨hmem, hopen⟩ := List.mem_filter.mp hr
    rw [h.adds] at hmem
    rcases List.mem_append.mp hmem with hmem | hmem
    · have hold := habsent.old r (List.mem_filter.mpr ⟨hmem, hopen⟩)
      have htimely := h.timely
      simp only [PaymentIntent.isRecent, decide_eq_false_iff_not, not_le] at hold
      omega
    · exact absurd (congrArg (·.id) (List.mem_singleton.mp hmem)) hne

theorem hasReference_stored (hjson : ∀ s, rt.jsonEquals (.str s) (.str s) = true) {r : PaymentIntent}
    (h : r.metadata = some body.stored) : r.hasReference rt (.str body.reference) = true := by
  have hobj : ∃ fields, body.stored = .obj fields := ⟨_, rfl⟩
  obtain ⟨fields, hfields⟩ := hobj
  have hfind : fields.find? (·.1 = "reference") = some ("reference", .str body.reference) := by
    have hstored := hfields
    rw [CreateIntentBody.stored] at hstored
    rw [← Json.obj.inj hstored]
    simp [find?_setField]
  rw [PaymentIntent.hasReference, h, hfields]
  refine List.any_eq_true.mpr ⟨_, List.mem_of_find?_eq_some hfind, ?_⟩
  simp [hjson]

/-- The intent whose session is recorded is the newest one. -/
theorem Records.holds (hjson : ∀ s, rt.jsonEquals (.str s) (.str s) = true) (hreference : body.reference = reference)
    {row : PaymentIntent} {v : Db → Db} {db : Db} (h : Records body row.id v) (hrow : InHand t reference body rt row db)
    (hunique : ((v db).paymentIntents.map (·.id)).Nodup) :
    ∃ r, (v db).Answers rt t reference body ⟨row.id, false⟩ r := by
  obtain ⟨f, hv, hf⟩ := h
  obtain ⟨r₀, hr₀, -, hsketch⟩ := hrow.there
  have hid₀ : r₀.id = row.id := congrArg (·.id) hsketch
  have hupdated : f r₀ ∈ (v db).paymentIntents := by
    rw [hv]
    exact List.mem_map.mpr ⟨r₀, hr₀, if_pos hid₀⟩
  have hdate₀ : (f r₀).createdAt = row.createdAt := by
    rw [hf r₀]
    exact congrArg (·.createdAt) hsketch
  have hmetadata : (f r₀).metadata = some body.stored := by rw [hf r₀]
  have hopen : f r₀ ∈ (v db).openWith rt t reference := by
    refine List.mem_filter.mpr ⟨hupdated, ?_⟩
    have htenant : (f r₀).tenantId = t := by
      rw [hf r₀]
      exact (congrArg (·.tenantId) hsketch).trans hrow.tenant
    have hstatus : (f r₀).isOpen = true := by
      rw [PaymentIntent.isOpen, hf r₀]
      rfl
    rw [PaymentIntent.isOpenWith, htenant, hstatus, ← hreference, hasReference_stored hjson hmetadata]
    simp
  obtain ⟨r, hr⟩ : ∃ r, (v db).newestOpen rt t reference = some r := Data.exists_newest hopen
  have hle : (f r₀).createdAt ≤ r.createdAt := Data.le_newest hr hopen
  obtain ⟨hmem, hwith⟩ := List.mem_filter.mp (Data.mem_of_newest hr)
  -- Every other open intent with the reference is older.
  have hid : r.id = row.id := by
    by_contra hne
    have hmem' := hmem
    rw [hv] at hmem'
    obtain ⟨r₁, hr₁, rfl⟩ := List.mem_map.mp hmem'
    have hother : r₁.id ≠ row.id := by
      intro hsame
      rw [if_pos hsame] at hne
      refine hne ?_
      rw [hf r₁]
      exact hsame
    rw [if_neg hother] at hwith hle
    have hlt := hrow.newest r₁ (List.mem_filter.mpr ⟨hr₁, hwith⟩) hother
    omega
  have hsame : r = f r₀ := by
    refine List.inj_on_of_nodup_map hunique hmem hupdated (hid.trans ?_)
    rw [hf r₀]
    exact hid₀.symm
  refine ⟨r, hr, hid, fun h => (by cases h), fun _ => ⟨?_, hsame ▸ hmetadata⟩⟩
  rw [hsame, hf r₀]
  exact (congrArg (·.provider) hsketch).trans hrow.provider

/-! ## A submission that finds nothing -/

theorem making_get_bind {n : Nat} {β : Type} {g : Db → β} {f : β → Job (Option CreatedIntent)}
    (h : ∀ x, Making t reference body n (f x)) : Making t reference body n ((selectOnce g).bind f) :=
  ⟨fun _ => .inl ⟨fun _ => rfl, h _⟩, fun _ => rfl⟩

theorem making_query_bind {n : Nat} {q : Query} {f : Answer q → Job (Option CreatedIntent)}
    (hq : ∀ session, q ≠ .createCheckoutSession session) (h : ∀ a, Making t reference body n (f a)) :
    Making t reference body n ((@Transaction.Job.query Backend q).bind f) := ⟨hq, fun a _ => h a⟩

theorem making_scoreRisk_bind {n : Nat} {tenantId : Id} {amountCents : Int} {f : RiskVerdict → Job (Option CreatedIntent)}
    (h : ∀ verdict, Making t reference body n (f verdict)) :
    Making t reference body n ((scoreRisk tenantId amountCents).bind f) := by
  rw [scoreRisk, Transaction.Job.bind_eq, Transaction.Job.bind_assoc]
  refine making_query_bind (fun _ hsession => by cases hsession) fun verdict => ?_
  dsimp only
  split_ifs
  · trivial
  · exact h verdict

theorem making_lockFx_bind {n : Nat} {tenantId : Id} {currency : String} {f : Option FxQuote → Job (Option CreatedIntent)}
    (h : ∀ fx, Making t reference body n (f fx)) : Making t reference body n ((lockFx tenantId currency).bind f) := by
  rw [lockFx, Transaction.Job.bind_eq, Transaction.Job.bind_assoc]
  refine making_get_bind fun settlementCurrency => ?_
  cases Currency.ofJson (.str currency) with
  | none => exact h none
  | some base =>
      dsimp only
      split_ifs
      · exact h none
      · exact making_query_bind (fun _ hsession => by cases hsession) fun issuedAt =>
          making_query_bind (fun _ hsession => by cases hsession) fun rate => h _

/-- The session is opened, and then recorded. -/
theorem callingAt_openCheckout {row : PaymentIntent} {session : CheckoutSession} (hreference : session.reference = reference)
    (hcorrelation : row.correlationId = session.correlationId) :
    CallingAt reference body row (.between ((openCheckout session row.id fun _ => some body.stored).bind fun _ =>
      .ret (some { intentId := row.id, idempotent := false }))) := by
  refine .intro hreference hcorrelation (fun message => ⟨_, rfl⟩) fun result => .between ?_ (fun x => rfl) fun e => rfl
  simp only [PaymentIntent.update, ProviderTransaction.create, bind_eq, pure_eq, writes_bind, writes_acquire, writes_get]
  intro db
  cases db.paymentIntent row.id with
  | none => trivial
  | some found =>
      simp only [writes_bind, writes_modify, writes_ret]
      intro id db'
      cases db'.providerTransactions.any (·.id = id) with
      | true => trivial
      | false =>
          refine ⟨fun r =>
            { r with
              status := .requiresAction
              providerRef := some result.providerRef
              providerData := some result.stored
              metadata := some body.stored }, fun _ => rfl, fun _ => rfl⟩

/-- What follows the creation of the intent. -/
theorem callingAt_created (hreference : body.reference = reference) (row : PaymentIntent) (config : ProviderConfig)
    (isPreauth : Bool) :
    let rest : Job (Option CreatedIntent) :=
      ((Transaction.Job.ofExcept (I := Backend) (getAdapter rt body.provider config.encryptedCredentials)).bind fun _ =>
        (openCheckout
          { provider := body.provider, amount := body.amount, currency := body.currency, reference := body.reference,
            correlationId := row.correlationId, isPreauth, storePaymentProfile := false }
          row.id fun _ => some body.stored).bind fun _ =>
            .ret { intentId := row.id, idempotent := false }).bind fun created => .ret (some created)
    CallingAt reference body row (.between rest) ∨ ∃ e, rest = .throw e := by
  intro rest
  cases hadapter : getAdapter rt body.provider config.encryptedCredentials with
  | error e =>
      refine .inr ⟨e, ?_⟩
      simp only [rest, hadapter]
      rfl
  | ok adapter =>
      refine .inl ?_
      simp only [rest, hadapter, Transaction.Job.bind_assoc]
      exact callingAt_openCheckout hreference rfl

/-- The intent is created, and the session is opened next. -/
theorem making_openIntent (hreference : body.reference = reference) (n : Nat) (config : ProviderConfig) :
    Making t reference body n ((openIntent rt t body config).bind fun created => .ret (some created)) := by
  rw [openIntent, Transaction.Job.bind_eq, Transaction.Job.bind_assoc]
  refine making_scoreRisk_bind fun verdict => ?_
  rw [Transaction.Job.bind_eq, Transaction.Job.bind_assoc]
  refine making_lockFx_bind fun fx => ?_
  refine ⟨fun id _ correlationId _ createdAt hcreated db => ?_, fun e => rfl⟩
  by_cases htaken : (db.paymentIntents.any fun r => r.id = id ∨ r.correlationId = correlationId) = true
  · simp only [htaken]
    trivial
  · simp only [htaken]
    exact .inr ⟨_, ⟨fun _ => rfl, rfl, rfl, rfl, hcreated⟩, callingAt_created hreference _ config _⟩

/-! ## A step of a submission -/

variable (t reference body rt) in
/-- What a step of a submission comes to. Once a submission has been answered, the others leave the intents alone. -/
inductive Next (known : Id → Prop) (σ σ' : Shared Backend) (ph' : Phase Backend (Option CreatedIntent)) : Prop
  | goes (hstore : (∃ x, known x) → σ'.store = σ.store) (hplace : Place t reference body rt known σ' ph')
  | fails (hstore : (∃ x, known x) → σ'.store = σ.store) (e : Failure) (hphase : ph' = .between (.throw e))
  | answers (hstore : (∃ x, known x) → σ'.store = σ.store) (answer : CreatedIntent) (r : PaymentIntent)
      (hphase : ph' = .between (.ret (some answer))) (hholds : σ'.store.Answers rt t reference body answer r)

/-- What follows the lookup. -/
theorem next_afterLook (hreference : body.reference = reference) {known : Id → Prop} {config : ProviderConfig} {n : Nat}
    {σ : Shared Backend} {existing : Option PaymentIntent} (hready : Ready t reference body rt known n σ)
    (hfound : existing.map PaymentIntent.sketch = (σ.store.recentIntent rt t reference n).map PaymentIntent.sketch) :
    Next t reference body rt known σ σ (.between (afterLook rt t body config existing)) := by
  have hnewest := recentIntent_eq rt t reference σ.store n
  cases existing with
  | none =>
      have hnone : (σ.store.newestOpen rt t reference).filter (PaymentIntent.isRecent n) = none := by
        rw [← hnewest]
        exact Option.map_eq_none_iff.mp hfound.symm
      refine .goes (fun _ => rfl) (.make (fun x hx => ?_) ⟨hready.reached, fun r hr => ?_⟩ (making_openIntent hreference n config))
      · obtain ⟨r, hr, hrecent⟩ := hready.recent x hx
        rw [hr, Option.filter_some, if_pos hrecent] at hnone
        cases hnone
      · obtain ⟨r', hr'⟩ : ∃ r', σ.store.newestOpen rt t reference = some r' := Data.exists_newest hr
        have hle : r.createdAt ≤ r'.createdAt := Data.le_newest hr' hr
        rw [hr', Option.filter_eq_none_iff] at hnone
        have hold := hnone r' rfl
        simp only [PaymentIntent.isRecent, decide_eq_true_eq, decide_eq_false_iff_not] at hold ⊢
        omega
  | some existing =>
      obtain ⟨r, hr, hsketch⟩ := Option.map_eq_some_iff.mp hfound.symm
      have hserves := (hready.serves r hr).of_sketch hsketch.symm
      have hid : r.id = existing.id := congrArg (·.id) hsketch
      have hnow : σ.store.newestOpen rt t reference = some r := by
        rw [hr] at hnewest
        exact (Option.filter_eq_some_iff.mp hnewest.symm).1
      have hjob : afterLook rt t body config (some existing) = .ret (some ⟨existing.id, true⟩) := by
        rw [afterLook, Option.filter_some, if_pos (decide_eq_true hserves.mode)]
      exact .answers (fun _ => rfl) ⟨existing.id, true⟩ r (congrArg _ hjob)
        ⟨hnow, hid, fun _ => hready.serves r hr, fun h => (by cases h)⟩

theorem Place.step (hjson : ∀ s, rt.jsonEquals (.str s) (.str s) = true) (hreference : body.reference = reference)
    {known : Id → Prop} {ℓ ℓ' : Local Backend} {σ σ' : Shared Backend} {ph ph' : Phase Backend (Option CreatedIntent)}
    (h : Place t reference body rt known σ ph) (hstep : Phase.Step ℓ σ ph ℓ' σ' ph') (hforward : σ.world.Forward)
    (hunique : (σ'.store.paymentIntents.map (·.id)).Nodup)
    (hready : ∀ k, ph = .between (.ask .now k) → Ready t reference body rt known (σ.world.oracle σ.world.clock .now) σ) :
    Next t reference body rt known σ σ' ph' := by
  have hlater := World.later_step hstep
  cases h with
  | config h =>
      obtain ⟨rfl, h | ⟨e, he⟩ | ⟨config, -, hnext⟩⟩ := h.step hstep trivial
      · exact .goes (fun _ => rfl) (.config h)
      · exact .fails (fun _ => rfl) e he
      · rw [hnext]
        exact .goes (fun _ => rfl) (.time config)
  | time config =>
      revert hstep hready
      rw [afterConfig]
      cases config.filter (·.status = .connected) with
      | none => intro hstep; cases hstep
      | some config =>
          intro hstep hready
          have hnow := hready _ rfl
          cases hstep
          exact .goes (fun _ => rfl) (.look ⟨hforward.reached hlater.toBefore hnow.reached, hnow.recent, hnow.serves⟩ .before)
  | @look config n ph hready h =>
      have hsame : σ.store.recentIntent rt t body.reference n = σ.store.recentIntent rt t reference n := by rw [hreference]
      obtain ⟨rfl, h | ⟨e, he⟩ | ⟨existing, hfound, hnext⟩⟩ := h.step hstep (by rw [hsame])
      · exact .goes (fun _ => rfl) (.look hready h)
      · exact .fails (fun _ => rfl) e he
      · rw [hnext]
        exact next_afterLook hreference hready hfound
  | @make n ph hnone habsent h =>
      have hknown : ∀ {P : Prop}, (∃ x, known x) → P := fun ⟨x, hx⟩ => absurd hx (hnone x)
      have hanswers : ∀ q, Timely n q (σ.world.reply q).1 := by
        intro q
        cases q with
        | now => exact habsent.reached
        | _ => trivial
      rcases h.step hstep hanswers with ⟨hstore, hmaking⟩ | ⟨row, v, hinserts, rfl, hcalling | ⟨e, he⟩⟩
      · refine .goes hknown (.make hnone ⟨hforward.reached hlater.toBefore habsent.reached, ?_⟩ hmaking)
        rw [hstore]
        exact habsent.old
      · exact .goes hknown (.call hnone (hinserts.inHand habsent) hcalling)
      · exact .fails hknown e he
  | @call row ph hnone hrow h =>
      obtain ⟨hstore, ⟨e, he⟩ | ⟨hrecording, hopened⟩⟩ := h.step hstep
      · exact .fails (fun _ => hstore) e he
      · exact .goes (fun _ => hstore) (.record hnone (by rwa [hstore]) hopened hrecording)
  | @record row ph hnone hrow hopened h =>
      rcases h.step hstep with ⟨hstore, hrecording | ⟨e, he⟩⟩ | ⟨v, hrecords, rfl, hanswer⟩
      · obtain ⟨session, hsession, hopened⟩ := hopened
        exact .goes (fun _ => hstore) (.record hnone (by rwa [hstore]) ⟨session, hlater.charges session hsession, hopened⟩ hrecording)
      · exact .fails (fun _ => hstore) e he
      · obtain ⟨r, hr⟩ := hrecords.holds hjson hreference hrow hunique
        exact .answers (fun ⟨x, hx⟩ => absurd hx (hnone x)) ⟨row.id, false⟩ r hanswer hr

end Way

end Reference

end CorpoPay.Settlement
