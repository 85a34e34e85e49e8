import CorpoPay.Notify.Notifications
import CorpoPay.Transaction.Onward

/-!
# What merchants receive

Whatever the requests do meanwhile, a post goes to a URL of its tenant, and its signature is accepted under a secret of the
same tenant: one that was there before, or one that was drawn for it.
-/

namespace CorpoPay.Notify

open Transaction (Course Pool Shared)
open Transaction.Tx (asks_acquire asks_bind asks_get asks_modify asks_ret asks_throw)
open Transaction.Job (does_transaction knows_bind knows_get knows_ofExcept knows_query knows_ret knows_throw)

variable {ι α : Type}

/-! ## Posts in order -/

section Course

variable (rt : JobRuntime) (requests : ι → NotifyRequest) (db : Db) (oracle : Oracle)

/-- The tenant had the URL, or set it. -/
def UrlOf (tenantId url : String) : Prop :=
  (∃ r ∈ db.tenants, r.id = tenantId ∧ r.notifyWebhookUrl = some url) ∨
    ∃ i data, requests i = .patchTenant tenantId data ∧ data.notifyWebhookUrl = some (some url)

/-- The tenant had the secret, or it was drawn for it. -/
def SecretOf (tenantId secret : String) : Prop :=
  (∃ r ∈ db.tenants, r.id = tenantId ∧ ∃ c, r.webhookSigningSecret = some c ∧ decrypt rt.toRuntime c = .ok secret) ∨
    ∃ n, secret = String.ofList (hexText (oracle.secretBytes n tenantId))

/-- A post of a notification for the tenant. -/
structure Authentic (tenantId : String) (post : Post) : Prop where
  url : UrlOf requests db tenantId post.url
  notification : ∃ i event, requests i = .notify event ∧ event.tenantId = tenantId ∧
    ("X-CorpoPay-Webhook-Id", event.intentId ++ ":" ++ event.status) ∈ post.headers
  signature : ∀ header, ("X-CorpoPay-Signature", header) ∈ post.headers → ∃ secret, SecretOf rt db oracle tenantId secret ∧
    verifyWebhookSignatureHeader rt.toRuntime secret header.toList post.body = true

/-- What a row shows. -/
structure RowSound (row : Tenant) : Prop where
  url : ∀ url, row.notifyWebhookUrl = some url → UrlOf requests db row.id url
  secret : ∀ c secret, row.webhookSigningSecret = some c → decrypt rt.toRuntime c = .ok secret → SecretOf rt db oracle row.id secret

/-- Posts of the times that a signature can carry are authentic. -/
structure PostsSound (sent : List Post) (σ : Shared Backend) : Prop where
  outside : σ.world.oracle = oracle
  rows : ∀ row ∈ σ.store.tenants, RowSound rt requests db oracle row
  sent : σ.world.clock / 1000 < 2 ^ 53 → ∀ post ∈ σ.world.sent, post ∈ sent ∨ ∃ t, Authentic rt requests db oracle t post

def postCourse (sent : List Post) : Course Backend where
  later σ σ' := σ.world.clock ≤ σ'.world.clock
  inv := PostsSound rt requests db oracle sent
  later_refl _ := Nat.le_refl _
  later_trans := Nat.le_trans

end Course

variable {rt : JobRuntime} {requests : ι → NotifyRequest} {db : Db} {oracle : Oracle} {sent : List Post} {σ σ' : Shared Backend}

/-- What a request knows when it returns. -/
abbrev Posts (rt : JobRuntime) (requests : ι → NotifyRequest) (db : Db) (oracle : Oracle) (sent : List Post)
    (P : α → Shared Backend → Prop) (j : Job α) (σ : Shared Backend) : Prop :=
  j.Knows (postCourse rt requests db oracle sent) (fun _ _ => True) P σ

/-- A question that posts nothing. -/
def Query.Silent : Query → Prop
  | .post _ => False
  | .now | .secretBytes _ | .randomIv | .publish _ => True

section Tenant

variable {tenantId : String} {data : UpdateTenant}

end Tenant

/-! ## The job -/

section Notification

variable {event : PaymentNotify} {tenant : Tenant} {body url : String}

end Notification

/-! ## Runs -/

end CorpoPay.Notify
