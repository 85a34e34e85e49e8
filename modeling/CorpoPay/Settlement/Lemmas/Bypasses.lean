import CorpoPay.Settlement.Lemmas.ChargeTerms
import CorpoPay.Settlement.Lemmas.Intents

/-!
# Bookings beside an intent

What the requests commit appends movements and keeps what the intents charge. Most of it makes no intent SUCCEEDED.
-/

namespace CorpoPay.Settlement

open Transaction.Tx
open Transaction.Job (Does Does.bind Does.mono does_ofExcept does_ret does_throw does_transaction)

/-- Movements are appended, and what the intents charge stays. -/
structure KeepsBooks (v : Db → Db) : Prop extends KeepsTerms v where
  movements : ∃ ms, ∀ db, (v db).movements = db.movements ++ ms

/-- The intent does not become SUCCEEDED besides. -/
structure Bypasses (id : Id) (v : Db → Db) : Prop extends KeepsBooks v where
  statuses : ∀ db, (v db).statusOf id = some .succeeded → db.statusOf id = some .succeeded

section Writes

variable {P : Movement → Prop} {v : Db → Db} {t id : Id} {ms : List Movement} {f : PaymentIntent → PaymentIntent}

theorem KeepsBooks.isCaptured (h : KeepsBooks v) {db : Db} (hcaptured : db.isCaptured t id = true) :
    (v db).isCaptured t id = true := by
  obtain ⟨ms, hms⟩ := h.movements
  rw [Db.isCaptured, hms, List.any_append, Bool.or_eq_true]
  exact .inl hcaptured

theorem Touches.keepsBooks (h : Touches P v) : KeepsBooks v := by
  have hterms := h.keepsTerms
  obtain ⟨ms, f, hv, -, -⟩ := h
  exact ⟨hterms, ms, hv.movements⟩

theorem Commits.statusOf (h : Commits ms f v) (hf : ∀ r, (f r).id = r.id) (db : Db) :
    (v db).statusOf id = (db.paymentIntent id).map fun r => (f r).status := by
  have hid : (fun r : PaymentIntent => decide (r.id = id)) ∘ f = fun r => decide (r.id = id) := by
    funext r
    rw [Function.comp_apply, hf r]
  rw [Db.statusOf, Db.paymentIntent, h.paymentIntents, List.find?_map, hid, Option.map_map]
  rfl

theorem Commits.bypasses (h : Commits ms f v)
    (hf : ∀ r, f r = { r with status := (f r).status, riskVerdict := (f r).riskVerdict })
    (hstatus : ∀ r, r.id = id → (f r).status = .succeeded → r.status = .succeeded) : Bypasses id v := by
  refine ⟨⟨⟨⟨f, h.paymentIntents, hf⟩, h.prices⟩, ms, h.movements⟩, fun db hdb => ?_⟩
  rw [h.statusOf fun r => congrArg (·.id) (hf r)] at hdb
  obtain ⟨r, hrow, hr⟩ := Option.map_eq_some_iff.mp hdb
  rw [Db.statusOf, hrow]
  exact congrArg some (hstatus r (by simpa using List.find?_some hrow) hr)

theorem Posts.bypasses (h : Posts P v) : Bypasses id v := by
  obtain ⟨ms, hv, -⟩ := h
  exact hv.bypasses (fun _ => rfl) fun _ _ hstatus => hstatus

/-- A status that is set. -/
theorem bypasses_setStatus {i : Id} {status : PaymentIntentStatus}
    (h : Commits [] (fun r => if r.id = i then { r with status } else r) v) (hne : i = id → status ≠ .succeeded) :
    Bypasses id v := by
  refine h.bypasses (fun r => by split_ifs <;> rfl) fun r hid hstatus => ?_
  split_ifs at hstatus with hi
  · exact absurd hstatus (hne (hi.symm.trans hid))
  · exact hstatus

end Writes

/-! ## Jobs -/

section Jobs

variable {α : Type} {P : Movement → Prop} {rt : Runtime} {id : Id}

/-- The job neither makes the intent SUCCEEDED nor asks for a capture. -/
abbrev OnlyBypasses (id : Id) (j : Job α) : Prop := j.Does (Bypasses id) fun _ => True

theorem OnlyTouches.keepsBooks {j : Job α} (h : OnlyTouches P j) : j.Does KeepsBooks fun _ => True :=
  Does.mono h (fun _ hv => hv.keepsBooks) fun _ _ => trivial

theorem OnlyBypasses.keepsBooks {j : Job α} (h : OnlyBypasses id j) : j.Does KeepsBooks fun _ => True :=
  Does.mono h (fun _ hv => hv.toKeepsBooks) fun _ hq => hq

theorem bypasses_posts {j : Job α} (h : j.Does (Posts P) (Query.isCapture · = false)) : OnlyBypasses id j :=
  Does.mono h (fun _ hv => hv.bypasses) fun _ _ => trivial

theorem observes_bypasses : Observes (Bypasses id) fun _ => True where
  select f := bypasses_posts ((observes_posts (P := fun _ => True)).select f)
  linkStatus i status := bypasses_posts ((observes_posts (P := fun _ => True)).linkStatus i status)
  transactionUpdate i f := bypasses_posts ((observes_posts (P := fun _ => True)).transactionUpdate i f)
  transactionCreate row := bypasses_posts ((observes_posts (P := fun _ => True)).transactionCreate row)

theorem bypasses_lockAuthorized (intentId : Id) (tenantId : Option Id) :
    OnlyBypasses id (transaction (lockAuthorized intentId tenantId)) := by
  refine does_lockAuthorized fun v hv => hv.bypasses (fun r => ?_) fun r _ hstatus => ?_
  · split_ifs <;> rfl
  · split_ifs at hstatus
    exact hstatus

theorem bypasses_revertLock (intentId : Id) : OnlyBypasses id (revertLock intentId) :=
  does_revertLock fun _ hv => bypasses_setStatus hv fun _ => by decide

theorem bypasses_refuseAction (verb : String) (intentId : Id) (tenantId : Option Id) :
    OnlyBypasses id (refuseAction verb intentId tenantId : Job α) := by
  refine (observes_bypasses.select _).bind fun existing => ?_
  cases existing with
  | none => exact does_throw _
  | some existing => exact does_throw _

theorem bypasses_verdict (i : Id) (verdict : RiskVerdict) :
    OnlyBypasses id (transaction (PaymentIntent.update i fun r => { r with riskVerdict := some verdict })) := by
  refine does_transaction ((commits_intentUpdate commits_nothing).mono fun v _ hv => ?_) (asks_intentUpdate _ _)
  refine hv.bypasses (fun r => ?_) fun r _ hstatus => ?_
  · simp only [Function.comp_apply, id_eq]
    split_ifs <;> rfl
  · simp only [Function.comp_apply] at hstatus
    split_ifs at hstatus
    · exact hstatus
    · exact hstatus

end Jobs

end CorpoPay.Settlement
