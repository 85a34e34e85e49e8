import CorpoPay.Billing.Theorems.PaidCount
import CorpoPay.Data.Relay
import CorpoPay.Transaction.Obligation

/-!
# The chain of installments

The job of an installment starts the one of the next. Nothing else keeps the jobs of an agreement apart: where every event is
delivered once and the agreement is activated once, its installments are charged one after the other, each of them once, and
none beyond the last.
-/

namespace CorpoPay.Billing

open Data (Turn)
open Data.Relay (View Chain Moves Sees)
open Settlement (Db Failure Id InstallmentAgreement)
open Transaction (Pool Protocol Shared)

variable {ι α : Type} {aid : String} {total : Nat} {reliable : Prop}

/-! ## The relay -/

/-- The text that an installment is charged with. -/
def installmentText (aid : String) (number : Nat) : String := (installmentKey aid number 0).idempotencyId

def Event.dueFor (aid : String) : Event → Option InstallmentDue
  | .installmentDue data => if data.agreementId = aid then some data else none
  | .renewalDue _ | .subscriptionActivated _ => none

/-- The installments of an agreement that wait in the queue. -/
def World.dueFor (aid : String) (w : World) : List InstallmentDue := w.pending.filterMap (Event.dueFor aid)

/-- The texts of the charges of an agreement that succeeded, in order. -/
def World.paidTexts (aid : String) (w : World) : List String := (w.succeededFor aid).map (·.charge.key.idempotencyId)

end CorpoPay.Billing

namespace CorpoPay.Settlement

/-- The installments that an agreement counts as paid. -/
def Db.paidCount (aid : String) (db : Db) : Nat := (db.installmentAgreement aid).elim 0 (·.paidCount)

/-- The down payments that were recorded for an agreement. -/
def Db.downPayments (aid : String) (db : Db) : Nat :=
  db.installmentCharges.countP fun r => r.agreementId = aid ∧ r.installmentNumber = 1

end CorpoPay.Settlement

namespace CorpoPay.Billing

open Data (Turn)
open Data.Relay (View Chain Moves Sees)
open Settlement (Db Failure Id InstallmentAgreement)
open Transaction (Pool Protocol Shared)

variable {ι α : Type} {aid : String} {total : Nat} {reliable : Prop}

def relayView (aid : String) (σ : Shared Backend) : View InstallmentDue String where
  count := σ.store.paidCount aid
  log := World.paidTexts aid σ.world
  queue := World.dueFor aid σ.world

/-- The event carries the text of its installment. -/
def Texted (aid : String) (data : InstallmentDue) : Prop := data.key.idempotencyId = installmentText aid data.installmentNumber

/-- The agreement is there, and the queue delivers once. A reliable one takes every event. -/
structure RelayInv (aid : String) (total : Nat) (reliable : Prop) (σ : Shared Backend) : Prop where
  row : ∃ r, σ.store.installmentAgreement aid = some r ∧ r.totalInstallments = total
  once : ∀ n, σ.world.oracle.redelivers n = false
  takes : reliable → ∀ n, σ.world.oracle.sendError n = none

def turns (aid : String) (total : Nat) (reliable : Prop) : Protocol Backend Turn where
  sees g σ := RelayInv aid total reliable σ ∧ Sees (Texted aid) total g (relayView aid σ)
  moves g σ g' σ' := RelayInv aid total reliable σ' ∧
    Moves InstallmentDue.installmentNumber (installmentText aid) (Texted aid) total g (relayView aid σ) g' (relayView aid σ')
  stays _ _ h := ⟨h.1, .stay _ _⟩

def RelayJoint (aid : String) (total : Nat) (reliable : Prop) (γ : ι → Turn) (σ : Shared Backend) : Prop :=
  RelayInv aid total reliable σ ∧
    Chain InstallmentDue.installmentNumber (installmentText aid) (Texted aid) total γ (relayView aid σ)

theorem keeps_relayJoint [DecidableEq ι] : (turns aid total reliable).Keeps (RelayJoint (ι := ι) aid total reliable) where
  sees _ _ i h := ⟨h.1, h.2.sees i⟩
  moves _ _ _ _ _ h hmoves := ⟨hmoves.1, h.2.moves hmoves.2⟩

/-- An event with the id was accepted. -/
def World.Accepted (eventId : String) (w : World) : Prop := ∃ time, (eventId, time) ∈ w.accepted

/-- Installments are left, and the event of the next one was not accepted. -/
structure Stalled (aid : String) (total : Nat) (σ : Shared Backend) : Prop where
  begun : 1 ≤ σ.store.paidCount aid
  left : σ.store.paidCount aid < total
  unsent : ¬ World.Accepted (installmentText aid (σ.store.paidCount aid + 1)) σ.world

/-- Who has counted an installment owes the event of the next one. -/
def OwesNext (g : Turn) : Prop := ∃ n, g = .counted n

theorem not_owes_idle : ¬ OwesNext .idle := fun ⟨_, h⟩ => by cases h

theorem not_owes_due (number : Nat) : ¬ OwesNext (.due number) := fun ⟨_, h⟩ => by cases h

theorem not_owes_done (number : Nat) : ¬ OwesNext (.done number) := fun ⟨_, h⟩ => by cases h

def installmentRelay (aid : String) (total : Nat) (reliable : Prop) : Protocol Backend Turn :=
  (turns aid total reliable).owing (fun σ => reliable ∧ Stalled aid total σ) OwesNext

/-! ## Writes that leave the relay -/

/-- The writes leave the count and the total of the agreement. -/
def Quiet (aid : String) (w : Db → Db) : Prop :=
  ∀ db r, db.installmentAgreement aid = some r → ∃ r', (w db).installmentAgreement aid = some r' ∧
    r'.paidCount = r.paidCount ∧ r'.totalInstallments = r.totalInstallments

theorem quiet_amended {f : InstallmentAgreement → InstallmentAgreement} (hid : ∀ r, (f r).id = r.id)
    (hpaid : ∀ r, (f r).paidCount = r.paidCount) (htotal : ∀ r, (f r).totalInstallments = r.totalInstallments) (sid : String) :
    Quiet aid (Db.amended sid f) := by
  intro db r hr
  by_cases hsid : sid = aid
  · subst hsid
    exact ⟨f r, by rw [Db.installmentAgreement_amended hid, hr]; rfl, hpaid r, htotal r⟩
  · exact ⟨r, by rw [Db.installmentAgreement_amended_ne hid hsid, hr], rfl, rfl⟩

theorem aloof_quiet : Aloof aid (Quiet aid) (Elsewhere aid) where
  writes _ hw db r hr := ⟨r, (hw db).trans hr, rfl, rfl⟩
  asks _ hq := hq

theorem quiet_cancelled (sid : String) : Quiet aid (Db.amended sid cancelled) :=
  quiet_amended (f := cancelled) (fun _ => rfl) (fun _ => rfl) (fun _ => rfl) sid

theorem quiet_defaulted (sid : String) : Quiet aid (Db.amended sid defaulted) :=
  quiet_amended (f := defaulted) (fun _ => rfl) (fun _ => rfl) (fun _ => rfl) sid

theorem quiet_startedBy (runId : Nat) (sid : String) : Quiet aid (Db.amended sid (startedBy runId)) :=
  quiet_amended (f := startedBy runId) (fun _ => rfl) (fun _ => rfl) (fun _ => rfl) sid

theorem Quiet.relay {w : Db → Db} (h : Quiet aid w) {σ : Shared Backend} (hσ : RelayInv aid total reliable σ) :
    RelayInv aid total reliable (σ.committed w) ∧ relayView aid (σ.committed w) = relayView aid σ := by
  obtain ⟨r, hr, htotal⟩ := hσ.row
  obtain ⟨r', hr', hpaid, htotal'⟩ := h _ r hr
  refine ⟨⟨⟨r', hr', htotal'.trans htotal⟩, hσ.once, hσ.takes⟩, ?_⟩
  show View.mk ((w σ.store).paidCount aid) _ _ = View.mk (σ.store.paidCount aid) _ _
  rw [Db.paidCount, Db.paidCount, hr', hr]
  exact congrArg (View.mk · _ _) hpaid

/-! ## Answers -/

theorem oracle_accept (w : World) (events : List Event) : (events.foldl World.accept w).oracle = w.oracle := by
  induction events generalizing w with
  | nil => rfl
  | cons event events ih => exact (ih _).trans (by rcases w.accept_cases event with h | h <;> rw [h])

theorem oracle_reply (w : World) (q : Query) : (w.reply q).2.oracle = w.oracle := by
  cases q with
  | send events =>
      simp only [World.reply, World.effect]
      split_ifs
      · exact oracle_accept w events
      · rfl
  | deliver event =>
      simp only [World.reply, World.effect]
      split_ifs <;> rfl
  | _ => rfl

theorem RelayInv.asked {σ : Shared Backend} (h : RelayInv aid total reliable σ) (q : Query) :
    RelayInv aid total reliable (σ.asked q) := by
  have horacle : (σ.asked q).world.oracle = σ.world.oracle := oracle_reply σ.world q
  exact ⟨h.row, fun n => horacle ▸ h.once n, fun hreliable n => horacle ▸ h.takes hreliable n⟩

theorem accepted_accept {w : World} (events : List Event) {eventId : String} (h : w.Accepted eventId) :
    (events.foldl World.accept w).Accepted eventId := by
  induction events generalizing w with
  | nil => exact h
  | cons event events ih =>
      refine ih ?_
      obtain ⟨time, hmem⟩ := h
      rcases w.accept_cases event with hsame | hadded
      · rw [hsame]
        exact ⟨time, hmem⟩
      · rw [hadded]
        exact ⟨time, List.mem_append_left _ hmem⟩

/-- What the queue has accepted stays accepted. -/
theorem accepted_reply {w : World} (q : Query) {eventId : String} (h : w.Accepted eventId) : (w.reply q).2.Accepted eventId := by
  cases q with
  | send events =>
      have h' := accepted_accept events h
      simp only [World.reply, World.effect]
      split_ifs
      · exact h'
      · exact h
  | deliver event =>
      simp only [World.reply, World.effect]
      split_ifs <;> exact h
  | _ => exact h

/-- An event that the queue takes is accepted now, or was before. -/
theorem accepted_send {w : World} (event : Event) (h : w.oracle.sendError w.answered = none) :
    (w.reply (.send [event])).2.Accepted event.id := by
  simp only [World.reply, World.effect]
  rw [if_pos h]
  show (w.accept event).Accepted event.id
  unfold World.accept
  split_ifs with hseen
  · obtain ⟨seen, hmem, hid⟩ := List.any_eq_true.mp hseen
    obtain ⟨hsame, -⟩ := of_decide_eq_true hid
    exact ⟨seen.2, hsame ▸ hmem⟩
  · exact ⟨w.clock, List.mem_append_right _ (List.mem_singleton.mpr rfl)⟩

/-- Where the count stays, nothing stalls. -/
theorem stalled_before {σ σ' : Shared Backend} (hcount : σ'.store.paidCount aid = σ.store.paidCount aid)
    (haccepted : ∀ eventId, σ.world.Accepted eventId → σ'.world.Accepted eventId) (h : Stalled aid total σ') :
    Stalled aid total σ where
  begun := hcount ▸ h.begun
  left := hcount ▸ h.left
  unsent haccept := h.unsent (hcount ▸ haccepted _ haccept)

/-- What is sent reaches the queue, or is lost. -/
theorem dueFor_accept (aid : String) (w : World) (event : Event) : (w.accept event).dueFor aid = w.dueFor aid ∨
    (w.accept event).dueFor aid = w.dueFor aid ++ (event.dueFor aid).toList := by
  rcases w.accept_cases event with h | h
  · exact .inl (by rw [h])
  · refine .inr ?_
    rw [h]
    show (w.pending ++ [event]).filterMap _ = _
    rw [List.filterMap_append]
    cases hdue : event.dueFor aid <;> simp [hdue, World.dueFor]

theorem dueFor_accept_other {w : World} {events : List Event} (h : ∀ event ∈ events, event.dueFor aid = none) :
    (events.foldl World.accept w).dueFor aid = w.dueFor aid := by
  induction events generalizing w with
  | nil => rfl
  | cons event events ih =>
      refine (ih fun e he => h e (List.mem_cons_of_mem _ he)).trans ?_
      rcases dueFor_accept aid w event with hsame | hadded
      · exact hsame
      · rw [hadded, h event List.mem_cons_self]
        exact List.append_nil _

theorem dueFor_eq_some {event : Event} {data : InstallmentDue} :
    event.dueFor aid = some data ↔ event = .installmentDue data ∧ data.agreementId = aid := by
  cases event with
  | installmentDue d =>
      simp only [Event.dueFor, Option.ite_none_right_eq_some, Option.some.injEq, Event.installmentDue.injEq]
      constructor
      · rintro ⟨hid, rfl⟩; exact ⟨rfl, hid⟩
      · rintro ⟨rfl, hid⟩; exact ⟨hid, rfl⟩
  | _ => simp [Event.dueFor]

/-- A delivery takes one event out. -/
theorem dueFor_erase {events : List Event} {data : InstallmentDue} (hid : data.agreementId = aid)
    (hmem : Event.installmentDue data ∈ events) :
    (events.erase (.installmentDue data)).filterMap (Event.dueFor aid) = (events.filterMap (Event.dueFor aid)).erase data := by
  have hdue : (Event.installmentDue data).dueFor aid = some data := dueFor_eq_some.mpr ⟨rfl, hid⟩
  induction events with
  | nil => cases hmem
  | cons event events ih =>
      by_cases hevent : event = .installmentDue data
      · subst hevent
        rw [List.erase_cons_head, List.filterMap_cons_some hdue, List.erase_cons_head]
      · have hrest := (List.mem_cons.mp hmem).resolve_left (Ne.symm hevent)
        rw [List.erase_cons_tail (by simpa using hevent)]
        cases hother : event.dueFor aid with
        | none => rw [List.filterMap_cons_none hother, List.filterMap_cons_none hother, ih hrest]
        | some d =>
            have hd : d ≠ data := by
              rintro rfl
              exact hevent (dueFor_eq_some.mp hother).1
            rw [List.filterMap_cons_some hother, List.filterMap_cons_some hother, List.erase_cons_tail (by simpa using hd),
              ih hrest]

theorem dueFor_erase_other {events : List Event} {event : Event} (h : event.dueFor aid = none) :
    (events.erase event).filterMap (Event.dueFor aid) = events.filterMap (Event.dueFor aid) := by
  induction events with
  | nil => rfl
  | cons e events ih =>
      by_cases he : e = event
      · subst he
        rw [List.erase_cons_head, List.filterMap_cons_none h]
      · rw [List.erase_cons_tail (by simpa using he), List.filterMap_cons, List.filterMap_cons, ih]

/-- What the charge of an answer adds. -/
theorem paidTexts_reply (w : World) (q : Query) : World.paidTexts aid (w.reply q).2 = World.paidTexts aid w ++
    ((w.submitted q).filter fun s => s.charge.source = aid ∧ s.success).map (·.charge.key.idempotencyId) := by
  rw [World.paidTexts, World.succeededFor, World.submissions_reply, List.filter_append, List.map_append]
  rfl

theorem relayView_asked {σ : Shared Backend} {q : Query} (htexts : World.paidTexts aid (World.reply σ.world q).2 = World.paidTexts aid σ.world)
    (hdue : (World.reply σ.world q).2.dueFor aid = σ.world.dueFor aid) : relayView aid (σ.asked q) = relayView aid σ := by
  show View.mk _ (World.paidTexts aid (World.reply σ.world q).2) ((World.reply σ.world q).2.dueFor aid) = _
  rw [htexts, hdue]
  rfl

theorem dueFor_of_elsewhere {q : Query} (hq : Elsewhere aid q) (w : World) : (w.reply q).2.dueFor aid = w.dueFor aid := by
  cases q with
  | send events =>
      simp only [World.reply, World.effect]
      split_ifs
      · refine dueFor_accept_other fun event hevent => ?_
        cases hdue : event.dueFor aid with
        | none => rfl
        | some data =>
            obtain ⟨rfl, hid⟩ := dueFor_eq_some.mp hdue
            exact absurd hid (hq.send events rfl data hevent)
      · rfl
  | deliver event =>
      simp only [World.reply, World.effect]
      split_ifs
      · rfl
      · refine dueFor_erase_other ?_
        cases hdue : event.dueFor aid with
        | none => rfl
        | some data =>
            obtain ⟨rfl, hid⟩ := dueFor_eq_some.mp hdue
            exact absurd hid (hq.deliver data rfl)
  | _ => rfl

theorem paidTexts_of_elsewhere {q : Query} (hq : Elsewhere aid q) (w : World) :
    World.paidTexts aid (w.reply q).2 = World.paidTexts aid w := by
  rw [paidTexts_reply]
  cases q with
  | chargeRenewal charge => simp [World.submitted, hq.charge charge rfl]
  | _ => exact List.append_nil _

theorem Elsewhere.view {q : Query} (hq : Elsewhere aid q) (σ : Shared Backend) : relayView aid (σ.asked q) = relayView aid σ :=
  relayView_asked (paidTexts_of_elsewhere hq σ.world) (dueFor_of_elsewhere hq σ.world)

variable {own : Shared Backend → Shared Backend → Prop} {g : Turn}

/-- An answer by which nobody is rid of what he owes. -/
theorem moves_asked {σ : Shared Backend} {q : Query} {g' : Turn} (h : (turns aid total reliable).moves g σ g' (σ.asked q))
    (howes : OwesNext g → OwesNext g') : (installmentRelay aid total reliable).moves g σ g' (σ.asked q) := by
  have hstalled : Stalled aid total (σ.asked q) → Stalled aid total σ := stalled_before rfl fun _ => accepted_reply q
  exact Protocol.owing_of_kept h (fun hbad => ⟨hbad.1, hstalled hbad.2⟩) howes

/-- What the jobs of others do, and most of what those of the agreement do. -/
theorem lets_quiet : (installmentRelay aid total reliable).Lets own (Quiet aid) (Elsewhere aid) g where
  writes w σ hw hσ _ := by
    obtain ⟨hinv, hview⟩ := hw.relay hσ.1
    have hcount : (σ.committed w).store.paidCount aid = σ.store.paidCount aid := congrArg View.count hview
    exact Protocol.owing_of_kept ⟨hinv, hview ▸ .stay _ _⟩
      (fun hbad => ⟨hbad.1, stalled_before hcount (fun _ h => h) hbad.2⟩) fun h => h
  asks q σ hq hσ _ := moves_asked ⟨hσ.1.asked q, hq.view σ ▸ .stay _ _⟩ fun h => h

/-! ## The job of an installment -/

/-- A delivery gives the turn. -/
theorem moves_deliver {data : InstallmentDue} (hid : data.agreementId = aid) {σ : Shared Backend}
    (hσ : (installmentRelay aid total reliable).sees .idle σ) :
    ∃ g', (installmentRelay aid total reliable).moves .idle σ g' (σ.asked (.deliver (.installmentDue data))) ∧ ¬ OwesNext g' ∧
      (Event.installmentDue data ∈ σ.world.pending → g' = .due data.installmentNumber ∧ Texted aid data) := by
  have hinv := hσ.1.asked (.deliver (.installmentDue data))
  have hdue : ∀ events, World.dueFor aid { σ.world with pending := events } = events.filterMap (Event.dueFor aid) := fun _ => rfl
  have hqueue : (World.reply σ.world (.deliver (.installmentDue data))).2.dueFor aid =
      (σ.world.pending.erase (.installmentDue data)).filterMap (Event.dueFor aid) := by
    simp only [World.reply, World.effect, hσ.1.once]
    rfl
  have htexts : World.paidTexts aid (World.reply σ.world (.deliver (.installmentDue data))).2 = World.paidTexts aid σ.world := by
    rw [paidTexts_reply]
    exact List.append_nil _
  by_cases hpending : Event.installmentDue data ∈ σ.world.pending
  · have hmem : data ∈ σ.world.dueFor aid := List.mem_filterMap.mpr ⟨_, hpending, dueFor_eq_some.mpr ⟨rfl, hid⟩⟩
    refine ⟨.due data.installmentNumber, moves_asked ⟨hinv, ?_⟩ fun h => absurd h not_owes_idle, not_owes_due _,
      fun _ => ⟨rfl, hσ.2.fits data hmem⟩⟩
    have hview : relayView aid (σ.asked (.deliver (.installmentDue data))) =
        { relayView aid σ with queue := (σ.world.dueFor aid).erase data } := by
      show View.mk _ (World.paidTexts aid (World.reply σ.world _).2) ((World.reply σ.world _).2.dueFor aid) = _
      rw [htexts, hqueue, dueFor_erase hid hpending]
      rfl
    rw [hview]
    exact .take hmem
  · refine ⟨.idle, moves_asked ⟨hinv, ?_⟩ fun h => h, not_owes_idle, fun h => absurd h hpending⟩
    have hview : relayView aid (σ.asked (.deliver (.installmentDue data))) = relayView aid σ :=
      relayView_asked htexts (by rw [hqueue, List.erase_of_not_mem hpending]; rfl)
    rw [hview]
    exact .stay _ _

/-- A charge that succeeds does the installment. -/
theorem moves_charge {charge : RenewalCharge} {number : Nat} (hsource : charge.source = aid)
    (htext : charge.key.idempotencyId = installmentText aid number) {σ : Shared Backend}
    (hσ : (installmentRelay aid total reliable).sees (.due number) σ) :
    ∃ g', (installmentRelay aid total reliable).moves (.due number) σ g' (σ.asked (.chargeRenewal charge)) ∧ ¬ OwesNext g' ∧
      ∀ result, World.answer σ.world (.chargeRenewal charge) = .ok result →
        if result.success then g' = .done number else g' = .due number := by
  have hinv := hσ.1.asked (.chargeRenewal charge)
  by_cases hcharged : World.charged (σ.world.oracle.chargeRenewal σ.world.answered charge) = true
  · refine ⟨.done number, moves_asked ⟨hinv, ?_⟩ fun h => absurd h (not_owes_due _), not_owes_done _, fun result hresult => ?_⟩
    · have hview : relayView aid (σ.asked (.chargeRenewal charge)) =
          { relayView aid σ with log := (relayView aid σ).log ++ [installmentText aid number] } := by
        have htexts : World.paidTexts aid (World.reply σ.world (.chargeRenewal charge)).2 =
            World.paidTexts aid σ.world ++ [installmentText aid number] := by
          rw [paidTexts_reply]
          simp [World.submitted, hsource, hcharged, htext]
        show View.mk _ (World.paidTexts aid (World.reply σ.world _).2) _ = _
        rw [htexts]
        rfl
      rw [hview]
      exact .perform _ _
    · have hsuccess : result.success = true := by
        have hcharged' := hcharged
        rw [show σ.world.oracle.chargeRenewal σ.world.answered charge = .ok result from hresult] at hcharged'
        exact hcharged'
      rw [if_pos hsuccess]
  · refine ⟨.due number, moves_asked ⟨hinv, ?_⟩ fun h => h, not_owes_due _, fun result hresult => ?_⟩
    · have hview : relayView aid (σ.asked (.chargeRenewal charge)) = relayView aid σ := by
        refine relayView_asked ?_ rfl
        rw [paidTexts_reply]
        simp [World.submitted, hcharged]
      rw [hview]
      exact .stay _ _
    · split_ifs with hsuccess
      · refine absurd ?_ hcharged
        rw [show σ.world.oracle.chargeRenewal σ.world.answered charge = .ok result from hresult]
        exact hsuccess
      · rfl

/-- What sends the event of the next installment gives up the turn. -/
theorem plays_sendNext {number : Nat} {tenantId : Id} {dueDate : Nat} (hnext : number + 1 ≤ total) :
    (send [.installmentDue (installmentOf aid tenantId (number + 1) dueDate)]).Plays (installmentRelay aid total reliable) own
      (fun _ g => g = .idle) (.counted number) := by
  intro σ hσ _
  let next := installmentOf aid tenantId (number + 1) dueDate
  have hdue : (Event.installmentDue next).dueFor aid = some next := dueFor_eq_some.mpr ⟨rfl, rfl⟩
  have hinv := hσ.1.asked (.send [.installmentDue next])
  have htexts : World.paidTexts aid (World.reply σ.world (.send [.installmentDue next])).2 = World.paidTexts aid σ.world := by
    rw [paidTexts_reply]
    exact List.append_nil _
  -- A queue that takes the event pays the debt.
  have hpaid : ¬ (reliable ∧ Stalled aid total (σ.asked (.send [.installmentDue next]))) := by
    rintro ⟨hreliable, hstalled⟩
    have hcount : σ.store.paidCount aid = number := hσ.2.counted number rfl
    have hsent := accepted_send (.installmentDue next) (hσ.1.takes hreliable σ.world.answered)
    exact hstalled.unsent (by rw [show (σ.asked _).store.paidCount aid = number from hcount]; exact hsent)
  refine ⟨.idle, Protocol.owing_of_good ⟨hinv, ?_⟩ hpaid, ?_⟩
  swap
  · dsimp only [World.reply, World.answer, Transaction.Job.bind]
    cases σ.world.oracle.sendError σ.world.answered <;> rfl
  have hqueue : (World.reply σ.world (.send [.installmentDue next])).2.dueFor aid = σ.world.dueFor aid ∨
      (World.reply σ.world (.send [.installmentDue next])).2.dueFor aid = σ.world.dueFor aid ++ [next] := by
    simp only [World.reply, World.effect]
    split_ifs
    · refine (dueFor_accept aid σ.world (.installmentDue next)).imp id fun hadded => hadded.trans ?_
      rw [hdue]
      rfl
    · exact .inl rfl
  rcases hqueue with hlost | hqueued
  · rw [relayView_asked htexts hlost]
    exact .drop _ _
  · have hview : relayView aid (σ.asked (.send [.installmentDue next])) =
        { relayView aid σ with queue := (relayView aid σ).queue ++ [next] } := by
      show View.mk _ (World.paidTexts aid (World.reply σ.world _).2) ((World.reply σ.world _).2.dueFor aid) = _
      rw [htexts, hqueued]
      rfl
    rw [hview]
    exact .pass rfl hnext rfl

/-- An update that counts the installment. -/
theorem moves_count {number : Nat} {f : InstallmentAgreement → InstallmentAgreement} (hid : ∀ r, (f r).id = r.id)
    (htotal : ∀ r, (f r).totalInstallments = r.totalInstallments) (hpaid : ∀ r, (f r).paidCount = number) {σ : Shared Backend}
    (hσ : (installmentRelay aid total reliable).sees (.done number) σ) :
    (installmentRelay aid total reliable).moves (.done number) σ (.counted number) (σ.committed (Db.amended aid f)) := by
  obtain ⟨r, hr, hrtotal⟩ := hσ.1.row
  have hr' : (Db.amended aid f σ.store).installmentAgreement aid = some (f r) := by
    rw [Db.installmentAgreement_amended hid, hr]
    rfl
  refine Protocol.owing_of_owes ⟨⟨⟨f r, hr', (htotal r).trans hrtotal⟩, hσ.1.once, hσ.1.takes⟩, ?_⟩ ⟨number, rfl⟩
  have hview : relayView aid (σ.committed (Db.amended aid f)) = { relayView aid σ with count := number } := by
    show View.mk ((Db.amended aid f σ.store).paidCount aid) _ _ = _
    rw [Db.paidCount, hr']
    exact congrArg (View.mk · _ _) (hpaid r)
  rw [hview]
  exact .count _ _

theorem plays_countInstallment (number : Nat) {f : InstallmentAgreement → InstallmentAgreement} (hid : ∀ r, (f r).id = r.id)
    (htotal : ∀ r, (f r).totalInstallments = r.totalInstallments) (hpaid : ∀ r, (f r).paidCount = number) :
    (transaction (updateAgreement aid f)).Plays (installmentRelay aid total reliable) own
      (fun r g => match r with | .ok _ => g = .counted number | .error _ => g = .done number) (.done number) := by
  refine .transaction ?_ fun _ => rfl
  refine .of_writes (W := fun w _ => w = Db.amended aid f) (A := Elsewhere aid)
    (writes_updateAgreement (W := fun w => w = Db.amended aid f) rfl) (asks_updateAgreement _ _) (Protocol.drops_self _)
    lets_quiet.asks fun w row hw σ hσ _ => ?_
  subst hw
  exact ⟨.counted number, moves_count hid htotal hpaid hσ, rfl⟩

/-- Nobody who has ended owes an event. -/
def Settled (total : Nat) (g : Turn) : Prop := ∀ n, g = .counted n → total ≤ n

theorem settled_of_not_owes {g : Turn} (h : ¬ OwesNext g) : Settled total g := fun n hn => absurd ⟨n, hn⟩ h

theorem plays_countAndSend {data : InstallmentDue} (hdata : data.agreementId = aid) :
    (onInstallmentSuccess data).Plays (installmentRelay aid total reliable) own (fun _ => Settled total)
      (.done data.installmentNumber) := by
  subst hdata
  have hdone : Settled total (.done data.installmentNumber) := settled_of_not_owes (not_owes_done _)
  refine .bind (.get (fun σ hσ => ⟨_, Protocol.stays _ _ _ hσ, Protocol.drops_self _, ?_⟩) fun _ => hdone)
  obtain ⟨agreement, hrow, htotal⟩ := hσ.1.row
  -- The charge is the one after those that are counted.
  obtain ⟨hcount, -⟩ := hσ.2.done _ rfl
  have hpaid : agreement.paidCount + 1 = data.installmentNumber := by
    have hcount' : σ.store.paidCount data.agreementId + 1 = data.installmentNumber := hcount
    rwa [Db.paidCount, hrow] at hcount'
  rw [hrow]
  dsimp only
  split_ifs with hcomplete
  · refine .bind (.mono (plays_countInstallment data.installmentNumber ?_ ?_ ?_) fun r g hg => ?_)
    · exact fun _ => rfl
    · exact fun _ => rfl
    · exact fun _ => hpaid
    · cases r with
      | error e =>
          obtain rfl := hg
          exact hdone
      | ok row =>
          rintro n rfl
          obtain rfl := Turn.counted.inj hg
          omega
  · refine .after (does_askNow aloof_quiet) lets_quiet (fun now => ?_) fun _ => hdone
    refine .bind (.mono (plays_countInstallment data.installmentNumber ?_ ?_ ?_) fun r g hg => ?_)
    · exact fun _ => rfl
    · exact fun _ => rfl
    · exact fun _ => hpaid
    · cases r with
      | error e =>
          obtain rfl := hg
          exact hdone
      | ok row =>
          obtain rfl := hg
          refine .bind ((plays_sendNext (by omega)).mono fun r g' hg' => ?_)
          obtain rfl := hg'
          cases r <;> exact settled_of_not_owes not_owes_idle

theorem plays_relayDue (rt : AgreementRuntime) {data : InstallmentDue} (hdata : data.agreementId = aid) :
    ((AgreementRequest.due data).job rt).Plays (installmentRelay aid total reliable) own (fun _ => Settled total) .idle := by
  refine plays_due rt (K := fun g => g = .due data.installmentNumber ∧ Texted aid data)
    (fun σ hσ _ => ?_) fun g hg => ?_
  · obtain ⟨g', hmoves, howes, hturn⟩ := moves_deliver hdata hσ
    exact ⟨g', hmoves, settled_of_not_owes howes, hturn⟩
  refine plays_installmentCharge (K := fun g => g = .due data.installmentNumber ∧ Texted aid data)
    (S := fun g => g = .done data.installmentNumber) aloof_quiet (fun _ => lets_quiet) rt.toBilling data
    (fun runId => quiet_startedBy runId _) (quiet_defaulted _) (fun g hg => ?_) (fun charge σ g hg hsource hkey hσ _ => ?_)
    (fun g hg => hg ▸ plays_countAndSend hdata) hg
  · obtain ⟨rfl, -⟩ := hg
    exact settled_of_not_owes (not_owes_due _)
  obtain ⟨rfl, htext⟩ := hg
  obtain ⟨g', hmoves, howes, hok⟩ := moves_charge (hsource.trans hdata) (hkey ▸ htext) hσ
  refine ⟨g', hmoves, settled_of_not_owes howes, fun result hresult => ?_⟩
  have hturn := hok result hresult
  split_ifs at hturn ⊢
  · exact hturn
  · exact ⟨hturn, htext⟩

/-! ## The down payment -/

/-- No down payment is recorded once a payment is counted. -/
def ActivatesOnce (aid : String) (σ σ' : Shared Backend) : Prop :=
  σ.store.paidCount aid ≠ 0 → σ'.store.downPayments aid ≤ σ.store.downPayments aid

instance (aid : String) (σ σ' : Shared Backend) : Decidable (ActivatesOnce aid σ σ') :=
  inferInstanceAs (Decidable (_ → _))

/-- What an activation writes. -/
def opened (aid : String) (agreement : InstallmentAgreement) (encryptedProfileId : String)
    (nextChargeDate dueDate processedAt : Nat) (chargeId : String) (db : Db) : Db :=
  { db.amended aid (activated encryptedProfileId nextChargeDate) with
    installmentCharges := db.installmentCharges ++ [downPaymentCharge aid agreement dueDate processedAt chargeId] }

/-- The activation starts the relay, and is not made again. -/
theorem moves_opened {agreement : InstallmentAgreement} {encryptedProfileId chargeId : String}
    {nextChargeDate dueDate processedAt : Nat} {σ : Shared Backend} {g : Turn} (hg : g = .idle ∨ g = .counted 1)
    (hσ : (installmentRelay aid total reliable).sees g σ)
    (hown : ActivatesOnce aid σ
      (σ.committed (opened aid agreement encryptedProfileId nextChargeDate dueDate processedAt chargeId))) :
    (installmentRelay aid total reliable).moves g σ (.counted 1)
      (σ.committed (opened aid agreement encryptedProfileId nextChargeDate dueDate processedAt chargeId)) := by
  have hzero : σ.store.paidCount aid = 0 := by
    by_contra hpaid
    have hadded : (opened aid agreement encryptedProfileId nextChargeDate dueDate processedAt chargeId σ.store).downPayments aid =
        σ.store.downPayments aid + 1 := by
      simp [Db.downPayments, opened, downPaymentCharge, List.countP_append]
    exact absurd (hadded.symm.trans_le (hown hpaid)) (Nat.not_succ_le_self _)
  have hidle : g = .idle := hg.resolve_right fun hcounted => by
    have hcount : σ.store.paidCount aid = 1 := hσ.2.counted 1 hcounted
    omega
  subst hidle
  obtain ⟨r, hr, hrtotal⟩ := hσ.1.row
  have hr' : (Db.amended aid (activated encryptedProfileId nextChargeDate) σ.store).installmentAgreement aid =
      some (activated encryptedProfileId nextChargeDate r) := by
    rw [Db.installmentAgreement_amended (f := activated encryptedProfileId nextChargeDate) fun _ => rfl, hr]
    rfl
  refine Protocol.owing_of_owes ⟨⟨⟨_, hr', hrtotal⟩, hσ.1.once, hσ.1.takes⟩, ?_⟩ ⟨1, rfl⟩
  have hview : relayView aid
      (σ.committed (opened aid agreement encryptedProfileId nextChargeDate dueDate processedAt chargeId)) =
        { relayView aid σ with count := 1 } := by
    show View.mk (((Db.amended aid (activated encryptedProfileId nextChargeDate) σ.store).installmentAgreement aid).elim 0 _) _ _
      = _
    rw [hr']
    rfl
  rw [hview]
  exact .start hzero

theorem plays_sendSecond {agreement : InstallmentAgreement} (htotal : agreement.totalInstallments = total)
    (nextChargeDate : Nat) :
    (startInstallments aid agreement nextChargeDate).Plays (installmentRelay aid total reliable) own
      (fun _ g => g = .idle ∨ g = .counted 1 ∧ total ≤ 1) (.counted 1) := by
  unfold startInstallments
  split_ifs with hmore
  · exact (plays_sendNext (htotal ▸ hmore)).mono fun _ _ => Or.inl
  · refine .of_does (W := Quiet aid) (A := Elsewhere aid) ?_ lets_quiet fun _ => .inr ⟨rfl, by omega⟩
    refine Transaction.Job.Does.bind (does_amend (quiet_amended ?_ ?_ ?_ aid)) fun _ => trivial
    · exact fun _ => rfl
    · exact fun _ => rfl
    · exact fun _ => rfl

theorem plays_relayBootstrap (rt : AgreementRuntime) (payload : Settlement.Json) :
    ((AgreementRequest.bootstrap aid payload).job rt).Plays (installmentRelay aid total reliable) (ActivatesOnce aid)
      (fun _ => Settled total) .idle := by
  have hquiet : Aloof aid (Quiet aid) (Elsewhere aid) := aloof_quiet
  let Before (g : Turn) : Prop := g = .idle ∨ g = .counted 1 ∧ total ≤ 1
  have hsettled : ∀ g, Before g → Settled total g := by
    rintro g (rfl | ⟨rfl, hsingle⟩) n hn
    · cases hn
    · exact Turn.counted.inj hn ▸ hsingle
  have hkeeps : ∀ g, Before g → (bootstrapInstallmentAgreement rt aid payload).Plays
      (installmentRelay aid total reliable) (ActivatesOnce aid) (fun _ => Before) g := by
    intro g hg
    refine .after (W := Quiet aid) (A := Elsewhere aid) (Transaction.Job.does_ofExcept _) lets_quiet (fun found => ?_) fun _ => hg
    cases found.filter (·.truthy) with
    | none => exact hg
    | some storedProfileId =>
        refine .bind (.get (fun σ hσ => ⟨g, Protocol.stays _ _ _ hσ, Protocol.drops_self _, ?_⟩) fun _ => hg)
        obtain ⟨agreement, hrow, htotal⟩ := hσ.1.row
        rw [hrow]
        dsimp only
        split_ifs
        · exact hg
        refine .after (W := Quiet aid) (A := Elsewhere aid) (Transaction.Job.does_ofExcept _) lets_quiet
          (fun encryptedProfileId => ?_) fun _ => hg
        refine .after (does_askNow hquiet) lets_quiet (fun now => ?_) fun _ => hg
        refine .after (does_askNow hquiet) lets_quiet (fun dueDate => ?_) fun _ => hg
        refine .after (does_askNow hquiet) lets_quiet (fun processedAt => ?_) fun _ => hg
        let Opens (w : Db → Db) : Prop := ∃ chargeId,
          w = opened aid agreement encryptedProfileId (Data.addMonths now 1) dueDate processedAt chargeId
        refine .bind (.transaction (.of_writes (W := fun w _ => Opens w) (A := Elsewhere aid)
          (writes_activate (W := Opens) fun chargeId => ⟨chargeId, rfl⟩) (asks_activate hquiet _ _ _ _ _ _)
          (Protocol.drops_self _) lets_quiet.asks fun w _ hw σ hσ hown => ?_) fun _ => hg)
        obtain ⟨chargeId, rfl⟩ := hw
        exact ⟨.counted 1, moves_opened (hg.imp id And.left) hσ hown, plays_sendSecond htotal _⟩
  refine Transaction.Job.Plays.retry (K := Before) (fun g hg => (hkeeps g hg).mono fun r g' hr => ?_) _ (.inl rfl)
  cases r with
  | ok a => exact hsettled g' hr
  | error e => exact ⟨hr, hsettled g' hr⟩

theorem plays_relayRequest (rt : AgreementRuntime) (request : AgreementRequest) :
    (request.job rt).Plays (installmentRelay aid total reliable) (ActivatesOnce aid) (fun _ => Settled total) .idle := by
  by_cases hspares : request.Spares aid
  · exact .of_does (does_agreementRequest aloof_quiet rt hspares quiet_cancelled) lets_quiet fun _ =>
      settled_of_not_owes not_owes_idle
  · cases request with
    | due data => exact plays_relayDue rt (not_not.mp hspares)
    | bootstrap sid payload =>
        obtain rfl : sid = aid := not_not.mp hspares
        exact plays_relayBootstrap rt payload
    | cancel tenantId sid => exact absurd trivial hspares

/-! ## Runs -/

theorem relayJoint_start {db : Db} {w : World} {r : InstallmentAgreement} (hr : db.installmentAgreement aid = some r)
    (hpaid : r.paidCount = 0) (hdue : w.dueFor aid = []) (htexts : World.paidTexts aid w = [])
    (honce : ∀ n, w.oracle.redelivers n = false) (htakes : reliable → ∀ n, w.oracle.sendError n = none) :
    RelayJoint aid r.totalInstallments reliable (fun _ : ι => Turn.idle) ⟨db, w⟩ ∧
      (reliable ∧ Stalled aid r.totalInstallments ⟨db, w⟩ → ∃ i : ι, OwesNext ((fun _ => Turn.idle) i)) := by
  have hcount : db.paidCount aid = 0 := by
    rw [Db.paidCount, hr]
    exact hpaid
  refine ⟨⟨⟨⟨r, hr, rfl⟩, honce, htakes⟩, fun d hd => ?_, 0, htexts, Nat.zero_le _, Nat.zero_le _, ?_, .nobody hdue fun _ => rfl⟩,
    fun ⟨_, hstalled⟩ => ?_⟩
  · have hmem : d ∈ w.dueFor aid := hd
    rw [hdue] at hmem
    cases hmem
  · exact hcount.le.trans (Nat.zero_le _)
  · exact absurd (hcount.symm.trans_ge hstalled.begun) (Nat.not_succ_le_zero 0)

/-- Where each event is delivered once, and no activation adds a second down payment: in whatever order the jobs run, fail or
are cancelled, the charges of the agreement that succeed are those of its installments from the second one on, one after the
other, each of them once, none beyond the last one, and all of them but at most the last are counted. -/
theorem paid_in_order [DecidableEq ι] (rt : AgreementRuntime) (requests : ι → AgreementRequest) (aid : String) (db : Db)
    (w : World) (r : InstallmentAgreement) (hr : db.installmentAgreement aid = some r) (hpaid : r.paidCount = 0)
    (hdue : w.dueFor aid = []) (htexts : World.paidTexts aid w = []) (honce : ∀ n, w.oracle.redelivers n = false)
    (p : Pool Backend ι Unit)
    (hp : Pool.ReachableIf (fun p _ p' => ActivatesOnce aid p.shared p'.shared)
      (Pool.init (fun i => (requests i).job rt) db w) p) :
    ∃ k, World.paidTexts aid p.shared.world = (List.range' 2 k).map (installmentText aid) ∧ k ≤ r.totalInstallments - 1 ∧
      k ≤ p.shared.store.paidCount aid ∧ p.shared.store.paidCount aid ≤ k + 1 := by
  obtain ⟨γ, ⟨hjoint, -⟩, -⟩ := Pool.plays_run keeps_relayJoint.owing
    (relayJoint_start hr hpaid hdue htexts honce fun h : False => h.elim)
    (fun i => plays_relayRequest rt (requests i)) (fun _ _ _ _ h => h) hp
  obtain ⟨k, hlog, hlast, hcounted, hcount, -⟩ := hjoint.2.inOrder
  exact ⟨k, hlog, hlast, hcounted, hcount⟩

/-- The second installment is charged, and counted. -/
theorem paid_in_order_two : ∃ p,
    Pool.ReachableIf (fun p _ p' => ActivatesOnce "a" p.shared p'.shared)
      (Pool.init (fun i => (twoRequests i).job agreementRuntime) agreementDb (.start (fun _ => 0) (fun _ => true) [])) p ∧
      World.paidTexts "a" p.shared.world = ["a-inst-2"] ∧
      ∃ k, World.paidTexts "a" p.shared.world = (List.range' 2 k).map (installmentText "a") ∧ k ≤ 2 - 1 ∧
        k ≤ p.shared.store.paidCount "a" ∧ p.shared.store.paidCount "a" ≤ k + 1 := by
  let start := Pool.init (fun i => (twoRequests i).job agreementRuntime) agreementDb (.start (fun _ => 0) (fun _ => true) [])
  have hrun : ∃ p, Pool.ReachableIf (fun p _ p' => ActivatesOnce "a" p.shared p'.shared) start p ∧
      decide (World.paidTexts "a" p.shared.world = ["a-inst-2"]) = true :=
    Pool.ReachableIf.exists_of_check start (List.replicate 16 0 ++ List.replicate 36 1) _
      (fun p _ p' => decide (ActivatesOnce "a" p.shared p'.shared)) (fun _ _ _ _ => of_decide_eq_true) (by decide +kernel)
  obtain ⟨p, hp, hend⟩ := hrun
  exact ⟨p, hp, of_decide_eq_true hend, paid_in_order agreementRuntime twoRequests "a" agreementDb _ twoInstallments rfl rfl rfl
    rfl (fun _ => rfl) p hp⟩

/-- Where the queue also takes every event that is sent, no chain is lost: whenever every job has ended or has not begun, whatever
has failed, an agreement that counts a payment and has installments left has had the event of the next one accepted. -/
theorem next_accepted [DecidableEq ι] (rt : AgreementRuntime) (requests : ι → AgreementRequest) (aid : String) (db : Db)
    (w : World) (r : InstallmentAgreement) (hr : db.installmentAgreement aid = some r) (hpaid : r.paidCount = 0)
    (hdue : w.dueFor aid = []) (htexts : World.paidTexts aid w = []) (honce : ∀ n, w.oracle.redelivers n = false)
    (htakes : ∀ n, w.oracle.sendError n = none) (p : Pool Backend ι Unit)
    (hp : Pool.ReachableIf (fun p _ p' => ActivatesOnce aid p.shared p'.shared)
      (Pool.init (fun i => (requests i).job rt) db w) p) (hquiet : p.Quiescent)
    (hbegun : 1 ≤ p.shared.store.paidCount aid) (hleft : p.shared.store.paidCount aid < r.totalInstallments) :
    World.Accepted (installmentText aid (p.shared.store.paidCount aid + 1)) p.shared.world := by
  obtain ⟨γ, ⟨hjoint, hcovered⟩, hplays, hfirst⟩ := Pool.plays_run keeps_relayJoint.owing
    (relayJoint_start hr hpaid hdue htexts honce fun _ : True => htakes)
    (fun i => plays_relayRequest rt (requests i)) (fun _ _ _ _ h => h) hp
  by_contra hunsent
  obtain ⟨i, n, hturn⟩ := hcovered ⟨trivial, hbegun, hleft, hunsent⟩
  rcases hquiet i with hpc | hended
  · rw [hfirst i hpc] at hturn
    cases hturn
  · -- Who has ended with an installment counted has counted the last one.
    obtain ⟨_, hsettled⟩ := (hplays i).ended hended
    have hlast : r.totalInstallments ≤ n := hsettled n hturn
    have hcount : p.shared.store.paidCount aid = n := (hjoint.2.sees i).counted n hturn
    omega

/-- An agreement of three installments. -/
def threeInstallments : InstallmentAgreement := { twoInstallments with principalAmount := 30000, totalInstallments := 3 }

def chainDb : Db := { agreementDb with installmentAgreements := [threeInstallments] }

/-- After the down payment and the second installment, the event of the third one. -/
theorem next_accepted_second : ∃ p,
    Pool.ReachableIf (fun p _ p' => ActivatesOnce "a" p.shared p'.shared)
      (Pool.init (fun i => (twoRequests i).job agreementRuntime) chainDb (.start (fun _ => 0) (fun _ => true) [])) p ∧
      p.shared.store.paidCount "a" = 2 ∧ World.Accepted "a-inst-3" p.shared.world := by
  let start := Pool.init (fun i => (twoRequests i).job agreementRuntime) chainDb (.start (fun _ => 0) (fun _ => true) [])
  have hrun : ∃ p, Pool.ReachableIf (fun p _ p' => ActivatesOnce "a" p.shared p'.shared) start p ∧
      decide ((∀ i, (p.threads i).pc = 0 ∨ (p.threads i).phase.Finished) ∧ p.shared.store.paidCount "a" = 2) = true :=
    Pool.ReachableIf.exists_of_check start (List.replicate 16 0 ++ List.replicate 38 1) _
      (fun p _ p' => decide (ActivatesOnce "a" p.shared p'.shared)) (fun _ _ _ _ => of_decide_eq_true) (by decide +kernel)
  obtain ⟨p, hp, hend⟩ := hrun
  obtain ⟨hquiet, hcount⟩ := of_decide_eq_true hend
  have haccepted := next_accepted agreementRuntime twoRequests "a" chainDb _ threeInstallments rfl rfl rfl rfl (fun _ => rfl)
    (fun _ => rfl) p hp hquiet (hcount.symm ▸ by decide) (hcount.trans_lt (by decide))
  rw [hcount] at haccepted
  exact ⟨p, hp, hcount, haccepted⟩

end CorpoPay.Billing
