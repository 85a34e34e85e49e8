import CorpoPay.Billing.Queue

/-!
# What an answer leaves behind
-/

namespace CorpoPay.Billing.World

open Data (DAY_MS)

/-! ## Sending -/

theorem accept_cases (w : World) (event : Event) : w.accept event = w ∨
    w.accept event =
      { w with pending := w.pending ++ [event], accepted := w.accepted ++ [(event.id, w.clock)] } := by
  unfold accept
  split_ifs
  · exact .inl rfl
  · exact .inr rfl

@[simp] theorem submissions_accept (w : World) (events : List Event) :
    (events.foldl accept w).submissions = w.submissions := by
  induction events generalizing w with
  | nil => rfl
  | cons event events ih => exact (ih _).trans (by rcases w.accept_cases event with h | h <;> rw [h])

@[simp] theorem clock_accept (w : World) (events : List Event) : (events.foldl accept w).clock = w.clock := by
  induction events generalizing w with
  | nil => rfl
  | cons event events ih => exact (ih _).trans (by rcases w.accept_cases event with h | h <;> rw [h])

theorem mem_pending_accept {w : World} {events : List Event} {event : Event}
    (h : event ∈ (events.foldl accept w).pending) : event ∈ w.pending ∨ event ∈ events := by
  induction events generalizing w with
  | nil => exact .inl h
  | cons e events ih =>
      rcases ih h with hmem | hmem
      · rcases w.accept_cases e with haccept | haccept
        · exact .inl (haccept ▸ hmem)
        · rw [haccept] at hmem
          rcases List.mem_append.mp hmem with hold | hnew
          · exact .inl hold
          · exact .inr (List.mem_cons.mpr (.inl (List.mem_singleton.mp hnew)))
      · exact .inr (List.mem_cons_of_mem _ hmem)

/-! ## Answers -/

/-- The charge that a question submits. -/
def submitted (w : World) : Query → List Submission
  | .chargeRenewal charge =>
      [{ charge, time := w.clock, success := charged (w.oracle.chargeRenewal w.answered charge) }]
  | .now | .cuid | .runId | .send _ | .deliver _ | .sleepUntil _ => []

theorem submissions_reply (w : World) (q : Query) : (w.reply q).2.submissions = w.submissions ++ w.submitted q := by
  cases q with
  | send events =>
      simp only [reply, effect, submitted, List.append_nil]
      split_ifs <;> simp
  | deliver event =>
      simp only [reply, effect, submitted, List.append_nil]
      split_ifs <;> rfl
  | _ => simp [reply, effect, submitted]

theorem clock_le_reply (w : World) (q : Query) : w.clock ≤ (w.reply q).2.clock := by
  refine le_trans ?_ (Nat.le_add_right _ _)
  cases q with
  | send events => simp only [effect]; split_ifs <;> simp
  | deliver event => simp only [effect]; split_ifs <;> simp
  | sleepUntil time => exact le_max_left _ _
  | _ => exact le_refl _

theorem mem_pending_reply {w : World} {q : Query} {event : Event} (h : event ∈ (w.reply q).2.pending) :
    event ∈ w.pending ∨ ∃ events, q = .send events ∧ event ∈ events := by
  cases q with
  | send events =>
      simp only [reply, effect] at h
      split_ifs at h
      · exact (mem_pending_accept h).imp id fun hmem => ⟨events, rfl, hmem⟩
      · exact .inl h
  | deliver delivered =>
      simp only [reply, effect] at h
      split_ifs at h
      · exact .inl h
      · exact .inl (List.mem_of_mem_erase h)
  | _ => exact .inl h

end CorpoPay.Billing.World
