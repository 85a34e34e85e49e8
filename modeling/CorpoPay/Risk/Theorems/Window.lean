import CorpoPay.Risk.Engine

/-!
# The velocity window

An entry is pruned when it is older than the window of an event. The times of a tenant go on, so no later window has it
either: in every window from now on, the store has what the history has.
-/

namespace CorpoPay.Risk

/-- The times of a tenant's events. -/
def timesOf (events : List RiskEvent) (tenantId : String) : List Int :=
  (events.filter (·.tenantId = tenantId)).map (·.occurredAt)

/-- The times that are in the window of a time. -/
def within (windowSeconds : Rat) (time : Int) (times : List Int) : List Int :=
  times.filter fun t => cutoff time windowSeconds ≤ t

/-- The earlier events of the tenant that are in the window of an event. -/
def inWindow (windowSeconds : Rat) (earlier : List RiskEvent) (event : RiskEvent) : Nat :=
  (earlier.filter fun e => e.tenantId = event.tenantId ∧ cutoff event.occurredAt windowSeconds ≤ e.occurredAt).length

/-- The times of a tenant do not go back. -/
def InOrder (events : List RiskEvent) : Prop :=
  events.Pairwise fun e e' => e.tenantId = e'.tenantId → e.occurredAt ≤ e'.occurredAt

/-- In every window from now on, the store has the times of the events. -/
structure Holds (windowSeconds : Rat) (past : List RiskEvent) (evaluator : Evaluator) : Prop where
  window : evaluator.velocity.windowSeconds = windowSeconds
  times : ∀ key time, (∀ t ∈ timesOf past key, t ≤ time) →
    within windowSeconds time ((evaluator.velocity.store.events key).getD []) =
      within windowSeconds time (timesOf past key)

variable {windowSeconds : Rat} {past events : List RiskEvent} {evaluator : Evaluator} {event : RiskEvent}

/-! ## The store -/

section Store

variable {store : MemoryVelocityStore} {key key' : String} {time : Int}

theorem events_prune : ((store.prune key time windowSeconds).events key).getD [] =
    within windowSeconds time ((store.events key).getD []) := by
  cases h : store.events key with
  | none => simp [MemoryVelocityStore.prune, within, h]
  | some list => simp [MemoryVelocityStore.prune, within, h]

theorem events_prune_of_ne (hne : key' ≠ key) :
    (store.prune key time windowSeconds).events key' = store.events key' := by
  cases h : store.events key with
  | none => simp only [MemoryVelocityStore.prune, h]
  | some list => simp only [MemoryVelocityStore.prune, h, Function.update_of_ne hne]

theorem events_add : ((store.add key time windowSeconds).events key).getD [] =
    within windowSeconds time ((store.events key).getD []) ++ [time] := by
  rw [MemoryVelocityStore.add, ← events_prune]
  simp

theorem events_add_of_ne (hne : key' ≠ key) : (store.add key time windowSeconds).events key' = store.events key' := by
  rw [MemoryVelocityStore.add]
  dsimp only
  rw [Function.update_of_ne hne, events_prune_of_ne hne]

end Store

/-- An entry that a window has is in every earlier window. -/
theorem within_within {times : List Int} {time time' : Int} (h : time ≤ time') :
    within windowSeconds time' (within windowSeconds time times) = within windowSeconds time' times := by
  rw [within, within, List.filter_filter, within]
  refine List.filter_congr fun t _ => ?_
  by_cases hlate : cutoff time' windowSeconds ≤ t
  · simp [hlate, (cutoff_mono windowSeconds h).trans hlate]
  · simp [hlate]

theorem within_append (time : Int) (times times' : List Int) :
    within windowSeconds time (times ++ times') = within windowSeconds time times ++ within windowSeconds time times' :=
  List.filter_append _ _

/-! ## Evaluations -/

theorem mem_timesOf {key : String} {t : Int} : t ∈ timesOf events key ↔ ∃ e ∈ events, e.tenantId = key ∧ e.occurredAt = t := by
  simp [timesOf, and_assoc]

theorem inWindow_eq (windowSeconds : Rat) (earlier : List RiskEvent) (event : RiskEvent) : inWindow windowSeconds earlier event =
    (within windowSeconds event.occurredAt (timesOf earlier event.tenantId)).length := by
  rw [inWindow, within, timesOf, List.filter_map, List.length_map, List.filter_filter]
  congr 2
  funext e
  simp [Bool.and_comm]

theorem Holds.score (h : Holds windowSeconds past evaluator) (hlast : ∀ t ∈ timesOf past event.tenantId, t ≤ event.occurredAt) :
    (evaluator.evaluate event).1.score = inWindow windowSeconds past event := by
  rw [inWindow_eq, ← h.times event.tenantId event.occurredAt hlast]
  simp only [Evaluator.evaluate, Velocity.count, MemoryVelocityStore.count, evaluateRisk_score]
  rw [events_prune, h.window]

theorem Holds.evaluate (h : Holds windowSeconds past evaluator) (event : RiskEvent) :
    Holds windowSeconds (past ++ [event]) (evaluator.evaluate event).2 where
  window := h.window
  times key time hle := by
    have htimes : timesOf (past ++ [event]) key = timesOf past key ++ if event.tenantId = key then [event.occurredAt] else [] := by
      rw [timesOf, timesOf, List.filter_append, List.map_append]
      congr 1
      split_ifs with hkey <;> simp [hkey]
    have hpast : ∀ t ∈ timesOf past key, t ≤ time := by
      intro t ht
      refine hle t ?_
      rw [htimes]
      exact List.mem_append_left _ ht
    simp only [Evaluator.evaluate, Velocity.count, Velocity.record, MemoryVelocityStore.count, h.window]
    rw [htimes, within_append, ← h.times key time hpast]
    by_cases hkey : key = event.tenantId
    · subst hkey
      -- The new entry is of now, and the entries that were dropped are in no window from now on.
      have hnow : event.occurredAt ≤ time := by
        refine hle event.occurredAt ?_
        rw [htimes, if_pos rfl]
        exact List.mem_append_right _ (List.mem_singleton_self _)
      rw [events_add, events_prune, within_append, within_within hnow, within_within hnow, if_pos rfl]
    · rw [events_add_of_ne hkey, events_prune_of_ne hkey, if_neg (Ne.symm hkey)]
      exact (List.append_nil _).symm

theorem Holds.scores (h : Holds windowSeconds past evaluator) (horder : InOrder (past ++ events)) (n : Nat)
    (hevent : events[n]? = some event) :
    ((evaluator.evaluateAll events)[n]?).map (·.score) = some (inWindow windowSeconds (past ++ events.take n) event) := by
  induction events generalizing past evaluator n with
  | nil => cases hevent
  | cons first rest ih =>
    have hlast : ∀ t ∈ timesOf past first.tenantId, t ≤ first.occurredAt := by
      intro t ht
      obtain ⟨e, he, htenant, rfl⟩ := mem_timesOf.mp ht
      exact (List.pairwise_append.mp horder).2.2 e he first List.mem_cons_self htenant
    cases n with
    | zero =>
      obtain rfl := Option.some.inj hevent
      rw [List.take_zero, List.append_nil, ← h.score hlast]
      rfl
    | succ n =>
      have hrest := ih (h.evaluate first) (by rwa [List.append_assoc]) n hevent
      rwa [List.append_assoc] at hrest

/-- The score of an event is the number of the tenant's earlier events in its window. -/
theorem score_exact (windowSeconds : Rat) (thresholds : RiskThresholds) {events : List RiskEvent} (horder : InOrder events)
    {n : Nat} {event : RiskEvent} (hevent : events[n]? = some event) :
    (((Evaluator.new windowSeconds thresholds).evaluateAll events)[n]?).map (·.score) =
      some (inWindow windowSeconds (events.take n) event) := by
  have hnew : Holds windowSeconds [] (Evaluator.new windowSeconds thresholds) := ⟨rfl, fun _ _ _ => rfl⟩
  exact hnew.scores horder n hevent

/-- Events of two tenants, two of them an hour apart. -/
def eventsOfTwo : List RiskEvent :=
  [⟨"e1", "a", 100, 0⟩, ⟨"e2", "b", 100, 5⟩, ⟨"e3", "a", 100, 3600000⟩, ⟨"e4", "a", 100, 3600001⟩]

theorem score_exact_edge : (((Evaluator.new 3600 DEFAULT_RISK_THRESHOLDS).evaluateAll eventsOfTwo)[3]?).map (·.score) =
    some (inWindow 3600 (eventsOfTwo.take 3) ⟨"e4", "a", 100, 3600001⟩) :=
  score_exact 3600 DEFAULT_RISK_THRESHOLDS (by unfold InOrder; decide) rfl

end CorpoPay.Risk
