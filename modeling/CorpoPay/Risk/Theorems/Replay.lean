import CorpoPay.Risk.Decisions

/-!
# An event that is evaluated again

The first evaluation writes the record that the second one counts.
-/

namespace CorpoPay.Risk

open Data (upsert upsert_of_absent upsert_of_present)

/-- A row but for the time of its last update. -/
def RiskDecisionRecord.content (row : RiskDecisionRecord) : RiskDecisionRecord := { row with updatedAt := row.createdAt }

/-- A second evaluation decides the same, and the stored decisions stay as they are. -/
structure Stable (first second : EvaluateRiskResult) (rows rows' : List RiskDecisionRecord) : Prop where
  decision : second.decision.toRiskScore = first.decision.toRiskScore
  stored : rows'.map (·.content) = rows.map (·.content)

/-- The rows of the tenant and of the event. -/
def EvaluateRiskInput.concerns (input : EvaluateRiskInput) (row : RiskDecisionRecord) : Bool :=
  row.tenantId = input.tenantId ∨ row.eventId = input.eventId

/-- The row counts for the velocity of an event. -/
def EvaluateRiskInput.counts (input : EvaluateRiskInput) (row : RiskDecisionRecord) : Bool :=
  row.tenantId = input.tenantId ∧ cutoff input.occurredAt DEFAULT_VELOCITY_WINDOW_SECONDS ≤ row.createdAt

variable {input : EvaluateRiskInput} {stamp stamp' : Stamp} {rows rows' : List RiskDecisionRecord}

theorem decision_eq (input : EvaluateRiskInput) (rows : List RiskDecisionRecord) :
    input.decision rows =
      { evaluateRisk input.amountCents (rows.filter input.counts).length (input.thresholds.getD DEFAULT_RISK_THRESHOLDS) with
        eventId := input.eventId, tenantId := input.tenantId } := rfl

theorem decision_score (input : EvaluateRiskInput) (rows : List RiskDecisionRecord) :
    (input.decision rows).score = (rows.filter input.counts).length := by
  rw [decision_eq, evaluateRisk_score]

/-- The decision depends on the rows of the tenant alone. -/
theorem decision_congr (h : rows'.filter input.concerns = rows.filter input.concerns) :
    input.decision rows' = input.decision rows := by
  have hcounts : ∀ rows : List RiskDecisionRecord, rows.filter input.counts = (rows.filter input.concerns).filter input.counts := by
    intro rows
    rw [List.filter_filter]
    congr 1
    funext row
    by_cases htenant : row.tenantId = input.tenantId <;> simp [EvaluateRiskInput.counts, EvaluateRiskInput.concerns, htenant]
  rw [decision_eq, decision_eq, hcounts rows', h, ← hcounts rows]

/-! ## The record of the event -/

theorem counts_upsert_present (decision : RiskDecision) (stamp : Stamp) (h : ∃ row ∈ rows, row.eventId = decision.eventId) :
    ((upsert (·.eventId) (decision.create stamp) (decision.update stamp) rows).filter input.counts).length =
      (rows.filter input.counts).length := by
  obtain ⟨row, hrow, hkey⟩ := h
  have hcounts : (input.counts ∘ fun r : RiskDecisionRecord =>
      if r.eventId = (decision.create stamp).eventId then decision.update stamp r else r) = input.counts := by
    funext r
    rw [Function.comp_apply]
    split_ifs <;> rfl
  rw [upsert_of_present hrow hkey, List.filter_map, List.length_map, hcounts]

theorem counts_upsert_absent (decision : RiskDecision) (stamp : Stamp) (h : ∀ row ∈ rows, row.eventId ≠ decision.eventId) :
    ((upsert (·.eventId) (decision.create stamp) (decision.update stamp) rows).filter input.counts).length =
      (rows.filter input.counts).length + if input.counts (decision.create stamp) then 1 else 0 := by
  rw [upsert_of_absent h, List.filter_append, List.length_append]
  congr 1
  split_ifs with hcounts <;> simp [hcounts]

/-- Afterwards there is a record of the event, and each of them has the decision. -/
theorem recorded_upsert (decision : RiskDecision) (stamp : Stamp) (rows : List RiskDecisionRecord) :
    (∃ row ∈ upsert (·.eventId) (decision.create stamp) (decision.update stamp) rows, row.eventId = decision.eventId) ∧
      ∀ row ∈ upsert (·.eventId) (decision.create stamp) (decision.update stamp) rows, row.eventId = decision.eventId →
        ∀ stamp', (decision.update stamp' row).content = row.content := by
  by_cases h : ∃ row ∈ rows, row.eventId = decision.eventId
  · obtain ⟨row, hrow, hkey⟩ := h
    rw [upsert_of_present hrow hkey]
    refine ⟨⟨_, List.mem_map_of_mem hrow, ?_⟩, fun r hr hevent stamp' => ?_⟩
    · split_ifs <;> exact hkey
    · obtain ⟨r₀, -, rfl⟩ := List.mem_map.mp hr
      split_ifs at hevent ⊢ with hkey₀
      · rfl
      · exact absurd hevent hkey₀
  · have habsent : ∀ row ∈ rows, row.eventId ≠ decision.eventId := fun row hrow hkey => h ⟨row, hrow, hkey⟩
    rw [upsert_of_absent habsent]
    refine ⟨⟨_, List.mem_append_right _ (List.mem_singleton_self _), rfl⟩, fun r hr hevent stamp' => ?_⟩
    rcases List.mem_append.mp hr with hold | hnew
    · exact absurd hevent (habsent r hold)
    · rw [List.mem_singleton.mp hnew]
      rfl

/-- An evaluation that decides what is recorded leaves the stored decisions as they are. -/
theorem content_upsert {decision : RiskDecision} (stamp : Stamp) (hpresent : ∃ row ∈ rows, row.eventId = decision.eventId)
    (hsame : ∀ row ∈ rows, row.eventId = decision.eventId → (decision.update stamp row).content = row.content) :
    (upsert (·.eventId) (decision.create stamp) (decision.update stamp) rows).map (·.content) = rows.map (·.content) := by
  obtain ⟨row, hrow, hkey⟩ := hpresent
  rw [upsert_of_present hrow hkey, List.map_map]
  refine List.map_congr_left fun r hr => ?_
  rw [Function.comp_apply]
  split_ifs with hevent
  · exact hsame r hr hevent
  · rfl

/-! ## The second evaluation -/

/-- The record of the event is counted by the second evaluation when it is new and recent. -/
theorem counts_recorded (input : EvaluateRiskInput) (stamp : Stamp) (rows : List RiskDecisionRecord) :
    ((evaluateAndRecordRisk input stamp rows).2.filter input.counts).length = (rows.filter input.counts).length ↔
      (∃ row ∈ rows, row.eventId = input.eventId) ∨
        (stamp.now : Rat) < cutoff input.occurredAt DEFAULT_VELOCITY_WINDOW_SECONDS := by
  by_cases hpresent : ∃ row ∈ rows, row.eventId = input.eventId
  · exact ⟨fun _ => .inl hpresent, fun _ => counts_upsert_present (input.decision rows) stamp hpresent⟩
  · have habsent : ∀ row ∈ rows, row.eventId ≠ input.eventId := fun row hrow hkey => hpresent ⟨row, hrow, hkey⟩
    have hcount := @counts_upsert_absent input rows (input.decision rows) stamp habsent
    have hnew : input.counts ((input.decision rows).create stamp) = true ↔
        cutoff input.occurredAt DEFAULT_VELOCITY_WINDOW_SECONDS ≤ stamp.now := by
      simp [EvaluateRiskInput.counts, RiskDecision.create, EvaluateRiskInput.decision]
    rw [evaluateAndRecordRisk, or_iff_right hpresent, ← not_le, ← hnew]
    dsimp only
    rw [hcount]
    split_ifs with hcounts <;> simp [hcounts]

/-- A second evaluation is stable exactly when the first one found a record of the event, or made one that is too old to be
counted. Between the two no other event of the tenant is recorded. -/
theorem replay_stable_iff
    (hbetween : rows'.filter input.concerns = (evaluateAndRecordRisk input stamp rows).2.filter input.concerns) :
    Stable (evaluateAndRecordRisk input stamp rows).1 (evaluateAndRecordRisk input stamp' rows').1 rows'
        (evaluateAndRecordRisk input stamp' rows').2 ↔
      (∃ row ∈ rows, row.eventId = input.eventId) ∨
        (stamp.now : Rat) < cutoff input.occurredAt DEFAULT_VELOCITY_WINDOW_SECONDS := by
  have hsecond : input.decision rows' = input.decision (evaluateAndRecordRisk input stamp rows).2 := decision_congr hbetween
  rw [← counts_recorded]
  constructor
  · intro h
    have hscore : (input.decision rows').score = (input.decision rows).score := congrArg RiskScore.score h.decision
    rwa [hsecond, decision_score, decision_score] at hscore
  · intro hcount
    have hsame : input.decision rows' = input.decision rows := by rw [hsecond, decision_eq, decision_eq, hcount]
    obtain ⟨⟨row, hrow, hkey⟩, hrecorded⟩ := recorded_upsert (input.decision rows) stamp rows
    have hmem : ∀ r, r.eventId = input.eventId → (r ∈ rows' ↔ r ∈ (evaluateAndRecordRisk input stamp rows).2) := by
      intro r hr
      have hconcerns : input.concerns r = true := decide_eq_true (.inr hr)
      have hiff : r ∈ rows'.filter input.concerns ↔ r ∈ (evaluateAndRecordRisk input stamp rows).2.filter input.concerns := by
        rw [hbetween]
      simpa [List.mem_filter, hconcerns] using hiff
    refine ⟨congrArg RiskDecision.toRiskScore hsame, ?_⟩
    refine content_upsert stamp' ⟨row, (hmem row hkey).mpr hrow, hkey⟩ fun r hr hevent => ?_
    rw [hsame]
    exact hrecorded r ((hmem r hevent).mp hr) hevent stamp'

/-- The event was evaluated before. -/
def evaluatedInput : EvaluateRiskInput :=
  { eventId := "pi_1", tenantId := "t_1", amountCents := 100, occurredAt := 10000000, thresholds := none }

def evaluatedRow : RiskDecisionRecord :=
  { id := "r_1", tenantId := "t_1", eventId := "pi_1", verdict := .allow, score := 0, reasons := [], createdAt := 9999000
    updatedAt := 9999000 }

theorem replay_stable_iff_recorded :
    Stable (evaluateAndRecordRisk evaluatedInput ⟨"r_2", 10000001⟩ [evaluatedRow]).1
        (evaluateAndRecordRisk evaluatedInput ⟨"r_3", 10000002⟩
          (evaluateAndRecordRisk evaluatedInput ⟨"r_2", 10000001⟩ [evaluatedRow]).2).1
        (evaluateAndRecordRisk evaluatedInput ⟨"r_2", 10000001⟩ [evaluatedRow]).2
        (evaluateAndRecordRisk evaluatedInput ⟨"r_3", 10000002⟩
          (evaluateAndRecordRisk evaluatedInput ⟨"r_2", 10000001⟩ [evaluatedRow]).2).2 ↔
      (∃ row ∈ [evaluatedRow], row.eventId = "pi_1") ∨
        ((10000001 : Int) : Rat) < cutoff 10000000 DEFAULT_VELOCITY_WINDOW_SECONDS :=
  @replay_stable_iff evaluatedInput ⟨"r_2", 10000001⟩ ⟨"r_3", 10000002⟩ [evaluatedRow] _ rfl

/-- The first event of a tenant counts itself when it is evaluated again. -/
theorem not_replay_stable : ¬ ∀ (input : EvaluateRiskInput) (stamp stamp' : Stamp) (rows rows' : List RiskDecisionRecord),
    rows'.filter input.concerns = (evaluateAndRecordRisk input stamp rows).2.filter input.concerns →
    Stable (evaluateAndRecordRisk input stamp rows).1 (evaluateAndRecordRisk input stamp' rows').1 rows'
      (evaluateAndRecordRisk input stamp' rows').2 := by
  intro h
  have hstable := h evaluatedInput ⟨"r_2", 10000001⟩ ⟨"r_3", 10000002⟩ [] _ rfl
  have hscore := congrArg RiskScore.score hstable.decision
  exact absurd hscore (by decide +kernel)

end CorpoPay.Risk
