import CorpoPay.Settlement.Lemmas.FreshIds
import CorpoPay.Settlement.Lemmas.Effects
import CorpoPay.Settlement.Lemmas.Reconcile

/-!
# Main theorem: reports of captures

The internal line of a source adds up all its debits, and a capture debits its gross once into COLLECTED and once more out
of it. A report of captures never agrees with the ledger, unless it has no line.
-/

namespace CorpoPay.Settlement

open Transaction.Tx
open Data (totals amountsOf lookup_totals)

/-! ## Captures and their report -/

/-- A run of captures, with those that were booked. A configuration may change in between. -/
inductive CaptureRun : List (Id × SettleCaptureInput) → Db → Prop
  | init (config : Config) : CaptureRun [] (.empty config)
  | configured {captures : List (Id × SettleCaptureInput)} {db : Db} (config : Config) (h : CaptureRun captures db) :
      CaptureRun captures { db with toConfig := config }
  | captured {captures : List (Id × SettleCaptureInput)} {db db' : Db} {w w' : World} (t : Id) (input : SettleCaptureInput)
      (h : CaptureRun captures db) (hrun : (settleCapture t input).run db w = (.ok true, db', w')) :
      CaptureRun (captures ++ [(t, input)]) db'
  | refused {captures : List (Id × SettleCaptureInput)} {db db' : Db} {w w' : World} {r : Except Failure Bool} (t : Id)
      (input : SettleCaptureInput) (h : CaptureRun captures db) (hrun : (settleCapture t input).run db w = (r, db', w'))
      (hr : r ≠ .ok true) : CaptureRun captures db'

/-- The captures of a tenant in one currency, as the provider lists them. -/
def reportedCaptures (captures : List (Id × SettleCaptureInput)) (t : Id) (c : Currency) : List (Id × Int) :=
  (captures.filter fun x => x.1 = t ∧ x.2.captureCurrency = c).map fun x => (x.2.intentId, x.2.amountCents)

/-- The report of the captures is stored and run. -/
def reconcileCaptures (t : Id) (provider : Provider) (c : Currency) (captures : List (Id × SettleCaptureInput)) :
    Job ReconciliationReportWithLines := do
  let report ← createReconciliationReport t { provider, currency := some c, lines := reportedCaptures captures t c }
  runReconciliation t report.1.id

/-- Every line is matched to the centime, and the internal line of every capture is its gross. -/
def Agrees (lines : List ReconciliationLine) (internal reported : List (Id × Int)) : Prop :=
  (∀ line ∈ lines, line.status = .exact) ∧ ∀ r ∈ reported, internal.lookup r.1 = some r.2

/-! ## What a run of captures leaves -/

/-- A capture that was booked, with its plan. -/
structure BookedCapture where
  tenantId : Id
  input : SettleCaptureInput
  plan : CapturePlan

def BookedCapture.movements (b : BookedCapture) : List Movement := captureMovements b.tenantId b.input b.plan

/-- The ledger holds the captures and nothing else, each intent is captured once, and there is no report yet. -/
structure HoldsCaptures (captures : List (Id × SettleCaptureInput)) (booked : List BookedCapture) (db : Db) : Prop where
  inputs : captures = booked.map fun b => (b.tenantId, b.input)
  movements : db.movements = booked.flatMap BookedCapture.movements
  planned : ∀ b ∈ booked, 0 < b.input.amountCents ∧ ∃ c, capturePlan c b.tenantId b.input = .ok b.plan
  once : (captures.map fun x => (x.1, x.2.intentId)).Nodup
  reports : db.reconciliationReports = []
  lines : db.reconciliationLines = []

/-- Nothing but the tables of reports. -/
def SameReports (db db' : Db) : Prop :=
  db'.reconciliationReports = db.reconciliationReports ∧ db'.reconciliationLines = db.reconciliationLines

instance : IsPreorder Db SameReports where
  refl := fun _ => ⟨rfl, rfl⟩
  trans := fun _ _ _ h h' => ⟨h'.1.trans h.1, h'.2.trans h.2⟩

theorem OnlyLedger.sameReports {db db' : Db} (h : OnlyLedger db db') : SameReports db db' := by
  rw [h]; exact ⟨rfl, rfl⟩

theorem sameReports_postings : Postings SameReports where
  post _ := fun db => (keeps_post_only db).mono (fun _ _ h => h.sameReports) fun _ h => h
  postEntry _ := fun db => (keeps_postEntry_only db).mono (fun _ _ h => h.sameReports) fun _ h => h

theorem settleCapture_sameReports (t : Id) (input : SettleCaptureInput) : (settleCapture t input).Keeps SameReports :=
  keeps_settleCapture sameReports_postings fun _ _ => keeps_splitCreate fun _ _ => ⟨rfl, rfl⟩

section Run

variable {captures : List (Id × SettleCaptureInput)} {booked : List BookedCapture} {db : Db} {t : Id} {c : Currency}
  {input : SettleCaptureInput}

theorem HoldsCaptures.isCaptured (h : HoldsCaptures captures booked db) (hmem : (t, input) ∈ captures) :
    db.isCaptured t input.intentId = true := by
  rw [h.inputs] at hmem
  obtain ⟨b, hb, heq⟩ := List.mem_map.mp hmem
  cases heq
  rw [Db.isCaptured, h.movements, List.any_flatMap]
  refine List.any_eq_true.mpr ⟨b, hb, ?_⟩
  rw [BookedCapture.movements, any_capture]
  exact decide_eq_true ⟨rfl, rfl⟩

theorem CaptureRun.leaves (h : CaptureRun captures db) : ∃ booked, HoldsCaptures captures booked db := by
  induction h with
  | init config => exact ⟨[], rfl, rfl, by simp, List.nodup_nil, rfl, rfl⟩
  | configured config _ ih =>
      obtain ⟨booked, h⟩ := ih
      exact ⟨booked, h.inputs, h.movements, h.planned, h.once, h.reports, h.lines⟩
  | captured t input _ hrun ih =>
      obtain ⟨booked, h⟩ := ih
      have hsame := (settleCapture_sameReports t input _).run _ hrun
      obtain ⟨-, hpos, hfresh, cp, hcp, happ⟩ | ⟨hne, -⟩ := settleCapture_run hrun
      · refine ⟨booked ++ [⟨t, input, cp⟩], ?_, ?_, ?_, ?_, hsame.1.trans h.reports, hsame.2.trans h.lines⟩
        · rw [h.inputs, List.map_append]; rfl
        · rw [happ.movements_eq, h.movements, List.flatMap_append]
          simp [BookedCapture.movements]
        · intro b hb
          rcases List.mem_append.mp hb with hb | hb
          · exact h.planned b hb
          · rw [List.mem_singleton.mp hb]
            exact ⟨hpos, _, hcp⟩
        · rw [List.map_append, List.nodup_append]
          refine ⟨h.once, List.nodup_singleton _, fun k hk k' hk' heq => ?_⟩
          obtain ⟨x, hx, rfl⟩ := List.mem_map.mp hk
          rw [List.map_singleton, List.mem_singleton] at hk'
          rw [hk'] at heq
          obtain ⟨ht, hi⟩ := Prod.mk.inj heq
          have hcaptured := h.isCaptured (show (x.1, x.2) ∈ _ from hx)
          rw [ht, hi, Db.isCaptured, hfresh] at hcaptured
          cases hcaptured
      · exact absurd rfl hne
  | refused t input _ hrun hr ih =>
      obtain ⟨htrue, -⟩ | ⟨-, rfl⟩ := settleCapture_run hrun
      · exact absurd htrue hr
      · exact ih

/-- The internal line of a capture is twice its gross at least. -/
theorem HoldsCaptures.internal (h : HoldsCaptures captures booked db) (hmem : (t, input) ∈ captures) :
    ∃ cents, (db.internalLines t).lookup input.intentId = some cents ∧ 2 * input.amountCents ≤ cents ∧
      0 < input.amountCents := by
  rw [h.inputs] at hmem
  obtain ⟨b, hb, heq⟩ := List.mem_map.mp hmem
  cases heq
  obtain ⟨hpos, c, hplan⟩ := h.planned b hb
  have hdebited : debited db.movements b.tenantId b.input.intentId =
      (booked.map fun b' => debited b'.movements b.tenantId b.input.intentId).sum := by rw [h.movements, debited_flatMap]
  have hnonneg : ∀ b' ∈ booked, 0 ≤ debited b'.movements b.tenantId b.input.intentId := by
    intro b' hb'
    obtain ⟨hpos', c', hplan'⟩ := h.planned b' hb'
    by_cases hsame : b'.tenantId = b.tenantId ∧ b'.input.intentId = b.input.intentId
    · have := debited_capture hplan'
      rw [hsame.1, hsame.2] at this
      rw [BookedCapture.movements, hsame.1]
      omega
    · refine (debited_eq_zero _ _ fun m hm hkey => hsame ?_).ge
      obtain ⟨ht, hi⟩ := source_capture hm
      exact ⟨ht.symm.trans hkey.1, Option.some.inj (hi.symm.trans hkey.2)⟩
  have hle : debited b.movements b.tenantId b.input.intentId ≤ debited db.movements b.tenantId b.input.intentId := by
    rw [hdebited]
    refine List.single_le_sum (fun n hn => ?_) _ (List.mem_map_of_mem hb)
    obtain ⟨b', hb', rfl⟩ := List.mem_map.mp hn
    exact hnonneg b' hb'
  have htwice : 2 * b.input.amountCents ≤ debited b.movements b.tenantId b.input.intentId := debited_capture hplan
  refine ⟨_, ?_, htwice.trans hle, hpos⟩
  rw [lookup_internalLines, if_pos]
  by_contra hnone
  rw [Bool.not_eq_true, List.any_eq_false] at hnone
  have hzero : debited db.movements b.tenantId b.input.intentId = 0 := by
    rw [debited, List.filter_eq_nil_iff.mpr hnone]; rfl
  omega

/-- The report has one line for each intent, and its total is the gross. -/
theorem HoldsCaptures.external (h : HoldsCaptures captures booked db) {r : Id × Int} (hr : r ∈ reportedCaptures captures t c) :
    (totals (reportedCaptures captures t c)).lookup r.1 = some r.2 := by
  have hnodup : ((reportedCaptures captures t c).map (·.1)).Nodup := by
    rw [reportedCaptures, List.map_map, List.nodup_map_iff_inj_on (List.Nodup.filter _ h.once.of_map)]
    intro x hx y hy hid
    have hx' := List.mem_filter.mp hx
    have hy' := List.mem_filter.mp hy
    refine List.inj_on_of_nodup_map h.once hx'.1 hy'.1 (Prod.ext ?_ hid)
    exact (of_decide_eq_true hx'.2).1.trans (of_decide_eq_true hy'.2).1.symm
  rw [lookup_totals, if_pos (List.mem_map_of_mem hr), Data.amountsOf_of_nodup hnodup hr, List.sum_singleton]

/-- A line of the report differs from the ledger. -/
theorem HoldsCaptures.differs (h : HoldsCaptures captures booked db) {line : ReconciliationLine}
    (hline : (line.reference, line.amount) ∈ reportedCaptures captures t c) :
    (settledLine (outcomeByRef (reconcile (reportedCaptures captures t c) (db.internalLines t))) line).status = .amountDiff := by
  obtain ⟨x, hx, heq⟩ := List.mem_map.mp hline
  obtain ⟨hmem, hkey⟩ := List.mem_filter.mp hx
  obtain ⟨hreference, hgross⟩ := Prod.mk.inj heq
  obtain ⟨cents, hinternal, htwice, hpos⟩ := h.internal hmem
  rw [(of_decide_eq_true hkey).1, hreference] at hinternal
  have htotal : (totals (db.internalLines t)).lookup line.reference = some cents :=
    (Data.lookup_totals_of_nodup (Data.nodup_totals _) _).trans hinternal
  have houtcome := outcome_of_match (h.external hline) htotal
  have hne : line.amount ≠ cents := by omega
  simp only [settledLine]
  rw [houtcome]
  exact if_neg hne

end Run

/-! ## The report is run -/

/-- A report of captures agrees with the ledger exactly when it has no line. -/
theorem captures_reconcile_iff {captures : List (Id × SettleCaptureInput)} {db : Db} (h : CaptureRun captures db) (t : Id)
    (provider : Provider) (c : Currency) : (reconcileCaptures t provider c captures).Ensures (fun r _ =>
      match r with
      | .ok (_, lines) => lines.map (fun l => (l.reference, l.amount)) = reportedCaptures captures t c ∧
          (Agrees lines (db.internalLines t) (reportedCaptures captures t c) ↔ reportedCaptures captures t c = [])
      | .error e => e = Failure.prismaError "P2002") db := by
  obtain ⟨booked, hbooked⟩ := h.leaves
  simp only [reconcileCaptures, Transaction.Job.bind_eq, Transaction.Job.ensures_bind]
  refine (createReconciliationReport_effect _ hbooked.reports hbooked.lines).mono fun r db₁ h₁ => ?_
  rcases r with e | ⟨report, lines⟩
  · exact h₁
  · obtain ⟨hreport, honly, hledger⟩ := h₁
    have hinternal : db₁.internalLines t = db.internalLines t := by rw [Db.internalLines, hledger, Db.internalLines]
    refine (runReconciliation_effect hreport honly).mono fun r _ hr => ?_
    obtain ⟨report', rfl⟩ := hr
    rw [hinternal]
    have hamounts : lines.map (fun l => (l.reference, l.amount)) = reportedCaptures captures t c := hreport.amounts
    refine ⟨?_, fun hagrees => ?_, fun hnone => ?_⟩
    · rw [List.map_map]
      exact (List.map_congr_left fun line _ => settledLine_line _ line).trans hamounts
    · rw [List.eq_nil_iff_forall_not_mem]
      intro r hr
      rw [← hamounts] at hr
      obtain ⟨line, hline, rfl⟩ := List.mem_map.mp hr
      have hexact := hagrees.1 _ (List.mem_map_of_mem hline)
      rw [hbooked.differs (hamounts ▸ hr)] at hexact
      cases hexact
    · have hlines : lines = [] := by
        rw [hnone] at hamounts
        exact List.map_eq_nil_iff.mp hamounts
      rw [hlines, hnone]
      exact ⟨by simp, by simp⟩

/-- The capture of 10.00 is booked. -/
def capturedDb : Db := ((settleCapture 1 plainCapture).run (.empty plainConfig) .counting).2.1

theorem captureRun_plain : CaptureRun [(1, plainCapture)] capturedDb :=
  (CaptureRun.init plainConfig).captured (w := .counting) 1 plainCapture rfl

/-- And one of 5.00 USD. -/
def mixedCaptures : List (Id × SettleCaptureInput) :=
  [(1, plainCapture), (1, { intentId := 8, amountCents := 500, currency := some .usd, method := none })]

def mixedDb : Db :=
  ((settleCapture 1 { intentId := 8, amountCents := 500, currency := some .usd, method := none }).run capturedDb
    { World.counting with clock := 100 }).2.1

theorem captureRun_mixed : CaptureRun mixedCaptures mixedDb :=
  captureRun_plain.captured (w := { World.counting with clock := 100 }) 1 _ rfl

theorem captures_reconcile_iff_plain : reportedCaptures mixedCaptures 1 .mad = [(7, 1000)] ∧
    reportedCaptures mixedCaptures 1 .usd = [(8, 500)] ∧ reportedCaptures mixedCaptures 1 .eur = [] ∧
      ∀ c, (reconcileCaptures 1 .vps c mixedCaptures).Ensures (fun r _ =>
        match r with
        | .ok (_, lines) => lines.map (fun l => (l.reference, l.amount)) = reportedCaptures mixedCaptures 1 c ∧
            (Agrees lines (mixedDb.internalLines 1) (reportedCaptures mixedCaptures 1 c) ↔
              reportedCaptures mixedCaptures 1 c = [])
        | .error e => e = Failure.prismaError "P2002") mixedDb :=
  ⟨rfl, rfl, rfl, captures_reconcile_iff captureRun_mixed 1 .vps⟩

/-- The provider lists the capture of 10.00, and the ledger counts 20.00 for it. -/
theorem not_captures_reconcile : ¬ ∀ captures db, CaptureRun captures db → ∀ t provider c,
    (reconcileCaptures t provider c captures).Ensures (fun r _ => ∀ report lines, r = .ok (report, lines) →
      Agrees lines (db.internalLines t) (reportedCaptures captures t c)) db := by
  intro h
  have hrun := (h _ _ captureRun_plain 1 .vps .mad).run .counting rfl
  have hstatus : (((reconcileCaptures 1 .vps .mad [(1, plainCapture)]).run capturedDb .counting).1.toOption.map
      fun r => r.2.map (·.status)) = some [.amountDiff] := by decide +kernel
  obtain ⟨⟨report, lines⟩, hok, hlines⟩ := Option.map_eq_some_iff.mp hstatus
  obtain ⟨line, rfl, hline⟩ := List.map_eq_singleton_iff.mp hlines
  have hexact := (hrun report [line] (Except.of_toOption hok)).1 line (List.mem_singleton_self line)
  rw [hline] at hexact
  cases hexact

end CorpoPay.Settlement
