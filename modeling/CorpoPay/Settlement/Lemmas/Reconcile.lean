import CorpoPay.Settlement.Lemmas.CaptureBalance
import CorpoPay.Settlement.ReconciliationDb

/-!
# What a reconciliation reports

The outcome of a reference depends on its two totals only. The internal total is what the ledger debits for it.
-/

namespace CorpoPay.Settlement

open Transaction.Tx
open Data (totals amountsOf lookup_totals)

/-! ## Matching -/

section Matching

variable (externalByRef internalByRef : List (Id × Int))

def matchAt (reference : Id) : Option LineMatch :=
  (externalByRef.lookup reference).bind fun e => (internalByRef.lookup reference).map fun i => lineMatch reference e i

def missingAt (reference : Id) : Option (Id × Int) :=
  if internalByRef.lookup reference = none then (externalByRef.lookup reference).map fun e => (reference, e) else none

theorem matchAt_reference {externalByRef internalByRef : List (Id × Int)} {reference : Id} {m : LineMatch}
    (h : matchAt externalByRef internalByRef reference = some m) : m.reference = reference := by
  obtain ⟨e, -, h⟩ := Option.bind_eq_some_iff.mp h
  obtain ⟨i, -, rfl⟩ := Option.map_eq_some_iff.mp h
  rfl

/-- The loop collects the match or the break of each reference. -/
theorem foldl_reconcileReference (refs : List Id) (result : ReconcileResult) :
    (refs.foldl (reconcileReference externalByRef internalByRef) result).lineMatches =
        result.lineMatches ++ refs.filterMap (matchAt externalByRef internalByRef) ∧
      (refs.foldl (reconcileReference externalByRef internalByRef) result).missingInternal =
        result.missingInternal ++ refs.filterMap (missingAt externalByRef internalByRef) := by
  induction refs generalizing result with
  | nil => simp
  | cons reference refs ih =>
      rw [List.foldl_cons, (ih _).1, (ih _).2, List.filterMap_cons, List.filterMap_cons, reconcileReference, matchAt,
        missingAt]
      rcases externalByRef.lookup reference with _ | e <;> rcases internalByRef.lookup reference with _ | i <;> simp

end Matching

section Outcome

variable {external internal : List (Id × Int)} {reference : Id} {e i : Int}

theorem mem_sortedRefs {externalByRef internalByRef : List (Id × Int)} (h : externalByRef.lookup reference = some e) :
    reference ∈ sortedRefs externalByRef internalByRef := by
  have hmem : reference ∈ externalByRef.map (·.1) := by
    by_contra hnot
    rw [List.lookup_eq_none_iff.mpr fun p hp => ?_] at h
    · cases h
    · exact bne_iff_ne.mpr fun heq => hnot (List.mem_map.mpr ⟨p, hp, heq.symm⟩)
  rw [sortedRefs, List.mem_insertionSort, List.mem_dedup, List.mem_append]
  exact .inl hmem

/-- A reference that both sides have is classified by its totals. -/
theorem outcome_of_match (he : (totals external).lookup reference = some e) (hi : (totals internal).lookup reference = some i) :
    (outcomeByRef (reconcile external internal)).lookup reference = some ⟨classifyMatch e i, some i, e - i⟩ := by
  have hmatch : matchAt (totals external) (totals internal) reference = some (lineMatch reference e i) := by
    rw [matchAt, he, hi]; rfl
  obtain ⟨hmatches, hmissing⟩ := foldl_reconcileReference (totals external) (totals internal)
    (sortedRefs (totals external) (totals internal)) ⟨[], [], [], 0, 0, 0⟩
  refine Data.lookup_of_unique (List.mem_reverse.mpr (List.mem_append_left _
    (List.mem_map.mpr ⟨lineMatch reference e i, ?_, rfl⟩))) fun outcome hmem => ?_
  · rw [reconcile]
    dsimp only
    rw [hmatches, List.nil_append]
    exact List.mem_filterMap.mpr ⟨reference, mem_sortedRefs he, hmatch⟩
  · rw [outcomeByRef, List.mem_reverse, List.mem_append, List.mem_map, List.mem_map] at hmem
    rw [reconcile] at hmem
    dsimp only at hmem
    rw [hmatches, hmissing, List.nil_append, List.nil_append] at hmem
    rcases hmem with ⟨m, hm, heq⟩ | ⟨missing, hm, heq⟩
    · obtain ⟨ref, -, hat⟩ := List.mem_filterMap.mp hm
      obtain rfl : ref = reference := (matchAt_reference hat).symm.trans (congrArg Prod.fst heq)
      rw [hmatch] at hat
      obtain rfl := Option.some.inj hat
      exact (congrArg Prod.snd heq).symm
    · obtain ⟨ref, -, hat⟩ := List.mem_filterMap.mp hm
      obtain rfl : missing.1 = reference := congrArg Prod.fst heq
      rw [missingAt] at hat
      split_ifs at hat with hnone
      obtain ⟨e', -, rfl⟩ := Option.map_eq_some_iff.mp hat
      rw [hi] at hnone
      cases hnone

end Outcome

/-! ## The internal side -/

def Movement.isDebitOf (m : Movement) (t reference : Id) : Bool :=
  m.tenantId = t ∧ m.sourceId = some reference ∧ m.direction = .debit

/-- What the ledger of a tenant debits for a source. -/
def debited (ms : List Movement) (t reference : Id) : Int := ((ms.filter (·.isDebitOf t reference)).map (·.amount)).sum

section Debited

variable (ms ms' : List Movement) (t reference : Id)

@[simp] theorem debited_nil : debited [] t reference = 0 := rfl

@[simp] theorem debited_append : debited (ms ++ ms') t reference = debited ms t reference + debited ms' t reference := by
  simp [debited]

theorem debited_flatMap {α : Type} (as : List α) (f : α → List Movement) :
    debited (as.flatMap f) t reference = (as.map fun a => debited (f a) t reference).sum := by
  induction as with
  | nil => rfl
  | cons a as ih => simp [ih]

theorem debited_eq_zero {ms : List Movement} (h : ∀ m ∈ ms, ¬ (m.tenantId = t ∧ m.sourceId = some reference)) :
    debited ms t reference = 0 := by
  have hnone : ms.filter (·.isDebitOf t reference) = [] := List.filter_eq_nil_iff.mpr fun m hm hd =>
    h m hm ⟨(of_decide_eq_true hd).1, (of_decide_eq_true hd).2.1⟩
  rw [debited, hnone]
  rfl

variable {t reference}

theorem debited_posting {source : Meta} (hsource : source.sourceId = some reference) (amount : Int)
    (category : LedgerCategory) (src dst : LedgerAccount) (p q : Option Id) (currency : Currency) :
    debited ((⟨debit src amount category p currency, credit dst amount category q currency, source⟩ :
      LedgerPosting).movements t) t reference = amount := by
  simp [debited, LedgerPosting.movements, LedgerLeg.movement, debit, credit, Movement.isDebitOf, hsource]

theorem debited_moved (input : SettleCaptureInput) (amount : Int) (category : LedgerCategory) (src dst : LedgerAccount) :
    debited (moved t input amount category src dst) t input.intentId = max amount 0 := by
  rw [moved, positiveMovements]
  split_ifs with h
  · rw [debited_posting rfl, max_eq_left h.le]
  · rw [debited_nil, max_eq_right (not_lt.mp h)]

/-- A division debits its whole source. -/
theorem debited_split {input : SettleCaptureInput} {shares : List ShareSpec} {result : SplitResult}
    (h : split input.amountCents shares = .ok result) :
    debited (splitMovements t .atCapture false input.captureCurrency input.source result) t input.intentId =
      input.amountCents := by
  obtain ⟨hsum, -, hplatform, -, -⟩ := split_spec h
  have hshares : debited (result.shares.flatMap (shareMovements t (sourceAccountFor .atCapture) .available
      input.captureCurrency input.source)) t input.intentId = (result.shares.map (·.amountCents)).sum := by
    rw [debited_flatMap]
    exact congrArg List.sum (List.map_congr_left fun a _ => debited_posting rfl ..)
  have hrest : debited (platformMovements t .atCapture input.captureCurrency input.source result.platformCents) t
      input.intentId = result.platformCents := by
    rw [platformMovements]
    split_ifs with hpos
    · exact debited_posting rfl ..
    · have : result.platformCents = 0 := by
        simp only [true_and, not_lt] at hpos
        omega
      rw [this, debited_nil]
  rw [splitMovements, debited_append, hrest, ← hsum]
  exact congrArg (· + result.platformCents) hshares

/-- Everything a capture moves carries its intent. -/
theorem source_capture {input : SettleCaptureInput} {cp : CapturePlan} {m : Movement}
    (h : m ∈ captureMovements t input cp) : m.tenantId = t ∧ m.sourceId = some input.intentId := by
  have hposting : ∀ {d c : LedgerLeg}, m = d.movement t input.source ∨ m = c.movement t input.source →
      m.tenantId = t ∧ m.sourceId = some input.intentId := by
    rintro d c (rfl | rfl) <;> exact ⟨rfl, rfl⟩
  have hrule : m ∈ ruleMovements t input cp → m.tenantId = t ∧ m.sourceId = some input.intentId := by
    intro hm
    unfold ruleMovements at hm
    split at hm
    · rcases List.mem_append.mp hm with hm | hm
      · obtain ⟨a, -, hm⟩ := List.mem_flatMap.mp hm
        exact hposting (mem_posting hm)
      · unfold platformMovements at hm
        split_ifs at hm
        · exact hposting (mem_posting hm)
        · cases hm
    · cases hm
  have hnet : m ∈ netMovements t input cp → m.tenantId = t ∧ m.sourceId = some input.intentId := by
    intro hm
    unfold netMovements at hm
    split at hm
    · cases hm
    · exact hposting (mem_positive hm)
  simp only [captureMovements, List.mem_append] at h
  rcases h with h | h | h | h | h | h
  · exact hposting (mem_posting h)
  · exact hrule h
  · exact hposting (mem_positive h)
  · exact hposting (mem_positive h)
  · exact hposting (mem_positive h)
  · exact hnet h

/-- A capture debits its gross at least twice: into COLLECTED and out of it. -/
theorem debited_capture {c : Config} {input : SettleCaptureInput} {cp : CapturePlan} (h : capturePlan c t input = .ok cp) :
    2 * input.amountCents ≤ debited (captureMovements t input cp) t input.intentId := by
  obtain ⟨base, hplan, hbase, hsplit⟩ := capturePlan_base h
  obtain ⟨hfee, htax, -, hnet⟩ := planCaptureSettlement_amounts hplan
  have hgross : debited (grossMovements t input) t input.intentId = input.amountCents := debited_posting rfl ..
  simp only [captureMovements, debited_append, hgross, debited_moved, max_eq_left hfee, max_eq_left htax]
  rcases hrule : cp.rule with _ | ⟨rule, result⟩
  · rw [hbase hrule] at hnet
    simp only [ruleMovements, netMovements, hrule, debited_nil, debited_moved]
    omega
  · simp only [ruleMovements, netMovements, hrule, debited_nil, debited_split (hsplit _ _ hrule)]
    omega

/-- The internal line of a reference is there when it has a debit, with all its debits. -/
theorem lookup_internalLines (db : Db) : (db.internalLines t).lookup reference =
    if db.movements.any (·.isDebitOf t reference) then some (debited db.movements t reference) else none := by
  have hitems : ∀ rows : List LedgerEntry,
      ((rows.filter fun e => e.tenantId = t ∧ e.sourceId.isSome ∧ e.direction = .debit).filterMap fun e =>
        e.sourceId.map fun reference => (reference, e.amount)).filter (·.1 = reference) =
      ((rows.map (·.toMovement)).filter (·.isDebitOf t reference)).map fun m => (reference, m.amount) := by
    intro rows
    induction rows with
    | nil => rfl
    | cons e rows ih =>
        rw [List.filter_cons, List.map_cons, List.filter_cons]
        rcases hsource : e.sourceId with _ | s
        · simpa [hsource, Movement.isDebitOf] using ih
        · by_cases ht : e.tenantId = t <;> by_cases hs : s = reference <;> by_cases hd : e.direction = .debit <;>
            simp_all [Movement.isDebitOf]
  have hamounts : amountsOf ((db.ledgerEntries.filter fun e => e.tenantId = t ∧ e.sourceId.isSome ∧
      e.direction = .debit).filterMap fun e => e.sourceId.map fun reference => (reference, e.amount)) reference =
        (db.movements.filter (·.isDebitOf t reference)).map (·.amount) := by
    rw [amountsOf, hitems, List.map_map]
    rfl
  rw [Db.internalLines, lookup_totals, hamounts]
  refine if_congr ?_ rfl rfl
  have hany : db.movements.any (·.isDebitOf t reference) = true ↔ db.movements.filter (·.isDebitOf t reference) ≠ [] := by
    rw [ne_eq, List.filter_eq_nil_iff, List.any_eq_true]
    push Not
    rfl
  rw [hany, Data.mem_keys_iff, hitems, ne_eq, List.map_eq_nil_iff]
  rfl

end Debited

/-! ## A report and its run -/

/-- The rows of a new report. -/
structure ReportOf (t : Id) (input : List (Id × Int)) (report : ReconciliationReport) (lines : List ReconciliationLine) :
    Prop where
  tenant : report.tenantId = t
  status : report.status = .pending
  amounts : lines.map (fun l => (l.reference, l.amount)) = input
  reportId : ∀ l ∈ lines, l.reportId = report.id
  ids : (lines.map (·.id)).Nodup

/-- The report and its lines are the only ones. -/
structure Db.OnlyReport (db : Db) (report : ReconciliationReport) (lines : List ReconciliationLine) : Prop where
  reports : db.reconciliationReports = [report]
  lines : db.reconciliationLines = lines

section Jobs

variable {t : Id} {db : Db}

theorem ensures_lineCreate {row : Id → ReconciliationLine} {Q : ReconciliationLine → Db → Prop}
    (h : ∀ id, (∀ l ∈ db.reconciliationLines, l.id ≠ id) →
      Q (row id) { db with reconciliationLines := db.reconciliationLines ++ [row id] }) :
    (ReconciliationLine.create row).Ensures Q (fun e => e = Failure.prismaError "P2002") db := by
  simp only [ReconciliationLine.create, bind_eq, pure_eq, ensures_bind, ensures_get, ensures_ite, ensures_throw,
    ensures_modify, ensures_ret]
  refine fun id => ⟨fun _ => trivial, fun htaken => h id fun l hl heq => htaken ?_⟩
  exact List.any_eq_true.mpr ⟨l, hl, decide_eq_true heq⟩

/-- The lines come after those that are there, in their order. -/
theorem ensures_collectLines {row : Id × Int → Id → ReconciliationLine} (reportId : Id)
    (hid : ∀ line id, (row line id).id = id)
    (hamount : ∀ line id, ((row line id).reference, (row line id).amount) = line)
    (hreport : ∀ line id, (row line id).reportId = reportId) {Q : List ReconciliationLine → Db → Prop}
    (input : List (Id × Int)) (hnodup : (db.reconciliationLines.map (·.id)).Nodup)
    (h : ∀ lines : List ReconciliationLine, lines.map (fun l => (l.reference, l.amount)) = input →
      (∀ l ∈ lines, l.reportId = reportId) → ((db.reconciliationLines ++ lines).map (·.id)).Nodup →
        Q lines { db with reconciliationLines := db.reconciliationLines ++ lines }) :
    (collect (fun line => ReconciliationLine.create (row line)) input).Ensures Q (fun e => e = Failure.prismaError "P2002")
      db := by
  induction input generalizing db Q with
  | nil => simpa [Transaction.Tx.collect] using h [] rfl (by simp) (by simpa using hnodup)
  | cons line input ih =>
      simp only [Transaction.Tx.collect, ensures_bind, ensures_ret]
      refine ensures_lineCreate fun id hfresh => ih ?_ fun lines hlines hreports hids => ?_
      · rw [List.map_append, List.nodup_append]
        refine ⟨hnodup, List.nodup_singleton _, fun i hi j hj => ?_⟩
        obtain ⟨l, hl, rfl⟩ := List.mem_map.mp hi
        rw [List.map_singleton, List.mem_singleton, hid] at hj
        exact hj ▸ hfresh l hl
      · simp only [List.append_assoc, List.singleton_append] at hids ⊢
        refine h _ (by rw [List.map_cons, hlines, hamount]) (fun l hl => ?_) hids
        rcases List.mem_cons.mp hl with rfl | hl
        · exact hreport line id
        · exact hreports l hl

theorem createReconciliationReport_effect (input : CreateReconciliationReportInput) (hreports : db.reconciliationReports = [])
    (hlines : db.reconciliationLines = []) : (createReconciliationReport t input).Ensures (fun r db' =>
      match r with
      | .ok (report, lines) => ReportOf t input.lines report lines ∧ db'.OnlyReport report lines ∧
          db'.ledgerEntries = db.ledgerEntries
      | .error e => e = Failure.prismaError "P2002") db := by
  simp only [createReconciliationReport, ReconciliationReport.create, bind_eq, pure_eq, Transaction.Job.ensures_transaction,
    ensures_bind, ensures_get, ensures_ite, ensures_throw, ensures_modify, ensures_ret]
  refine fun id => ⟨fun _ => trivial, fun _ => ?_⟩
  refine ensures_collectLines id ?_ ?_ ?_ _ ?_ fun lines hamounts hreport hids => ?_
  · exact fun _ _ => rfl
  · exact fun _ _ => rfl
  · exact fun _ _ => rfl
  · rw [hlines]
    exact List.nodup_nil
  · exact ⟨⟨rfl, rfl, hamounts, hreport, by simpa [hlines] using hids⟩, ⟨by simp [hreports], by simp [hlines]⟩, rfl⟩

/-- A line after its outcome is stored. -/
def settledLine (outcomes : List (Id × LineOutcome)) (line : ReconciliationLine) : ReconciliationLine :=
  match outcomes.lookup line.reference with
  | none => line
  | some outcome => { line with
      status := outcome.status
      matchedAmount := outcome.matchedCents
      differenceAmount := some outcome.diffCents }

theorem settledLine_id (outcomes : List (Id × LineOutcome)) (line : ReconciliationLine) :
    (settledLine outcomes line).id = line.id ∧ (settledLine outcomes line).reportId = line.reportId := by
  unfold settledLine
  split <;> exact ⟨rfl, rfl⟩

theorem settledLine_line (outcomes : List (Id × LineOutcome)) (line : ReconciliationLine) :
    ((settledLine outcomes line).reference, (settledLine outcomes line).amount) = (line.reference, line.amount) := by
  unfold settledLine
  split <;> rfl

/-- An update by id changes the one row. -/
theorem map_row_eq {before rest : List ReconciliationLine} {l : ReconciliationLine}
    {f : ReconciliationLine → ReconciliationLine} (hbefore : ∀ r ∈ before, r.id ≠ l.id) (hrest : ∀ r ∈ rest, r.id ≠ l.id) :
    (before ++ l :: rest).map (fun r => if r.id = l.id then f r else r) = before ++ f l :: rest := by
  have hsame : ∀ rows : List ReconciliationLine, (∀ r ∈ rows, r.id ≠ l.id) →
      rows.map (fun r => if r.id = l.id then f r else r) = rows := fun rows h =>
    (List.map_congr_left fun r hr => if_neg (h r hr)).trans (List.map_id rows)
  rw [List.map_append, List.map_cons, if_pos rfl, hsame _ hbefore, hsame _ hrest]

/-- Storing the outcomes settles one line after the other. -/
theorem storeOutcomes_effect {outcomes : List (Id × LineOutcome)} {report : ReconciliationReport}
    {lines : List ReconciliationLine} (hnodup : (lines.map (·.id)).Nodup) (hdb : db.OnlyReport report lines) :
    (forEach (storeOutcome outcomes) lines).Ensures
      (fun _ (db' : Db) => db'.OnlyReport report (lines.map (settledLine outcomes))) (fun _ => False) db := by
  refine ensures_forEach (J := fun rest (s : Db) => ∃ before, lines = before ++ rest ∧
    s.OnlyReport report (before.map (settledLine outcomes) ++ rest)) ?_ ?_ ⟨[], rfl, by simpa using hdb⟩
  · rintro l rest s ⟨before, hsplit, hs⟩
    have hnext : ∀ s' : Db, s'.OnlyReport report (before.map (settledLine outcomes) ++ settledLine outcomes l :: rest) →
        ∃ before, lines = before ++ rest ∧ s'.OnlyReport report (before.map (settledLine outcomes) ++ rest) :=
      fun s' hs' => ⟨before ++ [l], by simp [hsplit], by simpa using hs'⟩
    unfold storeOutcome
    cases houtcome : outcomes.lookup l.reference with
    | none =>
        refine hnext s ?_
        rwa [settledLine, houtcome]
    | some outcome =>
        have hfound : s.reconciliationLines.find? (·.id = l.id) ≠ none := by
          rw [hs.lines, ne_eq, List.find?_eq_none]
          push Not
          exact ⟨l, List.mem_append_right _ List.mem_cons_self, decide_eq_true rfl⟩
        simp only [ReconciliationLine.update, bind_eq, ensures_bind, ensures_acquire, ensures_get]
        obtain ⟨row, hrow⟩ := Option.ne_none_iff_exists'.mp hfound
        rw [hrow]
        refine hnext _ ⟨hs.reports, ?_⟩
        rw [hsplit, List.map_append, List.map_cons, List.nodup_append, List.nodup_cons] at hnodup
        obtain ⟨-, ⟨hrest, -⟩, hbefore⟩ := hnodup
        have hlast : settledLine outcomes l = { l with
            status := outcome.status
            matchedAmount := outcome.matchedCents
            differenceAmount := some outcome.diffCents } := by rw [settledLine, houtcome]
        dsimp only
        rw [hs.lines, hlast]
        refine map_row_eq (fun r hr heq => ?_) fun r hr heq => hrest (List.mem_map.mpr ⟨r, hr, heq⟩)
        obtain ⟨r', hr', rfl⟩ := List.mem_map.mp hr
        exact hbefore r'.id (List.mem_map_of_mem hr') l.id List.mem_cons_self ((settledLine_id outcomes r').1 ▸ heq)
  · rintro s ⟨before, hsplit, hs⟩
    rw [List.append_nil] at hsplit hs
    rwa [hsplit]

theorem pending_transition (b : Bool) : (if ReconciliationStatus.pending = (if b then .matched else .unmatched) then .ok ()
    else ReconciliationStatus.pending.assertTransition (if b then .matched else .unmatched)) = .ok () := by
  cases b <;> rfl

theorem filter_reportId {reportId : Id} {lines : List ReconciliationLine} (h : ∀ l ∈ lines, l.reportId = reportId) :
    lines.filter (·.reportId = reportId) = lines := List.filter_eq_self.mpr fun l hl => decide_eq_true (h l hl)

/-- The run of a new report settles its lines. -/
theorem runReconciliation_effect {input : List (Id × Int)} {report : ReconciliationReport} {lines : List ReconciliationLine}
    (hreport : ReportOf t input report lines) (hdb : db.OnlyReport report lines) :
    (runReconciliation t report.id).Ensures (fun r _ => ∃ report', r = .ok (report',
      lines.map (settledLine (outcomeByRef (reconcile input (db.internalLines t)))))) db := by
  have hfound : db.tenantReport t report.id = some (report, lines) := by
    rw [Db.tenantReport, hdb.reports, hdb.lines]
    simp [hreport.tenant, filter_reportId hreport.reportId]
  simp only [runReconciliation, buildInternalLines, Transaction.Job.bind_eq, Transaction.Job.ensures_bind,
    Transaction.Job.ensures_get, hfound, hreport.status, hreport.amounts]
  rw [pending_transition]
  simp only [Transaction.Job.ofExcept, Transaction.Job.ensures_ret, Transaction.Job.ensures_transaction, storeReconciliation,
    bind_eq, ensures_bind]
  refine (storeOutcomes_effect hreport.ids hdb).mono (fun _ db₁ h₁ => ?_) fun _ h => h.elim
  have hrow : db₁.reconciliationReports.find? (·.id = report.id) = some report := by simp [h₁.reports]
  simp only [ReconciliationReport.update, bind_eq, pure_eq, ensures_bind, ensures_acquire, ensures_get, hrow, ensures_modify]
  have hlines : ∀ l ∈ lines.map (settledLine (outcomeByRef (reconcile input (db.internalLines t)))),
      l.reportId = report.id := by
    intro l hl
    obtain ⟨l', hl', rfl⟩ := List.mem_map.mp hl
    exact (settledLine_id _ l').2.trans (hreport.reportId l' hl')
  simp only [Db.reportWithLines, h₁.reports, h₁.lines, List.map_cons, List.map_nil, ↓reduceIte, List.find?_cons,
    decide_true, Option.map_some, filter_reportId hlines]
  exact ⟨_, rfl⟩

end Jobs

end CorpoPay.Settlement
