import CorpoPay.Settlement.Lemmas.Reconcile

/-!
# Main theorem: a reconciliation is a partition

Every reference of the two lists is a match or missing on one side, the totals are those of the lists, and neither the
order of the lists nor their roles matter beyond the names of the sides.
-/

namespace CorpoPay.Settlement

open Data (totals amountsOf lookup_totals)

/-! ## The sides of a reconciliation -/

/-- The references of a list of lines. -/
def references (lines : List (Id × Int)) : List Id := lines.map (·.1)

/-- What a list of lines has for a reference: the sum of its lines, if there are any. -/
def side (lines : List (Id × Int)) (reference : Id) : Option Int :=
  if reference ∈ references lines then some (amountsOf lines reference).sum else none

def linesTotal (lines : List (Id × Int)) : Int := (lines.map (·.2)).sum

/-- The same reconciliation seen from the other side. -/
def LineMatch.swap (m : LineMatch) : LineMatch :=
  { m with externalCents := m.internalCents, internalCents := m.externalCents, differenceCents := -m.differenceCents }

def ReconcileResult.swap (r : ReconcileResult) : ReconcileResult where
  lineMatches := r.lineMatches.map LineMatch.swap
  missingInternal := r.missingExternal
  missingExternal := r.missingInternal
  externalTotalCents := r.internalTotalCents
  internalTotalCents := r.externalTotalCents
  netDifferenceCents := -r.netDifferenceCents

/-- What is broken in all: the differences, and what one side does not have. -/
def ReconcileResult.breaks (r : ReconcileResult) : Int :=
  (r.lineMatches.map (·.differenceCents)).sum + linesTotal r.missingInternal - linesTotal r.missingExternal

section Sides

variable {lines lines' : List (Id × Int)} {reference : Id}

theorem lookup_totals_eq_side (lines : List (Id × Int)) (reference : Id) :
    (totals lines).lookup reference = side lines reference := lookup_totals lines reference

theorem side_perm (h : lines'.Perm lines) : side lines' = side lines := by
  funext reference
  have hamounts : (amountsOf lines' reference).sum = (amountsOf lines reference).sum := ((h.filter _).map _).sum_eq
  unfold side references
  rw [hamounts]
  exact if_congr (h.map _).mem_iff rfl rfl

theorem side_eq_none : side lines reference = none ↔ reference ∉ references lines := by
  unfold side
  split_ifs with h <;> simp [h]

theorem side_eq_some {amount : Int} : side lines reference = some amount ↔
    reference ∈ references lines ∧ (amountsOf lines reference).sum = amount := by
  unfold side
  split_ifs with h <;> simp [h]

theorem mem_sortedRefs_totals {external internal : List (Id × Int)} :
    reference ∈ sortedRefs (totals external) (totals internal) ↔
      reference ∈ references external ∨ reference ∈ references internal := by
  have hkeys : ∀ lines : List (Id × Int), reference ∈ (totals lines).map (·.1) ↔ reference ∈ references lines := by
    intro lines
    have hlookup := lookup_totals_eq_side lines reference
    constructor
    · intro hmem
      by_contra hnot
      rw [side_eq_none.mpr hnot, List.lookup_eq_none_iff] at hlookup
      obtain ⟨e, he, rfl⟩ := List.mem_map.mp hmem
      simpa using hlookup e he
    · intro hmem
      by_contra hnot
      have hnone : (totals lines).lookup reference = none :=
        List.lookup_eq_none_iff.mpr fun e he => bne_iff_ne.mpr fun heq => hnot (List.mem_map.mpr ⟨e, he, heq.symm⟩)
      exact side_eq_none.mp (hlookup.symm.trans hnone) hmem
  rw [sortedRefs, List.mem_insertionSort, List.mem_dedup, List.mem_append, hkeys, hkeys]

theorem sortedRefs_nodup (externalByRef internalByRef : List (Id × Int)) : (sortedRefs externalByRef internalByRef).Nodup :=
  (List.perm_insertionSort _ _).nodup_iff.mpr (List.nodup_dedup _)

/-- The sorted references are determined by the references that occur. -/
theorem sortedRefs_congr {external external' internal internal' : List (Id × Int)}
    (h : ∀ reference, reference ∈ references external' ∨ reference ∈ references internal' ↔
      reference ∈ references external ∨ reference ∈ references internal) :
    sortedRefs (totals external') (totals internal') = sortedRefs (totals external) (totals internal) := by
  have hperm : (sortedRefs (totals external') (totals internal')).Perm (sortedRefs (totals external) (totals internal)) :=
    (List.perm_ext_iff_of_nodup (sortedRefs_nodup _ _) (sortedRefs_nodup _ _)).mpr fun reference => by
      rw [mem_sortedRefs_totals, mem_sortedRefs_totals, h]
  exact hperm.eq_of_pairwise' (List.pairwise_insertionSort _ _) (List.pairwise_insertionSort _ _)

end Sides

/-! ## The loop over the references -/

section Loop

variable (externalByRef internalByRef : List (Id × Int))

theorem foldl_totals (refs : List Id) (result : ReconcileResult) :
    (refs.foldl (reconcileReference externalByRef internalByRef) result).missingExternal =
        result.missingExternal ++ refs.filterMap (missingAt internalByRef externalByRef) ∧
      (refs.foldl (reconcileReference externalByRef internalByRef) result).externalTotalCents =
        result.externalTotalCents + (refs.map fun reference => (externalByRef.lookup reference).getD 0).sum ∧
      (refs.foldl (reconcileReference externalByRef internalByRef) result).internalTotalCents =
        result.internalTotalCents + (refs.map fun reference => (internalByRef.lookup reference).getD 0).sum := by
  induction refs generalizing result with
  | nil => simp
  | cons reference refs ih =>
      obtain ⟨hmissing, hexternal, hinternal⟩ := ih (reconcileReference externalByRef internalByRef result reference)
      rw [List.foldl_cons, hmissing, hexternal, hinternal, List.filterMap_cons, reconcileReference, missingAt,
        List.map_cons, List.map_cons, List.sum_cons, List.sum_cons]
      rcases externalByRef.lookup reference with _ | e <;> rcases internalByRef.lookup reference with _ | i <;>
        simp [add_assoc]

/-- The breaks of the references account for the difference of their totals. -/
theorem breaks_filterMap (refs : List Id) :
    ((refs.filterMap (matchAt externalByRef internalByRef)).map (·.differenceCents)).sum +
        linesTotal (refs.filterMap (missingAt externalByRef internalByRef)) -
        linesTotal (refs.filterMap (missingAt internalByRef externalByRef)) =
      (refs.map fun reference => (externalByRef.lookup reference).getD 0).sum -
        (refs.map fun reference => (internalByRef.lookup reference).getD 0).sum := by
  induction refs with
  | nil => rfl
  | cons reference refs ih =>
      simp only [linesTotal] at ih ⊢
      rw [List.filterMap_cons, List.filterMap_cons, List.filterMap_cons, matchAt, missingAt, missingAt,
        List.map_cons, List.map_cons, List.sum_cons, List.sum_cons]
      rcases externalByRef.lookup reference with _ | e <;> rcases internalByRef.lookup reference with _ | i <;>
        simp [lineMatch] <;> omega

/-- Each reference is put in one place. -/
theorem perm_references (refs : List Id)
    (h : ∀ reference ∈ refs, externalByRef.lookup reference ≠ none ∨ internalByRef.lookup reference ≠ none) :
    ((refs.filterMap (matchAt externalByRef internalByRef)).map (·.reference) ++
      (references (refs.filterMap (missingAt externalByRef internalByRef)) ++
        references (refs.filterMap (missingAt internalByRef externalByRef)))).Perm refs := by
  induction refs with
  | nil => exact .refl _
  | cons reference refs ih =>
      have hrest := ih fun reference' hmem => h reference' (List.mem_cons_of_mem _ hmem)
      have hhead := h reference List.mem_cons_self
      simp only [references] at hrest ⊢
      rw [List.filterMap_cons, List.filterMap_cons, List.filterMap_cons, matchAt, missingAt, missingAt]
      rcases he : externalByRef.lookup reference with _ | e <;> rcases hi : internalByRef.lookup reference with _ | i
      · exact absurd hhead (by simp [he, hi])
      · simp only [Option.bind_none, reduceCtorEq, ↓reduceIte, Option.map_some, List.map_cons]
        exact (List.perm_middle.symm.append_left _).symm.trans
          (List.perm_middle.trans (hrest.cons reference))
      · simp only [Option.map_none, Option.bind_some, Option.map_some, ↓reduceIte, reduceCtorEq, List.map_cons]
        exact List.perm_middle.trans (hrest.cons reference)
      · simp only [Option.bind_some, Option.map_some, reduceCtorEq, ↓reduceIte, List.map_cons, lineMatch]
        exact hrest.cons reference

end Loop

/-- The total of the lines is the sum over their references. -/
theorem sum_side {lines : List (Id × Int)} {refs : List Id} (hnodup : refs.Nodup)
    (hcover : ∀ reference ∈ references lines, reference ∈ refs) :
    (refs.map fun reference => ((totals lines).lookup reference).getD 0).sum = linesTotal lines := by
  have hside : ∀ reference, ((totals lines).lookup reference).getD 0 = (amountsOf lines reference).sum := by
    intro reference
    rw [lookup_totals]
    split_ifs with h
    · rfl
    · rw [Data.amountsOf_eq_nil h]
      rfl
  simp only [hside]
  exact Data.sum_groups hnodup (fun line : Id × Int => line.1) (fun line => line.2)
    fun line hline => hcover line.1 (List.mem_map_of_mem hline)

/-- What `reconcile` computes, reference by reference. -/
theorem reconcile_eq (external internal : List (Id × Int)) :
    let refs := sortedRefs (totals external) (totals internal)
    reconcile external internal =
      { lineMatches := refs.filterMap (matchAt (totals external) (totals internal))
        missingInternal := refs.filterMap (missingAt (totals external) (totals internal))
        missingExternal := refs.filterMap (missingAt (totals internal) (totals external))
        externalTotalCents := linesTotal external
        internalTotalCents := linesTotal internal
        netDifferenceCents := linesTotal external - linesTotal internal } := by
  intro refs
  obtain ⟨hmatches, hmissing⟩ := foldl_reconcileReference (totals external) (totals internal) refs ⟨[], [], [], 0, 0, 0⟩
  obtain ⟨hmissing', hexternal, hinternal⟩ := foldl_totals (totals external) (totals internal) refs ⟨[], [], [], 0, 0, 0⟩
  have hnodup : refs.Nodup := sortedRefs_nodup _ _
  rw [sum_side hnodup fun reference h => mem_sortedRefs_totals.mpr (.inl h), zero_add] at hexternal
  rw [sum_side hnodup fun reference h => mem_sortedRefs_totals.mpr (.inr h), zero_add] at hinternal
  rw [List.nil_append] at hmatches hmissing hmissing'
  rw [reconcile]
  simp only [refs] at hmatches hmissing hmissing' hexternal hinternal ⊢
  rw [hmatches, hmissing, hmissing', hexternal, hinternal]

/-! ## The laws -/

section Laws

variable (external internal : List (Id × Int))

/-- Each reference that occurs is in one place, once. -/
def ReconcileResult.Partitions (r : ReconcileResult) : Prop :=
  (r.lineMatches.map (·.reference) ++ (references r.missingInternal ++ references r.missingExternal)).Nodup ∧
    ∀ reference, reference ∈ r.lineMatches.map (·.reference) ++
        (references r.missingInternal ++ references r.missingExternal) ↔
      reference ∈ references external ∨ reference ∈ references internal

theorem reconcile_partitions : (reconcile external internal).Partitions external internal := by
  have hperm := perm_references (totals external) (totals internal) (sortedRefs (totals external) (totals internal))
    fun reference h => by
      rw [lookup_totals_eq_side, lookup_totals_eq_side, ne_eq, ne_eq, side_eq_none, side_eq_none, not_not, not_not]
      exact mem_sortedRefs_totals.mp h
  rw [ReconcileResult.Partitions, reconcile_eq]
  exact ⟨hperm.nodup_iff.mpr (sortedRefs_nodup _ _), fun reference => hperm.mem_iff.trans mem_sortedRefs_totals⟩

theorem mem_lineMatches (m : LineMatch) : m ∈ (reconcile external internal).lineMatches ↔
    ∃ e i, side external m.reference = some e ∧ side internal m.reference = some i ∧ m = lineMatch m.reference e i := by
  rw [reconcile_eq]
  simp only [List.mem_filterMap, matchAt, lookup_totals_eq_side, Option.bind_eq_some_iff, Option.map_eq_some_iff]
  constructor
  · rintro ⟨reference, -, e, he, i, hi, rfl⟩
    exact ⟨e, i, he, hi, rfl⟩
  · rintro ⟨e, i, he, hi, hm⟩
    exact ⟨m.reference, mem_sortedRefs_totals.mpr (.inl (side_eq_some.mp he).1), e, he, i, hi, hm.symm⟩

theorem mem_missing {lines lines' : List (Id × Int)} {refs : List Id}
    (hrefs : ∀ reference ∈ references lines, reference ∈ refs) (x : Id × Int) :
    x ∈ refs.filterMap (missingAt (totals lines) (totals lines')) ↔
      side lines x.1 = some x.2 ∧ side lines' x.1 = none := by
  simp only [List.mem_filterMap, missingAt, lookup_totals_eq_side]
  constructor
  · rintro ⟨reference, -, h⟩
    split_ifs at h with hnone
    obtain ⟨amount, hamount, rfl⟩ := Option.map_eq_some_iff.mp h
    exact ⟨hamount, hnone⟩
  · rintro ⟨hamount, hnone⟩
    refine ⟨x.1, hrefs _ (side_eq_some.mp hamount).1, ?_⟩
    rw [if_pos hnone, hamount]
    rfl

theorem mem_missingInternal (x : Id × Int) : x ∈ (reconcile external internal).missingInternal ↔
    side external x.1 = some x.2 ∧ side internal x.1 = none := by
  rw [reconcile_eq]
  exact mem_missing (fun _ h => mem_sortedRefs_totals.mpr (.inl h)) x

theorem mem_missingExternal (x : Id × Int) : x ∈ (reconcile external internal).missingExternal ↔
    side internal x.1 = some x.2 ∧ side external x.1 = none := by
  rw [reconcile_eq]
  exact mem_missing (fun _ h => mem_sortedRefs_totals.mpr (.inr h)) x

theorem reconcile_breaks : (reconcile external internal).breaks = (reconcile external internal).netDifferenceCents := by
  rw [reconcile_eq]
  have hnodup := sortedRefs_nodup (totals external) (totals internal)
  exact (breaks_filterMap _ _ _).trans (congrArg₂ _
    (sum_side hnodup fun _ h => mem_sortedRefs_totals.mpr (.inl h))
    (sum_side hnodup fun _ h => mem_sortedRefs_totals.mpr (.inr h)))

/-- A reconciliation is clean when the sides agree on every reference. -/
theorem isClean_reconcile_iff : isClean (reconcile external internal) = true ↔
    ∀ reference, side external reference = side internal reference := by
  have hclean : isClean (reconcile external internal) = true ↔ (reconcile external internal).missingInternal = [] ∧
      (reconcile external internal).missingExternal = [] ∧
        ∀ m ∈ (reconcile external internal).lineMatches, m.status = .exact := by
    simp [isClean, and_assoc]
  rw [hclean, List.eq_nil_iff_forall_not_mem, List.eq_nil_iff_forall_not_mem]
  constructor
  · rintro ⟨hinternal, hexternal, hexact⟩ reference
    rcases he : side external reference with _ | e <;> rcases hi : side internal reference with _ | i
    · rfl
    · exact absurd ((mem_missingExternal external internal (reference, i)).mpr ⟨hi, he⟩) (hexternal _)
    · exact absurd ((mem_missingInternal external internal (reference, e)).mpr ⟨he, hi⟩) (hinternal _)
    · have hstatus := hexact (lineMatch reference e i) ((mem_lineMatches external internal _).mpr ⟨e, i, he, hi, rfl⟩)
      simp only [lineMatch, classifyMatch] at hstatus
      split_ifs at hstatus with heq
      rw [heq]
  · intro h
    refine ⟨fun x hx => ?_, fun x hx => ?_, fun m hm => ?_⟩
    · obtain ⟨he, hi⟩ := (mem_missingInternal external internal x).mp hx
      rw [h x.1, hi] at he
      cases he
    · obtain ⟨hi, he⟩ := (mem_missingExternal external internal x).mp hx
      rw [h x.1, hi] at he
      cases he
    · obtain ⟨e, i, he, hi, hmatch⟩ := (mem_lineMatches external internal m).mp hm
      rw [h m.reference, hi] at he
      rw [hmatch, lineMatch, classifyMatch, if_pos (Option.some.inj he).symm]

/-- The same references with equal sums. -/
theorem side_eq_iff : (∀ reference, side external reference = side internal reference) ↔
    (∀ reference, reference ∈ references external ↔ reference ∈ references internal) ∧
      ∀ reference, (amountsOf external reference).sum = (amountsOf internal reference).sum := by
  constructor
  · intro h
    have hmem : ∀ reference, reference ∈ references external ↔ reference ∈ references internal := fun reference =>
      not_iff_not.mp (by rw [← side_eq_none, ← side_eq_none, h])
    refine ⟨hmem, fun reference => ?_⟩
    by_cases hin : reference ∈ references external
    · have hside := h reference
      rw [side, side, if_pos hin, if_pos ((hmem reference).mp hin)] at hside
      exact Option.some.inj hside
    · rw [Data.amountsOf_eq_nil hin, Data.amountsOf_eq_nil ((hmem reference).not.mp hin)]
  · rintro ⟨hmem, hsum⟩ reference
    unfold side
    rw [hsum reference]
    exact if_congr (hmem reference) rfl rfl

theorem classifyMatch_comm (e i : Int) : classifyMatch e i = classifyMatch i e := by
  unfold classifyMatch
  exact if_congr eq_comm rfl rfl

theorem reconcile_swap : reconcile internal external = (reconcile external internal).swap := by
  have hrefs : sortedRefs (totals internal) (totals external) = sortedRefs (totals external) (totals internal) :=
    sortedRefs_congr fun _ => or_comm
  have hmatch : ∀ reference, matchAt (totals internal) (totals external) reference =
      (matchAt (totals external) (totals internal) reference).map LineMatch.swap := by
    intro reference
    unfold matchAt
    rcases (totals external).lookup reference with _ | e <;> rcases (totals internal).lookup reference with _ | i
    · rfl
    · rfl
    · rfl
    · simp [lineMatch, LineMatch.swap, classifyMatch_comm i e]
  rw [reconcile_eq, reconcile_eq, hrefs]
  simp only [ReconcileResult.swap, List.map_filterMap, neg_sub]
  rw [List.filterMap_congr fun reference _ => hmatch reference]

theorem reconcile_perm {external internal} {external' internal' : List (Id × Int)} (h : external'.Perm external)
    (h' : internal'.Perm internal) : reconcile external' internal' = reconcile external internal := by
  have hrefs : sortedRefs (totals external') (totals internal') = sortedRefs (totals external) (totals internal) :=
    sortedRefs_congr fun _ => or_congr (h.map _).mem_iff (h'.map _).mem_iff
  have hmatch : matchAt (totals external') (totals internal') = matchAt (totals external) (totals internal) := by
    funext reference
    simp only [matchAt, lookup_totals_eq_side, side_perm h, side_perm h']
  have hmissing : ∀ {a a' b b' : List (Id × Int)}, a'.Perm a → b'.Perm b →
      missingAt (totals a') (totals b') = missingAt (totals a) (totals b) := by
    intro a a' b b' ha hb
    funext reference
    simp only [missingAt, lookup_totals_eq_side, side_perm ha, side_perm hb]
  have htotal : linesTotal external' = linesTotal external := (h.map _).sum_eq
  have htotal' : linesTotal internal' = linesTotal internal := (h'.map _).sum_eq
  rw [reconcile_eq, reconcile_eq]
  simp only [hrefs, hmatch, hmissing h h', hmissing h' h, htotal, htotal']

end Laws

/-- Main theorem: a reconciliation puts every reference in one place, adds up both lists, accounts for their difference
by its breaks, is clean exactly for equal sides, and is symmetric and independent of the order of the lists. -/
theorem reconcile_isPartition (external internal : List (Id × Int)) :
    ((reconcile external internal).Partitions external internal ∧
        (∀ m, m ∈ (reconcile external internal).lineMatches ↔
          ∃ e i, side external m.reference = some e ∧ side internal m.reference = some i ∧
            m = lineMatch m.reference e i) ∧
        (∀ x, x ∈ (reconcile external internal).missingInternal ↔
          side external x.1 = some x.2 ∧ side internal x.1 = none) ∧
        ∀ x, x ∈ (reconcile external internal).missingExternal ↔
          side internal x.1 = some x.2 ∧ side external x.1 = none) ∧
      ((reconcile external internal).externalTotalCents = linesTotal external ∧
        (reconcile external internal).internalTotalCents = linesTotal internal) ∧
      (reconcile external internal).netDifferenceCents = (reconcile external internal).breaks ∧
      (isClean (reconcile external internal) = true ↔
        (∀ reference, reference ∈ references external ↔ reference ∈ references internal) ∧
          ∀ reference, (amountsOf external reference).sum = (amountsOf internal reference).sum) ∧
      reconcile internal external = (reconcile external internal).swap ∧
      ∀ external' internal' : List (Id × Int), external'.Perm external → internal'.Perm internal →
        reconcile external' internal' = reconcile external internal := by
  refine ⟨⟨reconcile_partitions external internal, mem_lineMatches external internal,
    mem_missingInternal external internal, mem_missingExternal external internal⟩, ?_,
    (reconcile_breaks external internal).symm, ?_, reconcile_swap external internal,
    fun external' internal' h h' => reconcile_perm h h'⟩
  · rw [reconcile_eq]
    exact ⟨rfl, rfl⟩
  · exact (isClean_reconcile_iff external internal).trans (side_eq_iff external internal)

example : reconcile [(1, 30), (2, 5), (1, 20)] [(3, 7), (1, 45)] =
    ⟨[lineMatch 1 50 45], [(2, 5)], [(3, 7)], 55, 52, 3⟩ := by decide

end CorpoPay.Settlement
