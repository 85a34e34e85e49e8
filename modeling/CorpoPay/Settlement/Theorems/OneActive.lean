import Mathlib.Data.List.Range
import CorpoPay.Settlement.VersionsDb
import CorpoPay.Transaction.Sequence

/-!
# One active version
-/

namespace CorpoPay.Settlement

open Transaction

namespace VersionTable

variable {Row : Type} {T : VersionTable Row} {t t' : Id}

/-! ## What the versions of a tenant look like -/

variable (T) in
/-- The versions are numbered from 1 on without gaps, and from the first one on the last one alone is active. -/
structure OneActive (rows : List Row) : Prop where
  numbered : (rows.map T.version).Perm (List.range' 1 rows.length)
  active : rows ≠ [] → ∃ r, rows.filter T.isActive = [r] ∧ ∀ r' ∈ rows, T.version r' ≤ T.version r

variable (T) in
/-- The highest version, or 0. -/
def top (rows : List Row) : Nat := (rows.map T.version).max?.getD 0

theorem oneActive_nil : T.OneActive [] := ⟨.refl _, fun h => absurd rfl h⟩

theorem OneActive.mem_version {rows : List Row} (h : T.OneActive rows) {n : Nat} :
    n ∈ rows.map T.version ↔ 1 ≤ n ∧ n ≤ rows.length := by
  rw [h.numbered.mem_iff, List.mem_range'_1]
  omega

theorem OneActive.top_eq {rows : List Row} (h : T.OneActive rows) : T.top rows = rows.length := by
  cases rows with
  | nil => rfl
  | cons r rs =>
      have hmax : ((r :: rs).map T.version).max? = some (r :: rs).length := by
        refine List.max?_eq_some_iff.mpr ⟨h.mem_version.mpr ⟨Nat.succ_pos _, le_refl _⟩, fun n hn => ?_⟩
        exact (h.mem_version.mp hn).2
      rw [top, hmax, Option.getD_some]

/-- The next version over inactive ones. -/
theorem OneActive.append {rows rows' : List Row} {r : Row} (h : T.OneActive rows) (hversions : rows'.map T.version = rows.map T.version)
    (hinactive : ∀ r' ∈ rows', T.isActive r' = false) (hversion : T.version r = T.top rows + 1) (hactive : T.isActive r = true) :
    T.OneActive (rows' ++ [r]) ∧ T.top (rows' ++ [r]) = T.top rows + 1 := by
  have hlength : rows'.length = rows.length := by simpa using congrArg List.length hversions
  have hnext : T.OneActive (rows' ++ [r]) := by
    refine ⟨?_, fun _ => ⟨r, ?_, fun r' hr' => ?_⟩⟩
    · rw [List.map_append, hversions, List.length_append, hlength, List.length_singleton, List.range'_1_concat]
      rw [List.map_singleton, hversion, h.top_eq, Nat.add_comm 1]
      exact h.numbered.append_right _
    · rw [List.filter_append, List.filter_eq_nil_iff.mpr fun r' hr' => by simp [hinactive r' hr']]
      simp [hactive]
    · rcases List.mem_append.mp hr' with hr' | hr'
      · have hmem : T.version r' ∈ rows.map T.version := hversions ▸ List.mem_map_of_mem hr'
        rw [hversion, h.top_eq]
        exact (h.mem_version.mp hmem).2.trans (Nat.le_succ _)
      · rw [List.mem_singleton.mp hr']
  exact ⟨hnext, by rw [hnext.top_eq, h.top_eq, List.length_append, hlength, List.length_singleton]⟩

/-! ## What the statements do to them -/

@[simp] theorem ofTenant_put (rs : List Row) (db : Db) :
    T.ofTenant t (T.put rs db) = rs.filter fun r => T.tenantId r = t := by rw [ofTenant, T.rows_put]

theorem ofTenant_setInactive (ids : List Id) (db : Db) :
    T.ofTenant t (T.put (T.setInactive t' ids (T.rows db)) db) = T.setInactive t' ids (T.ofTenant t db) := by
  rw [ofTenant_put, setInactive, List.filter_map, ofTenant, setInactive]
  have htenant : ∀ r, T.tenantId (if T.tenantId r = t' ∧ T.isActive r ∧ T.id r ∈ ids then T.deactivate r else r) =
      T.tenantId r := by
    intro r
    split_ifs
    · exact T.tenantId_deactivate r
    · rfl
  simp only [Function.comp_def, htenant]

theorem versions_setInactive (ids : List Id) (db : Db) :
    (T.ofTenant t (T.put (T.setInactive t ids (T.rows db)) db)).map T.version = (T.ofTenant t db).map T.version := by
  rw [ofTenant_setInactive, setInactive, List.map_map]
  refine List.map_congr_left fun r _ => ?_
  rw [Function.comp_apply]
  split_ifs
  · exact T.version_deactivate r
  · rfl

/-- No version is active when the ids are those of the active ones. -/
theorem isActive_setInactive {ids : List Id} {db : Db} (hids : ids = ((T.ofTenant t db).filter T.isActive).map T.id) {r : Row}
    (hr : r ∈ T.ofTenant t (T.put (T.setInactive t ids (T.rows db)) db)) : T.isActive r = false := by
  rw [ofTenant_setInactive, setInactive] at hr
  obtain ⟨r₀, hr₀, rfl⟩ := List.mem_map.mp hr
  split_ifs with h
  · exact T.isActive_deactivate r₀
  · refine Bool.eq_false_iff.mpr fun hactive => h ⟨of_decide_eq_true (List.mem_filter.mp hr₀).2, hactive, ?_⟩
    rw [hids]
    exact List.mem_map_of_mem (List.mem_filter.mpr ⟨hr₀, hactive⟩)

theorem ofTenant_append {r : Row} (hr : T.tenantId r = t) (db : Db) :
    T.ofTenant t (T.put (T.rows db ++ [r]) db) = T.ofTenant t db ++ [r] := by
  rw [ofTenant_put, List.filter_append, ofTenant]
  simp [hr]

/-- The versions after the active ones are off and the next one is in. -/
theorem addVersion_oneActive {ids : List Id} {db : Db} {r : Row} {n : Nat}
    (hids : ids = ((T.ofTenant t db).filter T.isActive).map T.id) (hone : T.OneActive (T.ofTenant t db))
    (htenant : T.tenantId r = t) (hversion : T.version r = T.top (T.ofTenant t db) + 1) (hactive : T.isActive r = true)
    (hn : T.top (T.ofTenant t db) = n) :
    let off := T.put (T.setInactive t ids (T.rows db)) db
    T.top (T.ofTenant t (T.put (T.rows off ++ [r]) off)) = n + 1 ∧ T.OneActive (T.ofTenant t (T.put (T.rows off ++ [r]) off)) := by
  intro off
  rw [ofTenant_append htenant, and_comm, ← hn]
  exact hone.append (versions_setInactive ids db) (fun _ => isActive_setInactive hids) hversion hactive

theorem taken_of_mem {n : Nat} {id : Id} {db : Db} (h : n ∈ (T.ofTenant t db).map T.version) : T.taken t n id db = true := by
  obtain ⟨r, hr, rfl⟩ := List.mem_map.mp h
  obtain ⟨hmem, htenant⟩ := List.mem_filter.mp hr
  exact List.any_eq_true.mpr ⟨r, hmem, decide_eq_true (.inr ⟨of_decide_eq_true htenant, rfl⟩)⟩

/-! ## The transaction that adds one -/

variable (T) in
/-- The versions of one tenant, as the transactions see them. -/
def sequence (t : Id) : Sequence Backend (List Row) where
  view := T.ofTenant t
  top := T.top
  entry := T.versionLock t
  inv := T.OneActive

variable {row : Id → Nat → Row} {refersTo : Db → Bool}

theorem createVersion_eq : T.createVersion t row refersTo =
    (T.sequence t).numbering (fun _ => (T.deactivateActive t).bind fun _ => freshId)
      (fun n id => T.taken t (n + 1) id) (.prismaError "P2002") fun n id => T.insert (row id (n + 1)) refersTo := by
  rw [Sequence.numbering, createVersion]
  simp only [Tx.bind_eq, Transaction.Tx.bind_assoc]
  rfl

/-- What `createVersion` writes over the versions it has read. -/
theorem numbers_createVersion (hversion : ∀ id n, T.version (row id n) = n) (htenant : ∀ id n, T.tenantId (row id n) = t)
    (hactive : ∀ id n, T.isActive (row id n) = true) :
    (T.sequence t).Numbers (fun _ => (T.deactivateActive t).bind fun _ => freshId) (fun n id => T.taken t (n + 1) id)
      fun n id => T.insert (row id (n + 1)) refersTo where
  late n := by
    simp only [deactivateActive, Tx.bind_eq, Tx.writes_bind, Tx.writes_get, Tx.writes_locks, Tx.writes_modify]
    intro seen id db hone hlt
    refine taken_of_mem ?_
    rw [Function.comp_id, versions_setInactive]
    exact hone.mem_version.mpr ⟨Nat.succ_pos n, hone.top_eq ▸ hlt⟩
  timely v hone := by
    simp only [deactivateActive, Tx.bind_eq, Sequence.sees_bind, Sequence.sees_get, Sequence.sees_locks,
      Sequence.sees_modify]
    intro seen hseen id
    simp only [insert, Tx.bind_eq, Sequence.sees_bind, Sequence.sees_get]
    intro db _
    refine Sequence.sees_ite _ (fun _ => ?_) fun _ => trivial
    intro db hview
    have hsame : T.ofTenant t seen = T.ofTenant t db := hseen.trans hview.symm
    have hone : T.OneActive (T.ofTenant t db) := by rwa [show T.ofTenant t db = v from hview]
    have htop : T.top (T.ofTenant t db) = T.top v := congrArg T.top hview
    refine addVersion_oneActive ?_ hone (htenant _ _) ((hversion _ _).trans (congrArg (· + 1) htop.symm))
      (hactive _ _) htop
    exact congrArg (fun rs => (rs.filter T.isActive).map T.id) hsame

/-! ## Transactions of others -/

/-- What leaves a view `V` when a version is added. -/
theorem writes_createVersion {β : Type} {V : Db → β}
    (hoff : ∀ ids db, V (T.put (T.setInactive t ids (T.rows db)) db) = V db)
    (hadd : ∀ id n db, V (T.put (T.rows db ++ [row id n]) db) = V db) :
    (T.createVersion t row refersTo).Writes (fun w _ => ∀ db, V (w db) = V db) fun db => db := by
  simp only [createVersion, deactivateActive, insert, Tx.bind_eq, Tx.writes_bind, Tx.writes_get, Tx.writes_locks,
    Tx.writes_modify]
  intro _ seen _ _
  refine Tx.writes_ite _ (fun _ => trivial) fun _ => fun _ => Tx.writes_ite _ (fun _ db => ?_) fun _ => trivial
  exact (hadd _ _ _).trans (hoff _ db)

/-- The versions of another tenant stay. -/
theorem ofTenant_other (hne : t' ≠ t) (htenant : ∀ id n, T.tenantId (row id n) = t') :
    (∀ ids db, T.ofTenant t (T.put (T.setInactive t' ids (T.rows db)) db) = T.ofTenant t db) ∧
      ∀ id n db, T.ofTenant t (T.put (T.rows db ++ [row id n]) db) = T.ofTenant t db := by
  refine ⟨fun ids db => ?_, fun id n db => ?_⟩
  · rw [ofTenant_setInactive, setInactive]
    refine (List.map_congr_left fun r hr => if_neg fun h => hne ?_).trans (List.map_id _)
    exact h.1.symm.trans (of_decide_eq_true (List.mem_filter.mp hr).2)
  · rw [ofTenant_put, List.filter_append, ofTenant]
    simp [htenant, hne]

end VersionTable

/-! ## Requests -/

variable {t : Id}

/-- A request keeps the contract of a table that it leaves as it is. -/
theorem wp_createVersion_other {Row Row' : Type} {T : VersionTable Row} {T' : VersionTable Row'} {t' : Id}
    {row : Id → Nat → Row'} {refersTo : Db → Bool} {ℓ : Local Backend} {σ : Shared Backend}
    (hoff : ∀ ids db, T.ofTenant t (T'.put (T'.setInactive t' ids (T'.rows db)) db) = T.ofTenant t db)
    (hadd : ∀ id n db, T.ofTenant t (T'.put (T'.rows db ++ [row id n]) db) = T.ofTenant t db) :
    (transaction (T'.createVersion t' row refersTo)).WP (T.sequence t).contract (fun _ _ => True) ℓ σ :=
  Sequence.wp_of_does (Job.does_transaction (VersionTable.writes_createVersion hoff hadd) (.of_forall fun _ => trivial))

/-- A request keeps the contract of the table it adds to, whichever tenant it is of. -/
theorem wp_createVersion {Row : Type} {T : VersionTable Row} {t' : Id} {row : Id → Nat → Row} {refersTo : Db → Bool}
    {ℓ : Local Backend} {σ : Shared Backend} (hversion : ∀ id n, T.version (row id n) = n)
    (htenant : ∀ id n, T.tenantId (row id n) = t') (hactive : ∀ id n, T.isActive (row id n) = true) :
    (transaction (T.createVersion t' row refersTo)).WP (T.sequence t).contract (fun _ _ => True) ℓ σ := by
  by_cases ht : t' = t
  · subst ht
    rw [VersionTable.createVersion_eq]
    exact (VersionTable.numbers_createVersion hversion htenant hactive).wp
  · obtain ⟨hoff, hadd⟩ := VersionTable.ofTenant_other ht htenant
    exact wp_createVersion_other hoff hadd

theorem wp_feeSchedules (r : VersionRequest) {ℓ : Local Backend} {σ : Shared Backend}
    (hσ : (feeScheduleTable.sequence t).inv ((feeScheduleTable.sequence t).view σ.store)) :
    r.job.WP (feeScheduleTable.sequence t).contract (fun _ _ => True) ℓ σ := by
  cases r with
  | feeSchedule t' input =>
      refine Job.WP.bind (Q := fun _ _ => True) (fun _ _ _ _ _ _ => trivial) ?_ hσ
      exact wp_createVersion (fun _ _ => rfl) (fun _ _ => rfl) fun _ _ => rfl
  | settlementPolicy t' input =>
      refine Job.WP.bind (Q := fun _ _ => True) (fun _ _ _ _ _ _ => trivial) ?_ hσ
      exact Job.WP.ofExcept_bind fun _ _ => wp_createVersion_other (fun _ _ => rfl) fun _ _ _ => rfl

theorem wp_settlementPolicies (r : VersionRequest) {ℓ : Local Backend} {σ : Shared Backend}
    (hσ : (settlementPolicyTable.sequence t).inv ((settlementPolicyTable.sequence t).view σ.store)) :
    r.job.WP (settlementPolicyTable.sequence t).contract (fun _ _ => True) ℓ σ := by
  cases r with
  | feeSchedule t' input =>
      refine Job.WP.bind (Q := fun _ _ => True) (fun _ _ _ _ _ _ => trivial) ?_ hσ
      exact wp_createVersion_other (fun _ _ => rfl) fun _ _ _ => rfl
  | settlementPolicy t' input =>
      refine Job.WP.bind (Q := fun _ _ => True) (fun _ _ _ _ _ _ => trivial) ?_ hσ
      exact Job.WP.ofExcept_bind fun _ _ => wp_createVersion (fun _ _ => rfl) (fun _ _ => rfl) fun _ _ => rfl

/-! ## Runs -/

/-- Whatever transactions add versions at the same time, each tenant has its versions numbered without gaps and the last
one alone active, in both tables. -/
theorem oneActive_reachable {ι : Type} [DecidableEq ι] (requests : ι → VersionRequest) (t : Id) {db : Db} {w : World}
    {p : Pool Backend ι Unit} (hfees : feeScheduleTable.OneActive (feeScheduleTable.ofTenant t db))
    (hpolicies : settlementPolicyTable.OneActive (settlementPolicyTable.ofTenant t db))
    (hp : Pool.Reachable (.init (fun i => (requests i).job) db w) p) :
    feeScheduleTable.OneActive (feeScheduleTable.ofTenant t p.shared.store) ∧
      settlementPolicyTable.OneActive (settlementPolicyTable.ofTenant t p.shared.store) :=
  ⟨Pool.sequence_inv (S := feeScheduleTable.sequence t) hfees (fun i => wp_feeSchedules (requests i) hfees) hp,
    Pool.sequence_inv (S := settlementPolicyTable.sequence t) hpolicies (fun i => wp_settlementPolicies (requests i) hpolicies) hp⟩

/-! ## Two schedules and two policies at the same time -/

def flatSchedule (flatCents : Int) : FeeScheduleInput :=
  { feeType := .flat, flatCents := some flatCents, percentageBps := none, perMethodCents := none, tiersCents := none,
    name := none, currency := none }

def minimumPolicy (payoutMinCents : Int) : SettlementPolicyInput :=
  { payoutMinCents := some payoutMinCents, name := none, feeScheduleId := none }

/-- Three schedules and three policies of one tenant that has none. -/
def scheduleRequests (i : Fin 6) : VersionRequest :=
  if i.val < 3 then .feeSchedule 1 (flatSchedule (100 * i)) else .settlementPolicy 1 (minimumPolicy (100 * i))

def unscheduled : Db := .empty { plainConfig with feeSchedules := [] }

/-- The first two requests of each kind read at the same time and one of them is refused; the third one comes later. -/
theorem oneActive_reachable_refused : ∃ p, Pool.Reachable (.init (fun i => (scheduleRequests i).job) unscheduled .counting) p ∧
    p.shared.store.feeSchedules.map (fun r => (r.version, r.flatCents, r.isActive)) = [(1, some 100, false), (2, some 200, true)] ∧
    p.shared.store.settlementPolicies.map (fun r => (r.version, r.payoutMinCents, r.isActive)) =
      [(1, some 300, false), (2, some 500, true)] ∧
    feeScheduleTable.OneActive (feeScheduleTable.ofTenant 1 p.shared.store) ∧
    settlementPolicyTable.OneActive (settlementPolicyTable.ofTenant 1 p.shared.store) := by
  obtain ⟨p, hp, hrows⟩ := Pool.ReachableIf.exists_of_runSchedule (.init (fun i => (scheduleRequests i).job) unscheduled .counting)
    ([0, 1, 3, 4, 0, 1, 3, 4, 0, 1, 3, 4] ++ List.replicate 7 1 ++ List.replicate 7 3 ++ List.replicate 5 0 ++
      List.replicate 5 4 ++ List.replicate 11 2 ++ List.replicate 11 5)
    (fun p => p.shared.store.feeSchedules.map (fun r => (r.version, r.flatCents, r.isActive)) =
      [(1, some 100, false), (2, some 200, true)] &&
      p.shared.store.settlementPolicies.map (fun r => (r.version, r.payoutMinCents, r.isActive)) =
        [(1, some 300, false), (2, some 500, true)]) (fun _ _ _ => trivial) (by decide +kernel)
  obtain ⟨hschedules, hpolicies⟩ := Bool.and_eq_true_iff.mp hrows
  exact ⟨p, hp, of_decide_eq_true hschedules, of_decide_eq_true hpolicies,
    oneActive_reachable scheduleRequests 1 VersionTable.oneActive_nil VersionTable.oneActive_nil hp⟩

end CorpoPay.Settlement
