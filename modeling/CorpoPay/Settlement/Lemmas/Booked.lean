import CorpoPay.Settlement.Lemmas.Dispute
import CorpoPay.Settlement.Lemmas.Keeps
import CorpoPay.Settlement.Lemmas.Payout
import CorpoPay.Settlement.Lemmas.Refund

/-!
# Booked movements

`Booked ms` says that the ledger grows by the movements `ms`, and that the other tables that money operations look at
keep what they say.
-/

namespace CorpoPay.Settlement

open Transaction.Tx

/-! ## The other tables -/

def Db.splitIds (db : Db) : List Id := db.splits.map (·.id)

/-- New splits are settled; disputes, recoveries and refunds stay. -/
structure Aside (db db' : Db) : Prop where
  splits : ∃ rows : List Split, db'.splits = db.splits ++ rows ∧ ∀ r ∈ rows, r.status = .settled
  splitIds : db.splitIds.Nodup → db'.splitIds.Nodup
  disputes : db'.disputes = db.disputes
  recoveries : db'.recoveries = db.recoveries
  refunds : db'.refunds = db.refunds

theorem Aside.of_eq {db db' : Db} (hs : db'.splits = db.splits) (hd : db'.disputes = db.disputes)
    (hr : db'.recoveries = db.recoveries) (hf : db'.refunds = db.refunds) : Aside db db' :=
  ⟨⟨[], by simp [hs], by simp⟩, fun h => by rwa [Db.splitIds, hs], hd, hr, hf⟩

instance : IsPreorder Db Aside where
  refl := fun _ => .of_eq rfl rfl rfl rfl
  trans := by
    rintro db₁ db₂ db₃ ⟨⟨rows, hs, hset⟩, hn, hd, hr, hf⟩ ⟨⟨rows', hs', hset'⟩, hn', hd', hr', hf'⟩
    refine ⟨⟨rows ++ rows', by rw [hs', hs, List.append_assoc], fun r hr => ?_⟩, fun h => hn' (hn h), hd'.trans hd,
      hr'.trans hr, hf'.trans hf⟩
    rcases List.mem_append.mp hr with h | h
    · exact hset r h
    · exact hset' r h

theorem aside_postings : Postings Aside where
  post _ := keeps_post fun _ _ => .of_eq rfl rfl rfl rfl
  postEntry _ := keeps_postEntry fun _ _ => .of_eq rfl rfl rfl rfl

/-- The row of a new split: its id was not taken. -/
theorem ensures_splitCreate {row : Id → Split} {db : Db} {Q : Split → Db → Prop}
    (h : ∀ id, (∀ s ∈ db.splits, s.id ≠ id) → Q (row id) { db with splits := db.splits ++ [row id] }) :
    (Split.create row).Ensures Q (fun _ => True) db := by
  simp only [Split.create, bind_eq, pure_eq, ensures_bind, ensures_get, ensures_ite, ensures_throw, ensures_modify,
    ensures_ret]
  refine fun id => ⟨fun _ => trivial, fun hid => h id fun s hs heq => hid ?_⟩
  exact List.any_eq_true.mpr ⟨s, hs, by simp [heq]⟩

theorem nodup_splitIds_append {db : Db} {r : Split} (hid : ∀ s ∈ db.splits, s.id ≠ r.id) (h : db.splitIds.Nodup) :
    ((db.splits ++ [r]).map (·.id)).Nodup := by
  rw [List.map_append]
  exact List.nodup_append.mpr ⟨h, by simp, by simpa using hid⟩

theorem aside_splitCreate {row : Id → Split} (hrow : ∀ id, (row id).id = id ∧ (row id).status = .settled) :
    (Split.create row).Keeps Aside := fun db => ensures_splitCreate fun id hid => by
  refine ⟨⟨[row id], rfl, by simp [hrow]⟩, nodup_splitIds_append (by simpa [hrow] using hid), rfl, rfl, rfl⟩

/-! ## Booked movements -/

/-- The ledger grows by `ms`. -/
structure Booked (ms : List Movement) (db db' : Db) : Prop where
  movements : db'.movements = db.movements ++ ms
  aside : Aside db db'

theorem Booked.of_appends {ms : List Movement} {db db' : Db} (h : Appends ms db db') (ha : Aside db db') :
    Booked ms db db' := ⟨h.movements_eq, ha⟩

theorem Booked.balance_eq {ms : List Movement} {db db' : Db} (h : Booked ms db db') (t : Id) (a : LedgerAccount)
    (c : Currency) : db'.accountBalance t a c = db.accountBalance t a c + balance ms t a c := by
  rw [Db.accountBalance_eq, Db.accountBalance_eq, h.movements, balance_append]

theorem Booked.refl (db : Db) : Booked [] db db := ⟨by simp, refl_of Aside db⟩

theorem Booked.trans {ms ms' : List Movement} {db₁ db₂ db₃ : Db} (h : Booked ms db₁ db₂) (h' : Booked ms' db₂ db₃) :
    Booked (ms ++ ms') db₁ db₃ := ⟨by rw [h'.movements, h.movements, List.append_assoc], trans_of Aside h.aside h'.aside⟩

theorem Booked.trans_nil {ms : List Movement} {db₁ db₂ db₃ : Db} (h : Booked ms db₁ db₂) (h' : Booked [] db₂ db₃) :
    Booked ms db₁ db₃ := by simpa using h.trans h'

instance : IsPreorder Db (Booked []) where
  refl := Booked.refl
  trans := fun _ _ _ h h' => h.trans h'

theorem booked_ignoresWallets : IgnoresWallets (Booked []) :=
  ⟨fun _ _ => ⟨by simp [Db.movements], .of_eq rfl rfl rfl rfl⟩, fun _ _ => ⟨by simp [Db.movements], .of_eq rfl rfl rfl rfl⟩⟩

section Postings

variable {t : Id} {amount : Int} {d c : LedgerLeg} {m : Meta} {db : Db} {Q : Unit → Db → Prop}

theorem booked_post (h : ∀ db', (⟨d, c, m⟩ : LedgerPosting).Valid →
    Booked ((⟨d, c, m⟩ : LedgerPosting).movements t) db db' → Q () db') : (post t d c m).Ensures Q (fun _ => True) db := by
  have hrows : (post t d c m).Ensures (fun _ db' => (⟨d, c, m⟩ : LedgerPosting).Valid ∧
      Appends ((⟨d, c, m⟩ : LedgerPosting).movements t) db db') (fun _ => True) db := ensures_post fun _ hv ha => ⟨hv, ha⟩
  have hkeeps : (post t d c m).Keeps Aside := keeps_post fun _ _ => .of_eq rfl rfl rfl rfl
  exact (hrows.and (hkeeps db)).mono (fun _ db' ⟨⟨hv, ha⟩, hk⟩ => h db' hv (.of_appends ha hk)) fun _ _ => trivial

theorem booked_postPositive (h : ∀ db', Booked (positiveMovements t amount d c m) db db' → Q () db') :
    (postPositive t amount d c m).Ensures Q (fun _ => True) db := by
  unfold postPositive
  rw [ensures_when]
  constructor
  · intro hpos
    exact booked_post fun db' _ hb => h db' (by rwa [positiveMovements, if_pos hpos])
  · intro hpos
    exact h db (by rw [positiveMovements, if_neg hpos]; exact .refl db)

end Postings

/-- Movements of one tenant. -/
def Of (t : Id) (ms : List Movement) : Prop := ∀ m ∈ ms, m.tenantId = t

theorem Of.balance_eq_zero {t t' : Id} {ms : List Movement} (h : Of t ms) (hne : t ≠ t') (a : LedgerAccount)
    (c : Currency) : balance ms t' a c = 0 := by
  refine List.sum_eq_zero fun v hv => ?_
  obtain ⟨m, hm, rfl⟩ := List.mem_map.mp hv
  exact if_neg fun hon => hne ((h m hm).symm.trans hon.1)

theorem of_nil (t : Id) : Of t [] := by simp [Of]

theorem of_append {t : Id} {ms ms' : List Movement} (h : Of t ms) (h' : Of t ms') : Of t (ms ++ ms') := by
  intro m hm
  rcases List.mem_append.mp hm with hm | hm
  · exact h m hm
  · exact h' m hm

theorem of_flatMap {α : Type} {t : Id} {f : α → List Movement} (h : ∀ a, Of t (f a)) (as : List α) :
    Of t (as.flatMap f) := by
  intro m hm
  obtain ⟨a, -, hm⟩ := List.mem_flatMap.mp hm
  exact h a m hm

theorem of_posting (t : Id) (p : LedgerPosting) : Of t (p.movements t) := by
  simp [Of, LedgerPosting.movements, LedgerLeg.movement]

theorem of_positive (t : Id) (amount : Int) (d c : LedgerLeg) (m : Meta) : Of t (positiveMovements t amount d c m) := by
  unfold positiveMovements
  split_ifs
  · exact of_posting t _
  · exact of_nil t

theorem of_split (t : Id) (trigger : SplitTrigger) (held : Bool) (currency : Currency) (source : Meta)
    (result : SplitResult) : Of t (splitMovements t trigger held currency source result) := by
  refine of_append (of_flatMap (fun _ => of_posting t _) _) ?_
  unfold platformMovements
  split_ifs
  · exact of_posting t _
  · exact of_nil t

theorem of_capture (t : Id) (input : SettleCaptureInput) (cp : CapturePlan) : Of t (captureMovements t input cp) := by
  have hrule : Of t (ruleMovements t input cp) := by
    unfold ruleMovements
    split
    · exact of_split t _ _ _ _ _
    · exact of_nil t
  have hnet : Of t (netMovements t input cp) := by
    unfold netMovements
    split
    · exact of_nil t
    · exact of_positive t _ _ _ _
  exact of_append (of_posting t _) (of_append hrule (of_append (of_positive t _ _ _ _) (of_append (of_positive t _ _ _ _)
    (of_append (of_positive t _ _ _ _) hnet))))

theorem of_reversals (t refundId : Id) (currency : Currency) (ms : List Movement) :
    Of t (ms.flatMap (reversal t refundId currency)) := of_flatMap (fun _ => of_positive t _ _ _ _) _

theorem of_clawback (t id : Id) (currency : Currency) (a : ClawbackAllocation) :
    Of t (clawbackMovements t id currency a) := of_append (of_positive t _ _ _ _) (of_positive t _ _ _ _)

end CorpoPay.Settlement
