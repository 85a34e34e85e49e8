import Mathlib.Algebra.Order.Field.Basic
import Mathlib.Data.Rat.Cast.Order
import Mathlib.Tactic.FieldSimp
import Mathlib.Tactic.Linarith
import CorpoPay.Data.Allocation
import CorpoPay.Settlement.Lemmas.Splits

/-!
# Main theorem: a split is exact and fair

The shares and the platform remainder are the source. Each share is its proportional part, rounded down or up, and for
distinct parties it does not depend on the order of the list.
-/

namespace CorpoPay.Settlement

/-! ## The order of the remainders -/

theorem SharePart.before_total (a b : SharePart) : a.before b ∨ b.before a := by
  unfold before
  rcases lt_trichotomy a.frac b.frac with h | h | h
  · exact .inr (.inl h)
  · rcases le_total a.partyId b.partyId with hid | hid
    · exact .inl (.inr ⟨h.symm, hid⟩)
    · exact .inr (.inr ⟨h, hid⟩)
  · exact .inl (.inl h)

theorem SharePart.before_trans {a b c : SharePart} (hab : a.before b) (hbc : b.before c) : a.before c := by
  unfold before at *
  rcases hab with hab | ⟨hab, hid⟩ <;> rcases hbc with hbc | ⟨hbc, hid'⟩
  · exact .inl (hbc.trans hab)
  · exact .inl (hbc ▸ hab)
  · exact .inl (hab ▸ hbc)
  · exact .inr ⟨hbc.trans hab, hid.trans hid'⟩

instance : Std.Total SharePart.before := ⟨SharePart.before_total⟩

instance : IsTrans SharePart SharePart.before := ⟨fun _ _ _ => SharePart.before_trans⟩

/-- The parts in the order in which they receive the left-over centimes. -/
def sortedParts (total : Int) (shares : List ShareSpec) : List SharePart :=
  (shares.mapIdx (sharePart total (totalBps shares))).insertionSort SharePart.before

/-- The centimes that are left over when every share is rounded down. -/
def leftOver (total : Int) (shares : List ShareSpec) : Nat :=
  (total - (shares.map fun s => total * s.shareBps / totalBps shares).sum).toNat

/-- The parts that receive a left-over centime. -/
def roundedUp (total : Int) (shares : List ShareSpec) : List SharePart :=
  (sortedParts total shares).take (leftOver total shares)

/-- One centime to each of the next `r` positions. -/
theorem giveRemaining_getElem? {order : List Nat} (hnodup : order.Nodup) {r i : Nat} (h : i + r ≤ order.length)
    (l : List Int) (j : Nat) :
    (giveRemaining order r i l)[j]? =
      l[j]?.map fun x => x + if j ∈ (order.drop i).take r then 1 else 0 := by
  induction r generalizing i l with
  | zero => simp [giveRemaining]
  | succ r ih =>
      have hi : i < order.length := by omega
      have hdrop : order.drop i = order[i] :: order.drop (i + 1) := List.drop_eq_getElem_cons hi
      have hfresh : order[i] ∉ (order.drop (i + 1)).take r := by
        intro hmem
        have hcons : (order[i] :: order.drop (i + 1)).Nodup := hdrop ▸ hnodup.sublist (List.drop_sublist i order)
        exact (List.nodup_cons.mp hcons).1 (List.mem_of_mem_take hmem)
      have hget : order.getD (i % order.length) 0 = order[i] := by
        rw [Nat.mod_eq_of_lt hi, List.getD_eq_getElem?_getD, List.getElem?_eq_getElem hi, Option.getD_some]
      rw [giveRemaining, ih (by omega), hget, hdrop, List.take_succ_cons, List.getElem?_modify]
      by_cases hj : order[i] = j
      · subst hj
        cases l[order[i]]? <;> simp [hfresh]
      · cases l[j]? <;> simp [hj, Ne.symm hj]

section Shares

variable {total : Int} {shares : List ShareSpec}

theorem mem_sortedParts {p : SharePart} :
    p ∈ sortedParts total shares ↔
      ∃ (i : Nat) (h : i < shares.length), p = sharePart total (totalBps shares) i shares[i] := by
  rw [sortedParts, List.mem_insertionSort, List.mem_mapIdx]
  constructor
  · rintro ⟨i, hi, rfl⟩
    exact ⟨i, hi, rfl⟩
  · rintro ⟨i, hi, rfl⟩
    exact ⟨i, hi, rfl⟩

theorem sortedParts_length (total : Int) (shares : List ShareSpec) :
    (sortedParts total shares).length = shares.length := by
  rw [sortedParts, List.length_insertionSort, List.length_mapIdx]

theorem sortedParts_positions_nodup (total : Int) (shares : List ShareSpec) :
    ((sortedParts total shares).map (·.position)).Nodup := by
  have hperm := (List.perm_insertionSort SharePart.before (shares.mapIdx (sharePart total (totalBps shares)))).map
    (·.position)
  have hrange : (shares.mapIdx (sharePart total (totalBps shares))).map (·.position) = List.range shares.length :=
    List.ext_getElem (by simp) (by simp [sharePart])
  rw [hrange] at hperm
  exact hperm.nodup_iff.mpr List.nodup_range

/-- The remainders of the shares add up to the left-over centimes. -/
theorem sum_frac (total : Int) (hs : ValidShares shares) :
    ((sortedParts total shares).map (·.frac)).sum = leftOver total shares * totalBps shares := by
  have hperm := (List.perm_insertionSort SharePart.before (shares.mapIdx (sharePart total (totalBps shares)))).map
    (·.frac)
  have hmap : (shares.mapIdx (sharePart total (totalBps shares))).map (·.frac) =
      shares.map fun s => total * s.shareBps % totalBps shares :=
    List.ext_getElem (by simp) (by simp [sharePart])
  have hle : (shares.map fun s => total * s.shareBps / totalBps shares).sum ≤ total :=
    le_of_mul_le_mul_right (sum_floor_le hs.totalBps_pos shares) hs.totalBps_pos
  have hdivide : ∀ l : List ShareSpec,
      (l.map fun s => total * s.shareBps / totalBps shares).sum * totalBps shares +
        (l.map fun s => total * s.shareBps % totalBps shares).sum = total * totalBps l := by
    intro l
    induction l with
    | nil => simp [totalBps]
    | cons s l ih =>
        have h := Int.ediv_mul_add_emod (total * s.shareBps) (totalBps shares)
        have hsum : totalBps (s :: l) = s.shareBps + totalBps l := rfl
        simp only [List.map_cons, List.sum_cons, add_mul, hsum, mul_add]
        omega
  rw [sortedParts, hperm.sum_eq, hmap, leftOver, Int.toNat_of_nonneg (by omega), sub_mul]
  have := hdivide shares
  omega

theorem frac_lt (total : Int) (hs : ValidShares shares) : ∀ x ∈ (sortedParts total shares).map (·.frac), x < totalBps shares := by
  intro x hx
  obtain ⟨p, hp, rfl⟩ := List.mem_map.mp hx
  obtain ⟨i, hi, rfl⟩ := mem_sortedParts.mp hp
  exact Int.emod_lt_of_pos _ hs.totalBps_pos

theorem leftOver_le (total : Int) (hs : ValidShares shares) : leftOver total shares ≤ shares.length := by
  have h := Data.multiple_le_length hs.totalBps_pos (frac_lt total hs) (sum_frac total hs)
  rwa [List.length_map, sortedParts_length] at h

/-- Only a share that was cut off is rounded up. -/
theorem frac_pos_of_mem_roundedUp (hs : ValidShares shares) {p : SharePart}
    (hp : p ∈ roundedUp total shares) : 0 < p.frac := by
  have hsorted : ((sortedParts total shares).map (·.frac)).Pairwise fun x y => y ≤ x := by
    refine List.pairwise_map.mpr ((List.pairwise_insertionSort SharePart.before _).imp fun {a b} hab => ?_)
    unfold SharePart.before at hab
    omega
  refine Data.pos_of_mem_take hs.totalBps_pos (frac_lt total hs) hsorted (sum_frac total hs) _ ?_
  rw [← List.map_take]
  exact List.mem_map_of_mem hp

/-! ## What each share receives -/

/-- A share rounded down, with one more centime if it is among the parts that are rounded up. -/
def roundedShare (total : Int) (shares : List ShareSpec) (i : Nat) (share : ShareSpec) : ShareAllocation where
  partyId := share.partyId
  amountCents := total * share.shareBps / totalBps shares +
    if i ∈ (roundedUp total shares).map (·.position) then 1 else 0

theorem computeShares_eq (hs : ValidShares shares) (htotal : 0 ≤ total) :
    computeShares total shares = .ok (shares.mapIdx (roundedShare total shares)) := by
  have horder : 0 + leftOver total shares ≤ ((sortedParts total shares).map (·.position)).length := by
    rw [List.length_map, sortedParts_length, zero_add]
    exact leftOver_le total hs
  simp only [computeShares, validateShares_eq_ok.mpr hs, if_neg (not_lt.mpr htotal), bind, Except.bind,
    map_floor_mapIdx]
  congr 1
  refine List.ext_getElem? fun i => ?_
  rw [List.getElem?_zipWith, List.getElem?_mapIdx]
  have hgive : (giveRemaining ((sortedParts total shares).map (·.position)) (leftOver total shares) 0
      (shares.map fun s => total * s.shareBps / totalBps shares))[i]? =
      (shares.map fun s => total * s.shareBps / totalBps shares)[i]?.map fun x =>
        x + if i ∈ (roundedUp total shares).map (·.position) then 1 else 0 := by
    rw [giveRemaining_getElem? (sortedParts_positions_nodup total shares) horder]
    simp only [roundedUp, List.drop_zero, List.map_take]
  simp only [sortedParts, leftOver] at hgive
  rw [hgive, List.getElem?_map]
  cases shares[i]? <;> rfl

/-- Only a share with a remainder is rounded up. -/
theorem remainder_pos (hs : ValidShares shares) {i : Nat} (h : i < shares.length)
    (hi : i ∈ (roundedUp total shares).map (·.position)) : 0 < total * shares[i].shareBps % totalBps shares := by
  obtain ⟨p, hp, rfl⟩ := List.mem_map.mp hi
  obtain ⟨j, hj, rfl⟩ := mem_sortedParts.mp (List.mem_of_mem_take hp)
  exact frac_pos_of_mem_roundedUp hs hp

/-- What `computeShares` promises of a share and its allocation. -/
structure FairShare (total bps : Int) (share : ShareSpec) (a : ShareAllocation) : Prop where
  partyId : a.partyId = share.partyId
  rounded : a.amountCents = total * share.shareBps / bps ∨ a.amountCents = total * share.shareBps / bps + 1
  within : |(a.amountCents : ℚ) - total * share.shareBps / bps| < 1

theorem roundedShare_fair (total : Int) (hs : ValidShares shares) {i : Nat} (h : i < shares.length) :
    FairShare total (totalBps shares) shares[i] (roundedShare total shares i shares[i]) := by
  have hpos := hs.totalBps_pos
  have hdiv := Int.mul_ediv_add_emod (total * shares[i].shareBps) (totalBps shares)
  have hlt := Int.emod_lt_of_pos (total * shares[i].shareBps) hpos
  have hnonneg := Int.emod_nonneg (total * shares[i].shareBps) hpos.ne'
  set amount := (roundedShare total shares i shares[i]).amountCents with hamount
  have hround : amount = total * shares[i].shareBps / totalBps shares ∨
      (amount = total * shares[i].shareBps / totalBps shares + 1 ∧ 0 < total * shares[i].shareBps % totalBps shares) := by
    rw [hamount, roundedShare]
    split_ifs with hi
    · exact .inr ⟨rfl, remainder_pos hs h hi⟩
    · exact .inl (add_zero _)
  -- in multiples of the total bps the error is less than one
  have herror : |totalBps shares * amount - total * shares[i].shareBps| < totalBps shares := by
    rw [abs_lt]
    rcases hround with heq | ⟨heq, hrem⟩ <;> rw [heq]
    · omega
    · rw [mul_add, mul_one]
      omega
  refine ⟨rfl, hround.imp id And.left, ?_⟩
  have hposq : (0 : ℚ) < totalBps shares := by exact_mod_cast hpos
  have hscale : (amount : ℚ) - total * shares[i].shareBps / totalBps shares =
      (totalBps shares * amount - total * shares[i].shareBps) / totalBps shares := by
    rw [sub_div, mul_div_cancel_left₀ _ hposq.ne']
  change |(amount : ℚ) - total * shares[i].shareBps / totalBps shares| < 1
  rw [hscale, abs_div, abs_of_pos hposq, div_lt_one hposq]
  exact_mod_cast herror

/-! ## The order of the list -/

/-- A part without its position. -/
def SharePart.unplaced (p : SharePart) : SharePart := { p with position := 0 }

theorem map_unplaced (total : Int) (shares : List ShareSpec) :
    (shares.mapIdx (sharePart total (totalBps shares))).map SharePart.unplaced =
      shares.map (sharePart total (totalBps shares) 0) :=
  List.ext_getElem (by simp) (by simp [sharePart, SharePart.unplaced])

theorem totalBps_perm {shares' : List ShareSpec} (h : shares'.Perm shares) : totalBps shares' = totalBps shares :=
  (h.map _).sum_eq

theorem leftOver_perm {shares' : List ShareSpec} (total : Int) (h : shares'.Perm shares) :
    leftOver total shares' = leftOver total shares := by
  rw [leftOver, leftOver, totalBps_perm h, (h.map _).sum_eq]

/-- With distinct parties the order of the remainders does not depend on the order of the list. -/
theorem sortedParts_perm {shares' : List ShareSpec} (total : Int) (hnodup : (shares.map (·.partyId)).Nodup)
    (h : shares'.Perm shares) :
    (sortedParts total shares').map SharePart.unplaced = (sortedParts total shares).map SharePart.unplaced := by
  have hsorted : ∀ l : List ShareSpec,
      ((sortedParts total l).map SharePart.unplaced).Pairwise SharePart.before := fun l =>
    List.pairwise_map.mpr (List.pairwise_insertionSort SharePart.before _)
  have hparts : ∀ l : List ShareSpec, ((sortedParts total l).map SharePart.unplaced).Perm
      (l.map (sharePart total (totalBps l) 0)) := fun l => by
    rw [← map_unplaced]
    exact (List.perm_insertionSort _ _).map _
  have hperm : (shares'.map (sharePart total (totalBps shares') 0)).Perm
      (shares.map (sharePart total (totalBps shares) 0)) := by
    rw [totalBps_perm h]
    exact h.map _
  refine List.Perm.eq_of_pairwise (fun a b ha hb hab hba => ?_) (hsorted shares') (hsorted shares)
    ((hparts shares').trans (hperm.trans (hparts shares).symm))
  -- parts that come before each other have the same party, and so are the part of one share
  have hid : a.partyId = b.partyId := by
    unfold SharePart.before at hab hba
    rcases hab with hab | ⟨hfrac, hab⟩
    · omega
    · exact le_antisymm hab (hba.resolve_left (by omega)).2
  obtain ⟨s, hs, rfl⟩ := List.mem_map.mp ((hparts shares').trans hperm |>.mem_iff.mp ha)
  obtain ⟨t, ht, rfl⟩ := List.mem_map.mp ((hparts shares).mem_iff.mp hb)
  rw [Data.eq_of_key hnodup hs ht hid]

/-- With distinct parties a share is rounded up when its party is among those of the parts that are. -/
theorem mem_roundedUp_iff (hnodup : (shares.map (·.partyId)).Nodup) {i : Nat} (h : i < shares.length) :
    i ∈ (roundedUp total shares).map (·.position) ↔ shares[i].partyId ∈ (roundedUp total shares).map (·.partyId) := by
  constructor
  · intro hi
    obtain ⟨p, hp, rfl⟩ := List.mem_map.mp hi
    obtain ⟨j, hj, rfl⟩ := mem_sortedParts.mp (List.mem_of_mem_take hp)
    exact List.mem_map.mpr ⟨_, hp, rfl⟩
  · intro hi
    obtain ⟨p, hp, hid⟩ := List.mem_map.mp hi
    obtain ⟨j, hj, rfl⟩ := mem_sortedParts.mp (List.mem_of_mem_take hp)
    have hji : (shares.map (·.partyId))[j]? = (shares.map (·.partyId))[i]? := by
      rw [List.getElem?_map, List.getElem?_map, List.getElem?_eq_getElem hj, List.getElem?_eq_getElem h]
      exact congrArg some hid
    rw [List.getElem?_inj (by rwa [List.length_map]) hnodup] at hji
    exact List.mem_map.mpr ⟨_, hp, hji⟩

/-- What the party of a share receives, whatever the position of the share. -/
def partyShare (total : Int) (shares : List ShareSpec) (share : ShareSpec) : ShareAllocation where
  partyId := share.partyId
  amountCents := total * share.shareBps / totalBps shares +
    if share.partyId ∈ (roundedUp total shares).map (·.partyId) then 1 else 0

theorem mapIdx_roundedShare (hnodup : (shares.map (·.partyId)).Nodup) :
    shares.mapIdx (roundedShare total shares) = shares.map (partyShare total shares) := by
  refine List.ext_getElem (by simp) fun i hi _ => ?_
  rw [List.length_mapIdx] at hi
  simp only [List.getElem_mapIdx, List.getElem_map, roundedShare, partyShare, mem_roundedUp_iff hnodup hi]

theorem partyShare_perm {shares' : List ShareSpec} (hnodup : (shares.map (·.partyId)).Nodup)
    (h : shares'.Perm shares) : partyShare total shares' = partyShare total shares := by
  have hparties : (roundedUp total shares').map (·.partyId) = (roundedUp total shares).map (·.partyId) := by
    have hsorted := congrArg (List.map (·.partyId)) (sortedParts_perm total hnodup h)
    rw [List.map_map, List.map_map] at hsorted
    rw [roundedUp, roundedUp, List.map_take, List.map_take, leftOver_perm total h]
    exact congrArg _ hsorted
  unfold partyShare
  rw [hparties, totalBps_perm h]

end Shares

/-! ## The split of a source -/

section Split

variable {source : Int} {shares : List ShareSpec}

theorem ValidShares.perm {shares' : List ShareSpec} (hs : ValidShares shares) (h : shares'.Perm shares) :
    ValidShares shares' where
  ne_nil := fun hnil => hs.ne_nil (List.nil_perm.mp (hnil ▸ h))
  bounds := fun s hmem => hs.bounds s (h.mem_iff.mp hmem)
  total := totalBps_perm h ▸ hs.total

/-- The centimes of the beneficiaries. -/
def beneficiaryCents (source : Int) (shares : List ShareSpec) : Int := roundDiv (source * totalBps shares) 10000

theorem split_eq (hs : ValidShares shares) (hsource : 0 ≤ source) :
    split source shares = .ok
      { shares := shares.mapIdx (roundedShare (beneficiaryCents source shares) shares),
        platformCents := source - beneficiaryCents source shares } := by
  have hnonneg : 0 ≤ beneficiaryCents source shares :=
    roundDiv_nonneg (Int.mul_nonneg hsource hs.totalBps_pos.le) (by decide)
  have hrun := computeShares_eq hs hnonneg
  have hsum := (computeShares_spec hrun).1
  simp only [split, validateShares_eq_ok.mpr hs, if_neg (not_lt.mpr hsource), bind, Except.bind]
  simp only [beneficiaryCents] at hrun hsum ⊢
  rw [hrun]
  simp only [platformShareCents, hsum]

theorem shareBps_le_totalBps (hs : ValidShares shares) {share : ShareSpec} (h : share ∈ shares) :
    share.shareBps ≤ totalBps shares := by
  refine List.single_le_sum (fun x hx => ?_) _ (List.mem_map_of_mem h)
  obtain ⟨s, hmem, rfl⟩ := List.mem_map.mp hx
  exact (hs.bounds s hmem).1.le

theorem beneficiaryCents_within (source : Int) (shares : List ShareSpec) :
    |(beneficiaryCents source shares : ℚ) - source * totalBps shares / 10000| ≤ 1 / 2 := by
  set n := source * totalBps shares with hn
  have hdiv := Int.mul_ediv_add_emod (2 * n + 10000) 20000
  have hlt := Int.emod_lt_of_pos (2 * n + 10000) (show (0 : Int) < 20000 by decide)
  have hnonneg := Int.emod_nonneg (2 * n + 10000) (show (20000 : Int) ≠ 0 by decide)
  have hvalue : beneficiaryCents source shares = (2 * n + 10000) / 20000 := rfl
  have herror : |20000 * beneficiaryCents source shares - 2 * n| ≤ 10000 := by
    rw [abs_le, hvalue]
    omega
  have hq : |(20000 : ℚ) * beneficiaryCents source shares - 2 * n| ≤ 10000 := by exact_mod_cast herror
  have hcast : (n : ℚ) = source * totalBps shares := by rw [hn]; push_cast; ring
  rw [← hcast]
  rw [abs_le] at hq ⊢
  constructor <;> linarith [hq.1, hq.2]

/-- A fair share of the beneficiaries' centimes is near its part of the source. -/
theorem FairShare.near_source (hs : ValidShares shares) {share : ShareSpec} (hmem : share ∈ shares) {a : ShareAllocation}
    (h : FairShare (beneficiaryCents source shares) (totalBps shares) share a) :
    |(a.amountCents : ℚ) - source * share.shareBps / 10000| < 3 / 2 := by
  have hpos : (0 : ℚ) < totalBps shares := by exact_mod_cast hs.totalBps_pos
  have hbps : (0 : ℚ) ≤ share.shareBps := by exact_mod_cast (hs.bounds share hmem).1.le
  have hpart : (share.shareBps : ℚ) / totalBps shares ≤ 1 := by
    rw [div_le_one hpos]
    exact_mod_cast shareBps_le_totalBps hs hmem
  have hmove : (beneficiaryCents source shares : ℚ) * share.shareBps / totalBps shares - source * share.shareBps / 10000 =
      (beneficiaryCents source shares - source * totalBps shares / 10000) * (share.shareBps / totalBps shares) := by
    field_simp
  have hhalf : |(beneficiaryCents source shares : ℚ) * share.shareBps / totalBps shares -
      source * share.shareBps / 10000| ≤ 1 / 2 := by
    rw [hmove, abs_mul, abs_of_nonneg (div_nonneg hbps hpos.le)]
    calc _ ≤ (1 / 2 : ℚ) * 1 :=
          mul_le_mul (beneficiaryCents_within source shares) hpart (div_nonneg hbps hpos.le) (by norm_num)
      _ = 1 / 2 := mul_one _
  have hwithin := h.within
  calc |(a.amountCents : ℚ) - source * share.shareBps / 10000|
      ≤ |(a.amountCents : ℚ) - beneficiaryCents source shares * share.shareBps / totalBps shares| +
        |(beneficiaryCents source shares : ℚ) * share.shareBps / totalBps shares - source * share.shareBps / 10000| :=
        abs_sub_le _ _ _
    _ < 3 / 2 := by linarith

end Split

/-- Main theorem: the split of a non-negative source among valid shares divides it exactly, every share is its part of
what the beneficiaries receive, rounded down or up, and with distinct parties the order of the shares changes nothing. -/
theorem split_exact (source : Int) (shares : List ShareSpec) (hsource : 0 ≤ source)
    (hshares : validateShares shares = .ok ()) :
    ∃ r, split source shares = .ok r ∧
      ((∀ a ∈ r.shares, 0 ≤ a.amountCents) ∧ 0 ≤ r.platformCents ∧
        (r.shares.map (·.amountCents)).sum + r.platformCents = source) ∧
      List.Forall₂ (fun share a => FairShare (r.shares.map (·.amountCents)).sum (totalBps shares) share a ∧
        |(a.amountCents : ℚ) - source * share.shareBps / 10000| < 3 / 2) shares r.shares ∧
      ((shares.map (·.partyId)).Nodup → ∀ shares' : List ShareSpec, shares'.Perm shares →
        ∃ r', split source shares' = .ok r' ∧ r'.shares.Perm r.shares ∧ r'.platformCents = r.platformCents) := by
  have hs := validateShares_eq_ok.mp hshares
  have hrun := split_eq hs hsource
  obtain ⟨hsum, hnonneg, hplatform, -, -⟩ := split_spec hrun
  refine ⟨_, hrun, ⟨hnonneg, hplatform, hsum⟩, ?_, fun hnodup shares' h => ?_⟩
  · have htotal : ((shares.mapIdx (roundedShare (beneficiaryCents source shares) shares)).map (·.amountCents)).sum =
        beneficiaryCents source shares := by
      dsimp only at hsum
      omega
    rw [htotal, List.forall₂_iff_get]
    refine ⟨by simp, fun i hi _ => ?_⟩
    have hfair := roundedShare_fair (beneficiaryCents source shares) hs hi
    simp only [List.get_eq_getElem, List.getElem_mapIdx]
    exact ⟨hfair, hfair.near_source hs (List.getElem_mem hi)⟩
  · have hnodup' : (shares'.map (·.partyId)).Nodup := (h.map _).nodup_iff.mpr hnodup
    have hcents : beneficiaryCents source shares' = beneficiaryCents source shares := by
      rw [beneficiaryCents, beneficiaryCents, totalBps_perm h]
    refine ⟨_, split_eq (hs.perm h) hsource, ?_, by rw [hcents]⟩
    rw [mapIdx_roundedShare hnodup, mapIdx_roundedShare hnodup', hcents, partyShare_perm hnodup h]
    exact h.map _

/-- Of 1.01 the parties have 50% and 45%: 0.96 to them, of which the larger remainder is rounded up. -/
theorem split_exact_two :
    ∃ r, split 101 [⟨1, 5000⟩, ⟨2, 4500⟩] = .ok r ∧ r = ⟨[⟨1, 51⟩, ⟨2, 45⟩], 5⟩ := by
  obtain ⟨r, hrun, -⟩ := split_exact 101 [⟨1, 5000⟩, ⟨2, 4500⟩] (by decide) (by decide)
  exact ⟨r, hrun, (Except.ok.inj ((show split 101 [⟨1, 5000⟩, ⟨2, 4500⟩] = .ok ⟨[⟨1, 51⟩, ⟨2, 45⟩], 5⟩ by
    decide).symm.trans hrun)).symm⟩

end CorpoPay.Settlement
