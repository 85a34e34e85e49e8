import CorpoPay.Settlement.Splits

/-!
# A split divides its source

The shares are non-negative, the platform remainder is non-negative, and together they are the source.
-/

namespace CorpoPay.Settlement

/-! ## Left-over centimes -/

theorem sum_modify_add_one {l : List Int} {i : Nat} (h : i < l.length) :
    (l.modify i (· + 1)).sum = l.sum + 1 := by
  induction l generalizing i with
  | nil => simp at h
  | cons a l ih =>
      cases i with
      | zero => simp; ring
      | succ i =>
          have := ih (by simpa using h)
          simp [this]; ring

theorem nonneg_modify_add_one {l : List Int} (h : ∀ x ∈ l, 0 ≤ x) (i : Nat) :
    ∀ x ∈ l.modify i (· + 1), 0 ≤ x := by
  induction l generalizing i with
  | nil => simp
  | cons a l ih =>
      have ha : 0 ≤ a := h a (by simp)
      have hl : ∀ x ∈ l, 0 ≤ x := fun x hx => h x (by simp [hx])
      cases i with
      | zero =>
          intro x hx
          simp only [List.modify_zero_cons, List.mem_cons] at hx
          rcases hx with rfl | hx
          · omega
          · exact hl x hx
      | succ i =>
          intro x hx
          simp only [List.modify_succ_cons, List.mem_cons] at hx
          rcases hx with rfl | hx
          · exact ha
          · exact ih hl i x hx

theorem giveRemaining_length (order : List Nat) (r i : Nat) (l : List Int) :
    (giveRemaining order r i l).length = l.length := by
  induction r generalizing i l with
  | zero => rfl
  | succ r ih => simp [giveRemaining, ih]

theorem giveRemaining_nonneg {order : List Nat} {r i : Nat} {l : List Int} (h : ∀ x ∈ l, 0 ≤ x) :
    ∀ x ∈ giveRemaining order r i l, 0 ≤ x := by
  induction r generalizing i l with
  | zero => exact h
  | succ r ih => exact ih (nonneg_modify_add_one h _)

theorem giveRemaining_sum {order : List Nat} {l : List Int} (hne : order ≠ []) (ho : ∀ j ∈ order, j < l.length)
    (r i : Nat) : (giveRemaining order r i l).sum = l.sum + r := by
  induction r generalizing i l with
  | zero => simp [giveRemaining]
  | succ r ih =>
      have hlt : i % order.length < order.length := Nat.mod_lt _ (List.length_pos_iff.mpr hne)
      have hj : order.getD (i % order.length) 0 < l.length := by
        rw [List.getD_eq_getElem?_getD, List.getElem?_eq_getElem hlt]
        exact ho _ (List.getElem_mem hlt)
      rw [giveRemaining, ih (by simpa using ho), sum_modify_add_one hj]
      push_cast; ring

/-! ## Shares -/

structure ValidShares (shares : List ShareSpec) : Prop where
  ne_nil : shares ≠ []
  bounds : ∀ s ∈ shares, 0 < s.shareBps ∧ s.shareBps ≤ 10000
  total : totalBps shares ≤ 10000

theorem validateShares_eq_ok {shares : List ShareSpec} : validateShares shares = .ok () ↔ ValidShares shares := by
  unfold validateShares
  cases hf : shares.find? fun s => s.shareBps ≤ 0 ∨ 10000 < s.shareBps with
  | some s =>
      have hs := List.find?_some hf
      have hm := List.mem_of_find?_eq_some hf
      simp only [decide_eq_true_eq] at hs
      simp only [reduceCtorEq, false_iff]
      intro h
      have := h.bounds s hm
      omega
  | none =>
      have hb : ∀ s ∈ shares, 0 < s.shareBps ∧ s.shareBps ≤ 10000 := by
        intro s hs
        have := List.find?_eq_none.mp hf s hs
        simp only [decide_eq_true_eq] at this
        omega
      dsimp only
      split_ifs with h₁ h₂
      · simp only [false_iff]; exact fun h => h.ne_nil h₁
      · simp only [false_iff]; exact fun h => absurd h.total (not_le.mpr h₂)
      · simp only [true_iff]; exact ⟨h₁, hb, not_lt.mp h₂⟩

theorem ValidShares.totalBps_pos {shares : List ShareSpec} (h : ValidShares shares) : 0 < totalBps shares := by
  have hne : shares.map (·.shareBps) ≠ [] := by simpa using h.ne_nil
  exact List.sum_pos _ (by simpa using fun s hs => (h.bounds s hs).1) hne

/-- The sum of the floors is at most the total, because the sum of the exact shares is the total. -/
theorem sum_floor_le {total : Int} {bps : Int} (hbps : 0 < bps) (shares : List ShareSpec) :
    (shares.map fun s => total * s.shareBps / bps).sum * bps ≤ total * totalBps shares := by
  induction shares with
  | nil => simp [totalBps]
  | cons s l ih =>
      have h := Int.ediv_mul_le (total * s.shareBps) hbps.ne'
      simp only [totalBps, List.map_cons, List.sum_cons] at ih ⊢
      have : total * s.shareBps / bps * bps + (l.map fun s => total * s.shareBps / bps).sum * bps
          ≤ total * s.shareBps + total * (l.map (·.shareBps)).sum := by omega
      linarith

theorem map_floor_mapIdx (total bps : Int) (shares : List ShareSpec) :
    (shares.mapIdx (sharePart total bps)).map (·.floor) = shares.map fun s => total * s.shareBps / bps := by
  exact List.ext_getElem (by simp) (by simp [sharePart])

/-- What `computeShares` returns. -/
theorem computeShares_spec {total : Int} {shares : List ShareSpec} {as : List ShareAllocation}
    (h : computeShares total shares = .ok as) :
    (as.map (·.amountCents)).sum = total ∧ (∀ a ∈ as, 0 ≤ a.amountCents) ∧
      as.map (·.partyId) = shares.map (·.partyId) := by
  unfold computeShares at h
  split_ifs at h with hneg
  rcases hv : validateShares shares with e | u
  · rw [hv] at h; cases h
  · rw [hv] at h
    have hs := validateShares_eq_ok.mp hv
    have hpos := hs.totalBps_pos
    simp only [bind, Except.bind, Except.ok.injEq] at h
    rw [map_floor_mapIdx] at h
    set floors := shares.map fun s => total * s.shareBps / totalBps shares with hfl
    set parts := shares.mapIdx (sharePart total (totalBps shares)) with hparts
    set order := (parts.insertionSort SharePart.before).map (·.position) with horder
    set r := (total - floors.sum).toNat with hr
    have hlen : (giveRemaining order r 0 floors).length = shares.length := by
      rw [giveRemaining_length, hfl, List.length_map]
    have hmem : ∀ j ∈ order, j < floors.length := by
      intro j hj
      obtain ⟨p, hp, rfl⟩ := List.mem_map.mp hj
      have hp' : p ∈ parts := (List.perm_insertionSort _ parts).mem_iff.mp hp
      obtain ⟨i, hi, rfl⟩ := List.mem_mapIdx.mp hp'
      simpa [sharePart, hfl] using hi
    have hne : order ≠ [] := by
      intro h0
      have := (List.perm_insertionSort SharePart.before parts).length_eq
      rw [← List.length_map (f := (·.position)), ← horder, h0, hparts] at this
      simp at this
      exact hs.ne_nil (List.length_eq_zero_iff.mp this.symm)
    have hle : floors.sum ≤ total := by
      have := @sum_floor_le total _ hpos shares
      exact le_of_mul_le_mul_right this hpos
    have hamounts : as.map (·.amountCents) = giveRemaining order r 0 floors := by
      rw [← h, List.map_zipWith]
      exact List.ext_getElem (by simp [hlen]) (by simp)
    refine ⟨?_, ?_, ?_⟩
    · rw [hamounts, giveRemaining_sum hne hmem, hr, Int.toNat_of_nonneg (sub_nonneg.mpr hle)]
      ring
    · intro a ha
      have : a.amountCents ∈ giveRemaining order r 0 floors := hamounts ▸ List.mem_map_of_mem ha
      refine giveRemaining_nonneg ?_ _ this
      intro x hx
      obtain ⟨s, hs', rfl⟩ := List.mem_map.mp hx
      exact Int.ediv_nonneg (Int.mul_nonneg (not_lt.mp hneg) (hs.bounds s hs').1.le) hpos.le
    · rw [← h, List.map_zipWith]
      exact List.ext_getElem (by simp [hlen]) (by simp)

/-- What `split` returns: `Σ shares + platform = source`, all of them non-negative. -/
theorem split_spec {source : Int} {shares : List ShareSpec} {r : SplitResult}
    (h : split source shares = .ok r) :
    (r.shares.map (·.amountCents)).sum + r.platformCents = source ∧ (∀ a ∈ r.shares, 0 ≤ a.amountCents) ∧
      0 ≤ r.platformCents ∧ r.shares.map (·.partyId) = shares.map (·.partyId) ∧ ValidShares shares := by
  unfold split at h
  split_ifs at h with hneg
  rcases hv : validateShares shares with e | u
  · rw [hv] at h; cases h
  · have hs := validateShares_eq_ok.mp hv
    rw [hv] at h
    rcases hc : computeShares (roundDiv (source * totalBps shares) 10000) shares with e | as
    · simp only [bind, Except.bind, hc] at h; cases h
    · simp only [bind, Except.bind, hc, Except.ok.injEq] at h
      obtain ⟨hsum, hnn, hids⟩ := computeShares_spec hc
      have hle : roundDiv (source * totalBps shares) 10000 ≤ source :=
        roundDiv_mul_le (not_lt.mp hneg) hs.total (by decide)
      subst h
      simp only [platformShareCents, hsum]
      exact ⟨by ring, hnn, sub_nonneg.mpr hle, hids, hs⟩

end CorpoPay.Settlement
