import DOpenWrt.Lanspeedd.RateWindowScale

/-!
# The budget of the LAN

`reconcile_rate_direction` scales a direction down to a budget, `fill_fallback_direction` fills what is left of it. Both
are given by `scaledBps`, and each leaves the other direction alone.
-/

namespace Lanspeedd.RateWindow

open Std TreeTotal

/-- A part of a whole, scaled so that the whole fits the budget. -/
def scaledBps (whole budget bps : ℕ) : ℕ := if whole ≤ budget then bps else bps * budget / whole

section
variable {whole budget bps bps' : ℕ}

theorem scaledBps_le : scaledBps whole budget bps ≤ bps := by
  rw [scaledBps]
  split
  · exact Nat.le_refl _
  · next h => exact Nat.div_le_of_le_mul (Nat.mul_comm whole bps ▸ Nat.mul_le_mul_left bps (Nat.le_of_not_le h))

theorem scaledBps_mono (h : bps ≤ bps') : scaledBps whole budget bps ≤ scaledBps whole budget bps' := by
  rw [scaledBps, scaledBps]
  split
  · exact h
  · exact Nat.div_le_div_right (Nat.mul_le_mul_right budget h)

/-- The scaled parts fit the budget together. -/
theorem total_scaledBps_le {κ ν ν' : Type} [Ord κ] [TransOrd κ] [LawfulEqOrd κ] {weight : ν → ℕ} {weight' : ν' → ℕ}
    {m : TreeMap κ ν} {m' : TreeMap κ ν'}
    (h : ∀ key, weightAt weight m key = scaledBps (total weight' m') budget (weightAt weight' m' key)) :
    total weight m ≤ budget := by
  by_cases hfits : total weight' m' ≤ budget
  · refine Nat.le_trans (total_le_of_weightAt_le fun key => ?_) hfits
    exact (h key).le.trans scaledBps_le
  · refine total_le_of_shares (Nat.le_refl (total weight' m')) fun key => ?_
    rw [h key, scaledBps, if_neg hfits]

end

/-! ### Reconciling -/

section
variable {receive : Bool} {clients fallback : RateMap} {lanBps : UInt64} {key : String}

theorem bpsAt_reconcile (htotal : clientTotal receive clients ≤ u128Max) :
    bpsAt receive (reconcileRateDirection clients lanBps receive).1 key =
      scaledBps (clientTotal receive clients) lanBps.toNat (bpsAt receive clients key) := by
  have hdirection : directionTotal receive clients = clientTotal receive clients := by
    rw [directionTotal_eq_min, Nat.min_eq_left htotal]
  rw [reconcileRateDirection, hdirection, scaledBps]
  split
  · rfl
  · rw [bpsAt_map]
    cases hget : clients[key]? with
    | none => rw [bpsAt_of_none hget, Nat.zero_mul, Nat.zero_div]; rfl
    | some value =>
      have hle : bpsAt receive clients key ≤ clientTotal receive clients := bpsAt_le_total
      rw [bpsAt_of_some hget] at hle ⊢
      exact share_toNat (toNat_lt _) hle (toNat_lt _) lanBps

theorem bpsAt_not_reconcile :
    bpsAt (!receive) (reconcileRateDirection clients lanBps receive).1 key = bpsAt (!receive) clients key := by
  rw [reconcileRateDirection]
  split
  · rfl
  · exact bpsAt_not_map _

theorem clientTotal_reconcile_le (htotal : clientTotal receive clients ≤ u128Max) :
    clientTotal receive (reconcileRateDirection clients lanBps receive).1 ≤ lanBps.toNat :=
  total_scaledBps_le fun _ => bpsAt_reconcile htotal

/-! ### Filling the gap -/

/-- The fallback rates of the clients without a rate. -/
def gapRates (receive : Bool) (clients fallback : RateMap) : TreeMap String UInt64 :=
  fallback.filterMap fun key value =>
    if ((clients[key]?).map fun current => current.direction receive).getD 0 = 0 ∧ value.direction receive ≠ 0 then
      some (value.direction receive) else none

def gapAt (receive : Bool) (clients fallback : RateMap) (key : String) : ℕ :=
  if bpsAt receive clients key = 0 then bpsAt receive fallback key else 0

theorem candidates_eq : fallback.toList.filterMap (fallbackCandidate clients receive) =
    (gapRates receive clients fallback).toList := by
  rw [gapRates, TreeMap.toList_filterMap]
  refine List.filterMap_congr fun entry _ => ?_
  rw [fallbackCandidate]
  split <;> rfl

theorem current_eq_zero : ((clients[key]?).map fun current => current.direction receive).getD 0 = 0 ↔
    bpsAt receive clients key = 0 := by
  cases hget : clients[key]? with
  | none => exact iff_of_true rfl (bpsAt_of_none hget)
  | some value =>
    rw [bpsAt_of_some hget, Option.map_some, Option.getD_some]
    exact UInt64.toNat_inj.symm

theorem weightAt_gapRates : weightAt UInt64.toNat (gapRates receive clients fallback) key =
    gapAt receive clients fallback key := by
  rw [weightAt, gapRates, TreeMap.getElem?_filterMap', gapAt]
  cases hget : fallback[key]? with
  | none => rw [bpsAt_of_none hget, ite_self]; rfl
  | some value =>
    rw [bpsAt_of_some hget, Option.bind_some]
    by_cases hcurrent : bpsAt receive clients key = 0
    · by_cases hvalue : value.direction receive = 0
      · rw [if_neg fun h => h.2 hvalue, if_pos hcurrent, hvalue]; rfl
      · rw [if_pos ⟨current_eq_zero.2 hcurrent, hvalue⟩, if_pos hcurrent]; rfl
    · rw [if_neg fun h => hcurrent (current_eq_zero.1 h.1), if_neg hcurrent]; rfl

def gapTotal (receive : Bool) (clients fallback : RateMap) : ℕ :=
  total UInt64.toNat (gapRates receive clients fallback)

theorem gapAt_le_total : gapAt receive clients fallback key ≤ gapTotal receive clients fallback := by
  rw [← weightAt_gapRates]
  exact weightAt_le_total key

theorem gapTotal_le (hsize : fallback.size ≤ u64Limit) : gapTotal receive clients fallback ≤ u128Max := by
  have hkey (key : String) : weightAt UInt64.toNat (gapRates receive clients fallback) key ≤
      bpsAt receive fallback key := ?_
  · exact Nat.le_trans (total_le_of_weightAt_le hkey) (clientTotal_lt hsize)
  rw [weightAt_gapRates, gapAt]
  split
  · exact Nat.le_refl _
  · exact Nat.zero_le _

theorem fill_total_eq (hsize : fallback.size ≤ u64Limit) :
    (gapRates receive clients fallback).toList.foldl (fun sum entry => saturatingAdd128 sum entry.2.toNat) 0 =
      gapTotal receive clients fallback := by
  have := foldl_saturating UInt64.toNat (gapRates receive clients fallback) u128Max
  rw [TreeMap.foldl_eq_foldl_toList] at this
  exact this.trans (Nat.min_eq_left (gapTotal_le hsize))

/-- What one candidate is given. -/
def fillOf (limited : Bool) (budget whole : ℕ) (lanBps fallbackBps : UInt64) : UInt64 :=
  tryFromOr (if limited then saturatingMul128 fallbackBps.toNat budget / whole else fallbackBps.toNat) lanBps

theorem fillOf_toNat {budget whole : ℕ} {bps : UInt64} (hbudget : budget < u64Limit) (hle : bps.toNat ≤ whole) :
    (fillOf (decide (budget < whole)) budget whole lanBps bps).toNat = scaledBps whole budget bps.toNat := by
  rw [fillOf, scaledBps]
  by_cases hlimited : budget < whole
  · rw [if_pos (decide_eq_true hlimited), if_neg (Nat.not_le_of_lt hlimited)]
    exact share_toNat (toNat_lt _) hle hbudget lanBps
  · rw [if_neg fun h => hlimited (of_decide_eq_true h), if_pos (Nat.le_of_not_lt hlimited)]
    exact tryFromOr_toNat (toNat_lt _) lanBps

theorem fill_eq (hsize : fallback.size ≤ u64Limit) (htotal : clientTotal receive clients ≤ u128Max) :
    (fillFallbackDirection clients fallback lanBps receive).1 =
      if gapTotal receive clients fallback = 0 then clients
      else (gapRates receive clients fallback).toList.foldl (assignTo receive
        (fillOf (decide (lanBps.toNat - clientTotal receive clients < gapTotal receive clients fallback))
          (lanBps.toNat - clientTotal receive clients) (gapTotal receive clients fallback) lanBps)) clients := by
  have hdirection : directionTotal receive clients = clientTotal receive clients := by
    rw [directionTotal_eq_min, Nat.min_eq_left htotal]
  rw [fillFallbackDirection, hdirection, candidates_eq, fill_total_eq hsize]
  dsimp only
  split
  · rfl
  · exact congrArg Prod.fst (foldl_assignRate receive (fillOf _ _ _ lanBps) _ (clients, false))

theorem bpsAt_not_fill (hsize : fallback.size ≤ u64Limit) (htotal : clientTotal receive clients ≤ u128Max) :
    bpsAt (!receive) (fillFallbackDirection clients fallback lanBps receive).1 key = bpsAt (!receive) clients key := by
  rw [fill_eq hsize htotal]
  split
  · rfl
  · exact bpsAt_not_foldl _ _

/-- A client without a rate gets its part of what is left of the budget; the others keep theirs. -/
theorem bpsAt_fill (hsize : fallback.size ≤ u64Limit) (htotal : clientTotal receive clients ≤ u128Max) :
    bpsAt receive (fillFallbackDirection clients fallback lanBps receive).1 key = bpsAt receive clients key +
      scaledBps (gapTotal receive clients fallback) (lanBps.toNat - clientTotal receive clients)
        (gapAt receive clients fallback key) := by
  have hscaled_zero (whole budget : ℕ) : scaledBps whole budget 0 = 0 := Nat.le_zero.1 scaledBps_le
  rw [fill_eq hsize htotal]
  by_cases hgap : gapTotal receive clients fallback = 0
  · have hzero : gapAt receive clients fallback key = 0 := Nat.le_zero.1 (hgap ▸ gapAt_le_total)
    rw [if_pos hgap, hzero, hscaled_zero, Nat.add_zero]
  rw [if_neg hgap]
  have hbudget : lanBps.toNat - clientTotal receive clients < u64Limit :=
    (Nat.sub_le ..).trans_lt (toNat_lt lanBps)
  have hweight := @weightAt_gapRates receive clients fallback key
  cases hget : (gapRates receive clients fallback)[key]? with
  | none =>
    have hnot : key ∉ (gapRates receive clients fallback).toList.map Prod.fst := fun hmem => by
      obtain ⟨entry, hentry, rfl⟩ := List.mem_map.1 hmem
      exact absurd (hget.symm.trans (TreeMap.mem_toList_iff_getElem?_eq_some.1 hentry)) (Option.some_ne_none _).symm
    rw [weightAt_of_none hget] at hweight
    rw [bpsAt_foldl_of_not_mem hnot, ← hweight, hscaled_zero, Nat.add_zero]
  | some bps =>
    rw [weightAt_of_some hget] at hweight
    have hle : bps.toNat ≤ gapTotal receive clients fallback := hweight ▸ gapAt_le_total
    have hfill := @fillOf_toNat lanBps _ _ bps hbudget hle
    -- the candidate had no rate of its own
    have hcurrent : bpsAt receive clients key = 0 := by
      by_contra hne
      rw [gapRates, TreeMap.getElem?_filterMap'] at hget
      obtain ⟨value, -, hvalue⟩ := Option.bind_eq_some_iff.1 hget
      split at hvalue
      · next h => exact hne (current_eq_zero.1 h.1)
      · exact absurd hvalue.symm (Option.some_ne_none _)
    rw [bpsAt_foldl_of_mem (distinct_keys _) (TreeMap.mem_toList_iff_getElem?_eq_some.2 hget), hcurrent, Nat.zero_add,
      ← hweight, ← hfill]
    split
    · next h => rw [h]; rfl
    · rfl

theorem clientTotal_fill_le (hsize : fallback.size ≤ u64Limit) (hfits : clientTotal receive clients ≤ lanBps.toNat) :
    clientTotal receive (fillFallbackDirection clients fallback lanBps receive).1 ≤ lanBps.toNat := by
  have htotal : clientTotal receive clients ≤ u128Max :=
    hfits.trans ((toNat_lt lanBps).le.trans (by decide))
  let share (bps : UInt64) : ℕ :=
    scaledBps (gapTotal receive clients fallback) (lanBps.toNat - clientTotal receive clients) bps.toNat
  have hshare_zero : scaledBps (gapTotal receive clients fallback) (lanBps.toNat - clientTotal receive clients) 0 = 0 :=
    Nat.le_zero.1 scaledBps_le
  have hshare (key : String) : weightAt share (gapRates receive clients fallback) key =
      scaledBps (gapTotal receive clients fallback) (lanBps.toNat - clientTotal receive clients)
        (weightAt UInt64.toNat (gapRates receive clients fallback) key) := by
    cases hget : (gapRates receive clients fallback)[key]? with
    | none => rw [weightAt_of_none hget, weightAt_of_none hget, hshare_zero]
    | some bps => rw [weightAt_of_some hget, weightAt_of_some hget]
  have hgap : total share (gapRates receive clients fallback) ≤ lanBps.toNat - clientTotal receive clients :=
    total_scaledBps_le hshare
  have hsum : clientTotal receive (fillFallbackDirection clients fallback lanBps receive).1 ≤
      clientTotal receive clients + total share (gapRates receive clients fallback) := by
    refine total_le_add fun key => ?_
    rw [hshare, weightAt_gapRates]
    exact (bpsAt_fill hsize htotal).le
  omega

end

end Lanspeedd.RateWindow
