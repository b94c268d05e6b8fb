import DOpenWrt.Lanspeedd.RateWindowPublish

/-!
# High rates stay in the budget

The steps of the two high rate windows after the reconcile of the LAN, per interface, only lower rates. Before it the map
grows by the fallback rates and by the previous distribution.
-/

namespace Lanspeedd.RateWindow

open Std TreeTotal

/-! ### One interface -/

section
variable {receive : Bool} {clients : RateMap} {identityKeys : List String} {interfaceBps : UInt64} {key : String}

/-- The rates of the listed clients together. -/
def subsetTotal (receive : Bool) (clients : RateMap) (identityKeys : List String) : ℕ :=
  (identityKeys.map (bpsAt receive clients)).sum

/-- The total as `reconcile_high_rate_subset` computes it. -/
def subsetTotal128 (receive : Bool) (clients : RateMap) (identityKeys : List String) : ℕ :=
  identityKeys.foldl (fun sum key => saturatingAdd128 sum ((clients.getD key {}).direction receive).toNat) 0

theorem subsetTotal128_eq_min :
    subsetTotal128 receive clients identityKeys = min (subsetTotal receive clients identityKeys) u128Max := by
  have hlist (l : List String) (sum : ℕ) :
      l.foldl (fun sum key => saturatingAdd128 sum ((clients.getD key {}).direction receive).toNat) (min sum u128Max) =
        min (sum + (l.map (bpsAt receive clients)).sum) u128Max := by
    induction l generalizing sum with
    | nil => rfl
    | cons key l ih =>
      have hstep : saturatingAdd128 (min sum u128Max) ((clients.getD key {}).direction receive).toNat =
          min (sum + bpsAt receive clients key) u128Max := by
        rw [saturatingAdd128, bpsAt_eq_getD]; omega
      rw [List.foldl_cons, hstep, ih, List.map_cons, List.sum_cons, Nat.add_assoc]
  have := hlist identityKeys 0
  rwa [Nat.zero_min, Nat.zero_add] at this

theorem bpsAt_le_subsetTotal128 (h : key ∈ identityKeys) :
    bpsAt receive clients key ≤ subsetTotal128 receive clients identityKeys := by
  have hle : bpsAt receive clients key ≤ subsetTotal receive clients identityKeys :=
    List.le_sum_of_mem (List.mem_map_of_mem h)
  have hlt := bpsAt_lt receive clients key
  have hlimit : u64Limit ≤ u128Max := by decide
  rw [subsetTotal128_eq_min]
  exact Nat.le_min.2 ⟨hle, by omega⟩

/-- The scaling of one listed client. -/
def scaleAt (receive : Bool) (budget total : ℕ) (interfaceBps : UInt64) (clients : RateMap) (key : String) : RateMap :=
  clients.modify key fun value => value.setDirection receive
    (tryFromOr (saturatingMul128 (value.direction receive).toNat budget / total) interfaceBps)

theorem bpsAt_scaleAt {total : ℕ} (hle : bpsAt receive clients key ≤ total) (key' : String) :
    bpsAt receive (scaleAt receive interfaceBps.toNat total interfaceBps clients key) key' =
      if key = key' then bpsAt receive clients key * interfaceBps.toNat / total else bpsAt receive clients key' := by
  rw [bpsAt, weightAt, scaleAt, TreeMap.getElem?_modify]
  by_cases hkey : key = key'
  · subst hkey
    rw [if_pos compare_self, if_pos rfl]
    cases hget : clients[key]? with
    | none => rw [bpsAt_of_none hget, Nat.zero_mul, Nat.zero_div]; rfl
    | some value =>
      rw [bpsAt_of_some hget] at hle ⊢
      exact (congrArg UInt64.toNat (value.direction_setDirection receive _)).trans
        (share_toNat (toNat_lt _) hle (toNat_lt _) interfaceBps)
  · rw [if_neg fun h => hkey (Std.compare_eq_iff_eq.1 h), if_neg hkey]; rfl

theorem bpsAt_not_scaleAt (budget total : ℕ) (key' : String) :
    bpsAt (!receive) (scaleAt receive budget total interfaceBps clients key) key' = bpsAt (!receive) clients key' := by
  rw [bpsAt, weightAt, scaleAt, TreeMap.getElem?_modify]
  by_cases hkey : key = key'
  · subst hkey
    rw [if_pos compare_self]
    cases hget : clients[key]? with
    | none => rw [bpsAt_of_none hget]; rfl
    | some value =>
      rw [bpsAt_of_some hget]
      exact congrArg UInt64.toNat (value.direction_not_setDirection receive _)
  · rw [if_neg fun h => hkey (Std.compare_eq_iff_eq.1 h)]; rfl

/-- A client is scaled once for each time it is listed. -/
theorem bpsAt_foldl_scaleAt {total : ℕ} (hbudget : interfaceBps.toNat ≤ total)
    (h : ∀ key ∈ identityKeys, bpsAt receive clients key ≤ total) (key : String) :
    bpsAt receive (identityKeys.foldl (scaleAt receive interfaceBps.toNat total interfaceBps) clients) key =
      (fun bps => bps * interfaceBps.toNat / total)^[identityKeys.count key] (bpsAt receive clients key) := by
  induction identityKeys generalizing clients with
  | nil => rfl
  | cons listed l ih =>
    have hlisted := h listed List.mem_cons_self
    have hscaled : bpsAt receive clients listed * interfaceBps.toNat / total ≤ bpsAt receive clients listed :=
      Nat.div_le_of_le_mul (Nat.mul_comm total _ ▸ Nat.mul_le_mul_left _ hbudget)
    have hrest (other : String) (hmem : other ∈ l) :
        bpsAt receive (scaleAt receive interfaceBps.toNat total interfaceBps clients listed) other ≤ total := by
      rw [bpsAt_scaleAt hlisted]
      split
      · exact hscaled.trans hlisted
      · exact h other (List.mem_cons_of_mem _ hmem)
    rw [List.foldl_cons, ih hrest, bpsAt_scaleAt hlisted, List.count_cons]
    by_cases hkey : listed = key
    · subst hkey
      rw [if_pos rfl, if_pos (beq_self_eq_true listed)]; rfl
    · rw [if_neg hkey, if_neg fun heq => hkey (eq_of_beq heq), Nat.add_zero]

theorem bpsAt_not_foldl_scaleAt (budget total : ℕ) (key : String) :
    bpsAt (!receive) (identityKeys.foldl (scaleAt receive budget total interfaceBps) clients) key =
      bpsAt (!receive) clients key := by
  induction identityKeys generalizing clients with
  | nil => rfl
  | cons listed l ih => rw [List.foldl_cons, ih, bpsAt_not_scaleAt]

/-- The guard of `reconcile_high_rate_subset`. -/
def SubsetBudgetValid (interfaceBps : UInt64) (total : ℕ) : Prop :=
  ecmBpfEventHighRateBps ≤ interfaceBps ∧ interfaceBps.toNat < total ∧
    saturatingMul128 total 2 ≤ saturatingMul128 interfaceBps.toNat 5

theorem reconcileSubset_cases (receive : Bool) (clients : RateMap) (identityKeys : List String)
    (interfaceBps : UInt64) :
    (¬SubsetBudgetValid interfaceBps (subsetTotal128 receive clients identityKeys) ∧
      (reconcileHighRateSubset clients identityKeys interfaceBps receive).1 = clients) ∨
    SubsetBudgetValid interfaceBps (subsetTotal128 receive clients identityKeys) ∧
      (reconcileHighRateSubset clients identityKeys interfaceBps receive).1 = identityKeys.foldl
        (scaleAt receive interfaceBps.toNat (subsetTotal128 receive clients identityKeys) interfaceBps) clients := by
  by_cases h : SubsetBudgetValid interfaceBps (subsetTotal128 receive clients identityKeys)
  · refine .inr ⟨h, ?_⟩
    rw [reconcileHighRateSubset]
    exact congrArg Prod.fst (if_pos h)
  · refine .inl ⟨h, ?_⟩
    rw [reconcileHighRateSubset]
    exact congrArg Prod.fst (if_neg h)

theorem bpsAt_not_reconcileSubset :
    bpsAt (!receive) (reconcileHighRateSubset clients identityKeys interfaceBps receive).1 key =
      bpsAt (!receive) clients key := by
  rcases reconcileSubset_cases receive clients identityKeys interfaceBps with ⟨-, heq⟩ | ⟨-, heq⟩
  · rw [heq]
  · rw [heq, bpsAt_not_foldl_scaleAt]

theorem iterate_scale_le {budget total : ℕ} (h : budget ≤ total) (n bps : ℕ) :
    (fun bps => bps * budget / total)^[n] bps ≤ bps := by
  induction n generalizing bps with
  | zero => exact Nat.le_refl _
  | succ n ih =>
    exact (ih _).trans (Nat.div_le_of_le_mul (Nat.mul_comm total bps ▸ Nat.mul_le_mul_left bps h))

theorem iterate_scale_mono (budget total : ℕ) (n : ℕ) {bps bps' : ℕ} (h : bps ≤ bps') :
    (fun bps => bps * budget / total)^[n] bps ≤ (fun bps => bps * budget / total)^[n] bps' := by
  induction n generalizing bps bps' with
  | zero => exact h
  | succ n ih => exact ih (Nat.div_le_div_right (Nat.mul_le_mul_right budget h))

theorem bpsAt_reconcileSubset_le :
    bpsAt receive (reconcileHighRateSubset clients identityKeys interfaceBps receive).1 key ≤
      bpsAt receive clients key := by
  rcases reconcileSubset_cases receive clients identityKeys interfaceBps with ⟨-, heq⟩ | ⟨hvalid, heq⟩
  · rw [heq]
  · rw [heq, bpsAt_foldl_scaleAt hvalid.2.1.le fun _ => bpsAt_le_subsetTotal128]
    exact iterate_scale_le hvalid.2.1.le _ _

/-- The order of two clients that are listed equally often is kept. -/
theorem bpsAt_reconcileSubset_mono {key' : String} (hcount : identityKeys.count key = identityKeys.count key')
    (h : bpsAt receive clients key ≤ bpsAt receive clients key') :
    bpsAt receive (reconcileHighRateSubset clients identityKeys interfaceBps receive).1 key ≤
      bpsAt receive (reconcileHighRateSubset clients identityKeys interfaceBps receive).1 key' := by
  rcases reconcileSubset_cases receive clients identityKeys interfaceBps with ⟨-, heq⟩ | ⟨hvalid, heq⟩
  · rwa [heq]
  · rw [heq, bpsAt_foldl_scaleAt hvalid.2.1.le fun _ => bpsAt_le_subsetTotal128,
      bpsAt_foldl_scaleAt hvalid.2.1.le fun _ => bpsAt_le_subsetTotal128, hcount]
    exact iterate_scale_mono _ _ _ h

end

/-! ### All interfaces -/

/-- No client is raised in any direction. -/
def Lowers (clients clients' : RateMap) : Prop := ∀ receive key, bpsAt receive clients' key ≤ bpsAt receive clients key

namespace Lowers

theorem refl (clients : RateMap) : Lowers clients clients := fun _ _ => Nat.le_refl _

theorem trans {clients₁ clients₂ clients₃ : RateMap} (h : Lowers clients₁ clients₂) (h' : Lowers clients₂ clients₃) :
    Lowers clients₁ clients₃ := fun receive key => (h' receive key).trans (h receive key)

theorem total_le {clients clients' : RateMap} (h : Lowers clients clients') (receive : Bool) :
    clientTotal receive clients' ≤ clientTotal receive clients := total_le_of_weightAt_le (h receive)

theorem subset (clients : RateMap) (identityKeys : List String) (interfaceBps : UInt64) (receive : Bool) :
    Lowers clients (reconcileHighRateSubset clients identityKeys interfaceBps receive).1 := by
  intro other key
  by_cases h : other = receive
  · rw [h]
    exact bpsAt_reconcileSubset_le
  · rw [Bool.eq_not.2 h, bpsAt_not_reconcileSubset]

/-- A loop whose steps lower. -/
theorem foldl {α : Type} {step : RateMap × Bool → α → RateMap × Bool}
    (h : ∀ state entry, Lowers state.1 (step state entry).1) (l : List α) (state : RateMap × Bool) :
    Lowers state.1 (l.foldl step state).1 := by
  induction l generalizing state with
  | nil => exact refl _
  | cons entry l ih => exact trans (h state entry) (ih _)

theorem interfaces (clients : RateMap) (clientInterfaces : TreeMap String String) (interfaceRates : RateMap) :
    Lowers clients (reconcileHighRateInterfaces clients clientInterfaces interfaceRates).1 := by
  rw [reconcileHighRateInterfaces, TreeMap.foldl_eq_foldl_toList]
  refine foldl (fun state entry => ?_) _ (clients, false)
  dsimp only
  cases interfaceRates[entry.1]? with
  | none => exact refl _
  | some interfaceRate => exact trans (subset _ _ _ _) (subset _ _ _ _)

end Lowers

end Lanspeedd.RateWindow
