import DOpenWrt.Lanspeedd.RateWindowScale

/-!
# Repairs from the previous distribution

`replace_direction_from_previous_distribution` and `repair_previous_complete_low_direction` clear a direction before they
share it out. When every share rounds down to zero they report that nothing was repaired, with the direction cleared.
-/

namespace Lanspeedd.RateWindow

open Std TreeTotal

/-- A repair of one direction that shares out `selected`: refused, it changes nothing. -/
structure RepairContract (receive : Bool) (clients previous : RateMap) (selected : ℕ) (repaired : RateMap × Bool) :
    Prop where
  refused : repaired.2 = false → ∀ key : String, repaired.1[key]? = clients[key]?
  bounded : repaired.2 = true → clientTotal receive repaired.1 ≤ selected
  share : repaired.2 = true → ∀ key, bpsAt receive repaired.1 key =
    bpsAt receive previous key * selected / clientTotal receive previous
  other : repaired.2 = true → ∀ key, bpsAt (!receive) repaired.1 key = bpsAt (!receive) clients key

/-- Some share of `selected` is not zero, or there is nothing to clear. -/
def Distributable (receive : Bool) (clients previous : RateMap) (selected : ℕ) : Prop :=
  (∃ key, clientTotal receive previous ≤ bpsAt receive previous key * selected) ∨ ∀ key, bpsAt receive clients key = 0

/-- The guards of `replace_direction_from_previous_distribution`. -/
def ReplaceReady (previous : RateMap) (lanBps : UInt64) (receive : Bool) : Prop :=
  ¬lanBps < ecmBpfEventHighRateBps ∧ directionTotal receive previous ≠ 0

/-- The guards of `repair_previous_complete_low_direction`. -/
def LowRepairReady (clients previous : RateMap) (lanBps : UInt64) (receive : Bool) : Prop :=
  ¬(lanBps = 0 ∨ ecmBpfEventHighRateBps ≤ lanBps) ∧
  ¬(directionTotal receive previous ≤ directionTotal receive clients
    ∨ saturatingMul128 lanBps.toNat minOwnershipPercent ≤ saturatingMul128 (directionTotal receive clients) 100
    ∨ saturatingMul128 (directionTotal receive previous) 100 <
      saturatingMul128 lanBps.toNat previousDirectionMinLanPercent
    ∨ saturatingMul128 lanBps.toNat previousDirectionMaxLanPercent <
      saturatingMul128 (directionTotal receive previous) 100)

section
variable {receive : Bool} {clients previous : RateMap} {selected : ℕ} {lanBps : UInt64} {key : String}

theorem RepairContract.of_refused (receive : Bool) (clients previous : RateMap) (selected : ℕ) :
    RepairContract receive clients previous selected (clients, false) where
  refused _ _ := rfl
  bounded h := absurd h Bool.false_ne_true
  share h := absurd h Bool.false_ne_true
  other h := absurd h Bool.false_ne_true

/-! ### The loop -/

/-- The list the loop goes through. -/
def directionOf (receive : Bool) (previous : RateMap) : List (String × UInt64) :=
  previous.toList.map fun entry => (entry.1, entry.2.direction receive)

theorem directionOf_keys : (directionOf receive previous).map Prod.fst = previous.toList.map Prod.fst := by
  rw [directionOf, List.map_map]; rfl

theorem mem_directionOf {bps : UInt64} (h : (key, bps) ∈ directionOf receive previous) :
    bpsAt receive previous key = bps.toNat := by
  obtain ⟨entry, hentry, heq⟩ := List.mem_map.1 h
  obtain ⟨rfl, rfl⟩ := Prod.mk.inj heq
  exact bpsAt_of_some (TreeMap.mem_toList_iff_getElem?_eq_some.1 hentry)

theorem bpsAt_eq_zero_of_not_mem (h : key ∉ (directionOf receive previous).map Prod.fst) :
    bpsAt receive previous key = 0 := by
  rw [directionOf_keys] at h
  cases hget : previous[key]? with
  | none => exact bpsAt_of_none hget
  | some value =>
    exact absurd (List.mem_map.2 ⟨_, TreeMap.mem_toList_iff_getElem?_eq_some.2 hget, rfl⟩) h

/-- The share of a rate, as the loop computes it. -/
def shareOf (selected previousTotal : ℕ) (lanBps previousBps : UInt64) : UInt64 :=
  tryFromOr (saturatingMul128 previousBps.toNat selected / previousTotal) lanBps

theorem shareOf_zero (selected previousTotal : ℕ) (lanBps : UInt64) : shareOf selected previousTotal lanBps 0 = 0 := by
  simp [shareOf, saturatingMul128, tryFromOr, u64Limit]

theorem assignShares_eq (previousTotal : ℕ) :
    assignShares receive previous selected previousTotal lanBps clients =
      ((directionOf receive previous).foldl (assignTo receive (shareOf selected previousTotal lanBps))
          (clearDirection receive clients),
        (directionOf receive previous).any fun entry => shareOf selected previousTotal lanBps entry.2 ≠ 0) := by
  have hzero (state : RateMap × Bool) (key : String) :
      assignRate receive (shareOf selected previousTotal lanBps) state (key, 0) = state := by
    rw [assignRate, shareOf_zero]; rfl
  have hloop : assignShares receive previous selected previousTotal lanBps clients =
      (directionOf receive previous).foldl (assignRate receive (shareOf selected previousTotal lanBps))
        (clearDirection receive clients, false) := by
    rw [assignShares, TreeMap.foldl_eq_foldl_toList, directionOf, List.foldl_map]
    congr 1
    funext state entry
    dsimp only
    split
    · next h => rw [h, hzero]
    · rfl
  rw [hloop, foldl_assignRate, Bool.false_or]

theorem bpsAt_clearDirection : bpsAt receive (clearDirection receive clients) key = 0 := by
  rw [clearDirection, bpsAt_map]
  cases clients[key]? <;> rfl

theorem bpsAt_not_clearDirection : bpsAt (!receive) (clearDirection receive clients) key =
    bpsAt (!receive) clients key := bpsAt_not_map _

/-- A cleared direction is as it was only where it was zero. -/
theorem clearDirection_unchanged : (∀ key : String, (clearDirection receive clients)[key]? = clients[key]?) ↔
    ∀ key, bpsAt receive clients key = 0 := by
  constructor
  · intro h key
    have := @bpsAt_clearDirection receive clients key
    rwa [bpsAt, weightAt, h key] at this
  · intro h key
    have hkey := h key
    rw [clearDirection, TreeMap.getElem?_map]
    cases hget : clients[key]? with
    | none => rfl
    | some value =>
      rw [bpsAt_of_some hget] at hkey
      have hvalue : value.direction receive = 0 := UInt64.toNat_inj.1 hkey
      rw [Option.map_some, ← hvalue, RateWindowValue.setDirection_direction]

end

/-! ### The contract -/

section
variable {receive : Bool} {clients previous : RateMap} {selected : ℕ} {lanBps : UInt64} {key : String}

theorem shareOf_toNat {bps : UInt64} (hselected : selected < u64Limit) (hmem : (key, bps) ∈ directionOf receive previous) :
    (shareOf selected (clientTotal receive previous) lanBps bps).toNat =
      bpsAt receive previous key * selected / clientTotal receive previous := by
  rw [mem_directionOf hmem]
  refine share_toNat (toNat_lt _) ?_ hselected lanBps
  rw [← mem_directionOf hmem]
  exact bpsAt_le_total

theorem bpsAt_assignShares (hselected : selected < u64Limit) :
    bpsAt receive (assignShares receive previous selected (clientTotal receive previous) lanBps clients).1 key =
      bpsAt receive previous key * selected / clientTotal receive previous := by
  rw [assignShares_eq]
  by_cases hmem : key ∈ (directionOf receive previous).map Prod.fst
  · obtain ⟨⟨key, bps⟩, hentry, rfl⟩ := List.mem_map.1 hmem
    have hkeys : ((directionOf receive previous).map Prod.fst).Nodup := directionOf_keys ▸ distinct_keys previous
    have hshare := @shareOf_toNat receive previous selected lanBps key bps hselected hentry
    dsimp only
    rw [bpsAt_foldl_of_mem hkeys hentry, bpsAt_clearDirection, ← hshare]
    split
    · next h => rw [h]; rfl
    · rfl
  · rw [bpsAt_foldl_of_not_mem hmem, bpsAt_clearDirection, bpsAt_eq_zero_of_not_mem hmem, Nat.zero_mul, Nat.zero_div]

/-- The loop reports a repair exactly where some share is not zero. -/
theorem assignShares_repaired (hselected : selected < u64Limit) (htotal : clientTotal receive previous ≠ 0) :
    (assignShares receive previous selected (clientTotal receive previous) lanBps clients).2 = true ↔
      ∃ key, clientTotal receive previous ≤ bpsAt receive previous key * selected := by
  have hpos := Nat.pos_of_ne_zero htotal
  rw [assignShares_eq, List.any_eq_true]
  constructor
  · rintro ⟨entry, hmem, hne⟩
    refine ⟨entry.1, ?_⟩
    by_contra hlt
    have hzero := @shareOf_toNat receive previous selected lanBps entry.1 entry.2 hselected hmem
    rw [Nat.div_eq_of_lt (Nat.lt_of_not_le hlt)] at hzero
    exact of_decide_eq_true hne (UInt64.toNat_inj.1 hzero)
  · rintro ⟨key, hle⟩
    have hmem : key ∈ (directionOf receive previous).map Prod.fst := by
      by_contra hnot
      rw [bpsAt_eq_zero_of_not_mem hnot, Nat.zero_mul] at hle
      omega
    obtain ⟨⟨key, bps⟩, hentry, rfl⟩ := List.mem_map.1 hmem
    refine ⟨_, hentry, decide_eq_true fun hzero => ?_⟩
    have hshare := @shareOf_toNat receive previous selected lanBps key bps hselected hentry
    rw [hzero] at hshare
    exact absurd hshare.symm (Nat.div_pos hle hpos).ne'

theorem assignShares_contract (hselected : selected < u64Limit) (htotal : clientTotal receive previous ≠ 0) :
    RepairContract receive clients previous selected
        (assignShares receive previous selected (clientTotal receive previous) lanBps clients) ↔
      Distributable receive clients previous selected := by
  have hrepaired := @assignShares_repaired receive clients previous selected lanBps hselected htotal
  constructor
  · intro h
    by_cases hany : ∃ key, clientTotal receive previous ≤ bpsAt receive previous key * selected
    · exact .inl hany
    · refine .inr fun key => ?_
      have hshare := @bpsAt_assignShares receive clients previous selected lanBps key hselected
      have hsame := h.refused (Bool.eq_false_iff.2 fun heq => hany (hrepaired.1 heq)) key
      have hlt : bpsAt receive previous key * selected < clientTotal receive previous :=
        Nat.lt_of_not_le fun hle => hany ⟨key, hle⟩
      rwa [bpsAt, weightAt, hsame, Nat.div_eq_of_lt hlt] at hshare
  · intro h
    refine ⟨fun hfalse => ?_, fun _ => ?_, fun _ key => bpsAt_assignShares hselected, fun _ key => ?_⟩
    · -- every share is zero, so the loop left the cleared map
      have hnot := fun hany => Bool.false_ne_true (hfalse.symm.trans (hrepaired.2 hany))
      have hclear := clearDirection_unchanged.2 (h.resolve_left hnot)
      have hloop : (assignShares receive previous selected (clientTotal receive previous) lanBps clients).1 =
          clearDirection receive clients := by
        rw [assignShares_eq] at hfalse ⊢
        refine foldl_fixed _ fun entry hmem => ?_
        have hzero := List.any_eq_false.1 hfalse entry hmem
        simp only [ne_eq, decide_not, Bool.not_eq_true', decide_eq_false_iff_not, not_not] at hzero
        rw [assignTo, assignRate, hzero]; rfl
      rwa [hloop]
    · refine total_le_of_shares (Nat.le_refl (clientTotal receive previous)) fun key => ?_
      exact (@bpsAt_assignShares receive clients previous selected lanBps key hselected).le
    · rw [assignShares_eq, bpsAt_not_foldl, bpsAt_not_clearDirection]
where
  foldl_fixed {α β : Type} {f : β → α → β} {l : List α} (b : β) (h : ∀ a ∈ l, f b a = b) : l.foldl f b = b := by
    induction l with
    | nil => rfl
    | cons a l ih => rw [List.foldl_cons, h a List.mem_cons_self, ih fun a ha => h a (List.mem_cons_of_mem _ ha)]

theorem replace_eq (hready : ReplaceReady previous lanBps receive) :
    replaceDirectionFromPreviousDistribution clients previous lanBps receive =
      assignShares receive previous lanBps.toNat (directionTotal receive previous) lanBps clients := by
  rw [replaceDirectionFromPreviousDistribution, if_neg hready.1]
  exact if_neg hready.2

theorem replace_refused (hready : ¬ReplaceReady previous lanBps receive) :
    replaceDirectionFromPreviousDistribution clients previous lanBps receive = (clients, false) := by
  rw [replaceDirectionFromPreviousDistribution]
  split
  · rfl
  · next hlan => exact if_pos (not_not.1 fun htotal => hready ⟨hlan, htotal⟩)

theorem lowRepair_eq (hready : LowRepairReady clients previous lanBps receive) :
    repairPreviousCompleteLowDirection clients previous lanBps receive =
      assignShares receive previous (min (directionTotal receive previous) lanBps.toNat)
        (directionTotal receive previous) lanBps clients := by
  rw [repairPreviousCompleteLowDirection, if_neg hready.1]
  exact if_neg hready.2

theorem lowRepair_refused (hready : ¬LowRepairReady clients previous lanBps receive) :
    repairPreviousCompleteLowDirection clients previous lanBps receive = (clients, false) := by
  rw [repairPreviousCompleteLowDirection]
  split
  · rfl
  · next hlan => exact if_pos (not_not.1 fun htotal => hready ⟨hlan, htotal⟩)

end

/-- A refused repair changes nothing, and one that is not refused shares the direction out, exactly where some share is
not zero or the direction is zero already. -/
theorem repairs_contract_iff (clients previous : RateMap) (lanBps : UInt64) (receive : Bool)
    (hsize : previous.size < u64Limit) :
    (RepairContract receive clients previous lanBps.toNat
        (replaceDirectionFromPreviousDistribution clients previous lanBps receive) ↔
      (ReplaceReady previous lanBps receive → Distributable receive clients previous lanBps.toNat)) ∧
    (RepairContract receive clients previous (min (clientTotal receive previous) lanBps.toNat)
        (repairPreviousCompleteLowDirection clients previous lanBps receive) ↔
      (LowRepairReady clients previous lanBps receive →
        Distributable receive clients previous (min (clientTotal receive previous) lanBps.toNat))) := by
  have htotal : directionTotal receive previous = clientTotal receive previous := directionTotal_eq hsize.le
  constructor
  · by_cases hready : ReplaceReady previous lanBps receive
    · rw [replace_eq hready, htotal, assignShares_contract (toNat_lt _) (htotal ▸ hready.2)]
      exact ⟨fun h _ => h, fun h => h hready⟩
    · rw [replace_refused hready]
      exact iff_of_true (.of_refused ..) fun h => absurd h hready
  · by_cases hready : LowRepairReady clients previous lanBps receive
    · have hne : clientTotal receive previous ≠ 0 := fun hzero =>
        hready.2 (.inl (by rw [htotal, hzero]; exact Nat.zero_le _))
      rw [lowRepair_eq hready, htotal,
        assignShares_contract ((Nat.min_le_right ..).trans_lt (toNat_lt _)) hne]
      exact ⟨fun h _ => h, fun h => h hready⟩
    · rw [lowRepair_refused hready]
      exact iff_of_true (.of_refused ..) fun h => absurd h hready

/-! ### Four clients of one bit -/

/-- Four clients that each sent one bit a second. -/
def fourClients : RateMap :=
  (((∅ : RateMap).insert "a" ⟨0, 1⟩).insert "b" ⟨0, 1⟩).insert "c" ⟨0, 1⟩ |>.insert "d" ⟨0, 1⟩

def oneClient : RateMap := (∅ : RateMap).insert "a" ⟨0, 1⟩

theorem repairs_contract_four :
    (RepairContract false oneClient fourClients 3 (replaceDirectionFromPreviousDistribution oneClient fourClients 3 false) ↔
      (ReplaceReady fourClients 3 false → Distributable false oneClient fourClients 3)) ∧
    (RepairContract false oneClient fourClients (min (clientTotal false fourClients) 3)
        (repairPreviousCompleteLowDirection oneClient fourClients 3 false) ↔
      (LowRepairReady oneClient fourClients 3 false →
        Distributable false oneClient fourClients (min (clientTotal false fourClients) 3))) :=
  repairs_contract_iff oneClient fourClients 3 false (by decide +kernel)

/-- At 3 bit/s each of four equal shares is zero: the repair is refused, and the only client has lost its rate. -/
theorem refusedRepair_cleared :
    (repairPreviousCompleteLowDirection oneClient fourClients 3 false).2 = false ∧
      oneClient["a"]? = some ⟨0, 1⟩ ∧
      (repairPreviousCompleteLowDirection oneClient fourClients 3 false).1["a"]? = some ⟨0, 0⟩ := by
  decide +kernel

end Lanspeedd.RateWindow
