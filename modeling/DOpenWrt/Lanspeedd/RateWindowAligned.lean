import DOpenWrt.Lanspeedd.RateWindowHighRate

/-!
# The budget of every window

Before the reconcile the map of a high rate window grows, but no direction by more than the fallback rates and the
previous distribution; so its total fits a `u128`, and the reconcile brings it down to the rate of the LAN.
-/

namespace Lanspeedd.RateWindow

open Std TreeTotal

section
variable {receive : Bool} {clients fallback : RateMap} {key : String}

/-! ### Growing -/

theorem foldl_insert_fst (f : RateWindowValue → RateWindowValue → RateWindowValue) (g : RateMap × Bool → String →
    RateWindowValue → Bool) (l : List (String × RateWindowValue)) (state : RateMap × Bool) :
    (l.foldl (fun state entry => (state.1.insert entry.1 (f (state.1.getD entry.1 {}) entry.2), g state entry.1 entry.2))
      state).1 = l.foldl (fun clients entry => updateEntry clients entry.1 fun current => f current entry.2) state.1 := by
  induction l generalizing state with
  | nil => rfl
  | cons entry l ih => rw [List.foldl_cons, ih, List.foldl_cons]; rfl

theorem updateEntry_updatesOwn (f : RateWindowValue → RateWindowValue → RateWindowValue) :
    UpdatesOwn (fun (clients : RateMap) (entry : String × RateWindowValue) =>
      updateEntry clients entry.1 fun current => f current entry.2)
      fun value old => some (f (old.getD {}) value) where
  own clients entry := by
    rw [getElem?_updateEntry, if_pos rfl, TreeMap.getD_eq_getD_getElem?]
  other clients entry key hne := by rw [getElem?_updateEntry, if_neg (Ne.symm hne)]

/-- A loop over the fallback rates that takes, in each direction, the client's rate or the fallback rate. -/
theorem clientTotal_select_le {f : RateWindowValue → RateWindowValue → RateWindowValue}
    (hf : ∀ current value, (f current value).direction receive = current.direction receive ∨
      (f current value).direction receive = value.direction receive) :
    clientTotal receive (fallback.toList.foldl (fun clients entry =>
      updateEntry clients entry.1 fun current => f current entry.2) clients) ≤
      clientTotal receive clients + clientTotal receive fallback := by
  refine total_le_add fun key => ?_
  have hget := (updateEntry_updatesOwn f).foldl_toList fallback clients key
  rw [weightAt, hget]
  cases hfallback : fallback[key]? with
  | none => exact Nat.le_add_right _ _
  | some value =>
    rw [weightAt_of_some hfallback]
    have hcurrent : weightAt (fun value => (value.direction receive).toNat) clients key =
        (((clients[key]?).getD {}).direction receive).toNat := by
      rw [← TreeMap.getD_eq_getD_getElem?]
      exact bpsAt_eq_getD receive clients key
    rw [hcurrent]
    change ((f _ value).direction receive).toNat ≤ _
    rcases hf ((clients[key]?).getD {}) value with heq | heq
    · rw [heq]
      exact Nat.le_add_right _ _
    · rw [heq]
      exact Nat.le_add_left _ _

theorem clientTotal_selectEventRates (repairTx repairRx : Bool) :
    clientTotal receive (selectEventRates clients fallback repairTx repairRx).1 ≤
      clientTotal receive clients + clientTotal receive fallback := by
  let f (current fallbackRate : RateWindowValue) : RateWindowValue :=
    ⟨if repairRx && current.rxBps < fallbackRate.rxBps then fallbackRate.rxBps else current.rxBps,
      if repairTx && current.txBps < fallbackRate.txBps then fallbackRate.txBps else current.txBps⟩
  have hf (current value : RateWindowValue) : (f current value).direction receive = current.direction receive ∨
      (f current value).direction receive = value.direction receive := by
    cases receive
    · exact (ite_eq_or_eq _ value.txBps current.txBps).symm
    · exact (ite_eq_or_eq _ value.rxBps current.rxBps).symm
  rw [selectEventRates, TreeMap.foldl_eq_foldl_toList]
  refine Nat.le_trans (Nat.le_of_eq (congrArg _ ?_)) (clientTotal_select_le hf)
  exact foldl_insert_fst f (fun state key value => state.2 ||
    (repairTx && (state.1.getD key {}).txBps < value.txBps) ||
    (repairRx && (state.1.getD key {}).rxBps < value.rxBps)) fallback.toList (clients, false)

theorem highRateDirection_or (rawBps eventBps : UInt64) :
    (highRateDirection rawBps eventBps).1 = rawBps ∨ (highRateDirection rawBps eventBps).1 = eventBps := by
  rw [highRateDirection]
  split
  · exact .inl rfl
  · dsimp only
    split
    · exact .inr rfl
    · exact .inl rfl

theorem clientTotal_selectHighRates : clientTotal receive (selectHighRates clients fallback).1 ≤
    clientTotal receive clients + clientTotal receive fallback := by
  let f (current fallbackRate : RateWindowValue) : RateWindowValue :=
    ⟨(highRateDirection current.rxBps fallbackRate.rxBps).1, (highRateDirection current.txBps fallbackRate.txBps).1⟩
  have hf (current value : RateWindowValue) : (f current value).direction receive = current.direction receive ∨
      (f current value).direction receive = value.direction receive := by
    cases receive
    · exact highRateDirection_or current.txBps value.txBps
    · exact highRateDirection_or current.rxBps value.rxBps
  rw [selectHighRates, TreeMap.foldl_eq_foldl_toList]
  refine Nat.le_trans (Nat.le_of_eq (congrArg _ ?_)) (clientTotal_select_le hf)
  exact foldl_insert_fst f (fun state key value => state.2 ||
    (highRateDirection (state.1.getD key {}).rxBps value.rxBps).2 ||
    (highRateDirection (state.1.getD key {}).txBps value.txBps).2) fallback.toList (clients, false)

/-! ### The previous distribution -/

variable {previous : RateMap} {lanBps : UInt64}

theorem clientTotal_replace_le (hsize : previous.size ≤ u64Limit) :
    clientTotal receive (replaceDirectionFromPreviousDistribution clients previous lanBps receive).1 ≤
      max (clientTotal receive clients) lanBps.toNat := by
  by_cases hready : ReplaceReady previous lanBps receive
  · rw [replace_eq hready, directionTotal_eq hsize]
    refine Nat.le_trans (total_le_of_shares (Nat.le_refl (clientTotal receive previous)) fun key => ?_)
      (Nat.le_max_right _ _)
    exact (@bpsAt_assignShares receive clients previous lanBps.toNat lanBps key (toNat_lt _)).le
  · rw [replace_refused hready]
    exact Nat.le_max_left _ _

theorem bpsAt_not_replace : bpsAt (!receive)
    (replaceDirectionFromPreviousDistribution clients previous lanBps receive).1 key = bpsAt (!receive) clients key := by
  by_cases hready : ReplaceReady previous lanBps receive
  · rw [replace_eq hready, assignShares_eq, bpsAt_not_foldl, bpsAt_not_clearDirection]
  · rw [replace_refused hready]

/-- The rate of the LAN that a direction is held to. -/
def heldTo (lanRate : RateWindowValue) (receive : Bool) : UInt64 := lanRate.direction (!receive)

theorem clientTotal_replace_other (clients previous : RateMap) (lanRate : RateWindowValue) (receive other : Bool)
    (hsize : previous.size ≤ u64Limit) :
    clientTotal other (replaceDirectionFromPreviousDistribution clients previous (heldTo lanRate receive) receive).1 ≤
      max (clientTotal other clients) (heldTo lanRate other).toNat := by
  by_cases h : other = receive
  · rw [h]
    exact clientTotal_replace_le hsize
  · rw [Bool.eq_not.2 h]
    exact (clientTotal_congr fun _ => bpsAt_not_replace).le.trans (Nat.le_max_left _ _)

theorem clientTotal_repairPrevious (clients : RateMap) (previous : Option EcmBpfRateBatch) (currentStartMs : UInt64)
    (lanRate : RateWindowValue) (repairTx repairRx : Bool) (receive : Bool)
    (hprevious : ∀ batch, previous = some batch → batch.clients.size ≤ u64Limit) :
    clientTotal receive
        (repairPreviousCompleteHighDirections clients previous currentStartMs lanRate repairTx repairRx).1 ≤
      max (clientTotal receive clients) (heldTo lanRate receive).toNat := by
  rw [repairPreviousCompleteHighDirections]
  split
  · exact Nat.le_max_left _ _
  · next batch hbatch =>
    have hsize := hprevious batch (Option.eq_some_of_filter_eq_some hbatch)
    have htx : clientTotal receive (if repairTx then
        replaceDirectionFromPreviousDistribution clients batch.clients lanRate.rxBps false else (clients, false)).1 ≤
        max (clientTotal receive clients) (heldTo lanRate receive).toNat := by
      split
      · exact clientTotal_replace_other clients batch.clients lanRate false receive hsize
      · exact Nat.le_max_left _ _
    dsimp only
    split
    · refine Nat.le_trans (clientTotal_replace_other _ batch.clients lanRate true receive hsize) ?_
      exact Nat.max_le.2 ⟨htx, Nat.le_max_right _ _⟩
    · exact htx

/-! ### The budget -/

/-- The `u64` total saturates. -/
theorem sumRateValues_direction : ((sumRateValues clients).direction receive).toNat =
    min (clientTotal receive clients) (u64Limit - 1) := by
  have hlist (l : List (String × RateWindowValue)) (sum : RateWindowValue) :
      ((l.foldl (fun total entry => ⟨saturatingAdd64 total.rxBps entry.2.rxBps,
        saturatingAdd64 total.txBps entry.2.txBps⟩) sum : RateWindowValue).direction receive).toNat =
      min ((sum.direction receive).toNat + (l.map fun entry => (entry.2.direction receive).toNat).sum)
        (u64Limit - 1) := by
    induction l generalizing sum with
    | nil => exact (Nat.min_eq_left (Nat.le_pred_of_lt (toNat_lt _))).symm
    | cons entry l ih =>
      have hstep : ((⟨saturatingAdd64 sum.rxBps entry.2.rxBps,
          saturatingAdd64 sum.txBps entry.2.txBps⟩ : RateWindowValue).direction receive).toNat =
          min ((sum.direction receive).toNat + (entry.2.direction receive).toNat) (u64Limit - 1) := by
        cases receive
        · exact saturatingAdd64_toNat ..
        · exact saturatingAdd64_toNat ..
      rw [List.foldl_cons, ih, hstep, List.map_cons, List.sum_cons]
      omega
  have := hlist clients.toList {}
  rw [sumRateValues, TreeMap.foldl_eq_foldl_toList]
  rwa [RateWindowValue.direction_default, UInt64.toNat_zero, Nat.zero_add] at this

theorem bpsAt_not_reconcileHigh {rawClientBps : UInt64} :
    bpsAt (!receive) (reconcileHighRateDirection clients lanBps rawClientBps receive).1 key =
      bpsAt (!receive) clients key := by
  rw [reconcileHighRateDirection]
  split
  · exact bpsAt_not_reconcile
  · rfl

/-- Where the physical budget is valid the reconcile holds the direction to it. -/
theorem clientTotal_reconcileHigh_le {rawClientBps : UInt64} (htotal : clientTotal receive clients ≤ u128Max)
    (hlan : ecmBpfEventHighRateBps ≤ lanBps) (hraw : rawClientBps.toNat ≤ lanBps.toNat * 2) :
    clientTotal receive (reconcileHighRateDirection clients lanBps rawClientBps receive).1 ≤ lanBps.toNat := by
  have hmul : saturatingMul128 lanBps.toNat 2 = lanBps.toNat * 2 :=
    saturatingMul128_of_le (toNat_lt lanBps).le (by decide)
  rw [reconcileHighRateDirection, if_pos ⟨hlan, .inr (hmul ▸ hraw)⟩]
  exact clientTotal_reconcile_le htotal

/-- The last three steps of both high rate windows. -/
def reconcileSteps (clients : RateMap) (lanRate rawTotal : RateWindowValue) (clientInterfaces : TreeMap String String)
    (interfaceRates : RateMap) : RateMap :=
  let clients := (reconcileHighRateDirection clients lanRate.rxBps rawTotal.txBps false).1
  let clients := (reconcileHighRateDirection clients lanRate.txBps rawTotal.rxBps true).1
  (reconcileHighRateInterfaces clients clientInterfaces interfaceRates).1

theorem clientTotal_reconcileSteps {raw : RateMap} {lanRate : RateWindowValue}
    (clientInterfaces : TreeMap String String) (interfaceRates : RateMap)
    (htotal : ∀ receive, clientTotal receive clients ≤ u128Max)
    (hlan : ecmBpfEventHighRateBps ≤ heldTo lanRate receive)
    (hraw : clientTotal receive raw ≤ (heldTo lanRate receive).toNat * 2) :
    clientTotal receive (reconcileSteps clients lanRate (sumRateValues raw) clientInterfaces interfaceRates) ≤
      (heldTo lanRate receive).toNat := by
  have hsum : ((sumRateValues raw).direction receive).toNat ≤ (heldTo lanRate receive).toNat * 2 := by
    rw [sumRateValues_direction]
    exact (Nat.min_le_left ..).trans hraw
  refine (Lowers.total_le (Lowers.interfaces _ clientInterfaces interfaceRates) receive).trans ?_
  cases receive with
  | false =>
    refine (clientTotal_congr fun _ => @bpsAt_not_reconcileHigh true ..).le.trans ?_
    exact clientTotal_reconcileHigh_le (htotal false) hlan hsum
  | true =>
    refine clientTotal_reconcileHigh_le ?_ hlan hsum
    exact (clientTotal_congr fun _ => @bpsAt_not_reconcileHigh false ..).le.trans (htotal true)

theorem clientTotal_add_le {raw : RateMap} (hsize : raw.size + fallback.size ≤ u64Limit) :
    clientTotal receive raw + clientTotal receive fallback ≤ u128Max := by
  have hvalue (value : RateWindowValue) : (value.direction receive).toNat ≤ u64Limit - 1 :=
    Nat.le_pred_of_lt (toNat_lt _)
  have hmax : u64Limit * (u64Limit - 1) ≤ u128Max := by decide
  calc clientTotal receive raw + clientTotal receive fallback
      ≤ raw.size * (u64Limit - 1) + fallback.size * (u64Limit - 1) :=
        Nat.add_le_add (total_le_size hvalue) (total_le_size hvalue)
    _ = (raw.size + fallback.size) * (u64Limit - 1) := (Nat.add_mul ..).symm
    _ ≤ u128Max := (Nat.mul_le_mul_right _ hsize).trans hmax

end

section
variable {pendingRaw : TreeMap String TrafficCounters} {fallback : RateMap} {lanRaw : TrafficCounters}
  {clientInterfaces : TreeMap String String} {interfaceRates : RateMap} {windowMs : UInt64} {receive : Bool}

theorem highRateWindow_le (hsize : pendingRaw.size + fallback.size ≤ u64Limit)
    (hlan : ecmBpfEventHighRateBps ≤ lanBudget lanRaw windowMs receive)
    (hraw : clientTotal receive (rawRates pendingRaw windowMs) ≤ (lanBudget lanRaw windowMs receive).toNat * 2) :
    clientTotal receive
        (highRateWindowClients pendingRaw fallback lanRaw clientInterfaces interfaceRates windowMs).1 ≤
      (lanBudget lanRaw windowMs receive).toNat := by
  have hsizeRaw := size_rawRates pendingRaw windowMs
  refine @clientTotal_reconcileSteps receive _ _ (lanRates lanRaw windowMs) clientInterfaces interfaceRates
    (fun receive => ?_) hlan hraw
  rw [rawRates] at hsizeRaw
  exact clientTotal_selectHighRates.trans (clientTotal_add_le (by omega))

theorem alignedHighRateWindow_le {previous : Option EcmBpfRateBatch} {currentStartMs : UInt64}
    {published : RateMap × Bool × Bool × Bool} (hsize : pendingRaw.size + fallback.size ≤ u64Limit)
    (hprevious : ∀ batch, previous = some batch → batch.clients.size ≤ u64Limit)
    (h : alignedHighRateWindowClients pendingRaw fallback lanRaw clientInterfaces interfaceRates windowMs previous
      currentStartMs = some published)
    (hlan : ecmBpfEventHighRateBps ≤ lanBudget lanRaw windowMs receive)
    (hraw : clientTotal receive (rawRates pendingRaw windowMs) ≤ (lanBudget lanRaw windowMs receive).toNat * 2) :
    clientTotal receive published.1 ≤ (lanBudget lanRaw windowMs receive).toNat := by
  rw [alignedHighRateWindowClients] at h
  obtain ⟨raw, hget, h⟩ := Option.bind_eq_some_iff.1 h
  have hrawRates : rawRates pendingRaw windowMs = raw := by rw [rawRates, hget]; rfl
  have hsizeRaw := size_rateWindowClients hget
  rw [hrawRates] at hraw
  dsimp only at h
  split at h
  · exact absurd h.symm (Option.some_ne_none _)
  · rw [← Option.some.inj h]
    refine @clientTotal_reconcileSteps receive _ raw (lanRates lanRaw windowMs) clientInterfaces interfaceRates
      (fun receive => ?_) hlan hraw
    refine (clientTotal_repairPrevious _ previous currentStartMs _ _ _ receive hprevious).trans (Nat.max_le.2 ⟨?_, ?_⟩)
    · exact (clientTotal_selectEventRates _ _).trans (clientTotal_add_le (by omega))
    · exact (toNat_lt _).le.trans (by decide)

end

/-! ### What is published -/

/-- The rates of a fallback window in one direction. -/
structure FallbackInBudget (receive : Bool) (raw fallback published : RateMap) (lanBps : UInt64) : Prop where
  budget : clientTotal receive published ≤ lanBps.toNat
  kept : ∀ key, scaledBps (clientTotal receive raw) lanBps.toNat (bpsAt receive raw key) ≠ 0 →
    bpsAt receive published key ≤ bpsAt receive raw key
  filled : ∀ key, scaledBps (clientTotal receive raw) lanBps.toNat (bpsAt receive raw key) = 0 →
    bpsAt receive published key ≤ bpsAt receive fallback key
  exact : ∀ key, bpsAt receive published key = publishedBps receive raw fallback lanBps key

/-- A direction scaled for some clients: with exact products, raising none, and in the order there was among clients that
are scaled equally often. -/
structure Reconciled (receive : Bool) (clients reconciled : RateMap) (scale : ℕ → ℕ) (times : String → ℕ) : Prop where
  exact : ∀ key, bpsAt receive reconciled key = scale^[times key] (bpsAt receive clients key)
  lowers : Lowers clients reconciled
  order : ∀ key key', times key = times key' → bpsAt receive clients key ≤ bpsAt receive clients key' →
    bpsAt receive reconciled key ≤ bpsAt receive reconciled key'

/-- What one reconcile of the listed clients does to a rate, in exact arithmetic. -/
def subsetScale (receive : Bool) (clients : RateMap) (identityKeys : List String) (interfaceBps : UInt64) (bps : ℕ) : ℕ :=
  let total := subsetTotal receive clients identityKeys
  if ecmBpfEventHighRateBps ≤ interfaceBps ∧ interfaceBps.toNat < total ∧ total * 2 ≤ interfaceBps.toNat * 5 then
    bps * interfaceBps.toNat / total
  else bps

theorem reconcileRateDirection_reconciled {receive : Bool} {clients : RateMap} (hsize : clients.size ≤ u64Limit)
    (lanBps : UInt64) : Reconciled receive clients (reconcileRateDirection clients lanBps receive).1
      (scaledBps (clientTotal receive clients) lanBps.toNat) fun _ => 1 where
  exact _ := bpsAt_reconcile (clientTotal_lt hsize)
  lowers other key := by
    by_cases h : other = receive
    · rw [h, bpsAt_reconcile (clientTotal_lt hsize)]
      exact scaledBps_le
    · rw [Bool.eq_not.2 h, bpsAt_not_reconcile]
  order key key' _ hle := by
    rw [bpsAt_reconcile (clientTotal_lt hsize), bpsAt_reconcile (clientTotal_lt hsize)]
    exact scaledBps_mono hle

theorem subsetTotal_mul_two {receive : Bool} {clients : RateMap} {identityKeys : List String}
    (hlength : identityKeys.length ≤ 2 ^ 63) : subsetTotal receive clients identityKeys * 2 ≤ u128Max := by
  have hsum (l : List String) : (l.map (bpsAt receive clients)).sum ≤ l.length * (u64Limit - 1) := by
    induction l with
    | nil => exact Nat.zero_le _
    | cons key l ih =>
      rw [List.map_cons, List.sum_cons, List.length_cons, Nat.succ_mul, Nat.add_comm]
      exact Nat.add_le_add ih (Nat.le_pred_of_lt (bpsAt_lt receive clients key))
  calc subsetTotal receive clients identityKeys * 2
      ≤ identityKeys.length * (u64Limit - 1) * 2 := Nat.mul_le_mul_right 2 (hsum identityKeys)
    _ ≤ 2 ^ 63 * (u64Limit - 1) * 2 := Nat.mul_le_mul_right 2 (Nat.mul_le_mul_right _ hlength)
    _ ≤ u128Max := by decide

theorem reconcileHighRateSubset_reconciled {receive : Bool} {identityKeys : List String}
    (hlength : identityKeys.length ≤ 2 ^ 63) (clients : RateMap) (interfaceBps : UInt64) :
    Reconciled receive clients (reconcileHighRateSubset clients identityKeys interfaceBps receive).1
      (subsetScale receive clients identityKeys interfaceBps) fun key => identityKeys.count key where
  exact key := by
    have hdouble := @subsetTotal_mul_two receive clients identityKeys hlength
    have htotal : subsetTotal128 receive clients identityKeys = subsetTotal receive clients identityKeys := by
      rw [subsetTotal128_eq_min]
      exact Nat.min_eq_left (by omega)
    have hfive : saturatingMul128 interfaceBps.toNat 5 = interfaceBps.toNat * 5 :=
      saturatingMul128_of_le (toNat_lt interfaceBps).le (by decide)
    have hvalid : SubsetBudgetValid interfaceBps (subsetTotal128 receive clients identityKeys) ↔
        ecmBpfEventHighRateBps ≤ interfaceBps ∧ interfaceBps.toNat < subsetTotal receive clients identityKeys ∧
          subsetTotal receive clients identityKeys * 2 ≤ interfaceBps.toNat * 5 := by
      rw [SubsetBudgetValid, htotal, hfive, saturatingMul128, Nat.min_eq_left hdouble]
    rcases reconcileSubset_cases receive clients identityKeys interfaceBps with ⟨hnot, heq⟩ | ⟨hyes, heq⟩
    · have hscale : subsetScale receive clients identityKeys interfaceBps = id :=
        funext fun _ => if_neg fun h => hnot (hvalid.2 h)
      rw [heq, hscale, Function.iterate_id]; rfl
    · have hscale : subsetScale receive clients identityKeys interfaceBps =
          fun bps => bps * interfaceBps.toNat / subsetTotal128 receive clients identityKeys :=
        funext fun _ => (if_pos (hvalid.1 hyes)).trans (by rw [htotal])
      rw [heq, hscale]
      exact bpsAt_foldl_scaleAt hyes.2.1.le (fun _ => bpsAt_le_subsetTotal128) key
  lowers := Lowers.subset clients identityKeys interfaceBps receive
  order key key' hcount hle := bpsAt_reconcileSubset_mono hcount hle

/-- Every window publishes rates within the budget of the LAN. -/
theorem published_in_budget (pendingRaw : TreeMap String TrafficCounters) (fallback : RateMap) (lanRaw : TrafficCounters)
    (clientInterfaces : TreeMap String String) (interfaceRates : RateMap) (windowMs : UInt64)
    (previous : Option EcmBpfRateBatch) (currentStartMs : UInt64) (clients : RateMap) (identityKeys : List String)
    (budgetBps : UInt64) (receive : Bool) (hsize : pendingRaw.size + fallback.size ≤ u64Limit)
    (hprevious : ∀ batch, previous = some batch → batch.clients.size ≤ u64Limit)
    (hclients : clients.size ≤ u64Limit) (hlength : identityKeys.length ≤ 2 ^ 63) :
    FallbackInBudget receive (rawRates pendingRaw windowMs) fallback
      (fallbackRateWindowClients pendingRaw fallback lanRaw windowMs).1 (lanBudget lanRaw windowMs receive) ∧
    Reconciled receive clients (reconcileRateDirection clients budgetBps receive).1
      (scaledBps (clientTotal receive clients) budgetBps.toNat) (fun _ => 1) ∧
    Reconciled receive clients (reconcileHighRateSubset clients identityKeys budgetBps receive).1
      (subsetScale receive clients identityKeys budgetBps) (fun key => identityKeys.count key) ∧
    (ecmBpfEventHighRateBps ≤ lanBudget lanRaw windowMs receive →
      clientTotal receive (rawRates pendingRaw windowMs) ≤ (lanBudget lanRaw windowMs receive).toNat * 2 →
      (∀ published, alignedHighRateWindowClients pendingRaw fallback lanRaw clientInterfaces interfaceRates windowMs
          previous currentStartMs = some published →
        clientTotal receive published.1 ≤ (lanBudget lanRaw windowMs receive).toNat) ∧
      clientTotal receive
          (highRateWindowClients pendingRaw fallback lanRaw clientInterfaces interfaceRates windowMs).1 ≤
        (lanBudget lanRaw windowMs receive).toNat) ∧
    (∀ batch, previous = some batch → ReplaceReady batch.clients budgetBps receive → ∀ key,
      bpsAt receive (replaceDirectionFromPreviousDistribution clients batch.clients budgetBps receive).1 key =
        bpsAt receive batch.clients key * budgetBps.toNat / clientTotal receive batch.clients) ∧
    (∀ a b : UInt64, saturatingMul128 a.toNat b.toNat = a.toNat * b.toNat) := by
  have hraw : (rawRates pendingRaw windowMs).size ≤ u64Limit := by
    have := size_rawRates pendingRaw windowMs
    omega
  refine ⟨?_, reconcileRateDirection_reconciled hclients budgetBps,
    reconcileHighRateSubset_reconciled hlength clients budgetBps, fun hlan htotal => ⟨fun published h => ?_, ?_⟩,
    fun batch hbatch hready key => ?_, fun a b => saturatingMul128_of_le (toNat_lt a).le (toNat_lt b)⟩
  · rw [fallbackRateWindowClients_eq]
    obtain ⟨hexact, hbudget⟩ := @fallbackSteps_spec (rawRates pendingRaw windowMs) fallback (lanBudget lanRaw windowMs)
      hraw (by omega) receive
    refine ⟨hbudget, fun key h => ?_, fun key h => ?_, hexact⟩
    · exact (hexact key).le.trans ((publishedBps_of_scaled (clientTotal_lt hraw)).1 h)
    · exact (hexact key).le.trans ((publishedBps_of_scaled (clientTotal_lt hraw)).2 h)
  · exact alignedHighRateWindow_le hsize hprevious h hlan htotal
  · exact highRateWindow_le hsize hlan htotal
  · rw [replace_eq hready, directionTotal_eq (hprevious batch hbatch)]
    exact bpsAt_assignShares (toNat_lt _)

/-! ### Three clients of one bit -/

/-- Each of three clients sent one byte in eight seconds. -/
def oneByteEach : TreeMap String TrafficCounters :=
  ((∅ : TreeMap String TrafficCounters).insert "a" ⟨1, 0, 0, 0⟩).insert "b" ⟨1, 0, 0, 0⟩ |>.insert "c" ⟨1, 0, 0, 0⟩

def fiveBits : RateMap := (∅ : RateMap).insert "a" ⟨0, 5⟩

/-- A client at 10 Mbit/s and one at 9. -/
def fastClients : RateMap := ((∅ : RateMap).insert "a" ⟨0, 10000000⟩).insert "b" ⟨0, 9000000⟩

/-- Two bits of the LAN for three raw bits: the scaled rates are zero, and the fallback rate fills the whole budget.
An interface of one client is scaled below a client of another interface. -/
theorem rawRate_exceeded :
    bpsAt false (rawRates oneByteEach 8000) "a" = 1 ∧
      bpsAt false (fallbackRateWindowClients oneByteEach fiveBits ⟨0, 2, 0, 0⟩ 8000).1 "a" = 2 ∧
    bpsAt false fastClients "b" < bpsAt false fastClients "a" ∧
      bpsAt false (reconcileHighRateSubset fastClients ["a"] 8000000 false).1 "a" <
        bpsAt false (reconcileHighRateSubset fastClients ["a"] 8000000 false).1 "b" := by
  decide +kernel

theorem published_in_budget_small :
    FallbackInBudget false (rawRates oneByteEach 8000) fiveBits
      (fallbackRateWindowClients oneByteEach fiveBits ⟨0, 2, 0, 0⟩ 8000).1 (lanBudget ⟨0, 2, 0, 0⟩ 8000 false) :=
  (published_in_budget oneByteEach fiveBits ⟨0, 2, 0, 0⟩ ∅ ∅ 8000 none 0 fastClients ["a"] 8000000 false
    (by decide +kernel) (fun _ h => absurd h.symm (Option.some_ne_none _)) (by decide +kernel) (by decide)).1

end Lanspeedd.RateWindow
