import DOpenWrt.Lanspeedd.AggregateTaken

/-!
# Runs of the aggregate

A client that is not there when the table is full never gets in, and one that is there stays. So the flows that find room
are those of the clients at the end.
-/

namespace Lanspeedd

open Std

variable {table : IdentityTable} {nowMs maxClients : Nat} {flows : List FlowSample} {flow : FlowSample}
  {taken : List (FlowSample × OwnedFlow)} {state : AggregateState} {p : FlowSample × OwnedFlow} {key : String}

def isNoLan (table : IdentityTable) (flow : FlowSample) : Bool :=
  match classifyFlowOwnership table flow with
  | .noLan => true
  | _ => false

def isBothLan (table : IdentityTable) (flow : FlowSample) : Bool :=
  match classifyFlowOwnership table flow with
  | .bothLan => true
  | _ => false

/-- The counts of some flows, of which `taken` found room. -/
def statsOf (table : IdentityTable) (flows : List FlowSample) (taken : List (FlowSample × OwnedFlow)) :
    AggregateStats where
  entriesSeen := flows.length
  conntrackIdsPresent := flows.countP fun flow => flow.conntrackId.isSome
  conntrackZonesPresent := flows.countP fun flow => flow.conntrackZone.isSome
  entriesMatched := taken.length
  skippedNoArp := flows.countP (isNoLan table)
  noLanFlows := flows.countP (isNoLan table)
  bothLanFlows := flows.countP (isBothLan table)
  srcLanFlows := taken.countP fun p => p.2.sourceSide
  dstLanFlows := taken.countP fun p => !p.2.sourceSide
  ipv4LanFlows := taken.countP fun p => !p.2.clientIp.isIpv6
  ipv6LanFlows := taken.countP fun p => p.2.clientIp.isIpv6
  clientsDropped := (ownedFlows table flows).length - taken.length

/-- The clients and the index after the flows `taken` found room. -/
structure Taken (taken : List (FlowSample × OwnedFlow)) (state : AggregateState) : Prop where
  clients : ∀ key, state.clients[key]? =
    (ofKey key taken).head?.map fun p => sampleOf p.2.identity state.nowMs (ofKey key taken)
  index : TakenIndex taken state.connectionDetails

/-- An aggregate after the flows `flows`. -/
structure Aggregated (table : IdentityTable) (nowMs maxClients : Nat) (flows : List FlowSample)
    (taken : List (FlowSample × OwnedFlow)) (state : AggregateState) : Prop extends Taken taken state where
  identities : state.identities = table
  now_eq : state.nowMs = nowMs
  max_eq : state.maxClients = maxClients
  stats : state.stats = statsOf table flows taken
  taken_eq : taken = (ownedFlows table flows).filter fun p => state.clients.contains p.2.identity.key
  size_le : state.clients.size ≤ maxClients
  full : ∀ p ∈ ownedFlows table flows, p.2.identity.key ∉ state.clients → maxClients ≤ state.clients.size

/-! ### One flow -/

theorem Taken.concat (h : Taken taken state) (hle : taken.length < u64Max) (p : FlowSample × OwnedFlow)
    (stats : AggregateStats) :
    Taken (taken ++ [p]) { state with
      clients := state.clients.insert p.2.identity.key ((state.clientEntry p.2).take state.nowMs p)
      connectionDetails := state.connectionDetails.take p
      stats := stats } where
  clients key := by
    show (state.clients.insert _ _)[key]? = _
    by_cases hkey : p.2.identity.key = key
    · subst hkey
      have hold := h.clients p.2.identity.key
      unfold AggregateState.clientEntry
      rw [TreeMap.getElem?_insert_self, ofKey_concat_self, TreeMap.getD_eq_getD_getElem?, hold, List.head?_append]
      cases (ofKey p.2.identity.key taken) with
      | nil => exact congrArg some (sampleOf_concat p.2.identity state.nowMs [] p).symm
      | cons q rest => exact congrArg some (sampleOf_concat q.2.identity state.nowMs (q :: rest) p).symm
    · rw [TreeMap.getElem?_insert, if_neg fun heq => hkey (LawfulEqOrd.eq_of_compare heq), ofKey_concat_of_ne taken hkey]
      exact h.clients key
  index := h.index.concat hle p

theorem ownedFlow_eq_none : ownedFlow table flow = none ↔ isNoLan table flow = true ∨ isBothLan table flow = true := by
  unfold ownedFlow isNoLan isBothLan
  cases classifyFlowOwnership table flow with
  | bothLan => exact iff_of_true rfl (.inr rfl)
  | noLan => exact iff_of_true rfl (.inl rfl)
  | owned owned => exact iff_of_false (fun h => by cases h) fun h => h.elim Bool.false_ne_true Bool.false_ne_true

/-- Every flow has an owner, or none, or two. -/
theorem length_eq (table : IdentityTable) (flows : List FlowSample) :
    flows.length = (ownedFlows table flows).length + flows.countP (isNoLan table) + flows.countP (isBothLan table) := by
  induction flows with
  | nil => rfl
  | cons flow flows ih =>
    unfold ownedFlows isNoLan isBothLan at *
    rw [List.length_cons, ih, List.filterMap_cons, List.countP_cons, List.countP_cons]
    unfold ownedFlow
    cases classifyFlowOwnership table flow with
    | bothLan => simp only [Bool.false_eq_true, if_false, if_true]; omega
    | noLan => simp only [Bool.false_eq_true, if_false, if_true]; omega
    | owned owned => simp only [Bool.false_eq_true, if_false, List.length_cons]; omega

theorem countP_concat (counted : FlowSample → Bool) (flows : List FlowSample) (flow : FlowSample) :
    (flows ++ [flow]).countP counted = if counted flow then flows.countP counted + 1 else flows.countP counted := by
  rw [List.countP_append, List.countP_singleton]
  split_ifs <;> rfl

/-- The count of a list below the limit goes up by one. -/
theorem saturatingAdd_countP {α : Type*} (counted : α → Bool) {list : List α} (h : list.length < u64Max) :
    saturatingAdd (list.countP counted) 1 = list.countP counted + 1 :=
  saturatingAdd_one (List.countP_le_length.trans_lt h)

theorem countEntry_statsOf (h : flows.length < u64Max) (flow : FlowSample) :
    AggregateState.countEntry (statsOf table flows taken) flow =
      { statsOf table flows taken with
        entriesSeen := flows.length + 1
        conntrackIdsPresent := (flows ++ [flow]).countP fun flow => flow.conntrackId.isSome
        conntrackZonesPresent := (flows ++ [flow]).countP fun flow => flow.conntrackZone.isSome } := by
  unfold AggregateState.countEntry statsOf
  dsimp only
  rw [saturatingAdd_one h, saturatingAdd_countP _ h, saturatingAdd_countP _ h, countP_concat, countP_concat]

theorem statsOf_noLan (h : flows.length < u64Max) (hflow : classifyFlowOwnership table flow = .noLan) :
    { AggregateState.countEntry (statsOf table flows taken) flow with
      skippedNoArp := saturatingAdd (AggregateState.countEntry (statsOf table flows taken) flow).skippedNoArp 1
      noLanFlows := saturatingAdd (AggregateState.countEntry (statsOf table flows taken) flow).noLanFlows 1 } =
      statsOf table (flows ++ [flow]) taken := by
  have hno : isNoLan table flow = true := by
    unfold isNoLan
    rw [hflow]
  have hboth : isBothLan table flow = false := by
    unfold isBothLan
    rw [hflow]
  rw [countEntry_statsOf h]
  unfold statsOf
  dsimp only
  rw [saturatingAdd_countP _ h, countP_concat (isNoLan table), countP_concat (isBothLan table), if_pos hno, hboth,
    if_neg Bool.false_ne_true, ownedFlows_concat_none (ownedFlow_eq_none.2 (.inl hno)), List.length_append,
    List.length_singleton]

theorem statsOf_bothLan (h : flows.length < u64Max) (hflow : classifyFlowOwnership table flow = .bothLan) :
    { AggregateState.countEntry (statsOf table flows taken) flow with
      bothLanFlows := saturatingAdd (AggregateState.countEntry (statsOf table flows taken) flow).bothLanFlows 1 } =
      statsOf table (flows ++ [flow]) taken := by
  have hno : isNoLan table flow = false := by
    unfold isNoLan
    rw [hflow]
  have hboth : isBothLan table flow = true := by
    unfold isBothLan
    rw [hflow]
  rw [countEntry_statsOf h]
  unfold statsOf
  dsimp only
  rw [saturatingAdd_countP _ h, countP_concat (isNoLan table), countP_concat (isBothLan table), if_pos hboth, hno,
    if_neg Bool.false_ne_true, ownedFlows_concat_none (ownedFlow_eq_none.2 (.inr hboth)), List.length_append,
    List.length_singleton]

theorem owned_flags (h : ownedFlow table flow = some p) : isNoLan table flow = false ∧ isBothLan table flow = false := by
  unfold isNoLan isBothLan
  rw [(ownedFlow_eq_some.1 h).2]
  exact ⟨rfl, rfl⟩

theorem length_ownedFlows_le (table : IdentityTable) (flows : List FlowSample) :
    (ownedFlows table flows).length ≤ flows.length := List.length_filterMap_le _ _

theorem statsOf_dropped (h : flows.length < u64Max) (hp : ownedFlow table flow = some p)
    (hle : taken.length ≤ (ownedFlows table flows).length) :
    { AggregateState.countEntry (statsOf table flows taken) flow with
      clientsDropped := saturatingAdd (AggregateState.countEntry (statsOf table flows taken) flow).clientsDropped 1 } =
      statsOf table (flows ++ [flow]) taken := by
  have howned := length_ownedFlows_le table flows
  have hflags := owned_flags hp
  rw [countEntry_statsOf h]
  unfold statsOf
  dsimp only
  rw [saturatingAdd_one (by omega), countP_concat (isNoLan table), countP_concat (isBothLan table), hflags.1, hflags.2,
    if_neg Bool.false_ne_true, if_neg Bool.false_ne_true, ownedFlows_concat hp, List.length_append, List.length_append,
    List.length_singleton, List.length_singleton, Nat.sub_add_comm hle]

theorem statsOf_taken (h : flows.length < u64Max) (hp : ownedFlow table flow = some p)
    (hle : taken.length ≤ (ownedFlows table flows).length) :
    AggregateState.countOwned (AggregateState.countEntry (statsOf table flows taken) flow) p.2 =
      statsOf table (flows ++ [flow]) (taken ++ [p]) := by
  have hlt : taken.length < u64Max := (hle.trans (length_ownedFlows_le table flows)).trans_lt h
  have hflags := owned_flags hp
  rw [countEntry_statsOf h]
  unfold statsOf AggregateState.countOwned
  dsimp only
  rw [saturatingAdd_one hlt, saturatingAdd_countP _ hlt, saturatingAdd_countP _ hlt, countP_concat (isNoLan table),
    countP_concat (isBothLan table), hflags.1, hflags.2, if_neg Bool.false_ne_true, if_neg Bool.false_ne_true,
    ownedFlows_concat hp]
  simp only [List.length_append, List.length_singleton, List.countP_append, List.countP_singleton,
    Nat.add_sub_add_right]
  cases p.2.sourceSide <;> cases p.2.clientIp.isIpv6 <;> simp [saturatingAdd_countP _ hlt]

namespace Aggregated

theorem new (table : IdentityTable) (nowMs maxClients : Nat) :
    Aggregated table nowMs maxClients [] [] (.new table nowMs maxClients) where
  clients _ := TreeMap.getElem?_emptyc
  index :=
    { mem_sets := fun _ => iff_of_false TreeMap.not_mem_emptyc (Nat.lt_irrefl 0)
      set := fun _ => ⟨rfl, Nat.zero_le _, .slnil, fun h => absurd h Bool.false_ne_true⟩
      stored := rfl
      stored_le := Nat.zero_le _
      stored_le_details := Nat.zero_le _
      full := fun _ _ => rfl
      counters := fun _ => TreeMap.getElem?_emptyc }
  identities := rfl
  now_eq := rfl
  max_eq := rfl
  stats := rfl
  taken_eq := rfl
  size_le := Nat.zero_le _
  full _ h := absurd h List.not_mem_nil

theorem length_taken_le (h : Aggregated table nowMs maxClients flows taken state) :
    taken.length ≤ (ownedFlows table flows).length := by
  rw [h.taken_eq]
  exact List.length_filter_le _ _

/-- A flow that no client is charged with. -/
theorem push_none (h : Aggregated table nowMs maxClients flows taken state) (hlt : flows.length < u64Max)
    (hnone : ownedFlow table flow = none) :
    Aggregated table nowMs maxClients (flows ++ [flow]) taken (state.push flow) := by
  have hpush : ∃ stats, state.push flow = { state with stats } ∧ stats = statsOf table (flows ++ [flow]) taken := by
    unfold AggregateState.push
    rw [h.stats]
    dsimp only
    rw [h.identities]
    cases hflow : classifyFlowOwnership table flow with
    | bothLan => exact ⟨_, rfl, statsOf_bothLan hlt hflow⟩
    | noLan => exact ⟨_, rfl, statsOf_noLan hlt hflow⟩
    | owned owned =>
      unfold ownedFlow at hnone
      rw [hflow] at hnone
      cases hnone
  obtain ⟨stats, heq, hstats⟩ := hpush
  rw [heq]
  refine ⟨⟨h.clients, h.index⟩, h.identities, h.now_eq, h.max_eq, hstats, ?_, h.size_le, ?_⟩
  · rw [ownedFlows_concat_none hnone]
    exact h.taken_eq
  · rw [ownedFlows_concat_none hnone]
    exact h.full

theorem push_owned (h : Aggregated table nowMs maxClients flows taken state) (hp : ownedFlow table flow = some p) :
    state.push flow = { state with stats := AggregateState.countEntry state.stats flow }.pushOwned p.1 p.2 := by
  obtain ⟨rfl, howned⟩ := ownedFlow_eq_some.1 hp
  unfold AggregateState.push
  dsimp only
  rw [h.identities, howned]

/-- A flow of a client that there is no room for. -/
theorem push_dropped (h : Aggregated table nowMs maxClients flows taken state) (hlt : flows.length < u64Max)
    (hp : ownedFlow table flow = some p) (hkey : p.2.identity.key ∉ state.clients)
    (hsize : maxClients ≤ state.clients.size) :
    Aggregated table nowMs maxClients (flows ++ [flow]) taken (state.push flow) := by
  rw [h.push_owned hp, @AggregateState.pushOwned_dropped p
    { state with stats := AggregateState.countEntry state.stats flow } ⟨hkey, h.max_eq.trans_le hsize⟩]
  refine ⟨⟨h.clients, h.index⟩, h.identities, h.now_eq, h.max_eq, ?_, ?_, h.size_le, ?_⟩
  · dsimp only
    rw [h.stats]
    exact statsOf_dropped hlt hp h.length_taken_le
  · have hnil : [p].filter (fun p => state.clients.contains p.2.identity.key) = [] := List.filter_cons_of_neg hkey
    rw [ownedFlows_concat hp, List.filter_append]
    dsimp only
    rw [hnil, List.append_nil]
    exact h.taken_eq
  · intro q _ _
    exact hsize

/-- A flow that finds room. -/
theorem push_taken (h : Aggregated table nowMs maxClients flows taken state) (hlt : flows.length < u64Max)
    (hp : ownedFlow table flow = some p) (hroom : p.2.identity.key ∈ state.clients ∨ state.clients.size < maxClients) :
    Aggregated table nowMs maxClients (flows ++ [flow]) (taken ++ [p]) (state.push flow) := by
  have htaken : taken.length < u64Max :=
    (h.length_taken_le.trans (length_ownedFlows_le table flows)).trans_lt hlt
  rw [h.push_owned hp, @AggregateState.pushOwned_taken p
    { state with stats := AggregateState.countEntry state.stats flow } (hroom.imp_right (h.max_eq.symm ▸ ·))]
  have hstep := h.toTaken.concat htaken p (AggregateState.countOwned (AggregateState.countEntry state.stats flow) p.2)
  refine ⟨⟨hstep.clients, hstep.index⟩, h.identities, h.now_eq, h.max_eq, ?_, ?_, ?_, ?_⟩
  · dsimp only
    rw [h.stats]
    exact statsOf_taken hlt hp h.length_taken_le
  · have hself : (state.clients.insert p.2.identity.key ((state.clientEntry p.2).take state.nowMs p)).contains
        p.2.identity.key = true := TreeMap.contains_insert_self
    have hlast : [p].filter (fun q => (state.clients.insert p.2.identity.key
        ((state.clientEntry p.2).take state.nowMs p)).contains q.2.identity.key) = [p] := List.filter_cons_of_pos hself
    rw [ownedFlows_concat hp, List.filter_append]
    refine (congrArg (· ++ [p]) (h.taken_eq.trans (List.filter_congr fun q hq => ?_))).trans
      (congrArg (_ ++ ·) hlast.symm)
    -- a new key is new to all flows so far
    show _ = (state.clients.insert p.2.identity.key ((state.clientEntry p.2).take state.nowMs p)).contains _
    rw [TreeMap.contains_insert]
    cases hcompare : compare p.2.identity.key q.2.identity.key == .eq with
    | false => exact (Bool.false_or _).symm
    | true =>
      have hkeys := LawfulEqOrd.eq_of_compare (eq_of_beq hcompare)
      rw [Bool.true_or]
      by_contra hcontains
      have hnot : q.2.identity.key ∉ state.clients := hcontains
      have hsize := h.full q hq hnot
      rcases hroom with hroom | hroom
      · exact hnot (hkeys ▸ hroom)
      · omega
  · show (state.clients.insert _ _).size ≤ maxClients
    have hsize := h.size_le
    rw [TreeMap.size_insert]
    split_ifs with hcontains
    · exact hsize
    · rcases hroom with hroom | hroom
      · exact absurd hroom hcontains
      · exact hroom
  · intro q hq hnot
    have hnot : q.2.identity.key ∉
      state.clients.insert p.2.identity.key ((state.clientEntry p.2).take state.nowMs p) := hnot
    rw [TreeMap.mem_insert, not_or] at hnot
    rw [ownedFlows_concat hp, List.mem_append, List.mem_singleton] at hq
    rcases hq with hq | rfl
    · exact (h.full q hq hnot.2).trans TreeMap.size_le_size_insert
    · exact absurd ReflOrd.compare_self hnot.1

theorem push (h : Aggregated table nowMs maxClients flows taken state) (hlt : flows.length < u64Max)
    (flow : FlowSample) : ∃ taken, Aggregated table nowMs maxClients (flows ++ [flow]) taken (state.push flow) := by
  cases hp : ownedFlow table flow with
  | none => exact ⟨taken, h.push_none hlt hp⟩
  | some p =>
    by_cases hroom : p.2.identity.key ∈ state.clients ∨ state.clients.size < maxClients
    · exact ⟨taken ++ [p], h.push_taken hlt hp hroom⟩
    · rw [not_or] at hroom
      exact ⟨taken, h.push_dropped hlt hp hroom.1 (Nat.le_of_not_lt hroom.2)⟩

end Aggregated

theorem aggregated (table : IdentityTable) (nowMs maxClients : Nat) {flows : List FlowSample}
    (h : flows.length ≤ u64Max) :
    ∃ taken, Aggregated table nowMs maxClients flows taken (flows.foldl .push (.new table nowMs maxClients)) := by
  induction flows using List.reverseRecOn with
  | nil => exact ⟨[], .new table nowMs maxClients⟩
  | append_singleton flows flow ih =>
    rw [List.length_append, List.length_singleton] at h
    obtain ⟨taken, ih⟩ := ih (Nat.le_of_succ_le h)
    rw [List.foldl_append]
    exact ih.push h flow

end Lanspeedd
