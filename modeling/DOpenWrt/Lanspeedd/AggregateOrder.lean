import DOpenWrt.Lanspeedd.AggregateRun

/-!
# The order of the flows

What the aggregate holds at the end depends on the order of the flows through the clients that are dropped, the details
that find no room and the counters of the flows with one rate key.
-/

namespace Lanspeedd

open Std

attribute [local instance] lexOrd

/-! ### The identity table -/

/-- The clients of an identity table, one for each key. -/
structure IdentityClients where
  clients : List ClientIdentity
  mac_length : ∀ c ∈ clients, c.mac.length = 17
  keys : (clients.map fun c => (c.mac, c.zone)).Nodup

/-- `by_ip`: the first client with the text of the address, unless the policy excludes it. -/
def IdentityClients.table (identities : IdentityClients) (text : IpAddr → String) (excluded : String → Bool) :
    IdentityTable where
  byIp ip := if excluded (text ip) then none else identities.clients.find? fun c => text ip ∈ c.ips

variable {identities : IdentityClients} {text : IpAddr → String} {excluded : String → Bool}

theorem IdentityClients.byIp_mem {ip : IpAddr} {identity : ClientIdentity}
    (h : (identities.table text excluded).byIp ip = some identity) : identity ∈ identities.clients := by
  change (if excluded (text ip) then none else _) = _ at h
  split_ifs at h
  exact List.mem_of_find?_eq_some h

/-- The text of a key is the address and the zone, as all addresses have one length. -/
theorem IdentityClients.eq_of_key {c d : ClientIdentity} (hc : c ∈ identities.clients) (hd : d ∈ identities.clients)
    (hkey : c.key = d.key) : c = d := by
  have htext : c.mac.toList ++ ("@".toList ++ c.zone.toList) = d.mac.toList ++ ("@".toList ++ d.zone.toList) := by
    have h := congrArg String.toList hkey
    unfold ClientIdentity.key at h
    rwa [String.toList_append, String.toList_append, String.toList_append, String.toList_append, List.append_assoc,
      List.append_assoc] at h
  have hlength : c.mac.toList.length = d.mac.toList.length := by
    rw [String.length_toList, String.length_toList, identities.mac_length c hc, identities.mac_length d hd]
  obtain ⟨hmac, hrest⟩ := List.append_inj htext hlength
  have hzone := List.append_cancel_left hrest
  exact List.inj_on_of_nodup_map identities.keys hc hd
    (Prod.ext (String.toList_injective hmac) (String.toList_injective hzone))

/-! ### Sorted details -/

theorem protocolRank_injective : Function.Injective protocolRank := by
  rintro (_ | _) (_ | _) h
  · rfl
  · cases h
  · cases h
  · rfl

theorem directionRank_injective : Function.Injective directionRank := by
  rintro (_ | _) (_ | _) h
  · rfl
  · cases h
  · cases h
  · rfl

namespace ClientConnectionDetail

def rank (detail : ClientConnectionDetail) : IpAddr × BitVec 16 × Nat × IpAddr × BitVec 16 × Nat :=
  (detail.remoteIp, detail.remotePort, protocolRank detail.protocol, detail.clientIp, detail.clientPort,
    directionRank detail.direction)

/-- A detail of a flow has the state of its protocol and no rates yet. -/
def Fresh (detail : ClientConnectionDetail) : Prop :=
  detail.state = (match detail.protocol with | .tcp => .established | .udp => .assured) ∧
    detail.txBps = 0 ∧ detail.rxBps = 0

theorem rank_injective {a b : ClientConnectionDetail} (ha : a.Fresh) (hb : b.Fresh) (h : a.rank = b.rank) : a = b := by
  obtain ⟨a1, a2, a3, a4, a5, a6, a7, a8, a9⟩ := a
  obtain ⟨b1, b2, b3, b4, b5, b6, b7, b8, b9⟩ := b
  obtain ⟨hstate, htx, hrx⟩ := ha
  obtain ⟨hstate', htx', hrx'⟩ := hb
  injection h with hremote h
  injection h with hport h
  injection h with hprotocol h
  injection h with hclient h
  injection h with hclientPort hdirection
  have hprotocol := protocolRank_injective hprotocol
  have hdirection := directionRank_injective hdirection
  dsimp only at *
  subst hremote hport hclient hclientPort hprotocol hdirection
  rw [hstate, hstate', htx, htx', hrx, hrx']

end ClientConnectionDetail

theorem compareIp_eq (a b : IpAddr) : compareIp a b = compare a b := by
  cases a <;> cases b
  · exact Ordering.then_eq.symm
  · rfl
  · rfl
  · exact Ordering.then_eq.symm

theorem compareConnectionDetails_rank (a b : ClientConnectionDetail) :
    compareConnectionDetails a b = compare a.rank b.rank := by
  unfold compareConnectionDetails
  rw [compareIp_eq, compareIp_eq]
  rfl

def sortDetails (details : List ClientConnectionDetail) : List ClientConnectionDetail :=
  details.mergeSort fun left right => (compareConnectionDetails left right).isLE

theorem sortDetails_pairwise (details : List ClientConnectionDetail) :
    (sortDetails details).Pairwise fun a b => (compareConnectionDetails a b).isLE = true := by
  refine List.pairwise_mergeSort (fun a b c hab hbc => ?_) (fun a b => ?_) details
  · rw [compareConnectionDetails_rank] at *
    exact TransOrd.isLE_trans hab hbc
  · rw [compareConnectionDetails_rank, compareConnectionDetails_rank, OrientedOrd.eq_swap, Bool.or_eq_true]
    cases compare b.rank a.rank
    · exact .inr rfl
    · exact .inl rfl
    · exact .inl rfl

/-- Equal details are the same, so that the sorted list is a function of the multiset. -/
theorem sortDetails_perm {a b : List ClientConnectionDetail} (hfresh : ∀ d ∈ a, d.Fresh) (h : a.Perm b) :
    sortDetails a = sortDetails b := by
  refine ((List.mergeSort_perm _ _).trans (h.trans (List.mergeSort_perm _ _).symm)).eq_of_pairwise ?_
    (sortDetails_pairwise a) (sortDetails_pairwise b)
  intro c d hc hd hcd hdc
  have hca : c ∈ a := (List.mergeSort_perm _ _).mem_iff.1 hc
  have hda : d ∈ a := h.mem_iff.2 ((List.mergeSort_perm _ _).mem_iff.1 hd)
  rw [compareConnectionDetails_rank] at hcd hdc
  exact ClientConnectionDetail.rank_injective (hfresh c hca) (hfresh d hda)
    (LawfulEqOrd.eq_of_compare (OrientedCmp.isLE_antisymm hcd hdc))

/-! ### What is conserved -/

/-- The set of details of a client; there is none before its first connection. -/
def AggregateSnapshot.detailsOf (snapshot : AggregateSnapshot) (key : String) : ClientConnectionSet :=
  snapshot.connectionDetails.getD key ⟨0, [], false⟩

/-- The counters hold what is counted. -/
structure Unsaturated (table : IdentityTable) (flows : List FlowSample) (snapshot : AggregateSnapshot) : Prop where
  entries : flows.length ≤ u64Max
  sent : ∀ c ∈ snapshot.clients,
    ((ofKey c.identityKey (ownedFlows table flows)).map fun p => (sentBytes p).toNat).sum ≤ u64Max
  received : ∀ c ∈ snapshot.clients,
    ((ofKey c.identityKey (ownedFlows table flows)).map fun p => (receivedBytes p).toNat).sum ≤ u64Max
  tcp : ∀ c ∈ snapshot.clients, (ofKey c.identityKey (ownedFlows table flows)).countP (qualifiedAs .tcp) ≤ u32Max
  udp : ∀ c ∈ snapshot.clients, (ofKey c.identityKey (ownedFlows table flows)).countP (qualifiedAs .udp) ≤ u32Max

/-- A client has the bytes and the connections of the flows `flows`. -/
structure ClientConserved (flows : List (FlowSample × OwnedFlow)) (client : ClientSample) (details : ClientConnectionSet) :
    Prop where
  tx : client.txBytes.toNat = (flows.map fun p => (sentBytes p).toNat).sum
  rx : client.rxBytes.toNat = (flows.map fun p => (receivedBytes p).toNat).sum
  udp : client.udpConns = client.udpDnsConns + client.udpOtherConns
  total : client.tcpConns + client.udpConns = details.totalConnections

structure Conserved (table : IdentityTable) (maxClients : Nat) (flows : List FlowSample) (snapshot : AggregateSnapshot) :
    Prop where
  entries : snapshot.stats.entriesSeen = snapshot.stats.entriesMatched + snapshot.stats.noLanFlows +
    snapshot.stats.bothLanFlows + snapshot.stats.clientsDropped
  sides : snapshot.stats.entriesMatched = snapshot.stats.srcLanFlows + snapshot.stats.dstLanFlows
  families : snapshot.stats.entriesMatched = snapshot.stats.ipv4LanFlows + snapshot.stats.ipv6LanFlows
  clients_le : snapshot.clients.length ≤ maxClients
  client : ∀ c ∈ snapshot.clients,
    ClientConserved (ofKey c.identityKey (ownedFlows table flows)) c (snapshot.detailsOf c.identityKey)
  set : ∀ (key : String) (set : ClientConnectionSet), snapshot.connectionDetails[key]? = some set →
    set.connections.length ≤ maxClientConnectionDetails ∧
      (set.truncated = true ↔ set.connections.length < set.totalConnections)
  stored : (snapshot.connectionDetails.toList.map fun s => s.2.connections.length).sum ≤ maxStoredConnectionDetails

/-- Two snapshots that may differ in the counters of rate keys with more than one flow. -/
structure SameButShared (table : IdentityTable) (flows : List FlowSample) (a b : AggregateSnapshot) : Prop where
  clients : a.clients = b.clients
  stats : a.stats = b.stats
  sampleMs : a.sampleMs = b.sampleMs
  connectionDetails : a.connectionDetails.toList = b.connectionDetails.toList
  connectionCounters : ∀ key, (ownedFlows table flows).countP (fun p => rateKey p = key) ≤ 1 →
    a.connectionCounters[key]? = b.connectionCounters[key]?

variable {table : IdentityTable} {nowMs maxClients : Nat} {flows flows' : List FlowSample}
  {taken : List (FlowSample × OwnedFlow)} {state : AggregateState} {p : FlowSample × OwnedFlow} {key : String}

/-- What a flow carries is sent by its source, which the owner is as the source of the original direction or the
destination of the reply. -/
theorem ownedFlows_sides (h : p ∈ ownedFlows table flows) :
    p.1 ∈ flows ∧ table.byIp p.2.clientIp = some p.2.identity ∧
      (sentBytes p = p.1.origBytes ∧ receivedBytes p = p.1.replyBytes ∧
          (p.1.origSrc = some p.2.clientIp ∨ p.1.replyDst = some p.2.clientIp) ∨
        sentBytes p = p.1.replyBytes ∧ receivedBytes p = p.1.origBytes ∧
          (p.1.origDst = some p.2.clientIp ∨ p.1.replySrc = some p.2.clientIp)) := by
  obtain ⟨flow, hflow, hp⟩ := List.mem_filterMap.1 h
  obtain ⟨rfl, howned⟩ := ownedFlow_eq_some.1 hp
  obtain ⟨hip, hside⟩ := classifyFlowOwnership_owned howned
  refine ⟨hflow, hip, ?_⟩
  unfold sentBytes receivedBytes
  rcases hside with ⟨hside, hat⟩ | ⟨hside, hat⟩
  · rw [hside]
    exact .inl ⟨rfl, rfl, hat⟩
  · rw [hside]
    exact .inr ⟨rfl, rfl, hat⟩

theorem values_eq_map {α β : Type} [Ord α] [TransOrd α] (map : TreeMap α β) :
    map.values = map.toList.map fun p => p.2 := by
  have hfoldr : map.values = map.foldr (fun _ value values => value :: values) [] := rfl
  rw [hfoldr, TreeMap.foldr_eq_foldr_toList, List.map_eq_foldr]

theorem mem_values {α β : Type} [Ord α] [TransOrd α] [LawfulEqOrd α] {map : TreeMap α β} {value : β} :
    value ∈ map.values ↔ ∃ key : α, map[key]? = some value := by
  rw [values_eq_map, List.mem_map]
  constructor
  · rintro ⟨⟨key, v⟩, hmem, rfl⟩
    exact ⟨key, TreeMap.mem_toList_iff_getElem?_eq_some.1 hmem⟩
  · rintro ⟨key, hkey⟩
    exact ⟨(key, value), TreeMap.mem_toList_iff_getElem?_eq_some.2 hkey, rfl⟩

theorem saturated64_toNat {bytes : FlowSample × OwnedFlow → BitVec 64}
    (h : (taken.map fun p => (bytes p).toNat).sum ≤ u64Max) :
    (saturated64 bytes taken).toNat = (taken.map fun p => (bytes p).toNat).sum := by
  unfold saturated64
  rw [BitVec.toNat_ofNat, Nat.min_eq_left h]
  exact Nat.mod_eq_of_lt (by unfold u64Max at h; omega)

theorem saturated32_eq {counted : FlowSample × OwnedFlow → Bool} (h : taken.countP counted ≤ u32Max) :
    saturated32 counted taken = taken.countP counted := Nat.min_eq_left h

theorem countP_udp (flows : List (FlowSample × OwnedFlow)) :
    flows.countP (fun p => qualifiedAs .udp p && p.1.isDns) + flows.countP (fun p => qualifiedAs .udp p && !p.1.isDns) =
      flows.countP (qualifiedAs .udp) := by
  induction flows with
  | nil => rfl
  | cons p flows ih =>
    rw [List.countP_cons, List.countP_cons, List.countP_cons, ← ih]
    cases qualifiedAs .udp p <;> cases p.1.isDns <;> simp <;> omega

theorem countP_qualified (flows : List (FlowSample × OwnedFlow)) :
    flows.countP (qualifiedAs .tcp) + flows.countP (qualifiedAs .udp) = flows.countP qualified := by
  induction flows with
  | nil => rfl
  | cons p flows ih =>
    rw [List.countP_cons, List.countP_cons, List.countP_cons, ← ih]
    unfold qualifiedAs qualified
    rcases classifyConnection p.1 with _ | ⟨_ | _, _⟩ <;> simp <;> omega

/-! ### The end of a run -/

theorem flowDetail_fresh {detail : ClientConnectionDetail} (h : flowDetail p = some detail) : detail.Fresh := by
  obtain ⟨⟨protocol, connectionState⟩, hq, hdetail⟩ := Option.bind_eq_some_iff.1 h
  obtain ⟨remoteIp, -, rfl⟩ := Option.map_eq_some_iff.1 hdetail
  refine ⟨?_, rfl, rfl⟩
  unfold classifyConnection at hq
  split at hq
  · split_ifs at hq
    cases hq
    rfl
  · split_ifs at hq
    cases hq
    rfl
  · cases hq

theorem finishSet_truncated {set : ClientConnectionSet} (h : DetailSet taken set) :
    (ConnectionDetailsIndex.finishSet set).truncated = true ↔ set.connections.length < set.totalConnections := by
  have hle := h.length_le_total
  show (set.truncated || decide ((sortDetails set.connections).length ≠ set.totalConnections)) = true ↔ _
  rw [Bool.or_eq_true, decide_eq_true_eq, sortDetails, List.length_mergeSort]
  constructor
  · rintro (htruncated | hne)
    · exact h.truncated htruncated
    · omega
  · intro hlt
    exact .inr (by omega)

theorem finishSet_length (set : ClientConnectionSet) :
    (ConnectionDetailsIndex.finishSet set).connections.length = set.connections.length := List.length_mergeSort _

theorem set_of_getElem? {index : ConnectionDetailsIndex} {set : ClientConnectionSet} (h : index.sets[key]? = some set) :
    index.set key = set := by
  unfold ConnectionDetailsIndex.set
  rw [TreeMap.getD_eq_getD_getElem?, h]
  rfl

theorem getElem?_finish (state : AggregateState) (key : String) : state.finish.connectionDetails[key]? =
    state.connectionDetails.sets[key]?.map ConnectionDetailsIndex.finishSet := TreeMap.getElem?_map

theorem detailsOf_finish (state : AggregateState) (key : String) :
    (state.finish.detailsOf key).totalConnections = (state.connectionDetails.set key).totalConnections := by
  unfold AggregateSnapshot.detailsOf ConnectionDetailsIndex.set
  rw [TreeMap.getD_eq_getD_getElem?, TreeMap.getD_eq_getD_getElem?, getElem?_finish]
  cases state.connectionDetails.sets[key]? <;> rfl

namespace Aggregated

theorem ofKey_taken (h : Aggregated table nowMs maxClients flows taken state) (hkey : key ∈ state.clients) :
    ofKey key taken = ofKey key (ownedFlows table flows) := by
  unfold ofKey
  rw [h.taken_eq, List.filter_filter]
  refine List.filter_congr fun p _ => ?_
  by_cases hp : p.2.identity.key = key
  · rw [decide_eq_true hp, hp]
    exact hkey
  · rw [decide_eq_false hp]
    rfl

/-- A client at the end is the sample of all flows it owns. -/
theorem client_eq (h : Aggregated table nowMs maxClients flows taken state) {client : ClientSample}
    (hclient : client ∈ state.finish.clients) :
    ∃ p ∈ ofKey client.identityKey (ownedFlows table flows), client.identityKey ∈ state.clients ∧
      client = sampleOf p.2.identity nowMs (ofKey client.identityKey (ownedFlows table flows)) := by
  obtain ⟨key, hkey⟩ := mem_values.1 hclient
  have hmem : key ∈ state.clients := TreeMap.mem_iff_isSome_getElem?.2 (by rw [hkey]; rfl)
  have hsample := h.clients key
  rw [hkey, h.ofKey_taken hmem, h.now_eq] at hsample
  obtain ⟨p, hp, hsample⟩ := Option.map_eq_some_iff.1 hsample.symm
  have hpkey := List.mem_of_mem_head? hp
  have hidentity : client.identityKey = key := by
    rw [← hsample]
    exact (mem_ofKey.1 hpkey).2
  rw [hidentity]
  exact ⟨p, hpkey, hmem, hsample.symm⟩

theorem conserved (h : Aggregated table nowMs maxClients flows taken state)
    (hcounters : Unsaturated table flows state.finish) : Conserved table maxClients flows state.finish where
  entries := by
    have hlength := length_eq table flows
    have htaken := h.length_taken_le
    show state.stats.entriesSeen = state.stats.entriesMatched + state.stats.noLanFlows + state.stats.bothLanFlows +
      state.stats.clientsDropped
    rw [h.stats]
    unfold statsOf
    dsimp only
    omega
  sides := by
    show state.stats.entriesMatched = state.stats.srcLanFlows + state.stats.dstLanFlows
    rw [h.stats]
    exact List.length_eq_countP_add_countP (fun p => p.2.sourceSide) |>.trans (by simp [statsOf])
  families := by
    show state.stats.entriesMatched = state.stats.ipv4LanFlows + state.stats.ipv6LanFlows
    rw [h.stats, Nat.add_comm]
    exact List.length_eq_countP_add_countP (fun p => p.2.clientIp.isIpv6) |>.trans (by simp [statsOf])
  clients_le := by
    show state.clients.values.length ≤ maxClients
    rw [values_eq_map, List.length_map, TreeMap.length_toList]
    exact h.size_le
  client c hc := by
    obtain ⟨p, hp, hmem, hsample⟩ := h.client_eq hc
    have hset := h.index.set c.identityKey
    rw [h.ofKey_taken hmem] at hset
    have htcp := hcounters.tcp c hc
    have hudp := hcounters.udp c hc
    have hsum := countP_udp (ofKey c.identityKey (ownedFlows table flows))
    have htotal := countP_qualified (ofKey c.identityKey (ownedFlows table flows))
    have htxBytes := congrArg (fun c => c.txBytes.toNat) hsample
    have hrxBytes := congrArg (fun c => c.rxBytes.toNat) hsample
    have htcpConns := congrArg ClientSample.tcpConns hsample
    have hudpConns := congrArg ClientSample.udpConns hsample
    have hdnsConns := congrArg ClientSample.udpDnsConns hsample
    have hotherConns := congrArg ClientSample.udpOtherConns hsample
    refine ⟨htxBytes.trans (saturated64_toNat (hcounters.sent c hc)),
      hrxBytes.trans (saturated64_toNat (hcounters.received c hc)), ?_, ?_⟩
    · rw [hudpConns, hdnsConns, hotherConns]
      show saturated32 _ _ = saturated32 _ _ + saturated32 _ _
      rw [saturated32_eq hudp, saturated32_eq (by omega), saturated32_eq (by omega), hsum]
    · rw [detailsOf_finish, hset.total, ← htotal, htcpConns, hudpConns]
      show saturated32 _ _ + saturated32 _ _ = _
      rw [saturated32_eq hudp, saturated32_eq htcp]
  set key set hset := by
    rw [getElem?_finish] at hset
    obtain ⟨old, hold, rfl⟩ := Option.map_eq_some_iff.1 hset
    have hdetails := h.index.set key
    rw [set_of_getElem? hold] at hdetails
    rw [finishSet_length]
    exact ⟨hdetails.length_le, finishSet_truncated hdetails⟩
  stored := by
    show ((state.connectionDetails.sets.map fun _ => ConnectionDetailsIndex.finishSet).toList.map _).sum ≤ _
    rw [TreeMap.toList_map, List.map_map]
    have hlength : ((fun s : String × ClientConnectionSet => s.2.connections.length) ∘
        fun s : String × ClientConnectionSet => (s.1, ConnectionDetailsIndex.finishSet s.2)) =
        fun s : String × ClientConnectionSet => s.2.connections.length :=
      funext fun s => finishSet_length s.2
    rw [hlength, h.index.stored]
    exact h.index.stored_le

end Aggregated

/-! ### Any order -/

/-- The keys of the clients that own some of the flows. -/
def ownerKeys (table : IdentityTable) (flows : List FlowSample) : Finset String :=
  ((ownedFlows table flows).map fun p => p.2.identity.key).toFinset

theorem mem_ownerKeys : key ∈ ownerKeys table flows ↔ ∃ p ∈ ownedFlows table flows, p.2.identity.key = key := by
  unfold ownerKeys
  rw [List.mem_toFinset, List.mem_map]

namespace Aggregated

theorem card_keys (state : AggregateState) : state.clients.keys.toFinset.card = state.clients.size := by
  rw [List.toFinset_card_of_nodup TreeMap.nodup_keys, TreeMap.length_keys]

theorem taken_eq_of_dropped (h : Aggregated table nowMs maxClients flows taken state)
    (hdropped : state.stats.clientsDropped = 0) : taken = ownedFlows table flows := by
  have hle := h.length_taken_le
  have hstats : (ownedFlows table flows).length - taken.length = 0 := by
    rw [h.stats] at hdropped
    exact hdropped
  have hsublist : taken.Sublist (ownedFlows table flows) := by
    rw [h.taken_eq]
    exact List.filter_sublist
  exact hsublist.eq_of_length (by omega)

/-- When no client is dropped, there is room for all of them. -/
theorem card_le (h : Aggregated table nowMs maxClients flows taken state)
    (hdropped : state.stats.clientsDropped = 0) : (ownerKeys table flows).card ≤ maxClients := by
  have hsubset : ownerKeys table flows ⊆ state.clients.keys.toFinset := by
    intro key hkey
    obtain ⟨p, hp, rfl⟩ := mem_ownerKeys.1 hkey
    rw [← h.taken_eq_of_dropped hdropped, h.taken_eq, List.mem_filter] at hp
    exact List.mem_toFinset.2 (TreeMap.mem_keys.2 hp.2)
  exact (Finset.card_le_card hsubset).trans ((card_keys state).trans_le h.size_le)

/-- When there is room for all of them, no client is dropped. -/
theorem taken_eq_of_card (h : Aggregated table nowMs maxClients flows taken state)
    (hcard : (ownerKeys table flows).card ≤ maxClients) : taken = ownedFlows table flows := by
  refine h.taken_eq.trans (List.filter_eq_self.2 fun p hp => ?_)
  by_contra hcontains
  have hnot : p.2.identity.key ∉ state.clients := hcontains
  have hsubset : insert p.2.identity.key state.clients.keys.toFinset ⊆ ownerKeys table flows := by
    intro key hkey
    rw [mem_ownerKeys]
    rcases Finset.mem_insert.1 hkey with rfl | hkey
    · exact ⟨p, hp, rfl⟩
    · have hmem : key ∈ state.clients := TreeMap.mem_keys.1 (List.mem_toFinset.1 hkey)
      have hsome := h.clients key
      have hisSome := TreeMap.isSome_getElem?_iff_mem.2 hmem
      rw [hsome, Option.isSome_map, List.isSome_head?, h.ofKey_taken hmem] at hisSome
      obtain ⟨q, hq⟩ := List.exists_mem_of_ne_nil _ hisSome
      exact ⟨q, (mem_ofKey.1 hq).1, (mem_ofKey.1 hq).2⟩
  have hfull := h.full p hp hnot
  have hcardInsert := Finset.card_le_card hsubset
  rw [Finset.card_insert_of_notMem fun hkey => hnot (TreeMap.mem_keys.1 (List.mem_toFinset.1 hkey)), card_keys]
    at hcardInsert
  omega

end Aggregated

theorem ownedFlows_perm (h : flows'.Perm flows) : (ownedFlows table flows').Perm (ownedFlows table flows) :=
  h.filterMap _

theorem ownerKeys_perm (h : flows'.Perm flows) : ownerKeys table flows' = ownerKeys table flows :=
  List.toFinset_eq_of_perm _ _ ((ownedFlows_perm h).map _)

theorem statsOf_perm (h : flows'.Perm flows) :
    statsOf table flows' (ownedFlows table flows') = statsOf table flows (ownedFlows table flows) := by
  have howned : (ownedFlows table flows').Perm (ownedFlows table flows) := ownedFlows_perm h
  unfold statsOf
  rw [h.length_eq, h.countP_eq, h.countP_eq, h.countP_eq, h.countP_eq, howned.length_eq, howned.countP_eq,
    howned.countP_eq, howned.countP_eq, howned.countP_eq]

theorem sampleOf_perm {taken' : List (FlowSample × OwnedFlow)} (h : taken'.Perm taken) (identity : ClientIdentity)
    (nowMs : Nat) : sampleOf identity nowMs taken' = sampleOf identity nowMs taken := by
  unfold sampleOf saturated64 saturated32
  rw [(h.map _).sum_eq, (h.map _).sum_eq, h.countP_eq, h.countP_eq, h.countP_eq, h.countP_eq]

theorem ofKey_perm (h : flows'.Perm flows) (key : String) :
    (ofKey key (ownedFlows table flows')).Perm (ofKey key (ownedFlows table flows)) := (ownedFlows_perm h).filter _

theorem Uncapped.perm {taken' : List (FlowSample × OwnedFlow)} (h : taken'.Perm taken) (hroom : Uncapped taken) :
    Uncapped taken' := by
  constructor
  · intro key
    exact (((h.filter _).filterMap _).length_eq).trans_le (hroom.1 key)
  · exact ((h.filterMap _).length_eq).trans_le hroom.2

/-- The flows of one key have one client, if the table has. -/
theorem head?_perm {taken' : List (FlowSample × OwnedFlow)} (h : taken'.Perm taken)
    (hsame : ∀ p ∈ taken, ∀ q ∈ taken, p.2.identity = q.2.identity) (nowMs : Nat) :
    (taken'.head?.map fun p => sampleOf p.2.identity nowMs taken') =
      taken.head?.map fun p => sampleOf p.2.identity nowMs taken := by
  cases taken with
  | nil => rw [List.perm_nil.1 h]
  | cons p taken =>
    cases taken' with
    | nil => exact absurd (List.nil_perm.1 h) (List.cons_ne_nil _ _)
    | cons q taken' =>
      have hq : q ∈ p :: taken := h.mem_iff.1 (List.mem_cons_self ..)
      rw [List.head?_cons, List.head?_cons, Option.map_some, Option.map_some, sampleOf_perm h,
        hsame q hq p (List.mem_cons_self ..)]

theorem finishSet_perm {taken' : List (FlowSample × OwnedFlow)} {set set' : ClientConnectionSet} (h : taken'.Perm taken)
    (hset : DetailSet taken set) (hset' : DetailSet taken' set') (hfull : set.connections = flowDetails taken)
    (hfull' : set'.connections = flowDetails taken') :
    ConnectionDetailsIndex.finishSet set' = ConnectionDetailsIndex.finishSet set := by
  have hdetails : set'.connections.Perm set.connections := by
    rw [hfull, hfull']
    exact h.filterMap _
  have hfresh : ∀ d ∈ set'.connections, d.Fresh := by
    rw [hfull']
    intro d hd
    obtain ⟨p, -, hp⟩ := List.mem_filterMap.1 hd
    exact flowDetail_fresh hp
  have htotal : set'.totalConnections = set.totalConnections := by
    rw [hset.total, hset'.total, h.countP_eq]
  have htruncated : (ConnectionDetailsIndex.finishSet set').truncated =
      (ConnectionDetailsIndex.finishSet set).truncated := by
    rw [Bool.eq_iff_iff, finishSet_truncated hset', finishSet_truncated hset, htotal, hdetails.length_eq]
  have hsorted := sortDetails_perm hfresh hdetails
  show (⟨set'.totalConnections, sortDetails set'.connections, (ConnectionDetailsIndex.finishSet set').truncated⟩ :
    ClientConnectionSet) = ⟨set.totalConnections, sortDetails set.connections,
      (ConnectionDetailsIndex.finishSet set).truncated⟩
  rw [htotal, hsorted, htruncated]

/-- The last flow of a rate key is the only one. -/
theorem getLast?_perm {α : Type*} {a b : List α} (h : a.Perm b) (hb : b.length ≤ 1) : a.getLast? = b.getLast? := by
  cases b with
  | nil => rw [List.perm_nil.1 h]
  | cons x b =>
    rw [List.length_cons] at hb
    rw [List.eq_nil_of_length_eq_zero (by omega : b.length = 0)] at h ⊢
    rw [List.perm_singleton.1 h]

namespace Aggregated

theorem sameButShared {state' : AggregateState} {taken' : List (FlowSample × OwnedFlow)}
    (h : Aggregated table nowMs maxClients flows taken state)
    (h' : Aggregated table nowMs maxClients flows' taken' state') (hperm : flows'.Perm flows)
    (hsame : ∀ key, ∀ p ∈ ofKey key (ownedFlows table flows), ∀ q ∈ ofKey key (ownedFlows table flows),
      p.2.identity = q.2.identity)
    (hdropped : state.stats.clientsDropped = 0) (hroom : Uncapped (ownedFlows table flows)) :
    SameButShared table flows state'.finish state.finish := by
  have htaken := h.taken_eq_of_dropped hdropped
  have htaken' : taken' = ownedFlows table flows' := by
    refine h'.taken_eq_of_card ?_
    rw [ownerKeys_perm hperm]
    exact h.card_le hdropped
  subst htaken htaken'
  have hroom' : Uncapped (ownedFlows table flows') := hroom.perm (ownedFlows_perm hperm)
  refine ⟨?_, ?_, ?_, ?_, fun key hkey => ?_⟩
  · refine TreeMap.Equiv.values_eq (TreeMap.Equiv.of_forall_constGet?_eq fun key => ?_)
    show state'.clients[key]? = state.clients[key]?
    rw [h.clients key, h'.clients key, h.now_eq, h'.now_eq]
    exact head?_perm (ofKey_perm hperm key) (hsame key) nowMs
  · show state'.stats = state.stats
    rw [h.stats, h'.stats]
    exact statsOf_perm hperm
  · exact h'.now_eq.trans h.now_eq.symm
  · refine TreeMap.equiv_iff_toList_eq.1 (TreeMap.Equiv.of_forall_constGet?_eq fun key => ?_)
    show state'.finish.connectionDetails[key]? = state.finish.connectionDetails[key]?
    rw [getElem?_finish, getElem?_finish]
    have hmem : key ∈ state'.connectionDetails.sets ↔ key ∈ state.connectionDetails.sets := by
      rw [h.index.mem_sets key, h'.index.mem_sets key, (ofKey_perm hperm key).countP_eq]
    cases hset : state.connectionDetails.sets[key]? with
    | none =>
      have hnot : key ∉ state'.connectionDetails.sets := by
        intro hmem'
        have hsome := TreeMap.isSome_getElem?_iff_mem.2 (hmem.1 hmem')
        rw [hset] at hsome
        cases hsome
      rw [TreeMap.getElem?_eq_none hnot]
    | some set =>
      obtain ⟨set', hset'⟩ : ∃ set', state'.connectionDetails.sets[key]? = some set' := by
        rw [← Option.isSome_iff_exists, TreeMap.isSome_getElem?_iff_mem]
        exact hmem.2 (TreeMap.isSome_getElem?_iff_mem.1 (by rw [hset]; rfl))
      have hdetails := h.index.set key
      have hdetails' := h'.index.set key
      have hfull := h.index.full hroom key
      have hfull' := h'.index.full hroom' key
      rw [set_of_getElem? hset] at hdetails hfull
      rw [set_of_getElem? hset'] at hdetails' hfull'
      rw [hset']
      exact congrArg some (finishSet_perm (ofKey_perm hperm key) hdetails hdetails' hfull hfull')
  · show state'.connectionDetails.counters[key]? = state.connectionDetails.counters[key]?
    rw [h.index.counters key, h'.index.counters key]
    rw [List.countP_eq_length_filter] at hkey
    exact congrArg _ (getLast?_perm ((ownedFlows_perm hperm).filter _) hkey)

end Aggregated

/-- Flows and bytes are conserved. Without a dropped client and a detail that finds no room, any order of the flows
comes to the same but for the counters of a rate key that several of them have, where the last one stays. -/
theorem aggregateFlows_conserves (identities : IdentityClients) (text : IpAddr → String) (excluded : String → Bool)
    {flows : List FlowSample} {nowMs maxClients : Nat}
    (hcounters : Unsaturated (identities.table text excluded) flows
      (aggregateFlows (identities.table text excluded) flows nowMs maxClients)) :
    Conserved (identities.table text excluded) maxClients flows
        (aggregateFlows (identities.table text excluded) flows nowMs maxClients) ∧
      (∀ p ∈ ownedFlows (identities.table text excluded) flows,
        p.1 ∈ flows ∧ (identities.table text excluded).byIp p.2.clientIp = some p.2.identity ∧
          (sentBytes p = p.1.origBytes ∧ receivedBytes p = p.1.replyBytes ∧
              (p.1.origSrc = some p.2.clientIp ∨ p.1.replyDst = some p.2.clientIp) ∨
            sentBytes p = p.1.replyBytes ∧ receivedBytes p = p.1.origBytes ∧
              (p.1.origDst = some p.2.clientIp ∨ p.1.replySrc = some p.2.clientIp))) ∧
      ((aggregateFlows (identities.table text excluded) flows nowMs maxClients).stats.clientsDropped = 0 →
        Uncapped (ownedFlows (identities.table text excluded) flows) →
        ∀ flows' : List FlowSample, flows'.Perm flows →
          SameButShared (identities.table text excluded) flows
            (aggregateFlows (identities.table text excluded) flows' nowMs maxClients)
            (aggregateFlows (identities.table text excluded) flows nowMs maxClients)) := by
  obtain ⟨taken, h⟩ := aggregated (identities.table text excluded) nowMs maxClients hcounters.entries
  refine ⟨h.conserved hcounters, fun p hp => ownedFlows_sides hp, fun hdropped hroom flows' hperm => ?_⟩
  obtain ⟨taken', h'⟩ := aggregated (identities.table text excluded) nowMs maxClients
    (hperm.length_eq.trans_le hcounters.entries)
  refine h.sameButShared h' hperm (fun key p hp q hq => ?_) hdropped hroom
  obtain ⟨hp, hpkey⟩ := mem_ofKey.1 hp
  obtain ⟨hq, hqkey⟩ := mem_ofKey.1 hq
  exact IdentityClients.eq_of_key (IdentityClients.byIp_mem (ownedFlows_sides hp).2.1)
    (IdentityClients.byIp_mem (ownedFlows_sides hq).2.1) (hpkey.trans hqkey.symm)

/-! ### Two flows with one rate key -/

theorem Uncapped.of_length (h : taken.length ≤ maxClientConnectionDetails) : Uncapped taken := by
  have hle : ∀ flows : List (FlowSample × OwnedFlow), (flowDetails flows).length ≤ flows.length := fun flows =>
    (length_flowDetails_le flows).trans List.countP_le_length
  exact ⟨fun key => ((hle _).trans (length_ofKey_le key taken)).trans h, (hle _).trans (h.trans (by decide))⟩

def exampleIdentities : IdentityClients where
  clients := [⟨"02:00:00:00:00:01", "lan", "br-lan", ["10.0.0.2"]⟩]
  mac_length c hc := by
    rw [List.mem_singleton.1 hc]
    rfl
  keys := List.nodup_singleton _

/-- The texts of the two addresses of the example. -/
def exampleText (ip : IpAddr) : String := if ip = .v4 0x0a000002 then "10.0.0.2" else "198.51.100.1"

def exampleTable : IdentityTable := exampleIdentities.table exampleText fun _ => false

def exampleFlow (origBytes replyBytes : BitVec 64) : FlowSample :=
  { FlowSample.default with
    origSrc := some (.v4 0x0a000002), origDst := some (.v4 0xc6336401), replySrc := some (.v4 0xc6336401)
    origBytes, replyBytes, origSport := 40000, origDport := 443, replySport := 443, replyDport := 40000
    protocol := .tcp, tcpState := some .established, assured := true }

/-- Nothing is dropped and every detail is stored, but the counters depend on the order. -/
theorem sharedRateKey_order :
    (aggregateFlows exampleTable [exampleFlow 100 200, exampleFlow 300 400] 5000 8).stats.clientsDropped = 0 ∧
      Uncapped (ownedFlows exampleTable [exampleFlow 100 200, exampleFlow 300 400]) ∧
      ((aggregateFlows exampleTable [exampleFlow 100 200, exampleFlow 300 400] 5000 8).connectionCounters.toList.map
        fun s => s.2) = [⟨300, 400⟩] ∧
      ((aggregateFlows exampleTable [exampleFlow 300 400, exampleFlow 100 200] 5000 8).connectionCounters.toList.map
        fun s => s.2) = [⟨100, 200⟩] := by
  refine ⟨by decide +kernel, Uncapped.of_length (by decide +kernel), by decide +kernel, by decide +kernel⟩

theorem exampleFlows_conserved :
    Conserved exampleTable 8 [exampleFlow 100 200, exampleFlow 300 400]
        (aggregateFlows exampleTable [exampleFlow 100 200, exampleFlow 300 400] 5000 8) ∧
      SameButShared exampleTable [exampleFlow 100 200, exampleFlow 300 400]
        (aggregateFlows exampleTable [exampleFlow 300 400, exampleFlow 100 200] 5000 8)
        (aggregateFlows exampleTable [exampleFlow 100 200, exampleFlow 300 400] 5000 8) := by
  have hcounters : Unsaturated exampleTable [exampleFlow 100 200, exampleFlow 300 400]
      (aggregateFlows exampleTable [exampleFlow 100 200, exampleFlow 300 400] 5000 8) :=
    ⟨by decide, by decide +kernel, by decide +kernel, by decide +kernel, by decide +kernel⟩
  obtain ⟨hconserved, -, horder⟩ := aggregateFlows_conserves exampleIdentities exampleText (fun _ => false) hcounters
  exact ⟨hconserved, horder (by decide +kernel) (Uncapped.of_length (by decide +kernel)) _ (.swap ..)⟩

end Lanspeedd
