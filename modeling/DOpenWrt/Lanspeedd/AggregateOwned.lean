import DOpenWrt.Lanspeedd.Aggregate

/-!
# The flows of a client

What `AggregateState.push` makes of a flow depends on who owns it. Here are the flows with their owners, and what the
flows of one client come to when they are taken as a whole.
-/

namespace Lanspeedd

open Std

variable {table : IdentityTable} {flow : FlowSample} {owned : OwnedFlow}

/-- A flow with its owner, if there is one. -/
def ownedFlow (table : IdentityTable) (flow : FlowSample) : Option (FlowSample × OwnedFlow) :=
  match classifyFlowOwnership table flow with
  | .owned owned => some (flow, owned)
  | _ => none

def ownedFlows (table : IdentityTable) (flows : List FlowSample) : List (FlowSample × OwnedFlow) :=
  flows.filterMap (ownedFlow table)

/-- The flows among them that the client of a key owns. -/
def ofKey (key : String) (flows : List (FlowSample × OwnedFlow)) : List (FlowSample × OwnedFlow) :=
  flows.filter fun p => p.2.identity.key = key

/-- The bytes that the owner of a flow sent. -/
def sentBytes (p : FlowSample × OwnedFlow) : BitVec 64 := if p.2.sourceSide then p.1.origBytes else p.1.replyBytes

def receivedBytes (p : FlowSample × OwnedFlow) : BitVec 64 := if p.2.sourceSide then p.1.replyBytes else p.1.origBytes

def qualified (p : FlowSample × OwnedFlow) : Bool := (classifyConnection p.1).isSome

def qualifiedAs (protocol : ConnectionProtocol) (p : FlowSample × OwnedFlow) : Bool :=
  (classifyConnection p.1).any fun q => q.1 = protocol

def flowDetail (p : FlowSample × OwnedFlow) : Option ClientConnectionDetail :=
  (classifyConnection p.1).bind fun q => p.2.detail q.1 q.2

def flowDetails (flows : List (FlowSample × OwnedFlow)) : List ClientConnectionDetail := flows.filterMap flowDetail

def rateKey (p : FlowSample × OwnedFlow) : ConnectionRateKey :=
  .fromOwnedFlow p.2.identity.key p.2 p.1.protocol p.1.conntrackId p.1.conntrackZone

/-- The sum of the bytes of some flows, as a counter that stays at its limit. -/
def saturated64 (bytes : FlowSample × OwnedFlow → BitVec 64) (flows : List (FlowSample × OwnedFlow)) : BitVec 64 :=
  .ofNat 64 (min (flows.map fun p => (bytes p).toNat).sum u64Max)

def saturated32 (counted : FlowSample × OwnedFlow → Bool) (flows : List (FlowSample × OwnedFlow)) : Nat :=
  min (flows.countP counted) u32Max

/-- A client with the flows `flows`. -/
def sampleOf (identity : ClientIdentity) (nowMs : Nat) (flows : List (FlowSample × OwnedFlow)) : ClientSample where
  mac := identity.mac
  identityKey := identity.key
  zone := identity.zone
  interface := identity.interface
  ips := identity.ips
  txBytes := saturated64 sentBytes flows
  rxBytes := saturated64 receivedBytes flows
  lastSeenMs := nowMs
  tcpConns := saturated32 (qualifiedAs .tcp) flows
  udpConns := saturated32 (qualifiedAs .udp) flows
  udpDnsConns := saturated32 (fun p => qualifiedAs .udp p && p.1.isDns) flows
  udpOtherConns := saturated32 (fun p => qualifiedAs .udp p && !p.1.isDns) flows

/-! ### Ownership -/

theorem owner_eq_some {address : Option IpAddr} {identity : ClientIdentity} {ip : IpAddr} :
    owner table address = some (identity, ip) ↔ address = some ip ∧ table.byIp ip = some identity := by
  cases address with
  | none => exact iff_of_false (fun h => by cases h) fun h => by cases h.1
  | some a =>
    show (table.byIp a).map (fun identity => (identity, a)) = _ ↔ _
    rw [Option.map_eq_some_iff]
    constructor
    · rintro ⟨i, hi, h⟩
      cases h
      exact ⟨rfl, hi⟩
    · rintro ⟨h, hi⟩
      cases h
      exact ⟨identity, hi, rfl⟩

/-- The owner is at one of the four positions of the flow; which one says what it sent. -/
theorem classifyFlowOwnership_owned (h : classifyFlowOwnership table flow = .owned owned) :
    table.byIp owned.clientIp = some owned.identity ∧
      (owned.sourceSide = true ∧ (flow.origSrc = some owned.clientIp ∨ flow.replyDst = some owned.clientIp) ∨
        owned.sourceSide = false ∧ (flow.origDst = some owned.clientIp ∨ flow.replySrc = some owned.clientIp)) := by
  unfold classifyFlowOwnership at h
  dsimp only at h
  split at h
  · cases h
  split at h
  next hsome =>
    cases h
    exact ⟨(owner_eq_some.1 hsome).2, .inl ⟨rfl, .inl (owner_eq_some.1 hsome).1⟩⟩
  split at h
  next hsome =>
    cases h
    exact ⟨(owner_eq_some.1 hsome).2, .inr ⟨rfl, .inl (owner_eq_some.1 hsome).1⟩⟩
  split at h
  next hsome =>
    cases h
    exact ⟨(owner_eq_some.1 hsome).2, .inr ⟨rfl, .inr (owner_eq_some.1 hsome).1⟩⟩
  split at h
  next hsome =>
    cases h
    exact ⟨(owner_eq_some.1 hsome).2, .inl ⟨rfl, .inr (owner_eq_some.1 hsome).1⟩⟩
  · cases h

theorem ownedFlow_eq_some {p : FlowSample × OwnedFlow} :
    ownedFlow table flow = some p ↔ p.1 = flow ∧ classifyFlowOwnership table flow = .owned p.2 := by
  unfold ownedFlow
  cases classifyFlowOwnership table flow with
  | bothLan => exact iff_of_false (fun h => by cases h) fun h => by cases h.2
  | noLan => exact iff_of_false (fun h => by cases h) fun h => by cases h.2
  | owned owned =>
    constructor
    · rintro h
      cases h
      exact ⟨rfl, rfl⟩
    · obtain ⟨f, o⟩ := p
      rintro ⟨h, ho⟩
      cases h
      cases ho
      rfl

/-! ### One more flow -/

variable {flows : List FlowSample} {p : FlowSample × OwnedFlow} {key : String}

theorem ownedFlows_append (table : IdentityTable) (flows more : List FlowSample) :
    ownedFlows table (flows ++ more) = ownedFlows table flows ++ ownedFlows table more := List.filterMap_append

theorem ownedFlows_concat (h : ownedFlow table flow = some p) :
    ownedFlows table (flows ++ [flow]) = ownedFlows table flows ++ [p] := by
  rw [ownedFlows_append]
  exact congrArg _ (List.filterMap_cons_some h)

theorem ownedFlows_concat_none (h : ownedFlow table flow = none) :
    ownedFlows table (flows ++ [flow]) = ownedFlows table flows := by
  rw [ownedFlows_append, show ownedFlows table [flow] = [] from List.filterMap_cons_none h, List.append_nil]

theorem ofKey_concat_self (flows : List (FlowSample × OwnedFlow)) (p : FlowSample × OwnedFlow) :
    ofKey p.2.identity.key (flows ++ [p]) = ofKey p.2.identity.key flows ++ [p] := by
  unfold ofKey
  rw [List.filter_append]
  exact congrArg _ (List.filter_cons_of_pos (decide_eq_true rfl))

theorem ofKey_concat_of_ne (flows : List (FlowSample × OwnedFlow)) (hne : p.2.identity.key ≠ key) :
    ofKey key (flows ++ [p]) = ofKey key flows := by
  have hnil : [p].filter (fun p => decide (p.2.identity.key = key)) = [] :=
    List.filter_cons_of_neg (by rwa [decide_eq_true_eq])
  unfold ofKey
  rw [List.filter_append, hnil, List.append_nil]

theorem mem_ofKey {flows : List (FlowSample × OwnedFlow)} :
    p ∈ ofKey key flows ↔ p ∈ flows ∧ p.2.identity.key = key := by
  unfold ofKey
  rw [List.mem_filter, decide_eq_true_eq]

/-! ### One more flow of a client -/

theorem saturated64_concat (bytes : FlowSample × OwnedFlow → BitVec 64) (flows : List (FlowSample × OwnedFlow))
    (p : FlowSample × OwnedFlow) :
    saturated64 bytes (flows ++ [p]) = saturatingAdd64 (saturated64 bytes flows) (bytes p) := by
  unfold saturated64 saturatingAdd64
  rw [List.map_append, List.sum_append, List.map_singleton, List.sum_singleton]
  generalize (flows.map fun p => (bytes p).toNat).sum = sum
  have hlt := (bytes p).isLt
  have htoNat : (BitVec.ofNat 64 (min sum u64Max)).toNat = min sum u64Max := by
    rw [BitVec.toNat_ofNat]
    exact Nat.mod_eq_of_lt (by unfold u64Max; omega)
  rw [htoNat]
  split_ifs with h
  · apply BitVec.eq_of_toNat_eq
    rw [BitVec.toNat_add, htoNat, BitVec.toNat_ofNat]
    congr 1
    unfold u64Max at *
    omega
  · apply BitVec.eq_of_toNat_eq
    rw [BitVec.toNat_allOnes, BitVec.toNat_ofNat]
    unfold u64Max at *
    omega

theorem saturated32_concat (counted : FlowSample × OwnedFlow → Bool) (flows : List (FlowSample × OwnedFlow))
    (p : FlowSample × OwnedFlow) : saturated32 counted (flows ++ [p]) =
      if counted p then saturatingSucc32 (saturated32 counted flows) else saturated32 counted flows := by
  unfold saturated32 saturatingSucc32
  rw [List.countP_append, List.countP_singleton]
  split_ifs <;> omega

/-- What `push` does to the sample of the owner of a flow. -/
def ClientSample.take (sample : ClientSample) (nowMs : Nat) (p : FlowSample × OwnedFlow) : ClientSample :=
  let sample := { sample with
    txBytes := saturatingAdd64 sample.txBytes (sentBytes p)
    rxBytes := saturatingAdd64 sample.rxBytes (receivedBytes p)
    lastSeenMs := nowMs }
  (classifyConnection p.1).elim sample fun q => addConnectionCount sample p.1 q.1

theorem sampleOf_concat (identity : ClientIdentity) (nowMs : Nat) (flows : List (FlowSample × OwnedFlow))
    (p : FlowSample × OwnedFlow) :
    sampleOf identity nowMs (flows ++ [p]) = (sampleOf identity nowMs flows).take nowMs p := by
  unfold sampleOf ClientSample.take
  rw [saturated64_concat, saturated64_concat, saturated32_concat, saturated32_concat, saturated32_concat,
    saturated32_concat]
  unfold qualifiedAs
  rcases classifyConnection p.1 with _ | ⟨_ | _, state⟩
  · rfl
  · rfl
  · cases hdns : p.1.isDns <;> simp [addConnectionCount, hdns]

/-! ### One more flow in the index -/

namespace ConnectionDetailsIndex

/-- What `push` does to the index for a flow with its owner. -/
def take (index : ConnectionDetailsIndex) (p : FlowSample × OwnedFlow) : ConnectionDetailsIndex :=
  let index := index.recordFlowRateCounters (rateKey p) ⟨sentBytes p, receivedBytes p⟩
  (classifyConnection p.1).elim index fun q =>
    (p.2.detail q.1 q.2).elim (index.recordOmitted p.2.identity.key) (index.record p.2.identity.key)

variable {index : ConnectionDetailsIndex}

theorem take_unqualified (h : qualified p = false) :
    index.take p = index.recordFlowRateCounters (rateKey p) ⟨sentBytes p, receivedBytes p⟩ := by
  unfold take
  unfold qualified at h
  cases hc : classifyConnection p.1 with
  | none => rfl
  | some q =>
    rw [hc] at h
    cases h

/-- The detail of the flow is stored, below both limits. -/
theorem take_stored {detail : ClientConnectionDetail} (hdetail : flowDetail p = some detail)
    (hset : (index.set p.2.identity.key).connections.length < maxClientConnectionDetails)
    (hstored : index.storedConnections < maxStoredConnectionDetails) :
    index.take p =
      { sets := index.sets.insert p.2.identity.key
          { index.set p.2.identity.key with
            totalConnections := saturatingAdd (index.set p.2.identity.key).totalConnections 1
            connections := (index.set p.2.identity.key).connections ++ [detail] }
        counters := index.counters.insert (rateKey p) ⟨sentBytes p, receivedBytes p⟩
        storedConnections := saturatingAdd index.storedConnections 1 } := by
  obtain ⟨q, hq, hdetail⟩ := Option.bind_eq_some_iff.1 hdetail
  unfold take
  rw [hq]
  dsimp only [Option.elim_some]
  rw [hdetail]
  exact if_pos ⟨hset, hstored⟩

/-- The flow is only counted: it has no remote address, or there is no room for it. -/
theorem take_omitted (h : qualified p = true)
    (hroom : ∀ detail, flowDetail p = some detail →
      maxClientConnectionDetails ≤ (index.set p.2.identity.key).connections.length ∨
        maxStoredConnectionDetails ≤ index.storedConnections) :
    index.take p =
      { sets := index.sets.insert p.2.identity.key
          { index.set p.2.identity.key with
            totalConnections := saturatingAdd (index.set p.2.identity.key).totalConnections 1
            truncated := true }
        counters := index.counters.insert (rateKey p) ⟨sentBytes p, receivedBytes p⟩
        storedConnections := index.storedConnections } := by
  obtain ⟨q, hq⟩ := Option.isSome_iff_exists.1 h
  unfold take
  rw [hq]
  dsimp only [Option.elim_some]
  cases hdetail : p.2.detail q.1 q.2 with
  | none => rfl
  | some detail =>
    have hfull := hroom detail (Option.bind_eq_some_iff.2 ⟨q, hq, hdetail⟩)
    exact if_neg fun hroom => by
      have h1 : (index.set p.2.identity.key).connections.length < maxClientConnectionDetails := hroom.1
      have h2 : index.storedConnections < maxStoredConnectionDetails := hroom.2
      omega

end ConnectionDetailsIndex

/-! ### `push` -/

namespace AggregateState

variable {state : AggregateState}

/-- A flow with an owner that there is no room for. -/
theorem pushOwned_dropped (h : p.2.identity.key ∉ state.clients ∧ state.maxClients ≤ state.clients.size) :
    state.pushOwned p.1 p.2 = { state with stats :=
      { state.stats with clientsDropped := saturatingAdd state.stats.clientsDropped 1 } } := if_pos h

theorem pushOwned_taken (h : p.2.identity.key ∈ state.clients ∨ state.clients.size < state.maxClients) :
    state.pushOwned p.1 p.2 =
      { state with
        clients := state.clients.insert p.2.identity.key ((state.clientEntry p.2).take state.nowMs p)
        connectionDetails := state.connectionDetails.take p
        stats := countOwned state.stats p.2 } := by
  have hroom : ¬ (¬ state.clients.contains p.2.identity.key ∧ state.maxClients ≤ state.clients.size) := by
    rintro ⟨hkey, hsize⟩
    exact h.elim hkey hsize.not_gt
  unfold pushOwned
  dsimp only
  rw [if_neg hroom]
  unfold ClientSample.take ConnectionDetailsIndex.take sentBytes receivedBytes rateKey
  cases p.2.sourceSide <;> rfl

end AggregateState

end Lanspeedd
