import Std.Data.TreeMap
import DOpenWrt.Lanspeedd.FlowSample
import DOpenWrt.Lanspeedd.FastCounter
import DOpenWrt.Lanspeedd.SnapshotStore

/-!
# The aggregate of the flows

`AggregateState` of `collectors/conntrack/aggregate.rs` with `ConnectionDetailsIndex` and the ownership of flows of
`connection_details.rs`. Of an identity table there is what it knows of an address.
-/

namespace Lanspeedd

def maxStoredConnectionDetails : Nat := 16384
def maxClientConnectionDetails : Nat := 2048

/-- `u32::saturating_add(1)`. -/
def saturatingSucc32 (a : Nat) : Nat := min (a + 1) u32Max

structure ClientIdentity where
  mac : String
  zone : String
  interface : String
  ips : List String
deriving DecidableEq, Repr

/-- The key of an identity as a text. -/
def ClientIdentity.key (identity : ClientIdentity) : String := identity.mac ++ "@" ++ identity.zone

structure IdentityTable where
  byIp : IpAddr → Option ClientIdentity

inductive ConnectionDirection where
  | outbound | inbound
deriving DecidableEq, Repr, Ord

inductive RateProtocol where
  | tcp
  | udp
  | other (number : BitVec 8)
deriving DecidableEq, Repr, Ord

def Protocol.toRate : Protocol → RateProtocol
  | tcp => .tcp
  | udp => .udp
  | other number => .other number

structure ClientConnectionDetail where
  clientIp : IpAddr
  clientPort : BitVec 16
  remoteIp : IpAddr
  remotePort : BitVec 16
  protocol : ConnectionProtocol
  state : ConnectionState
  direction : ConnectionDirection
  txBps : Nat
  rxBps : Nat
deriving DecidableEq, Repr

structure ClientConnectionSet where
  totalConnections : Nat
  connections : List ClientConnectionDetail
  truncated : Bool
deriving DecidableEq, Repr

structure ConnectionRateKey where
  conntrackId : Option (BitVec 32)
  conntrackZone : Option (BitVec 16)
  identityKey : String
  clientIp : IpAddr
  clientPort : BitVec 16
  remoteIp : Option IpAddr
  remotePort : BitVec 16
  protocol : RateProtocol
  direction : ConnectionDirection
deriving DecidableEq, Repr, Ord

structure ConnectionCounters where
  txBytes : BitVec 64
  rxBytes : BitVec 64
deriving DecidableEq, Repr

/-! ### Owners -/

structure OwnedFlow where
  identity : ClientIdentity
  clientIp : IpAddr
  clientPort : BitVec 16
  remoteIp : Option IpAddr
  remotePort : BitVec 16
  direction : ConnectionDirection
  sourceSide : Bool

def OwnedFlow.detail (flow : OwnedFlow) (protocol : ConnectionProtocol) (state : ConnectionState) :
    Option ClientConnectionDetail :=
  flow.remoteIp.map fun remoteIp =>
    { clientIp := flow.clientIp, clientPort := flow.clientPort, remoteIp, remotePort := flow.remotePort, protocol, state
      direction := flow.direction, txBps := 0, rxBps := 0 }

inductive FlowOwnership where
  | bothLan
  | noLan
  | owned (flow : OwnedFlow)

def owner (table : IdentityTable) (address : Option IpAddr) : Option (ClientIdentity × IpAddr) :=
  address.bind fun address => (table.byIp address).map fun identity => (identity, address)

def classifyFlowOwnership (identities : IdentityTable) (flow : FlowSample) : FlowOwnership :=
  let origSrc := owner identities flow.origSrc
  let origDst := owner identities flow.origDst
  let replySrc := owner identities flow.replySrc
  let replyDst := owner identities flow.replyDst
  if origSrc.isSome ∧ origDst.isSome ∨ replySrc.isSome ∧ replyDst.isSome then .bothLan
  else match origSrc with
    | some (identity, clientIp) =>
      .owned ⟨identity, clientIp, flow.origSport, flow.origDst, flow.origDport, .outbound, true⟩
    | none => match origDst with
      | some (identity, clientIp) =>
        .owned ⟨identity, clientIp, flow.origDport, flow.origSrc, flow.origSport, .inbound, false⟩
      | none => match replySrc with
        | some (identity, clientIp) =>
          .owned ⟨identity, clientIp, flow.replySport, flow.replyDst, flow.replyDport, .inbound, false⟩
        | none => match replyDst with
          | some (identity, clientIp) =>
            .owned ⟨identity, clientIp, flow.replyDport, flow.replySrc, flow.replySport, .outbound, true⟩
          | none => .noLan

def ConnectionRateKey.fromOwnedFlow (identityKey : String) (flow : OwnedFlow) (protocol : Protocol)
    (conntrackId : Option (BitVec 32)) (conntrackZone : Option (BitVec 16)) : ConnectionRateKey where
  conntrackId := conntrackId
  conntrackZone := conntrackZone
  identityKey := identityKey
  clientIp := flow.clientIp
  clientPort := flow.clientPort
  remoteIp := flow.remoteIp
  remotePort := flow.remotePort
  protocol := protocol.toRate
  direction := flow.direction

/-! ### Connection details -/

abbrev ConnectionDetails := Std.TreeMap String ClientConnectionSet

abbrev ConnectionCountersMap := Std.TreeMap ConnectionRateKey ConnectionCounters

structure ConnectionDetailsIndex where
  sets : ConnectionDetails
  counters : ConnectionCountersMap
  storedConnections : Nat

def compareIp : IpAddr → IpAddr → Ordering
  | .v4 left, .v4 right => compare left right
  | .v6 left, .v6 right => compare left right
  | .v4 _, .v6 _ => .lt
  | .v6 _, .v4 _ => .gt

def protocolRank : ConnectionProtocol → Nat
  | .tcp => 0
  | .udp => 1

def directionRank : ConnectionDirection → Nat
  | .outbound => 0
  | .inbound => 1

def compareConnectionDetails (left right : ClientConnectionDetail) : Ordering :=
  (compareIp left.remoteIp right.remoteIp).then <| (compare left.remotePort right.remotePort).then <|
    (compare (protocolRank left.protocol) (protocolRank right.protocol)).then <|
      (compareIp left.clientIp right.clientIp).then <| (compare left.clientPort right.clientPort).then <|
        compare (directionRank left.direction) (directionRank right.direction)

namespace ConnectionDetailsIndex

def default : ConnectionDetailsIndex := ⟨∅, ∅, 0⟩

def recordFlowRateCounters (index : ConnectionDetailsIndex) (key : ConnectionRateKey) (counters : ConnectionCounters) :
    ConnectionDetailsIndex :=
  { index with counters := index.counters.insert key counters }

/-- `entry(identity_key).or_default()` -/
def set (index : ConnectionDetailsIndex) (identityKey : String) : ClientConnectionSet :=
  index.sets.getD identityKey ⟨0, [], false⟩

def record (index : ConnectionDetailsIndex) (identityKey : String) (detail : ClientConnectionDetail) :
    ConnectionDetailsIndex :=
  let set := index.set identityKey
  let set := { set with totalConnections := saturatingAdd set.totalConnections 1 }
  if set.connections.length < maxClientConnectionDetails ∧ index.storedConnections < maxStoredConnectionDetails then
    { index with
      sets := index.sets.insert identityKey { set with connections := set.connections ++ [detail] }
      storedConnections := saturatingAdd index.storedConnections 1 }
  else { index with sets := index.sets.insert identityKey { set with truncated := true } }

def recordOmitted (index : ConnectionDetailsIndex) (identityKey : String) : ConnectionDetailsIndex :=
  let set := index.set identityKey
  { index with sets := index.sets.insert identityKey { set with
      totalConnections := saturatingAdd set.totalConnections 1, truncated := true } }

def finishSet (set : ClientConnectionSet) : ClientConnectionSet :=
  let connections := set.connections.mergeSort fun left right => (compareConnectionDetails left right).isLE
  { set with connections, truncated := set.truncated || connections.length ≠ set.totalConnections }

def finishWithCounters (index : ConnectionDetailsIndex) : ConnectionDetails × ConnectionCountersMap :=
  (index.sets.map fun _ => finishSet, index.counters)

end ConnectionDetailsIndex

/-! ### The aggregate -/

structure ClientSample where
  mac : String
  identityKey : String
  zone : String
  interface : String
  ips : List String
  txBytes : BitVec 64
  rxBytes : BitVec 64
  lastSeenMs : Nat
  tcpConns : Nat
  udpConns : Nat
  udpDnsConns : Nat
  udpOtherConns : Nat
deriving DecidableEq, Repr

structure AggregateStats where
  entriesSeen : Nat
  conntrackIdsPresent : Nat
  conntrackZonesPresent : Nat
  entriesMatched : Nat
  skippedNoArp : Nat
  noLanFlows : Nat
  bothLanFlows : Nat
  srcLanFlows : Nat
  dstLanFlows : Nat
  ipv4LanFlows : Nat
  ipv6LanFlows : Nat
  clientsDropped : Nat
deriving DecidableEq, Repr

structure AggregateSnapshot where
  clients : List ClientSample
  stats : AggregateStats
  sampleMs : Nat
  connectionDetails : ConnectionDetails
  connectionCounters : ConnectionCountersMap

structure AggregateState where
  identities : IdentityTable
  clients : Std.TreeMap String ClientSample
  connectionDetails : ConnectionDetailsIndex
  stats : AggregateStats
  nowMs : Nat
  maxClients : Nat

def addConnectionCount (sample : ClientSample) (flow : FlowSample) : ConnectionProtocol → ClientSample
  | .tcp => { sample with tcpConns := saturatingSucc32 sample.tcpConns }
  | .udp =>
    let sample := { sample with udpConns := saturatingSucc32 sample.udpConns }
    if flow.isDns then { sample with udpDnsConns := saturatingSucc32 sample.udpDnsConns }
    else { sample with udpOtherConns := saturatingSucc32 sample.udpOtherConns }

namespace AggregateState

def new (identities : IdentityTable) (nowMs maxClients : Nat) : AggregateState where
  identities := identities
  clients := ∅
  connectionDetails := .default
  stats := ⟨0, 0, 0, 0, 0, 0, 0, 0, 0, 0, 0, 0⟩
  nowMs := nowMs
  maxClients := maxClients

/-- The counts of `push` that every flow is in. -/
def countEntry (stats : AggregateStats) (flow : FlowSample) : AggregateStats :=
  { stats with
    entriesSeen := saturatingAdd stats.entriesSeen 1
    conntrackIdsPresent :=
      if flow.conntrackId.isSome then saturatingAdd stats.conntrackIdsPresent 1 else stats.conntrackIdsPresent
    conntrackZonesPresent :=
      if flow.conntrackZone.isSome then saturatingAdd stats.conntrackZonesPresent 1
      else stats.conntrackZonesPresent }

/-- The counts of a flow that is taken. -/
def countOwned (stats : AggregateStats) (owned : OwnedFlow) : AggregateStats :=
  let stats := { stats with entriesMatched := saturatingAdd stats.entriesMatched 1 }
  let stats :=
    if owned.sourceSide then { stats with srcLanFlows := saturatingAdd stats.srcLanFlows 1 }
    else { stats with dstLanFlows := saturatingAdd stats.dstLanFlows 1 }
  if owned.clientIp.isIpv6 then { stats with ipv6LanFlows := saturatingAdd stats.ipv6LanFlows 1 }
  else { stats with ipv4LanFlows := saturatingAdd stats.ipv4LanFlows 1 }

/-- `or_insert_with` for a client. -/
def clientEntry (state : AggregateState) (owned : OwnedFlow) : ClientSample :=
  state.clients.getD owned.identity.key
    { mac := owned.identity.mac, identityKey := owned.identity.key, zone := owned.identity.zone
      interface := owned.identity.interface, ips := owned.identity.ips, txBytes := 0, rxBytes := 0
      lastSeenMs := state.nowMs, tcpConns := 0, udpConns := 0, udpDnsConns := 0, udpOtherConns := 0 }

/-- The part of `push` behind the choice of the owner. -/
def pushOwned (state : AggregateState) (flow : FlowSample) (owned : OwnedFlow) : AggregateState :=
  let key := owned.identity.key
  if ¬ state.clients.contains key ∧ state.maxClients ≤ state.clients.size then
    { state with stats := { state.stats with clientsDropped := saturatingAdd state.stats.clientsDropped 1 } }
  else
    let qualification := classifyConnection flow
    let (tx, rx) :=
      if owned.sourceSide then (flow.origBytes, flow.replyBytes) else (flow.replyBytes, flow.origBytes)
    let sample := state.clientEntry owned
    let sample := { sample with
      txBytes := saturatingAdd64 sample.txBytes tx
      rxBytes := saturatingAdd64 sample.rxBytes rx
      lastSeenMs := state.nowMs }
    let sample := qualification.elim sample fun (protocol, _) => addConnectionCount sample flow protocol
    let details := state.connectionDetails.recordFlowRateCounters
      (.fromOwnedFlow key owned flow.protocol flow.conntrackId flow.conntrackZone) ⟨tx, rx⟩
    let details := qualification.elim details fun (protocol, connectionState) =>
      (owned.detail protocol connectionState).elim (details.recordOmitted key) (details.record key)
    { state with
      clients := state.clients.insert key sample
      connectionDetails := details
      stats := countOwned state.stats owned }

def push (state : AggregateState) (flow : FlowSample) : AggregateState :=
  let state := { state with stats := countEntry state.stats flow }
  match classifyFlowOwnership state.identities flow with
  | .bothLan =>
    { state with stats := { state.stats with bothLanFlows := saturatingAdd state.stats.bothLanFlows 1 } }
  | .noLan =>
    { state with stats := { state.stats with
        skippedNoArp := saturatingAdd state.stats.skippedNoArp 1
        noLanFlows := saturatingAdd state.stats.noLanFlows 1 } }
  | .owned owned => state.pushOwned flow owned

def finish (state : AggregateState) : AggregateSnapshot :=
  let (connectionDetails, connectionCounters) := state.connectionDetails.finishWithCounters
  { clients := state.clients.values, stats := state.stats, sampleMs := state.nowMs, connectionDetails
    connectionCounters }

end AggregateState

def aggregateFlows (identities : IdentityTable) (flows : List FlowSample) (nowMs maxClients : Nat) : AggregateSnapshot :=
  (flows.foldl AggregateState.push (.new identities nowMs maxClients)).finish

end Lanspeedd
