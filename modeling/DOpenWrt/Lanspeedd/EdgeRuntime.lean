import DOpenWrt.Lanspeedd.Classification
import DOpenWrt.Lanspeedd.RateMux
import DOpenWrt.Lanspeedd.StationCounters
import DOpenWrt.Lanspeedd.Topology

/-!
# The Access Edge ledgers

The counter book of `access_edge/rate.rs` and the histories of `access_edge/runtime.rs`: every new sample of an attachment
direction is compared with the one before, and the segments between them are kept for the classifier.
-/

namespace Lanspeedd

/-- Client TX is link RX. -/
def LinkCounters.clientDirection (counters : LinkCounters) : Direction → ℕ × ℕ
  | .tx => (counters.rxBytes, counters.rxPackets)
  | .rx => (counters.txBytes, counters.txPackets)

structure CumulativeCounterSample where
  epochId : ℕ
  sampleMs : ℕ
  readBeginMs : ℕ
  readEndMs : ℕ
  source : RateSource
  direction : Direction
  bytes : ℕ
  packets : ℕ
  attachmentGeneration : ℕ
  byteDomain : ByteDomain
  uncertaintyMs : ℕ
  deriving DecidableEq

def CumulativeCounterSample.fromLink (epochId sampleMs readBeginMs readEndMs : ℕ) (source : RateSource)
    (direction : Direction) (counters : LinkCounters) (attachmentGeneration : ℕ) (byteDomain : ByteDomain)
    (uncertaintyMs : ℕ) : CumulativeCounterSample :=
  ⟨epochId, sampleMs, readBeginMs, readEndMs, source, direction, (counters.clientDirection direction).1,
    (counters.clientDirection direction).2, attachmentGeneration, byteDomain, uncertaintyMs⟩

inductive CounterResetReason
  | counterDecreased
  | generationChanged
  | semanticsChanged
  | timeDidNotAdvance
  | readIntervalInvalid
  deriving DecidableEq

inductive CounterUpdate
  | warmup
  | segment (segment : CounterSegment)
  | reset (reason : CounterResetReason)
  deriving DecidableEq

/-- The delta between two samples. -/
def segmentBetween (previous current : CumulativeCounterSample) : CounterSegment :=
  { epochId := current.epochId
    startMs := previous.sampleMs
    endMs := current.sampleMs
    readBeginMs := current.readBeginMs
    readEndMs := current.readEndMs
    source := current.source
    direction := current.direction
    bytes := current.bytes - previous.bytes
    packets := current.packets - previous.packets
    attachmentGeneration := current.attachmentGeneration
    byteDomain := current.byteDomain
    uncertaintyMs := current.uncertaintyMs }

structure CounterRateBook (K : Type*) where
  previous : K → Option CumulativeCounterSample

namespace CounterRateBook

variable {K : Type*} [DecidableEq K] (book : CounterRateBook K)

def new : CounterRateBook K := ⟨fun _ => none⟩

def remove (key : K) : CounterRateBook K := ⟨Function.update book.previous key none⟩

def insert (key : K) (sample : CumulativeCounterSample) : CounterRateBook K :=
  ⟨Function.update book.previous key (some sample)⟩

@[simp] theorem remove_self (key : K) : (book.remove key).previous key = none := Function.update_self ..

@[simp] theorem insert_self (key : K) (sample : CumulativeCounterSample) :
    (book.insert key sample).previous key = some sample := Function.update_self ..

def update (key : K) (current : CumulativeCounterSample) : CounterRateBook K × CounterUpdate :=
  if current.readEndMs < current.readBeginMs then (book.remove key, .reset .readIntervalInvalid)
  else
    (book.insert key current,
      match book.previous key with
      | none => .warmup
      | some previous =>
        if current.attachmentGeneration ≠ previous.attachmentGeneration then .reset .generationChanged
        else if current.source ≠ previous.source ∨ current.direction ≠ previous.direction ∨
            current.byteDomain ≠ previous.byteDomain then .reset .semanticsChanged
        else if current.sampleMs ≤ previous.sampleMs then .reset .timeDidNotAdvance
        else if current.bytes < previous.bytes ∨ current.packets < previous.packets then .reset .counterDecreased
        else .segment (segmentBetween previous current))

end CounterRateBook

/-! ### The runtime -/

def edgeHistorySegments : ℕ := 12

structure EdgeDirectionObservation where
  segment : Option CounterSegment
  coverage : Coverage
  scope : TrafficScope
  failure : Option MuxFailure
  reasonCodes : List String
  deriving DecidableEq

def EdgeDirectionObservation.unavailable (reason : String) : EdgeDirectionObservation :=
  ⟨none, .unavailable, .none, none, [reason]⟩

structure EdgeClientObservation where
  attachment : Attachment
  tx : EdgeDirectionObservation
  rx : EdgeDirectionObservation
  deriving DecidableEq

/-- A history that the map does not hold is the empty one. -/
structure AccessEdgeRuntime where
  topology : TopologyTable
  latestWifi : Option StationCounterSnapshot
  wifiFresh : Bool
  epochId : ℕ
  rates : CounterRateBook (AttachmentKey × RateSource × Direction)
  histories : AttachmentKey × Direction → List CounterSegment
  sampleMs : ℕ
  clients : List EdgeClientObservation

namespace AccessEdgeRuntime

def new : AccessEdgeRuntime := ⟨.new, none, false, 0, .new, fun _ => [], 0, []⟩

variable (runtime : AccessEdgeRuntime)

def resetForDisabledMode : AccessEdgeRuntime :=
  { runtime with
    rates := .new
    histories := fun _ => []
    topology := runtime.topology.clearActive
    sampleMs := 0
    clients := []
    latestWifi := none
    wifiFresh := false }

/-- Drops the baselines and the histories of a key. -/
def removeLedgers (key : AttachmentKey) : AccessEdgeRuntime :=
  [Direction.tx, .rx].foldl (fun runtime direction =>
    { runtime with
      rates := [RateSource.edgePort, .edgeWifi].foldl (fun rates source => rates.remove (key, source, direction))
        runtime.rates
      histories := Function.update runtime.histories (key, direction) [] }) runtime

/-- `collect_topology` from the point where the providers have answered. -/
def collectTopology (latestWifi : Option StationCounterSnapshot) (wifiFresh : Bool)
    (observations : List AttachmentObservation) (topologyComplete : Bool) : AccessEdgeRuntime :=
  let (topology, update) := runtime.topology.reconcile observations topologyComplete
  (update.removed ++ update.changed).foldl removeLedgers { runtime with topology, latestWifi, wifiFresh }

def updateDirection (attachment : Attachment) (direction : Direction) (counters : LinkCounters)
    (readTimes : ℕ × ℕ × ℕ) (source : RateSource) (byteDomain : ByteDomain) (coverage : Coverage)
    (scope : TrafficScope) : AccessEdgeRuntime × EdgeDirectionObservation :=
  let (readBeginMs, readEndMs, sampleMs) := readTimes
  let current := CumulativeCounterSample.fromLink runtime.epochId sampleMs readBeginMs readEndMs source direction counters
    attachment.generation byteDomain (readEndMs - readBeginMs)
  let (rates, outcome) := runtime.rates.update (attachment.key, source, direction) current
  let history := (attachment.key, direction)
  match outcome with
  | .warmup => ({ runtime with rates }, ⟨none, coverage, scope, none, ["warmup"]⟩)
  | .reset _ =>
    ({ runtime with rates, histories := Function.update runtime.histories history [] },
      ⟨none, coverage, scope, some .counterReset, ["counter_reset"]⟩)
  | .segment segment =>
    let segments := runtime.histories history ++ [segment]
    ({ runtime with
        rates
        histories := Function.update runtime.histories history (segments.drop (segments.length - edgeHistorySegments)) },
      ⟨some segment, coverage, scope, none, []⟩)

/-- Both directions of an attachment. -/
def updateDirections (attachment : Attachment) (counters : LinkCounters) (readTimes : ℕ × ℕ × ℕ) (source : RateSource)
    (byteDomain : ByteDomain) (coverage : Coverage) (scope : TrafficScope) :
    AccessEdgeRuntime × EdgeDirectionObservation × EdgeDirectionObservation :=
  let (runtime, tx) := runtime.updateDirection attachment .tx counters readTimes source byteDomain coverage scope
  let (runtime, rx) := runtime.updateDirection attachment .rx counters readTimes source byteDomain coverage scope
  (runtime, tx, rx)

/-- The station that the attachment is fed from. -/
def stationOf (stations : Option StationCounterSnapshot) (attachment : Attachment) :
    Option (StationCounterSnapshot × StationCounterSample) :=
  stations.bind fun snapshot => (snapshot.stations.find? fun station => station.mac = attachment.key.mac &&
    station.ifindex = attachment.point.ifindex &&
      station.associationGeneration = attachment.sourceGeneration).map fun station => (snapshot, station)

def updateStation (stations : Option StationCounterSnapshot) (attachment : Attachment) :
    AccessEdgeRuntime × EdgeDirectionObservation × EdgeDirectionObservation :=
  match stationOf stations attachment with
  | some (snapshot, station) =>
    let coverage : Coverage := if station.provesDirectClientInterface then .full else .partially
    let (runtime, tx, rx) := runtime.updateDirections attachment station.counters
      (snapshot.readBeginMs, snapshot.readEndMs, snapshot.readEndMs) .edgeWifi .stationData coverage .unicast
    if coverage = .partially then
      (runtime, { tx with reasonCodes := tx.reasonCodes ++ ["wifi_shared_or_unproven_interface"] },
        { rx with reasonCodes := rx.reasonCodes ++ ["wifi_shared_or_unproven_interface"] })
    else (runtime, tx, rx)
  | none =>
    (runtime, .unavailable "nl80211_station_sample_missing", .unavailable "nl80211_station_sample_missing")

def updatePort (counters : String → Option LinkCounters) (readTimes : ℕ × ℕ × ℕ) (attachment : Attachment) :
    AccessEdgeRuntime × EdgeDirectionObservation × EdgeDirectionObservation :=
  match counters attachment.point.ifname with
  | some value =>
    if !attachment.ambiguous && attachment.trust ≠ .shared && attachment.trust ≠ .unknown then
      -- an attribution proof stays partial: a silent peer may stand behind the port
      runtime.updateDirections attachment value readTimes .edgePort .l2NoFcs .partially .allFrames
    else
      let unavailable : EdgeDirectionObservation :=
        { EdgeDirectionObservation.unavailable
            (if attachment.ambiguous then "attachment_ambiguous" else "shared_or_unproven_port") with
          coverage := .partially
          scope := .allFrames
          failure := if attachment.ambiguous then some .attachmentAmbiguous else none }
      (runtime, unavailable, unavailable)
  | none => (runtime, .unavailable "port_counter_missing", .unavailable "port_counter_missing")

def updateClient (stations : Option StationCounterSnapshot) (counters : String → Option LinkCounters)
    (readTimes : ℕ × ℕ × ℕ) (attachment : Attachment) :
    AccessEdgeRuntime × EdgeDirectionObservation × EdgeDirectionObservation :=
  match attachment.point.kind with
  | .wifi => runtime.updateStation stations attachment
  | .ethernet => runtime.updatePort counters readTimes attachment

def updateRates (counters : String → Option LinkCounters) (readBeginMs readEndMs sampleMs : ℕ) : AccessEdgeRuntime :=
  let stations := if runtime.wifiFresh then runtime.latestWifi else none
  let (runtime, clients) := runtime.topology.active.foldl (fun (runtime, clients) attachment =>
      let (runtime, tx, rx) := runtime.updateClient stations counters (readBeginMs, readEndMs, sampleMs) attachment
      (runtime, clients ++ [⟨attachment, tx, rx⟩]))
    ({ runtime with epochId := saturatingAdd runtime.epochId 1 }, [])
  { runtime with sampleMs, clients }

end AccessEdgeRuntime

/-! ### Aggregates -/

def aggregateHistory (history : List CounterSegment) (startMs endMs : ℕ) : Option ObservedDelta :=
  let selected := history.filter fun segment => segment.startMs ≥ startMs - classifierReadEndSkewMs &&
    segment.endMs ≤ saturatingAdd endMs classifierReadEndSkewMs
  match selected.head?, selected.getLast? with
  | some first, some last =>
    if absDiff first.startMs startMs > classifierReadEndSkewMs || absDiff last.endMs endMs > classifierReadEndSkewMs ||
        (selected.zip selected.tail).any (fun pair => pair.1.endMs ≠ pair.2.startMs) ||
        selected.any (fun segment => segment.source ≠ first.source || segment.byteDomain ≠ first.byteDomain ||
          segment.attachmentGeneration ≠ first.attachmentGeneration) then
      none
    else
      some
        { source := first.source
          bytes := selected.foldl (fun total segment => saturatingAdd total segment.bytes) 0
          packets := selected.foldl (fun total segment => saturatingAdd total segment.packets) 0
          byteDomain := first.byteDomain
          readEndMs := last.readEndMs }
  | _, _ => none

def AccessEdgeRuntime.aggregateEdge (runtime : AccessEdgeRuntime) (key : AttachmentKey) (direction : Direction)
    (startMs endMs : ℕ) : Option ObservedDelta :=
  aggregateHistory (runtime.histories (key, direction)) startMs endMs

end Lanspeedd
