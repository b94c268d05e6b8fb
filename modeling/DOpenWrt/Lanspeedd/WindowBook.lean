import Mathlib.Data.List.Sort
import DOpenWrt.Lanspeedd.CoverageBook
import DOpenWrt.Lanspeedd.EcmNode

/-!
# The window of the nodes

`NssWindowBook` of `platform/nss/window.rs`: the totals and the rates of the clients, from the growth of the counters of
their nodes between two snapshots, and the coverage window of that growth.
-/

namespace Lanspeedd.RateWindow

open Std
open EcmNode (NodeSnapshot NodeCounters)

attribute [local instance] lexOrd

def nodeBaselineRetentionMs : ℕ := 60000
def rateHoldMs : ℕ := 1500
def maxRateWindowMs : ℕ := 5000

/-- The identity and the generation of a node. -/
abbrev NodeKey := String × UInt64

def nodeKey (node : NodeCounters) : NodeKey := (node.identityKey, node.generation)

structure WindowClient where
  identityKey : String
  delta : TrafficCounters
  total : TrafficCounters
  txBps : UInt64
  rxBps : UInt64

structure PublishedClientRate where
  startMs : UInt64
  endMs : UInt64
  delta : TrafficCounters
  txBps : UInt64
  rxBps : UInt64

def PublishedClientRate.held (sampleMs : UInt64) (published : PublishedClientRate) : Bool :=
  decide (sampleMs.toNat - published.endMs.toNat ≤ rateHoldMs)

structure ClientDelta where
  raw : TrafficCounters := .zero
  normalized : TrafficCounters := .zero
  startMs : Option UInt64 := none
  txBps : UInt64 := 0
  rxBps : UInt64 := 0

def ClientDelta.progressed (delta : ClientDelta) : Bool := delta.startMs.isSome

structure WindowOutput where
  quality : WindowQuality
  reason : String
  startMs : UInt64
  endMs : UInt64
  clients : List WindowClient
  freshRateSample : Bool
  heldRateAgeMs : Option UInt64
  coverage : CoverageWindow

structure NodeBaseline where
  counters : TrafficCounters
  lastSeenMs : UInt64
  lastProgressMs : UInt64

def NodeBaseline.retained (sampleMs : UInt64) (baseline : NodeBaseline) : Bool :=
  decide (sampleMs.toNat - baseline.lastSeenMs.toNat ≤ nodeBaselineRetentionMs)

/-- The last three rates of a node. -/
structure NodeRateHistory where
  samples : Fin 3 → UInt64 := fun _ => 0
  len : ℕ := 0
  next : Fin 3 := 0

/-- `push`: the rate, or the median as soon as there are three. -/
def NodeRateHistory.push (history : NodeRateHistory) (bps : UInt64) : NodeRateHistory × UInt64 :=
  let samples := Function.update history.samples history.next bps
  let len := if history.len < 3 then history.len + 1 else history.len
  let ordered := (List.ofFn samples).insertionSort (· ≤ ·)
  ({ samples, len, next := history.next + 1 }, if len < 3 then bps else ordered.getD 1 0)

abbrev RateHistories := TreeMap NodeKey NodeRateHistory

/-- `entry(key).or_default().push(bps)`. -/
def RateHistories.push (histories : RateHistories) (key : NodeKey) (bps : UInt64) : RateHistories × UInt64 :=
  let (history, median) := (TreeMap.getD histories key {}).push bps
  (TreeMap.insert histories key history, median)

structure NssWindowBook where
  initialized : Bool := false
  previousSampleMs : Option UInt64 := none
  previousLan : Option LanClock := none
  previousNodes : TreeMap NodeKey NodeBaseline := ∅
  txRateHistories : RateHistories := ∅
  rxRateHistories : RateHistories := ∅
  committedTotals : TreeMap String TrafficCounters := ∅
  publishedRates : TreeMap String PublishedClientRate := ∅
  coverage : NssCoverageBook := {}

/-- `sample_ms.saturating_sub(before_ms)`. -/
def elapsedMs (sampleMs beforeMs : UInt64) : UInt64 := if beforeMs ≤ sampleMs then sampleMs - beforeMs else 0

/-- `total.entry(identity).or_default()`, added to. -/
def addTotal (totals : TreeMap String TrafficCounters) (identity : String) (value : TrafficCounters) :
    TreeMap String TrafficCounters :=
  totals.insert identity (addAssign (totals.getD identity .zero) value)

namespace NssWindowBook

/-! ### Deltas of the nodes -/

abbrev ClientDeltas := TreeMap String ClientDelta

/-- What a delta with traffic adds to the one of its client, and the rates it pushes. -/
def progress (book : NssWindowBook) (key : NodeKey) (clientDelta : ClientDelta) (normalized : TrafficCounters)
    (startMs windowMs : UInt64) : NssWindowBook × ClientDelta :=
  let clientDelta := { clientDelta with
    normalized := addAssign clientDelta.normalized normalized
    startMs := some (clientDelta.startMs.elim startMs fun current => min current startMs) }
  let (book, clientDelta) :=
    if normalized.txBytes ≠ 0 then
      let (histories, txBps) := book.txRateHistories.push key (rate normalized.txBytes windowMs)
      ({ book with txRateHistories := histories },
        { clientDelta with txBps := saturatingAdd64 clientDelta.txBps txBps })
    else (book, clientDelta)
  if normalized.rxBytes ≠ 0 then
    let (histories, rxBps) := book.rxRateHistories.push key (rate normalized.rxBytes windowMs)
    ({ book with rxRateHistories := histories }, { clientDelta with rxBps := saturatingAdd64 clientDelta.rxBps rxBps })
  else (book, clientDelta)

/-- The loop body of `node_deltas`. An error carries the book as it was left. -/
def nodeDelta (sampleMs previousSampleMs : UInt64) (state : NssWindowBook × ClientDeltas) (node : NodeCounters) :
    Except (String × NssWindowBook) (NssWindowBook × ClientDeltas) :=
  let (book, deltas) := state
  let key := nodeKey node
  let previous := book.previousNodes[key]?
  -- the first observation of a generation is a baseline
  match previous.elim (some .zero) fun previous => checkedDelta node.counters previous.counters with
  | none => .error ("ecm_node_counter_reset", book)
  | some delta =>
    let lastProgressMs := (previous.map fun baseline => baseline.lastProgressMs).getD sampleMs
    let clientDelta := deltas.getD node.identityKey {}
    let clientDelta := { clientDelta with raw := addAssign clientDelta.raw delta }
    let seen (book : NssWindowBook) (lastProgressMs : UInt64) : NssWindowBook := { book with
      previousNodes := book.previousNodes.insert key ⟨node.counters, sampleMs, lastProgressMs⟩ }
    if hasTraffic delta then
      -- after a long idle period the traffic may have resumed at any time
      let startMs :=
        if maxRateWindowMs < sampleMs.toNat - lastProgressMs.toNat then previousSampleMs else lastProgressMs
      match delta.fcsNormalized with
      | none => .error ("ecm_node_fcs_overflow", book)
      | some normalized =>
        let (book, clientDelta) := book.progress key clientDelta normalized startMs (elapsedMs sampleMs startMs)
        .ok (seen book sampleMs, deltas.insert node.identityKey clientDelta)
    else .ok (seen book lastProgressMs, deltas.insert node.identityKey clientDelta)

def nodeDeltas (book : NssWindowBook) (snapshot : NodeSnapshot) (previousSampleMs : UInt64) :
    Except (String × NssWindowBook) (NssWindowBook × ClientDeltas) := do
  let book :=
    { book with previousNodes := book.previousNodes.filter fun _ baseline => baseline.retained snapshot.sampleMs }
  let (book, deltas) ← snapshot.nodes.foldlM (nodeDelta snapshot.sampleMs previousSampleMs) (book, ∅)
  return ({ book with
    txRateHistories := TreeMap.filter (fun key _ => book.previousNodes.contains key) book.txRateHistories
    rxRateHistories := TreeMap.filter (fun key _ => book.previousNodes.contains key) book.rxRateHistories }, deltas)

/-! ### Outputs -/

def expirePublishedRates (book : NssWindowBook) (sampleMs : UInt64) : NssWindowBook :=
  { book with publishedRates := book.publishedRates.filter fun _ published => published.held sampleMs }

def visibleRateClients (book : NssWindowBook) : List WindowClient :=
  book.committedTotals.toList.map fun (identityKey, total) =>
    let published := book.publishedRates[identityKey]?
    { identityKey, total
      delta := published.elim .zero fun rate => rate.delta
      txBps := published.elim 0 fun rate => rate.txBps
      rxBps := published.elim 0 fun rate => rate.rxBps }

def visibleZeroClients (book : NssWindowBook) : List WindowClient :=
  book.committedTotals.toList.map fun (identityKey, total) => ⟨identityKey, .zero, total, 0, 0⟩

def zeroOutput (book : NssWindowBook) (quality : WindowQuality) (reason : String) (sampleMs : UInt64)
    (coverage : CoverageWindow) : WindowOutput :=
  ⟨quality, reason, sampleMs, sampleMs, book.visibleZeroClients, true, none, coverage⟩

def rebaselineNode (sampleMs : UInt64) (book : NssWindowBook) (node : NodeCounters) : NssWindowBook :=
  { book with
    previousNodes := book.previousNodes.insert (nodeKey node) ⟨node.counters, sampleMs, sampleMs⟩
    committedTotals := node.counters.fcsNormalized.elim book.committedTotals
      (addTotal book.committedTotals node.identityKey) }

def rebaseline (book : NssWindowBook) (nodes : NodeSnapshot) (lan : LanClock) : NssWindowBook :=
  let book := { book with
    initialized := true
    previousSampleMs := some nodes.sampleMs
    previousLan := some lan
    previousNodes := ∅
    txRateHistories := ∅
    rxRateHistories := ∅
    committedTotals := ∅ }
  let book := nodes.nodes.foldl (rebaselineNode nodes.sampleMs) book
  { book with publishedRates := ∅, coverage := book.coverage.clear lan }

/-- The totals and the published rates after the loop of `publish_rate`, for one client. -/
def publishClient (endMs : UInt64) (book : NssWindowBook) (entry : String × ClientDelta) : NssWindowBook :=
  { book with
    committedTotals := addTotal book.committedTotals entry.1 entry.2.normalized
    publishedRates := entry.2.startMs.elim book.publishedRates fun startMs =>
      book.publishedRates.insert entry.1 ⟨startMs, endMs, entry.2.normalized, entry.2.txBps, entry.2.rxBps⟩ }

def publishRate (book : NssWindowBook) (endMs : UInt64) (deltas : ClientDeltas) (coverage : CoverageWindow) :
    NssWindowBook × WindowOutput :=
  let progressed := deltas.toList.filter fun entry => entry.2.progressed
  let startMs := progressed.foldl (fun startMs entry => min startMs (entry.2.startMs.getD startMs)) endMs
  let sampleTotal := sum (progressed.map fun entry => entry.2.normalized)
  let book := deltas.toList.foldl (publishClient endMs) book
  let book := book.expirePublishedRates endMs
  let quality : WindowQuality :=
    if saturatingAdd64 sampleTotal.txBytes sampleTotal.rxBytes < minCoverageBytes then .lowTraffic else .ok
  (book, ⟨quality, "ecm_node_delta_published", startMs, endMs, book.visibleRateClients, true, none, coverage⟩)

def withoutRateProgress (book : NssWindowBook) (sampleMs previousSampleMs : UInt64) (coverage : CoverageWindow) :
    NssWindowBook × WindowOutput :=
  let book := book.expirePublishedRates sampleMs
  let published := book.publishedRates.toList.map Prod.snd
  match published with
  | [] => (book, book.zeroOutput .idle "ecm_node_idle" (min previousSampleMs sampleMs) coverage)
  | first :: rest =>
    let startMs := rest.foldl (fun startMs rate => min startMs rate.startMs) first.startMs
    let endMs := rest.foldl (fun endMs rate => max endMs rate.endMs) first.endMs
    let age := rest.foldl (fun age rate => max age (elapsedMs sampleMs rate.endMs)) (elapsedMs sampleMs first.endMs)
    (book, ⟨.pending, "ecm_node_batch_pending", startMs, endMs, book.visibleRateClients, false, some age, coverage⟩)

/-! ### The update -/

/-- A reset of `update`. -/
def reset (book : NssWindowBook) (nodes : NodeSnapshot) (lan : LanClock) (quality : WindowQuality) (reason : String) :
    NssWindowBook × WindowOutput :=
  let book := book.rebaseline nodes lan
  (book, book.zeroOutput quality reason nodes.sampleMs (.empty quality reason lan.sampleMs))

def resetReason (nodes : NodeSnapshot) (lan : LanClock) (previousSampleMs : UInt64) (previousLan : LanClock) :
    Option String :=
  if lan.interface ≠ previousLan.interface then some "lan_boundary_changed"
  else if nodes.sampleMs ≤ previousSampleMs ∨ lan.sampleMs ≤ previousLan.sampleMs then some "sample_clock_reset"
  else if maxRateWindowMs < nodes.sampleMs.toNat - previousSampleMs.toNat then some "ecm_sample_gap"
  else if (checkedDelta lan.counters previousLan.counters).isNone then some "lan_counter_reset"
  else none

def update (book : NssWindowBook) (nodes : NodeSnapshot) (lan : LanClock) : NssWindowBook × WindowOutput :=
  if !book.initialized then book.reset nodes lan .warmup "cold_start"
  else
    match book.previousSampleMs, book.previousLan with
    | some previousSampleMs, some previousLan =>
      match resetReason nodes lan previousSampleMs previousLan with
      | some reason => book.reset nodes lan .counterReset reason
      | none =>
        match book.nodeDeltas nodes previousSampleMs with
        | .error (reason, book) => book.reset nodes lan .counterReset reason
        | .ok (book, nodeDeltas) =>
          let coverageDelta := sum (nodeDeltas.toList.map fun entry => entry.2.raw)
          let (coverageBook, coverage) := book.coverage.update coverageDelta lan
          let book := { book with
            previousSampleMs := some nodes.sampleMs, previousLan := some lan, coverage := coverageBook }
          if nodeDeltas.toList.any fun entry => entry.2.progressed then
            book.publishRate nodes.sampleMs nodeDeltas coverage
          else book.withoutRateProgress nodes.sampleMs previousSampleMs coverage
    | _, _ => book.reset nodes lan .counterReset "missing_baseline"

end NssWindowBook

end Lanspeedd.RateWindow
