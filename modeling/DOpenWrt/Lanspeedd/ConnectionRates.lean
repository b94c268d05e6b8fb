import DOpenWrt.Lib.HistoryRing
import DOpenWrt.Lanspeedd.RateKeyOrder

/-!
# The rates of connections

`ConnectionRateBook` of `connection_details.rs`. Its immediate mode takes every sample for the next baseline, its deferred
mode leaves a counter that stands still at its last progress for one sample.
-/

namespace Lanspeedd

def ConnectionProtocol.toRate : ConnectionProtocol → RateProtocol
  | tcp => .tcp
  | udp => .udp

namespace ConnectionRateKey

def new (identityKey : String) (detail : ClientConnectionDetail) : ConnectionRateKey where
  conntrackId := none
  conntrackZone := none
  identityKey := identityKey
  clientIp := detail.clientIp
  clientPort := detail.clientPort
  remoteIp := some detail.remoteIp
  remotePort := detail.remotePort
  protocol := detail.protocol.toRate
  direction := detail.direction

def withoutGeneration (key : ConnectionRateKey) : ConnectionRateKey :=
  { key with conntrackId := none, conntrackZone := none }

end ConnectionRateKey

structure ConnectionCounterPoint where
  sampleMs : Nat
  txBytes : BitVec 64
  rxBytes : BitVec 64
deriving DecidableEq, Repr

def deferredRateMedianSamples : Nat := 3

structure DeferredRateHistory where
  samples : Vector Nat deferredRateMedianSamples
  len : Nat
  next : Nat
deriving DecidableEq, Repr

namespace DeferredRateHistory

def default : DeferredRateHistory := ⟨.replicate _ 0, 0, 0⟩

/-- The middle one of the sorted values. -/
def median (samples : List Nat) : Nat := (samples.mergeSort[deferredRateMedianSamples / 2]?).getD 0

/-- The history with one more rate, and the rate that is published. -/
def push (history : DeferredRateHistory) (bps : Nat) : DeferredRateHistory × Nat :=
  let history : DeferredRateHistory :=
    { samples := history.samples.setIfInBounds history.next bps
      len := if history.len < deferredRateMedianSamples then history.len + 1 else history.len
      next := (history.next + 1) % deferredRateMedianSamples }
  (history, if history.len < deferredRateMedianSamples then bps else median history.samples.toList)

end DeferredRateHistory

structure DeferredCounterRate where
  sampleMs : Nat
  bytes : Nat
  bps : Nat
  heldOnce : Bool
  history : DeferredRateHistory
deriving DecidableEq, Repr

structure DeferredConnectionRate where
  tx : DeferredCounterRate
  rx : DeferredCounterRate
deriving DecidableEq, Repr

/-- The product of a `u64` value and 8000 fits `u128`, in which it is made. -/
def rateFromCounters (current previous deltaMs : Nat) : Nat :=
  if current < previous then 0
  else if deltaMs = 0 then 0
  else min ((current - previous) * 8 * 1000 / deltaMs) u64Max

/-- A counter from which the next rate is computed. -/
def rebaselined (sampleMs bytes : Nat) : DeferredCounterRate := ⟨sampleMs, bytes, 0, false, .default⟩

def deferredCounterRate (sampleMs bytes : Nat) : Option DeferredCounterRate → DeferredCounterRate
  | none => rebaselined sampleMs bytes
  | some previous =>
    if bytes = previous.bytes then
      if 0 < previous.bps ∧ ¬ previous.heldOnce then { previous with heldOnce := true }
      else rebaselined sampleMs bytes
    else if sampleMs < previous.sampleMs then rebaselined sampleMs bytes
    else
      let deltaMs := sampleMs - previous.sampleMs
      if bytes < previous.bytes ∨ deltaMs = 0 then rebaselined sampleMs bytes
      else
        let (history, bps) := previous.history.push (rateFromCounters bytes previous.bytes deltaMs)
        { sampleMs, bytes, bps, heldOnce := false, history }

structure ConnectionRateBook where
  lastSampleMs : Option Nat
  previous : Std.TreeMap ConnectionRateKey ConnectionCounterPoint
  lastDeferredSampleMs : Option Nat
  deferred : Std.TreeMap ConnectionRateKey DeferredConnectionRate

/-- The counters of all generations of a connection. -/
def foldGenerations (counters : ConnectionCountersMap) : ConnectionCountersMap :=
  counters.foldl (fun folded key counters =>
    let value := folded.getD key.withoutGeneration ⟨0, 0⟩
    folded.insert key.withoutGeneration
      ⟨saturatingAdd64 value.txBytes counters.txBytes, saturatingAdd64 value.rxBytes counters.rxBytes⟩) ∅

/-- The rates of every detail are set to those of its key. -/
def publishRates (rates : ConnectionRateKey → Nat × Nat) (details : ConnectionDetails) : ConnectionDetails :=
  details.map fun identityKey set => { set with
    connections := set.connections.map fun detail =>
      let (txBps, rxBps) := rates (.new identityKey detail)
      { detail with txBps, rxBps } }

namespace ConnectionRateBook

def default : ConnectionRateBook := ⟨none, ∅, none, ∅⟩

def update (book : ConnectionRateBook) (sampleMs : Nat) (counters : ConnectionCountersMap) (details : ConnectionDetails) :
    ConnectionRateBook × ConnectionDetails :=
  let book :=
    if book.lastDeferredSampleMs.isSome ∨ ¬ book.deferred.isEmpty then
      { book with lastDeferredSampleMs := none, deferred := ∅ }
    else book
  if book.lastSampleMs = some sampleMs then (book, details)
  else
    let current := (foldGenerations counters).map fun _ counters =>
      (⟨sampleMs, counters.txBytes, counters.rxBytes⟩ : ConnectionCounterPoint)
    let rates := fun key => match current[key]?, book.previous[key]? with
      | some point, some previous =>
        if point.sampleMs < previous.sampleMs then (0, 0)
        else
          let deltaMs := point.sampleMs - previous.sampleMs
          (rateFromCounters point.txBytes.toNat previous.txBytes.toNat deltaMs,
            rateFromCounters point.rxBytes.toNat previous.rxBytes.toNat deltaMs)
      | _, _ => (0, 0)
    ({ book with previous := current, lastSampleMs := some sampleMs }, publishRates rates details)

def updateDeferred (book : ConnectionRateBook) (sampleMs : Nat) (counters : ConnectionCountersMap)
    (details : ConnectionDetails) : ConnectionRateBook × ConnectionDetails :=
  let book :=
    if book.lastSampleMs.isSome ∨ ¬ book.previous.isEmpty then { book with lastSampleMs := none, previous := ∅ }
    else book
  if book.lastDeferredSampleMs = some sampleMs then (book, details)
  else
    let current := (foldGenerations counters).map fun key counters =>
      let previous := book.deferred[key]?
      ({ tx := deferredCounterRate sampleMs counters.txBytes.toNat (previous.map (·.tx))
         rx := deferredCounterRate sampleMs counters.rxBytes.toNat (previous.map (·.rx)) } : DeferredConnectionRate)
    let rates := fun key => match current[key]? with
      | some rate => (rate.tx.bps, rate.rx.bps)
      | none => (0, 0)
    ({ book with deferred := current, lastDeferredSampleMs := some sampleMs }, publishRates rates details)

def clear (_ : ConnectionRateBook) : ConnectionRateBook := default

end ConnectionRateBook

end Lanspeedd
