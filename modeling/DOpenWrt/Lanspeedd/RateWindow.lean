import DOpenWrt.Lib.TreeTotal

/-!
# The rates of a rate window

The functions of `platform/nss/window.rs` that turn the byte counts of a window to the rates of its clients and bring
them into line with the rates of the LAN. A `BTreeMap` is a `TreeMap`, a sum in a `u128` a natural number.
-/

namespace Lanspeedd.RateWindow

open Std

def ecmBpfEventHighRateBps : UInt64 := 8000000
def minOwnershipPercent : ℕ := 90
def highRateRawGapPercent : ℕ := 75
def previousDirectionMinLanPercent : ℕ := 75
def previousDirectionMaxLanPercent : ℕ := 200

structure TrafficCounters where
  txBytes : UInt64
  rxBytes : UInt64
  txPackets : UInt64
  rxPackets : UInt64
  deriving DecidableEq, Inhabited

structure RateWindowValue where
  rxBps : UInt64 := 0
  txBps : UInt64 := 0
  deriving DecidableEq, Inhabited

abbrev RateMap := TreeMap String RateWindowValue

/-! ### Arithmetic -/

def u64Limit : ℕ := 2 ^ 64
def u128Max : ℕ := 2 ^ 128 - 1

def saturatingAdd128 (a b : ℕ) : ℕ := min (a + b) u128Max
def saturatingMul128 (a b : ℕ) : ℕ := min (a * b) u128Max

/-- `u64::try_from(n).unwrap_or(otherwise)`. -/
def tryFromOr (n : ℕ) (otherwise : UInt64) : UInt64 := if n < u64Limit then UInt64.ofNat n else otherwise

def checkedAdd64 (a b : UInt64) : Option UInt64 := if a.toNat + b.toNat < u64Limit then some (a + b) else none
def checkedMul64 (a b : UInt64) : Option UInt64 := if a.toNat * b.toNat < u64Limit then some (a * b) else none

def saturatingAdd64 (a b : UInt64) : UInt64 := tryFromOr (a.toNat + b.toNat) (UInt64.ofNat (u64Limit - 1))

/-- Four bytes of checksum for each packet. -/
def TrafficCounters.fcsNormalized (counters : TrafficCounters) : Option TrafficCounters := do
  let txFcs ← checkedMul64 counters.txPackets 4
  let txBytes ← checkedAdd64 counters.txBytes txFcs
  let rxFcs ← checkedMul64 counters.rxPackets 4
  let rxBytes ← checkedAdd64 counters.rxBytes rxFcs
  some { counters with txBytes, rxBytes }

def rate (bytes windowMs : UInt64) : UInt64 :=
  if windowMs = 0 then 0
  else tryFromOr (saturatingMul128 bytes.toNat 8000 / windowMs.toNat) (UInt64.ofNat (u64Limit - 1))

def TrafficCounters.rates (counters : TrafficCounters) (windowMs : UInt64) : RateWindowValue where
  rxBps := rate counters.rxBytes windowMs
  txBps := rate counters.txBytes windowMs

/-- The rates of the LAN; zero where the counts do not fit. -/
def lanRates (lanRaw : TrafficCounters) (windowMs : UInt64) : RateWindowValue :=
  (lanRaw.fcsNormalized.map fun counters => counters.rates windowMs).getD {}

/-! ### Directions -/

namespace RateWindowValue

def direction (receive : Bool) (value : RateWindowValue) : UInt64 := if receive then value.rxBps else value.txBps

def setDirection (receive : Bool) (bps : UInt64) (value : RateWindowValue) : RateWindowValue :=
  if receive then { value with rxBps := bps } else { value with txBps := bps }

end RateWindowValue

def directionTotal (receive : Bool) (clients : RateMap) : ℕ :=
  clients.foldl (fun total _ value => saturatingAdd128 total (value.direction receive).toNat) 0

/-- `clients.entry(key).or_default()`, assigned through. -/
def updateEntry (clients : RateMap) (key : String) (f : RateWindowValue → RateWindowValue) : RateMap :=
  clients.insert key (f (clients.getD key {}))

/-- `collect` of pairs of which one may be `None`. -/
def rateWindowClients (pending : TreeMap String TrafficCounters) (windowMs : UInt64) : Option RateMap :=
  pending.toList.foldl (fun clients entry => do
    let clients ← clients
    let counters ← entry.2.fcsNormalized
    some (clients.insert entry.1 (counters.rates windowMs))) (some ∅)

def sumRateValues (clients : RateMap) : RateWindowValue :=
  clients.foldl (fun total _ value =>
    ⟨saturatingAdd64 total.rxBps value.rxBps, saturatingAdd64 total.txBps value.txBps⟩) {}

/-! ### Reconciling with a budget -/

def reconcileRateDirection (clients : RateMap) (lanBps : UInt64) (receive : Bool) : RateMap × Bool :=
  let total := directionTotal receive clients
  if total ≤ lanBps.toNat then (clients, false)
  else (clients.map fun _ value => value.setDirection receive
    (tryFromOr (saturatingMul128 (value.direction receive).toNat lanBps.toNat / total) lanBps), true)

def reconcileHighRateDirection (clients : RateMap) (lanBps rawClientBps : UInt64) (receive : Bool) : RateMap × Bool :=
  let physicalBudgetValid := ecmBpfEventHighRateBps ≤ lanBps ∧
    (rawClientBps = 0 ∨ rawClientBps.toNat ≤ saturatingMul128 lanBps.toNat 2)
  if physicalBudgetValid then reconcileRateDirection clients lanBps receive else (clients, false)

def reconcileHighRateSubset (clients : RateMap) (identityKeys : List String) (interfaceBps : UInt64)
    (receive : Bool) : RateMap × Bool :=
  let total := identityKeys.foldl (fun sum key =>
    saturatingAdd128 sum ((clients.getD key {}).direction receive).toNat) 0
  let budget := interfaceBps.toNat
  let budgetValid := ecmBpfEventHighRateBps ≤ interfaceBps ∧ budget < total ∧
    saturatingMul128 total 2 ≤ saturatingMul128 budget 5
  if budgetValid then
    (identityKeys.foldl (fun clients key => clients.modify key fun value => value.setDirection receive
      (tryFromOr (saturatingMul128 (value.direction receive).toNat budget / total) interfaceBps)) clients, true)
  else (clients, false)

/-- The clients of each interface. -/
def interfaceGroups (clients : RateMap) (clientInterfaces : TreeMap String String) : TreeMap String (List String) :=
  clientInterfaces.foldl (fun groups key interface =>
    if clients.contains key then groups.insert interface (groups.getD interface [] ++ [key]) else groups) ∅

def reconcileHighRateInterfaces (clients : RateMap) (clientInterfaces : TreeMap String String)
    (interfaceRates : RateMap) : RateMap × Bool :=
  (interfaceGroups clients clientInterfaces).foldl (fun (clients, reconciled) interface identityKeys =>
    match interfaceRates[interface]? with
    | none => (clients, reconciled)
    | some interfaceRate =>
      let (clients, tx) := reconcileHighRateSubset clients identityKeys interfaceRate.rxBps false
      let (clients, rx) := reconcileHighRateSubset clients identityKeys interfaceRate.txBps true
      (clients, reconciled || tx || rx)) (clients, false)

/-! ### The rates of another window fill the gap -/

/-- The entry of `fallback` whose client has no rate in the direction. -/
def fallbackCandidate (clients : RateMap) (receive : Bool) (entry : String × RateWindowValue) :
    Option (String × UInt64) :=
  let current := ((clients[entry.1]?).map fun current => current.direction receive).getD 0
  let fallbackBps := entry.2.direction receive
  if current = 0 ∧ fallbackBps ≠ 0 then some (entry.1, fallbackBps) else none

/-- The body of a loop that gives each client of a list its rate; a zero rate is not given. -/
def assignRate (receive : Bool) (assigned : UInt64 → UInt64) (state : RateMap × Bool) (entry : String × UInt64) :
    RateMap × Bool :=
  let assigned := assigned entry.2
  if assigned = 0 then state
  else (updateEntry state.1 entry.1 fun value => value.setDirection receive assigned, true)

def fillFallbackDirection (clients fallback : RateMap) (lanBps : UInt64) (receive : Bool) : RateMap × Bool × Bool :=
  let used := directionTotal receive clients
  let budget := lanBps.toNat - used
  let candidates := fallback.toList.filterMap (fallbackCandidate clients receive)
  let total := candidates.foldl (fun sum entry => saturatingAdd128 sum entry.2.toNat) 0
  if total = 0 then (clients, false, false)
  else
    let limited : Bool := budget < total
    let (clients, filled) := candidates.foldl (assignRate receive fun fallbackBps =>
      tryFromOr (if limited then saturatingMul128 fallbackBps.toNat budget / total else fallbackBps.toNat) lanBps)
      (clients, false)
    (clients, filled, limited)

def fallbackRateWindowClients (pendingRaw : TreeMap String TrafficCounters) (fallback : RateMap)
    (lanRaw : TrafficCounters) (windowMs : UInt64) : RateMap × Bool × Bool :=
  let clients := (rateWindowClients pendingRaw windowMs).getD ∅
  let lanRate := lanRates lanRaw windowMs
  let (clients, txReconciled) := reconcileRateDirection clients lanRate.rxBps false
  let (clients, rxReconciled) := reconcileRateDirection clients lanRate.txBps true
  let (clients, txGapFilled, txGapLimited) := fillFallbackDirection clients fallback lanRate.rxBps false
  let (clients, rxGapFilled, rxGapLimited) := fillFallbackDirection clients fallback lanRate.txBps true
  (clients, txGapFilled || rxGapFilled, txReconciled || rxReconciled || txGapLimited || rxGapLimited)

/-! ### Repair from the previous batch -/

structure EcmBpfRateBatch where
  endMs : UInt64
  clients : RateMap
  previousDirectionGapFilled : Bool
  fresh : Bool
  heldAgeMs : Option UInt64

def clearDirection (receive : Bool) (clients : RateMap) : RateMap := clients.map fun _ value => value.setDirection receive 0

/-- The loop over the previous clients that both repairs end with: each gets its part of `selectedTotal`. -/
def assignShares (receive : Bool) (previous : RateMap) (selectedTotal previousTotal : ℕ) (lanBps : UInt64)
    (clients : RateMap) : RateMap × Bool :=
  previous.foldl (fun state key previousValue =>
    let previousBps := previousValue.direction receive
    if previousBps = 0 then state
    else assignRate receive (fun previousBps =>
      tryFromOr (saturatingMul128 previousBps.toNat selectedTotal / previousTotal) lanBps) state (key, previousBps))
    (clearDirection receive clients, false)

def replaceDirectionFromPreviousDistribution (clients previous : RateMap) (lanBps : UInt64) (receive : Bool) :
    RateMap × Bool :=
  if lanBps < ecmBpfEventHighRateBps then (clients, false)
  else
    let previousTotal := directionTotal receive previous
    if previousTotal = 0 then (clients, false)
    else assignShares receive previous lanBps.toNat previousTotal lanBps clients

def repairPreviousCompleteLowDirection (clients previous : RateMap) (lanBps : UInt64) (receive : Bool) :
    RateMap × Bool :=
  if lanBps = 0 ∨ ecmBpfEventHighRateBps ≤ lanBps then (clients, false)
  else
    let currentTotal := directionTotal receive clients
    let previousTotal := directionTotal receive previous
    let lanTotal := lanBps.toNat
    if previousTotal ≤ currentTotal
        ∨ saturatingMul128 lanTotal minOwnershipPercent ≤ saturatingMul128 currentTotal 100
        ∨ saturatingMul128 previousTotal 100 < saturatingMul128 lanTotal previousDirectionMinLanPercent
        ∨ saturatingMul128 lanTotal previousDirectionMaxLanPercent < saturatingMul128 previousTotal 100 then
      (clients, false)
    else assignShares receive previous (min previousTotal lanTotal) previousTotal lanBps clients

def repairPreviousCompleteHighDirections (clients : RateMap) (previous : Option EcmBpfRateBatch)
    (currentStartMs : UInt64) (lanRate : RateWindowValue) (repairTx repairRx : Bool) : RateMap × Bool × Bool :=
  match previous.filter fun batch => batch.fresh && batch.heldAgeMs.isNone && !batch.previousDirectionGapFilled &&
      batch.endMs = currentStartMs with
  | none => (clients, false, false)
  | some previous =>
    let (clients, repairedTx) :=
      if repairTx then replaceDirectionFromPreviousDistribution clients previous.clients lanRate.rxBps false
      else (clients, false)
    let (clients, repairedRx) :=
      if repairRx then replaceDirectionFromPreviousDistribution clients previous.clients lanRate.txBps true
      else (clients, false)
    (clients, repairedTx, repairedRx)

/-! ### Windows of a high rate -/

def highRateRawGap (rawBps lanBps : UInt64) : Bool :=
  ecmBpfEventHighRateBps ≤ lanBps &&
    saturatingMul128 rawBps.toNat 100 < saturatingMul128 lanBps.toNat highRateRawGapPercent

def alignedEventRepairReady (rawBps eventBps lanBps : UInt64) : Bool :=
  highRateRawGap rawBps lanBps && rawBps < eventBps

/-- The loop of `aligned_high_rate_window_clients` over the fallback rates. -/
def selectEventRates (clients fallback : RateMap) (repairTx repairRx : Bool) : RateMap × Bool :=
  fallback.foldl (fun (clients, selected) key fallbackRate =>
    let current := clients.getD key {}
    let tx := repairTx && current.txBps < fallbackRate.txBps
    let rx := repairRx && current.rxBps < fallbackRate.rxBps
    (clients.insert key ⟨if rx then fallbackRate.rxBps else current.rxBps,
      if tx then fallbackRate.txBps else current.txBps⟩, selected || tx || rx)) (clients, false)

def alignedHighRateWindowClients (pendingRaw : TreeMap String TrafficCounters) (fallback : RateMap)
    (lanRaw : TrafficCounters) (clientInterfaces : TreeMap String String) (interfaceRates : RateMap)
    (windowMs : UInt64) (previous : Option EcmBpfRateBatch) (currentStartMs : UInt64) :
    Option (RateMap × Bool × Bool × Bool) := do
  let clients ← rateWindowClients pendingRaw windowMs
  let rawTotal := sumRateValues clients
  let fallbackTotal := sumRateValues fallback
  let lanRate := lanRates lanRaw windowMs
  let repairTx := alignedEventRepairReady rawTotal.txBps fallbackTotal.txBps lanRate.rxBps
  let repairRx := alignedEventRepairReady rawTotal.rxBps fallbackTotal.rxBps lanRate.txBps
  let missingTx := highRateRawGap rawTotal.txBps lanRate.rxBps && !repairTx
  let missingRx := highRateRawGap rawTotal.rxBps lanRate.txBps && !repairRx
  let (clients, eventRateSelected) := selectEventRates clients fallback repairTx repairRx
  let (clients, previousTxRepaired, previousRxRepaired) :=
    repairPreviousCompleteHighDirections clients previous currentStartMs lanRate missingTx missingRx
  if missingTx && !previousTxRepaired || missingRx && !previousRxRepaired then none
  else
    let (clients, txReconciled) := reconcileHighRateDirection clients lanRate.rxBps rawTotal.txBps false
    let (clients, rxReconciled) := reconcileHighRateDirection clients lanRate.txBps rawTotal.rxBps true
    let (clients, interfaceReconciled) := reconcileHighRateInterfaces clients clientInterfaces interfaceRates
    some (clients, eventRateSelected, previousTxRepaired || previousRxRepaired,
      txReconciled || rxReconciled || interfaceReconciled)

def highRateDirection (rawBps eventBps : UInt64) : UInt64 × Bool :=
  if eventBps = 0 then (rawBps, false)
  else
    let raw := rawBps.toNat
    let event := eventBps.toNat
    let comparable := raw ≤ saturatingMul128 event 4 ∧ event ≤ saturatingMul128 raw 4
    let rawMissing := rawBps < ecmBpfEventHighRateBps ∧ ecmBpfEventHighRateBps ≤ eventBps
    if rawBps = 0 ∨ comparable ∨ rawMissing then (eventBps, true) else (rawBps, false)

/-- The loop of `high_rate_window_clients` over the fallback rates. -/
def selectHighRates (clients fallback : RateMap) : RateMap × Bool :=
  fallback.foldl (fun (clients, selected) key fallbackRate =>
    let rate := clients.getD key {}
    let (rxBps, rxEvent) := highRateDirection rate.rxBps fallbackRate.rxBps
    let (txBps, txEvent) := highRateDirection rate.txBps fallbackRate.txBps
    (clients.insert key ⟨rxBps, txBps⟩, selected || rxEvent || txEvent)) (clients, false)

def highRateWindowClients (pendingRaw : TreeMap String TrafficCounters) (fallback : RateMap)
    (lanRaw : TrafficCounters) (clientInterfaces : TreeMap String String) (interfaceRates : RateMap)
    (windowMs : UInt64) : RateMap × Bool × Bool :=
  let clients := (rateWindowClients pendingRaw windowMs).getD ∅
  let rawTotal := sumRateValues clients
  let (clients, eventRateSelected) := selectHighRates clients fallback
  let lanRate := lanRates lanRaw windowMs
  let (clients, txReconciled) := reconcileHighRateDirection clients lanRate.rxBps rawTotal.txBps false
  let (clients, rxReconciled) := reconcileHighRateDirection clients lanRate.txBps rawTotal.rxBps true
  let (clients, interfaceReconciled) := reconcileHighRateInterfaces clients clientInterfaces interfaceRates
  (clients, eventRateSelected, txReconciled || rxReconciled || interfaceReconciled)

end Lanspeedd.RateWindow
