import DOpenWrt.Lanspeedd.EdgeRuntime

/-!
# The low rate window

`NssLowRateWindow` of `platform/nss/low_rate_window.rs` joins the segments of Access Edge to a longer window while the
rate is low. A map that is only read by its keys is a function.
-/

namespace Lanspeedd

def minPublishWindowMs : ℕ := 2000
def interfaceWindowSkewMs : ℕ := 100

structure InterfaceCounters where
  rxBytes : ℕ
  txBytes : ℕ
  rxPackets : ℕ
  txPackets : ℕ
  deriving DecidableEq

abbrev InterfaceCounterMap := String → Option InterfaceCounters

/-- The snapshot of Access Edge. Its clients are the values of a map by attachment key. -/
structure AccessEdgeSnapshot where
  sampleMs : ℕ
  clients : List EdgeClientObservation
  topologyComplete : Bool
  fdbSource : Option String
  reasonCodes : List String

structure InterfaceWindowRate where
  rxBps : ℕ
  txBps : ℕ
  sampleMs : ℕ
  windowMs : ℕ
  deriving DecidableEq

abbrev EdgeKey := AttachmentKey × Direction

structure NssLowRateWindow where
  edge : EdgeKey → Option (List CounterSegment)
  interfaces : String → Option (List (InterfaceCounters × ℕ))
  observeRates : String → Option InterfaceWindowRate
  highRate : Bool
  publishedWindow : Option (ℕ × ℕ)
  windowMs : ℕ
  highWatermarkBps : ℕ

def EdgeClientObservation.isAuthoritative (client : EdgeClientObservation) : Bool :=
  match client.attachment.point.kind with
  | .wifi =>
    client.attachment.trust = .associatedStation && client.tx.coverage = .full && client.rx.coverage = .full &&
      client.tx.scope = .unicast && client.rx.scope = .unicast
  | .ethernet =>
    !client.attachment.ambiguous && !(client.attachment.trust = .shared || client.attachment.trust = .unknown) &&
      client.tx.coverage = .partially && client.rx.coverage = .partially &&
      client.tx.scope = .allFrames && client.rx.scope = .allFrames

namespace AccessEdgeSnapshot

/-- The observations of all clients, tx before rx. -/
def observations (raw : AccessEdgeSnapshot) : List (EdgeKey × EdgeDirectionObservation) :=
  raw.clients.flatMap fun client =>
    [((client.attachment.key, .tx), client.tx), ((client.attachment.key, .rx), client.rx)]

/-- `complete_raw_rate`: the loop over the clients, each with its two directions. -/
def rawRate : List EdgeClientObservation → ℕ → Option ℕ
  | [], total => some total
  | client :: clients, total =>
    if !client.isAuthoritative then none
    else do
      let tx ← client.tx.segment
      let txBps ← tx.bps
      let rx ← client.rx.segment
      let rxBps ← rx.bps
      rawRate clients (saturatingAdd (saturatingAdd total txBps) rxBps)

def completeRawRate (raw : AccessEdgeSnapshot) : Option ℕ := do
  let total ← rawRate raw.clients 0
  if raw.clients = [] then none else some total

end AccessEdgeSnapshot

namespace NssLowRateWindow

def default : NssLowRateWindow := ⟨fun _ => none, fun _ => none, fun _ => none, false, none, 0, 0⟩

def configure (window : NssLowRateWindow) (windowMs highWatermarkBps : ℕ) : NssLowRateWindow :=
  let windowMs := max windowMs minPublishWindowMs
  let highWatermarkBps := max highWatermarkBps 1
  if window.windowMs = windowMs ∧ window.highWatermarkBps = highWatermarkBps then window
  else { default with windowMs, highWatermarkBps }

/-! ### Histories -/

/-- The segment goes on from the previous one. -/
def continues (previous segment : CounterSegment) : Bool :=
  !(previous.endMs ≠ segment.startMs || previous.source ≠ segment.source || previous.direction ≠ segment.direction ||
    previous.byteDomain ≠ segment.byteDomain || previous.attachmentGeneration ≠ segment.attachmentGeneration)

def pushSegment (windowMs : ℕ) (history : List CounterSegment) (segment : CounterSegment) : List CounterSegment :=
  let history := if history.getLast?.any fun previous => !continues previous segment then [] else history
  let history :=
    if history.getLast?.all fun previous => previous.endMs ≠ segment.endMs then history ++ [segment] else history
  history.dropWhile fun first => segment.endMs - first.startMs > windowMs

def observeDirection (windowMs : ℕ) (edge : EdgeKey → Option (List CounterSegment))
    (observation : EdgeKey × EdgeDirectionObservation) : EdgeKey → Option (List CounterSegment) :=
  Function.update edge observation.1
    (observation.2.segment.map fun segment => pushSegment windowMs ((edge observation.1).getD []) segment)

def observeEdge (window : NssLowRateWindow) (raw : AccessEdgeSnapshot) : NssLowRateWindow :=
  let edge := raw.observations.foldl (observeDirection window.windowMs) window.edge
  { window with edge := fun key => if key ∈ raw.observations.map fun o => o.1 then edge key else none }

def pushCounters (windowMs : ℕ) (history : List (InterfaceCounters × ℕ)) (current : InterfaceCounters) (sampleMs : ℕ) :
    List (InterfaceCounters × ℕ) :=
  let history :=
    if history.getLast?.any fun previous => sampleMs ≤ previous.2 || current.rxBytes < previous.1.rxBytes ||
      current.txBytes < previous.1.txBytes then [] else history
  let history :=
    if history.getLast?.all fun previous => previous.2 ≠ sampleMs then history ++ [(current, sampleMs)] else history
  trim history
where
  /-- The loop that keeps the nearest sample just outside the window. -/
  trim : List (InterfaceCounters × ℕ) → List (InterfaceCounters × ℕ)
    | first :: second :: third :: rest =>
      if windowMs ≤ sampleMs - second.2 then trim (second :: third :: rest) else first :: second :: third :: rest
    | history => history

def observeInterfaces (window : NssLowRateWindow) (counters : InterfaceCounterMap) (sampleMs : ℕ) : NssLowRateWindow :=
  { window with interfaces := fun name => (counters name).map fun current =>
      pushCounters window.windowMs ((window.interfaces name).getD []) current sampleMs }

def retainCurrent (window : NssLowRateWindow) (raw : AccessEdgeSnapshot) (counters : InterfaceCounterMap)
    (interfaceSampleMs : ℕ) : NssLowRateWindow :=
  let window := { window with edge := fun _ => none, interfaces := fun _ => none }
  let window := (window.observeEdge raw).observeInterfaces counters interfaceSampleMs
  { window with observeRates := fun _ => none, publishedWindow := none }

/-! ### The common window -/

/-- The loop of `common_edge_window`; the last argument counts the directions. -/
def commonWindow (window : NssLowRateWindow) : List EdgeKey → ℕ → Option ℕ → Option (ℕ × Option ℕ)
  | [], startMs, endMs => some (startMs, endMs)
  | key :: keys, startMs, endMs => do
    let history ← window.edge key
    let first ← history.head?
    let last ← history.getLast?
    if endMs.any fun current => current ≠ last.endMs then none
    else window.commonWindow keys (max startMs first.startMs) (some last.endMs)

def edgeKeys (raw : AccessEdgeSnapshot) : List EdgeKey := raw.observations.map fun o => o.1

def commonEdgeWindow (window : NssLowRateWindow) (raw : AccessEdgeSnapshot) : Option (ℕ × ℕ) := do
  let (startMs, endMs) ← window.commonWindow (edgeKeys raw) 0 none
  return (startMs, ← endMs)

def aggregateDirection (window : NssLowRateWindow) (key : AttachmentKey) (direction : Direction) (startMs endMs : ℕ) :
    Option CounterSegment := do
  let history ← window.edge (key, direction)
  let selected := history.filter fun segment => startMs ≤ segment.startMs && segment.endMs ≤ endMs
  let first ← selected.head?
  let last ← selected.getLast?
  if first.startMs ≠ startMs || last.endMs ≠ endMs ||
      (selected.zip selected.tail).any (fun pair => pair.1.endMs ≠ pair.2.startMs) ||
      selected.any (fun segment => segment.source ≠ last.source || segment.direction ≠ direction ||
        segment.byteDomain ≠ last.byteDomain || segment.attachmentGeneration ≠ last.attachmentGeneration) then
    none
  else
    some
      { last with
        startMs, endMs, direction
        bytes := selected.foldl (fun total segment => saturatingAdd total segment.bytes) 0
        packets := selected.foldl (fun total segment => saturatingAdd total segment.packets) 0
        uncertaintyMs := selected.foldl (fun most segment => max most segment.uncertaintyMs) 0 }

/-- The observation with its joined segment. -/
def joined (observation : EdgeDirectionObservation) (segment : CounterSegment) : EdgeDirectionObservation :=
  { observation with
    segment := some segment
    reasonCodes := ((observation.reasonCodes ++ ["nss_low_rate_rolling_window"]).mergeSort (· ≤ ·)).eraseReps }

def aggregateClient (window : NssLowRateWindow) (startMs endMs : ℕ) (client : EdgeClientObservation) :
    Option EdgeClientObservation := do
  let tx ← window.aggregateDirection client.attachment.key .tx startMs endMs
  let rx ← window.aggregateDirection client.attachment.key .rx startMs endMs
  return { client with tx := joined client.tx tx, rx := joined client.rx rx }

def aggregateEdge (window : NssLowRateWindow) (raw : AccessEdgeSnapshot) (startMs endMs : ℕ) :
    Option AccessEdgeSnapshot := do
  let clients ← raw.clients.mapM (window.aggregateClient startMs endMs)
  return { raw with clients, sampleMs := endMs }

def interfaceRate (history : List (InterfaceCounters × ℕ)) (currentMs targetWindowMs : ℕ) :
    Option InterfaceWindowRate := do
  let (current, endMs) ← history.getLast?
  let (old, startMs) ← history.argmin fun sample => absDiff (currentMs - sample.2) targetWindowMs
  if endMs < startMs ∨ endMs - startMs = 0 ∨ absDiff (endMs - startMs) targetWindowMs > interfaceWindowSkewMs ∨
      current.rxBytes < old.rxBytes ∨ current.txBytes < old.txBytes then
    none
  else
    some
      { rxBps := min ((current.rxBytes - old.rxBytes) * 8000) u64Max / (endMs - startMs)
        txBps := min ((current.txBytes - old.txBytes) * 8000) u64Max / (endMs - startMs)
        sampleMs := endMs
        windowMs := endMs - startMs }

def interfaceRates (window : NssLowRateWindow) (currentMs targetWindowMs : ℕ) : String → Option InterfaceWindowRate :=
  fun name => (window.interfaces name).bind fun history => interfaceRate history currentMs targetWindowMs

/-- The part of `observe` that looks for a window to publish. -/
def publish (window : NssLowRateWindow) (raw : AccessEdgeSnapshot) (interfaceSampleMs : ℕ) :
    Option (NssLowRateWindow × AccessEdgeSnapshot) := do
  let (startMs, endMs) ← window.commonEdgeWindow raw
  if endMs - startMs < minPublishWindowMs then none
  else do
    let published ← window.aggregateEdge raw startMs endMs
    return ({ window with
      observeRates := window.interfaceRates interfaceSampleMs (endMs - startMs)
      publishedWindow := some (startMs, endMs) }, published)

def observe (window : NssLowRateWindow) (raw : AccessEdgeSnapshot) (counters : InterfaceCounterMap)
    (interfaceSampleMs windowMs highWatermarkBps : ℕ) : NssLowRateWindow × AccessEdgeSnapshot :=
  let window := window.configure windowMs highWatermarkBps
  let window := (window.observeInterfaces counters interfaceSampleMs).observeEdge raw
  let window := { window with observeRates := fun _ => none, publishedWindow := none }
  match raw.completeRawRate with
  | none => ({ window with highRate := false }, raw)
  | some totalBps =>
    if window.highWatermarkBps ≤ totalBps then
      ({ window with highRate := true }.retainCurrent raw counters interfaceSampleMs, raw)
    else if window.highRate then
      ({ window with highRate := false }.retainCurrent raw counters interfaceSampleMs, raw)
    else (window.publish raw interfaceSampleMs).getD (window, raw)

end NssLowRateWindow

end Lanspeedd
