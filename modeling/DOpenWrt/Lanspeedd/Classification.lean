import DOpenWrt.Lanspeedd.AccessEdge

/-!
# Classification against the Access Edge

`classification.rs`: for each identity the last epochs of comparable observations of the Access Edge, of NSS and of the
slow path, and what three of them say about the coverage of the Edge bytes. A missing entry of the map is the empty
queue.
-/

namespace Lanspeedd

def classifierReadEndSkewMs : ℕ := 50
def comparisonEpochCount : ℕ := 3

inductive ClassificationState
  | warmup
  | aligned
  | partially
  | stale
  | domainMismatch
  | windowMismatch
  | counterSkew
  | mapLoss
  | unavailable
  deriving DecidableEq

structure ObservedDelta where
  source : RateSource
  bytes : ℕ
  packets : ℕ
  byteDomain : ByteDomain
  readEndMs : ℕ
  deriving DecidableEq

def ObservedDelta.hasTraffic (value : ObservedDelta) : Bool := value.bytes ≠ 0 || value.packets ≠ 0

structure DirectionEpoch where
  edge : Option ObservedDelta
  nss : Option ObservedDelta
  slow : Option ObservedDelta
  deriving DecidableEq

structure ClassificationEpoch where
  epochId : ℕ
  startMs : ℕ
  endMs : ℕ
  attachmentGeneration : ℕ
  attachmentStable : Bool
  mapComplete : Bool
  sourcesComplete : Bool
  classifierWindowAligned : Bool
  tx : DirectionEpoch
  rx : DirectionEpoch
  deriving DecidableEq

structure DirectionClassification where
  edgeBps : Option ℕ
  nssBps : Option ℕ
  slowBps : Option ℕ
  unclassifiedBps : Option ℕ
  coveragePct : Option ℕ
  deriving DecidableEq

structure ClassificationResult where
  state : ClassificationState
  txState : ClassificationState
  rxState : ClassificationState
  windowStartMs : Option ℕ
  windowEndMs : Option ℕ
  classifierWindowMs : Option ℕ
  comparisonWindowMs : Option ℕ
  tx : DirectionClassification
  rx : DirectionClassification
  deriving DecidableEq

/-! ### One epoch -/

def classifierSourcesAligned (epoch : ClassificationEpoch) : Bool :=
  [epoch.tx, epoch.rx].all fun direction =>
    match direction.nss, direction.slow with
    | some nss, some slow =>
      nss.readEndMs - slow.readEndMs ≤ classifierReadEndSkewMs && slow.readEndMs - nss.readEndMs ≤ classifierReadEndSkewMs
    | _, _ => true

def stableObservation : Option ObservedDelta → Option ObservedDelta → Bool
  | some previous, some current => previous.source = current.source && previous.byteDomain = current.byteDomain
  | none, none => true
  | _, _ => false

def stableDirectionContract (previous current : DirectionEpoch) : Bool :=
  stableObservation previous.edge current.edge && stableObservation previous.nss current.nss &&
    stableObservation previous.slow current.slow

/-- No epoch id follows the largest, for which `checked_add` is none. -/
def continuous (previous epoch : ClassificationEpoch) : Bool :=
  previous.endMs = epoch.startMs && previous.epochId + 1 = epoch.epochId &&
    previous.attachmentGeneration = epoch.attachmentGeneration && stableDirectionContract previous.tx epoch.tx &&
    stableDirectionContract previous.rx epoch.rx

def observedOnly (epoch : DirectionEpoch) (windowMs : ℕ) : DirectionClassification where
  edgeBps := epoch.edge.map fun value => scaledBps value.bytes windowMs
  nssBps := epoch.nss.map fun value => scaledBps value.bytes windowMs
  slowBps := epoch.slow.map fun value => scaledBps value.bytes windowMs
  unclassifiedBps := none
  coveragePct := none

def singleEpochResult (epoch : ClassificationEpoch) (state : ClassificationState) : ClassificationResult :=
  let windowMs := if epoch.startMs ≤ epoch.endMs then some (epoch.endMs - epoch.startMs) else none
  { state := state
    txState := state
    rxState := state
    windowStartMs := some epoch.startMs
    windowEndMs := some epoch.endMs
    classifierWindowMs := windowMs
    comparisonWindowMs := none
    tx := observedOnly epoch.tx (windowMs.getD 0)
    rx := observedOnly epoch.rx (windowMs.getD 0) }

/-! ### The comparison window -/

/-- What the loop of `classify_direction` keeps of one source. -/
structure ObservationFold where
  bytes : ℕ
  domain : Option ByteDomain
  present : Bool

def foldObservation (fold : ObservationFold) : Option ObservedDelta → ObservationFold
  | none => { fold with present := false }
  | some value =>
    { fold with
      bytes := saturatingAdd fold.bytes value.bytes
      domain := if value.hasTraffic || fold.domain.isNone then some value.byteDomain else fold.domain }

def foldObservations (values : List (Option ObservedDelta)) : ObservationFold :=
  values.foldl foldObservation ⟨0, none, true⟩

/-- The domain of the classified sources, none if they differ. -/
def classifiedDomain (edgeDomain : Option ByteDomain) : Option ByteDomain → Option ByteDomain → Option (Option ByteDomain)
  | some left, some right => if left ≠ right then none else some (some left)
  | some domain, none => some (some domain)
  | none, some domain => some (some domain)
  | none, none => some edgeDomain

/-- `classify_direction` after its loop. -/
def classifyFolds (edge nss slow : ObservationFold) (windowMs : ℕ) : DirectionClassification × ClassificationState :=
  let result : DirectionClassification :=
    { edgeBps := if edge.present then some (scaledBps edge.bytes windowMs) else none
      nssBps := if nss.present then some (scaledBps nss.bytes windowMs) else none
      slowBps := if slow.present then some (scaledBps slow.bytes windowMs) else none
      unclassifiedBps := none
      coveragePct := none }
  if !edge.present then (result, .unavailable)
  else if classifiedDomain edge.domain nss.domain slow.domain ≠ some edge.domain then (result, .domainMismatch)
  else
    let classified := saturatingAdd nss.bytes slow.bytes
    if classified > edge.bytes then (result, .counterSkew)
    else
      ({ result with
          unclassifiedBps := some (scaledBps (edge.bytes - classified) windowMs)
          coveragePct := if edge.bytes = 0 then none else some (classified * 100 / edge.bytes % 256) }, .aligned)

def classifyDirection (epochs : List DirectionEpoch) (windowMs : ℕ) : DirectionClassification × ClassificationState :=
  classifyFolds (foldObservations (epochs.map (·.edge))) (foldObservations (epochs.map (·.nss)))
    (foldObservations (epochs.map (·.slow))) windowMs

def stateRank : ClassificationState → ℕ
  | .mapLoss => 8
  | .counterSkew => 7
  | .domainMismatch => 6
  | .windowMismatch => 5
  | .stale => 4
  | .partially => 3
  | .unavailable => 2
  | .warmup => 1
  | .aligned => 0

def mergeStates (left right : ClassificationState) : ClassificationState :=
  if stateRank left ≥ stateRank right then left else right

def classifyWindow (first : ClassificationEpoch) (epochs : List ClassificationEpoch) (last : ClassificationEpoch) :
    ClassificationResult :=
  let windowMs := last.endMs - first.startMs
  if windowMs = 0 then singleEpochResult last .windowMismatch
  else
    let tx := classifyDirection (epochs.map (·.tx)) windowMs
    let rx := classifyDirection (epochs.map (·.rx)) windowMs
    { state := mergeStates tx.2 rx.2
      txState := tx.2
      rxState := rx.2
      windowStartMs := some first.startMs
      windowEndMs := some last.endMs
      classifierWindowMs := if last.startMs ≤ last.endMs then some (last.endMs - last.startMs) else none
      comparisonWindowMs := some windowMs
      tx := tx.1
      rx := rx.1 }

/-! ### The book -/

abbrev ClassificationBook := String → List ClassificationEpoch

/-- `while epochs.len() > COMPARISON_EPOCH_COUNT { epochs.pop_front(); }` -/
def trimEpochs (epochs : List ClassificationEpoch) : List ClassificationEpoch :=
  epochs.drop (epochs.length - comparisonEpochCount)

namespace ClassificationBook

def clear : ClassificationBook := fun _ => []

variable (book : ClassificationBook)

def remove (identityKey : String) : ClassificationBook := Function.update book identityKey []

def retainIdentities (identityKeys : List String) : ClassificationBook := fun identityKey =>
  if identityKey ∈ identityKeys then book identityKey else []

/-- The queue of the identity after an epoch that passed the checks. -/
def pushEpoch (epochs : List ClassificationEpoch) (epoch : ClassificationEpoch) : List ClassificationEpoch :=
  let epochs := if (epochs.getLast?).all fun previous => continuous previous epoch then epochs else []
  trimEpochs (epochs ++ [epoch])

def update (identityKey : String) (epoch : ClassificationEpoch) : ClassificationBook × ClassificationResult :=
  if !epoch.mapComplete then (book.remove identityKey, singleEpochResult epoch .mapLoss)
  else if !epoch.attachmentStable then (book.remove identityKey, singleEpochResult epoch .partially)
  else if !epoch.sourcesComplete then (book.remove identityKey, singleEpochResult epoch .partially)
  else if !epoch.classifierWindowAligned || epoch.endMs ≤ epoch.startMs || !classifierSourcesAligned epoch then
    (book.remove identityKey, singleEpochResult epoch .windowMismatch)
  else
    let epochs := pushEpoch (book identityKey) epoch
    let book := Function.update book identityKey epochs
    if epochs.length < comparisonEpochCount then (book, singleEpochResult epoch .warmup)
    else (book, classifyWindow (epochs.headD epoch) epochs epoch)

end ClassificationBook

end Lanspeedd
