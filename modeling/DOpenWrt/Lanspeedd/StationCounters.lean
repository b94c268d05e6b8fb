import Mathlib.Data.List.Sort
import Mathlib.Data.Prod.Lex
import DOpenWrt.Lanspeedd.SnapshotStore

/-!
# Station counters

`apply_generations` of `access_edge/nl80211.rs` with the counter extension of `nl80211/counter_extender.rs`: the 32-bit
counters of a Wi-Fi station are extended over an unambiguous wrap, everything else restarts the station under a new
generation.
-/

namespace Lanspeedd

structure LinkCounters where
  rxBytes : ℕ
  txBytes : ℕ
  rxPackets : ℕ
  txPackets : ℕ
  deriving DecidableEq

inductive StationByteCounterWidth
  | bits32
  | bits64
  deriving DecidableEq

def nl80211IftypeAp : ℕ := 3
def stationMissingGraceReads : ℕ := 1

structure WirelessInterface where
  ifindex : ℕ
  ifname : String
  bridgeIfindex : Option ℕ
  vlanId : Option ℕ
  iftype : Option ℕ
  deriving DecidableEq

structure RawStationCounter where
  mac : Vector UInt8 6
  ifindex : ℕ
  associationStartedNs : Option ℕ
  connectedTimeS : Option ℕ
  counters : LinkCounters
  rxByteWidth : StationByteCounterWidth
  txByteWidth : StationByteCounterWidth
  deriving DecidableEq

structure StationCounterSample where
  mac : Vector UInt8 6
  ifindex : ℕ
  ifname : String
  bridgeIfindex : Option ℕ
  vlanId : Option ℕ
  iftype : Option ℕ
  associationGeneration : ℕ
  associationStartedNs : Option ℕ
  connectedTimeS : Option ℕ
  counters : LinkCounters
  rxByteWidth : StationByteCounterWidth
  txByteWidth : StationByteCounterWidth
  deriving DecidableEq

def StationCounterSample.provesDirectClientInterface (s : StationCounterSample) : Bool :=
  s.iftype = some nl80211IftypeAp

structure StationCounterSnapshot where
  stations : List StationCounterSample
  readBeginMs : ℕ
  readEndMs : ℕ
  complete : Bool
  deriving DecidableEq

structure AssociationState where
  generation : ℕ
  interface : WirelessInterface
  raw : RawStationCounter
  counters : LinkCounters
  missingCompleteReads : ℕ
  deriving DecidableEq

/-! ### Extending a counter -/

def counter32Modulus : ℕ := 2 ^ 32
def counter32WrapHighWatermark : ℕ := counter32Modulus * 3 / 4
def counter32WrapLowWatermark : ℕ := counter32Modulus / 4

def counterDelta (previous current : ℕ) (width : StationByteCounterWidth) : Option ℕ :=
  if current ≥ previous then some (current - previous)
  else if width = .bits32 ∧ previous < counter32Modulus ∧ current < counter32Modulus ∧
      previous ≥ counter32WrapHighWatermark ∧ current ≤ counter32WrapLowWatermark then
    some (counter32Modulus - previous + current)
  else none

/-- `u64::checked_add`. -/
def checkedAdd (a b : ℕ) : Option ℕ := if a + b ≤ u64Max then some (a + b) else none

def extendStationCounters (previousRaw currentRaw previousExtended : LinkCounters)
    (rxByteWidth txByteWidth : StationByteCounterWidth) : Option LinkCounters := do
  let rxBytes ← checkedAdd previousExtended.rxBytes
    (← counterDelta previousRaw.rxBytes currentRaw.rxBytes rxByteWidth)
  let txBytes ← checkedAdd previousExtended.txBytes
    (← counterDelta previousRaw.txBytes currentRaw.txBytes txByteWidth)
  -- the packet attributes have 32 bits even where the byte attributes have 64
  let rxPackets ← checkedAdd previousExtended.rxPackets
    (← counterDelta previousRaw.rxPackets currentRaw.rxPackets .bits32)
  let txPackets ← checkedAdd previousExtended.txPackets
    (← counterDelta previousRaw.txPackets currentRaw.txPackets .bits32)
  return ⟨rxBytes, txBytes, rxPackets, txPackets⟩

/-! ### The associations -/

abbrev StationKey := ℕ × Vector UInt8 6

def stationKey (interface : WirelessInterface) (raw : RawStationCounter) : StationKey := (interface.ifindex, raw.mac)

def AssociationState.key (a : AssociationState) : StationKey := stationKey a.interface a.raw

def associationMaterialContinues (previous : AssociationState) (iftype : Option ℕ) (current : RawStationCounter) :
    Bool :=
  let associationMarkerMatches :=
    match previous.raw.associationStartedNs, current.associationStartedNs with
    | some previous, some current => decide (previous = current)
    | none, none => true
    | _, _ => false
  let connectedTimeAdvanced :=
    match previous.raw.connectedTimeS, current.connectedTimeS with
    | some previous, some current => decide (current ≥ previous)
    | none, none => true
    | _, _ => false
  previous.interface.iftype = iftype && previous.raw.rxByteWidth = current.rxByteWidth &&
    previous.raw.txByteWidth = current.txByteWidth && associationMarkerMatches && connectedTimeAdvanced

def stationSample (association : AssociationState) : StationCounterSample :=
  { mac := association.raw.mac
    ifindex := association.interface.ifindex
    ifname := association.interface.ifname
    bridgeIfindex := association.interface.bridgeIfindex
    vlanId := association.interface.vlanId
    iftype := association.interface.iftype
    associationGeneration := association.generation
    associationStartedNs := association.raw.associationStartedNs
    connectedTimeS := association.raw.connectedTimeS
    counters := association.counters
    rxByteWidth := association.raw.rxByteWidth
    txByteWidth := association.raw.txByteWidth }

/-- The generation and the counters with which a station continues its association. -/
def continued (previous : Option AssociationState) (interface : WirelessInterface) (raw : RawStationCounter) :
    Option (ℕ × LinkCounters) :=
  previous.bind fun old =>
    if !associationMaterialContinues old interface.iftype raw then none
    else (extendStationCounters old.raw.counters raw.counters old.counters raw.rxByteWidth raw.txByteWidth).map
      fun counters => (old.generation, counters)

/-- `allocate_generation`: the generation given out and the next one. -/
def allocateGeneration (nextGeneration : ℕ) : ℕ × ℕ := (max nextGeneration 1, saturatingAdd (max nextGeneration 1) 1)

/-- The loop over the raw stations: the next generation, and the new associations unless a station occurs twice. -/
def applyRaw (previous : StationKey → Option AssociationState) :
    List StationKey → ℕ → List (WirelessInterface × RawStationCounter) → ℕ × Option (List AssociationState)
  | _, nextGeneration, [] => (nextGeneration, some [])
  | seen, nextGeneration, (interface, raw) :: rest =>
    if stationKey interface raw ∈ seen then (nextGeneration, none)
    else
      match continued (previous (stationKey interface raw)) interface raw with
      | some (generation, counters) =>
        let (nextGeneration, next) := applyRaw previous (stationKey interface raw :: seen) nextGeneration rest
        (nextGeneration, next.map (⟨generation, interface, raw, counters, 0⟩ :: ·))
      | none =>
        let (generation, nextGeneration) := allocateGeneration nextGeneration
        let (nextGeneration, next) := applyRaw previous (stationKey interface raw :: seen) nextGeneration rest
        (nextGeneration, next.map (⟨generation, interface, raw, raw.counters, 0⟩ :: ·))

/-- The associations that the frame does not contain, kept for one more frame. -/
def retainMissing (previous : List AssociationState) (seen : List StationKey) : List AssociationState :=
  (previous.filter fun a => !(a.key ∈ seen || a.missingCompleteReads ≥ stationMissingGraceReads)).map
    fun a => { a with missingCompleteReads := a.missingCompleteReads + 1 }

/-- The order in which a snapshot lists its stations. -/
def sampleRank (s : StationCounterSample) : ℕ ×ₗ List ℕ := toLex (s.ifindex, s.mac.toList.map UInt8.toNat)

structure SystemNl80211StationProvider where
  associations : List AssociationState
  nextGeneration : ℕ
  deriving DecidableEq

namespace SystemNl80211StationProvider

def new : SystemNl80211StationProvider := ⟨[], 1⟩

variable (provider : SystemNl80211StationProvider)

def get (key : StationKey) : Option AssociationState := provider.associations.find? (·.key = key)

def applyGenerations (raw : List (WirelessInterface × RawStationCounter)) (readBeginMs readEndMs : ℕ) :
    SystemNl80211StationProvider × Except String StationCounterSnapshot :=
  match applyRaw provider.get [] provider.nextGeneration raw with
  | (nextGeneration, none) =>
    ({ provider with nextGeneration }, .error "duplicate station in nl80211 snapshot")
  | (nextGeneration, some next) =>
    let missing := retainMissing provider.associations (raw.map fun e => stationKey e.1 e.2)
    (⟨next ++ missing, nextGeneration⟩,
      .ok { stations := ((next ++ missing).map stationSample).insertionSort fun a b => sampleRank a ≤ sampleRank b
            readBeginMs := readBeginMs
            readEndMs := readEndMs
            complete := missing.isEmpty })

end SystemNl80211StationProvider

end Lanspeedd
