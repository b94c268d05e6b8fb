import Mathlib.Data.List.MinMax
import DOpenWrt.Lanspeedd.SnapshotStore
import DOpenWrt.Lib.HistoryRing

/-!
# The rate book

`RateBook` of `rate.rs`: for each client the last three counter samples, and the rates that an update publishes from
them.
-/

namespace Lanspeedd

def rateWindowCount : Nat := 3
def rateBaselineRetentionMs : Nat := 60000
def x86RxDisplayHeaderBytes : Nat := 66
def defaultMaxClients : Nat := 2048

inductive RateWarning where
  | counterAnomaly | timeRollback | clientLimitExceeded | mapReadFailed
deriving DecidableEq, Repr

structure ClientCounters where
  identityKey : String
  txBytes : Nat
  rxBytes : Nat
  rxPackets : Nat
  lastSeenMs : Nat
deriving DecidableEq, Repr

structure RateDelta where
  bps : Nat
  warning : Option RateWarning
deriving DecidableEq, Repr

structure ClientRate where
  identityKey : String
  txBps : Nat
  rxBps : Nat
  txBytes : Nat
  rxBytes : Nat
  sampleMs : Nat
  lastSeenMs : Nat
  warnings : List RateWarning
deriving DecidableEq, Repr

structure RateUpdate where
  clients : List ClientRate
  rejectedClients : List String
  warnings : List RateWarning
deriving DecidableEq, Repr

structure CounterPoint where
  sampleMs : Nat
  txBytes : Nat
  rxBytes : Nat
  rxPackets : Nat
  lastSeenMs : Nat
deriving DecidableEq, Repr

structure ClientState extends HistoryRing CounterPoint rateWindowCount where
  identityKey : String

namespace ClientState

def new (identityKey : String) : ClientState := ⟨.empty _ _, identityKey⟩

def pointFromLatest (c : ClientState) (indexBack : Nat) : Option CounterPoint := c.toHistoryRing.fromLatest indexBack

def latest (c : ClientState) : Option CounterPoint := c.pointFromLatest 0

def push (c : ClientState) (point : CounterPoint) : ClientState :=
  { c with toHistoryRing := c.toHistoryRing.push point }

end ClientState

structure RateBook where
  maxClients : Nat
  staleClientMs : Nat
  lastSnapshotMs : Option Nat
  clients : List ClientState

def isStale (nowMs lastSeenMs staleClientMs : Nat) : Prop := lastSeenMs ≤ nowMs ∧ staleClientMs < nowMs - lastSeenMs

instance decidableIsStale (nowMs lastSeenMs staleClientMs : Nat) : Decidable (isStale nowMs lastSeenMs staleClientMs) :=
  inferInstanceAs (Decidable (_ ∧ _))

def pushUnique (warnings : List RateWarning) (warning : RateWarning) : List RateWarning :=
  if warning ∈ warnings then warnings else warnings ++ [warning]

namespace RateBook

def new (maxClients staleClientMs : Nat) : RateBook where
  maxClients := if 0 < maxClients ∧ maxClients < defaultMaxClients then maxClients else defaultMaxClients
  staleClientMs := staleClientMs
  lastSnapshotMs := none
  clients := []

/-- The product of `u64` values and 8000 fits `u128`, in which it is made. -/
def rateFromDelta (current previous deltaMs : Nat) : RateDelta :=
  if current < previous then ⟨0, some .counterAnomaly⟩
  else if deltaMs = 0 then ⟨0, none⟩
  else ⟨min ((current - previous) * 8 * 1000 / deltaMs) u64Max, none⟩

def rxDisplayRate (currentBytes previousBytes currentPackets previousPackets deltaMs : Nat) : RateDelta :=
  if currentBytes < previousBytes then ⟨0, some .counterAnomaly⟩
  else if currentPackets < previousPackets then ⟨0, some .counterAnomaly⟩
  else
    let deltaBytes := currentBytes - previousBytes
    let deltaPackets := currentPackets - previousPackets
    let displayBytes := deltaBytes - min (deltaPackets * x86RxDisplayHeaderBytes) u64Max
    rateFromDelta displayBytes 0 deltaMs

def contains (book : RateBook) (identityKey : String) : Bool :=
  book.clients.any fun client => client.identityKey == identityKey

/-- The clients that may be evicted, with their index. -/
def evictable (book : RateBook) (nowMs : Nat) : List (Nat × Nat) :=
  book.clients.zipIdx.filterMap fun (client, index) =>
    client.latest.bind fun point =>
      if isStale nowMs point.lastSeenMs book.staleClientMs then some (index, point.lastSeenMs) else none

/-- `min_by_key` returns the first of several least elements, and so does `argmin`. -/
def evict (book : RateBook) (nowMs : Nat) : RateBook :=
  match (book.evictable nowMs).argmin (·.2) with
  | some (index, _) => { book with clients := book.clients.eraseIdx index }
  | none => book

/-- The latest point but one, as long as the received bytes grow. -/
def rxBaseline (state : ClientState) (previous : CounterPoint) (sample : ClientCounters) : CounterPoint :=
  ((state.pointFromLatest 1).filter fun earlier =>
    previous.sampleMs > earlier.sampleMs ∧ sample.rxBytes > previous.rxBytes ∧
      previous.rxBytes > earlier.rxBytes).getD previous

/-- The rates, both zero for a client without a point. -/
def rates (nowMs : Nat) (rateTimeRollback : Bool) (state : ClientState) (sample : ClientCounters) :
    RateDelta × RateDelta :=
  match state.latest with
  | none => (⟨0, none⟩, ⟨0, none⟩)
  | some previous =>
    let txDeltaMs := if rateTimeRollback then 0 else nowMs - previous.sampleMs
    let baseline := rxBaseline state previous sample
    let rxDeltaMs := if rateTimeRollback then 0 else nowMs - baseline.sampleMs
    (rateFromDelta sample.txBytes previous.txBytes txDeltaMs,
      rxDisplayRate sample.rxBytes baseline.rxBytes sample.rxPackets baseline.rxPackets rxDeltaMs)

def counterPoint (nowMs : Nat) (previous : Option CounterPoint) (sample : ClientCounters) : CounterPoint where
  sampleMs := nowMs
  txBytes := sample.txBytes
  rxBytes := sample.rxBytes
  rxPackets := sample.rxPackets
  lastSeenMs :=
    ((previous.filter fun point => point.txBytes = sample.txBytes ∧ point.rxBytes = sample.rxBytes).map
      (·.lastSeenMs)).getD sample.lastSeenMs

/-- What is published of a live sample, with the warnings in their order. -/
def clientRate (nowMs : Nat) (timeRollback : Bool) (state : ClientState) (sample : ClientCounters) :
    ClientRate × List RateWarning :=
  let rateTimeRollback := timeRollback || state.latest.any fun point => nowMs < point.sampleMs
  let (tx, rx) := rates nowMs rateTimeRollback state sample
  let warnings : List RateWarning :=
    (if rateTimeRollback then [.timeRollback] else []) ++ [tx.warning, rx.warning].reduceOption
  ({ identityKey := sample.identityKey
     txBps := tx.bps
     rxBps := rx.bps
     txBytes := sample.txBytes
     rxBytes := sample.rxBytes
     sampleMs := nowMs
     lastSeenMs := (counterPoint nowMs state.latest sample).lastSeenMs
     warnings := warnings.foldl pushUnique [] }, warnings)

/-- The part of the loop of `update` behind the choice of the client's state. -/
def record (nowMs : Nat) (timeRollback : Bool) (stateIndex : Nat) (state : ClientState) (book : RateBook)
    (update : RateUpdate) (sample : ClientCounters) : RateBook × RateUpdate :=
  let point := counterPoint nowMs state.latest sample
  let book' := { book with clients := book.clients.set stateIndex (state.push point) }
  if isStale nowMs sample.lastSeenMs book.staleClientMs then (book', update)
  else
    let (client, warnings) := clientRate nowMs timeRollback state sample
    (book', { update with clients := update.clients ++ [client], warnings := warnings.foldl pushUnique update.warnings })

/-- The loop of `update` for one sample. -/
def updateSample (nowMs : Nat) (timeRollback : Bool) (s : RateBook × RateUpdate) (sample : ClientCounters) :
    RateBook × RateUpdate :=
  match s.1.clients.findIdx? fun client => client.identityKey == sample.identityKey with
  | some index =>
    match s.1.clients[index]? with
    | some state => record nowMs timeRollback index state s.1 s.2 sample
    | none => s
  | none =>
    if isStale nowMs sample.lastSeenMs s.1.staleClientMs ∧ s.1.clients.length = s.1.maxClients then s
    else
      let book := if s.1.clients.length = s.1.maxClients then s.1.evict nowMs else s.1
      if book.clients.length = book.maxClients then
        (book, { s.2 with
          rejectedClients := s.2.rejectedClients ++ [sample.identityKey]
          warnings := pushUnique s.2.warnings .clientLimitExceeded })
      else
        let state := ClientState.new sample.identityKey
        record nowMs timeRollback book.clients.length state { book with clients := book.clients ++ [state] } s.2 sample

def retain (book : RateBook) (nowMs : Nat) : RateBook :=
  let retentionMs := max book.staleClientMs rateBaselineRetentionMs
  { book with clients := book.clients.filter fun client =>
      client.latest.any fun point => ¬ isStale nowMs point.sampleMs retentionMs }

def timeRollback (book : RateBook) (nowMs : Nat) : Bool := book.lastSnapshotMs.any fun previousMs => nowMs < previousMs

/-- The book and the update before the first sample. -/
def beginUpdate (book : RateBook) (nowMs : Nat) : RateBook × RateUpdate :=
  (book.retain nowMs, ⟨[], [], if book.timeRollback nowMs then [.timeRollback] else []⟩)

def update (book : RateBook) (nowMs : Nat) (samples : List ClientCounters) : RateBook × RateUpdate :=
  let s := samples.foldl (updateSample nowMs (book.timeRollback nowMs)) (book.beginUpdate nowMs)
  ({ s.1 with lastSnapshotMs := some nowMs }, s.2)

end RateBook

end Lanspeedd
