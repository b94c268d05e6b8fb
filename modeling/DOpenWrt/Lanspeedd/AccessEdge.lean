import DOpenWrt.Lanspeedd.SnapshotStore

/-!
# Access Edge counters

The types of `access_edge/types.rs`: segments of a cumulative counter, their source, byte domain and coverage. Integers
are unbounded; where the code saturates, so does the model. Scaled values are computed in `u128`, which they fit.
-/

namespace Lanspeedd

inductive ByteDomain
  | l2NoFcs
  | l2WithFcs
  | stationData
  | ecmData
  deriving DecidableEq

inductive Coverage
  | full
  | partially
  | degraded
  | unavailable
  deriving DecidableEq

inductive TrafficScope
  | allFrames
  | unicast
  | routedObserved
  | lowerBound
  | none
  deriving DecidableEq

/-- Direction from the client's point of view. -/
inductive Direction
  | tx
  | rx
  deriving DecidableEq

inductive RateSource
  | edgeWifi
  | edgePort
  | ecmBpfFallback
  | ecmNssLowerBound
  | tcBpfLowerBound
  deriving DecidableEq

def RateSource.priority : RateSource → ℕ
  | edgeWifi => 0
  | edgePort => 1
  | ecmBpfFallback => 2
  | ecmNssLowerBound => 3
  | tcBpfLowerBound => 4

/-- A delta from one source over one counter window. -/
structure CounterSegment where
  epochId : ℕ
  startMs : ℕ
  endMs : ℕ
  readBeginMs : ℕ
  readEndMs : ℕ
  source : RateSource
  direction : Direction
  bytes : ℕ
  packets : ℕ
  attachmentGeneration : ℕ
  byteDomain : ByteDomain
  uncertaintyMs : ℕ
  deriving DecidableEq

/-- Bits per second, as every module of the crate computes them. -/
def scaledBps (bytes windowMs : ℕ) : ℕ := if windowMs = 0 then 0 else min (bytes * 8000 / windowMs) u64Max

namespace CounterSegment

def isWellFormed (s : CounterSegment) : Bool := s.startMs < s.endMs && s.readBeginMs ≤ s.readEndMs

def bps (s : CounterSegment) : Option ℕ :=
  if s.isWellFormed then some (min (s.bytes * 8000 / (s.endMs - s.startMs)) u64Max) else none

end CounterSegment

end Lanspeedd
