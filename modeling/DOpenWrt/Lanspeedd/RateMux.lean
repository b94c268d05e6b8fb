import Mathlib.Data.List.MinMax
import DOpenWrt.Lanspeedd.AccessEdge

/-!
# The source selector

`DirectionRateMux` of `access_edge/mux.rs`: which source owns the rate of one client direction. A better source has to
be the best candidate in two windows before it is promoted, and an owner that fails is held for one window.
-/

namespace Lanspeedd

def promotionWindows : ℕ := 2
def softFailureWindows : ℕ := 2

/-- `u8::saturating_add`. -/
def saturatingAddU8 (a b : ℕ) : ℕ := min (a + b) 255

structure RateCandidate where
  source : RateSource
  bps : ℕ
  coverage : Coverage
  scope : TrafficScope
  byteDomain : ByteDomain
  sampleMs : ℕ
  windowMs : ℕ
  cadenceMs : ℕ
  attachmentGeneration : ℕ
  fresh : Bool
  deriving DecidableEq

namespace RateCandidate

/-- Two and a half cadences. -/
def freshnessMs (c : RateCandidate) : ℕ := min (c.cadenceMs * 5) u64Max / 2

def isUsableFor (c : RateCandidate) (attachmentGeneration nowMs : ℕ) : Bool :=
  c.fresh && c.attachmentGeneration = attachmentGeneration && c.windowMs ≠ 0 && c.cadenceMs ≠ 0 &&
    c.sampleMs ≤ nowMs && nowMs - c.sampleMs ≤ c.freshnessMs && c.coverage ≠ .unavailable && c.scope ≠ .none

def expiredAt (c : RateCandidate) (nowMs : ℕ) : Bool :=
  c.cadenceMs = 0 || c.sampleMs > nowMs || nowMs - c.sampleMs > c.freshnessMs

end RateCandidate

inductive MuxFailure
  | counterReset
  | attachmentAmbiguous
  | mapLoss
  deriving DecidableEq

inductive MuxState
  | available
  | stale
  | warmup
  | unavailable
  deriving DecidableEq

structure SelectedRate where
  candidate : RateCandidate
  stale : Bool
  transitionSeq : ℕ
  deriving DecidableEq

structure MuxResult where
  state : MuxState
  selected : Option SelectedRate
  owner : Option RateSource
  transitionSeq : ℕ
  consecutiveFailures : ℕ
  deriving DecidableEq

/-- Source, attachment generation, newest distinct sample and good windows. -/
structure Challenger where
  source : RateSource
  generation : ℕ
  sampleMs : ℕ
  count : ℕ
  deriving DecidableEq

structure DirectionRateMux where
  owner : Option RateSource
  attachmentGeneration : Option ℕ
  challenger : Option Challenger
  consecutiveFailures : ℕ
  transitionSeq : ℕ
  lastSelected : Option RateCandidate
  deriving DecidableEq

def RateSource.isEdge : RateSource → Bool
  | edgePort => true
  | edgeWifi => true
  | _ => false

namespace DirectionRateMux

def new : DirectionRateMux := ⟨none, none, none, 0, 0, none⟩

variable (mux : DirectionRateMux)

def hardDemote : DirectionRateMux :=
  { mux with
    owner := none
    transitionSeq := if mux.owner.isSome then saturatingAdd mux.transitionSeq 1 else mux.transitionSeq
    challenger := none
    consecutiveFailures := 0
    lastSelected := none }

def softDemote : DirectionRateMux := mux.hardDemote

def result (state : MuxState) (selected : Option SelectedRate) : MuxResult :=
  ⟨state, selected, mux.owner, mux.transitionSeq, mux.consecutiveFailures⟩

def invalidateEdge (attachmentGeneration : ℕ) : DirectionRateMux :=
  if mux.attachmentGeneration.any (· ≠ attachmentGeneration) then
    { mux with attachmentGeneration := some attachmentGeneration }.hardDemote
  else
    let mux := { mux with attachmentGeneration := some attachmentGeneration }
    let mux := if mux.owner.any (·.isEdge) then
        { mux with
          owner := none
          transitionSeq := saturatingAdd mux.transitionSeq 1
          consecutiveFailures := 0
          lastSelected := none }
      else mux
    if mux.challenger.any (·.source.isEdge) then { mux with challenger := none } else mux

/-- The challenger that `record_challenger` stores. -/
def nextChallenger (candidate : RateCandidate) : Challenger :=
  match mux.challenger with
  | some old =>
    if old.source = candidate.source ∧ old.generation = candidate.attachmentGeneration then
      if candidate.sampleMs > old.sampleMs then
        ⟨candidate.source, candidate.attachmentGeneration, candidate.sampleMs, saturatingAddU8 old.count 1⟩
      else ⟨candidate.source, candidate.attachmentGeneration, old.sampleMs, old.count⟩
    else ⟨candidate.source, candidate.attachmentGeneration, candidate.sampleMs, 1⟩
  | none => ⟨candidate.source, candidate.attachmentGeneration, candidate.sampleMs, 1⟩

def recordChallenger (candidate : RateCandidate) : DirectionRateMux × Bool :=
  ({ mux with challenger := some (mux.nextChallenger candidate) },
    (mux.nextChallenger candidate).count ≥ promotionWindows)

def promote (candidate : RateCandidate) : DirectionRateMux × MuxResult :=
  let mux : DirectionRateMux :=
    { owner := some candidate.source
      attachmentGeneration := some candidate.attachmentGeneration
      challenger := none
      consecutiveFailures := 0
      transitionSeq := if mux.owner ≠ some candidate.source then saturatingAdd mux.transitionSeq 1
        else mux.transitionSeq
      lastSelected := some candidate }
  (mux, mux.result .available (some ⟨candidate, false, mux.transitionSeq⟩))

/-- The usable candidate of the first priority. -/
def best (candidates : List RateCandidate) (attachmentGeneration nowMs : ℕ) : Option RateCandidate :=
  (candidates.filter (·.isUsableFor attachmentGeneration nowMs)).argmin (·.source.priority)

def ownerCandidate (candidates : List RateCandidate) (attachmentGeneration nowMs : ℕ) : Option RateCandidate :=
  mux.owner.bind fun owner => candidates.find? fun c => c.source = owner && c.isUsableFor attachmentGeneration nowMs

/-- The generation check at the start of `update`. -/
def enter (attachmentGeneration : ℕ) : DirectionRateMux :=
  let mux := if mux.attachmentGeneration.any (· ≠ attachmentGeneration) then mux.hardDemote else mux
  { mux with attachmentGeneration := some attachmentGeneration }

/-- `update` where the owner has a usable candidate. -/
def updateOwned (current : RateCandidate) (best : Option RateCandidate) : DirectionRateMux × MuxResult :=
  let mux := { mux with consecutiveFailures := 0, lastSelected := some current }
  let keep (mux : DirectionRateMux) := (mux, mux.result .available (some ⟨current, false, mux.transitionSeq⟩))
  match best with
  | some challenger =>
    if challenger.source.priority < current.source.priority then
      let recorded := mux.recordChallenger challenger
      if recorded.2 then recorded.1.promote challenger else keep recorded.1
    else keep { mux with challenger := none }
  | none => keep { mux with challenger := none }

/-- `update` where the owner has none. -/
def updateFailing (nowMs : ℕ) (best : Option RateCandidate) : DirectionRateMux × MuxResult :=
  if mux.lastSelected.any (·.expiredAt nowMs) then (mux.hardDemote, mux.hardDemote.result .unavailable none)
  else
    let mux := { mux with consecutiveFailures := saturatingAddU8 mux.consecutiveFailures 1 }
    let hold (mux : DirectionRateMux) :=
      if mux.consecutiveFailures < softFailureWindows then
        (mux, mux.result .stale (mux.lastSelected.map fun candidate => ⟨candidate, true, mux.transitionSeq⟩))
      else (mux.softDemote, mux.softDemote.result .unavailable none)
    match best with
    | some candidate =>
      let recorded := mux.recordChallenger candidate
      if recorded.2 then recorded.1.promote candidate else hold recorded.1
    | none => hold { mux with challenger := none }

/-- `update` without an owner. -/
def updateUnowned : Option RateCandidate → DirectionRateMux × MuxResult
  | none => ({ mux with challenger := none }, { mux with challenger := none }.result .unavailable none)
  | some candidate =>
    let recorded := mux.recordChallenger candidate
    if recorded.2 then recorded.1.promote candidate else (recorded.1, recorded.1.result .warmup none)

def update (nowMs attachmentGeneration : ℕ) (candidates : List RateCandidate) (failure : Option MuxFailure) :
    DirectionRateMux × MuxResult :=
  let mux := mux.enter attachmentGeneration
  if failure.isSome then (mux.hardDemote, mux.hardDemote.result .unavailable none)
  else
    let best := best candidates attachmentGeneration nowMs
    match mux.ownerCandidate candidates attachmentGeneration nowMs with
    | some current => mux.updateOwned current best
    | none => if mux.owner.isSome then mux.updateFailing nowMs best else mux.updateUnowned best

end DirectionRateMux

end Lanspeedd
