import DOpenWrt.Lanspeedd.SnapshotStore

/-!
# Windows over two counters

`fast_rate.rs`: the coordinator keeps a pair of cumulative samples, of FastN and of FastS, and closes a window against
a later pair. `observePair` is the discipline of its callers, `fast_rate_shadow.rs` and `fast_rate_clients.rs`.
-/

namespace Lanspeedd

def fastWindowQuietConfirmMs : ℕ := 2500

structure FastCounterSample where
  sampleMs : ℕ
  progressMs : ℕ
  sourcePresent : Bool
  readBeginMs : ℕ
  readEndMs : ℕ
  attachmentGeneration : ℕ
  resetGeneration : ℕ
  bytes : ℕ
  packets : ℕ
  deriving DecidableEq

structure FastWindow where
  startMs : ℕ
  endMs : ℕ
  readEndSkewMs : ℕ
  nBytes : ℕ
  nPackets : ℕ
  sBytes : ℕ
  sPackets : ℕ
  nWindowMs : ℕ
  sWindowMs : ℕ
  deriving DecidableEq

def FastWindow.durationMs (w : FastWindow) : ℕ :=
  let sourceWindow := if w.nWindowMs > w.sWindowMs then w.nWindowMs else w.sWindowMs
  if sourceWindow ≠ 0 then sourceWindow else w.endMs - w.startMs

inductive FastWindowError
  | invalidReadInterval
  | readEndSkew (skewMs maxMs : ℕ)
  | sampleSkew (skewMs maxMs : ℕ)
  | attachmentGenerationChanged
  | resetGenerationChanged
  | timeDidNotAdvance
  | counterReset
  deriving DecidableEq

structure FastCounterPair where
  n : FastCounterSample
  s : FastCounterSample
  deriving DecidableEq

structure FastRateCoordinator where
  maxReadEndSkewMs : ℕ
  start : Option FastCounterPair
  deriving DecidableEq

def effectiveProgressMs (sample : FastCounterSample) : ℕ :=
  if sample.progressMs = 0 then sample.sampleMs else sample.progressMs

def sourceProgressed (current start : FastCounterSample) : Bool :=
  effectiveProgressMs current > effectiveProgressMs start || current.bytes > start.bytes ||
    current.packets > start.packets

def elapsedOrProgress (endReadMs startReadMs endProgressMs startProgressMs : ℕ) : ℕ :=
  let progressElapsed := endProgressMs - startProgressMs
  if progressElapsed ≠ 0 then progressElapsed else endReadMs - startReadMs

def readEndSkew (nEndMs sEndMs : ℕ) : ℕ := absDiff nEndMs sEndMs

def validatePair (n s : FastCounterSample) (maxSkewMs : ℕ) : Except FastWindowError Unit :=
  if n.readEndMs < n.readBeginMs ∨ s.readEndMs < s.readBeginMs then .error .invalidReadInterval
  else if readEndSkew n.readEndMs s.readEndMs > maxSkewMs then
    .error (.readEndSkew (readEndSkew n.readEndMs s.readEndMs) maxSkewMs)
  else if absDiff n.sampleMs s.sampleMs > maxSkewMs then .error (.sampleSkew (absDiff n.sampleMs s.sampleMs) maxSkewMs)
  else .ok ()

/-- A source counts less than at the start. -/
def countersReset (start : FastCounterPair) (n s : FastCounterSample) : Bool :=
  n.bytes < start.n.bytes || n.packets < start.n.packets || s.bytes < start.s.bytes || s.packets < start.s.packets

def attachmentChanged (start : FastCounterPair) (n s : FastCounterSample) : Bool :=
  n.attachmentGeneration ≠ start.n.attachmentGeneration || s.attachmentGeneration ≠ start.s.attachmentGeneration ||
    n.attachmentGeneration ≠ s.attachmentGeneration

def resetChanged (start : FastCounterPair) (n s : FastCounterSample) : Bool :=
  n.resetGeneration ≠ start.n.resetGeneration || s.resetGeneration ≠ start.s.resetGeneration

/-- The two clocks of a window: the common sample clock if a progress clock advanced, else the clock of the reads. -/
def windowStartMs (progressClockAdvanced : Bool) (start : FastCounterPair) : ℕ :=
  if progressClockAdvanced then max start.n.sampleMs start.s.sampleMs else max start.n.readEndMs start.s.readEndMs

def windowEndMs (progressClockAdvanced : Bool) (n s : FastCounterSample) : ℕ :=
  if progressClockAdvanced then min n.sampleMs s.sampleMs else min n.readEndMs s.readEndMs

namespace FastRateCoordinator

def new (maxReadEndSkewMs : ℕ) : FastRateCoordinator := ⟨maxReadEndSkewMs, none⟩

variable (c : FastRateCoordinator) (n s : FastCounterSample)

def hasStart : Bool := c.start.isSome

def clear : FastRateCoordinator := { c with start := none }

def hasProgress : Bool :=
  match c.start with
  | none => true
  | some start =>
    if resetChanged start n s then true
    else
      let nProgress := sourceProgressed n start.n
      let sProgress := sourceProgressed s start.s
      match n.sourcePresent, s.sourcePresent with
      | true, true => nProgress
      | true, false => nProgress
      | false, true => sProgress
      | false, false => false

def confirmedQuietWindow (minQuietMs : ℕ) : Except FastWindowError (Option FastWindow) :=
  match c.start with
  | none => .ok none
  | some start =>
    if countersReset start n s then .error .counterReset
    else if n.bytes ≠ start.n.bytes || n.packets ≠ start.n.packets || s.bytes ≠ start.s.bytes ||
        s.packets ≠ start.s.packets then .ok none
    else
      let startMs := max start.n.readEndMs start.s.readEndMs
      let endMs := min n.readEndMs s.readEndMs
      let windowMs := endMs - startMs
      if windowMs < minQuietMs || windowMs = 0 then .ok none
      else do
        validatePair n s c.maxReadEndSkewMs
        if attachmentChanged start n s then .error .attachmentGenerationChanged
        else if resetChanged start n s then .error .resetGenerationChanged
        else
          return some {
            startMs, endMs
            readEndSkewMs := max (readEndSkew start.n.readEndMs start.s.readEndMs) (readEndSkew n.readEndMs s.readEndMs)
            nBytes := 0
            nPackets := 0
            sBytes := 0
            sPackets := 0
            nWindowMs := windowMs
            sWindowMs := windowMs }

def begin : Except FastWindowError FastRateCoordinator := do
  validatePair n s c.maxReadEndSkewMs
  return { c with start := some ⟨n, s⟩ }

/-- The window of `finish` between two pairs. -/
def closeWindow (start : FastCounterPair) : Except FastWindowError FastWindow := do
  validatePair n s c.maxReadEndSkewMs
  if attachmentChanged start n s then .error .attachmentGenerationChanged
  else if resetChanged start n s then .error .resetGenerationChanged
  else
    let nProgressMs := effectiveProgressMs n
    let sProgressMs := effectiveProgressMs s
    let startNProgressMs := effectiveProgressMs start.n
    let startSProgressMs := effectiveProgressMs start.s
    if nProgressMs < startNProgressMs ∨ sProgressMs < startSProgressMs then .error .counterReset
    else
      let progressClockAdvanced := nProgressMs > startNProgressMs || sProgressMs > startSProgressMs
      let startMs := windowStartMs progressClockAdvanced start
      let endMs := windowEndMs progressClockAdvanced n s
      let nWindowMs := elapsedOrProgress n.readEndMs start.n.readEndMs nProgressMs startNProgressMs
      let sWindowMs := elapsedOrProgress s.readEndMs start.s.readEndMs sProgressMs startSProgressMs
      if endMs ≤ startMs ∧ nWindowMs = 0 ∧ sWindowMs = 0 then .error .timeDidNotAdvance
      else if countersReset start n s then .error .counterReset
      else
        return {
          startMs, endMs
          readEndSkewMs := max (readEndSkew start.n.readEndMs start.s.readEndMs) (readEndSkew n.readEndMs s.readEndMs)
          nBytes := n.bytes - start.n.bytes
          nPackets := n.packets - start.n.packets
          sBytes := s.bytes - start.s.bytes
          sPackets := s.packets - start.s.packets
          nWindowMs, sWindowMs }

/-- `finish` takes the start before it checks anything. -/
def finish : Except FastWindowError FastWindow × FastRateCoordinator :=
  match c.start with
  | none => (.error .timeDidNotAdvance, c)
  | some start => (c.closeWindow n s start, c.clear)

/-- `let _ = begin(n, s)`. -/
def beginOrKeep : FastRateCoordinator :=
  match c.begin n s with
  | .ok c => c
  | .error _ => c

end FastRateCoordinator

/-- What comes of one pair. -/
inductive Observation
  | began
  | held
  | quiet (w : FastWindow)
  | closed (w : FastWindow)
  | failed (error : FastWindowError)
  deriving DecidableEq

/-- `observe_pair` once a window has begun. -/
def observeNext (c : FastRateCoordinator) (p : FastCounterPair) : Observation × FastRateCoordinator :=
  if !c.hasProgress p.n p.s then
    match c.confirmedQuietWindow p.n p.s fastWindowQuietConfirmMs with
    | .ok (some w) => (.quiet w, c)
    | .ok none => (.held, c)
    | .error e => (.failed e, c.clear.beginOrKeep p.n p.s)
  else
    match c.finish p.n p.s with
    | (.ok w, c) => (.closed w, c.beginOrKeep p.n p.s)
    | (.error e, c) => (.failed e, c.clear.beginOrKeep p.n p.s)

/-- `observe_pair`, the loop body of the callers. -/
def observePair (c : FastRateCoordinator) (p : FastCounterPair) : Observation × FastRateCoordinator :=
  match c.hasStart, c.begin p.n p.s with
  | false, .ok c => (.began, c)
  | _, _ => observeNext c p

/-- The observations of a run, each with its pair, and the coordinator afterwards. -/
def observePairs (c : FastRateCoordinator) : List FastCounterPair → List (FastCounterPair × Observation) × FastRateCoordinator
  | [] => ([], c)
  | p :: ps =>
    let (o, c) := observePair c p
    let (os, c) := observePairs c ps
    ((p, o) :: os, c)

end Lanspeedd
