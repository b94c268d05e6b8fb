import DOpenWrt.Rtp2httpd.BufferPoolInv
import DOpenWrt.Rtp2httpd.Zerocopy

/-!
# The queue limit of a connection

How many bytes `connection.c` lets a client queue, from the state of the pool and from how slow the client has been,
and when a relay has to stop reading from upstream. The doubles of the source are exact rationals.
-/

namespace Rtp2httpd

def connQueueMinBuffers : Nat := 64
def connQueueBurstFactor : ℚ := 3
def connQueueBurstFactorCongested : ℚ := 3 / 2
def connQueueBurstFactorDrain : ℚ := 1
def connQueueEwmaAlpha : ℚ := 1 / 5
def connQueueSlowFactor : ℚ := 3 / 2
def connQueueSlowExitFactor : ℚ := 11 / 10
def connQueueSlowDebounceMs : Int := 3000
def connQueueHighUtilThreshold : ℚ := 17 / 20
def connQueueDrainUtilThreshold : ℚ := 19 / 20
def connQueueSlowLimitRatio : ℚ := 9 / 10
def connQueueSlowExitLimitRatio : ℚ := 3 / 4
def connQueueSlowClampFactor : ℚ := 4 / 5

def bufferPoolInitialSize : Nat := 1024

/-- What a connection needs for its queue. -/
structure Connection where
  zc : ZcState
  queueLimitBytes : Nat
  queueBytesHighwater : Nat
  queueBuffersHighwater : Nat
  droppedPackets : Nat
  droppedBytes : Nat
  queueAvgBytes : ℚ
  slowActive : Bool
  slowCandidateSince : Int

/-- `connection_queue_bytes`. -/
def Connection.queueBytes (c : Connection) : Nat := c.zc.queue.numQueued * bufferPoolBufferSize

/-! ### The limit -/

def connectionComputeLimitBytes (pool : BufferPool) (fairBytes : Nat) (burstFactor : ℚ) : Nat :=
  let limitBytes := ⌊fairBytes * burstFactor⌋₊
  let limitBytes :=
    if pool.maxBuffers > 0 then
      let globalCap := pool.maxBuffers * bufferPoolBufferSize
      let reserve := connQueueMinBuffers * bufferPoolBufferSize
      if globalCap > reserve then
        let hardCap := globalCap - reserve
        if limitBytes > hardCap then hardCap else limitBytes
      else if limitBytes > globalCap then globalCap
      else limitBytes
    else limitBytes
  if limitBytes < bufferPoolBufferSize * 4 then bufferPoolBufferSize * 4 else limitBytes

structure QueueLimitInputs where
  fairBytes : Nat
  burstFactor : ℚ

def connectionPrepareQueueLimitInputs (pool : BufferPool) (activeStreams : Nat) : QueueLimitInputs :=
  let active := if activeStreams = 0 then 1 else activeStreams
  let totalBuffers := if pool.numBuffers ≠ 0 then pool.numBuffers else bufferPoolInitialSize
  let shareBuffers := totalBuffers / active
  let shareBuffers := if shareBuffers < connQueueMinBuffers then connQueueMinBuffers else shareBuffers
  let utilization : ℚ :=
    if pool.maxBuffers > 0 then
      let usedBuffers := if pool.numBuffers > pool.numFree then pool.numBuffers - pool.numFree else 0
      usedBuffers / pool.maxBuffers
    else 0
  let burstFactor := connQueueBurstFactor
  let burstFactor :=
    if pool.numBuffers ≥ pool.maxBuffers ∨ utilization ≥ connQueueHighUtilThreshold then connQueueBurstFactorCongested
    else burstFactor
  let burstFactor :=
    if pool.numFree < pool.lowWatermark / 2 ∨ utilization ≥ connQueueDrainUtilThreshold then connQueueBurstFactorDrain
    else burstFactor
  ⟨shareBuffers * bufferPoolBufferSize, burstFactor⟩

def connectionApplySlowClamp (burstFactor : ℚ) (slowActive : Bool) : ℚ :=
  if slowActive ∧ burstFactor > connQueueSlowClampFactor then connQueueSlowClampFactor else burstFactor

def connectionComputeQueueLimit (c : Connection) (pool : BufferPool) (activeStreams : Nat) : Nat :=
  let inputs := connectionPrepareQueueLimitInputs pool activeStreams
  connectionComputeLimitBytes pool inputs.fairBytes (connectionApplySlowClamp inputs.burstFactor c.slowActive)

/-- The moving average with the present queue. -/
def Connection.nextQueueAvg (c : Connection) : ℚ :=
  let queueMemBytes : ℚ := c.zc.queue.numQueued * bufferPoolBufferSize
  if c.queueAvgBytes ≤ 0 then queueMemBytes
  else (1 - connQueueEwmaAlpha) * c.queueAvgBytes + connQueueEwmaAlpha * queueMemBytes

/-- Above the first average a client counts as slow, below the second no longer. -/
def slowThresholds (pool : BufferPool) (inputs : QueueLimitInputs) : ℚ × ℚ :=
  let burstedBytes := connectionComputeLimitBytes pool inputs.fairBytes inputs.burstFactor
  let slowThreshold := min (inputs.fairBytes * connQueueSlowFactor) (burstedBytes * connQueueSlowLimitRatio)
  let slowExitThreshold := min (inputs.fairBytes * connQueueSlowExitFactor) (burstedBytes * connQueueSlowExitLimitRatio)
  (slowThreshold,
    if slowExitThreshold ≥ slowThreshold then slowThreshold * connQueueSlowExitLimitRatio else slowExitThreshold)

/-- The first half of the slow-state machine: for how long the average has been above the threshold. -/
def updateSlowCandidate (slowThreshold : ℚ) (nowMs : Int) (c : Connection) : Connection :=
  if c.queueAvgBytes > slowThreshold then
    if c.slowCandidateSince = 0 then { c with slowCandidateSince := nowMs }
    else if ¬ c.slowActive ∧ nowMs ≥ c.slowCandidateSince ∧ nowMs - c.slowCandidateSince ≥ connQueueSlowDebounceMs then
      { c with slowActive := true }
    else c
  else { c with slowCandidateSince := 0 }

def updateSlowState (slowThreshold slowExitThreshold : ℚ) (nowMs : Int) (c : Connection) : Connection :=
  let c := updateSlowCandidate slowThreshold nowMs c
  if c.slowActive ∧ c.queueAvgBytes < slowExitThreshold then { c with slowActive := false, slowCandidateSince := 0 } else c

def connectionUpdateQueueLimit (c : Connection) (pool : BufferPool) (activeStreams : Nat) (nowMs : Int) :
    Nat × Connection :=
  let inputs := connectionPrepareQueueLimitInputs pool activeStreams
  let c := { c with queueAvgBytes := c.nextQueueAvg }
  let (slowThreshold, slowExitThreshold) := slowThresholds pool inputs
  let c := updateSlowState slowThreshold slowExitThreshold nowMs c
  (connectionComputeLimitBytes pool inputs.fairBytes (connectionApplySlowClamp inputs.burstFactor c.slowActive), c)

/-! ### Pausing and queueing -/

/-- `CONN_HWM`. -/
def connHwm (limit : Nat) : Nat := limit * 3 / 4

/-- `CONN_LWM`. -/
def connLwm (limit : Nat) : Nat := limit * 1 / 2

/-- `CONN_FLOW_CONTROL_MIN_LIMIT_BYTES`. -/
def connFlowControlMinLimitBytes : Nat := connQueueMinBuffers * bufferPoolBufferSize

def connectionShouldPauseUpstream (c : Connection) (pool : BufferPool) (activeStreams : Nat) : Bool × Connection :=
  if c.queueBytes < connHwm connFlowControlMinLimitBytes then (false, c)
  else
    let limit := connectionComputeQueueLimit c pool activeStreams
    (c.queueBytes ≥ connHwm limit, { c with queueLimitBytes := limit })

def connectionCanResumeUpstream (c : Connection) (pool : BufferPool) (activeStreams : Nat) : Bool × Connection :=
  if c.queueBytes ≤ connLwm connFlowControlMinLimitBytes then (true, c)
  else
    let limit := connectionComputeQueueLimit c pool activeStreams
    (c.queueBytes ≤ connLwm limit, { c with queueLimitBytes := limit })

def connectionRecordDrop (c : Connection) (len : Nat) : Connection :=
  { c with droppedPackets := c.droppedPackets + 1, droppedBytes := c.droppedBytes + len }

def connectionQueueZerocopy (pool : BufferPool) (activeStreams : Nat) (nowMs : Int) (c : Connection) (ref : Nat) :
    Int × Connection :=
  let dataSize := (c.zc.heap ref).dataSize
  if dataSize = 0 then (0, c)
  else
    let (limitBytes, c) := connectionUpdateQueueLimit c pool activeStreams nowMs
    let queuedBytes := c.queueBytes
    let c := { c with queueLimitBytes := limitBytes }
    if queuedBytes + dataSize > limitBytes then (-1, connectionRecordDrop c dataSize)
    else
      let (ret, zc) := zerocopyQueueAdd c.zc ref
      let c := { c with zc }
      if ret < 0 then (-1, c)
      else (0, { c with
        queueBytesHighwater := max c.queueBytesHighwater queuedBytes
        queueBuffersHighwater := max c.queueBuffersHighwater c.zc.queue.numQueued })

end Rtp2httpd
