import DOpenWrt.Rtp2httpd.QueueLimit

/-!
# Reading after a pause check

A relay that was not told to pause takes a buffer from the pool, fills it and queues it. The check and the queueing
compute the limit separately, with the allocation and a step of the slow-state machine between them.
-/

namespace Rtp2httpd

variable {c : Connection} {pool pool' : BufferPool} {active : Nat} {now : Int} {ref : Nat} {n : Nat}

/-! ### The limit, its three bounds apart -/

/-- What the size of the pool leaves to one connection, no less than four buffers. -/
def BufferPool.WithinCap (pool : BufferPool) (n : Nat) : Prop :=
  n ≤ 4 * bufferPoolBufferSize ∨ pool.maxBuffers = 0 ∨
    n ≤ (if connQueueMinBuffers < pool.maxBuffers then pool.maxBuffers - connQueueMinBuffers else pool.maxBuffers) *
      bufferPoolBufferSize

instance BufferPool.decidableWithinCap (pool : BufferPool) (n : Nat) : Decidable (pool.WithinCap n) :=
  inferInstanceAs (Decidable (_ ∨ _ ∨ _))

/-- The fair share times the burst factor of a pool, for a slow connection or for another. -/
def burstBytes (pool : BufferPool) (active : Nat) (slow : Bool) : Nat :=
  let inputs := connectionPrepareQueueLimitInputs pool active
  ⌊inputs.fairBytes * connectionApplySlowClamp inputs.burstFactor slow⌋₊

theorem le_limitBytes_iff {fairBytes : Nat} {burstFactor : ℚ}
    (hburst : 4 * bufferPoolBufferSize ≤ ⌊fairBytes * burstFactor⌋₊) :
    n ≤ connectionComputeLimitBytes pool fairBytes burstFactor ↔ n ≤ ⌊fairBytes * burstFactor⌋₊ ∧ pool.WithinCap n := by
  unfold connectionComputeLimitBytes BufferPool.WithinCap
  have hsize : bufferPoolBufferSize = 1536 := rfl
  have hmin : connQueueMinBuffers = 64 := rfl
  generalize ⌊fairBytes * burstFactor⌋₊ = burst at hburst ⊢
  rw [hsize] at hburst
  simp only [hsize, hmin]
  split_ifs <;> omega

theorem connectionPrepareQueueLimitInputs_fairBytes (pool : BufferPool) (active : Nat) :
    connFlowControlMinLimitBytes ≤ (connectionPrepareQueueLimitInputs pool active).fairBytes := by
  have hclamp : ∀ shareBuffers, connQueueMinBuffers ≤
      if shareBuffers < connQueueMinBuffers then connQueueMinBuffers else shareBuffers := fun shareBuffers => by
    split <;> omega
  exact Nat.mul_le_mul_right _ (hclamp _)

theorem connectionPrepareQueueLimitInputs_burstFactor (pool : BufferPool) (active : Nat) :
    1 ≤ (connectionPrepareQueueLimitInputs pool active).burstFactor := by
  simp only [connectionPrepareQueueLimitInputs, connQueueBurstFactor, connQueueBurstFactorCongested,
    connQueueBurstFactorDrain]
  split_ifs <;> norm_num

theorem connectionApplySlowClamp_ge {burstFactor : ℚ} (h : 1 ≤ burstFactor) (slow : Bool) :
    connQueueSlowClampFactor ≤ connectionApplySlowClamp burstFactor slow := by
  unfold connectionApplySlowClamp
  split
  · exact le_refl _
  · exact le_trans (by norm_num [connQueueSlowClampFactor]) h

/-- Even a slow connection may queue four fifths of the smallest share. -/
theorem burstBytes_ge (pool : BufferPool) (active : Nat) (slow : Bool) : 78643 ≤ burstBytes pool active slow := by
  refine Nat.le_floor ?_
  have hfair : (connFlowControlMinLimitBytes : ℚ) ≤ (connectionPrepareQueueLimitInputs pool active).fairBytes :=
    Nat.cast_le.2 (connectionPrepareQueueLimitInputs_fairBytes pool active)
  have hclamp := connectionApplySlowClamp_ge (connectionPrepareQueueLimitInputs_burstFactor pool active) slow
  calc ((78643 : Nat) : ℚ) ≤ connFlowControlMinLimitBytes * connQueueSlowClampFactor := by
        norm_num [connFlowControlMinLimitBytes, connQueueMinBuffers, bufferPoolBufferSize, connQueueSlowClampFactor]
    _ ≤ _ := mul_le_mul hfair hclamp (by norm_num [connQueueSlowClampFactor]) (Nat.cast_nonneg _)

theorem le_queueLimit_iff {slow : Bool} :
    n ≤ connectionComputeLimitBytes pool (connectionPrepareQueueLimitInputs pool active).fairBytes
        (connectionApplySlowClamp (connectionPrepareQueueLimitInputs pool active).burstFactor slow) ↔
      n ≤ burstBytes pool active slow ∧ pool.WithinCap n :=
  le_limitBytes_iff (le_trans (by norm_num [bufferPoolBufferSize]) (burstBytes_ge pool active slow))

/-! ### The slow state after a step -/

/-- The connection counts as slow after the next enqueue: it did before or its average has been above the threshold
for the time of the debounce, and the average is not below the exit threshold. -/
def SlowAfter (c : Connection) (pool : BufferPool) (active : Nat) (now : Int) : Prop :=
  let thresholds := slowThresholds pool (connectionPrepareQueueLimitInputs pool active)
  (c.slowActive = true ∨ thresholds.1 < c.nextQueueAvg ∧ c.slowCandidateSince ≠ 0 ∧
    c.slowCandidateSince + connQueueSlowDebounceMs ≤ now) ∧ thresholds.2 ≤ c.nextQueueAvg

instance decidableSlowAfter (c : Connection) (pool : BufferPool) (active : Nat) (now : Int) :
    Decidable (SlowAfter c pool active now) := inferInstanceAs (Decidable (_ ∧ _))

theorem updateSlowCandidate_queueAvgBytes (slowThreshold : ℚ) (now : Int) (c : Connection) :
    (updateSlowCandidate slowThreshold now c).queueAvgBytes = c.queueAvgBytes := by
  unfold updateSlowCandidate
  split_ifs <;> rfl

theorem updateSlowCandidate_slowActive (slowThreshold : ℚ) (now : Int) (c : Connection) :
    (updateSlowCandidate slowThreshold now c).slowActive = true ↔
      c.slowActive = true ∨ slowThreshold < c.queueAvgBytes ∧ c.slowCandidateSince ≠ 0 ∧
        c.slowCandidateSince + connQueueSlowDebounceMs ≤ now := by
  have hwait : connQueueSlowDebounceMs = 3000 := rfl
  unfold updateSlowCandidate
  split_ifs with habove hfirst hlong
  · exact ⟨.inl, fun h => h.resolve_right fun h => h.2.1 hfirst⟩
  · exact ⟨fun _ => .inr ⟨habove, hfirst, by omega⟩, fun _ => rfl⟩
  · refine ⟨.inl, fun h => h.elim id fun h => by_contra fun hslow => hlong ⟨hslow, ?_, ?_⟩⟩ <;> omega
  · exact ⟨.inl, fun h => h.resolve_right fun h => habove h.1⟩

theorem updateSlowState_slowActive (slowThreshold slowExitThreshold : ℚ) (now : Int) (c : Connection) :
    (updateSlowState slowThreshold slowExitThreshold now c).slowActive = true ↔
      (c.slowActive = true ∨ slowThreshold < c.queueAvgBytes ∧ c.slowCandidateSince ≠ 0 ∧
        c.slowCandidateSince + connQueueSlowDebounceMs ≤ now) ∧ slowExitThreshold ≤ c.queueAvgBytes := by
  rw [← updateSlowCandidate_slowActive, ← updateSlowCandidate_queueAvgBytes slowThreshold now, updateSlowState]
  split
  · next h => exact ⟨fun h' => absurd h' Bool.false_ne_true, fun h' => absurd h.2 (not_lt.2 h'.2)⟩
  · next h => exact ⟨fun h' => ⟨h', not_lt.1 fun hexit => h ⟨h', hexit⟩⟩, fun h' => h'.1⟩

theorem connectionUpdateQueueLimit_slowActive :
    (connectionUpdateQueueLimit c pool active now).2.slowActive = decide (SlowAfter c pool active now) :=
  Bool.eq_iff_iff.2 ((updateSlowState_slowActive ..).trans decide_eq_true_iff.symm)

/-! ### Check, allocation, enqueue -/

theorem bufferPoolAllocFrom_maxBuffers (mem : Option SegmentMemory) (pool : BufferPool) :
    (bufferPoolAllocFrom mem pool).2.maxBuffers = pool.maxBuffers := by
  have hexpand : ∀ pool', bufferPoolExpand mem pool = some pool' → pool'.maxBuffers = pool.maxBuffers := by
    intro pool' he
    rw [bufferPoolExpand_eq] at he
    split at he
    · cases he
    · obtain ⟨m, -, rfl⟩ := Option.map_eq_some_iff.1 he
      rfl
  unfold bufferPoolAllocFrom
  split
  · cases he : bufferPoolExpand mem pool with
    | none => rfl
    | some pool' => exact (popFree_maxBuffers pool').trans (hexpand pool' he)
  · split
    · cases he : bufferPoolExpand mem pool with
      | none => exact popFree_maxBuffers pool
      | some pool' => exact (popFree_maxBuffers pool').trans (hexpand pool' he)
    · exact popFree_maxBuffers pool

/-- The check changes nothing that the enqueue reads. -/
theorem connectionShouldPauseUpstream_frame {c' : Connection}
    (h : (connectionShouldPauseUpstream c pool active).2 = c') : c'.zc = c.zc ∧ c'.droppedPackets = c.droppedPackets ∧
      ∀ pool' now, decide (SlowAfter c' pool' active now) = decide (SlowAfter c pool' active now) := by
  unfold connectionShouldPauseUpstream at h
  split at h
  · cases h
    exact ⟨rfl, rfl, fun _ _ => rfl⟩
  · cases h
    exact ⟨rfl, rfl, fun _ _ => rfl⟩

/-- Below the watermark a buffer still fits. -/
theorem connHwm_room {limit queued data : Nat} (h : queued < connHwm limit) (hlimit : 4 * bufferPoolBufferSize ≤ limit)
    (hdata : data ≤ bufferPoolBufferSize) : queued + data ≤ limit := by
  unfold connHwm at h
  omega

theorem four_le_limitBytes (pool : BufferPool) (fairBytes : Nat) (burstFactor : ℚ) :
    4 * bufferPoolBufferSize ≤ connectionComputeLimitBytes pool fairBytes burstFactor := by
  have hclamp : ∀ limit, 4 * bufferPoolBufferSize ≤
      if limit < bufferPoolBufferSize * 4 then bufferPoolBufferSize * 4 else limit := fun limit => by
    split <;> omega
  exact hclamp _

/-- The update touches neither the queue nor the drop counter. -/
theorem connectionUpdateQueueLimit_frame : (connectionUpdateQueueLimit c pool active now).2.zc = c.zc ∧
    (connectionUpdateQueueLimit c pool active now).2.droppedPackets = c.droppedPackets := by
  have hframe : ∀ (slowThreshold slowExitThreshold : ℚ) (c : Connection),
      (updateSlowState slowThreshold slowExitThreshold now c).zc = c.zc ∧
        (updateSlowState slowThreshold slowExitThreshold now c).droppedPackets = c.droppedPackets := by
    intro slowThreshold slowExitThreshold c
    unfold updateSlowState updateSlowCandidate
    dsimp only
    split_ifs <;> exact ⟨rfl, rfl⟩
  exact hframe ..

theorem le_updatedLimit_iff : n ≤ (connectionUpdateQueueLimit c pool active now).1 ↔
    n ≤ burstBytes pool active (decide (SlowAfter c pool active now)) ∧ pool.WithinCap n := by
  rw [← le_queueLimit_iff, ← connectionUpdateQueueLimit_slowActive]
  rfl

/-- A buffer is dropped exactly when it does not fit the limit computed for it. -/
theorem connectionQueueZerocopy_droppedPackets :
    (connectionQueueZerocopy pool active now c ref).2.droppedPackets = c.droppedPackets ↔
      (c.zc.heap ref).dataSize = 0 ∨
        c.queueBytes + (c.zc.heap ref).dataSize ≤ (connectionUpdateQueueLimit c pool active now).1 := by
  obtain ⟨hzc, hdropped⟩ := @connectionUpdateQueueLimit_frame c pool active now
  unfold connectionQueueZerocopy
  simp only [Connection.queueBytes, hzc]
  split_ifs with hempty hover hret
  · exact ⟨fun _ => .inl hempty, fun _ => rfl⟩
  · refine ⟨fun h => ?_, fun h => absurd hover (not_lt.2 (h.resolve_left hempty))⟩
    rw [connectionRecordDrop, hdropped] at h
    exact absurd h (Nat.succ_ne_self _)
  · exact ⟨fun _ => .inr (not_lt.1 hover), fun _ => hdropped⟩
  · exact ⟨fun _ => .inr (not_lt.1 hover), fun _ => hdropped⟩

/-- What the state before the enqueue has to meet. With fewer buffers queued than the check looks at, the pool has to
leave room for them. With more, the share times the burst factor must not fall, from what it was at the check to what
it is for the pool after the allocation and the slow state after this step; or the queue is not that long yet. -/
def KeepsRoom (c : Connection) (pool pool' : BufferPool) (active : Nat) (now : Int) (dataSize : Nat) : Prop :=
  dataSize = 0 ∨
    if c.queueBytes < connHwm connFlowControlMinLimitBytes then pool.WithinCap (c.queueBytes + dataSize)
    else
      burstBytes pool active c.slowActive ≤ burstBytes pool' active (decide (SlowAfter c pool' active now)) ∨
        c.queueBytes + dataSize ≤ burstBytes pool' active (decide (SlowAfter c pool' active now))

instance decidableKeepsRoom (c : Connection) (pool pool' : BufferPool) (active : Nat) (now : Int) (dataSize : Nat) :
    Decidable (KeepsRoom c pool pool' active now dataSize) := inferInstanceAs (Decidable (_ ∨ ite _ _ _))

/-- After a check that did not pause, one buffer from the pool is queued without a drop exactly if there is room. -/
theorem queueZerocopy_after_check {mem : Option SegmentMemory} {poolRef : PoolRef}
    (hcheck : (connectionShouldPauseUpstream c pool active).1 = false)
    (halloc : bufferPoolAllocFrom mem pool = (some poolRef, pool'))
    (hsize : (c.zc.heap ref).dataSize ≤ bufferPoolBufferSize) :
    (connectionQueueZerocopy pool' active now (connectionShouldPauseUpstream c pool active).2 ref).2.droppedPackets =
        c.droppedPackets ↔
      KeepsRoom c pool pool' active now (c.zc.heap ref).dataSize := by
  obtain ⟨hzc, hdropped, hslow⟩ := @connectionShouldPauseUpstream_frame c pool active _ rfl
  have hcap : ∀ n, pool'.WithinCap n ↔ pool.WithinCap n := by
    have hmax : pool'.maxBuffers = pool.maxBuffers := by rw [← bufferPoolAllocFrom_maxBuffers mem pool, halloc]
    intro n
    rw [BufferPool.WithinCap, BufferPool.WithinCap, hmax]
  rw [← hdropped, connectionQueueZerocopy_droppedPackets, le_updatedLimit_iff, hslow, hcap, Connection.queueBytes, hzc,
    ← Connection.queueBytes, KeepsRoom]
  refine or_congr_right ?_
  split
  · -- the fast path of the check: what is queued fits any share
    next hfast =>
    have hroom : c.queueBytes + (c.zc.heap ref).dataSize ≤ 78643 := by
      have hbound : connHwm connFlowControlMinLimitBytes = 73728 := rfl
      have hbuf : bufferPoolBufferSize = 1536 := rfl
      omega
    exact and_iff_right (hroom.trans (burstBytes_ge ..))
  · next hlong =>
    rw [connectionShouldPauseUpstream, if_neg hlong, decide_eq_false_iff_not, not_le] at hcheck
    have hroom := connHwm_room hcheck (four_le_limitBytes ..) hsize
    obtain ⟨hburst, hwithin⟩ := le_queueLimit_iff.1 hroom
    rw [and_iff_left hwithin]
    exact ⟨.inr, fun h => h.elim hburst.trans id⟩

/-- A pool at its initial size with 124 buffers in use. -/
def quietPool : BufferPool where
  segments := [⟨1, 0, 1024, 900⟩]
  freeList := (List.range 900).map fun i => ⟨1, i, i * 1536⟩
  refcount := fun ref => if ref.index < 900 then 0 else 1
  bufferSize := 1536
  numBuffers := 1024
  numFree := 900
  maxBuffers := 16384
  expandSize := 512
  lowWatermark := 256
  highWatermark := 3072

/-- A client with a hundred buffers queued, now and on average. -/
def busyClient (slowCandidateSince : Int) : Connection where
  zc := {
    heap := fun ref => {
      type := .memory, data := fun _ => 0, dataOffset := 0, dataSize := 1536, iovBase := 0, iovLen := 1536
      fileFd := -1, file := fun _ => 0, fileOffset := 0, fileSize := 0, fileSent := 0
      refcount := 1, sendNext := if 1 ≤ ref ∧ ref < 100 then some (ref + 1) else none, zerocopyId := 0 }
    queue := { zerocopyQueueInit with head := some 1, tail := some 100, totalBytes := 153600, numQueued := 100 }
    freeList := none
    wire := []
    puts := [] }
  queueLimitBytes := 294912
  queueBytesHighwater := 153600
  queueBuffersHighwater := 100
  droppedPackets := 0
  droppedBytes := 0
  queueAvgBytes := 153600
  slowActive := false
  slowCandidateSince := slowCandidateSince

theorem queueZerocopy_after_check_fits :
    (connectionQueueZerocopy (bufferPoolAllocFrom none quietPool).2 16 5000
      (connectionShouldPauseUpstream (busyClient 4000) quietPool 16).2 0).2.droppedPackets = 0 := by
  have hfirst : (bufferPoolAllocFrom none quietPool).1 = some ⟨1, 0, 0⟩ := by decide +kernel
  have halloc : bufferPoolAllocFrom none quietPool = (some ⟨1, 0, 0⟩, (bufferPoolAllocFrom none quietPool).2) := by
    rw [← hfirst]
  exact (queueZerocopy_after_check (c := busyClient 4000) (by decide +kernel) halloc (by decide +kernel)).2
    (by decide +kernel)

/-- With sixteen streams the check sees the limit of 192 buffers. The enqueue finds the client slow for four seconds,
and its limit is 51. -/
theorem queueZerocopy_after_check_drops :
    (connectionShouldPauseUpstream (busyClient 1000) quietPool 16).1 = false ∧
    (bufferPoolAllocFrom none quietPool).1 = some ⟨1, 0, 0⟩ ∧
    ((busyClient 1000).zc.heap 0).dataSize ≤ bufferPoolBufferSize ∧
    (connectionQueueZerocopy (bufferPoolAllocFrom none quietPool).2 16 5000
      (connectionShouldPauseUpstream (busyClient 1000) quietPool 16).2 0).2.droppedPackets = 1 := by
  decide +kernel

end Rtp2httpd
