import DOpenWrt.Rtp2httpd.QueueBackpressure

/-!
# The watermarks of flow control

Below the watermarks of 64 buffers the limit is not computed. But the limit of a slow client, and that of a small pool,
may be lower.
-/

namespace Rtp2httpd

variable {c : Connection} {pool : BufferPool} {active n : Nat}

/-- The slow clamp and the cap of the pool leave room for `n` bytes. No other bound of the limit is below 64
buffers. -/
def Connection.RoomFor (c : Connection) (pool : BufferPool) (active n : Nat) : Prop :=
  (c.slowActive = true → 5 * n ≤ 4 * (connectionPrepareQueueLimitInputs pool active).fairBytes) ∧ pool.WithinCap n

instance Connection.decidableRoomFor (c : Connection) (pool : BufferPool) (active n : Nat) :
    Decidable (c.RoomFor pool active n) := inferInstanceAs (Decidable (_ ∧ _))

theorem connectionApplySlowClamp_slow {burstFactor : ℚ} (h : 1 ≤ burstFactor) :
    connectionApplySlowClamp burstFactor true = 4 / 5 := by
  have hclamp : burstFactor > connQueueSlowClampFactor := lt_of_lt_of_le (by norm_num [connQueueSlowClampFactor]) h
  exact if_pos ⟨rfl, hclamp⟩

theorem connectionApplySlowClamp_fast (burstFactor : ℚ) : connectionApplySlowClamp burstFactor false = burstFactor :=
  if_neg fun h => Bool.false_ne_true h.1

/-- Only the clamp brings the burst below 64 buffers. -/
theorem le_burstBytes_iff (hn : n ≤ connFlowControlMinLimitBytes) (slow : Bool) : n ≤ burstBytes pool active slow ↔
    (slow = true → 5 * n ≤ 4 * (connectionPrepareQueueLimitInputs pool active).fairBytes) := by
  have hburst := connectionPrepareQueueLimitInputs_burstFactor pool active
  have hfair := connectionPrepareQueueLimitInputs_fairBytes pool active
  unfold burstBytes
  dsimp only
  generalize (connectionPrepareQueueLimitInputs pool active).burstFactor = burstFactor at hburst
  generalize (connectionPrepareQueueLimitInputs pool active).fairBytes = fairBytes at hfair
  cases slow with
  | false =>
    rw [connectionApplySlowClamp_fast]
    refine iff_of_true (Nat.le_floor ?_) fun h => absurd h Bool.false_ne_true
    calc (n : ℚ) ≤ fairBytes := Nat.cast_le.2 (hn.trans hfair)
      _ = fairBytes * 1 := (mul_one _).symm
      _ ≤ fairBytes * burstFactor := mul_le_mul_of_nonneg_left hburst (Nat.cast_nonneg _)
  | true =>
    rw [connectionApplySlowClamp_slow hburst, imp_iff_right rfl, Nat.le_floor_iff (by positivity)]
    rw [← mul_div_assoc, le_div_iff₀ (by norm_num)]
    constructor
    · intro h
      have h' : ((n * 5 : Nat) : ℚ) ≤ ((fairBytes * 4 : Nat) : ℚ) := by
        push_cast
        exact h
      have := Nat.cast_le.1 h'
      omega
    · intro h
      have h' : ((n * 5 : Nat) : ℚ) ≤ ((fairBytes * 4 : Nat) : ℚ) := Nat.cast_le.2 (by omega)
      push_cast at h'
      exact h'

theorem le_connectionComputeQueueLimit_iff (hn : n ≤ connFlowControlMinLimitBytes) :
    n ≤ connectionComputeQueueLimit c pool active ↔ c.RoomFor pool active n := by
  rw [connectionComputeQueueLimit, le_queueLimit_iff, le_burstBytes_iff hn]
  rfl

/-- What a queue that is taken for short needs: up to 32 buffers, that twice as much may be queued; up to 47, that they
are less than three quarters of what may be queued. -/
def FastPathsAgree (c : Connection) (pool : BufferPool) (active : Nat) : Prop :=
  let numQueued := c.zc.queue.numQueued
  48 ≤ numQueued ∨
    if numQueued ≤ 32 then c.RoomFor pool active (2 * numQueued * bufferPoolBufferSize)
    else c.RoomFor pool active (numQueued * bufferPoolBufferSize / 3 * 4 + 2)

instance decidableFastPathsAgree (c : Connection) (pool : BufferPool) (active : Nat) :
    Decidable (FastPathsAgree c pool active) := inferInstanceAs (Decidable (_ ∨ ite _ _ _))

/-- The watermarks of one limit keep apart. -/
theorem connLwm_lt_connHwm {limit : Nat} (h : 4 * bufferPoolBufferSize ≤ limit) : connLwm limit < connHwm limit := by
  have hbuf : bufferPoolBufferSize = 1536 := rfl
  unfold connLwm connHwm
  omega

theorem four_le_queueLimit (c : Connection) (pool : BufferPool) (active : Nat) :
    4 * bufferPoolBufferSize ≤ connectionComputeQueueLimit c pool active := four_le_limitBytes ..

theorem not_pause_and_resume : ¬ ((connectionShouldPauseUpstream c pool active).1 = true ∧
    (connectionCanResumeUpstream c pool active).1 = true) := by
  have hgap := connLwm_lt_connHwm (four_le_queueLimit c pool active)
  have hmin : connLwm connFlowControlMinLimitBytes < connHwm connFlowControlMinLimitBytes := by decide
  rintro ⟨hpause, hresume⟩
  unfold connectionShouldPauseUpstream at hpause
  unfold connectionCanResumeUpstream at hresume
  split_ifs at hpause with hshort
  rw [if_neg (by omega)] at hresume
  have hhigh := of_decide_eq_true hpause
  have hlow := of_decide_eq_true hresume
  omega

/-- Both checks say what the computed limit says, and never the same, if and only if a queue that is taken for short is
so by the computed limit too. -/
theorem flowControl_fast_paths_iff (c : Connection) (pool : BufferPool) (active : Nat) :
    (((connectionShouldPauseUpstream c pool active).1 = true ↔
          connHwm (connectionComputeQueueLimit c pool active) ≤ c.queueBytes) ∧
        ((connectionCanResumeUpstream c pool active).1 = true ↔
          c.queueBytes ≤ connLwm (connectionComputeQueueLimit c pool active)) ∧
        ¬ ((connectionShouldPauseUpstream c pool active).1 = true ∧
          (connectionCanResumeUpstream c pool active).1 = true)) ↔
      FastPathsAgree c pool active := by
  rw [and_iff_left not_pause_and_resume]
  have hbuf : bufferPoolBufferSize = 1536 := rfl
  have hmin : connFlowControlMinLimitBytes = 98304 := rfl
  have hhwm : connHwm connFlowControlMinLimitBytes = 73728 := rfl
  have hlwm : connLwm connFlowControlMinLimitBytes = 49152 := rfl
  have hpause : ((connectionShouldPauseUpstream c pool active).1 = true ↔
      connHwm (connectionComputeQueueLimit c pool active) ≤ c.queueBytes) ↔
      (c.queueBytes < 73728 → c.queueBytes < connHwm (connectionComputeQueueLimit c pool active)) := by
    unfold connectionShouldPauseUpstream
    rw [hhwm]
    split_ifs with hshort
    · simp [hshort]
    · simp [hshort]
  have hresume : ((connectionCanResumeUpstream c pool active).1 = true ↔
      c.queueBytes ≤ connLwm (connectionComputeQueueLimit c pool active)) ↔
      (c.queueBytes ≤ 49152 → c.queueBytes ≤ connLwm (connectionComputeQueueLimit c pool active)) := by
    unfold connectionCanResumeUpstream
    rw [hlwm]
    split_ifs with hshort
    · simp [hshort]
    · simp [hshort]
  rw [hpause, hresume]
  unfold FastPathsAgree Connection.queueBytes connHwm connLwm
  dsimp only
  rw [hbuf]
  generalize hn : c.zc.queue.numQueued = numQueued
  by_cases hlong : 48 ≤ numQueued
  · refine iff_of_true ⟨fun h => ?_, fun h => ?_⟩ (.inl hlong) <;> omega
  rw [or_iff_right hlong]
  split_ifs with hshort
  · rw [← le_connectionComputeQueueLimit_iff (by omega)]
    have hlimit := four_le_queueLimit c pool active
    omega
  · rw [← le_connectionComputeQueueLimit_iff (by omega)]
    omega

/-- A slow client with forty buffers queued: the computed limit is 78643 bytes, of which they are more than three
quarters. -/
def slowClient : Connection :=
  { busyClient 1000 with
    zc := { (busyClient 1000).zc with queue := { (busyClient 1000).zc.queue with totalBytes := 61440, numQueued := 40 } }
    slowActive := true }

theorem flowControl_fast_paths_disagree :
    ¬ ∀ (c : Connection) (pool : BufferPool) (active : Nat), 1 ≤ pool.maxBuffers →
      ((connectionShouldPauseUpstream c pool active).1 = true ↔
          connHwm (connectionComputeQueueLimit c pool active) ≤ c.queueBytes) ∧
        ((connectionCanResumeUpstream c pool active).1 = true ↔
          c.queueBytes ≤ connLwm (connectionComputeQueueLimit c pool active)) ∧
        ¬ ((connectionShouldPauseUpstream c pool active).1 = true ∧
          (connectionCanResumeUpstream c pool active).1 = true) := by
  intro h
  have hpause := (h slowClient quietPool 16 (by decide)).1.2 (by decide +kernel)
  have hfast : (connectionShouldPauseUpstream slowClient quietPool 16).1 = false := by decide +kernel
  rw [hfast] at hpause
  cases hpause

end Rtp2httpd
