import DOpenWrt.Rtp2httpd.Relay

/-!
# A paused upstream is woken

Reading from an upstream stops only while the client has something queued, and every write that empties the queue
resumes it. `Feeds` is what all functions that read from the upstreams have in common: the queue only grows.
-/

namespace Rtp2httpd

/-! ### The queue of a connection -/

section Queue

variable {st : ZcState} {l p : List Nat} {ref : Nat}

/-- A reference that is not the last is given back without a trace in the queues. -/
theorem ZcInv.bufferRefPut_held (h : ZcInv st l p) (href : 1 < (st.heap ref).refcount) :
    ZcInv (st.bufferRefPut ref) l p := by
  have hkept : ¬ ((st.modify ref fun b => { b with refcount := b.refcount - 1 }).heap ref).refcount ≤ 0 := by
    rw [modify_heap_self]
    show ¬ (st.heap ref).refcount - 1 ≤ 0
    omega
  refine h.congr (bufferRefPut_queue ..) (fun r _ => ?_) fun r _ => SendBuffer.payload_eq (bufferRefPut_core ..)
  by_cases hr : r = ref
  · subst hr
    unfold ZcState.bufferRefPut ZcState.next
    dsimp only
    rw [if_neg fun hc => hkept hc.1]
    show ((st.modify r fun b => { b with refcount := b.refcount - 1 }).heap r).sendNext = _
    rw [modify_heap_self]
  · rw [ZcState.next, bufferRefPut_heap_of_ne _ hr, ZcState.next]

theorem appendTail_refcount (st : ZcState) (ref r : Nat) :
    ((appendTail st ref).heap r).refcount = (st.heap r).refcount := by
  unfold appendTail
  split
  · next tail _ =>
    show ((st.modify tail fun b => { b with sendNext := some ref }).heap r).refcount = _
    by_cases hr : r = tail
    · rw [hr, modify_heap_self]
    · rw [modify_heap_of_ne _ _ hr]
  · rfl

/-- A buffer that was added is one in memory, with a reference more. -/
theorem zerocopyQueueAdd_self (hret : (zerocopyQueueAdd st ref).1 = 0) (hsize : (st.heap ref).dataSize ≠ 0) :
    ((zerocopyQueueAdd st ref).2.heap ref).type = .memory ∧
      ((zerocopyQueueAdd st ref).2.heap ref).refcount = (st.heap ref).refcount + 1 := by
  unfold zerocopyQueueAdd at hret ⊢
  dsimp only at hret ⊢
  rw [if_neg hsize] at hret ⊢
  split at hret
  · cases hret
  · next hfits =>
    rw [if_neg hfits]
    constructor
    · refine (SendBuffer.type_eq (SendBuffer.payload_eq (appendTail_core ..))).trans ?_
      rw [ZcState.bufferRefGet, modify_heap_self, modify_heap_self]
    · refine (appendTail_refcount ..).trans ?_
      rw [ZcState.bufferRefGet, modify_heap_self, modify_heap_self]

/-- No file is in the queue. -/
def AllMemory (st : ZcState) (l : List Nat) : Prop := ∀ ref ∈ l, (st.heap ref).type = .memory

theorem AllMemory.congr {st' : ZcState} (h : AllMemory st l) (hcore : ∀ r ∈ l, (st'.heap r).core = (st.heap r).core) :
    AllMemory st' l := fun r hr => (SendBuffer.type_eq (SendBuffer.payload_eq (hcore r hr))).trans (h r hr)

theorem consumeSent_type {finish : ZcState → Nat → ZcState} {split : SendBuffer → SendBuffer}
    (hfinish : ∀ st ref r, ((finish st ref).heap r).core = (st.heap r).core) (hsplit : ∀ b, (split b).type = b.type)
    (fuel : Nat) : ∀ n st r, ((consumeSent finish split fuel n st).heap r).type = (st.heap r).type := by
  induction fuel with
  | zero => exact fun _ _ _ => rfl
  | succ fuel ih =>
    intro n st r
    rw [consumeSent]
    split
    · rfl
    · split
      · rfl
      · next current _ =>
        dsimp only
        split
        · rfl
        · split
          · exact (ih ..).trans (SendBuffer.type_eq (SendBuffer.payload_eq (hfinish ..)))
          · dsimp only [ZcState.modify]
            by_cases hr : r = current
            · rw [hr, Function.update_self, hsplit]
            · rw [Function.update_of_ne hr]

/-- Sending changes the kind of no buffer. -/
theorem zerocopySend_type (zerocopyOnSend : Bool) (kernel : SendResult) (st : ZcState) (r : Nat) :
    ((zerocopySend zerocopyOnSend kernel st).2.2.heap r).type = (st.heap r).type := by
  unfold zerocopySend
  split
  · rfl
  · next head _ =>
    split
    · unfold sendFileHead
      have hfile : ∀ n : Nat, (({ st with wire := st.wire ++ (st.heap head).unsent.take n }.modify head
          fun b => { b with fileSent := b.fileSent + n }).heap r).type = (st.heap r).type := fun n => by
        by_cases hr : r = head
        · rw [hr, modify_heap_self]
        · rw [modify_heap_of_ne _ _ hr]
      cases kernel with
      | sent n =>
        dsimp only
        split
        · exact (SendBuffer.type_eq (SendBuffer.payload_eq (bufferRefPut_core ..))).trans (hfile n)
        · exact hfile n
      | eagain | enobufs | failed => rfl
    · unfold sendBatch
      dsimp only
      split
      · rfl
      · cases kernel with
        | sent n =>
          dsimp only
          split
          · refine (@consumeSent_type _ resetZerocopyId moveToPending_core (fun _ => rfl) ..).trans ?_
            exact SendBuffer.type_eq (assignZerocopyId_payload ..)
          · exact @consumeSent_type _ id bufferRefPut_core (fun _ => rfl) ..
        | eagain | enobufs | failed => rfl

theorem zerocopySend_sent_bytes (zerocopyOnSend : Bool) (h : ZcInv st (ref :: l) p)
    (hmem : (st.heap ref).type = .memory) (n : Nat) : (zerocopySend zerocopyOnSend (.sent n) st).2.1 = n := by
  unfold zerocopySend sendBatch
  rw [h.send.head_eq]
  simp only [List.head?_cons, hmem, reduceCtorEq, if_false, h.batch_ne_nil hmem]
  split <;> rfl

/-- Completions touch only the pending queue. -/
theorem completeRanges_spec (ranges : List (BitVec 32 × BitVec 32)) :
    ∀ {st : ZcState} {p : List Nat}, ZcInv st l p → ∃ p', ZcInv (completeRanges ranges st).2 l p' ∧
      ∀ r, ((completeRanges ranges st).2.heap r).core = (st.heap r).core := by
  induction ranges with
  | nil => exact fun {st p} h => ⟨p, h, fun _ => rfl⟩
  | cons range ranges ih =>
    intro st p h
    have hrel := (completeRange_spec h range.1 range.2).1
    obtain ⟨p', hinv, hcore⟩ := ih hrel.inv
    exact ⟨p', hinv, fun r => (hcore r).trans (hrel.core r)⟩

/-- A send keeps the queue well formed. If it takes a buffer out of a queue without files, it sent something. -/
theorem zerocopySend_spec (zerocopyOnSend : Bool) (h : ZcInv st l p) (kernel : SendResult) :
    ∃ l' p', ZcInv (zerocopySend zerocopyOnSend (kernel.clip st) st).2.2 l' p' ∧ l' ⊆ l ∧
      (AllMemory st l → l' = l ∨ 0 < (zerocopySend zerocopyOnSend (kernel.clip st) st).2.1) := by
  cases l with
  | nil =>
    have hidle : ∀ kernel, zerocopySend zerocopyOnSend kernel st = (0, 0, st) := fun kernel => by
      unfold zerocopySend
      rw [h.send.head_eq]
      rfl
    rw [hidle]
    exact ⟨[], p, h, List.Subset.refl _, fun _ => .inl rfl⟩
  | cons ref l =>
    have hsame : ∀ kernel, kernel = .eagain ∨ kernel = .enobufs ∨ kernel = .failed →
        ∃ l' p', ZcInv (zerocopySend zerocopyOnSend kernel st).2.2 l' p' ∧ l' ⊆ ref :: l ∧
          (AllMemory st (ref :: l) → l' = ref :: l ∨ 0 < (zerocopySend zerocopyOnSend kernel st).2.1) := by
      intro kernel hk
      rw [zerocopySend_refused zerocopyOnSend hk]
      exact ⟨_, p, h, List.Subset.refl _, fun _ => .inl rfl⟩
    cases kernel with
    | eagain => exact hsame _ (.inl rfl)
    | enobufs => exact hsame _ (.inr (.inl rfl))
    | failed => exact hsame _ (.inr (.inr rfl))
    | sent n =>
      rw [SendResult.clip]
      have hn : min n st.offered.length ≤ st.offered.length := Nat.min_le_right ..
      generalize min n st.offered.length = n at hn
      by_cases hfile : (st.heap ref).type = .file
      · have hnofile : ¬ AllMemory st (ref :: l) := fun hall => by
          rw [hall ref List.mem_cons_self] at hfile
          cases hfile
        rcases zerocopySend_file h hfile zerocopyOnSend n with ⟨hf, -⟩ | ⟨hf, -⟩
        · exact ⟨_, p, hf.inv, List.Subset.refl _, fun hall => absurd hall hnofile⟩
        · exact ⟨_, p, hf.inv, List.subset_cons_self .., fun hall => absurd hall hnofile⟩
      · have hmem : (st.heap ref).type = .memory := by
          cases htype : (st.heap ref).type with
          | memory => rfl
          | file => exact absurd htype hfile
        rw [StreamInv.offered_eq h List.head?_cons hmem] at hn
        have hbytes := zerocopySend_sent_bytes zerocopyOnSend h hmem n
        -- nothing sent, nothing taken out
        have hrest : ∀ {rest}, fullySent st.heap (ref :: l) n ++ rest = ref :: l → rest ⊆ ref :: l ∧
            (rest = ref :: l ∨ 0 < n) := by
          intro rest hrest
          refine ⟨hrest ▸ List.subset_append_right _ _, ?_⟩
          rcases Nat.eq_zero_or_pos n with rfl | hpos
          · rw [fullySent, if_pos rfl, List.nil_append] at hrest
            exact .inl hrest
          · exact .inr hpos
        rw [hbytes]
        cases zerocopyOnSend with
        | true =>
          obtain ⟨rest, happ, hc⟩ := zerocopySend_zerocopy h hmem hn
          exact ⟨rest, _, hc.inv, (hrest happ).1, fun _ => (hrest happ).2⟩
        | false =>
          obtain ⟨rest, happ, hc⟩ := zerocopySend_copy h hmem hn
          exact ⟨rest, _, hc.inv, (hrest happ).1, fun _ => (hrest happ).2⟩

end Queue

/-! ### The invariant -/

/-- The flag of the connection is that of its sessions. -/
def FlagExact (s : Relay) : Prop := s.anyUpstreamPaused = s.upstreamPaused

structure RelayInv (s : Relay) (l p : List Nat) : Prop where
  inv : ZcInv s.conn.zc l p
  memory : s.closing = false → AllMemory s.conn.zc l
  flag : s.closing = false → FlagExact s

/-- A paused session of a connection that is not closing has something to wait for. -/
def HttpAwake (s : Relay) (l : List Nat) : Prop :=
  s.closing = false → s.httpProxy.initialized = true → s.httpProxy.upstreamPaused = true → l ≠ []

def RtspAwake (s : Relay) (l : List Nat) : Prop :=
  s.closing = false → s.rtsp.initialized = true → s.rtsp.upstreamPaused = true → l ≠ []

/-- `s'` is `s` after something was read from the upstreams: buffers were added at the end of the queue. -/
structure Feeds (s s' : Relay) : Prop where
  closing : s.closing = true → s'.closing = true
  exact : FlagExact s → FlagExact s'
  inv : ∀ {l p}, RelayInv s l p → ∃ l', RelayInv s' (l ++ l') p ∧ (HttpAwake s l → HttpAwake s' (l ++ l')) ∧
    (RtspAwake s l → RtspAwake s' (l ++ l'))

variable {s s' s'' : Relay} {l p : List Nat} {ref : Nat}

/-- All that the invariant reads. -/
structure SameFlags (s s' : Relay) : Prop where
  closing : s'.closing = s.closing
  any : s'.anyUpstreamPaused = s.anyUpstreamPaused
  httpInitialized : s'.httpProxy.initialized = s.httpProxy.initialized
  httpPaused : s'.httpProxy.upstreamPaused = s.httpProxy.upstreamPaused
  rtspInitialized : s'.rtsp.initialized = s.rtsp.initialized
  rtspPaused : s'.rtsp.upstreamPaused = s.rtsp.upstreamPaused

namespace SameFlags

theorem flagExact (h : SameFlags s s') (hs : FlagExact s) : FlagExact s' := by
  unfold FlagExact Relay.upstreamPaused at hs ⊢
  rw [h.any, h.httpInitialized, h.httpPaused, h.rtspInitialized, h.rtspPaused, hs]

theorem httpAwake (h : SameFlags s s') {l l' : List Nat} (hl : l ≠ [] → l' ≠ []) (hs : HttpAwake s l) :
    HttpAwake s' l' := fun hc hi hp =>
  hl (hs (h.closing ▸ hc) (h.httpInitialized ▸ hi) (h.httpPaused ▸ hp))

theorem rtspAwake (h : SameFlags s s') {l l' : List Nat} (hl : l ≠ [] → l' ≠ []) (hs : RtspAwake s l) :
    RtspAwake s' l' := fun hc hi hp =>
  hl (hs (h.closing ▸ hc) (h.rtspInitialized ▸ hi) (h.rtspPaused ▸ hp))

/-- More in the queue and the same flags. -/
theorem feeds (h : SameFlags s s')
    (hinv : ∀ {l p}, ZcInv s.conn.zc l p → ∃ l', ZcInv s'.conn.zc (l ++ l') p ∧
      (AllMemory s.conn.zc l → AllMemory s'.conn.zc (l ++ l'))) : Feeds s s' where
  closing hc := h.closing.trans hc
  exact := h.flagExact
  inv {l p} hs := by
    obtain ⟨l', hl', hmem⟩ := hinv hs.inv
    have hne : l ≠ [] → l ++ l' ≠ [] := fun hl => List.append_ne_nil_of_left_ne_nil hl l'
    exact ⟨l', ⟨hl', fun hc => hmem (hs.memory (h.closing ▸ hc)), fun hc => h.flagExact (hs.flag (h.closing ▸ hc))⟩,
      h.httpAwake hne, h.rtspAwake hne⟩

/-- The queue as it was. -/
theorem feeds_of_zc (h : SameFlags s s') (hzc : s'.conn.zc = s.conn.zc) : Feeds s s' :=
  h.feeds fun {l p} hs => ⟨[], by rwa [hzc, List.append_nil], fun hm => by rwa [hzc, List.append_nil]⟩

end SameFlags

namespace Feeds

theorem refl (s : Relay) : Feeds s s := SameFlags.feeds_of_zc ⟨rfl, rfl, rfl, rfl, rfl, rfl⟩ rfl

theorem trans (h : Feeds s s') (h' : Feeds s' s'') : Feeds s s'' where
  closing hc := h'.closing (h.closing hc)
  exact hs := h'.exact (h.exact hs)
  inv {l p} hs := by
    obtain ⟨l₁, h₁, hhttp₁, hrtsp₁⟩ := h.inv hs
    obtain ⟨l₂, h₂, hhttp₂, hrtsp₂⟩ := h'.inv h₁
    rw [List.append_assoc] at h₂ hhttp₂ hrtsp₂
    exact ⟨l₁ ++ l₂, h₂, hhttp₂ ∘ hhttp₁, hrtsp₂ ∘ hrtsp₁⟩

/-- A connection that is closing waits for nothing. -/
theorem beginDrainClose (s : Relay) : Feeds s (connectionBeginDrainClose s) where
  closing _ := rfl
  exact hs := hs
  inv {l p} hs := by
    have hclosing : ¬ (connectionBeginDrainClose s).closing = false := fun hc => by cases hc
    exact ⟨[], ⟨by rw [List.append_nil]; exact hs.inv, fun hc => absurd hc hclosing, fun hc => absurd hc hclosing⟩,
      fun _ hc => absurd hc hclosing, fun _ hc => absurd hc hclosing⟩

end Feeds

/-- The decision about the limit touches only what the connection remembers of it. -/
theorem feeds_conn {conn : Connection} (hzc : conn.zc = s.conn.zc) : Feeds s { s with conn := conn } :=
  SameFlags.feeds_of_zc ⟨rfl, rfl, rfl, rfl, rfl, rfl⟩ hzc

theorem connectionShouldPauseUpstream_zc (c : Connection) (pool : BufferPool) (active : Nat) :
    (connectionShouldPauseUpstream c pool active).2.zc = c.zc := by
  unfold connectionShouldPauseUpstream
  split <;> rfl

theorem connectionCanResumeUpstream_zc (c : Connection) (pool : BufferPool) (active : Nat) :
    (connectionCanResumeUpstream c pool active).2.zc = c.zc := by
  unfold connectionCanResumeUpstream
  split <;> rfl

/-- The check pauses only with something in the queue. -/
theorem connectionShouldPauseUpstream_pos {c : Connection} {pool : BufferPool} {active : Nat}
    (h : (connectionShouldPauseUpstream c pool active).1 = true) : 0 < c.zc.queue.numQueued := by
  unfold connectionShouldPauseUpstream at h
  split at h
  · cases h
  · next hlong =>
    have hbound : connHwm connFlowControlMinLimitBytes = 73728 := rfl
    unfold Connection.queueBytes at hlong
    by_contra hzero
    rw [Nat.eq_zero_of_not_pos hzero] at hlong
    omega

/-- With an empty queue reading may go on. -/
theorem connectionCanResumeUpstream_pos {c : Connection} {pool : BufferPool} {active : Nat}
    (h : ¬ (connectionCanResumeUpstream c pool active).1 = true) : 0 < c.zc.queue.numQueued := by
  by_contra hzero
  refine h ?_
  unfold connectionCanResumeUpstream Connection.queueBytes
  rw [Nat.eq_zero_of_not_pos hzero, Nat.zero_mul, if_pos (Nat.zero_le _)]

theorem ZcInv.ne_nil {st : ZcState} (h : ZcInv st l p) (hpos : 0 < st.queue.numQueued) : l ≠ [] := by
  rw [h.numQueued] at hpos
  exact List.ne_nil_of_length_pos hpos

/-! ### Queueing -/

theorem connectionQueueZerocopy_zc (pool : BufferPool) (active : Nat) (now : Int) (c : Connection) (ref : Nat) :
    (connectionQueueZerocopy pool active now c ref).2.zc = c.zc ∨
      (c.zc.heap ref).dataSize ≠ 0 ∧
        (connectionQueueZerocopy pool active now c ref).2.zc = (zerocopyQueueAdd c.zc ref).2 := by
  have hzc : (connectionUpdateQueueLimit c pool active now).2.zc = c.zc := by
    have hslow : ∀ (slowThreshold slowExitThreshold : ℚ) (c : Connection),
        (updateSlowState slowThreshold slowExitThreshold now c).zc = c.zc := by
      intro slowThreshold slowExitThreshold c
      unfold updateSlowState updateSlowCandidate
      dsimp only
      split_ifs <;> rfl
    exact hslow ..
  unfold connectionQueueZerocopy
  simp only [hzc]
  split_ifs with hempty hover hret
  · exact .inl rfl
  · exact .inl rfl
  · exact .inr ⟨hempty, rfl⟩
  · exact .inr ⟨hempty, rfl⟩

/-- A fresh buffer is added at the end of the queue or not at all. -/
theorem queueBuffer_zc (h : ZcInv s.conn.zc l p) (href : ref ∉ l ++ p) (o : Output) :
    ∃ l', ZcInv (queueBuffer ref o s).2.conn.zc (l ++ l') p ∧
      (AllMemory s.conn.zc l → AllMemory (queueBuffer ref o s).2.conn.zc (l ++ l')) := by
  set filled : ZcState := s.conn.zc.modify ref fun _ => { o.buffer with refcount := o.held + 1 } with hfilled
  have hinv : ZcInv filled l p := h.modify href _
  have hmem : AllMemory s.conn.zc l → AllMemory filled l := fun hm r hr => by
    rw [hfilled, modify_heap_of_ne _ _ (ne_of_mem_of_not_mem (List.mem_append_left p hr) href)]
    exact hm r hr
  have hrefused : ∀ zc : ZcState, zc = filled → ∃ l', ZcInv (zc.bufferRefPut ref) (l ++ l') p ∧
      (AllMemory s.conn.zc l → AllMemory (zc.bufferRefPut ref) (l ++ l')) := by
    rintro zc rfl
    refine ⟨[], ?_, fun hm => ?_⟩
    · rw [List.append_nil]
      exact hinv.bufferRefPut href
    · rw [List.append_nil]
      exact (hmem hm).congr fun r _ => bufferRefPut_core ..
  rcases connectionQueueZerocopy_zc o.view.pool o.view.activeStreams o.view.nowMs { s.conn with zc := filled } ref with
    hzc | ⟨hsize, hzc⟩
  · exact hrefused _ hzc
  · rcases zerocopyQueueAdd_cases hinv href with ⟨hsame, -⟩ | ⟨hret, happ⟩
    · exact hrefused _ (hzc.trans hsame)
    · obtain ⟨htype, hcount⟩ := zerocopyQueueAdd_self hret hsize
      have hheld : 1 < ((zerocopyQueueAdd filled ref).2.heap ref).refcount := by
        rw [hcount, hfilled, modify_heap_self]
        show (1 : Int) < o.held + 1 + 1
        omega
      have hput : (queueBuffer ref o s).2.conn.zc = (zerocopyQueueAdd filled ref).2.bufferRefPut ref :=
        congrArg (fun zc : ZcState => zc.bufferRefPut ref) hzc
      rw [hput]
      refine ⟨[ref], ?_, fun hm => ?_⟩
      · exact happ.inv.bufferRefPut_held hheld
      · refine AllMemory.congr (fun r hr => ?_) fun r _ => bufferRefPut_core ..
        rcases List.mem_append.1 hr with hr | hr
        · have hne := ne_of_mem_of_not_mem (List.mem_append_left p hr) href
          exact (SendBuffer.type_eq (SendBuffer.payload_eq (happ.core r hne))).trans (hmem hm r hr)
        · rwa [List.mem_singleton.1 hr]

theorem queueBuffer_sameFlags (ref : Nat) (o : Output) (s : Relay) : SameFlags s (queueBuffer ref o s).2 :=
  ⟨rfl, rfl, rfl, rfl, rfl, rfl⟩

theorem queueOutput_sameFlags (o : Output) (s : Relay) : SameFlags s (queueOutput o s).2 := by
  unfold queueOutput
  split
  · exact ⟨rfl, rfl, rfl, rfl, rfl, rfl⟩
  · exact queueBuffer_sameFlags ..

theorem BufferSource.not_mem (source : BufferSource) (h : ZcInv s.conn.zc l p)
    (halloc : source.alloc s.conn.zc = some ref) : ref ∉ l ++ p := by
  have hfresh := source.fresh _ _ halloc
  rwa [h.sendList, h.pendingList] at hfresh

theorem queueOutput_feeds (o : Output) (s : Relay) : Feeds s (queueOutput o s).2 := by
  refine (queueOutput_sameFlags o s).feeds fun {l p} h => ?_
  unfold queueOutput
  split
  · exact ⟨[], by rwa [List.append_nil], fun hm => by rwa [List.append_nil]⟩
  · next ref halloc => exact queueBuffer_zc h (o.source.not_mem h halloc) o

theorem queueOutputs_feeds (outputs : List Output) : ∀ s : Relay,
    Feeds s (outputs.foldl (fun s o => (queueOutput o s).2) s) := by
  induction outputs with
  | nil => exact .refl
  | cons o outputs ih => exact fun s => (queueOutput_feeds o s).trans (ih _)

theorem queueOutputs_sameFlags (outputs : List Output) : ∀ s : Relay,
    SameFlags s (outputs.foldl (fun s o => (queueOutput o s).2) s) := by
  induction outputs with
  | nil => exact fun s => ⟨rfl, rfl, rfl, rfl, rfl, rfl⟩
  | cons o outputs ih =>
    intro s
    have h := queueOutput_sameFlags o s
    have h' := ih (queueOutput o s).2
    exact ⟨h'.closing.trans h.closing, h'.any.trans h.any, h'.httpInitialized.trans h.httpInitialized,
      h'.httpPaused.trans h.httpPaused, h'.rtspInitialized.trans h.rtspInitialized, h'.rtspPaused.trans h.rtspPaused⟩

/-! ### Pausing and reading -/

/-- A session that pauses behind a queue. -/
theorem httpProxyPauseUpstream_feeds (hpos : 0 < s.conn.zc.queue.numQueued) : Feeds s (httpProxyPauseUpstream s) := by
  unfold httpProxyPauseUpstream
  split
  · exact .refl s
  · refine ⟨id, fun _ => rfl, fun {l p} h => ⟨[], ?_, fun _ _ _ _ => ?_, fun ha hc hi hp => ?_⟩⟩
    · rw [List.append_nil]
      exact ⟨h.inv, h.memory, fun _ => rfl⟩
    · rw [List.append_nil]
      exact h.inv.ne_nil hpos
    · rw [List.append_nil]
      exact ha hc hi hp

theorem rtspPauseUpstream_feeds (hpos : 0 < s.conn.zc.queue.numQueued) : Feeds s (rtspPauseUpstream s) := by
  unfold rtspPauseUpstream
  split
  · exact .refl s
  · refine ⟨id, fun _ => rfl, fun {l p} h => ⟨[], ?_, fun ha hc hi hp => ?_, fun _ _ _ _ => ?_⟩⟩
    · rw [List.append_nil]
      exact ⟨h.inv, h.memory, fun _ => rfl⟩
    · rw [List.append_nil]
      exact ha hc hi hp
    · rw [List.append_nil]
      exact h.inv.ne_nil hpos

/-- The state of the proxy session and its counters may change. -/
theorem feeds_httpProxy {session : HttpProxySession} (hi : session.initialized = s.httpProxy.initialized)
    (hp : session.upstreamPaused = s.httpProxy.upstreamPaused) : Feeds s { s with httpProxy := session } :=
  SameFlags.feeds_of_zc ⟨rfl, rfl, hi, hp, rfl, rfl⟩ rfl

/-- A fresh buffer is allocated and given back. -/
theorem feeds_putFresh (source : BufferSource) (halloc : source.alloc s.conn.zc = some ref) :
    Feeds s ((s.modifyZc (·.modify ref fun b => { b with refcount := 1 })).modifyZc (·.bufferRefPut ref)) := by
  refine SameFlags.feeds ⟨rfl, rfl, rfl, rfl, rfl, rfl⟩ fun {l p} h => ⟨[], ?_, fun hm => ?_⟩
  · have href := source.not_mem h halloc
    rw [List.append_nil]
    exact (h.modify href _).bufferRefPut href
  · rw [List.append_nil]
    intro r hr
    have hne := ne_of_mem_of_not_mem (List.mem_append_left p hr) (source.not_mem h halloc)
    have hheap := modify_heap_of_ne s.conn.zc (fun b => { b with refcount := 1 }) hne
    exact (SendBuffer.type_eq (SendBuffer.payload_eq (bufferRefPut_core ..))).trans
      ((congrArg SendBuffer.type hheap).trans (hm r hr))

/-! ### The HTTP proxy -/

theorem httpProxyReceiveBuffer_feeds (r : HttpRecv) (s : Relay) : Feeds s (httpProxyReceiveBuffer r s).2 := by
  unfold httpProxyReceiveBuffer
  split
  · exact .refl s
  · next ref halloc =>
    have hput := feeds_putFresh r.output.source halloc
    dsimp only
    split
    · exact hput
    · exact hput.trans (feeds_httpProxy rfl rfl)
    · exact hput.trans (feeds_httpProxy rfl rfl)
    · next n _ =>
      set output : Output := { r.output with
        buffer.dataOffset := 0, buffer.dataSize := min (n + 1) bufferPoolBufferSize, held := 0 }
      set filled := s.modifyZc (·.modify ref fun b => { b with refcount := 1 })
      have hqueue : Feeds s (queueBuffer ref output filled).2 := by
        refine SameFlags.feeds ⟨rfl, rfl, rfl, rfl, rfl, rfl⟩ fun {l p} h => ?_
        have href := r.output.source.not_mem h halloc
        have hfilled : ZcInv filled.conn.zc l p := h.modify href fun b => { b with refcount := 1 }
        obtain ⟨l', hl', hmem⟩ := queueBuffer_zc hfilled href output
        refine ⟨l', hl', fun hm => hmem fun r' hr' => ?_⟩
        have hne := ne_of_mem_of_not_mem (List.mem_append_left p hr') href
        have hheap := modify_heap_of_ne s.conn.zc (fun b => { b with refcount := 1 }) hne
        exact (congrArg SendBuffer.type hheap).trans (hm r' hr')
      split
      · exact hqueue
      · split
        · exact hqueue.trans (feeds_httpProxy rfl rfl)
        · exact hqueue.trans (feeds_httpProxy rfl rfl)

theorem httpProxyTryReceiveResponse_feeds (r : HttpRecv) (s : Relay) : Feeds s (httpProxyTryReceiveResponse r s).2 := by
  have hcheck := connectionShouldPauseUpstream_zc s.conn r.check.pool r.check.activeStreams
  have hconn := feeds_conn hcheck
  unfold httpProxyTryReceiveResponse
  dsimp only
  split
  · next hpause =>
    have hpos := connectionShouldPauseUpstream_pos hpause
    refine hconn.trans (httpProxyPauseUpstream_feeds ?_)
    rwa [← hcheck] at hpos
  · exact hconn.trans (httpProxyReceiveBuffer_feeds r _)

theorem httpProxyReadLoop_feeds (recvs : List HttpRecv) : ∀ s, Feeds s (httpProxyReadLoop recvs s).2 := by
  induction recvs with
  | nil => exact .refl
  | cons r recvs ih =>
    intro s
    have htry := httpProxyTryReceiveResponse_feeds r s
    unfold httpProxyReadLoop
    dsimp only
    split
    · exact .refl s
    · split
      · exact htry
      · exact htry.trans (ih _)

theorem httpProxyReadable_feeds (recvs : List HttpRecv) (s : Relay) : Feeds s (httpProxyReadable recvs s) := by
  have hloop := httpProxyReadLoop_feeds recvs s
  unfold httpProxyReadable
  dsimp only
  split
  · have herror := hloop.trans
      (@feeds_httpProxy _ { (httpProxyReadLoop recvs s).2.httpProxy with state := .error } rfl rfl)
    exact herror.trans (.beginDrainClose _)
  · split
    · exact hloop.trans (.beginDrainClose _)
    · exact hloop

theorem httpProxyResumeLoop_feeds (recvs : List HttpRecv) : ∀ s, Feeds s (httpProxyResumeLoop recvs s) := by
  induction recvs with
  | nil => exact .refl
  | cons r recvs ih =>
    intro s
    have htry := httpProxyTryReceiveResponse_feeds r s
    unfold httpProxyResumeLoop
    dsimp only
    split
    · split
      · exact htry
      · exact htry.trans (ih _)
    · exact .refl s

/-! ### RTSP -/

theorem rtspHandleTcpInterleavedData_feeds (rounds : List RtspRound) :
    ∀ s, Feeds s (rtspHandleTcpInterleavedData rounds s).2 := by
  induction rounds with
  | nil => exact .refl
  | cons r rounds ih =>
    intro s
    have hcheck := connectionShouldPauseUpstream_zc s.conn r.check.pool r.check.activeStreams
    have hconn := feeds_conn hcheck
    unfold rtspHandleTcpInterleavedData
    dsimp only
    split
    · next hpause =>
      have hpos := connectionShouldPauseUpstream_pos hpause
      refine hconn.trans (rtspPauseUpstream_feeds ?_)
      rwa [← hcheck] at hpos
    · split
      · exact hconn
      · have houtputs := hconn.trans (queueOutputs_feeds r.outputs _)
        split
        · exact houtputs
        · split
          · exact houtputs
          · exact houtputs.trans (ih _)

/-- A read that finds the end of the stream has not paused. -/
theorem rtspHandleTcpInterleavedData_gone (rounds : List RtspRound) : ∀ s,
    (rtspHandleTcpInterleavedData rounds s).1 = true → SameFlags s (rtspHandleTcpInterleavedData rounds s).2 := by
  induction rounds with
  | nil => exact fun s h => absurd h Bool.false_ne_true
  | cons r rounds ih =>
    intro s
    unfold rtspHandleTcpInterleavedData
    dsimp only
    split
    · exact fun h => absurd h Bool.false_ne_true
    · split
      · exact fun _ => ⟨rfl, rfl, rfl, rfl, rfl, rfl⟩
      · have h := queueOutputs_sameFlags r.outputs
          { s with conn := (connectionShouldPauseUpstream s.conn r.check.pool r.check.activeStreams).2 }
        split
        · exact fun _ => ⟨h.closing, h.any, h.httpInitialized, h.httpPaused, h.rtspInitialized, h.rtspPaused⟩
        · split
          · exact fun h => absurd h Bool.false_ne_true
          · intro hgone
            have h' := ih _ hgone
            exact ⟨h'.closing.trans h.closing, h'.any.trans h.any, h'.httpInitialized.trans h.httpInitialized,
              h'.httpPaused.trans h.httpPaused, h'.rtspInitialized.trans h.rtspInitialized,
              h'.rtspPaused.trans h.rtspPaused⟩

/-- The flag of the connection stays right exactly if the session that ends was not paused, or the other one is. -/
theorem rtspForceCleanup_flagExact_iff (h : FlagExact s) (hi : s.rtsp.initialized = true) :
    FlagExact (rtspForceCleanup s) ↔
      (s.rtsp.upstreamPaused = true → (s.httpProxy.initialized && s.httpProxy.upstreamPaused) = true) := by
  unfold FlagExact Relay.upstreamPaused at h ⊢
  rw [hi, Bool.true_and] at h
  show s.anyUpstreamPaused = (s.httpProxy.initialized && s.httpProxy.upstreamPaused || false && _) ↔ _
  rw [h, Bool.false_and, Bool.or_false]
  cases s.httpProxy.initialized && s.httpProxy.upstreamPaused <;> cases s.rtsp.upstreamPaused <;> decide

theorem rtspForceCleanup_flagExact (h : FlagExact s) (hp : s.rtsp.upstreamPaused = false) :
    FlagExact (rtspForceCleanup s) := by
  unfold FlagExact Relay.upstreamPaused at h ⊢
  rw [rtspForceCleanup]
  rw [hp, Bool.and_false] at h
  exact h

/-- The connection closes with it. -/
theorem rtspForceCleanup_inv (h : RelayInv s l p) :
    RelayInv (connectionBeginDrainClose (rtspForceCleanup s)) l p ∧
      HttpAwake (connectionBeginDrainClose (rtspForceCleanup s)) l ∧
      RtspAwake (connectionBeginDrainClose (rtspForceCleanup s)) l := by
  have hclosing : ¬ (connectionBeginDrainClose (rtspForceCleanup s)).closing = false := fun hc => by cases hc
  exact ⟨⟨h.inv, fun hc => absurd hc hclosing, fun hc => absurd hc hclosing⟩, fun hc => absurd hc hclosing,
    fun hc => absurd hc hclosing⟩

/-! ### Resuming -/

/-- Whatever was paused, afterwards the proxy session is awake. -/
theorem httpProxyResumeUpstream_spec (recvs : List HttpRecv) (h : RelayInv s l p) :
    ∃ l', RelayInv (httpProxyResumeUpstream recvs s) (l ++ l') p ∧
      HttpAwake (httpProxyResumeUpstream recvs s) (l ++ l') ∧
      (RtspAwake s l → RtspAwake (httpProxyResumeUpstream recvs s) (l ++ l')) := by
  unfold httpProxyResumeUpstream
  split
  · next hnot =>
    refine ⟨[], by rwa [List.append_nil], fun _ _ hp => absurd hp hnot, fun hr => by rwa [List.append_nil]⟩
  · set s₀ := connectionRecomputeAnyUpstreamPaused { s with httpProxy.upstreamPaused := false }
    have h₀ : RelayInv s₀ l p := ⟨h.inv, h.memory, fun _ => rfl⟩
    have hfeeds : Feeds s₀ (let s := httpProxyResumeLoop recvs s₀
        if s.httpProxy.state = .complete then connectionBeginDrainClose s else s) := by
      dsimp only
      split
      · exact (httpProxyResumeLoop_feeds recvs s₀).trans (.beginDrainClose _)
      · exact httpProxyResumeLoop_feeds recvs s₀
    obtain ⟨l', h', hhttp, hrtsp⟩ := hfeeds.inv h₀
    exact ⟨l', h', hhttp fun _ _ hp => absurd hp Bool.false_ne_true, hrtsp⟩

theorem httpProxyResumeUpstream_flagExact (recvs : List HttpRecv) (h : FlagExact s) :
    FlagExact (httpProxyResumeUpstream recvs s) := by
  unfold httpProxyResumeUpstream
  split
  · exact h
  · have hloop := (httpProxyResumeLoop_feeds recvs
      (connectionRecomputeAnyUpstreamPaused { s with httpProxy.upstreamPaused := false })).exact rfl
    dsimp only
    split
    · exact hloop
    · exact hloop

theorem rtspResumeUpstream_spec (rounds : List RtspRound) (h : RelayInv s l p) (hhttp : HttpAwake s l) :
    ∃ l', RelayInv (rtspResumeUpstream rounds s) (l ++ l') p ∧
      HttpAwake (rtspResumeUpstream rounds s) (l ++ l') ∧ RtspAwake (rtspResumeUpstream rounds s) (l ++ l') := by
  unfold rtspResumeUpstream
  split
  · next hnot => exact ⟨[], by rwa [List.append_nil], by rwa [List.append_nil], fun _ _ hp => absurd hp hnot⟩
  · set s₀ := connectionRecomputeAnyUpstreamPaused { s with rtsp.upstreamPaused := false }
    have h₀ : RelayInv s₀ l p := ⟨h.inv, h.memory, fun _ => rfl⟩
    obtain ⟨l', h', hhttp', hrtsp'⟩ := (rtspHandleTcpInterleavedData_feeds rounds s₀).inv h₀
    dsimp only
    split
    · exact ⟨l', rtspForceCleanup_inv h'⟩
    · exact ⟨l', h', hhttp' hhttp, hrtsp' fun _ _ hp => absurd hp Bool.false_ne_true⟩

theorem rtspResumeUpstream_flagExact (rounds : List RtspRound) (h : FlagExact s) :
    FlagExact (rtspResumeUpstream rounds s) := by
  unfold rtspResumeUpstream
  split
  · exact h
  · set s₀ := connectionRecomputeAnyUpstreamPaused { s with rtsp.upstreamPaused := false }
    have hexact := (rtspHandleTcpInterleavedData_feeds rounds s₀).exact rfl
    dsimp only
    split
    · next hgone =>
      have hpaused := (rtspHandleTcpInterleavedData_gone rounds s₀ hgone).rtspPaused
      have hcleaned := rtspForceCleanup_flagExact hexact hpaused
      exact hcleaned
    · exact hexact

/-! ### The client -/

/-- Both sessions have something to wait for if they are paused. -/
def Awake (s : Relay) : Prop := ∃ l p, RelayInv s l p ∧ HttpAwake s l ∧ RtspAwake s l

theorem Feeds.awake (h : Feeds s s') (hs : Awake s) : Awake s' := by
  obtain ⟨l, p, hinv, hhttp, hrtsp⟩ := hs
  obtain ⟨l', h', hhttp', hrtsp'⟩ := h.inv hinv
  exact ⟨l ++ l', p, h', hhttp' hhttp, hrtsp' hrtsp⟩

/-- Afterwards both sessions are awake, whatever the queue was before. -/
theorem resumeUpstreams_awake (d : DrainInput) (h : RelayInv s l p) : Awake (resumeUpstreams d s) := by
  unfold resumeUpstreams
  have hhttp : ∃ l', RelayInv (if s.httpProxy.initialized then httpProxyResumeUpstream d.http s else s) l' p ∧
      HttpAwake (if s.httpProxy.initialized then httpProxyResumeUpstream d.http s else s) l' := by
    split
    · obtain ⟨l', h', hhttp', -⟩ := httpProxyResumeUpstream_spec d.http h
      exact ⟨_, h', hhttp'⟩
    · next hi => exact ⟨_, h, fun _ hi' => absurd hi' hi⟩
  obtain ⟨l', h', hhttp'⟩ := hhttp
  generalize (if s.httpProxy.initialized then httpProxyResumeUpstream d.http s else s) = s' at h' hhttp'
  dsimp only
  split
  · obtain ⟨l'', h'', hawake⟩ := rtspResumeUpstream_spec d.rtsp h' hhttp'
    exact ⟨_, p, h'', hawake⟩
  · next hi => exact ⟨l', p, h', hhttp', fun _ hi' => absurd hi' hi⟩

theorem resumeUpstreams_flagExact (d : DrainInput) (h : FlagExact s) : FlagExact (resumeUpstreams d s) := by
  unfold resumeUpstreams
  have hhttp : FlagExact (if s.httpProxy.initialized then httpProxyResumeUpstream d.http s else s) := by
    split
    · exact httpProxyResumeUpstream_flagExact d.http h
    · exact h
  generalize (if s.httpProxy.initialized then httpProxyResumeUpstream d.http s else s) = s' at hhttp
  dsimp only
  split
  · exact rtspResumeUpstream_flagExact d.rtsp hhttp
  · exact hhttp

theorem streamOnClientDrain_awake (d : DrainInput) (h : RelayInv s l p) : Awake (streamOnClientDrain d s) := by
  unfold streamOnClientDrain
  split
  · next hany =>
    -- no session is paused
    have hflags : s.closing = false → ¬ s.upstreamPaused = true := fun hc => (h.flag hc) ▸ hany
    unfold Relay.upstreamPaused at hflags
    refine ⟨l, p, h, fun hc hi hp => absurd ?_ (hflags hc), fun hc hi hp => absurd ?_ (hflags hc)⟩
    · rw [hi, hp]
      rfl
    · rw [hi, hp]
      exact Bool.or_true _
  · have hzc := connectionCanResumeUpstream_zc s.conn d.view.pool d.view.activeStreams
    obtain ⟨l₀, h, -⟩ := (feeds_conn hzc).inv h
    dsimp only
    split
    · next hfull =>
      have hpos := connectionCanResumeUpstream_pos hfull
      rw [← hzc] at hpos
      have hne := h.inv.ne_nil hpos
      exact ⟨_, p, h, fun _ _ _ => hne, fun _ _ _ => hne⟩
    · exact resumeUpstreams_awake d h

theorem streamOnClientDrain_flagExact (d : DrainInput) (h : FlagExact s) : FlagExact (streamOnClientDrain d s) := by
  unfold streamOnClientDrain
  split
  · exact h
  · dsimp only
    split
    · exact h
    · exact resumeUpstreams_flagExact d h

theorem notifyDrain_awake (d : DrainInput) {totalSent : Nat} (h : RelayInv s l p)
    (hawake : totalSent = 0 → HttpAwake s l ∧ RtspAwake s l) : Awake (notifyDrain d totalSent s) := by
  unfold notifyDrain
  split
  · exact streamOnClientDrain_awake d h
  · next hzero => exact ⟨l, p, h, hawake (Nat.eq_zero_of_not_pos hzero)⟩

theorem notifyDrain_flagExact (d : DrainInput) (totalSent : Nat) (h : FlagExact s) :
    FlagExact (notifyDrain d totalSent s) := by
  unfold notifyDrain
  split
  · exact streamOnClientDrain_flagExact d h
  · exact h

/-- A connection that is closing waits for nothing. -/
theorem awake_of_closing (h : ZcInv s.conn.zc l p) (hclosing : s.closing = true) : Awake s := by
  have hnot : ¬ s.closing = false := by
    rw [hclosing]
    exact Bool.noConfusion
  exact ⟨l, p, ⟨h, fun hc => absurd hc hnot, fun hc => absurd hc hnot⟩, fun hc => absurd hc hnot, fun hc => absurd hc hnot⟩

/-- As long as nothing was sent the sessions have something to wait for. Every exit of the loop after a send notifies
them, unless the connection closes. -/
theorem writeLoop_awake (zerocopyOnSend : Bool) (d : DrainInput) (kernels : List SendResult) :
    ∀ {totalSent : Nat} {s : Relay} {l p : List Nat}, RelayInv s l p →
      (totalSent = 0 → HttpAwake s l ∧ RtspAwake s l) → Awake (writeLoop zerocopyOnSend d kernels totalSent s) := by
  induction kernels with
  | nil => exact fun h hawake => notifyDrain_awake d h hawake
  | cons kernel kernels ih =>
    intro totalSent s l p h hawake
    obtain ⟨l', p', hinv, hsub, hsent⟩ := zerocopySend_spec zerocopyOnSend h.inv kernel
    have htype := zerocopySend_type zerocopyOnSend (kernel.clip s.conn.zc) s.conn.zc
    unfold writeLoop
    generalize zerocopySend zerocopyOnSend (kernel.clip s.conn.zc) s.conn.zc = sent at hinv hsent htype
    obtain ⟨ret, bytesSent, zc⟩ := sent
    dsimp only at hinv hsent htype ⊢
    have h' : RelayInv (s.modifyZc fun _ => zc) l' p' :=
      ⟨hinv, fun hc r hr => (htype r).trans (h.memory hc r (hsub hr)), h.flag⟩
    have hawake' : totalSent + bytesSent = 0 →
        HttpAwake (s.modifyZc fun _ => zc) l' ∧ RtspAwake (s.modifyZc fun _ => zc) l' := by
      intro hzero
      obtain ⟨hhttp, hrtsp⟩ := hawake (by omega)
      have heq : s.closing = false → l' = l := fun hc => (hsent (h.memory hc)).resolve_right (by omega)
      exact ⟨fun hc hi hp => heq hc ▸ hhttp hc hi hp, fun hc hi hp => heq hc ▸ hrtsp hc hi hp⟩
    split
    · exact @awake_of_closing { s.modifyZc fun _ => zc with closing := true } _ _ hinv rfl
    split
    · exact notifyDrain_awake d h' hawake'
    split
    · split
      · next hclosing => exact awake_of_closing h'.inv hclosing.1
      · exact notifyDrain_awake d h' hawake'
    split
    · exact notifyDrain_awake d h' hawake'
    · exact ih h' hawake'

theorem writeLoop_flagExact (zerocopyOnSend : Bool) (d : DrainInput) (kernels : List SendResult) :
    ∀ {totalSent : Nat} {s : Relay}, FlagExact s → FlagExact (writeLoop zerocopyOnSend d kernels totalSent s) := by
  induction kernels with
  | nil => exact fun h => notifyDrain_flagExact d _ h
  | cons kernel kernels ih =>
    intro totalSent s h
    unfold writeLoop
    dsimp only
    split
    · exact h
    split
    · exact notifyDrain_flagExact d _ h
    split
    · split
      · exact h
      · exact notifyDrain_flagExact d _ h
    split
    · exact notifyDrain_flagExact d _ h
    · exact ih h

/-! ### Runs -/

/-- The step does not end an RTSP session that is paused, unless the proxy session is paused too. -/
def Relay.KeepsFlag (s : Relay) : RelayEvent → Prop
  | .rtspReadable rounds => s.rtsp.initialized = true → (rtspHandleTcpInterleavedData rounds s).1 = true →
      s.rtsp.upstreamPaused = true → (s.httpProxy.initialized && s.httpProxy.upstreamPaused) = true
  | .rtspEnd => s.rtsp.initialized = true → s.rtsp.upstreamPaused = true →
      (s.httpProxy.initialized && s.httpProxy.upstreamPaused) = true
  | _ => True

theorem rtspReadable_awake (rounds : List RtspRound) (hs : Awake s) : Awake (rtspReadable rounds s) := by
  have hread := (rtspHandleTcpInterleavedData_feeds rounds s).awake hs
  unfold rtspReadable
  dsimp only
  split
  · obtain ⟨l, p, h, -⟩ := hread
    exact ⟨l, p, rtspForceCleanup_inv h⟩
  · exact hread

theorem rtspReadable_flagExact_iff (rounds : List RtspRound) (h : FlagExact s) (hi : s.rtsp.initialized = true) :
    FlagExact (rtspReadable rounds s) ↔ s.KeepsFlag (.rtspReadable rounds) := by
  unfold rtspReadable Relay.KeepsFlag
  dsimp only
  split
  · next hgone =>
    have hsame := rtspHandleTcpInterleavedData_gone rounds s hgone
    have hiff := rtspForceCleanup_flagExact_iff (hsame.flagExact h) (hsame.rtspInitialized.trans hi)
    rw [hsame.httpInitialized, hsame.httpPaused, hsame.rtspPaused] at hiff
    exact hiff.trans ⟨fun hk _ _ => hk, fun hk => hk hi hgone⟩
  · next hgone => exact iff_of_true ((rtspHandleTcpInterleavedData_feeds rounds s).exact h) fun _ hg => absurd hg hgone

variable {zerocopyOnSend : Bool}

/-- Every event leaves the sessions awake. -/
theorem Awake.step (hs : Awake s) (event : RelayEvent) : Awake (s.step zerocopyOnSend event) := by
  cases event with
  | httpReadable recvs =>
    rw [Relay.step]
    split
    · exact (httpProxyReadable_feeds recvs s).awake hs
    · exact hs
  | httpEnd failed =>
    rw [Relay.step]
    split
    · have hstate := @feeds_httpProxy s { s.httpProxy with state := if failed then .error else .complete } rfl rfl
      exact (hstate.trans (.beginDrainClose _)).awake hs
    · exact hs
  | rtspReadable rounds =>
    rw [Relay.step]
    split
    · exact rtspReadable_awake rounds hs
    · exact hs
  | rtspEnd =>
    rw [Relay.step]
    split
    · obtain ⟨l, p, h, -⟩ := hs
      exact ⟨l, p, rtspForceCleanup_inv h⟩
    · exact hs
  | queue o => exact (queueOutput_feeds o s).awake hs
  | queueFile source fileFd file fileOffset fileSize =>
    obtain ⟨l, p, h, hawake⟩ := hs
    rw [Relay.step]
    rcases zerocopyQueueAddFile_cases h.inv (fun ref hr => source.not_mem h.inv hr) fileFd file fileOffset fileSize with
      ⟨hzc, hret⟩ | ⟨hret, ref, -, happ⟩
    · dsimp only
      rw [hzc]
      split
      · exact ⟨l, p, h, hawake⟩
      · exact @awake_of_closing { s with closing := true } _ _ h.inv rfl
    · dsimp only
      rw [if_neg (by rw [hret]; decide)]
      exact @awake_of_closing { s.modifyZc fun _ => _ with closing := true } _ _ happ.inv rfl
  | clientWrite kernels d =>
    rw [Relay.step, connectionHandleWrite]
    split
    · exact hs
    · obtain ⟨l, p, h, hawake⟩ := hs
      exact writeLoop_awake zerocopyOnSend d kernels h fun _ => hawake
  | clientDrain d =>
    obtain ⟨l, p, h, -⟩ := hs
    exact streamOnClientDrain_awake d h
  | completions ranges failed =>
    obtain ⟨l, p, h, hawake⟩ := hs
    obtain ⟨p', hinv, hcore⟩ : ∃ p', ZcInv (zerocopyHandleCompletions zerocopyOnSend ranges failed s.conn.zc).2 l p' ∧
        ∀ r, ((zerocopyHandleCompletions zerocopyOnSend ranges failed s.conn.zc).2.heap r).core =
          (s.conn.zc.heap r).core := by
      unfold zerocopyHandleCompletions
      split
      · exact ⟨p, h.inv, fun _ => rfl⟩
      · exact completeRanges_spec ranges h.inv
    exact ⟨l, p', ⟨hinv, fun hc => (h.memory hc).congr fun r _ => hcore r, h.flag⟩, hawake⟩
  | touch source buffer freeList =>
    obtain ⟨l, p, h, hawake⟩ := hs
    rw [Relay.step]
    split
    · exact ⟨l, p, h, hawake⟩
    · next ref halloc =>
      have href := source.not_mem h.inv halloc
      have hinv := h.inv.modify href fun _ => buffer
      refine ⟨l, p, ⟨⟨hinv.send, hinv.pending, hinv.nodup, hinv.numQueued, hinv.numPending, hinv.totalBytes, hinv.pos⟩,
        fun hc r hr => ?_, h.flag⟩, hawake⟩
      have hne := ne_of_mem_of_not_mem (List.mem_append_left p hr) href
      exact (congrArg SendBuffer.type (modify_heap_of_ne s.conn.zc (fun _ => buffer) hne)).trans (h.memory hc r hr)

/-- The flag of the connection stays right exactly under the condition. -/
theorem step_flagExact_iff (h : FlagExact s) (event : RelayEvent) :
    s.KeepsFlag event ↔ FlagExact (s.step zerocopyOnSend event) := by
  cases event with
  | httpReadable recvs =>
    refine iff_of_true trivial ?_
    rw [Relay.step]
    split
    · exact (httpProxyReadable_feeds recvs s).exact h
    · exact h
  | httpEnd failed =>
    refine iff_of_true trivial ?_
    rw [Relay.step]
    split <;> exact h
  | rtspReadable rounds =>
    rw [Relay.step]
    split
    · next hi => exact (rtspReadable_flagExact_iff rounds h hi).symm
    · next hi => exact iff_of_true (fun hi' => absurd hi' hi) h
  | rtspEnd =>
    rw [Relay.step]
    split
    · next hi => exact ⟨fun hk => (rtspForceCleanup_flagExact_iff h hi).2 (hk hi),
        fun hf _ => (rtspForceCleanup_flagExact_iff h hi).1 hf⟩
    · next hi => exact iff_of_true (fun hi' => absurd hi' hi) h
  | queue o => exact iff_of_true trivial ((queueOutput_feeds o s).exact h)
  | queueFile source fileFd file fileOffset fileSize =>
    refine iff_of_true trivial ?_
    rw [Relay.step]
    dsimp only
    split <;> exact h
  | clientWrite kernels d =>
    refine iff_of_true trivial ?_
    rw [Relay.step, connectionHandleWrite]
    split
    · exact h
    · exact writeLoop_flagExact zerocopyOnSend d kernels h
  | clientDrain d => exact iff_of_true trivial (streamOnClientDrain_flagExact d h)
  | completions ranges failed => exact iff_of_true trivial h
  | touch source buffer freeList =>
    refine iff_of_true trivial ?_
    rw [Relay.step]
    split <;> exact h

/-- The flag of the connection is right, and while it is set and the connection is not closing, the client has
something to take. -/
def Wakes (s : Relay) : Prop :=
  FlagExact s ∧ (s.anyUpstreamPaused = true → s.closing = false → s.conn.zc.queue.head ≠ none)

theorem Awake.wakes (h : Awake s) (hflag : FlagExact s) : Wakes s := by
  obtain ⟨l, p, hinv, hhttp, hrtsp⟩ := h
  refine ⟨hflag, fun hany hc => ?_⟩
  have hpaused : s.upstreamPaused = true := hflag ▸ hany
  have hne : l ≠ [] := by
    rcases Bool.or_eq_true_iff.1 hpaused with h | h
    · exact hhttp hc (Bool.and_eq_true_iff.1 h).1 (Bool.and_eq_true_iff.1 h).2
    · exact hrtsp hc (Bool.and_eq_true_iff.1 h).1 (Bool.and_eq_true_iff.1 h).2
  rw [hinv.inv.send.head_eq]
  exact fun hnone => hne (List.head?_eq_none_iff.1 hnone)

/-- A connection with nothing queued, and its sessions before anything was paused. -/
def Relay.start (heap : Nat → SendBuffer) (freeList : Option Nat) (httpProxy : HttpProxySession) (rtsp : RtspSession) :
    Relay where
  conn := {
    zc := .init heap freeList, queueLimitBytes := 0, queueBytesHighwater := 0, queueBuffersHighwater := 0
    droppedPackets := 0, droppedBytes := 0, queueAvgBytes := 0, slowActive := false, slowCandidateSince := 0 }
  closing := false
  anyUpstreamPaused := false
  backpressureEvents := 0
  httpProxy := { httpProxy with upstreamPaused := false }
  rtsp := { rtsp with upstreamPaused := false }

section Start

variable (zerocopyOnSend) (heap : Nat → SendBuffer) (freeList : Option Nat) (httpProxy : HttpProxySession)
  (rtsp : RtspSession)

theorem start_flagExact : FlagExact (.start heap freeList httpProxy rtsp) := by
  unfold FlagExact Relay.upstreamPaused Relay.start
  dsimp only
  rw [Bool.and_false, Bool.and_false]
  rfl

theorem start_awake : Awake (.start heap freeList httpProxy rtsp) :=
  ⟨[], [], ⟨zcInv_init heap freeList, fun _ _ hr => absurd hr List.not_mem_nil,
    fun _ => start_flagExact heap freeList httpProxy rtsp⟩, fun _ _ hp => absurd hp Bool.false_ne_true,
    fun _ _ hp => absurd hp Bool.false_ne_true⟩

/-- In every run the states after the steps are all as they should be exactly if no step ends a paused RTSP session;
and until the connection is closing they are so in any case. -/
theorem relay_wakes (events : List RelayEvent) :
    (Run.Meets (Relay.step zerocopyOnSend) Relay.KeepsFlag (.start heap freeList httpProxy rtsp) events ↔
      Run.Meets (Relay.step zerocopyOnSend) (fun s event => Wakes (s.step zerocopyOnSend event))
        (.start heap freeList httpProxy rtsp) events) ∧
    Wakes (.start heap freeList httpProxy rtsp) ∧
    ((events.foldl (Relay.step zerocopyOnSend) (.start heap freeList httpProxy rtsp)).closing = false →
      Wakes (events.foldl (Relay.step zerocopyOnSend) (.start heap freeList httpProxy rtsp))) := by
  have hstart := start_awake heap freeList httpProxy rtsp
  have hwakes := hstart.wakes (start_flagExact heap freeList httpProxy rtsp)
  refine ⟨Run.Meets.iff (I := Awake) (P := Wakes) (fun s event _ hs _ => hs.step event) (fun s event _ hs hw => ?_)
    (Run.meets_true (fun _ _ => trivial) _ _) hstart hwakes, hwakes, fun hc => ?_⟩
  · exact (step_flagExact_iff hw.1 event).trans ⟨fun hf => (hs.step event).wakes hf, fun hw => hw.1⟩
  · have hawake := @Run.invariant _ _ (Relay.step zerocopyOnSend) _ (fun _ s => Awake s)
      (fun _ _ event hs => hs.step event) [] hstart events
    have hflag : FlagExact (events.foldl (Relay.step zerocopyOnSend) (.start heap freeList httpProxy rtsp)) := by
      obtain ⟨l, p, h, -⟩ := hawake
      exact h.flag hc
    exact hawake.wakes hflag

end Start

/-- Buffers are handed out in the order of their numbers, each above all that are in use. -/
def nextNumber : BufferSource where
  alloc st := some ((st.sendList ++ st.pendingList).sum + 1)
  fresh st ref h hmem := by
    obtain rfl := Option.some.inj h
    exact Nat.not_succ_le_self _ (List.single_le_sum (fun _ _ => Nat.zero_le _) _ hmem)

/-- A pool that is nearly used up. -/
def drainedPool : PoolView where
  pool := {
    segments := [], freeList := [], refcount := fun _ => 0, bufferSize := 1536, numBuffers := 1024, numFree := 100
    maxBuffers := 16384, expandSize := 512, lowWatermark := 256, highWatermark := 3072 }
  activeStreams := 16
  nowMs := 1

def fullOutput : Output where
  source := nextNumber
  buffer := {
    type := .memory, data := fun _ => 0, dataOffset := 0, dataSize := 1316, iovBase := 0, iovLen := 0
    fileFd := -1, file := fun _ => 0, fileOffset := 0, fileSize := 0, fileSent := 0
    refcount := 1, sendNext := none, zerocopyId := 0 }
  held := 0
  view := drainedPool

/-- An RTSP session pauses behind 48 buffers. When the server then closes the connection, the session is no longer
attached, and the flag is still set. -/
theorem relay_staleFlag :
    let idle : HttpProxySession := ⟨false, .init, -1, 0, false⟩
    let events : List RelayEvent :=
      [.rtspReadable [⟨drainedPool, .filled, List.replicate 48 fullOutput, false, false⟩,
        ⟨drainedPool, .drained, [], false, false⟩], .rtspEnd]
    let s := events.foldl (Relay.step false) (.start (fun _ => fullOutput.buffer) none idle ⟨true, .tcp, false⟩)
    s.anyUpstreamPaused = true ∧ s.upstreamPaused = false := by
  decide +kernel

end Rtp2httpd
