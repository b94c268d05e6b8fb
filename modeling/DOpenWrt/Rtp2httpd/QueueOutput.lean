import DOpenWrt.Rtp2httpd.QueueBackpressure
import DOpenWrt.Rtp2httpd.ZerocopyStream

/-!
# Queueing a response

`connection_queue_output` splits its data over buffers of the pool and queues them one at a time. When a buffer cannot
be had or does not fit the limit, those before it stay in the queue.
-/

namespace Rtp2httpd

/-- What a round of the loop finds: the buffer from the pool, absent when there is none, the free list without it, the
pool and the number of streams the limit is computed from, and the time. -/
structure OutputRound where
  alloc : Option Nat
  freeList : Option Nat
  pool : BufferPool
  activeStreams : Nat
  nowMs : Int

/-- The fields `buffer_pool_alloc_from` sets in a buffer. -/
def allocOutputBuffer (ref : Nat) (freeList : Option Nat) (st : ZcState) : ZcState :=
  { st.modify ref fun b => { b with refcount := 1, dataOffset := 0, dataSize := 0, sendNext := none } with freeList }

/-- `memcpy` to the start of a buffer. -/
def fillBuffer (chunk : List UInt8) (b : SendBuffer) : SendBuffer :=
  { b with data := fun i => chunk[i]?.getD (b.data i), dataSize := chunk.length }

/-- One round of the loop. -/
def queueOutputChunk (round : OutputRound) (c : Connection) (chunk : List UInt8) : Int × Connection :=
  match round.alloc with
  | none => (-1, c)
  | some ref =>
    let zc := (allocOutputBuffer ref round.freeList c.zc).modify ref (fillBuffer chunk)
    let (ret, c) := connectionQueueZerocopy round.pool round.activeStreams round.nowMs { c with zc } ref
    (if ret < 0 then -1 else 0, { c with zc := c.zc.bufferRefPut ref })

/-- The loop. Every round takes a byte at least, so that the length of the data bounds them. -/
def queueOutputLoop : Nat → (Nat → OutputRound) → Connection → List UInt8 → Int × Connection
  | 0, _, c, _ => (0, c)
  | fuel + 1, rounds, c, src =>
    if src = [] then (0, c)
    else
      let (ret, c) := queueOutputChunk (rounds 0) c (src.take bufferPoolBufferSize)
      if ret < 0 then (-1, c) else queueOutputLoop fuel (fun i => rounds (i + 1)) c (src.drop bufferPoolBufferSize)

def connectionQueueOutput (rounds : Nat → OutputRound) (c : Connection) (data : List UInt8) : Int × Connection :=
  queueOutputLoop data.length rounds c data

variable {st st' : ZcState} {c : Connection} {l p : List Nat} {ref : Nat} {chunk data : List UInt8} {round : OutputRound}

/-! ### One buffer -/

theorem refcount_appendTail (st : ZcState) (ref r : Nat) : ((appendTail st ref).heap r).refcount = (st.heap r).refcount := by
  unfold appendTail
  split
  · next tail _ =>
    by_cases h : r = tail
    · subst h
      simp [ZcState.modify]
    · simp [ZcState.modify, h]
  · rfl

theorem zerocopyQueueAdd_refcount (hadd : (zerocopyQueueAdd st ref).2 ≠ st) (r : Nat) :
    ((zerocopyQueueAdd st ref).2.heap r).refcount = if r = ref then (st.heap ref).refcount + 1 else (st.heap r).refcount := by
  unfold zerocopyQueueAdd at hadd ⊢
  dsimp only at hadd ⊢
  split at hadd
  · exact absurd rfl hadd
  · next hsize =>
    split at hadd
    · exact absurd rfl hadd
    · next hfits =>
      rw [if_neg hsize, if_neg hfits]
      refine (refcount_appendTail _ _ _).trans ?_
      split
      · next h =>
        rw [h, ZcState.bufferRefGet, modify_heap_self, modify_heap_self]
      · next h =>
        rw [ZcState.bufferRefGet, modify_heap_of_ne _ _ h, modify_heap_of_ne _ _ h]

theorem memoryAt_fill (mem : Nat → UInt8) (chunk : List UInt8) :
    memoryAt (fun i => chunk[i]?.getD (mem i)) 0 chunk.length = chunk := by
  refine List.ext_getElem (length_memoryAt ..) fun i hi hi' => ?_
  simp only [memoryAt, List.getElem_map, List.getElem_range, Nat.zero_add, List.getElem?_eq_getElem hi',
    Option.getD_some]

theorem bufferRefPut_refcount (st : ZcState) (ref : Nat) :
    ((st.bufferRefPut ref).heap ref).refcount = (st.heap ref).refcount - 1 := by
  unfold ZcState.bufferRefPut
  dsimp only
  split <;> simp [ZcState.modify]

/-- A reference that is not the last one is given back. -/
theorem bufferRefPut_next (h : 1 < (st.heap ref).refcount) : (st.bufferRefPut ref).next = st.next := by
  have hheld : ¬ ((st.modify ref fun b => { b with refcount := b.refcount - 1 }).heap ref).refcount ≤ 0 := by
    rw [modify_heap_self]
    dsimp only
    omega
  funext r
  unfold ZcState.bufferRefPut
  dsimp only
  split
  · next hfree => exact absurd hfree.1 hheld
  · by_cases hr : r = ref
    · subst hr
      simp [ZcState.next, ZcState.modify]
    · simp [ZcState.next, ZcState.modify, hr]

/-- What is left of a buffer from the pool that was filled and could not be queued. -/
structure ChunkRefused (st : ZcState) (l p : List Nat) (ref : Nat) (st' : ZcState) : Prop where
  inv : ZcInv st' l p
  heap : ∀ r ≠ ref, st'.heap r = st.heap r
  refcount : (st'.heap ref).refcount = 0
  wire : st'.wire = st.wire

/-- A buffer that was filled and queued: the queue alone holds it. -/
structure ChunkQueued (st : ZcState) (l p : List Nat) (ref : Nat) (chunk : List UInt8) (st' : ZcState) : Prop where
  inv : ZcInv st' (l ++ [ref]) p
  bytes : (st'.heap ref).unsent = chunk
  core : ∀ r ≠ ref, (st'.heap r).core = (st.heap r).core
  refcount : ∀ r, (st'.heap r).refcount = if r = ref then 1 else (st.heap r).refcount
  wire : st'.wire = st.wire

def filledBuffer (ref : Nat) (freeList : Option Nat) (chunk : List UInt8) (st : ZcState) : ZcState :=
  (allocOutputBuffer ref freeList st).modify ref (fillBuffer chunk)

section Filled

variable (freeList : Option Nat)

theorem filledBuffer_self : (filledBuffer ref freeList chunk st).heap ref =
    fillBuffer chunk { st.heap ref with refcount := 1, dataOffset := 0, dataSize := 0, sendNext := none } := by
  simp [filledBuffer, allocOutputBuffer, ZcState.modify]

theorem filledBuffer_of_ne {r : Nat} (h : r ≠ ref) : (filledBuffer ref freeList chunk st).heap r = st.heap r := by
  simp [filledBuffer, allocOutputBuffer, ZcState.modify, h]

theorem filledBuffer_inv (h : ZcInv st l p) (href : ref ∉ l ++ p) : ZcInv (filledBuffer ref freeList chunk st) l p := by
  refine h.congr rfl (fun r hr => ?_) fun r hr => ?_
  · rw [ZcState.next, filledBuffer_of_ne _ (ne_of_mem_of_not_mem hr href), ZcState.next]
  · rw [filledBuffer_of_ne _ (ne_of_mem_of_not_mem (List.mem_append_left p hr) href)]

theorem refused (h : ZcInv st l p) (href : ref ∉ l ++ p) :
    ChunkRefused st l p ref ((filledBuffer ref freeList chunk st).bufferRefPut ref) where
  inv := (filledBuffer_inv freeList h href).bufferRefPut href
  heap r hr := by rw [bufferRefPut_heap_of_ne _ hr, filledBuffer_of_ne _ hr]
  refcount := by
    rw [bufferRefPut_refcount, filledBuffer_self]
    rfl
  wire := bufferRefPut_wire _ _

end Filled

/-- The queue keeps the buffer when the loop gives its own reference back. -/
theorem queued (freeList : Option Nat) (h : ZcInv st l p) (href : ref ∉ l ++ p) (hchunk : chunk ≠ [])
    (hsize : chunk.length ≤ bufferPoolBufferSize) :
    (zerocopyQueueAdd (filledBuffer ref freeList chunk st) ref).1 = 0 ∧ ChunkQueued st l p ref chunk
      ((zerocopyQueueAdd (filledBuffer ref freeList chunk st) ref).2.bufferRefPut ref) := by
  have hself := @filledBuffer_self st ref chunk freeList
  have hinv := @filledBuffer_inv st l p ref chunk freeList h href
  have hdata : ((filledBuffer ref freeList chunk st).heap ref).dataSize = chunk.length := by
    rw [hself]
    rfl
  have hoffset : ((filledBuffer ref freeList chunk st).heap ref).dataOffset = 0 := by
    rw [hself]
    rfl
  have hret : (zerocopyQueueAdd (filledBuffer ref freeList chunk st) ref).1 = 0 := by
    unfold zerocopyQueueAdd
    dsimp only
    rw [hdata, hoffset, if_neg (mt List.length_eq_zero_iff.1 hchunk), if_neg]
    rw [not_or]
    exact ⟨Nat.not_lt_zero _, Nat.not_lt_of_le hsize⟩
  rcases zerocopyQueueAdd_cases hinv href with ⟨-, hempty⟩ | ⟨-, happ⟩
  · rw [hdata] at hempty
    exact absurd (List.length_eq_zero_iff.1 (hempty hret)) hchunk
  · have hmem : ∀ r : Nat, (((zerocopyQueueAdd (filledBuffer ref freeList chunk st) ref).2).heap r).refcount =
        if r = ref then 2 else (st.heap r).refcount := by
      intro r
      have hne : (zerocopyQueueAdd (filledBuffer ref freeList chunk st) ref).2 ≠ filledBuffer ref freeList chunk st := by
        intro heq
        have hnum := happ.inv.numQueued
        rw [heq, hinv.numQueued, List.length_append] at hnum
        exact absurd hnum (Nat.ne_of_lt (Nat.lt_succ_self _))
      rw [zerocopyQueueAdd_refcount hne, hself]
      split
      · rfl
      · next hr => rw [filledBuffer_of_ne _ hr]
    have hheld : 1 < (((zerocopyQueueAdd (filledBuffer ref freeList chunk st) ref).2).heap ref).refcount := by
      rw [hmem, if_pos rfl]
      decide
    have hcore := bufferRefPut_core (zerocopyQueueAdd (filledBuffer ref freeList chunk st) ref).2 ref
    refine ⟨hret, ?_, ?_, fun r hr => ?_, fun r => ?_, ?_⟩
    · refine happ.inv.congr (bufferRefPut_queue ..) (fun r _ => ?_) fun r _ => SendBuffer.payload_eq (hcore r)
      rw [bufferRefPut_next hheld]
    · rw [SendBuffer.unsent_eq (SendBuffer.payload_eq (hcore ref)), happ.bytes, hself]
      exact memoryAt_fill _ _
    · rw [hcore r, happ.core r hr, filledBuffer_of_ne _ hr]
    · by_cases hr : r = ref
      · rw [hr, bufferRefPut_refcount, hmem, if_pos rfl, if_pos rfl]
        rfl
      · rw [bufferRefPut_heap_of_ne _ hr, hmem, if_neg hr, if_neg hr]
    · rw [bufferRefPut_wire, happ.wire]
      rfl

theorem connectionQueueZerocopy_ret {pool : BufferPool} {active : Nat} {now : Int} :
    (connectionQueueZerocopy pool active now c ref).1 = -1 ∧
        (connectionQueueZerocopy pool active now c ref).2.zc = c.zc ∨
      (connectionQueueZerocopy pool active now c ref).1 = (zerocopyQueueAdd c.zc ref).1 ∧
        (connectionQueueZerocopy pool active now c ref).2.zc = (zerocopyQueueAdd c.zc ref).2 ∨
      (zerocopyQueueAdd c.zc ref).1 ≠ 0 ∨ (c.zc.heap ref).dataSize = 0 := by
  obtain ⟨hzc, -⟩ := @connectionUpdateQueueLimit_frame c pool active now
  by_cases hret : (zerocopyQueueAdd c.zc ref).1 = 0
  · by_cases hempty : (c.zc.heap ref).dataSize = 0
    · exact .inr (.inr (.inr hempty))
    · unfold connectionQueueZerocopy
      simp only [hzc]
      rw [if_neg hempty]
      split
      · exact .inl ⟨rfl, rfl⟩
      · rw [hret, if_neg (by decide)]
        exact .inr (.inl ⟨rfl, rfl⟩)
  · exact .inr (.inr (.inl hret))

/-- One round: without a buffer nothing changes, and one that is filled is queued or given back. -/
theorem queueOutputChunk_cases (h : ZcInv c.zc l p) (hround : ∀ ref ∈ round.alloc, ref ∉ l ++ p) (hchunk : chunk ≠ [])
    (hsize : chunk.length ≤ bufferPoolBufferSize) :
    (queueOutputChunk round c chunk).1 = -1 ∧ (round.alloc = none ∧ queueOutputChunk round c chunk = (-1, c) ∨
        ∃ ref, round.alloc = some ref ∧ ChunkRefused c.zc l p ref (queueOutputChunk round c chunk).2.zc) ∨
      (queueOutputChunk round c chunk).1 = 0 ∧ ∃ ref, round.alloc = some ref ∧
        ChunkQueued c.zc l p ref chunk (queueOutputChunk round c chunk).2.zc := by
  unfold queueOutputChunk
  cases halloc : round.alloc with
  | none => exact .inl ⟨rfl, .inl ⟨rfl, rfl⟩⟩
  | some ref =>
    have href := hround ref (halloc ▸ rfl)
    obtain ⟨hret, hqueued⟩ := queued round.freeList h href hchunk hsize
    dsimp only
    have hfilled : (allocOutputBuffer ref round.freeList c.zc).modify ref (fillBuffer chunk) =
      filledBuffer ref round.freeList chunk c.zc := rfl
    rw [hfilled]
    rcases @connectionQueueZerocopy_ret { c with zc := filledBuffer ref round.freeList chunk c.zc } ref round.pool
      round.activeStreams round.nowMs with ⟨hfail, hzc⟩ | ⟨hadd, hzc⟩ | hne | hempty
    · refine .inl ⟨by rw [hfail]; rfl, .inr ⟨ref, rfl, ?_⟩⟩
      rw [hzc]
      exact refused round.freeList h href
    · refine .inr ⟨by rw [hadd, hret]; rfl, ref, rfl, ?_⟩
      rw [hzc]
      exact hqueued
    · exact absurd hret hne
    · refine absurd ?_ hchunk
      have : ((filledBuffer ref round.freeList chunk c.zc).heap ref).dataSize = chunk.length := by
        rw [filledBuffer_self]
        rfl
      exact List.length_eq_zero_iff.1 (this.symm.trans hempty)

/-! ### The loop -/

/-- The pool hands out buffers that are in neither queue, and none of them twice. -/
def HandsOut (rounds : Nat → OutputRound) (l p : List Nat) : Prop :=
  ∀ i, ∀ ref ∈ (rounds i).alloc, ref ∉ l ++ p ∧ ∀ j < i, (rounds j).alloc ≠ some ref

/-- What becomes of the queue `l`: the buffers `refs` with the bytes `done` follow it, each held by the queue alone. Of
the first `n` rounds every buffer that is not among them was released, and no other buffer was touched. -/
structure OutputQueued (rounds : Nat → OutputRound) (st : ZcState) (l p : List Nat) (n : Nat) (refs : List Nat)
    (done : List UInt8) (st' : ZcState) : Prop where
  inv : ZcInv st' (l ++ refs) p
  bytes : unsentOf st'.heap (l ++ refs) = unsentOf st.heap l ++ done
  wire : st'.wire = st.wire
  held : ∀ r ∈ refs, (st'.heap r).refcount = 1
  released : ∀ i < n, ∀ ref ∈ (rounds i).alloc, ref ∈ refs ∨ (st'.heap ref).refcount = 0
  other : ∀ r, (∀ i < n, (rounds i).alloc ≠ some r) →
    (st'.heap r).core = (st.heap r).core ∧ (st'.heap r).refcount = (st.heap r).refcount

variable {rounds : Nat → OutputRound} {refs : List Nat} {done : List UInt8} {n : Nat}

theorem OutputQueued.nothing (h : ZcInv st l p) (hn : ∀ i < n, (rounds i).alloc = none) :
    OutputQueued rounds st l p n [] [] st where
  inv := by rwa [List.append_nil]
  bytes := by rw [List.append_nil, List.append_nil]
  wire := rfl
  held _ hr := absurd hr List.not_mem_nil
  released i hi ref href := by
    rw [hn i hi] at href
    cases href
  other _ _ := ⟨rfl, rfl⟩

theorem OutputQueued.refused (h : ChunkRefused st l p ref st') (hl : ref ∉ l) (halloc : (rounds 0).alloc = some ref) :
    OutputQueued rounds st l p 1 [] [] st' where
  inv := by
    rw [List.append_nil]
    exact h.inv
  bytes := by
    rw [List.append_nil, List.append_nil]
    exact unsentOf_congr fun r hr => by rw [h.heap r (ne_of_mem_of_not_mem hr hl)]
  wire := h.wire
  held _ hr := absurd hr List.not_mem_nil
  released i hi r hr := by
    rw [Nat.lt_one_iff.1 hi, halloc] at hr
    cases hr
    exact .inr h.refcount
  other r hr := by
    have hne : r ≠ ref := fun heq => hr 0 Nat.one_pos (heq ▸ halloc)
    rw [h.heap r hne]
    exact ⟨rfl, rfl⟩

/-- A buffer that was queued, before those of the rounds after it. -/
theorem OutputQueued.cons {st₁ : ZcState} (h : ChunkQueued st l p ref chunk st₁) (hl : ref ∉ l)
    (halloc : (rounds 0).alloc = some ref) (hlater : ∀ i, (rounds (i + 1)).alloc ≠ some ref)
    (hrest : OutputQueued (fun i => rounds (i + 1)) st₁ (l ++ [ref]) p n refs done st') :
    OutputQueued rounds st l p (n + 1) (ref :: refs) (chunk ++ done) st' where
  inv := by
    have := hrest.inv
    rwa [List.append_assoc] at this
  bytes := by
    have hold : unsentOf st₁.heap l = unsentOf st.heap l := unsentOf_congr fun r hr =>
      SendBuffer.payload_eq (h.core r (ne_of_mem_of_not_mem hr hl))
    have hnew : unsentOf st₁.heap (l ++ [ref]) = unsentOf st.heap l ++ chunk := by
      rw [← hold, ← h.bytes, unsentOf, List.flatMap_append]
      exact congrArg (_ ++ ·) (List.append_nil _)
    have := hrest.bytes
    rw [List.append_assoc, hnew] at this
    rw [← List.append_assoc]
    exact this
  wire := hrest.wire.trans h.wire
  held r hr := by
    rcases List.mem_cons.1 hr with rfl | hr
    · rw [(hrest.other r fun i _ => hlater i).2, h.refcount, if_pos rfl]
    · exact hrest.held r hr
  released i hi r hr := by
    cases i with
    | zero =>
      rw [halloc] at hr
      cases hr
      exact .inl List.mem_cons_self
    | succ i => exact (hrest.released i (Nat.lt_of_succ_lt_succ hi) r hr).imp_left (List.mem_cons_of_mem _)
  other r hr := by
    have hne : r ≠ ref := fun heq => hr 0 (Nat.succ_pos _) (heq ▸ halloc)
    obtain ⟨hcore, hcount⟩ := hrest.other r fun i hi => hr (i + 1) (Nat.succ_lt_succ hi)
    exact ⟨hcore.trans (h.core r hne), by rw [hcount, h.refcount, if_neg hne]⟩

theorem HandsOut.tail (h : HandsOut rounds l p) (halloc : (rounds 0).alloc = some ref) :
    HandsOut (fun i => rounds (i + 1)) (l ++ [ref]) p := by
  intro i r hr
  obtain ⟨hmem, hbefore⟩ := h (i + 1) r hr
  refine ⟨fun hmem' => ?_, fun j hj => hbefore (j + 1) (Nat.succ_lt_succ hj)⟩
  rw [List.append_assoc, List.singleton_append, List.mem_append, List.mem_cons] at hmem'
  rcases hmem' with hl | heq | hp
  · exact hmem (List.mem_append_left _ hl)
  · exact hbefore 0 (Nat.succ_pos _) (heq ▸ halloc)
  · exact hmem (List.mem_append_right _ hp)

theorem queueOutputLoop_sound (fuel : Nat) (rounds : Nat → OutputRound) (c : Connection) (data : List UInt8)
    (h : ZcInv c.zc l p) (hrounds : HandsOut rounds l p) (hfuel : data.length ≤ fuel) :
    ∃ n refs done rest, data = done ++ rest ∧
      OutputQueued rounds c.zc l p n refs done (queueOutputLoop fuel rounds c data).2.zc ∧
      ((queueOutputLoop fuel rounds c data).1 = 0 ∧ rest = [] ∨
        (queueOutputLoop fuel rounds c data).1 = -1 ∧ rest ≠ [] ∧ done.length = refs.length * bufferPoolBufferSize) := by
  induction fuel generalizing rounds c data l with
  | zero =>
    obtain rfl : data = [] := List.length_eq_zero_iff.1 (Nat.le_zero.1 hfuel)
    exact ⟨0, [], [], [], rfl, .nothing h (fun i hi => absurd hi (Nat.not_lt_zero i)), .inl ⟨rfl, rfl⟩⟩
  | succ fuel ih =>
    by_cases hdata : data = []
    · subst hdata
      exact ⟨0, [], [], [], rfl, .nothing h (fun i hi => absurd hi (Nat.not_lt_zero i)), .inl ⟨rfl, rfl⟩⟩
    have hsize : (data.take bufferPoolBufferSize).length ≤ bufferPoolBufferSize := List.length_take_le ..
    have hchunk : data.take bufferPoolBufferSize ≠ [] := by
      rw [Ne, List.take_eq_nil_iff, not_or]
      exact ⟨by decide, hdata⟩
    have hround : ∀ ref ∈ (rounds 0).alloc, ref ∉ l ++ p := fun ref href => (hrounds 0 ref href).1
    have hloop : queueOutputLoop (fuel + 1) rounds c data =
        if (queueOutputChunk (rounds 0) c (data.take bufferPoolBufferSize)).1 < 0 then
          (-1, (queueOutputChunk (rounds 0) c (data.take bufferPoolBufferSize)).2)
        else queueOutputLoop fuel (fun i => rounds (i + 1))
          (queueOutputChunk (rounds 0) c (data.take bufferPoolBufferSize)).2 (data.drop bufferPoolBufferSize) :=
      if_neg hdata
    rcases queueOutputChunk_cases h hround hchunk hsize with ⟨hret, ⟨hnone, hsame⟩ | ⟨ref, halloc, hrefused⟩⟩ |
      ⟨hret, ref, halloc, hqueued⟩
    · -- no buffer
      rw [hloop, hret, if_pos (by decide), hsame]
      refine ⟨1, [], [], data, rfl, .nothing h fun i hi => ?_, .inr ⟨rfl, hdata, (Nat.zero_mul _).symm⟩⟩
      rw [Nat.lt_one_iff.1 hi, hnone]
    · -- no room in the queue
      rw [hloop, hret, if_pos (by decide)]
      have hl : ref ∉ l := fun hl => hround ref (halloc ▸ rfl) (List.mem_append_left _ hl)
      exact ⟨1, [], [], data, rfl, .refused hrefused hl halloc, .inr ⟨rfl, hdata, (Nat.zero_mul _).symm⟩⟩
    · have hl : ref ∉ l := fun hl => hround ref (halloc ▸ rfl) (List.mem_append_left _ hl)
      have hlater : ∀ i, (rounds (i + 1)).alloc ≠ some ref := fun i hi =>
        (hrounds (i + 1) ref (hi ▸ rfl)).2 0 (Nat.succ_pos i) halloc
      have hdrop : (data.drop bufferPoolBufferSize).length ≤ fuel := by
        have hpos : 0 < data.length := List.length_pos_iff.2 hdata
        rw [List.length_drop]
        have : bufferPoolBufferSize = 1536 := rfl
        omega
      obtain ⟨n, refs, done, rest, hsplit, hout, hend⟩ := ih (fun i => rounds (i + 1))
        (queueOutputChunk (rounds 0) c (data.take bufferPoolBufferSize)).2 (data.drop bufferPoolBufferSize)
        hqueued.inv (hrounds.tail halloc) hdrop
      rw [hloop, hret, if_neg (by decide)]
      refine ⟨n + 1, ref :: refs, data.take bufferPoolBufferSize ++ done, rest, ?_, .cons hqueued hl halloc hlater hout,
        hend.imp_right fun ⟨hfail, hne, hlength⟩ => ⟨hfail, hne, ?_⟩⟩
      · rw [List.append_assoc, ← hsplit, List.take_append_drop]
      · -- what is left is behind a whole buffer
        have hlong : bufferPoolBufferSize ≤ data.length := by
          by_contra hshort
          have hnil : data.drop bufferPoolBufferSize = [] := List.drop_eq_nil_of_le (Nat.le_of_not_le hshort)
          rw [hnil] at hsplit
          exact hne (List.append_eq_nil_iff.1 hsplit.symm).2
        rw [List.length_append, List.length_take, Nat.min_eq_left hlong, hlength, List.length_cons, Nat.succ_mul,
          Nat.add_comm]

/-- Either all bytes are queued, or a part of them that fills its buffers, behind what was queued before. -/
theorem connectionQueueOutput_prefix (h : ZcInv c.zc l p) (hrounds : HandsOut rounds l p) (data : List UInt8) :
    ∃ n refs done rest, data = done ++ rest ∧
      OutputQueued rounds c.zc l p n refs done (connectionQueueOutput rounds c data).2.zc ∧
      ((connectionQueueOutput rounds c data).1 = 0 ∧ rest = [] ∨
        (connectionQueueOutput rounds c data).1 = -1 ∧ rest ≠ [] ∧ done.length = refs.length * bufferPoolBufferSize) :=
  queueOutputLoop_sound data.length rounds c data h hrounds (Nat.le_refl _)

/-- A client without anything queued. -/
def idleClient : Connection :=
  { busyClient 0 with zc := .init (busyClient 0).zc.heap none, queueAvgBytes := 0 }

/-- The pool has two buffers, the second only in the third round. -/
def twoBuffers (i : Nat) : OutputRound where
  alloc := if i = 0 then some 1 else if i = 2 then some 2 else none
  freeList := none
  pool := quietPool
  activeStreams := 1
  nowMs := 1000

theorem twoBuffers_handsOut : HandsOut twoBuffers [] [] := by
  intro i ref href
  refine ⟨List.not_mem_nil, fun j hj hsame => ?_⟩
  have hi : (twoBuffers i).alloc = some ref := href
  simp only [twoBuffers] at hi hsame
  split_ifs at hi hsame <;> simp only [Option.some.injEq] at hi hsame <;> omega

/-- The pool has two buffers. -/
def twoLeft (i : Nat) : OutputRound := { twoBuffers i with alloc := ([1, 2] : List Nat)[i]? }

theorem twoLeft_handsOut : HandsOut twoLeft [7] [] := by
  intro i ref href
  obtain ⟨hi, hget⟩ := List.getElem?_eq_some_iff.1 (show ([1, 2] : List Nat)[i]? = some ref from href)
  refine ⟨?_, fun j hlt hsame => ?_⟩
  · have hfree : ∀ r ∈ ([1, 2] : List Nat), r ∉ ([7] ++ [] : List Nat) := by decide
    exact hfree ref (hget ▸ List.getElem_mem hi)
  · obtain ⟨hj, hget'⟩ := List.getElem?_eq_some_iff.1 (show ([1, 2] : List Nat)[j]? = some ref from hsame)
    have hnodup : ([1, 2] : List Nat).Nodup := by decide
    exact hlt.ne (hnodup.getElem_inj_iff.1 (hget'.trans hget.symm))

/-- Five bytes are queued in buffer 7. -/
def heldClient : Connection :=
  { idleClient with
    zc := (zerocopyQueueAdd (filledBuffer 7 none [1, 2, 3, 4, 5] idleClient.zc) 7).2.bufferRefPut 7 }

theorem heldClient_inv : ZcInv heldClient.zc [7] [] :=
  have hidle : ZcInv idleClient.zc [] [] := zcInv_init _ _
  have hchunk : ([1, 2, 3, 4, 5] : List UInt8) ≠ [] := List.cons_ne_nil _ _
  have href : 7 ∉ ([] ++ [] : List Nat) := List.not_mem_nil
  (queued none hidle href hchunk (by decide)).2.inv

/-- Two buffers are filled and queued behind the one that was there; the rest of the data is not. -/
theorem connectionQueueOutput_behind :
    (connectionQueueOutput twoLeft heldClient (List.replicate 4000 7)).1 = -1 ∧
    ∃ n, OutputQueued twoLeft heldClient.zc [7] [] n [1, 2] (List.replicate 3072 7)
      (connectionQueueOutput twoLeft heldClient (List.replicate 4000 7)).2.zc := by
  have hret : (connectionQueueOutput twoLeft heldClient (List.replicate 4000 7)).1 = -1 := by decide +kernel
  have hlist : (connectionQueueOutput twoLeft heldClient (List.replicate 4000 7)).2.zc.sendList = [7, 1, 2] := by
    decide +kernel
  obtain ⟨n, refs, done, rest, hsplit, hout, hend⟩ :=
    connectionQueueOutput_prefix heldClient_inv twoLeft_handsOut (List.replicate 4000 7)
  obtain rfl : refs = [1, 2] := (List.cons.inj (hout.inv.sendList.symm.trans hlist)).2
  rcases hend with ⟨hzero, -⟩ | ⟨-, -, hlength⟩
  · rw [hret] at hzero
    exact absurd hzero (by decide)
  · obtain rfl : done = List.replicate 3072 7 := by
      have htake : (done ++ rest).take done.length = done := List.take_left
      rw [← hsplit, List.take_replicate, hlength] at htake
      exact htake.symm
    exact ⟨hret, n, hout⟩

/-- The second buffer is missing: the call fails with the first one queued. -/
theorem connectionQueueOutput_partial :
    ¬ ∀ (rounds : Nat → OutputRound) (c : Connection) (l p : List Nat) (data : List UInt8), ZcInv c.zc l p →
      HandsOut rounds l p → (connectionQueueOutput rounds c data).1 = -1 →
      (connectionQueueOutput rounds c data).2.zc.sendList = l := by
  intro h
  have := h twoBuffers idleClient [] [] (List.replicate 1537 7) (zcInv_init _ _) twoBuffers_handsOut (by decide +kernel)
  exact absurd this (by decide +kernel)

end Rtp2httpd
