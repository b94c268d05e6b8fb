import DOpenWrt.Rtp2httpd.Zerocopy

/-!
# Invariant of the zero-copy queues

`ZcInv st l p`: the send queue consists of the buffers `l` and the pending queue of the buffers `p`, no buffer is
in both or twice in one, and the counters are those of the lists. Every function of the queue preserves it.
-/

namespace Rtp2httpd
open LinkQueue

def ZcState.next (st : ZcState) (ref : Nat) : Option Nat := (st.heap ref).sendNext

/-- What `total_bytes` counts of a buffer. -/
def SendBuffer.queuedBytes (b : SendBuffer) : Nat :=
  match b.type with
  | .memory => b.iovLen
  | .file => 0

structure ZcInv (st : ZcState) (l p : List Nat) : Prop where
  send : IsQueue st.next st.queue.head st.queue.tail l
  pending : IsQueue st.next st.queue.pendingHead st.queue.pendingTail p
  nodup : (l ++ p).Nodup
  numQueued : st.queue.numQueued = l.length
  numPending : st.queue.numPending = p.length
  totalBytes : st.queue.totalBytes = (l.map fun ref => (st.heap ref).queuedBytes).sum
  /-- No queued memory buffer is empty. -/
  pos : ∀ ref ∈ l, (st.heap ref).type = .memory → 0 < (st.heap ref).iovLen

/-- A buffer without its link and reference count. -/
def SendBuffer.core (b : SendBuffer) : SendBuffer := { b with sendNext := none, refcount := 0 }

/-- Without its zero-copy id too. -/
def SendBuffer.payload (b : SendBuffer) : SendBuffer := { b.core with zerocopyId := 0 }

section Core

variable {a b : SendBuffer}

theorem SendBuffer.type_eq (h : a.payload = b.payload) : a.type = b.type :=
  show a.payload.type = b.payload.type by rw [h]

theorem SendBuffer.iovLen_eq (h : a.payload = b.payload) : a.iovLen = b.iovLen :=
  show a.payload.iovLen = b.payload.iovLen by rw [h]

theorem SendBuffer.queuedBytes_eq (h : a.payload = b.payload) : a.queuedBytes = b.queuedBytes :=
  show a.payload.queuedBytes = b.payload.queuedBytes by rw [h]

theorem SendBuffer.unsent_eq (h : a.payload = b.payload) : a.unsent = b.unsent :=
  show a.payload.unsent = b.payload.unsent by rw [h]

theorem SendBuffer.payload_eq (h : a.core = b.core) : a.payload = b.payload := by
  rw [SendBuffer.payload, h, ← SendBuffer.payload]

theorem SendBuffer.zerocopyId_eq (h : a.core = b.core) : a.zerocopyId = b.zerocopyId :=
  show a.core.zerocopyId = b.core.zerocopyId by rw [h]

end Core

section Modify

variable (st : ZcState) {ref r : Nat} (f : SendBuffer → SendBuffer)

theorem modify_heap_self : (st.modify ref f).heap ref = f (st.heap ref) := Function.update_self ..

theorem modify_heap_of_ne (h : r ≠ ref) : (st.modify ref f).heap r = st.heap r := Function.update_of_ne h ..

theorem modify_next_link (x : Option Nat) :
    (st.modify ref fun b => { b with sendNext := x }).next = Function.update st.next ref x := by
  funext r
  by_cases h : r = ref
  · subst h
    simp [ZcState.next, ZcState.modify]
  · simp [ZcState.next, ZcState.modify, h]

theorem modify_core (hf : (f (st.heap ref)).core = (st.heap ref).core) (r : Nat) :
    ((st.modify ref f).heap r).core = (st.heap r).core := by
  by_cases h : r = ref
  · subst h
    rw [modify_heap_self, hf]
  · rw [modify_heap_of_ne _ _ h]

end Modify

namespace ZcInv

variable {st st' : ZcState} {l p : List Nat} {ref : Nat}

theorem congr (h : ZcInv st l p) (hq : st'.queue = st.queue) (hnext : ∀ r ∈ l ++ p, st'.next r = st.next r)
    (hload : ∀ r ∈ l, (st'.heap r).payload = (st.heap r).payload) : ZcInv st' l p where
  send := by
    rw [hq]
    exact h.send.congr fun r hr => hnext r (List.mem_append_left _ hr)
  pending := by
    rw [hq]
    exact h.pending.congr fun r hr => hnext r (List.mem_append_right _ hr)
  nodup := h.nodup
  numQueued := by rw [hq, h.numQueued]
  numPending := by rw [hq, h.numPending]
  totalBytes := by
    rw [hq, h.totalBytes]
    exact congrArg List.sum (List.map_congr_left fun r hr => (SendBuffer.queuedBytes_eq (hload r hr)).symm)
  pos r hr := by
    rw [SendBuffer.type_eq (hload r hr), SendBuffer.iovLen_eq (hload r hr)]
    exact h.pos r hr

/-- A buffer outside of both queues may change. -/
theorem modify (h : ZcInv st l p) (href : ref ∉ l ++ p) (f : SendBuffer → SendBuffer) :
    ZcInv (st.modify ref f) l p := by
  have hne : ∀ r ∈ l ++ p, r ≠ ref := fun r hr => ne_of_mem_of_not_mem hr href
  refine h.congr rfl (fun r hr => ?_) fun r hr => ?_
  · rw [ZcState.next, modify_heap_of_ne _ _ (hne r hr), ZcState.next]
  · rw [modify_heap_of_ne _ _ (hne r (List.mem_append_left _ hr))]

end ZcInv

/-! ### References -/

theorem bufferRefPut_queue (st : ZcState) (ref : Nat) : (st.bufferRefPut ref).queue = st.queue := by
  unfold ZcState.bufferRefPut
  dsimp only
  split <;> rfl

@[simp]
theorem bufferRefPut_wire (st : ZcState) (ref : Nat) : (st.bufferRefPut ref).wire = st.wire := by
  unfold ZcState.bufferRefPut
  dsimp only
  split <;> rfl

@[simp]
theorem bufferRefPut_puts (st : ZcState) (ref : Nat) : (st.bufferRefPut ref).puts = ref :: st.puts := by
  unfold ZcState.bufferRefPut
  dsimp only
  split <;> rfl

theorem bufferRefPut_heap_of_ne (st : ZcState) {ref r : Nat} (h : r ≠ ref) :
    (st.bufferRefPut ref).heap r = st.heap r := by
  unfold ZcState.bufferRefPut
  dsimp only
  split <;> simp [ZcState.modify, h]

theorem bufferRefPut_core (st : ZcState) (ref r : Nat) :
    ((st.bufferRefPut ref).heap r).core = (st.heap r).core := by
  by_cases h : r = ref
  · subst h
    unfold ZcState.bufferRefPut
    dsimp only
    split <;> simp [ZcState.modify, SendBuffer.core]
  · rw [bufferRefPut_heap_of_ne _ h]

theorem ZcInv.bufferRefPut {st : ZcState} {l p : List Nat} {ref : Nat} (h : ZcInv st l p) (href : ref ∉ l ++ p) :
    ZcInv (st.bufferRefPut ref) l p := by
  refine h.congr (bufferRefPut_queue ..) (fun r hr => ?_) fun r _ =>
    SendBuffer.payload_eq (bufferRefPut_core ..)
  rw [ZcState.next, bufferRefPut_heap_of_ne _ (ne_of_mem_of_not_mem hr href), ZcState.next]

/-! ### The ends of the queues -/

section Append

variable {st : ZcState} {l p : List Nat} {ref : Nat}

theorem appendTail_next (hfresh : st.next ref = none) :
    (appendTail st ref).next = IsQueue.push st.next st.queue.tail ref := by
  have hself : Function.update st.next ref none = st.next := by
    rw [← hfresh, Function.update_eq_self]
  unfold appendTail IsQueue.push
  split
  · next tail ht =>
    rw [ht]
    dsimp only
    rw [hself]
    exact modify_next_link ..
  · next ht =>
    rw [ht]
    exact hself.symm

theorem appendTail_core (st : ZcState) (ref r : Nat) : ((appendTail st ref).heap r).core = (st.heap r).core := by
  unfold appendTail
  split
  · exact modify_core st (fun b => { b with sendNext := some ref }) rfl r
  · rfl

theorem appendTail_queue (st : ZcState) (ref : Nat) :
    (appendTail st ref).queue = { st.queue with
      head := if st.queue.tail.isNone then some ref else st.queue.head, tail := some ref } := by
  unfold appendTail
  split
  · next ht => simp [ht]
  · next ht => simp [ht]

/-- A buffer of neither queue is appended to the send queue, and the counters follow. -/
theorem ZcInv.appendTail (h : ZcInv st l p) (href : ref ∉ l ++ p) (hfresh : st.next ref = none)
    (hpos : (st.heap ref).type = .memory → 0 < (st.heap ref).iovLen) :
    ZcInv { appendTail st ref with queue := { (appendTail st ref).queue with
      totalBytes := (appendTail st ref).queue.totalBytes + (st.heap ref).queuedBytes
      numQueued := (appendTail st ref).queue.numQueued + 1 } } (l ++ [ref]) p := by
  have hl : ref ∉ l := fun hr => href (List.mem_append_left _ hr)
  have hp : ref ∉ p := fun hr => href (List.mem_append_right _ hr)
  have hnd := List.nodup_append.1 h.nodup
  have hload r := SendBuffer.payload_eq (appendTail_core st ref r)
  constructor
  · show IsQueue (Rtp2httpd.appendTail st ref).next _ _ _
    rw [appendTail_next hfresh, appendTail_queue]
    exact h.send.append hnd.1 hl
  · show IsQueue (Rtp2httpd.appendTail st ref).next _ _ _
    rw [appendTail_next hfresh, appendTail_queue]
    refine h.pending.congr fun r hr => IsQueue.push_of_ne (ne_of_mem_of_not_mem hr hp) fun htail => ?_
    have hrl : r ∈ l := List.mem_of_getLast? (h.send.tail.symm.trans htail)
    exact hnd.2.2 r hrl r hr rfl
  · rw [List.append_assoc, List.singleton_append, List.nodup_middle, List.nodup_cons]
    exact ⟨href, h.nodup⟩
  · simp [appendTail_queue, h.numQueued]
  · simp [appendTail_queue, h.numPending]
  · simp only [appendTail_queue, h.totalBytes, List.map_append, List.sum_append, List.map_cons, List.map_nil,
      List.sum_cons, List.sum_nil, Nat.add_zero, SendBuffer.queuedBytes_eq (hload _)]
  · intro r hr
    show ((Rtp2httpd.appendTail st ref).heap r).type = _ → _
    rw [SendBuffer.type_eq (hload r)]
    intro hm
    show 0 < ((Rtp2httpd.appendTail st ref).heap r).iovLen
    rw [SendBuffer.iovLen_eq (hload r)]
    rcases List.mem_append.1 hr with hr | hr
    · exact h.pos r hr hm
    · rw [List.mem_singleton.1 hr] at hm ⊢
      exact hpos hm

end Append

/-! ### Sent buffers -/

section Sent

variable {st : ZcState} {l p : List Nat} {ref : Nat}

theorem ZcInv.dropHead (h : ZcInv st (ref :: l) p) :
    ZcInv (dropHead { st with queue := { st.queue with
      totalBytes := st.queue.totalBytes - (st.heap ref).queuedBytes } } (st.heap ref)) l p := by
  constructor
  · exact h.send.pop
  · exact h.pending
  · exact (List.nodup_cons.1 h.nodup).2
  · simp [Rtp2httpd.dropHead, h.numQueued]
  · exact h.numPending
  · simp [Rtp2httpd.dropHead, h.totalBytes]
  · exact fun r hr => h.pos r (List.mem_cons_of_mem _ hr)

theorem moveToPending_core (st : ZcState) (ref r : Nat) :
    ((moveToPending st ref).heap r).core = (st.heap r).core := by
  unfold moveToPending
  dsimp only
  split
  · refine (modify_core _ (fun b => { b with sendNext := some ref }) rfl r).trans ?_
    exact modify_core st (fun b => { b with sendNext := none }) rfl r
  · exact modify_core st (fun b => { b with sendNext := none }) rfl r

theorem moveToPending_next (st : ZcState) (ref : Nat) :
    (moveToPending st ref).next = IsQueue.push st.next st.queue.pendingTail ref := by
  unfold moveToPending IsQueue.push
  dsimp only
  split
  · next tail ht =>
    simp only [ZcState.modify] at ht
    rw [ht]
    exact (modify_next_link ..).trans (by rw [modify_next_link])
  · next ht =>
    simp only [ZcState.modify] at ht
    rw [ht]
    exact modify_next_link ..

theorem moveToPending_queue (st : ZcState) (ref : Nat) :
    (moveToPending st ref).queue = { st.queue with
      pendingHead := if st.queue.pendingTail.isNone then some ref else st.queue.pendingHead
      pendingTail := some ref, numPending := st.queue.numPending + 1 } := by
  unfold moveToPending
  dsimp only
  split
  · next ht =>
    simp only [ZcState.modify] at ht
    simp [ZcState.modify, ht]
  · next ht =>
    simp only [ZcState.modify] at ht
    simp [ZcState.modify, ht]

theorem ZcInv.moveToPending (h : ZcInv st l p) (href : ref ∉ l ++ p) :
    ZcInv (moveToPending st ref) l (p ++ [ref]) := by
  have hl : ref ∉ l := fun hr => href (List.mem_append_left _ hr)
  have hp : ref ∉ p := fun hr => href (List.mem_append_right _ hr)
  have hnd := List.nodup_append.1 h.nodup
  have hload r := SendBuffer.payload_eq (moveToPending_core st ref r)
  have hqueue := moveToPending_queue st ref
  constructor
  · rw [moveToPending_next, hqueue]
    refine h.send.congr fun r hr => IsQueue.push_of_ne (ne_of_mem_of_not_mem hr hl) fun htail => ?_
    have hrp : r ∈ p := List.mem_of_getLast? (h.pending.tail.symm.trans htail)
    exact hnd.2.2 r hr r hrp rfl
  · rw [moveToPending_next, hqueue]
    exact h.pending.append hnd.2.1 hp
  · rw [← List.append_assoc, List.nodup_append]
    refine ⟨h.nodup, List.nodup_singleton _, ?_⟩
    rintro a ha b hb rfl
    exact href (List.mem_singleton.1 hb ▸ ha)
  · rw [hqueue]
    exact h.numQueued
  · rw [hqueue, List.length_append, List.length_singleton, ← h.numPending]
  · rw [hqueue]
    refine h.totalBytes.trans (congrArg List.sum (List.map_congr_left fun r _ => ?_))
    exact (SendBuffer.queuedBytes_eq (hload r)).symm
  · intro r hr
    rw [SendBuffer.type_eq (hload r), SendBuffer.iovLen_eq (hload r)]
    exact h.pos r hr

end Sent

/-- What the loop over the sent bytes relies on: the buffer it took off the send queue is put where `parked`
says, and no other buffer changes. -/
structure Finish (finish : ZcState → Nat → ZcState) (parked : Nat → List Nat) (puts : Nat → List Nat) : Prop where
  inv : ∀ {st l p ref}, ZcInv st l p → ref ∉ l ++ p → ZcInv (finish st ref) l (p ++ parked ref)
  core : ∀ st ref r, ((finish st ref).heap r).core = (st.heap r).core
  wire : ∀ st ref, (finish st ref).wire = st.wire
  puts : ∀ st ref, (finish st ref).puts = puts ref ++ st.puts
  nextId : ∀ st ref, (finish st ref).queue.nextZerocopyId = st.queue.nextZerocopyId

theorem finish_moveToPending : Finish moveToPending (fun ref => [ref]) (fun _ => []) where
  inv h href := h.moveToPending href
  core := moveToPending_core
  wire st ref := by
    unfold moveToPending
    dsimp only
    split <;> rfl
  puts st ref := by
    unfold moveToPending
    dsimp only
    split <;> rfl
  nextId st ref := by rw [moveToPending_queue]

theorem finish_bufferRefPut : Finish ZcState.bufferRefPut (fun _ => []) (fun ref => [ref]) where
  inv h href := by
    rw [List.append_nil]
    exact h.bufferRefPut href
  core := bufferRefPut_core
  wire := bufferRefPut_wire
  puts := bufferRefPut_puts
  nextId st ref := by rw [bufferRefPut_queue]

/-- The buffers of the queue that `n` bytes send to their end. -/
def fullySent (heap : Nat → SendBuffer) : List Nat → Nat → List Nat
  | [], _ => []
  | ref :: l, n =>
    if n = 0 then [] else if (heap ref).iovLen ≤ n then ref :: fullySent heap l (n - (heap ref).iovLen) else []

theorem fullySent_congr {heap heap' : Nat → SendBuffer} (h : ∀ r, (heap' r).payload = (heap r).payload) (l : List Nat) (n : Nat) :
    fullySent heap' l n = fullySent heap l n := by
  induction l generalizing n with
  | nil => rfl
  | cons ref l ih => rw [fullySent, fullySent, SendBuffer.iovLen_eq (h ref), ih]

/-- What the buffers of the list still describe. -/
def unsentOf (heap : Nat → SendBuffer) (l : List Nat) : List UInt8 := l.flatMap fun ref => (heap ref).unsent

theorem unsentOf_congr {heap heap' : Nat → SendBuffer} {l : List Nat} (h : ∀ r ∈ l, (heap' r).payload = (heap r).payload) :
    unsentOf heap' l = unsentOf heap l :=
  List.flatMap_congr fun r hr => SendBuffer.unsent_eq (h r hr)

theorem length_memoryAt (mem : Nat → UInt8) (base n : Nat) : (memoryAt mem base n).length = n := by simp [memoryAt]

theorem drop_memoryAt (mem : Nat → UInt8) (base len n : Nat) :
    (memoryAt mem base len).drop n = memoryAt mem (base + n) (len - n) := by
  refine List.ext_getElem (by simp [memoryAt]) fun i h₁ h₂ => ?_
  simp [memoryAt, Nat.add_assoc]

theorem length_unsent_memory {b : SendBuffer} (h : b.type = .memory) : b.unsent.length = b.iovLen := by
  rw [SendBuffer.unsent, h]
  exact length_memoryAt ..

/-- The state after a send of `n` bytes, `done` of the queue's buffers being sent to their end. -/
structure Consumed (parked puts : Nat → List Nat) (st : ZcState) (done rest p : List Nat) (n : Nat) (st' : ZcState) :
    Prop where
  inv : ZcInv st' rest (p ++ done.flatMap parked)
  unsent : unsentOf st'.heap rest = (unsentOf st.heap (done ++ rest)).drop n
  core : ∀ r ∉ rest, (st'.heap r).core = (st.heap r).core
  wire : st'.wire = st.wire
  puts : st'.puts = done.reverse.flatMap puts ++ st.puts
  nextId : st'.queue.nextZerocopyId = st.queue.nextZerocopyId

theorem Consumed.nothing {parked puts : Nat → List Nat} {st : ZcState} {l p : List Nat} (h : ZcInv st l p) :
    Consumed parked puts st [] l p 0 st :=
  ⟨by simpa using h, rfl, fun _ _ => rfl, rfl, rfl, rfl⟩

/-- How many of the queue's next bytes are in memory, before the first file. -/
def memoryBytes (heap : Nat → SendBuffer) (l : List Nat) : Nat :=
  ((l.takeWhile fun ref => (heap ref).type = .memory).map fun ref => (heap ref).iovLen).sum

theorem memoryBytes_cons {heap : Nat → SendBuffer} {ref : Nat} {l : List Nat} (h : (heap ref).type = .memory) :
    memoryBytes heap (ref :: l) = (heap ref).iovLen + memoryBytes heap l := by
  simp [memoryBytes, h]

theorem memoryBytes_congr {heap heap' : Nat → SendBuffer} (h : ∀ r, (heap' r).payload = (heap r).payload) (l : List Nat) :
    memoryBytes heap' l = memoryBytes heap l := by
  have htype : ∀ r, (heap' r).type = (heap r).type := fun r => SendBuffer.type_eq (h r)
  have hlen : ∀ r, (heap' r).iovLen = (heap r).iovLen := fun r => SendBuffer.iovLen_eq (h r)
  simp only [memoryBytes, htype, hlen]

section Consume

variable {finish : ZcState → Nat → ZcState} {split : SendBuffer → SendBuffer} {st : ZcState} {ref n fuel : Nat}

theorem consumeSent_zero (finish : ZcState → Nat → ZcState) (split : SendBuffer → SendBuffer) (fuel : Nat)
    (st : ZcState) : consumeSent finish split fuel 0 st = st := by
  cases fuel <;> simp [consumeSent]

theorem consumeSent_whole (hn : n ≠ 0) (hhead : st.queue.head = some ref) (hmem : (st.heap ref).type = .memory)
    (hle : (st.heap ref).iovLen ≤ n) :
    consumeSent finish split (fuel + 1) n st = consumeSent finish split fuel (n - (st.heap ref).iovLen)
      (finish (dropHead { st with queue := { st.queue with
        totalBytes := st.queue.totalBytes - (st.heap ref).iovLen } } (st.heap ref)) ref) := by
  rw [consumeSent, if_neg hn]
  split
  · next heq =>
    rw [hhead] at heq
    cases heq
  · next current heq =>
    rw [hhead] at heq
    cases heq
    simp only [hmem, ne_eq, not_true_eq_false, if_false, if_pos hle]

/-- The head of the queue after a partial send. -/
def splitHead (split : SendBuffer → SendBuffer) (ref n : Nat) (st : ZcState) : ZcState :=
  let st := st.modify ref fun b => split { b with iovBase := b.iovBase + n, iovLen := b.iovLen - n }
  { st with queue := { st.queue with totalBytes := st.queue.totalBytes - n } }

theorem consumeSent_part (hn : n ≠ 0) (hhead : st.queue.head = some ref) (hmem : (st.heap ref).type = .memory)
    (hlt : ¬ (st.heap ref).iovLen ≤ n) : consumeSent finish split (fuel + 1) n st = splitHead split ref n st := by
  rw [consumeSent, if_neg hn]
  split
  · next heq =>
    rw [hhead] at heq
    cases heq
  · next current heq =>
    rw [hhead] at heq
    cases heq
    simp only [hmem, ne_eq, not_true_eq_false, if_false, if_neg hlt]
    rfl

/-- A split changes nothing but the id. -/
def KeepsBytes (split : SendBuffer → SendBuffer) : Prop :=
  ∀ b, (split b).type = b.type ∧ (split b).data = b.data ∧ (split b).iovBase = b.iovBase ∧
    (split b).iovLen = b.iovLen ∧ (split b).sendNext = b.sendNext

theorem keepsBytes_resetZerocopyId : KeepsBytes resetZerocopyId := fun _ => ⟨rfl, rfl, rfl, rfl, rfl⟩

theorem keepsBytes_id : KeepsBytes id := fun _ => ⟨rfl, rfl, rfl, rfl, rfl⟩

theorem consumed_splitHead {parked puts : Nat → List Nat} {l p : List Nat} (hsplit : KeepsBytes split)
    (h : ZcInv st (ref :: l) p) (hmem : (st.heap ref).type = .memory) (hlt : n < (st.heap ref).iovLen) :
    Consumed parked puts st [] (ref :: l) p n (splitHead split ref n st) := by
  obtain ⟨htype, hdata, hbase, hlen, hlink⟩ :=
    hsplit { st.heap ref with iovBase := (st.heap ref).iovBase + n, iovLen := (st.heap ref).iovLen - n }
  have hrefl : ref ∉ l := fun hr => (List.nodup_cons.1 h.nodup).1 (List.mem_append_left _ hr)
  have hself : (splitHead split ref n st).heap ref =
      split { st.heap ref with iovBase := (st.heap ref).iovBase + n, iovLen := (st.heap ref).iovLen - n } :=
    Function.update_self ..
  have hother : ∀ r ≠ ref, (splitHead split ref n st).heap r = st.heap r := fun r hr => Function.update_of_ne hr ..
  have hnext : (splitHead split ref n st).next = st.next := by
    funext r
    by_cases hr : r = ref
    · rw [hr, ZcState.next, hself, hlink, ZcState.next]
    · rw [ZcState.next, hother r hr, ZcState.next]
  have hunsent : ((splitHead split ref n st).heap ref).unsent = (st.heap ref).unsent.drop n := by
    rw [hself, SendBuffer.unsent, htype, hdata, hbase, hlen, SendBuffer.unsent]
    simp only [hmem, drop_memoryAt]
  refine ⟨⟨?_, ?_, ?_, h.numQueued, ?_, ?_, ?_⟩, ?_, ?_, rfl, rfl, rfl⟩
  · rw [hnext]
    exact h.send
  · rw [hnext, List.flatMap_nil, List.append_nil]
    exact h.pending
  · rw [List.flatMap_nil, List.append_nil]
    exact h.nodup
  · rw [List.flatMap_nil, List.append_nil]
    exact h.numPending
  · have hrest : (l.map fun r => ((splitHead split ref n st).heap r).queuedBytes).sum =
        (l.map fun r => (st.heap r).queuedBytes).sum :=
      congrArg List.sum (List.map_congr_left fun r hr => by rw [hother r (ne_of_mem_of_not_mem hr hrefl)])
    have htotal := h.totalBytes
    rw [List.map_cons, List.sum_cons, SendBuffer.queuedBytes, hmem] at htotal
    rw [List.map_cons, List.sum_cons, hrest, hself, SendBuffer.queuedBytes, htype, hlen]
    simp only [hmem] at htotal ⊢
    show st.queue.totalBytes - n = _
    omega
  · intro r hr
    by_cases hrr : r = ref
    · rw [hrr, hself, hlen]
      intro _
      show 0 < (st.heap ref).iovLen - n
      omega
    · rw [hother r hrr]
      exact h.pos r hr
  · rw [List.nil_append, unsentOf, unsentOf, List.flatMap_cons, List.flatMap_cons, hunsent, List.drop_append,
      Nat.sub_eq_zero_of_le (by rw [length_unsent_memory hmem]; omega), List.drop_zero]
    exact congrArg _ (List.flatMap_congr fun r hr => by rw [hother r (ne_of_mem_of_not_mem hr hrefl)])
  · exact fun r hr => by rw [hother r fun heq => hr (heq ▸ List.mem_cons_self)]

/-- The loop over the sent bytes, its fuel being the length of the queue. -/
theorem consumeSent_spec {parked puts : Nat → List Nat} (hf : Finish finish parked puts) (hsplit : KeepsBytes split)
    (l : List Nat) : ∀ {st : ZcState} {p : List Nat} {n fuel : Nat}, ZcInv st l p → l.length ≤ fuel →
      n ≤ memoryBytes st.heap l → ∃ rest, fullySent st.heap l n ++ rest = l ∧
        Consumed parked puts st (fullySent st.heap l n) rest p n (consumeSent finish split fuel n st) := by
  induction l with
  | nil =>
    intro st p n fuel h _ hn
    obtain rfl : n = 0 := Nat.le_zero.1 hn
    rw [consumeSent_zero]
    exact ⟨[], rfl, .nothing h⟩
  | cons ref l ih =>
    intro st p n fuel h hfuel hn
    obtain ⟨fuel, rfl⟩ : ∃ k, fuel = k + 1 := ⟨fuel - 1, by simp at hfuel; omega⟩
    rw [fullySent]
    by_cases hn0 : n = 0
    · rw [hn0, consumeSent_zero, if_pos rfl]
      exact ⟨ref :: l, rfl, .nothing h⟩
    · have hhead : st.queue.head = some ref := h.send.head_eq
      have hmem : (st.heap ref).type = .memory := by
        by_contra hne
        simp [memoryBytes, hne] at hn
        omega
      have hqueued : (st.heap ref).queuedBytes = (st.heap ref).iovLen := by rw [SendBuffer.queuedBytes, hmem]
      rw [memoryBytes_cons hmem] at hn
      rw [if_neg hn0]
      by_cases hle : (st.heap ref).iovLen ≤ n
      · rw [consumeSent_whole hn0 hhead hmem hle, if_pos hle]
        have hdrop := h.dropHead
        rw [hqueued] at hdrop
        have href : ref ∉ l ++ p := (List.nodup_cons.1 h.nodup).1
        set st₁ := dropHead { st with queue := { st.queue with
          totalBytes := st.queue.totalBytes - (st.heap ref).iovLen } } (st.heap ref) with hst₁
        have hcore : ∀ r, ((finish st₁ ref).heap r).core = (st.heap r).core := fun r => hf.core st₁ ref r
        have hload : ∀ r, ((finish st₁ ref).heap r).payload = (st.heap r).payload :=
          fun r => SendBuffer.payload_eq (hcore r)
        obtain ⟨rest, hrest, hc⟩ := ih (n := n - (st.heap ref).iovLen) (hf.inv hdrop href)
          (Nat.le_of_succ_le_succ hfuel) (by rw [memoryBytes_congr hload]; omega)
        rw [fullySent_congr hload] at hrest hc
        refine ⟨rest, by rw [List.cons_append, hrest], ?_, ?_, ?_, ?_, ?_, ?_⟩
        · rw [List.flatMap_cons, ← List.append_assoc]
          exact hc.inv
        · have hwhole : (st.heap ref).unsent.drop n = [] :=
            List.drop_of_length_le (by rwa [length_unsent_memory hmem])
          rw [hc.unsent, hrest, List.cons_append, hrest, unsentOf_congr fun r _ => hload r, unsentOf, unsentOf,
            List.flatMap_cons, List.drop_append, length_unsent_memory hmem, hwhole, List.nil_append]
        · exact fun r hr => (hc.core r hr).trans (hcore r)
        · exact hc.wire.trans (hf.wire st₁ ref)
        · rw [hc.puts, hf.puts, List.reverse_cons, List.flatMap_append, List.append_assoc]
          simp [hst₁, dropHead]
        · exact hc.nextId.trans (hf.nextId st₁ ref)
      · rw [consumeSent_part hn0 hhead hmem hle, if_neg hle]
        exact ⟨ref :: l, rfl, consumed_splitHead hsplit h hmem (Nat.lt_of_not_le hle)⟩

end Consume

/-! ### Completions -/

section Completions

variable {st : ZcState} {l kept m p : List Nat} {buf : Nat}

theorem unlinkPending_next (prev : Option Nat) (buf : Nat) (st : ZcState) :
    (unlinkPending prev buf st).next = IsQueue.unlink st.next prev buf := by
  unfold unlinkPending IsQueue.unlink
  dsimp only
  split
  · exact modify_next_link ..
  · rfl

theorem unlinkPending_core (prev : Option Nat) (buf : Nat) (st : ZcState) (r : Nat) :
    ((unlinkPending prev buf st).heap r).core = (st.heap r).core := by
  unfold unlinkPending
  dsimp only
  split
  · next p => exact @modify_core st p (fun b => { b with sendNext := (st.heap buf).sendNext }) rfl r
  · rfl

theorem unlinkPending_queue (prev : Option Nat) (buf : Nat) (st : ZcState) :
    (unlinkPending prev buf st).queue = { st.queue with
      pendingHead := if prev.isNone then st.next buf else st.queue.pendingHead
      pendingTail := if some buf = st.queue.pendingTail then prev else st.queue.pendingTail
      numPending := st.queue.numPending - 1 } := by
  unfold unlinkPending
  dsimp only
  split
  · rfl
  · rfl

theorem ZcInv.unlinkPending (h : ZcInv st l (kept ++ buf :: m)) :
    ZcInv (unlinkPending kept.getLast? buf st) l (kept ++ m) := by
  have hload r := SendBuffer.payload_eq (unlinkPending_core kept.getLast? buf st r)
  have hqueue := unlinkPending_queue kept.getLast? buf st
  have hnd := List.nodup_append.1 h.nodup
  constructor
  · rw [unlinkPending_next, hqueue]
    refine h.send.congr fun r hr => IsQueue.unlink_of_ne fun hprev => ?_
    exact hnd.2.2 r hr r (List.mem_append_left _ (List.mem_of_getLast? hprev)) rfl
  · rw [unlinkPending_next, hqueue]
    exact h.pending.remove hnd.2.1
  · have hsub : List.Sublist (kept ++ m) (kept ++ buf :: m) :=
      (List.Sublist.refl _).append (List.sublist_cons_self ..)
    exact h.nodup.sublist ((List.Sublist.refl _).append hsub)
  · rw [hqueue]
    exact h.numQueued
  · rw [hqueue, List.length_append]
    show st.queue.numPending - 1 = _
    rw [h.numPending, List.length_append, List.length_cons]
    omega
  · rw [hqueue]
    refine h.totalBytes.trans (congrArg List.sum (List.map_congr_left fun r _ => ?_))
    exact (SendBuffer.queuedBytes_eq (hload r)).symm
  · intro r hr
    rw [SendBuffer.type_eq (hload r), SendBuffer.iovLen_eq (hload r)]
    exact h.pos r hr

/-- The state after the pending buffers `done` were released, `p` being left. -/
structure RangeReleased (l p done : List Nat) (st st' : ZcState) : Prop where
  inv : ZcInv st' l p
  core : ∀ r, (st'.heap r).core = (st.heap r).core
  wire : st'.wire = st.wire
  puts : st'.puts = done.reverse ++ st.puts
  nextId : st'.queue.nextZerocopyId = st.queue.nextZerocopyId

/-- Whether a notification of the range releases the pending buffer. -/
def inRange (heap : Nat → SendBuffer) (lo hi : BitVec 32) (ref : Nat) : Bool := idCompleted lo hi (heap ref).zerocopyId

theorem inRange_congr {heap heap' : Nat → SendBuffer} (h : ∀ r, (heap' r).core = (heap r).core) (lo hi : BitVec 32) :
    inRange heap' lo hi = inRange heap lo hi := by
  funext r
  rw [inRange, SendBuffer.zerocopyId_eq (h r), inRange]

theorem unlinkPending_wire (prev : Option Nat) (buf : Nat) (st : ZcState) :
    (unlinkPending prev buf st).wire = st.wire := by
  unfold unlinkPending
  dsimp only
  split <;> rfl

theorem unlinkPending_puts (prev : Option Nat) (buf : Nat) (st : ZcState) :
    (unlinkPending prev buf st).puts = st.puts := by
  unfold unlinkPending
  dsimp only
  split <;> rfl

theorem scanPending_spec (lo hi : BitVec 32) (todo : List Nat) :
    ∀ {st : ZcState} {kept : List Nat} {fuel : Nat}, ZcInv st l (kept ++ todo) → todo.length ≤ fuel →
      RangeReleased l (kept ++ todo.filter fun r => !inRange st.heap lo hi r) (todo.filter (inRange st.heap lo hi)) st
          (scanPending lo hi fuel kept.getLast? todo.head? st).2 ∧
        (scanPending lo hi fuel kept.getLast? todo.head? st).1 = (todo.filter (inRange st.heap lo hi)).length := by
  induction todo with
  | nil =>
    intro st kept fuel h _
    have hscan : scanPending lo hi fuel kept.getLast? ([] : List Nat).head? st = (0, st) := by
      cases fuel <;> rfl
    rw [hscan]
    exact ⟨⟨h, fun _ => rfl, rfl, rfl, rfl⟩, rfl⟩
  | cons buf todo ih =>
    intro st kept fuel h hfuel
    obtain ⟨fuel, rfl⟩ : ∃ k, fuel = k + 1 := ⟨fuel - 1, by simp at hfuel; omega⟩
    have hnext : (st.heap buf).sendNext = todo.head? := by
      obtain ⟨q, -, -, hlinks⟩ := links_append.1 h.pending.links
      exact hlinks.head?
    rw [List.head?_cons, scanPending]
    dsimp only
    by_cases hin : idCompleted lo hi (st.heap buf).zerocopyId
    · have hin' : inRange st.heap lo hi buf = true := hin
      simp only [if_pos hin, hnext, List.filter_cons, hin', Bool.not_true, Bool.false_eq_true, if_false, if_true]
      have hunlink := h.unlinkPending
      have hnot : buf ∉ l ++ (kept ++ todo) := by
        have := h.nodup
        rw [← List.append_assoc, List.nodup_middle, List.append_assoc] at this
        exact (List.nodup_cons.1 this).1
      set st₁ := (Rtp2httpd.unlinkPending kept.getLast? buf st).bufferRefPut buf with hst₁
      have hcore : ∀ r, (st₁.heap r).core = (st.heap r).core :=
        fun r => (bufferRefPut_core _ buf r).trans (unlinkPending_core _ buf st r)
      obtain ⟨hrel, hcount⟩ := ih (hunlink.bufferRefPut hnot) (Nat.le_of_succ_le_succ hfuel)
      rw [← hst₁, inRange_congr hcore] at hrel hcount
      refine ⟨⟨hrel.inv, fun r => (hrel.core r).trans (hcore r), ?_, ?_, ?_⟩, ?_⟩
      · rw [hrel.wire, hst₁, bufferRefPut_wire, unlinkPending_wire]
      · rw [hrel.puts, hst₁, bufferRefPut_puts, unlinkPending_puts, List.reverse_cons, List.append_assoc]
        rfl
      · rw [hrel.nextId, hst₁, bufferRefPut_queue, unlinkPending_queue]
      · rw [hcount, List.length_cons]
    · have hin' : inRange st.heap lo hi buf = false := by simpa [inRange] using hin
      simp only [if_neg hin, hnext, List.filter_cons, hin', Bool.not_false, Bool.false_eq_true, if_false, if_true]
      have h' : ZcInv st l (kept ++ [buf] ++ todo) := by rwa [List.append_assoc]
      have := ih h' (Nat.le_of_succ_le_succ hfuel)
      rwa [List.getLast?_concat, List.append_assoc] at this

theorem completeRange_spec (h : ZcInv st l p) (lo hi : BitVec 32) :
    RangeReleased l (p.filter fun r => !inRange st.heap lo hi r) (p.filter (inRange st.heap lo hi)) st
      (completeRange lo hi st).2 ∧
      (completeRange lo hi st).1 = (p.filter (inRange st.heap lo hi)).length := by
  have h' : ZcInv { st with queue := { st.queue with lastCompletedId := hi } } l ([] ++ p) :=
    ⟨h.send, h.pending, h.nodup, h.numQueued, h.numPending, h.totalBytes, h.pos⟩
  have hscan := scanPending_spec lo hi p h' (Nat.le_of_eq h.numPending.symm)
  rw [List.nil_append, ← h.pending.head_eq] at hscan
  exact ⟨⟨hscan.1.inv, hscan.1.core, hscan.1.wire, hscan.1.puts, hscan.1.nextId⟩, hscan.2⟩

end Completions

end Rtp2httpd
