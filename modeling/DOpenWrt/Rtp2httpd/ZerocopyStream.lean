import DOpenWrt.Lib.Run
import DOpenWrt.Rtp2httpd.ZerocopyInv

/-!
# The byte stream of the send queue

Whatever the kernel takes of what it is offered, the bytes it took and those the queue still describes are the
bytes that were added, in the order of the calls.
-/

namespace Rtp2httpd
open LinkQueue

/-! ### The iovec array -/

section Batch

variable {st : ZcState} {l p : List Nat} {ref n : Nat}

theorem gatherIovecs_eq (st : ZcState) (l : List Nat) :
    ∀ {n : Nat} {head : Option Nat}, Links st.next head l none →
      gatherIovecs st.heap n head = (l.takeWhile fun r => (st.heap r).type = .memory).take n := by
  induction l with
  | nil =>
    rintro n head rfl
    cases n <;> rfl
  | cons ref l ih =>
    rintro n head ⟨rfl, hl⟩
    cases n with
    | zero => rfl
    | succ n =>
      rw [gatherIovecs]
      by_cases hmem : (st.heap ref).type = .memory
      · rw [if_pos hmem, List.takeWhile_cons_of_pos (by simpa using hmem), List.take_succ_cons]
        exact congrArg _ (ih hl)
      · rw [if_neg hmem, List.takeWhile_cons_of_neg (by simpa using hmem), List.take_nil]

theorem ZcInv.batch_eq (h : ZcInv st l p) :
    st.batch = (l.takeWhile fun r => (st.heap r).type = .memory).take zerocopyMaxIovecs :=
  gatherIovecs_eq st l h.send.links

theorem ZcInv.batch_prefix (h : ZcInv st l p) : st.batch <+: l := by
  rw [h.batch_eq]
  exact (List.take_prefix ..).trans (List.takeWhile_prefix _)

theorem ZcInv.type_of_mem_batch (h : ZcInv st l p) (href : ref ∈ st.batch) : (st.heap ref).type = .memory := by
  rw [h.batch_eq] at href
  simpa using List.all_eq_true.1 List.all_takeWhile ref (List.mem_of_mem_take href)

theorem length_unsentOf_memory {heap : Nat → SendBuffer} {l : List Nat} (h : ∀ r ∈ l, (heap r).type = .memory) :
    (unsentOf heap l).length = (l.map fun r => (heap r).iovLen).sum := by
  rw [unsentOf, List.length_flatMap]
  exact congrArg List.sum (List.map_congr_left fun r hr => length_unsent_memory (h r hr))

theorem ZcInv.length_batch_le (h : ZcInv st l p) : (unsentOf st.heap st.batch).length ≤ memoryBytes st.heap l := by
  rw [length_unsentOf_memory fun r hr => h.type_of_mem_batch hr, memoryBytes, h.batch_eq]
  exact (((List.take_sublist ..).map _).sum_le_sum fun _ _ => Nat.zero_le _)

/-- The bytes offered to the kernel are the next ones. -/
theorem ZcInv.offered_prefix (h : ZcInv st l p) : st.offered <+: unsentOf st.heap l := by
  unfold ZcState.offered
  rw [h.send.head_eq]
  cases l with
  | nil => exact List.prefix_rfl
  | cons ref l =>
    dsimp only [List.head?_cons]
    split
    · rw [unsentOf, List.flatMap_cons]
      exact List.prefix_append ..
    · obtain ⟨m, hm⟩ := h.batch_prefix
      rw [← hm, unsentOf, List.flatMap_append]
      exact List.prefix_append ..

end Batch

/-! ### One send -/

theorem assignZerocopyId_heap (id : BitVec 32) (batch : List Nat) (st : ZcState) (r : Nat) :
    (assignZerocopyId id batch st).heap r =
      if r ∈ batch then { st.heap r with zerocopyId := id } else st.heap r := by
  unfold assignZerocopyId
  induction batch generalizing st with
  | nil => simp
  | cons ref batch ih =>
    rw [List.foldl_cons, ih]
    by_cases hr : r = ref
    · subst hr
      simp [modify_heap_self]
    · simp [modify_heap_of_ne _ _ hr, hr]

theorem assignZerocopyId_other (id : BitVec 32) (batch : List Nat) (st : ZcState) :
    (assignZerocopyId id batch st).queue = st.queue ∧ (assignZerocopyId id batch st).wire = st.wire ∧
      (assignZerocopyId id batch st).puts = st.puts := by
  unfold assignZerocopyId
  induction batch generalizing st with
  | nil => exact ⟨rfl, rfl, rfl⟩
  | cons ref batch ih => exact ih _

theorem assignZerocopyId_payload (id : BitVec 32) (batch : List Nat) (st : ZcState) (r : Nat) :
    ((assignZerocopyId id batch st).heap r).payload = (st.heap r).payload := by
  rw [assignZerocopyId_heap]
  split <;> rfl

section Send

variable {st : ZcState} {l p : List Nat} {ref n : Nat}

/-- A zero-copy send when `n` bytes of the batch were taken, before the loop over them. -/
def ZcState.sentBatch (st : ZcState) (n : Nat) : ZcState :=
  let taken := { st with
    wire := st.wire ++ (unsentOf st.heap st.batch).take n
    queue := { st.queue with nextZerocopyId := st.queue.nextZerocopyId + 1 } }
  assignZerocopyId st.queue.nextZerocopyId st.batch taken

theorem ZcInv.sentBatch (h : ZcInv st l p) (n : Nat) : ZcInv (st.sentBatch n) l p := by
  have h' : ZcInv { st with
      wire := st.wire ++ (unsentOf st.heap st.batch).take n
      queue := { st.queue with nextZerocopyId := st.queue.nextZerocopyId + 1 } } l p :=
    ⟨h.send, h.pending, h.nodup, h.numQueued, h.numPending, h.totalBytes, h.pos⟩
  refine h'.congr (assignZerocopyId_other ..).1 (fun r _ => ?_) fun r _ => assignZerocopyId_payload ..
  unfold ZcState.sentBatch ZcState.next
  rw [assignZerocopyId_heap]
  split <;> rfl

theorem ZcInv.batch_ne_nil (h : ZcInv st (ref :: l) p) (hmem : (st.heap ref).type = .memory) : st.batch ≠ [] := by
  rw [h.batch_eq, List.takeWhile_cons_of_pos (by simpa using hmem)]
  exact nofun

/-- With `MSG_ZEROCOPY` the buffers sent to their end wait in the pending queue. -/
theorem zerocopySend_zerocopy (h : ZcInv st (ref :: l) p) (hmem : (st.heap ref).type = .memory)
    (hn : n ≤ (unsentOf st.heap st.batch).length) :
    ∃ rest, fullySent st.heap (ref :: l) n ++ rest = ref :: l ∧
      Consumed (fun r => [r]) (fun _ => []) (st.sentBatch n) (fullySent st.heap (ref :: l) n) rest p n
        (zerocopySend true (.sent n) st).2.2 := by
  have hload : ∀ r, ((st.sentBatch n).heap r).payload = (st.heap r).payload :=
    fun r => assignZerocopyId_payload ..
  have hqueue : (st.sentBatch n).queue.numQueued = st.queue.numQueued := by
    unfold ZcState.sentBatch
    dsimp only
    rw [(assignZerocopyId_other ..).1]
  have hn' : n ≤ memoryBytes (st.sentBatch n).heap (ref :: l) := by
    rw [memoryBytes_congr hload]
    exact hn.trans h.length_batch_le
  have hspec := consumeSent_spec finish_moveToPending keepsBytes_resetZerocopyId (ref :: l) (h.sentBatch n)
    (Nat.le_of_eq (hqueue.trans h.numQueued).symm) hn'
  rw [fullySent_congr hload] at hspec
  have hsend : (zerocopySend true (.sent n) st).2.2 =
      consumeSent moveToPending resetZerocopyId (st.sentBatch n).queue.numQueued n (st.sentBatch n) := by
    unfold zerocopySend sendBatch
    rw [h.send.head_eq]
    simp only [List.head?_cons, hmem, reduceCtorEq, if_false, h.batch_ne_nil hmem, if_true]
    rfl
  rw [hsend]
  exact hspec

/-- Without it their references are given back. -/
theorem zerocopySend_copy (h : ZcInv st (ref :: l) p) (hmem : (st.heap ref).type = .memory)
    (hn : n ≤ (unsentOf st.heap st.batch).length) :
    ∃ rest, fullySent st.heap (ref :: l) n ++ rest = ref :: l ∧
      Consumed (fun _ => []) (fun r => [r]) { st with wire := st.wire ++ (unsentOf st.heap st.batch).take n }
        (fullySent st.heap (ref :: l) n) rest p n (zerocopySend false (.sent n) st).2.2 := by
  have h' : ZcInv { st with wire := st.wire ++ (unsentOf st.heap st.batch).take n } (ref :: l) p :=
    ⟨h.send, h.pending, h.nodup, h.numQueued, h.numPending, h.totalBytes, h.pos⟩
  have hspec := consumeSent_spec finish_bufferRefPut keepsBytes_id (ref :: l) h' (Nat.le_of_eq h.numQueued.symm)
    (hn.trans h.length_batch_le)
  have hsend : (zerocopySend false (.sent n) st).2.2 = consumeSent ZcState.bufferRefPut id st.queue.numQueued n
      { st with wire := st.wire ++ (unsentOf st.heap st.batch).take n } := by
    unfold zerocopySend sendBatch
    rw [h.send.head_eq]
    simp only [List.head?_cons, hmem, reduceCtorEq, if_false, h.batch_ne_nil hmem, Bool.false_eq_true]
    rfl
  rw [hsend]
  exact hspec

/-- The state after `n` bytes of the file at the head were sent. `l'` is the queue then and `puts` what was given
back. -/
structure FileSent (st : ZcState) (ref : Nat) (p : List Nat) (n : Nat) (l' puts : List Nat) (st' : ZcState) : Prop where
  inv : ZcInv st' l' p
  wire : st'.wire = st.wire ++ (st.heap ref).unsent.take n
  puts : st'.puts = puts ++ st.puts
  other : ∀ r ≠ ref, st'.heap r = st.heap r
  nextId : st'.queue.nextZerocopyId = st.queue.nextZerocopyId

theorem unsent_fileSent {b : SendBuffer} (hfile : b.type = .file) (n : Nat) :
    ({ b with fileSent := b.fileSent + n } : SendBuffer).unsent = b.unsent.drop n := by
  rw [SendBuffer.unsent, SendBuffer.unsent]
  simp only [hfile, drop_memoryAt]
  congr 1
  all_goals omega

theorem zerocopySend_refused (zerocopyOnSend : Bool) {kernel : SendResult}
    (hk : kernel = .eagain ∨ kernel = .enobufs ∨ kernel = .failed) (st : ZcState) : (zerocopySend zerocopyOnSend kernel st).2.2 = st := by
  unfold zerocopySend
  split
  · rfl
  · split
    · unfold sendFileHead
      rcases hk with rfl | rfl | rfl <;> rfl
    · unfold sendBatch
      dsimp only
      split
      · rfl
      · rcases hk with rfl | rfl | rfl <;> rfl

theorem zerocopySend_file (h : ZcInv st (ref :: l) p) (hfile : (st.heap ref).type = .file) (zerocopyOnSend : Bool)
    (n : Nat) :
    let st' := (zerocopySend zerocopyOnSend (.sent n) st).2.2
    FileSent st ref p n (ref :: l) [] st' ∧ (st'.heap ref).unsent = (st.heap ref).unsent.drop n ∨
      FileSent st ref p n l [ref] st' ∧ (st.heap ref).unsent.drop n = [] := by
  set sent : ZcState := ({ st with wire := st.wire ++ (st.heap ref).unsent.take n }).modify ref
    fun b => { b with fileSent := b.fileSent + n } with hsent
  have hsend : (zerocopySend zerocopyOnSend (.sent n) st).2.2 =
      if (st.heap ref).fileSent + n ≥ (st.heap ref).fileSize then (dropHead sent (st.heap ref)).bufferRefPut ref
      else sent := by
    unfold zerocopySend sendFileHead
    rw [h.send.head_eq]
    simp only [List.head?_cons, hfile, if_true]
    split <;> rfl
  have hself : sent.heap ref = { st.heap ref with fileSent := (st.heap ref).fileSent + n } := Function.update_self ..
  have hother : ∀ r ≠ ref, sent.heap r = st.heap r := fun r hr => Function.update_of_ne hr ..
  have hnext : sent.next = st.next := by
    funext r
    by_cases hr : r = ref
    · rw [hr, ZcState.next, hself, ZcState.next]
    · rw [ZcState.next, hother r hr, ZcState.next]
  have hqueued : ∀ r, (sent.heap r).queuedBytes = (st.heap r).queuedBytes := by
    intro r
    by_cases hr : r = ref
    · rw [hr, hself, SendBuffer.queuedBytes, SendBuffer.queuedBytes]
    · rw [hother r hr]
  have hinv : ZcInv sent (ref :: l) p := by
    refine ⟨?_, ?_, h.nodup, h.numQueued, h.numPending, ?_, ?_⟩
    · rw [hnext]
      exact h.send
    · rw [hnext]
      exact h.pending
    · simp only [hqueued]
      exact h.totalBytes
    · intro r hr hmem
      by_cases hrr : r = ref
      · rw [hrr, hself, hfile] at hmem
        cases hmem
      · rw [hother r hrr] at hmem ⊢
        exact h.pos r hr hmem
  have href : ref ∉ l ++ p := (List.nodup_cons.1 h.nodup).1
  dsimp only
  rw [hsend]
  split
  · next hdone =>
    have hzero : (sent.heap ref).queuedBytes = 0 := by rw [hqueued, SendBuffer.queuedBytes, hfile]
    have hdrop := hinv.dropHead
    rw [hzero, Nat.sub_zero] at hdrop
    have hlink : dropHead sent (sent.heap ref) = dropHead sent (st.heap ref) := by rw [hself]; rfl
    rw [show dropHead { sent with queue := { sent.queue with totalBytes := sent.queue.totalBytes } } (sent.heap ref) =
      dropHead sent (st.heap ref) from hlink] at hdrop
    refine .inr ⟨⟨hdrop.bufferRefPut href, ?_, ?_, ?_, ?_⟩, ?_⟩
    · rw [bufferRefPut_wire]
      rfl
    · rw [bufferRefPut_puts]
      rfl
    · exact fun r hr => (bufferRefPut_heap_of_ne _ hr).trans (hother r hr)
    · rw [bufferRefPut_queue]
      rfl
    · rw [SendBuffer.unsent, hfile]
      refine List.drop_of_length_le ?_
      rw [length_memoryAt]
      omega
  · refine .inl ⟨⟨hinv, rfl, rfl, hother, rfl⟩, ?_⟩
    rw [hself]
    exact unsent_fileSent hfile n

end Send

/-! ### Adding -/

section Add

variable {st : ZcState} {l p : List Nat} {ref : Nat}

/-- The state after a buffer that describes `bytes` was appended. -/
structure Appended (st : ZcState) (l p : List Nat) (ref : Nat) (bytes : List UInt8) (st' : ZcState) : Prop where
  inv : ZcInv st' (l ++ [ref]) p
  bytes : (st'.heap ref).unsent = bytes
  core : ∀ r ≠ ref, (st'.heap r).core = (st.heap r).core
  wire : st'.wire = st.wire
  puts : st'.puts = st.puts
  nextId : st'.queue.nextZerocopyId = st.queue.nextZerocopyId

theorem appendTail_other (st : ZcState) (ref : Nat) :
    (appendTail st ref).wire = st.wire ∧ (appendTail st ref).puts = st.puts := by
  unfold appendTail
  split <;> exact ⟨rfl, rfl⟩

theorem zerocopyQueueAdd_cases (h : ZcInv st l p) (href : ref ∉ l ++ p) :
    (zerocopyQueueAdd st ref).2 = st ∧ ((zerocopyQueueAdd st ref).1 = 0 → (st.heap ref).dataSize = 0) ∨
      (zerocopyQueueAdd st ref).1 = 0 ∧ Appended st l p ref
        (memoryAt (st.heap ref).data (st.heap ref).dataOffset (st.heap ref).dataSize) (zerocopyQueueAdd st ref).2 := by
  unfold zerocopyQueueAdd
  dsimp only
  split
  · next hzero => exact .inl ⟨rfl, fun _ => hzero⟩
  · next hsize =>
    split
    · exact .inl ⟨rfl, by simp⟩
    · refine .inr ⟨rfl, ?_⟩
      set st₁ := st.modify ref fun b => { b with
        type := .memory, iovBase := b.dataOffset, iovLen := b.dataSize, zerocopyId := 0, sendNext := none } with hst₁
      set st₂ := st₁.bufferRefGet ref with hst₂
      have hself : st₂.heap ref = { st.heap ref with
          type := .memory, iovBase := (st.heap ref).dataOffset, iovLen := (st.heap ref).dataSize, zerocopyId := 0
          sendNext := none, refcount := (st.heap ref).refcount + 1 } := by
        rw [hst₂, ZcState.bufferRefGet, modify_heap_self, hst₁, modify_heap_self]
      have hother : ∀ r ≠ ref, st₂.heap r = st.heap r := by
        intro r hr
        rw [hst₂, ZcState.bufferRefGet, modify_heap_of_ne _ _ hr, hst₁, modify_heap_of_ne _ _ hr]
      have h₂ : ZcInv st₂ l p := (h.modify href _).modify href _
      have happ := h₂.appendTail href (by rw [ZcState.next, hself])
        (by rw [hself]; exact fun _ => Nat.pos_of_ne_zero hsize)
      have hbytes : (st₂.heap ref).queuedBytes = (st.heap ref).dataSize := by rw [hself, SendBuffer.queuedBytes]
      rw [hbytes] at happ
      refine ⟨happ, ?_, fun r hr => ?_, (appendTail_other st₂ ref).1, (appendTail_other st₂ ref).2, ?_⟩
      · refine (SendBuffer.unsent_eq (SendBuffer.payload_eq (appendTail_core st₂ ref ref))).trans ?_
        rw [hself, SendBuffer.unsent]
      · exact (appendTail_core st₂ ref r).trans (by rw [hother r hr])
      · show (appendTail st₂ ref).queue.nextZerocopyId = _
        rw [appendTail_queue]
        rfl

theorem zerocopyQueueAddFile_cases (h : ZcInv st l p) {mem : Option Nat} (hmem : ∀ ref ∈ mem, ref ∉ l ++ p)
    (fileFd : Int) (file : Nat → UInt8) (fileOffset fileSize : Nat) :
    let r := zerocopyQueueAddFile st mem fileFd file fileOffset fileSize
    r.2 = st ∧ r.1 ≠ 0 ∨
      r.1 = 0 ∧ ∃ ref ∈ mem, Appended st l p ref (memoryAt file fileOffset fileSize) r.2 := by
  unfold zerocopyQueueAddFile
  dsimp only
  split
  · exact .inl ⟨rfl, by simp⟩
  · split
    · exact .inl ⟨rfl, by simp⟩
    · next ref =>
      have href := hmem ref rfl
      refine .inr ⟨rfl, ref, rfl, ?_⟩
      set st₁ := st.modify ref fun _ => {
        type := .file, fileFd, file, fileOffset, fileSize, fileSent := 0, refcount := 1, zerocopyId := 0
        sendNext := none, data := fun _ => 0, dataOffset := 0, dataSize := 0, iovBase := 0, iovLen := 0 } with hst₁
      have hother : ∀ r ≠ ref, st₁.heap r = st.heap r := fun r hr => modify_heap_of_ne _ _ hr
      have hfile : (st₁.heap ref).type = .file := by rw [hst₁, modify_heap_self]
      have h₁ : ZcInv st₁ l p := h.modify href _
      have happ := h₁.appendTail href (by rw [ZcState.next, hst₁, modify_heap_self])
        (by simp [hfile])
      have hbytes : (st₁.heap ref).queuedBytes = 0 := by rw [SendBuffer.queuedBytes, hfile]
      rw [hbytes] at happ
      refine ⟨happ, ?_, fun r hr => ?_, (appendTail_other st₁ ref).1, (appendTail_other st₁ ref).2, ?_⟩
      · refine (SendBuffer.unsent_eq (SendBuffer.payload_eq (appendTail_core st₁ ref ref))).trans ?_
        rw [hst₁, modify_heap_self, SendBuffer.unsent]
        rfl
      · exact (appendTail_core st₁ ref r).trans (by rw [hother r hr])
      · show (appendTail st₁ ref).queue.nextZerocopyId = _
        rw [appendTail_queue]
        rfl

end Add

/-! ### Runs -/

/-- The buffers of the send queue and of the pending queue, read off the links. -/
def ZcState.sendList (st : ZcState) : List Nat := walk st.next st.queue.numQueued st.queue.head

def ZcState.pendingList (st : ZcState) : List Nat := walk st.next st.queue.numPending st.queue.pendingHead

theorem ZcInv.sendList {st : ZcState} {l p : List Nat} (h : ZcInv st l p) : st.sendList = l := by
  rw [ZcState.sendList, h.numQueued, h.send.walk]

theorem ZcInv.pendingList {st : ZcState} {l p : List Nat} (h : ZcInv st l p) : st.pendingList = p := by
  rw [ZcState.pendingList, h.numPending, h.pending.walk]

/-- What happens to a queue. `touch` is the rest of the program: it changes buffers that are in neither queue. -/
inductive ZcOp where
  | touch (ref : Nat) (buf : SendBuffer) (freeList : Option Nat)
  | add (ref : Nat)
  | addFile (mem : Option Nat) (fileFd : Int) (file : Nat → UInt8) (fileOffset fileSize : Nat)
  | send (kernel : SendResult)
  | completions (ranges : List (BitVec 32 × BitVec 32)) (failed : Bool)

/-- No buffer is added that is in one of the queues, and the kernel takes no more than it is offered. -/
def ZcOp.Legal (st : ZcState) : ZcOp → Prop
  | touch ref _ _ => ref ∉ st.sendList ++ st.pendingList
  | add ref => ref ∉ st.sendList ++ st.pendingList
  | addFile (some ref) .. => ref ∉ st.sendList ++ st.pendingList
  | addFile none .. => True
  | send (.sent n) => n ≤ st.offered.length
  | send _ => True
  | completions .. => True

instance ZcOp.decidableLegal (st : ZcState) (op : ZcOp) : Decidable (op.Legal st) :=
  match op with
  | .touch ref _ _ => inferInstanceAs (Decidable (ref ∉ _))
  | .add ref => inferInstanceAs (Decidable (ref ∉ _))
  | .addFile (some ref) .. => inferInstanceAs (Decidable (ref ∉ _))
  | .addFile none .. => isTrue trivial
  | .send (.sent n) => inferInstanceAs (Decidable (n ≤ _))
  | .send .eagain => isTrue trivial
  | .send .enobufs => isTrue trivial
  | .send .failed => isTrue trivial
  | .completions .. => isTrue trivial

def ZcOp.run (zerocopyOnSend : Bool) (st : ZcState) : ZcOp → ZcState
  | touch ref buf freeList => { st.modify ref fun _ => buf with freeList }
  | add ref => (zerocopyQueueAdd st ref).2
  | addFile mem fileFd file fileOffset fileSize => (zerocopyQueueAddFile st mem fileFd file fileOffset fileSize).2
  | send kernel => (zerocopySend zerocopyOnSend kernel st).2.2
  | completions ranges failed => (zerocopyHandleCompletions zerocopyOnSend ranges failed st).2

/-- The bytes a call adds, none if it is refused. -/
def ZcOp.added (st : ZcState) : ZcOp → List UInt8
  | add ref =>
    let buf := st.heap ref
    if (zerocopyQueueAdd st ref).1 = 0 then memoryAt buf.data buf.dataOffset buf.dataSize else []
  | addFile mem fileFd file fileOffset fileSize =>
    if (zerocopyQueueAddFile st mem fileFd file fileOffset fileSize).1 = 0 then memoryAt file fileOffset fileSize else []
  | _ => []

/-- The queues of a connection and the bytes added so far. -/
structure AddedRun where
  st : ZcState
  added : List UInt8

def AddedRun.step (zerocopyOnSend : Bool) (s : AddedRun) (op : ZcOp) : AddedRun :=
  ⟨op.run zerocopyOnSend s.st, s.added ++ op.added s.st⟩

structure StreamInv (s : AddedRun) (l p : List Nat) : Prop where
  inv : ZcInv s.st l p
  stream : s.st.wire ++ unsentOf s.st.heap l = s.added

namespace StreamInv

variable {s : AddedRun} {l p : List Nat}

theorem offered_eq {st : ZcState} (h : ZcInv st l p) {ref : Nat} (hl : l.head? = some ref)
    (hmem : (st.heap ref).type = .memory) : st.offered = unsentOf st.heap st.batch := by
  unfold ZcState.offered
  rw [h.send.head_eq, hl]
  simp only [hmem, reduceCtorEq, if_false]
  rfl

/-- Appending a buffer appends its bytes. -/
theorem appended (h : StreamInv s l p) {ref : Nat} {bytes : List UInt8} {st' : ZcState}
    (ha : Appended s.st l p ref bytes st') : StreamInv ⟨st', s.added ++ bytes⟩ (l ++ [ref]) p := by
  refine ⟨ha.inv, ?_⟩
  have href : ref ∉ l := by
    have := ha.inv.nodup
    rw [List.append_assoc] at this
    exact fun hr => (List.nodup_append.1 this).2.2 ref hr ref (by simp) rfl
  have hl : unsentOf st'.heap l = unsentOf s.st.heap l :=
    unsentOf_congr fun r hr => SendBuffer.payload_eq (ha.core r (ne_of_mem_of_not_mem hr href))
  show st'.wire ++ unsentOf st'.heap (l ++ [ref]) = _
  rw [ha.wire, unsentOf, List.flatMap_append, ← unsentOf, hl, ← List.append_assoc, h.stream]
  simp [ha.bytes]

theorem same (h : StreamInv s l p) : StreamInv ⟨s.st, s.added ++ []⟩ l p := by
  rw [List.append_nil]
  exact h

/-- A send moves bytes from what the queue describes to what the kernel took. -/
theorem sent {st' : ZcState} {l' p' : List Nat} (h : StreamInv s l p) {n : Nat} (hinv : ZcInv st' l' p')
    {taken : List UInt8} (htaken : taken <+: unsentOf s.st.heap l) (hn : n ≤ taken.length)
    (hwire : st'.wire = s.st.wire ++ taken.take n)
    (hunsent : unsentOf st'.heap l' = (unsentOf s.st.heap l).drop n) :
    StreamInv ⟨st', s.added ++ []⟩ l' p' := by
  refine ⟨hinv, ?_⟩
  obtain ⟨more, hmore⟩ := htaken
  have htake : taken.take n = (unsentOf s.st.heap l).take n := by rw [← hmore, List.take_append_of_le_length hn]
  show st'.wire ++ unsentOf st'.heap l' = _
  rw [hwire, hunsent, htake, List.append_assoc, List.take_append_drop, h.stream, List.append_nil]

theorem send (h : StreamInv s l p) (zerocopyOnSend : Bool) {n : Nat} (hn : n ≤ s.st.offered.length) :
    ∃ l' p', StreamInv ⟨(zerocopySend zerocopyOnSend (.sent n) s.st).2.2, s.added ++ []⟩ l' p' := by
  cases l with
  | nil =>
    have hhead := h.inv.send.head_eq
    have : zerocopySend zerocopyOnSend (.sent n) s.st = (0, 0, s.st) := by
      unfold zerocopySend
      rw [hhead]
      rfl
    rw [this]
    exact ⟨[], p, h.same⟩
  | cons ref l =>
    have href : ref ∉ l := (List.nodup_cons.1 (List.nodup_append.1 h.inv.nodup).1).1
    have hcons : ∀ heap, unsentOf heap (ref :: l) = (heap ref).unsent ++ unsentOf heap l := fun _ => rfl
    have hprefix := h.inv.offered_prefix
    by_cases hfile : (s.st.heap ref).type = .file
    · have hoffered : s.st.offered = (s.st.heap ref).unsent := by
        unfold ZcState.offered
        rw [h.inv.send.head_eq]
        simp only [List.head?_cons, hfile, if_true]
      rw [hoffered] at hn hprefix
      have hdrop : (unsentOf s.st.heap (ref :: l)).drop n =
          (s.st.heap ref).unsent.drop n ++ unsentOf s.st.heap l := by
        rw [hcons, List.drop_append_of_le_length hn]
      have hrest : ∀ {l' puts st'}, FileSent s.st ref p n l' puts st' →
          unsentOf st'.heap l = unsentOf s.st.heap l := fun hf =>
        unsentOf_congr fun r hr => by rw [hf.other r (ne_of_mem_of_not_mem hr href)]
      rcases zerocopySend_file h.inv hfile zerocopyOnSend n with ⟨hf, hunsent⟩ | ⟨hf, hunsent⟩
      · refine ⟨ref :: l, p, h.sent hf.inv hprefix hn hf.wire ?_⟩
        rw [hdrop, hcons, hrest hf, hunsent]
      · refine ⟨l, p, h.sent hf.inv hprefix hn hf.wire ?_⟩
        rw [hdrop, hrest hf, hunsent, List.nil_append]
    · have hmem : (s.st.heap ref).type = .memory := by
        cases htype : (s.st.heap ref).type with
        | memory => rfl
        | file => exact absurd htype hfile
      rw [offered_eq h.inv List.head?_cons hmem] at hn hprefix
      cases zerocopyOnSend with
      | true =>
        obtain ⟨rest, hrest, hc⟩ := zerocopySend_zerocopy h.inv hmem hn
        refine ⟨rest, _, h.sent hc.inv hprefix hn (hc.wire.trans (assignZerocopyId_other ..).2.1) ?_⟩
        rw [hc.unsent, hrest]
        exact congrArg _ (unsentOf_congr fun r _ => assignZerocopyId_payload ..)
      | false =>
        obtain ⟨rest, hrest, hc⟩ := zerocopySend_copy h.inv hmem hn
        refine ⟨rest, _, h.sent hc.inv hprefix hn hc.wire ?_⟩
        rw [hc.unsent, hrest]

theorem completeRanges {ranges : List (BitVec 32 × BitVec 32)} :
    ∀ {st : ZcState} {p : List Nat}, StreamInv ⟨st, s.added⟩ l p →
      ∃ p', StreamInv ⟨(completeRanges ranges st).2, s.added⟩ l p' := by
  induction ranges with
  | nil => exact fun {st p} h => ⟨p, h⟩
  | cons range ranges ih =>
    intro st p h
    have hrel := (completeRange_spec h.inv range.1 range.2).1
    refine ih ⟨hrel.inv, ?_⟩
    refine Eq.trans ?_ h.stream
    exact congrArg₂ _ hrel.wire (unsentOf_congr fun r _ => SendBuffer.payload_eq (hrel.core r))

theorem touch (h : StreamInv s l p) {ref : Nat} (href : ref ∉ l ++ p) (buf : SendBuffer) (freeList : Option Nat) :
    StreamInv ⟨{ s.st.modify ref fun _ => buf with freeList }, s.added ++ []⟩ l p := by
  have hinv := h.inv.modify href fun _ => buf
  refine ⟨⟨hinv.send, hinv.pending, hinv.nodup, hinv.numQueued, hinv.numPending, hinv.totalBytes, hinv.pos⟩, ?_⟩
  rw [List.append_nil, ← h.stream]
  refine congrArg _ (unsentOf_congr fun r hr => ?_)
  have hne := ne_of_mem_of_not_mem (List.mem_append_left p hr) href
  exact congrArg SendBuffer.payload (modify_heap_of_ne s.st (fun _ => buf) hne)

theorem step (h : StreamInv s l p) (zerocopyOnSend : Bool) {op : ZcOp} (hop : op.Legal s.st) :
    ∃ l' p', StreamInv (s.step zerocopyOnSend op) l' p' := by
  have hlists : s.st.sendList ++ s.st.pendingList = l ++ p := by rw [h.inv.sendList, h.inv.pendingList]
  unfold AddedRun.step
  cases op with
  | touch ref buf freeList =>
    have href : ref ∉ l ++ p := by rwa [← hlists]
    exact ⟨l, p, h.touch href buf freeList⟩
  | add ref =>
    have href : ref ∉ l ++ p := by rwa [← hlists]
    rcases zerocopyQueueAdd_cases h.inv href with ⟨hst, hzero⟩ | ⟨hret, ha⟩
    · have hadded : (ZcOp.add ref).added s.st = [] := by
        unfold ZcOp.added
        dsimp only
        split
        · next hret => rw [hzero hret]; rfl
        · rfl
      rw [ZcOp.run, hst, hadded]
      exact ⟨l, p, h.same⟩
    · rw [ZcOp.added, if_pos hret]
      exact ⟨_, p, h.appended ha⟩
  | addFile mem fileFd file fileOffset fileSize =>
    have hmem : ∀ ref ∈ mem, ref ∉ l ++ p := by
      rintro ref hr
      rw [Option.mem_def.1 hr] at hop
      rwa [← hlists]
    rcases zerocopyQueueAddFile_cases h.inv hmem fileFd file fileOffset fileSize with ⟨hst, hret⟩ | ⟨hret, ref, -, ha⟩
    · rw [ZcOp.run, hst, ZcOp.added, if_neg hret]
      exact ⟨l, p, h.same⟩
    · rw [ZcOp.added, if_pos hret]
      exact ⟨_, p, h.appended ha⟩
  | send kernel =>
    cases kernel with
    | sent n => exact h.send zerocopyOnSend hop
    | eagain | enobufs | failed =>
      rw [ZcOp.run, zerocopySend_refused]
      · exact ⟨l, p, h.same⟩
      · simp
  | completions ranges failed =>
    rw [ZcOp.run, zerocopyHandleCompletions]
    split
    · exact ⟨l, p, h.same⟩
    · obtain ⟨p', h'⟩ := @completeRanges s l ranges _ _ h
      exact ⟨l, p', h'.same⟩

end StreamInv

/-- The state of a connection whose queue was initialised. -/
def ZcState.init (heap : Nat → SendBuffer) (freeList : Option Nat) : ZcState :=
  ⟨heap, zerocopyQueueInit, freeList, [], []⟩

theorem zcInv_init (heap : Nat → SendBuffer) (freeList : Option Nat) : ZcInv (.init heap freeList) [] [] :=
  ⟨.nil, .nil, List.nodup_nil, rfl, rfl, rfl, nofun⟩

/-- The bytes the kernel took and those the queue still describes are the bytes added, in order, and what a send
offers are the next of them. -/
theorem zerocopy_stream (zerocopyOnSend : Bool) (heap : Nat → SendBuffer) (freeList : Option Nat) {ops : List ZcOp}
    (hops : Run.Meets (AddedRun.step zerocopyOnSend) (fun s op => op.Legal s.st) ⟨.init heap freeList, []⟩ ops) :
    let s := ops.foldl (AddedRun.step zerocopyOnSend) ⟨.init heap freeList, []⟩
    IsQueue s.st.next s.st.queue.head s.st.queue.tail s.st.sendList ∧
      s.st.wire ++ unsentOf s.st.heap s.st.sendList = s.added ∧
      s.st.wire ++ s.st.offered <+: s.added ∧
      s.st.queue.numQueued = s.st.sendList.length ∧
      s.st.queue.totalBytes =
        ((s.st.sendList.filter fun r => (s.st.heap r).type = .memory).map fun r => (s.st.heap r).iovLen).sum := by
  intro s
  obtain ⟨l, p, h⟩ : ∃ l p, StreamInv s l p :=
    @Run.Meets.invariant _ _ _ _ _ _ (fun _ s => ∃ l p, StreamInv s l p)
      (fun _ _ _ hop ⟨_, _, hs⟩ => hs.step zerocopyOnSend hop) []
      ⟨[], [], zcInv_init heap freeList, rfl⟩ hops
  rw [h.inv.sendList]
  refine ⟨h.inv.send, h.stream, ?_, h.inv.numQueued, ?_⟩
  · rw [← h.stream]
    exact (List.prefix_append_right_inj _).2 h.inv.offered_prefix
  · rw [h.inv.totalBytes]
    clear h hops
    induction l with
    | nil => rfl
    | cons r l ih =>
      rw [List.map_cons, List.sum_cons, ih, SendBuffer.queuedBytes]
      cases htype : (s.st.heap r).type <;> simp [htype]

/-- Two buffers around a file, with sends that end inside the first buffer, inside the file and at an end. -/
theorem zerocopy_stream_partial :
    let heap : Nat → SendBuffer := fun r => {
      type := .memory, data := fun i => UInt8.ofNat (10 * r + i), dataOffset := 1, dataSize := 3, iovBase := 0
      iovLen := 0, fileFd := 0, file := fun _ => 0, fileOffset := 0, fileSize := 0, fileSent := 0, refcount := 1
      sendNext := none, zerocopyId := 0 }
    let ops : List ZcOp := [.add 1, .addFile (some 7) 5 (fun i => UInt8.ofNat (100 + i)) 0 2, .add 2, .send (.sent 2),
      .send .eagain, .send (.sent 1), .send (.sent 1), .completions [(0, 0)] false, .send (.sent 1), .send (.sent 2)]
    let s := ops.foldl (AddedRun.step true) ⟨.init heap none, []⟩
    s.added = [11, 12, 13, 100, 101, 21, 22, 23] ∧ s.st.wire ++ unsentOf s.st.heap s.st.sendList = s.added ∧
      s.st.queue.numQueued = s.st.sendList.length := by
  intro heap ops
  have h := @zerocopy_stream true heap none ops (by decide +kernel)
  exact ⟨by decide +kernel, h.2.1, h.2.2.2.1⟩

end Rtp2httpd
