import DOpenWrt.Lib.LinkQueue
import DOpenWrt.Rtp2httpd.Rtp

/-!
# The zero-copy send queue

`zerocopy.c`. A connection has two queues of buffers, those to send and those the kernel still reads after a
`MSG_ZEROCOPY` send, both linked by `send_next`. The answer of the kernel to a send is an input. `wire` records
the bytes the kernel took and `puts` the references the queue gave back, the newest first.
-/

namespace Rtp2httpd

def zerocopyMaxIovecs : Nat := 64

inductive BufferType where
  | memory
  | file
deriving DecidableEq, Repr

/-- A `buffer_ref_t`. `data` is the memory the pointer of that name shows, `file` the content behind `file_fd`. -/
structure SendBuffer where
  type : BufferType
  data : Nat → UInt8
  dataOffset : Nat
  dataSize : Nat
  iovBase : Nat
  iovLen : Nat
  fileFd : Int
  file : Nat → UInt8
  fileOffset : Nat
  fileSize : Nat
  fileSent : Nat
  refcount : Int
  sendNext : Option Nat
  zerocopyId : BitVec 32

structure ZerocopyQueue where
  head : Option Nat
  tail : Option Nat
  pendingHead : Option Nat
  pendingTail : Option Nat
  totalBytes : Nat
  numQueued : Nat
  numPending : Nat
  nextZerocopyId : BitVec 32
  lastCompletedId : BitVec 32
deriving Repr

def zerocopyQueueInit : ZerocopyQueue := ⟨none, none, none, none, 0, 0, 0, 0, 0⟩

structure ZcState where
  heap : Nat → SendBuffer
  queue : ZerocopyQueue
  /-- The head of the free list of the pool, which shares the link field. -/
  freeList : Option Nat
  wire : List UInt8
  puts : List Nat

def ZcState.modify (st : ZcState) (ref : Nat) (f : SendBuffer → SendBuffer) : ZcState :=
  { st with heap := Function.update st.heap ref (f (st.heap ref)) }

/-! ### References -/

def ZcState.bufferRefGet (st : ZcState) (ref : Nat) : ZcState :=
  st.modify ref fun b => { b with refcount := b.refcount + 1 }

/-- A file is closed and freed with its last reference, a buffer of a pool linked into the free list. -/
def ZcState.bufferRefPut (st : ZcState) (ref : Nat) : ZcState :=
  let st := st.modify ref fun b => { b with refcount := b.refcount - 1 }
  let st := { st with puts := ref :: st.puts }
  if (st.heap ref).refcount ≤ 0 ∧ (st.heap ref).type = .memory then
    { st.modify ref fun b => { b with sendNext := st.freeList } with freeList := some ref }
  else st

/-! ### Adding -/

/-- "Add to queue", in both functions that add. -/
def appendTail (st : ZcState) (ref : Nat) : ZcState :=
  match st.queue.tail with
  | some tail =>
    { st.modify tail fun b => { b with sendNext := some ref } with queue := { st.queue with tail := some ref } }
  | none => { st with queue := { st.queue with head := some ref, tail := some ref } }

def zerocopyQueueAdd (st : ZcState) (ref : Nat) : Int × ZcState :=
  let buf := st.heap ref
  if buf.dataSize = 0 then (0, st)
  else if buf.dataOffset > bufferPoolBufferSize ∨ buf.dataSize > bufferPoolBufferSize - buf.dataOffset then (-1, st)
  else
    let st := st.modify ref fun b => { b with
      type := .memory, iovBase := b.dataOffset, iovLen := b.dataSize, zerocopyId := 0, sendNext := none }
    let st := appendTail (st.bufferRefGet ref) ref
    (0, { st with queue := { st.queue with
      totalBytes := st.queue.totalBytes + buf.dataSize, numQueued := st.queue.numQueued + 1 } })

/-- `mem` is the address `calloc` returns. -/
def zerocopyQueueAddFile (st : ZcState) (mem : Option Nat) (fileFd : Int) (file : Nat → UInt8)
    (fileOffset fileSize : Nat) : Int × ZcState :=
  if fileFd < 0 ∨ fileSize = 0 then (-1, st)
  else match mem with
    | none => (-1, st)
    | some ref =>
      let st := st.modify ref fun _ => {
        type := .file, fileFd, file, fileOffset, fileSize, fileSent := 0, refcount := 1, zerocopyId := 0
        sendNext := none, data := fun _ => 0, dataOffset := 0, dataSize := 0, iovBase := 0, iovLen := 0 }
      let st := appendTail st ref
      (0, { st with queue := { st.queue with numQueued := st.queue.numQueued + 1 } })

/-! ### Sending -/

/-- The `n` bytes from `base` on. -/
def memoryAt (mem : Nat → UInt8) (base n : Nat) : List UInt8 := (List.range n).map fun i => mem (base + i)

/-- What a queued buffer still describes. -/
def SendBuffer.unsent (b : SendBuffer) : List UInt8 :=
  match b.type with
  | .memory => memoryAt b.data b.iovBase b.iovLen
  | .file => memoryAt b.file (b.fileOffset + b.fileSent) (b.fileSize - b.fileSent)

/-- What `sendmsg` or `sendfile` returns: a number of bytes or an error. -/
inductive SendResult where
  | sent (n : Nat)
  | eagain
  | enobufs
  | failed
deriving DecidableEq, Repr

/-- The buffers of the iovec array. -/
def gatherIovecs (heap : Nat → SendBuffer) : Nat → Option Nat → List Nat
  | 0, _ => []
  | _ + 1, none => []
  | n + 1, some ref =>
    if (heap ref).type = .memory then ref :: gatherIovecs heap n (heap ref).sendNext else []

def ZcState.batch (st : ZcState) : List Nat := gatherIovecs st.heap zerocopyMaxIovecs st.queue.head

/-- The queue without the buffer at its head. -/
def dropHead (st : ZcState) (buf : SendBuffer) : ZcState :=
  { st with queue := { st.queue with
    head := buf.sendNext
    tail := if buf.sendNext.isNone then none else st.queue.tail
    numQueued := st.queue.numQueued - 1 } }

/-- The loop over the sent bytes. `finish` is what is done with a buffer sent to its end, `split` what a partial
send changes besides the iovec. -/
def consumeSent (finish : ZcState → Nat → ZcState) (split : SendBuffer → SendBuffer) :
    Nat → Nat → ZcState → ZcState
  | 0, _, st => st
  | fuel + 1, remaining, st =>
    if remaining = 0 then st
    else match st.queue.head with
      | none => st
      | some current =>
        let buf := st.heap current
        if buf.type ≠ .memory then st
        else if buf.iovLen ≤ remaining then
          let st := { st with queue := { st.queue with totalBytes := st.queue.totalBytes - buf.iovLen } }
          consumeSent finish split fuel (remaining - buf.iovLen) (finish (dropHead st buf) current)
        else
          let st := st.modify current fun b =>
            split { b with iovBase := b.iovBase + remaining, iovLen := b.iovLen - remaining }
          { st with queue := { st.queue with totalBytes := st.queue.totalBytes - remaining } }

/-- "Add to pending completion queue". -/
def moveToPending (st : ZcState) (ref : Nat) : ZcState :=
  let st := st.modify ref fun b => { b with sendNext := none }
  let st := match st.queue.pendingTail with
    | some tail =>
      { st.modify tail fun b => { b with sendNext := some ref } with
        queue := { st.queue with pendingTail := some ref } }
    | none => { st with queue := { st.queue with pendingHead := some ref, pendingTail := some ref } }
  { st with queue := { st.queue with numPending := st.queue.numPending + 1 } }

def resetZerocopyId (b : SendBuffer) : SendBuffer := { b with zerocopyId := 0 }

/-- `buffers[i]->zerocopy_id = zerocopy_id` for every iovec. -/
def assignZerocopyId (id : BitVec 32) (batch : List Nat) (st : ZcState) : ZcState :=
  batch.foldl (fun st ref => st.modify ref fun b => { b with zerocopyId := id }) st

def sendFileHead (kernel : SendResult) (head : Nat) (st : ZcState) : Int × Nat × ZcState :=
  let file := st.heap head
  match kernel with
  | .eagain => (-2, 0, st)
  | .enobufs | .failed => (-1, 0, st)
  | .sent n =>
    let st := { st with wire := st.wire ++ file.unsent.take n }
    let st := st.modify head fun b => { b with fileSent := b.fileSent + n }
    if file.fileSent + n ≥ file.fileSize then (0, n, (dropHead st file).bufferRefPut head) else (0, n, st)

def sendBatch (zerocopyOnSend : Bool) (kernel : SendResult) (st : ZcState) : Int × Nat × ZcState :=
  let batch := st.batch
  if batch = [] then (0, 0, st)
  else match kernel with
    | .eagain | .enobufs => (-2, 0, st)
    | .failed => (-1, 0, st)
    | .sent n =>
      let st := { st with wire := st.wire ++ (batch.flatMap fun ref => (st.heap ref).unsent).take n }
      -- the loops pop one buffer a round, so that the length of the queue bounds them
      if zerocopyOnSend then
        let id := st.queue.nextZerocopyId
        let st := { st with queue := { st.queue with nextZerocopyId := id + 1 } }
        let st := assignZerocopyId id batch st
        (0, n, consumeSent moveToPending resetZerocopyId st.queue.numQueued n st)
      else (0, n, consumeSent ZcState.bufferRefPut id st.queue.numQueued n st)

/-- The return value, `bytes_sent` and the state after it. -/
def zerocopySend (zerocopyOnSend : Bool) (kernel : SendResult) (st : ZcState) : Int × Nat × ZcState :=
  match st.queue.head with
  | none => (0, 0, st)
  | some head =>
    if (st.heap head).type = .file then sendFileHead kernel head st else sendBatch zerocopyOnSend kernel st

/-- The bytes `zerocopy_send` offers to the kernel. -/
def ZcState.offered (st : ZcState) : List UInt8 :=
  match st.queue.head with
  | none => []
  | some head =>
    if (st.heap head).type = .file then (st.heap head).unsent
    else st.batch.flatMap fun ref => (st.heap ref).unsent

/-! ### Completions -/

/-- The range of a notification, around the end of the 32 bits if `lo` is above `hi`. -/
def idCompleted (lo hi id : BitVec 32) : Bool :=
  if lo ≤ hi then decide (lo ≤ id ∧ id ≤ hi) else decide (lo ≤ id ∨ id ≤ hi)

/-- "Remove from pending queue" the buffer `buf`, found behind `prev`. -/
def unlinkPending (prev : Option Nat) (buf : Nat) (st : ZcState) : ZcState :=
  let next := (st.heap buf).sendNext
  let st := match prev with
    | some prev => st.modify prev fun b => { b with sendNext := next }
    | none => { st with queue := { st.queue with pendingHead := next } }
  { st with queue := { st.queue with
    pendingTail := if some buf = st.queue.pendingTail then prev else st.queue.pendingTail
    numPending := st.queue.numPending - 1 } }

/-- The loop over the pending buffers: how many were completed, and the state. -/
def scanPending (lo hi : BitVec 32) : Nat → Option Nat → Option Nat → ZcState → Nat × ZcState
  | 0, _, _, st => (0, st)
  | _ + 1, _, none, st => (0, st)
  | fuel + 1, prev, some buf, st =>
    let next := (st.heap buf).sendNext
    if idCompleted lo hi (st.heap buf).zerocopyId then
      let (completions, st) := scanPending lo hi fuel prev next ((unlinkPending prev buf st).bufferRefPut buf)
      (completions + 1, st)
    else scanPending lo hi fuel (some buf) next st

/-- One notification of the error queue. -/
def completeRange (lo hi : BitVec 32) (st : ZcState) : Nat × ZcState :=
  let st := { st with queue := { st.queue with lastCompletedId := hi } }
  scanPending lo hi st.queue.numPending none st.queue.pendingHead st

def completeRanges : List (BitVec 32 × BitVec 32) → ZcState → Nat × ZcState
  | [], st => (0, st)
  | (lo, hi) :: ranges, st =>
    let (completions, st) := completeRange lo hi st
    let (more, st) := completeRanges ranges st
    (completions + more, st)

/-- The notifications `recvmsg` reads one after the other, until there is none left or it fails. -/
def zerocopyHandleCompletions (zerocopyOnSend : Bool) (ranges : List (BitVec 32 × BitVec 32)) (failed : Bool)
    (st : ZcState) : Int × ZcState :=
  if ¬ zerocopyOnSend then (0, st)
  else
    let (completions, st) := completeRanges ranges st
    (if failed then -1 else completions, st)

end Rtp2httpd
