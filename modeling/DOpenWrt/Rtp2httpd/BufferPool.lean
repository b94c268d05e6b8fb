import DOpenWrt.Lib.Run

/-!
# The buffer pool

`buffer_pool.c`. Buffers are carved out of segments, a reference count says how many holders a buffer has,
and the buffers without one are linked into the free list of their pool. The addresses a new segment gets
from the allocator are an input of the functions that allocate, absent when the allocation fails.
-/

namespace Rtp2httpd

/-- Entry `index` of the array `refs` of the segment at the address `segment`. -/
structure PoolRef where
  segment : Nat
  index : Nat
  data : Nat
deriving DecidableEq, Repr

structure BufferPoolSegment where
  addr : Nat
  buffers : Nat
  numBuffers : Nat
  numFree : Nat
deriving DecidableEq, Repr

structure BufferPool where
  segments : List BufferPoolSegment
  freeList : List PoolRef
  refcount : PoolRef → Int
  bufferSize : Nat
  numBuffers : Nat
  numFree : Nat
  maxBuffers : Nat
  expandSize : Nat
  lowWatermark : Nat
  highWatermark : Nat

/-- What `malloc` returns for the segment record and `posix_memalign` for its buffers. -/
structure SegmentMemory where
  addr : Nat
  buffers : Nat
deriving DecidableEq, Repr

/-! ### Segments -/

/-- `&segment->refs[i]` as `buffer_pool_segment_create` fills it in. -/
def SegmentMemory.ref (m : SegmentMemory) (bufferSize i : Nat) : PoolRef := ⟨m.addr, i, m.buffers + i * bufferSize⟩

def linkRef (m : SegmentMemory) (bufferSize : Nat) (pool : BufferPool) (i : Nat) : BufferPool :=
  let ref := m.ref bufferSize i
  { pool with refcount := Function.update pool.refcount ref 0, freeList := ref :: pool.freeList }

def bufferPoolSegmentCreate (mem : Option SegmentMemory) (bufferSize numBuffers : Nat) (pool : BufferPool) :
    Option (BufferPoolSegment × BufferPool) :=
  mem.map fun m => (⟨m.addr, m.buffers, numBuffers, numBuffers⟩,
    (List.range numBuffers).foldl (linkRef m bufferSize) pool)

def bufferPoolInit (mem : Option SegmentMemory)
    (bufferSize initialBuffers maxBuffers expandSize lowWatermark highWatermark : Nat) : Option BufferPool :=
  let pool : BufferPool := {
    segments := [], freeList := [], refcount := fun _ => 0, numBuffers := 0, numFree := 0
    bufferSize, maxBuffers, expandSize, lowWatermark, highWatermark }
  (bufferPoolSegmentCreate mem bufferSize initialBuffers pool).map fun (segment, pool) =>
    { pool with segments := [segment], numBuffers := initialBuffers, numFree := initialBuffers }

def buffersToAdd (pool : BufferPool) : Nat :=
  if pool.numBuffers + pool.expandSize > pool.maxBuffers then pool.maxBuffers - pool.numBuffers else pool.expandSize

/-- No pool for the result -1, which leaves the pool as it was. -/
def bufferPoolExpand (mem : Option SegmentMemory) (pool : BufferPool) : Option BufferPool :=
  if pool.numBuffers ≥ pool.maxBuffers then none
  else (bufferPoolSegmentCreate mem pool.bufferSize (buffersToAdd pool) pool).map fun (segment, new) =>
    { new with
      segments := segment :: new.segments
      numBuffers := new.numBuffers + buffersToAdd pool
      numFree := new.numFree + buffersToAdd pool }

/-- `ref->segment->num_free` changed by `f`. -/
def BufferPool.modifyNumFree (pool : BufferPool) (ref : PoolRef) (f : Nat → Nat) : BufferPool :=
  { pool with
    segments := pool.segments.map fun seg => if seg.addr = ref.segment then { seg with numFree := f seg.numFree } else seg }

/-! ### References -/

def bufferRefGet (pool : BufferPool) (ref : PoolRef) : BufferPool :=
  { pool with refcount := Function.update pool.refcount ref (pool.refcount ref + 1) }

def bufferRefPut (pool : BufferPool) (ref : PoolRef) : BufferPool :=
  let pool := { pool with refcount := Function.update pool.refcount ref (pool.refcount ref - 1) }
  if pool.refcount ref ≤ 0 then
    let pool := pool.modifyNumFree ref (· + 1)
    { pool with freeList := ref :: pool.freeList, numFree := pool.numFree + 1 }
  else pool

/-- The second half of `buffer_pool_alloc_from`. -/
def popFree (pool : BufferPool) : Option PoolRef × BufferPool :=
  match pool.freeList with
  | [] => (none, pool)
  | ref :: rest =>
    let pool := { pool with freeList := rest, numFree := pool.numFree - 1 }
    let pool := pool.modifyNumFree ref (· - 1)
    (some ref, { pool with refcount := Function.update pool.refcount ref 1 })

def bufferPoolAllocFrom (mem : Option SegmentMemory) (pool : BufferPool) : Option PoolRef × BufferPool :=
  match pool.freeList with
  | [] =>
    match bufferPoolExpand mem pool with
    | none => (none, pool)
    | some pool => popFree pool
  | _ :: _ =>
    if pool.numFree ≤ pool.lowWatermark ∧ pool.numBuffers < pool.maxBuffers then
      -- a proactive expansion that fails is ignored
      popFree ((bufferPoolExpand mem pool).getD pool)
    else popFree pool

/-! ### Shrinking -/

/-- The free list without the buffers in the address range, and how many were removed. -/
def unlinkFree (segStart segEnd : Nat) : List PoolRef → List PoolRef × Nat
  | [] => ([], 0)
  | ref :: rest =>
    let (kept, removedCount) := unlinkFree segStart segEnd rest
    if ref.data ≥ segStart ∧ ref.data < segEnd then (kept, removedCount + 1) else (ref :: kept, removedCount)

/-- The body of the loop for a segment that is freed, `before` and `after` being its neighbours. -/
def freeSegment (before : List BufferPoolSegment) (seg : BufferPoolSegment) (after : List BufferPoolSegment)
    (pool : BufferPool) : BufferPool :=
  let (freeList, removedCount) := unlinkFree seg.buffers (seg.buffers + seg.numBuffers * pool.bufferSize) pool.freeList
  { pool with
    freeList, segments := before ++ after
    numBuffers := pool.numBuffers - seg.numBuffers
    numFree := pool.numFree - removedCount }

/-- The loop over the segments, `before` being those already passed and kept. -/
def shrinkLoop (minBuffers : Nat) (before : List BufferPoolSegment) :
    List BufferPoolSegment → BufferPool → BufferPool
  | [], pool => pool
  | seg :: next, pool =>
    if seg.numFree = seg.numBuffers ∧ pool.numBuffers - seg.numBuffers ≥ minBuffers then
      let pool := freeSegment before seg next pool
      if pool.numFree ≤ pool.highWatermark then pool else shrinkLoop minBuffers before next pool
    else shrinkLoop minBuffers (before ++ [seg]) next pool

def bufferPoolTryShrinkPool (pool : BufferPool) (minBuffers : Nat) : BufferPool :=
  if pool.numFree ≤ pool.highWatermark ∨ pool.numBuffers ≤ minBuffers then pool
  else shrinkLoop minBuffers [] pool.segments pool

end Rtp2httpd
