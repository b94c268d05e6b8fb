import DOpenWrt.Rtp2httpd.BufferPool

/-!
# Invariant of the buffer pool

`held ref` is the number of references to a buffer that were handed out and not given back. `PoolInv` relates
it to the free list, the reference counts and the counters of the pool and of its segments, and every function
of the pool preserves it.
-/

namespace Rtp2httpd

def BufferPoolSegment.refs (seg : BufferPoolSegment) (bufferSize : Nat) : List PoolRef :=
  (List.range seg.numBuffers).map ((SegmentMemory.mk seg.addr seg.buffers).ref bufferSize)

def BufferPool.refs (pool : BufferPool) : List PoolRef := pool.segments.flatMap (·.refs pool.bufferSize)

/-- Two segments that share neither their record nor any byte of their buffers. -/
def BufferPoolSegment.Apart (bufferSize : Nat) (a b : BufferPoolSegment) : Prop :=
  a.addr ≠ b.addr ∧ (a.buffers + a.numBuffers * bufferSize ≤ b.buffers ∨ b.buffers + b.numBuffers * bufferSize ≤ a.buffers)

instance (bufferSize : Nat) (a b : BufferPoolSegment) : Decidable (a.Apart bufferSize b) :=
  inferInstanceAs (Decidable (_ ∧ _))

/-- The allocator returns memory that is not in use: a segment of `numBuffers` buffers there overlaps none of
the pool. -/
def SegmentMemory.Unused (m : SegmentMemory) (pool : BufferPool) (numBuffers : Nat) : Prop :=
  ∀ seg ∈ pool.segments, BufferPoolSegment.Apart pool.bufferSize ⟨m.addr, m.buffers, numBuffers, numBuffers⟩ seg

instance (m : SegmentMemory) (pool : BufferPool) (numBuffers : Nat) : Decidable (m.Unused pool numBuffers) :=
  inferInstanceAs (Decidable (∀ seg ∈ pool.segments, _))

/-- How many buffers of the list lie in the segment at `addr`. -/
def countIn (addr : Nat) (l : List PoolRef) : Nat := l.countP (·.segment = addr)

structure PoolInv (pool : BufferPool) (held : PoolRef → Nat) : Prop where
  size : 0 < pool.bufferSize
  apart : pool.segments.Pairwise (BufferPoolSegment.Apart pool.bufferSize)
  nodup : pool.freeList.Nodup
  /-- The free list is what nobody holds. -/
  free : ∀ ref, ref ∈ pool.freeList ↔ ref ∈ pool.refs ∧ held ref = 0
  live : ∀ ref, 0 < held ref → ref ∈ pool.refs
  refcount : ∀ ref ∈ pool.refs, pool.refcount ref = held ref
  numFree : pool.numFree = pool.freeList.length
  segFree : ∀ seg ∈ pool.segments, seg.numFree = countIn seg.addr pool.freeList
  numBuffers : pool.numBuffers = (pool.segments.map (·.numBuffers)).sum
  bound : pool.numBuffers ≤ pool.maxBuffers

/-! ### Buffers of a segment -/

section Segment

variable {seg : BufferPoolSegment} {bufferSize : Nat} {ref : PoolRef}

theorem BufferPoolSegment.mem_refs :
    ref ∈ seg.refs bufferSize ↔
      ref.segment = seg.addr ∧ ref.index < seg.numBuffers ∧ ref.data = seg.buffers + ref.index * bufferSize := by
  simp only [BufferPoolSegment.refs, List.mem_map, List.mem_range, SegmentMemory.ref]
  constructor
  · rintro ⟨i, hi, rfl⟩
    exact ⟨rfl, hi, rfl⟩
  · rintro ⟨hseg, hi, hdata⟩
    exact ⟨ref.index, hi, by rw [← hseg, ← hdata]⟩

theorem BufferPoolSegment.nodup_refs : (seg.refs bufferSize).Nodup :=
  List.nodup_range.map fun _ _ h => congrArg PoolRef.index h

theorem BufferPoolSegment.length_refs : (seg.refs bufferSize).length = seg.numBuffers := by
  simp [BufferPoolSegment.refs]

/-- The bytes of a buffer of the segment lie in its block. -/
theorem BufferPoolSegment.block_of_mem (h : ref ∈ seg.refs bufferSize) :
    seg.buffers ≤ ref.data ∧ ref.data + bufferSize ≤ seg.buffers + seg.numBuffers * bufferSize := by
  obtain ⟨-, hi, hdata⟩ := mem_refs.1 h
  have : (ref.index + 1) * bufferSize ≤ seg.numBuffers * bufferSize := Nat.mul_le_mul_right _ hi
  rw [Nat.add_mul, Nat.one_mul] at this
  omega

instance : Std.Symm (BufferPoolSegment.Apart bufferSize) := ⟨fun _ _ h => ⟨h.1.symm, h.2.symm⟩⟩

theorem BufferPool.mem_refs {pool : BufferPool} :
    ref ∈ pool.refs ↔ ∃ seg ∈ pool.segments, ref ∈ seg.refs pool.bufferSize := List.mem_flatMap

end Segment

namespace PoolInv

variable {pool : BufferPool} {held : PoolRef → Nat}

/-- A buffer belongs to the segment its pointer names. -/
theorem mem_refs_of_addr (h : PoolInv pool held) {seg : BufferPoolSegment} (hseg : seg ∈ pool.segments)
    {ref : PoolRef} (href : ref ∈ pool.refs) : ref ∈ seg.refs pool.bufferSize ↔ ref.segment = seg.addr := by
  constructor
  · exact fun hr => (BufferPoolSegment.mem_refs.1 hr).1
  · intro haddr
    obtain ⟨seg', hseg', hr⟩ := BufferPool.mem_refs.1 href
    have heq : seg'.addr = seg.addr := (BufferPoolSegment.mem_refs.1 hr).1.symm.trans haddr
    by_cases hss : seg' = seg
    · exact hss ▸ hr
    · exact absurd heq (h.apart.forall hseg' hseg hss).1

/-- Two buffers of the pool do not overlap. -/
theorem data_disjoint (h : PoolInv pool held) {a b : PoolRef} (ha : a ∈ pool.refs) (hb : b ∈ pool.refs)
    (hab : a ≠ b) : a.data + pool.bufferSize ≤ b.data ∨ b.data + pool.bufferSize ≤ a.data := by
  obtain ⟨s, hs, has⟩ := BufferPool.mem_refs.1 ha
  obtain ⟨t, ht, hbt⟩ := BufferPool.mem_refs.1 hb
  by_cases hst : s = t
  · subst hst
    obtain ⟨ha1, ha2, ha3⟩ := BufferPoolSegment.mem_refs.1 has
    obtain ⟨hb1, hb2, hb3⟩ := BufferPoolSegment.mem_refs.1 hbt
    have hidx : a.index ≠ b.index := by
      intro hi
      refine hab ?_
      cases a
      cases b
      simp_all
    rcases Nat.lt_or_gt_of_ne hidx with hlt | hlt
    · have : (a.index + 1) * pool.bufferSize ≤ b.index * pool.bufferSize := Nat.mul_le_mul_right _ hlt
      rw [Nat.add_mul, Nat.one_mul] at this
      omega
    · have : (b.index + 1) * pool.bufferSize ≤ a.index * pool.bufferSize := Nat.mul_le_mul_right _ hlt
      rw [Nat.add_mul, Nat.one_mul] at this
      omega
  · have hblocks := (h.apart.forall hs ht hst).2
    have ha' := BufferPoolSegment.block_of_mem has
    have hb' := BufferPoolSegment.block_of_mem hbt
    omega

end PoolInv

/-! ### The two levels of counters -/

theorem sum_map_ite_eq_one {l : List Nat} (hl : l.Nodup) {a : Nat} (ha : a ∈ l) :
    (l.map fun b => if a = b then 1 else 0).sum = 1 := by
  induction l with
  | nil => cases ha
  | cons b l ih =>
    obtain ⟨hb, hl⟩ := List.nodup_cons.1 hl
    by_cases hab : a = b
    · subst hab
      have hzero : (l.map fun b => if a = b then 1 else 0).sum = 0 := by
        refine List.sum_eq_zero fun x hx => ?_
        obtain ⟨c, hc, rfl⟩ := List.mem_map.1 hx
        exact if_neg fun hac : a = c => hb (hac ▸ hc)
      simp [hzero]
    · simp [hab, ih hl ((List.mem_cons.1 ha).resolve_left hab)]

@[simp]
theorem countIn_cons (addr : Nat) (ref : PoolRef) (l : List PoolRef) :
    countIn addr (ref :: l) = countIn addr l + if ref.segment = addr then 1 else 0 := by
  simp [countIn, List.countP_cons]

/-- Counting a list by the segments its buffers lie in. -/
theorem length_eq_sum_countIn {addrs : List Nat} (haddrs : addrs.Nodup) :
    ∀ l : List PoolRef, (∀ ref ∈ l, ref.segment ∈ addrs) → l.length = (addrs.map fun a => countIn a l).sum
  | [], _ => by simp [countIn]
  | ref :: l, h => by
    have ih := length_eq_sum_countIn haddrs l fun r hr => h r (List.mem_cons_of_mem _ hr)
    have hone := sum_map_ite_eq_one haddrs (h ref List.mem_cons_self)
    simp only [countIn_cons, List.sum_map_add, hone, List.length_cons, ih]

theorem PoolInv.numFree_eq_sum {pool : BufferPool} {held : PoolRef → Nat} (h : PoolInv pool held) :
    pool.numFree = (pool.segments.map (·.numFree)).sum := by
  have haddrs : (pool.segments.map (·.addr)).Nodup :=
    List.pairwise_map.2 (h.apart.imp fun hab => hab.1)
  have hmem : ∀ ref ∈ pool.freeList, ref.segment ∈ pool.segments.map (·.addr) := by
    intro ref href
    obtain ⟨seg, hseg, hr⟩ := BufferPool.mem_refs.1 ((h.free ref).1 href).1
    exact List.mem_map.2 ⟨seg, hseg, (BufferPoolSegment.mem_refs.1 hr).1.symm⟩
  rw [h.numFree, length_eq_sum_countIn haddrs _ hmem, List.map_map]
  exact congrArg List.sum (List.map_congr_left fun seg hseg => (h.segFree seg hseg).symm)

/-! ### Adding a segment -/

theorem foldl_linkRef (m : SegmentMemory) (bufferSize : Nat) (pool : BufferPool) (n : Nat) :
    (List.range n).foldl (linkRef m bufferSize) pool =
      { pool with
        refcount := fun ref => if ref ∈ (List.range n).map (m.ref bufferSize) then 0 else pool.refcount ref
        freeList := ((List.range n).map (m.ref bufferSize)).reverse ++ pool.freeList } := by
  induction n with
  | zero => simp
  | succ n ih =>
    rw [List.range_succ, List.foldl_append, ih, List.foldl_cons, List.foldl_nil, linkRef]
    simp only [List.map_append, List.map_cons, List.map_nil, List.reverse_append, List.reverse_singleton,
      List.cons_append, List.nil_append, BufferPool.mk.injEq, true_and, and_true]
    funext ref
    by_cases href : ref = m.ref bufferSize n
    · simp [href]
    · rw [Function.update_of_ne href]
      simp [href]

/-- The pool with a new segment at `m`. -/
def BufferPool.addSegment (pool : BufferPool) (m : SegmentMemory) (n : Nat) : BufferPool :=
  let seg : BufferPoolSegment := ⟨m.addr, m.buffers, n, n⟩
  { pool with
    segments := seg :: pool.segments
    refcount := fun ref => if ref ∈ seg.refs pool.bufferSize then 0 else pool.refcount ref
    freeList := (seg.refs pool.bufferSize).reverse ++ pool.freeList
    numBuffers := pool.numBuffers + n
    numFree := pool.numFree + n }

theorem bufferPoolExpand_eq (mem : Option SegmentMemory) (pool : BufferPool) :
    bufferPoolExpand mem pool = if pool.numBuffers ≥ pool.maxBuffers then none
      else mem.map fun m => pool.addSegment m (buffersToAdd pool) := by
  unfold bufferPoolExpand bufferPoolSegmentCreate
  rw [Option.map_map]
  congr 2
  funext m
  simp only [Function.comp_apply, foldl_linkRef, BufferPool.addSegment, BufferPoolSegment.refs]
  rfl

theorem addSegment_refs (pool : BufferPool) (m : SegmentMemory) (n : Nat) :
    (pool.addSegment m n).refs =
      BufferPoolSegment.refs ⟨m.addr, m.buffers, n, n⟩ pool.bufferSize ++ pool.refs := rfl

namespace PoolInv

variable {pool : BufferPool} {held : PoolRef → Nat}

theorem addSegment (h : PoolInv pool held) {m : SegmentMemory} {n : Nat} (hm : m.Unused pool n)
    (hn : pool.numBuffers + n ≤ pool.maxBuffers) : PoolInv (pool.addSegment m n) held := by
  set seg : BufferPoolSegment := ⟨m.addr, m.buffers, n, n⟩ with hseg
  have hold : ∀ ref ∈ pool.refs, ref.segment ≠ m.addr := by
    intro ref href haddr
    obtain ⟨seg', hseg', hr⟩ := BufferPool.mem_refs.1 href
    exact (hm seg' hseg').1 (haddr.symm.trans (BufferPoolSegment.mem_refs.1 hr).1)
  have hnew : ∀ ref ∈ seg.refs pool.bufferSize, ref.segment = m.addr :=
    fun ref href => (BufferPoolSegment.mem_refs.1 href).1
  have hheld : ∀ ref ∈ seg.refs pool.bufferSize, held ref = 0 := by
    intro ref href
    by_contra hne
    exact hold ref (h.live ref (Nat.pos_of_ne_zero hne)) (hnew ref href)
  have hfree : ∀ ref ∈ pool.freeList, ref.segment ≠ m.addr := fun ref href => hold ref ((h.free ref).1 href).1
  have hcount : ∀ addr, countIn addr (pool.addSegment m n).freeList =
      (if addr = m.addr then n else 0) + countIn addr pool.freeList := by
    intro addr
    have hlen : (seg.refs pool.bufferSize).countP (·.segment = addr) = if addr = m.addr then n else 0 := by
      split
      · next heq =>
        rw [List.countP_eq_length.2, BufferPoolSegment.length_refs]
        intro ref href
        simp [hnew ref href, heq]
      · next hne =>
        rw [List.countP_eq_zero]
        intro ref href
        simp [hnew ref href, Ne.symm hne]
    show List.countP _ ((seg.refs pool.bufferSize).reverse ++ pool.freeList) = _
    rw [List.countP_append, List.countP_reverse, hlen]
    rfl
  constructor
  · exact h.size
  · exact List.pairwise_cons.2 ⟨hm, h.apart⟩
  · refine List.nodup_append.2 ⟨List.nodup_reverse.2 BufferPoolSegment.nodup_refs, h.nodup, ?_⟩
    rintro ref href _ hr rfl
    exact hfree ref hr (hnew ref (List.mem_reverse.1 href))
  · intro ref
    rw [addSegment_refs]
    show ref ∈ (seg.refs pool.bufferSize).reverse ++ pool.freeList ↔ _
    rw [List.mem_append, List.mem_reverse, List.mem_append, h.free]
    constructor
    · rintro (hr | hr)
      · exact ⟨.inl hr, hheld ref hr⟩
      · exact ⟨.inr hr.1, hr.2⟩
    · rintro ⟨hr | hr, h0⟩
      exacts [.inl hr, .inr ⟨hr, h0⟩]
  · intro ref href
    exact List.mem_append_right _ (h.live ref href)
  · intro ref href
    show (if ref ∈ seg.refs pool.bufferSize then (0 : Int) else pool.refcount ref) = held ref
    split
    · next hr => rw [hheld ref hr, Nat.cast_zero]
    · next hr =>
      rw [addSegment_refs] at href
      exact h.refcount ref ((List.mem_append.1 href).resolve_left hr)
  · show pool.numFree + n = ((seg.refs pool.bufferSize).reverse ++ pool.freeList).length
    rw [List.length_append, List.length_reverse, BufferPoolSegment.length_refs, h.numFree, Nat.add_comm]
  · intro s hs
    rw [hcount]
    rcases List.mem_cons.1 hs with rfl | hs
    · have : countIn m.addr pool.freeList = 0 := by
        rw [countIn, List.countP_eq_zero]
        intro ref href
        simp [hfree ref href]
      simp [this]
    · rw [if_neg (Ne.symm (hm s hs).1), Nat.zero_add]
      exact h.segFree s hs
  · show pool.numBuffers + n = _
    rw [h.numBuffers]
    simp [BufferPool.addSegment, Nat.add_comm]
  · exact hn

theorem expand (h : PoolInv pool held) {mem : Option SegmentMemory}
    (hmem : ∀ m ∈ mem, m.Unused pool (buffersToAdd pool)) {pool' : BufferPool}
    (he : bufferPoolExpand mem pool = some pool') : PoolInv pool' held := by
  rw [bufferPoolExpand_eq] at he
  split at he
  · cases he
  · next hlt =>
    obtain ⟨m, hm, rfl⟩ := Option.map_eq_some_iff.1 he
    refine h.addSegment (hmem m hm) ?_
    unfold buffersToAdd
    split <;> omega

end PoolInv

/-! ### References -/

theorem modifyNumFree_refs (pool : BufferPool) (ref : PoolRef) (f : Nat → Nat) :
    (pool.modifyNumFree ref f).refs = pool.refs := by
  unfold BufferPool.refs BufferPool.modifyNumFree
  dsimp only
  rw [List.flatMap_map]
  congr 1
  funext seg
  split <;> rfl

theorem modifyNumFree_numBuffers (pool : BufferPool) (ref : PoolRef) (f : Nat → Nat) :
    (pool.modifyNumFree ref f).segments.map (·.numBuffers) = pool.segments.map (·.numBuffers) := by
  unfold BufferPool.modifyNumFree
  dsimp only
  rw [List.map_map]
  congr 1
  funext seg
  simp only [Function.comp_apply]
  split <;> rfl

theorem modifyNumFree_apart {pool : BufferPool} (h : pool.segments.Pairwise (BufferPoolSegment.Apart pool.bufferSize))
    (ref : PoolRef) (f : Nat → Nat) :
    (pool.modifyNumFree ref f).segments.Pairwise (BufferPoolSegment.Apart pool.bufferSize) := by
  refine List.pairwise_map.2 (h.imp fun {a b} hab => ?_)
  split <;> split <;> exact hab

namespace PoolInv

variable {pool : BufferPool} {held : PoolRef → Nat} {ref : PoolRef}

/-- A buffer moves between the free list and its holders, and the counters of both levels follow. -/
theorem move (h : PoolInv pool held) (freeList : List PoolRef) (refcount : PoolRef → Int) (numFree : Nat)
    (f : Nat → Nat) (n : Nat) (href : ref ∈ pool.refs) (hnodup : freeList.Nodup)
    (hother : ∀ r ≠ ref, (r ∈ freeList ↔ r ∈ pool.freeList) ∧ refcount r = pool.refcount r)
    (hself : ref ∈ freeList ↔ n = 0) (hcount : refcount ref = n)
    (hlen : numFree = freeList.length)
    (hin : ∀ addr, countIn addr freeList =
      if ref.segment = addr then f (countIn addr pool.freeList) else countIn addr pool.freeList) :
    PoolInv { pool.modifyNumFree ref f with freeList, refcount, numFree } (Function.update held ref n) := by
  have hrefs : BufferPool.refs { pool.modifyNumFree ref f with freeList, refcount, numFree } = pool.refs :=
    modifyNumFree_refs pool ref f
  constructor
  · exact h.size
  · exact modifyNumFree_apart h.apart ref f
  · exact hnodup
  · intro r
    rw [hrefs]
    rcases eq_or_ne r ref with rfl | hr
    · simp only [hself, Function.update_self, href, true_and]
    · rw [Function.update_of_ne hr, ← h.free r]
      exact (hother r hr).1
  · intro r hr
    rw [hrefs]
    rcases eq_or_ne r ref with rfl | hne
    · exact href
    · rw [Function.update_of_ne hne] at hr
      exact h.live r hr
  · intro r hr
    rw [hrefs] at hr
    rcases eq_or_ne r ref with rfl | hne
    · rw [Function.update_self]
      exact hcount
    · rw [Function.update_of_ne hne, ← h.refcount r hr]
      exact (hother r hne).2
  · exact hlen
  · intro seg hseg
    obtain ⟨seg', hseg', rfl⟩ := List.mem_map.1 hseg
    show _ = countIn _ freeList
    rw [hin]
    by_cases haddr : seg'.addr = ref.segment
    · simp [haddr, h.segFree seg' hseg']
    · simp only [if_neg haddr, if_neg (Ne.symm haddr), h.segFree seg' hseg']
  · rw [modifyNumFree_numBuffers]
    exact h.numBuffers
  · exact h.bound

theorem bufferRefGet (h : PoolInv pool held) (hheld : 0 < held ref) :
    PoolInv (bufferRefGet pool ref) (Function.update held ref (held ref + 1)) := by
  have hmap : pool.modifyNumFree ref id = pool := by
    unfold BufferPool.modifyNumFree
    simp
  have hfree : ref ∉ pool.freeList := fun hm => absurd ((h.free ref).1 hm).2 (by omega)
  have := h.move pool.freeList (Function.update pool.refcount ref (pool.refcount ref + 1)) _ id (held ref + 1)
    (h.live ref hheld) h.nodup (fun r hr => ⟨Iff.rfl, Function.update_of_ne hr ..⟩)
    (iff_of_false hfree (by omega)) (by rw [Function.update_self, h.refcount ref (h.live ref hheld)]; rfl)
    h.numFree (fun addr => by simp)
  rwa [hmap] at this

theorem bufferRefPut_last (pool : BufferPool) (ref : PoolRef) (hlast : pool.refcount ref - 1 ≤ 0) :
    Rtp2httpd.bufferRefPut pool ref =
      { pool.modifyNumFree ref (· + 1) with
        freeList := ref :: pool.freeList
        refcount := Function.update pool.refcount ref (pool.refcount ref - 1)
        numFree := pool.numFree + 1 } := by
  unfold Rtp2httpd.bufferRefPut
  simp only [Function.update_self, if_pos hlast]
  rfl

theorem popFree_cons {rest : List PoolRef} (hlist : pool.freeList = ref :: rest) :
    Rtp2httpd.popFree pool = (some ref,
      { pool.modifyNumFree ref (· - 1) with
        freeList := rest
        refcount := Function.update pool.refcount ref 1
        numFree := pool.numFree - 1 }) := by
  unfold Rtp2httpd.popFree
  rw [hlist]
  rfl

theorem bufferRefPut (h : PoolInv pool held) (hheld : 0 < held ref) :
    PoolInv (bufferRefPut pool ref) (Function.update held ref (held ref - 1)) := by
  have href := h.live ref hheld
  have hcount := h.refcount ref href
  have hfree : ref ∉ pool.freeList := fun hm => absurd ((h.free ref).1 hm).2 (by omega)
  by_cases hlast : pool.refcount ref - 1 ≤ 0
  · have hone : held ref - 1 = 0 := by omega
    rw [bufferRefPut_last _ _ hlast, hone]
    refine h.move _ _ _ (· + 1) _ href (List.nodup_cons.2 ⟨hfree, h.nodup⟩) (fun r hr => ?_) (by simp) ?_ ?_ ?_
    · exact ⟨by simp [hr], Function.update_of_ne hr ..⟩
    · rw [Function.update_self, hcount, Nat.cast_zero]
      omega
    · rw [h.numFree, List.length_cons]
    · intro addr
      rw [countIn_cons]
      split <;> rfl
  · have hmap : pool.modifyNumFree ref id = pool := by
      unfold BufferPool.modifyNumFree
      simp
    have := h.move pool.freeList (Function.update pool.refcount ref (pool.refcount ref - 1)) _ id (held ref - 1)
      href h.nodup
      (fun r hr => ⟨Iff.rfl, Function.update_of_ne hr ..⟩) (iff_of_false hfree (by omega))
      (by rw [Function.update_self, hcount]; omega) h.numFree (fun addr => by simp)
    rw [hmap] at this
    unfold Rtp2httpd.bufferRefPut
    simp only [Function.update_self, if_neg hlast]
    exact this

theorem popFree (h : PoolInv pool held) (hpop : (popFree pool).1 = some ref) :
    held ref = 0 ∧ ref ∈ (Rtp2httpd.popFree pool).2.refs ∧
      PoolInv (Rtp2httpd.popFree pool).2 (Function.update held ref (held ref + 1)) := by
  cases hlist : pool.freeList with
  | nil =>
    unfold Rtp2httpd.popFree at hpop
    rw [hlist] at hpop
    cases hpop
  | cons ref' rest =>
    rw [popFree_cons hlist] at hpop ⊢
    cases hpop
    have hmem := (h.free ref).1 (hlist ▸ List.mem_cons_self)
    have hnodup := h.nodup
    rw [hlist] at hnodup
    obtain ⟨hnot, hrest⟩ := List.nodup_cons.1 hnodup
    refine ⟨hmem.2, ?_, ?_⟩
    · show ref ∈ (pool.modifyNumFree ref (· - 1)).refs
      rw [modifyNumFree_refs]
      exact hmem.1
    · refine h.move _ _ _ (· - 1) _ hmem.1 hrest (fun r hr => ?_) (iff_of_false hnot (by omega)) ?_ ?_ ?_
      · exact ⟨by simp [hlist, hr], Function.update_of_ne hr ..⟩
      · rw [Function.update_self, hmem.2]
        rfl
      · rw [h.numFree, hlist, List.length_cons, Nat.add_sub_cancel]
      · intro addr
        rw [hlist, countIn_cons]
        split <;> rfl

theorem popFree_none (hpop : (Rtp2httpd.popFree pool).1 = none) : (Rtp2httpd.popFree pool).2 = pool := by
  unfold Rtp2httpd.popFree at hpop ⊢
  split at hpop
  · rfl
  · cases hpop

/-- An allocation takes the head of the free list, after an expansion or without one. -/
theorem bufferPoolAllocFrom_cases (h : PoolInv pool held) {mem : Option SegmentMemory}
    (hmem : ∀ m ∈ mem, m.Unused pool (buffersToAdd pool)) :
    bufferPoolAllocFrom mem pool = (none, pool) ∨
      ∃ pool', PoolInv pool' held ∧ pool'.maxBuffers = pool.maxBuffers ∧
        bufferPoolAllocFrom mem pool = Rtp2httpd.popFree pool' := by
  have hmax : ∀ pool', bufferPoolExpand mem pool = some pool' → pool'.maxBuffers = pool.maxBuffers := by
    intro pool' he
    rw [bufferPoolExpand_eq] at he
    split at he
    · cases he
    · obtain ⟨m, -, rfl⟩ := Option.map_eq_some_iff.1 he
      rfl
  unfold bufferPoolAllocFrom
  split
  · split
    · exact .inl rfl
    · next pool' he => exact .inr ⟨pool', h.expand hmem he, hmax pool' he, rfl⟩
  · split
    · cases he : bufferPoolExpand mem pool with
      | none => exact .inr ⟨pool, h, rfl, rfl⟩
      | some pool' => exact .inr ⟨pool', h.expand hmem he, hmax pool' he, rfl⟩
    · exact .inr ⟨pool, h, rfl, rfl⟩

end PoolInv

/-! ### Shrinking -/

theorem unlinkFree_eq (segStart segEnd : Nat) (l : List PoolRef) :
    unlinkFree segStart segEnd l =
      (l.filter fun ref => ¬ (ref.data ≥ segStart ∧ ref.data < segEnd),
        l.countP fun ref => ref.data ≥ segStart ∧ ref.data < segEnd) := by
  induction l with
  | nil => rfl
  | cons ref l ih =>
    rw [unlinkFree, ih]
    dsimp only
    split
    · next hin => simp only [List.filter_cons, List.countP_cons, decide_not, decide_eq_true hin, Bool.not_true,
        Bool.false_eq_true, if_false, if_true]
    · next hout => simp only [List.filter_cons, List.countP_cons, decide_not, decide_eq_false hout, Bool.not_false,
        Bool.false_eq_true, if_false, if_true, Nat.add_zero]

namespace PoolInv

variable {pool : BufferPool} {held : PoolRef → Nat}

/-- The address range finds the free buffers of the segment. -/
theorem data_mem_block (h : PoolInv pool held) {seg : BufferPoolSegment} (hseg : seg ∈ pool.segments) {ref : PoolRef}
    (href : ref ∈ pool.refs) :
    ref.data ≥ seg.buffers ∧ ref.data < seg.buffers + seg.numBuffers * pool.bufferSize ↔ ref.segment = seg.addr := by
  have hsize := h.size
  obtain ⟨seg', hseg', hr⟩ := BufferPool.mem_refs.1 href
  have hblock := BufferPoolSegment.block_of_mem hr
  have haddr := (BufferPoolSegment.mem_refs.1 hr).1
  by_cases hss : seg' = seg
  · subst hss
    exact iff_of_true ⟨hblock.1, by omega⟩ haddr
  · have hap := h.apart.forall hseg' hseg hss
    refine iff_of_false ?_ fun heq => hap.1 (haddr.symm.trans heq)
    rintro ⟨h1, h2⟩
    have := hap.2
    omega

/-- A segment whose buffers are all free has no holder. -/
theorem held_of_idle (h : PoolInv pool held) {seg : BufferPoolSegment} (hseg : seg ∈ pool.segments)
    (hidle : seg.numFree = seg.numBuffers) {ref : PoolRef} (href : ref ∈ seg.refs pool.bufferSize) : held ref = 0 := by
  have hsub : pool.freeList.filter (·.segment = seg.addr) ⊆ seg.refs pool.bufferSize := by
    intro r hr
    obtain ⟨hr, haddr⟩ := List.mem_filter.1 hr
    exact (h.mem_refs_of_addr hseg ((h.free r).1 hr).1).2 (by simpa using haddr)
  have hlen : (seg.refs pool.bufferSize).length ≤ (pool.freeList.filter (·.segment = seg.addr)).length := by
    rw [BufferPoolSegment.length_refs, ← hidle, h.segFree seg hseg, countIn, List.countP_eq_length_filter]
  have hperm := (List.subperm_of_subset (h.nodup.filter _) hsub).perm_of_length_le hlen
  exact ((h.free ref).1 (List.mem_filter.1 (hperm.mem_iff.2 href)).1).2

theorem freeSegment_eq (h : PoolInv pool held) {before after : List BufferPoolSegment} {seg : BufferPoolSegment}
    (hsegs : pool.segments = before ++ seg :: after) :
    Rtp2httpd.freeSegment before seg after pool =
      { pool with
        freeList := pool.freeList.filter (·.segment ≠ seg.addr)
        segments := before ++ after
        numBuffers := pool.numBuffers - seg.numBuffers
        numFree := pool.numFree - countIn seg.addr pool.freeList } := by
  have hseg : seg ∈ pool.segments := by simp [hsegs]
  have hblock : ∀ ref ∈ pool.freeList,
      (ref.data ≥ seg.buffers ∧ ref.data < seg.buffers + seg.numBuffers * pool.bufferSize ↔ ref.segment = seg.addr) :=
    fun ref href => h.data_mem_block hseg ((h.free ref).1 href).1
  unfold Rtp2httpd.freeSegment
  simp only [unlinkFree_eq]
  have hfilter := List.filter_congr (l := pool.freeList)
    (p := fun ref => decide ¬ (ref.data ≥ seg.buffers ∧ ref.data < seg.buffers + seg.numBuffers * pool.bufferSize))
    (q := fun ref => decide (ref.segment ≠ seg.addr)) fun ref href =>
      decide_eq_decide.2 (not_congr (hblock ref href))
  have hcount := List.countP_congr (l := pool.freeList)
    (p := fun ref => decide (ref.data ≥ seg.buffers ∧ ref.data < seg.buffers + seg.numBuffers * pool.bufferSize))
    (q := fun ref => decide (ref.segment = seg.addr)) fun ref href => by simp only [hblock ref href]
  rw [hfilter, hcount]
  rfl

theorem freeSegment (h : PoolInv pool held) {before after : List BufferPoolSegment} {seg : BufferPoolSegment}
    (hsegs : pool.segments = before ++ seg :: after) (hidle : seg.numFree = seg.numBuffers) :
    PoolInv (freeSegment before seg after pool) held := by
  have hseg : seg ∈ pool.segments := by simp [hsegs]
  have hpair := h.apart
  rw [hsegs, List.pairwise_middle fun {a b} hab => Std.Symm.symm a b hab, List.pairwise_cons] at hpair
  obtain ⟨haway, hpair⟩ := hpair
  have hin : ∀ s, s ∈ before ++ after ↔ s ∈ pool.segments ∧ s.addr ≠ seg.addr := by
    intro s
    constructor
    · intro hs
      exact ⟨by simp only [hsegs, List.mem_append, List.mem_cons] at hs ⊢; tauto, (haway s hs).1.symm⟩
    · rintro ⟨hs, hne⟩
      have : s ≠ seg := fun heq => hne (heq ▸ rfl)
      simp only [hsegs, List.mem_append, List.mem_cons] at hs ⊢
      tauto
  have hrefs : ∀ ref, ref ∈ (Rtp2httpd.freeSegment before seg after pool).refs ↔
      ref ∈ pool.refs ∧ ref.segment ≠ seg.addr := by
    intro ref
    rw [h.freeSegment_eq hsegs, BufferPool.mem_refs, BufferPool.mem_refs]
    constructor
    · rintro ⟨s, hs, hr⟩
      exact ⟨⟨s, ((hin s).1 hs).1, hr⟩, (BufferPoolSegment.mem_refs.1 hr).1 ▸ ((hin s).1 hs).2⟩
    · rintro ⟨⟨s, hs, hr⟩, hne⟩
      exact ⟨s, (hin s).2 ⟨hs, (BufferPoolSegment.mem_refs.1 hr).1 ▸ hne⟩, hr⟩
  have hsum : pool.numBuffers = seg.numBuffers + ((before ++ after).map (·.numBuffers)).sum := by
    rw [h.numBuffers, hsegs]
    simp only [List.map_append, List.map_cons, List.sum_append, List.sum_cons]
    omega
  constructor
  · rw [h.freeSegment_eq hsegs]
    exact h.size
  · rw [h.freeSegment_eq hsegs]
    exact hpair
  · rw [h.freeSegment_eq hsegs]
    exact h.nodup.filter _
  · intro ref
    rw [hrefs, h.freeSegment_eq hsegs, List.mem_filter, h.free]
    simp only [decide_eq_true_eq]
    tauto
  · intro ref hheld
    refine (hrefs ref).2 ⟨h.live ref hheld, fun haddr => ?_⟩
    have hr := (h.mem_refs_of_addr hseg (h.live ref hheld)).2 haddr
    have := h.held_of_idle hseg hidle hr
    omega
  · intro ref href
    have hr := ((hrefs ref).1 href).1
    rw [h.freeSegment_eq hsegs]
    exact h.refcount ref hr
  · rw [h.freeSegment_eq hsegs]
    have := List.length_eq_countP_add_countP (·.segment = seg.addr) (l := pool.freeList)
    simp only [← List.countP_eq_length_filter, h.numFree, countIn, ne_eq]
    simp only [decide_eq_true_eq] at this
    omega
  · intro s hs
    rw [h.freeSegment_eq hsegs] at hs ⊢
    obtain ⟨hs, hne⟩ := (hin s).1 hs
    rw [h.segFree s hs, countIn, countIn, List.countP_filter]
    refine List.countP_congr fun ref _ => ?_
    simp only [Bool.and_eq_true, decide_eq_true_eq]
    exact ⟨fun heq => ⟨heq, heq ▸ hne⟩, And.left⟩
  · rw [h.freeSegment_eq hsegs]
    show pool.numBuffers - seg.numBuffers = ((before ++ after).map (·.numBuffers)).sum
    omega
  · have := h.bound
    rw [h.freeSegment_eq hsegs]
    show pool.numBuffers - seg.numBuffers ≤ pool.maxBuffers
    omega

end PoolInv

/-- What shrinking leaves: the segments with a holder, and at least `minBuffers` buffers. -/
structure PoolShrunk (held : PoolRef → Nat) (minBuffers : Nat) (pool pool' : BufferPool) : Prop where
  inv : PoolInv pool' held
  max : pool'.maxBuffers = pool.maxBuffers
  size : pool'.bufferSize = pool.bufferSize
  live : ∀ seg ∈ pool.segments, (∃ ref ∈ seg.refs pool.bufferSize, 0 < held ref) → seg ∈ pool'.segments
  enough : minBuffers ≤ pool.numBuffers → minBuffers ≤ pool'.numBuffers

namespace PoolInv

variable {pool : BufferPool} {held : PoolRef → Nat}

theorem shrunk_self (h : PoolInv pool held) (minBuffers : Nat) : PoolShrunk held minBuffers pool pool :=
  ⟨h, rfl, rfl, fun _ hseg _ => hseg, id⟩

theorem shrunk_freeSegment (h : PoolInv pool held) {minBuffers : Nat} {before after : List BufferPoolSegment}
    {seg : BufferPoolSegment} (hsegs : pool.segments = before ++ seg :: after)
    (hidle : seg.numFree = seg.numBuffers ∧ pool.numBuffers - seg.numBuffers ≥ minBuffers) :
    PoolShrunk held minBuffers pool (Rtp2httpd.freeSegment before seg after pool) where
  inv := h.freeSegment hsegs hidle.1
  max := rfl
  size := rfl
  live s hs := by
    rintro ⟨ref, href, hheld⟩
    show s ∈ before ++ after
    rw [hsegs, List.mem_append, List.mem_cons] at hs
    rcases hs with hs | rfl | hs
    · exact List.mem_append_left _ hs
    · have := h.held_of_idle (by simp [hsegs]) hidle.1 href
      omega
    · exact List.mem_append_right _ hs
  enough _ := hidle.2

end PoolInv

theorem PoolShrunk.trans {held : PoolRef → Nat} {minBuffers : Nat} {a b c : BufferPool} (hab : PoolShrunk held minBuffers a b)
    (hbc : PoolShrunk held minBuffers b c) : PoolShrunk held minBuffers a c where
  inv := hbc.inv
  max := hbc.max.trans hab.max
  size := hbc.size.trans hab.size
  live seg hseg hheld := hbc.live seg (hab.live seg hseg hheld) (hab.size ▸ hheld)
  enough hle := hbc.enough (hab.enough hle)

theorem PoolInv.shrinkLoop {held : PoolRef → Nat} {minBuffers : Nat} (next : List BufferPoolSegment) :
    ∀ {before : List BufferPoolSegment} {pool : BufferPool}, PoolInv pool held → pool.segments = before ++ next →
      PoolShrunk held minBuffers pool (shrinkLoop minBuffers before next pool) := by
  induction next with
  | nil => exact fun h _ => h.shrunk_self _
  | cons seg next ih =>
    intro before pool h hsegs
    unfold Rtp2httpd.shrinkLoop
    split
    · next hidle =>
      have hfree := h.shrunk_freeSegment hsegs hidle
      dsimp only
      split
      · exact hfree
      · exact hfree.trans (ih hfree.inv rfl)
    · exact ih h (by rw [hsegs, List.append_assoc, List.singleton_append])

theorem PoolInv.bufferPoolTryShrinkPool {held : PoolRef → Nat} {pool : BufferPool} (h : PoolInv pool held)
    (minBuffers : Nat) : PoolShrunk held minBuffers pool (bufferPoolTryShrinkPool pool minBuffers) := by
  unfold Rtp2httpd.bufferPoolTryShrinkPool
  split
  · exact h.shrunk_self _
  · exact h.shrinkLoop _ rfl

/-! ### Runs -/

/-- The pool and, for every buffer, how many references to it its users hold. -/
structure PoolUse where
  pool : BufferPool
  held : PoolRef → Nat

inductive PoolOp where
  | alloc (mem : Option SegmentMemory)
  | get (ref : PoolRef)
  | put (ref : PoolRef)
  | shrink (minBuffers : Nat)

/-- Users copy or give back references they hold, and the allocator returns memory that is not in use. -/
def PoolOp.Legal (s : PoolUse) : PoolOp → Prop
  | alloc mem => ∀ m ∈ mem, m.Unused s.pool (buffersToAdd s.pool)
  | get ref => 0 < s.held ref
  | put ref => 0 < s.held ref
  | shrink _ => True

instance PoolOp.decidableLegal (s : PoolUse) (op : PoolOp) : Decidable (op.Legal s) :=
  match op with
  | .alloc none => isTrue nofun
  | .alloc (some m) => decidable_of_iff (m.Unused s.pool (buffersToAdd s.pool)) (by simp [PoolOp.Legal])
  | .get ref => inferInstanceAs (Decidable (0 < s.held ref))
  | .put ref => inferInstanceAs (Decidable (0 < s.held ref))
  | .shrink _ => isTrue trivial

def poolStep (s : PoolUse) : PoolOp → PoolUse
  | .alloc mem =>
    match bufferPoolAllocFrom mem s.pool with
    | (none, pool) => { s with pool }
    | (some ref, pool) => ⟨pool, Function.update s.held ref (s.held ref + 1)⟩
  | .get ref => ⟨bufferRefGet s.pool ref, Function.update s.held ref (s.held ref + 1)⟩
  | .put ref => ⟨bufferRefPut s.pool ref, Function.update s.held ref (s.held ref - 1)⟩
  | .shrink minBuffers => { s with pool := bufferPoolTryShrinkPool s.pool minBuffers }

theorem popFree_maxBuffers (pool : BufferPool) : (popFree pool).2.maxBuffers = pool.maxBuffers := by
  unfold popFree
  split <;> rfl

theorem bufferRefPut_maxBuffers (pool : BufferPool) (ref : PoolRef) :
    (bufferRefPut pool ref).maxBuffers = pool.maxBuffers := by
  unfold bufferRefPut
  dsimp only
  split <;> rfl

theorem PoolInv.step {s : PoolUse} (h : PoolInv s.pool s.held) {op : PoolOp} (hop : op.Legal s) :
    PoolInv (poolStep s op).pool (poolStep s op).held ∧
      (poolStep s op).pool.maxBuffers = s.pool.maxBuffers := by
  cases op with
  | alloc mem =>
    unfold poolStep
    rcases h.bufferPoolAllocFrom_cases hop with hnone | ⟨pool', h', hmax, heq⟩
    · simp only [hnone]
      exact ⟨h, trivial⟩
    · simp only [heq]
      have hpopMax := (popFree_maxBuffers pool').trans hmax
      split
      · next pool hpop =>
        have hpool := PoolInv.popFree_none (congrArg Prod.fst hpop)
        rw [hpop] at hpool hpopMax
        dsimp only at hpool
        exact ⟨hpool.symm ▸ h', hpopMax⟩
      · next ref pool hpop =>
        have hinv := (h'.popFree (congrArg Prod.fst hpop)).2.2
        rw [hpop] at hinv hpopMax
        exact ⟨hinv, hpopMax⟩
  | get ref => exact ⟨h.bufferRefGet hop, rfl⟩
  | put ref => exact ⟨h.bufferRefPut hop, bufferRefPut_maxBuffers ..⟩
  | shrink minBuffers =>
    have := h.bufferPoolTryShrinkPool minBuffers
    exact ⟨this.inv, this.max⟩

theorem bufferPoolInit_inv {mem : Option SegmentMemory}
    {bufferSize initialBuffers maxBuffers expandSize lowWatermark highWatermark : Nat} {pool : BufferPool}
    (hinit : bufferPoolInit mem bufferSize initialBuffers maxBuffers expandSize lowWatermark highWatermark = some pool)
    (hsize : 0 < bufferSize) (hle : initialBuffers ≤ maxBuffers) :
    PoolInv pool (fun _ => 0) ∧ pool.maxBuffers = maxBuffers := by
  set empty : BufferPool := {
    segments := [], freeList := [], refcount := fun _ => 0, numBuffers := 0, numFree := 0
    bufferSize, maxBuffers, expandSize, lowWatermark, highWatermark } with hempty
  have hinv : PoolInv empty (fun _ => 0) := {
    size := hsize, apart := List.Pairwise.nil, nodup := List.nodup_nil, numFree := rfl, numBuffers := rfl
    bound := Nat.zero_le _, free := by simp [hempty, BufferPool.refs], live := by simp
    refcount := by simp [hempty, BufferPool.refs], segFree := by simp [hempty] }
  unfold bufferPoolInit bufferPoolSegmentCreate at hinit
  rw [← hempty, Option.map_map] at hinit
  obtain ⟨m, -, rfl⟩ := Option.map_eq_some_iff.1 hinit
  have := hinv.addSegment (m := m) (n := initialBuffers) nofun (by simpa [hempty] using hle)
  simp only [BufferPool.addSegment, hempty, Nat.zero_add] at this
  simp only [Function.comp_apply, foldl_linkRef]
  exact ⟨this, rfl⟩

/-- The pool after any sequence of calls. `held` counts the references its users hold. -/
theorem bufferPool_invariant {mem : Option SegmentMemory}
    {bufferSize initialBuffers maxBuffers expandSize lowWatermark highWatermark : Nat} {pool : BufferPool}
    (hinit : bufferPoolInit mem bufferSize initialBuffers maxBuffers expandSize lowWatermark highWatermark = some pool)
    (hsize : 0 < bufferSize) (hle : initialBuffers ≤ maxBuffers) {ops : List PoolOp}
    (hops : Run.Meets poolStep (fun s op => op.Legal s) ⟨pool, fun _ => 0⟩ ops) :
    let s := ops.foldl poolStep ⟨pool, fun _ => 0⟩
    s.pool.freeList.Nodup ∧
      (∀ ref, ref ∈ s.pool.freeList ↔ ref ∈ s.pool.refs ∧ s.held ref = 0) ∧
      s.pool.numFree = s.pool.freeList.length ∧
      s.pool.numFree = (s.pool.segments.map (·.numFree)).sum ∧
      s.pool.numBuffers = (s.pool.segments.map (·.numBuffers)).sum ∧
      s.pool.numBuffers ≤ maxBuffers ∧
      -- a buffer that is handed out is nobody's, and live buffers do not overlap
      (∀ mem ref, (PoolOp.alloc mem).Legal s → (bufferPoolAllocFrom mem s.pool).1 = some ref →
        s.held ref = 0 ∧ ref ∈ (bufferPoolAllocFrom mem s.pool).2.refs) ∧
      (∀ a b, 0 < s.held a → 0 < s.held b → a ≠ b →
        a.data + s.pool.bufferSize ≤ b.data ∨ b.data + s.pool.bufferSize ≤ a.data) ∧
      -- shrinking
      ∀ minBuffers, (∀ seg ∈ s.pool.segments, (∃ ref ∈ seg.refs s.pool.bufferSize, 0 < s.held ref) →
          seg ∈ (bufferPoolTryShrinkPool s.pool minBuffers).segments) ∧
        (minBuffers ≤ s.pool.numBuffers → minBuffers ≤ (bufferPoolTryShrinkPool s.pool minBuffers).numBuffers) := by
  intro s
  obtain ⟨h, hmax⟩ : PoolInv s.pool s.held ∧ s.pool.maxBuffers = maxBuffers :=
    @Run.Meets.invariant _ _ _ _ _ _ (fun _ s => PoolInv s.pool s.held ∧ s.pool.maxBuffers = maxBuffers)
      (fun _ _ _ hop hs => ⟨(hs.1.step hop).1, (hs.1.step hop).2.trans hs.2⟩) []
      (bufferPoolInit_inv hinit hsize hle) hops
  refine ⟨h.nodup, h.free, h.numFree, h.numFree_eq_sum, h.numBuffers, hmax ▸ h.bound, ?_, ?_, ?_⟩
  · intro mem ref hlegal hsome
    rcases h.bufferPoolAllocFrom_cases hlegal with hnone | ⟨pool', h', -, heq⟩
    · rw [hnone] at hsome
      cases hsome
    · rw [heq] at hsome ⊢
      exact ⟨(h'.popFree hsome).1, (h'.popFree hsome).2.1⟩
  · exact fun a b ha hb hab => h.data_disjoint (h.live a ha) (h.live b hb) hab
  · exact fun minBuffers => ⟨(h.bufferPoolTryShrinkPool minBuffers).live, (h.bufferPoolTryShrinkPool minBuffers).enough⟩

/-- Two buffers of 16 bytes at first, an expansion by two more, a second reference, and shrinking back. -/
theorem bufferPool_invariant_expanding :
    ∃ pool, bufferPoolInit (some ⟨1, 1000⟩) 16 2 6 2 0 1 = some pool ∧
      let s := [PoolOp.alloc none, .alloc none, .alloc (some ⟨2, 2000⟩), .get ⟨2, 1, 2016⟩, .put ⟨2, 1, 2016⟩,
        .put ⟨1, 0, 1000⟩, .put ⟨1, 1, 1016⟩, .shrink 2].foldl poolStep ⟨pool, fun _ => 0⟩
      s.pool.segments = [⟨2, 2000, 2, 1⟩] ∧ s.pool.freeList.Nodup := by
  refine ⟨_, rfl, by decide, ?_⟩
  exact (@bufferPool_invariant (some ⟨1, 1000⟩) 16 2 6 2 0 1 _ rfl (by decide) (by decide) _ (by decide)).1

end Rtp2httpd
