import DOpenWrt.Rtp2httpd.RtpFec

/-!
# Reordering

`rtp_reorder_insert` with its two loops, `flush_consecutive` and `force_flush_until`, on the ring and
the FEC context of one stream. What is handed to the connection is recorded in `delivered`.
-/

namespace Rtp2httpd
open Serial

variable {w : Window}

def rtpReorderInitCollect : Nat := 8

/-- What is handed to the connection, with the value of `base_seq` at that moment. -/
inductive Delivery where
  /-- `deliver_packet` of the buffer in the slot of `base_seq`, for which `seq` is recorded -/
  | packet (baseSeq seq : BitVec 16) (buf : BufferRef)
  /-- `deliver_raw_packet`; `held` is the packet numbered `base_seq` if the ring holds it -/
  | raw (baseSeq : BitVec 16) (held : Option BufferRef) (data : List UInt8)
  deriving DecidableEq, Repr

/-- The code behind `conn`. Its answers may depend on everything delivered so far, the present
delivery being the last. -/
structure Conn where
  snapshotProcessPacket : List Delivery → Int
  rtpQueueBufDirect : List Delivery → Int
  connectionQueueOutput : List Delivery → Int

/-- A stream's ring and FEC context (`none` for a `NULL` argument), with the value accumulated for
`return`. -/
structure Stream (w : Window) where
  r : RtpReorder w
  fec : Option FecContext
  delivered : List Delivery
  totalBytes : Int

def addBytes (totalBytes bytes : Int) : Int := if bytes > 0 then totalBytes + bytes else totalBytes

def deliverPacket (conn : Conn) (isSnapshot : Bool) (s : Stream w) (buf : BufferRef) : Stream w :=
  let delivered := s.delivered ++ [.packet s.r.baseSeq (s.r.seq (slotOf w s.r.baseSeq)) buf]
  let bytes := if isSnapshot then conn.snapshotProcessPacket delivered else conn.rtpQueueBufDirect delivered
  { s with delivered := delivered, totalBytes := addBytes s.totalBytes bytes }

def deliverRawPacket (conn : Conn) (isSnapshot : Bool) (s : Stream w) (data : List UInt8) : Stream w :=
  let delivered := s.delivered ++ [.raw s.r.baseSeq (rtpReorderGet s.r s.r.baseSeq) data]
  let bytes :=
    if isSnapshot then conn.snapshotProcessPacket delivered
    else if conn.connectionQueueOutput delivered = 0 then data.length else -1
  { s with delivered := delivered, totalBytes := addBytes s.totalBytes bytes }

/-! ### `flush_consecutive` -/

/-- The body of the loop, for the buffer in the slot of `base_seq`. -/
def flushPass (conn : Conn) (isSnapshot keepForFec : Bool) (s : Stream w) (buf : BufferRef) : Stream w :=
  let s := deliverPacket conn isSnapshot s buf
  let r := if keepForFec then s.r else s.r.putSlot (slotOf w s.r.baseSeq)
  { s with r := { r with baseSeq := r.baseSeq + 1, count := r.count - 1 } }

/-- The loop. The fuel is the value of `count`, which falls by one in every pass. -/
def flushLoop (conn : Conn) (isSnapshot keepForFec : Bool) : Nat → Stream w → Stream w
  | 0, s => s
  | fuel + 1, s =>
    if s.r.count = 0 then s
    else match s.r.slots (slotOf w s.r.baseSeq) with
    | none => s
    | some buf => flushLoop conn isSnapshot keepForFec fuel (flushPass conn isSnapshot keepForFec s buf)

/-- The last part: expired groups are released once `base_seq` has passed the first end. -/
def releaseExpired (s : Stream w) : Stream w :=
  match s.fec with
  | none => s
  | some fec =>
    if fec.minEndSeqValid ∧ 0 < sdiff s.r.baseSeq fec.minEndSeq then
      let (fec, r) := fecReleaseExpiredGroups fec s.r s.r.baseSeq
      { s with fec := some fec, r := r }
    else s

def keepForFec (fec : Option FecContext) : Bool := fec.any fecIsEnabled

def flushConsecutive (conn : Conn) (isSnapshot : Bool) (s : Stream w) : Stream w :=
  releaseExpired (flushLoop conn isSnapshot (keepForFec s.fec) s.r.count.toNat s)

/-! ### `force_flush_until` -/

/-- The body of the loop. A hole is counted as lost at once, not after the loop. -/
def forceFlushPass (conn : Conn) (isSnapshot : Bool) (s : Stream w) : Stream w :=
  match s.r.slots (slotOf w s.r.baseSeq) with
  | some buf =>
    let s := deliverPacket conn isSnapshot s buf
    let r := s.r.putSlot (slotOf w s.r.baseSeq)
    { s with r := { r with baseSeq := r.baseSeq + 1, count := r.count - 1 } }
  | none =>
    { s with
      r := { s.r with baseSeq := s.r.baseSeq + 1 }
      fec := s.fec.map fun fec => { fec with packetsLost := fec.packetsLost + 1 } }

/-- The loop. The fuel is the distance to the target, which falls by one in every pass. -/
def forceFlushLoop (conn : Conn) (isSnapshot : Bool) (targetSeq : BitVec 16) : Nat → Stream w → Stream w
  | 0, s => s
  | fuel + 1, s =>
    if w.size ≤ sdiff targetSeq s.r.baseSeq then
      forceFlushLoop conn isSnapshot targetSeq fuel (forceFlushPass conn isSnapshot s)
    else s

def forceFlushUntil (conn : Conn) (isSnapshot : Bool) (s : Stream w) (targetSeq : BitVec 16) : Stream w :=
  forceFlushLoop conn isSnapshot targetSeq (ahead targetSeq s.r.baseSeq) s

/-! ### `rtp_reorder_insert` -/

/-- Phase 0: the first packet. -/
def insertFirst (r : RtpReorder w) (buf : BufferRef) (seqn : BitVec 16) : RtpReorder w :=
  { { r with baseSeq := seqn, phase := .collecting }.storeSlot buf seqn with count := 1 }

/-- Phase 1: a packet is stored if its slot is free, and `base_seq` follows the smallest number. -/
def insertCollecting (r : RtpReorder w) (buf : BufferRef) (seqn : BitVec 16) : RtpReorder w :=
  match r.slots (slotOf w seqn) with
  | some _ => r
  | none =>
    let r := r.storeSlot buf seqn
    if sdiff seqn r.baseSeq < 0 then { r with baseSeq := seqn } else r

theorem insertCollecting_free {r : RtpReorder w} {seqn : BitVec 16} (h : r.slots (slotOf w seqn) = none)
    (buf : BufferRef) : insertCollecting r buf seqn = { r.storeSlot buf seqn with
      baseSeq := if sdiff seqn r.baseSeq < 0 then seqn else r.baseSeq } := by
  unfold insertCollecting
  rw [h]
  dsimp only [RtpReorder.storeSlot]
  split <;> rfl

theorem insertCollecting_phase (r : RtpReorder w) (buf : BufferRef) (seqn : BitVec 16) :
    (insertCollecting r buf seqn).phase = r.phase := by
  unfold insertCollecting
  split
  · rfl
  · dsimp only
    split <;> rfl

/-- Phase 2: a packet takes its slot, an older buffer in it being released. -/
def insertSlot (r : RtpReorder w) (buf : BufferRef) (seqn : BitVec 16) : RtpReorder w :=
  (r.putSlot (slotOf w seqn)).storeSlot buf seqn

section InsertSlot

variable (r : RtpReorder w) (buf : BufferRef) (seqn : BitVec 16)

@[simp] theorem insertSlot_slots :
    (insertSlot r buf seqn).slots = Function.update r.slots (slotOf w seqn) (some buf) := by
  simp [insertSlot]

@[simp] theorem insertSlot_seq : (insertSlot r buf seqn).seq = Function.update r.seq (slotOf w seqn) seqn := by
  simp [insertSlot]

@[simp] theorem insertSlot_baseSeq : (insertSlot r buf seqn).baseSeq = r.baseSeq := by simp [insertSlot]

@[simp] theorem insertSlot_count : (insertSlot r buf seqn).count = r.count + 1 := by simp [insertSlot]

@[simp] theorem insertSlot_phase : (insertSlot r buf seqn).phase = r.phase := by simp [insertSlot]

end InsertSlot

/-- Case 4: recovery of the packet `base_seq`. -/
def recoverBase (heap : Heap) (conn : Conn) (isSnapshot : Bool) (s : Stream w) : Stream w :=
  match s.fec with
  | none => s
  | some fec =>
    if fecIsEnabled fec then
      match fecAttemptRecovery heap fec s.r s.r.baseSeq with
      | (fec, none) => { s with fec := some fec }
      | (fec, some recovered) =>
        let s := deliverRawPacket conn isSnapshot { s with fec := some fec } recovered
        flushConsecutive conn isSnapshot { s with r := { s.r with baseSeq := s.r.baseSeq + 1 } }
    else s

/-- Phase 2. -/
def insertActive (heap : Heap) (conn : Conn) (isSnapshot : Bool) (s : Stream w) (buf : BufferRef)
    (seqn : BitVec 16) : Stream w :=
  let seqDiff := sdiff seqn s.r.baseSeq
  if seqDiff = 0 then flushConsecutive conn isSnapshot { s with r := insertSlot s.r buf seqn }
  else if seqDiff < 0 then s
  else
    let s := if w.size ≤ seqDiff then forceFlushUntil conn isSnapshot s seqn else s
    if (rtpReorderGet s.r seqn).isSome then s
    else recoverBase heap conn isSnapshot { s with r := insertSlot s.r buf seqn }

/-- `rtp_reorder_insert`; the returned value is `totalBytes` of the result. -/
def rtpReorderInsert (heap : Heap) (conn : Conn) (isSnapshot : Bool) (s : Stream w) (buf : BufferRef)
    (seqn : BitVec 16) : Stream w :=
  let s := { s with totalBytes := 0 }
  match s.r.phase with
  | .notStarted => { s with r := insertFirst s.r buf seqn }
  | .collecting =>
    let r := insertCollecting s.r buf seqn
    if rtpReorderInitCollect ≤ r.count.toNat then
      flushConsecutive conn isSnapshot { s with r := { r with phase := .active } }
    else { s with r := r }
  | .active => insertActive heap conn isSnapshot s buf seqn

section Insert

variable {s : Stream w} (heap : Heap) (conn : Conn) (isSnapshot : Bool) (buf : BufferRef) (seqn : BitVec 16)

theorem rtpReorderInsert_collecting (h : s.r.phase = .collecting) :
    rtpReorderInsert heap conn isSnapshot s buf seqn =
      if rtpReorderInitCollect ≤ (insertCollecting s.r buf seqn).count.toNat then
        flushConsecutive conn isSnapshot
          { s with r := { insertCollecting s.r buf seqn with phase := .active }, totalBytes := 0 }
      else { s with r := insertCollecting s.r buf seqn, totalBytes := 0 } := by
  unfold rtpReorderInsert
  dsimp only
  rw [h]

theorem rtpReorderInsert_active (h : s.r.phase = .active) :
    rtpReorderInsert heap conn isSnapshot s buf seqn =
      insertActive heap conn isSnapshot { s with totalBytes := 0 } buf seqn := by
  unfold rtpReorderInsert
  dsimp only
  rw [h]

end Insert

/-! ### What every part of the code keeps

A property of rings that survives the release of a slot and any change of `base_seq` and `count`
survives every part of the code but the storing of a packet. -/

structure Lasting (P : RtpReorder w → Prop) : Prop where
  put : ∀ {r} i, P r → P (r.putSlot i)
  move : ∀ {r} baseSeq count, P r → P { r with baseSeq := baseSeq, count := count }

namespace Lasting

variable {P : RtpReorder w → Prop} (hP : Lasting P)
include hP

theorem releaseRange {r : RtpReorder w} (h : P r) (beginSeq endSeq : BitVec 16) :
    P (rtpReorderReleaseRange r beginSeq endSeq) := by
  unfold rtpReorderReleaseRange
  refine List.foldlRecOn _ _ h fun r hr i _ => ?_
  unfold releaseSeq
  split
  · exact hP.put _ hr
  · exact hr

theorem fecReleaseExpiredGroups {r : RtpReorder w} (h : P r) (ctx : FecContext) (baseSeq : BitVec 16) :
    P (fecReleaseExpiredGroups ctx r baseSeq).2 := by
  unfold Rtp2httpd.fecReleaseExpiredGroups
  refine List.foldlRecOn (motive := fun s : FecContext × RtpReorder w => P s.2) _ _ h fun s hs i _ => ?_
  unfold fecReleaseIfExpired
  split
  · exact hs
  · split
    · dsimp only
      split
      · exact hP.releaseRange hs _ _
      · exact hs
    · exact hs

theorem releaseExpired {s : Stream w} (h : P s.r) : P (releaseExpired s).r := by
  unfold Rtp2httpd.releaseExpired
  split
  · exact h
  · split
    · exact hP.fecReleaseExpiredGroups h _ _
    · exact h

theorem flushPass {s : Stream w} (h : P s.r) (conn : Conn) (isSnapshot keep : Bool) (buf : BufferRef) :
    P (flushPass conn isSnapshot keep s buf).r := by
  unfold Rtp2httpd.flushPass
  cases keep
  · exact hP.move _ _ (hP.put _ h)
  · exact hP.move _ _ h

theorem flushLoop {s : Stream w} (h : P s.r) (conn : Conn) (isSnapshot keep : Bool) (fuel : Nat) :
    P (flushLoop conn isSnapshot keep fuel s).r := by
  induction fuel generalizing s with
  | zero => exact h
  | succ fuel ih =>
    unfold Rtp2httpd.flushLoop
    split
    · exact h
    · split
      · exact h
      · exact ih (hP.flushPass h ..)

theorem flushConsecutive {s : Stream w} (h : P s.r) (conn : Conn) (isSnapshot : Bool) :
    P (flushConsecutive conn isSnapshot s).r :=
  hP.releaseExpired (hP.flushLoop h ..)

theorem forceFlushPass {s : Stream w} (h : P s.r) (conn : Conn) (isSnapshot : Bool) :
    P (forceFlushPass conn isSnapshot s).r := by
  unfold Rtp2httpd.forceFlushPass
  split
  · exact hP.move _ _ (hP.put _ h)
  · exact hP.move _ _ h

theorem forceFlushUntil {s : Stream w} (h : P s.r) (conn : Conn) (isSnapshot : Bool)
    (targetSeq : BitVec 16) : P (forceFlushUntil conn isSnapshot s targetSeq).r := by
  unfold Rtp2httpd.forceFlushUntil
  generalize ahead targetSeq s.r.baseSeq = fuel
  induction fuel generalizing s with
  | zero => exact h
  | succ fuel ih =>
    unfold forceFlushLoop
    split
    · exact ih (hP.forceFlushPass h ..)
    · exact h

theorem recoverBase {s : Stream w} (h : P s.r) (heap : Heap) (conn : Conn) (isSnapshot : Bool) :
    P (recoverBase heap conn isSnapshot s).r := by
  unfold Rtp2httpd.recoverBase
  split
  · exact h
  · split
    · split
      · exact h
      · next recovered _ =>
        exact hP.flushConsecutive (s := { deliverRawPacket conn isSnapshot { s with fec := _ } recovered with
          r := { s.r with baseSeq := s.r.baseSeq + 1 } }) (hP.move _ _ h) ..
    · exact h

theorem fecFindOrCreateGroup {r : RtpReorder w} (h : P r) (heap : Heap) (ctx : FecContext)
    (beginSeq endSeq : BitVec 16) (k m rtpLen : Nat) :
    P (fecFindOrCreateGroup heap ctx r beginSeq endSeq k m rtpLen).2.1 := by
  have hnew : P (fecNewSlot ctx r beginSeq).r := by
    unfold fecNewSlot
    split
    · exact h
    · dsimp only
      split
      · dsimp only
        split
        · exact hP.releaseRange h _ _
        · exact h
      · exact h
  unfold Rtp2httpd.fecFindOrCreateGroup
  split
  · exact h
  · split
    · exact h
    · dsimp only
      split <;> exact hnew

end Lasting

end Rtp2httpd
