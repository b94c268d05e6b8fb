import DOpenWrt.Lib.SlotTable
import DOpenWrt.Rtp2httpd.RtpReorderInsert

/-!
# References held by the ring

Whatever is done to a ring, with or without FEC, it holds one reference for every slot that points at a
buffer, and none after the cleanup.
-/

namespace Rtp2httpd
open SlotTable

variable {w : Window}

/-- The number of slots that point at the buffer `b`. -/
def slotsPointingAt (r : RtpReorder w) (b : Nat) : Nat := tally (fun _ buf => buf.id = b) r.slots

structure RefsInv (r : RtpReorder w) : Prop where
  held : ∀ b, refsHeld r.refs b = slotsPointingAt r b
  released : NoDoubleRelease r.refs
  initialized : r.initialized = true
  unstarted : r.phase = .notStarted → ∀ i, r.slots i = none

namespace RefsInv

variable {r : RtpReorder w}

theorem init (useFec : Bool) : RefsInv (rtpReorderInit useFec) where
  held _ := by simp [rtpReorderInit, refsHeld, slotsPointingAt]
  released := trivial
  initialized := rfl
  unstarted _ _ := rfl

theorem putSlot (h : RefsInv r) (i : Fin w.size) : RefsInv (r.putSlot i) := by
  cases hi : r.slots i with
  | none =>
    have : r.putSlot i = r := by simp [RtpReorder.putSlot, hi]
    rwa [this]
  | some buf =>
    have hr : r.putSlot i = { r with slots := Function.update r.slots i none, refs := .put buf.id :: r.refs } := by
      simp [RtpReorder.putSlot, hi]
    have hclear : ∀ b, slotsPointingAt r b = slotsPointingAt (r.putSlot i) b + if buf.id = b then 1 else 0 := by
      intro b
      have := tally_clear (p := fun _ (buf : BufferRef) => decide (buf.id = b)) hi
      simpa [slotsPointingAt] using this
    constructor
    · intro b
      have := h.held b
      rw [hclear] at this
      rw [hr] at this ⊢
      simp only [refsHeld, this]
      split <;> simp
    · rw [hr]
      refine ⟨?_, h.released⟩
      rw [h.held, hclear, if_pos rfl]
      omega
    · rw [hr]
      exact h.initialized
    · intro hp
      rw [RtpReorder.putSlot_phase] at hp
      rw [h.unstarted hp i] at hi
      cases hi

theorem move (h : RefsInv r) (baseSeq count : BitVec 16) :
    RefsInv { r with baseSeq := baseSeq, count := count } :=
  ⟨h.held, h.released, h.initialized, h.unstarted⟩

theorem lasting : Lasting (RefsInv (w := w)) := ⟨fun i h => h.putSlot i, fun b c h => h.move b c⟩

theorem storeSlot (h : RefsInv r) {buf : BufferRef} {seqn : BitVec 16} (hi : r.slots (slotOf w seqn) = none)
    (hp : r.phase ≠ .notStarted) : RefsInv (r.storeSlot buf seqn) := by
  constructor
  · intro b
    have := tally_fill (p := fun _ (buf : BufferRef) => decide (buf.id = b)) hi buf
    simp only [decide_eq_true_eq] at this
    show refsHeld r.refs b + _ = ((tally _ _ : Nat) : Int)
    rw [RtpReorder.storeSlot_slots, this, h.held]
    simp [slotsPointingAt]
  · exact h.released
  · exact h.initialized
  · intro hn
    exact absurd hn hp

theorem insertFirst (h : RefsInv r) (hp : r.phase = .notStarted) (buf : BufferRef) (seqn : BitVec 16) :
    RefsInv (insertFirst r buf seqn) := by
  have h' : RefsInv { r with baseSeq := seqn, phase := Phase.collecting } :=
    ⟨h.held, h.released, h.initialized, nofun⟩
  exact (h'.storeSlot (h.unstarted hp _) nofun).move _ _

theorem insertCollecting (h : RefsInv r) (hp : r.phase = .collecting) (buf : BufferRef)
    (seqn : BitVec 16) : RefsInv (insertCollecting r buf seqn) := by
  unfold Rtp2httpd.insertCollecting
  split
  · exact h
  · next hi =>
    have h' : RefsInv (r.storeSlot buf seqn) := h.storeSlot hi (by rw [hp]; nofun)
    dsimp only
    split
    · exact h'.move _ _
    · exact h'

theorem insertSlot (h : RefsInv r) (hp : r.phase = .active) (buf : BufferRef) (seqn : BitVec 16) :
    RefsInv (insertSlot r buf seqn) :=
  (h.putSlot _).storeSlot (by simp) (by rw [RtpReorder.putSlot_phase, hp]; nofun)

theorem insertActive {s : Stream w} (h : RefsInv s.r) (hp : s.r.phase = .active) (heap : Heap) (conn : Conn)
    (isSnapshot : Bool) (buf : BufferRef) (seqn : BitVec 16) :
    RefsInv (insertActive heap conn isSnapshot s buf seqn).r := by
  -- `insertSlot` needs the phase along with the invariant
  have hlast : Lasting fun r : RtpReorder w => RefsInv r ∧ r.phase = .active :=
    ⟨fun i h => ⟨h.1.putSlot i, by rw [RtpReorder.putSlot_phase, h.2]⟩, fun b c h => ⟨h.1.move b c, h.2⟩⟩
  have hforce : ∀ {s : Stream w}, RefsInv s.r ∧ s.r.phase = .active →
      RefsInv (if (rtpReorderGet s.r seqn).isSome then s
        else recoverBase heap conn isSnapshot { s with r := Rtp2httpd.insertSlot s.r buf seqn }).r := by
    intro s hs
    split
    · exact hs.1
    · exact lasting.recoverBase (hs.1.insertSlot hs.2 buf seqn) ..
  unfold Rtp2httpd.insertActive
  dsimp only
  split
  · exact lasting.flushConsecutive (h.insertSlot hp buf seqn) ..
  · split
    · exact h
    · split
      · exact hforce (hlast.forceFlushUntil ⟨h, hp⟩ ..)
      · exact hforce ⟨h, hp⟩

theorem rtpReorderInsert {s : Stream w} (h : RefsInv s.r) (heap : Heap) (conn : Conn) (isSnapshot : Bool)
    (buf : BufferRef) (seqn : BitVec 16) : RefsInv (rtpReorderInsert heap conn isSnapshot s buf seqn).r := by
  unfold Rtp2httpd.rtpReorderInsert
  dsimp only
  split
  · next hp => exact h.insertFirst hp buf seqn
  · next hp =>
    have h' := h.insertCollecting hp buf seqn
    split
    · exact lasting.flushConsecutive ⟨h'.held, h'.released, h'.initialized, fun hn => by cases hn⟩ ..
    · exact h'
  · next hp => exact insertActive (s := { s with totalBytes := 0 }) h hp ..

end RefsInv

/-! ### Runs -/

/-- A call that concerns a ring. Every call may come with another FEC context, so that FEC can be
enabled and disabled at any moment. -/
inductive ReorderOp where
  | insert (heap : Heap) (conn : Conn) (isSnapshot : Bool) (fec : Option FecContext) (buf : BufferRef)
      (seqn : BitVec 16)
  | releaseRange (beginSeq endSeq : BitVec 16)
  | findOrCreateGroup (heap : Heap) (fec : FecContext) (beginSeq endSeq : BitVec 16) (k m rtpLen : Nat)
  | releaseExpiredGroups (fec : FecContext) (baseSeq : BitVec 16)

def ReorderOp.run (r : RtpReorder w) : ReorderOp → RtpReorder w
  | insert heap conn isSnapshot fec buf seqn =>
    (rtpReorderInsert heap conn isSnapshot ⟨r, fec, [], 0⟩ buf seqn).r
  | releaseRange beginSeq endSeq => rtpReorderReleaseRange r beginSeq endSeq
  | findOrCreateGroup heap fec beginSeq endSeq k m rtpLen =>
    (fecFindOrCreateGroup heap fec r beginSeq endSeq k m rtpLen).2.1
  | releaseExpiredGroups fec baseSeq => (fecReleaseExpiredGroups fec r baseSeq).2

theorem RefsInv.op {r : RtpReorder w} (h : RefsInv r) (op : ReorderOp) : RefsInv (op.run r) := by
  cases op with
  | insert heap conn isSnapshot fec buf seqn => exact h.rtpReorderInsert (s := ⟨r, fec, [], 0⟩) ..
  | releaseRange beginSeq endSeq => exact lasting.releaseRange h ..
  | findOrCreateGroup heap fec beginSeq endSeq k m rtpLen => exact lasting.fecFindOrCreateGroup h ..
  | releaseExpiredGroups fec baseSeq => exact lasting.fecReleaseExpiredGroups h ..

theorem RefsInv.ops {r : RtpReorder w} (h : RefsInv r) (ops : List ReorderOp) :
    RefsInv (ops.foldl ReorderOp.run r) := by
  induction ops generalizing r with
  | nil => exact h
  | cons op ops ih => exact ih (h.op op)

theorem foldl_putSlot_slots (l : List (Fin w.size)) (r : RtpReorder w) (i : Fin w.size) :
    (l.foldl RtpReorder.putSlot r).slots i = if i ∈ l then none else r.slots i := by
  induction l generalizing r with
  | nil => simp
  | cons j l ih =>
    rw [List.foldl_cons, ih, RtpReorder.putSlot_slots]
    rcases eq_or_ne i j with rfl | hij
    · simp
    · simp [hij]

theorem RefsInv.cleanup {r : RtpReorder w} (h : RefsInv r) :
    (∀ b, refsHeld (rtpReorderCleanup r).refs b = 0) ∧ NoDoubleRelease (rtpReorderCleanup r).refs := by
  have hfold : RefsInv ((List.finRange w.size).foldl RtpReorder.putSlot r) :=
    List.foldlRecOn _ _ h fun r hr i _ => hr.putSlot i
  have hslots : ((List.finRange w.size).foldl RtpReorder.putSlot r).slots = fun _ => none := by
    funext i
    rw [foldl_putSlot_slots, if_pos (List.mem_finRange i)]
  unfold rtpReorderCleanup
  rw [if_pos h.initialized]
  refine ⟨fun b => ?_, hfold.released⟩
  rw [hfold.held b, slotsPointingAt, hslots, tally_empty]
  rfl

/-- In every run the ring holds as many references to a buffer as slots point at it, it never gives back
one it does not hold, and the cleanup leaves none. -/
theorem reorder_refs_balanced (useFec : Bool) (ops : List ReorderOp) :
    let r := ops.foldl ReorderOp.run (rtpReorderInit useFec)
    (∀ b, refsHeld r.refs b = slotsPointingAt r b) ∧ NoDoubleRelease r.refs ∧
      (∀ b, refsHeld (rtpReorderCleanup r).refs b = 0) ∧
      NoDoubleRelease (rtpReorderCleanup r).refs := by
  intro r
  have h : RefsInv r := (RefsInv.init useFec).ops ops
  exact ⟨h.held, h.released, h.cleanup⟩

end Rtp2httpd
