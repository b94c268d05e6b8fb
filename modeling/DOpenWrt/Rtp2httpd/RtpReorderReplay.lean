import DOpenWrt.Lib.Except
import DOpenWrt.Rtp2httpd.RtpFecBounds
import DOpenWrt.Rtp2httpd.RtpReorderOnce
import DOpenWrt.Rtp2httpd.RtpReorderOrder

/-!
# No packet is delivered twice

The conditions under which the loops do not come upon an old packet, and the runs with FEC in which they
hold in every step.
-/

namespace Rtp2httpd
open Serial SlotTable

variable {w : Window} {conn : Conn} {isSnapshot : Bool} {arrived : Nat} {buf : BufferRef}
  {r r' : RtpReorder w} {delivered : List Delivery}

/-! ### `flush_consecutive` -/

/-- The first `n` packets from `base_seq` on are in the ring, the next one is not. -/
def EndsAt (r : RtpReorder w) (n : Nat) : Prop :=
  (∀ i < n, (rtpReorderGet r (r.baseSeq + BitVec.ofNat 16 i)).isSome) ∧
    rtpReorderGet r (r.baseSeq + BitVec.ofNat 16 n) = none

instance (r : RtpReorder w) (n : Nat) : Decidable (EndsAt r n) := inferInstanceAs (Decidable (_ ∧ _))

/-- A flush that has come to the missing packet stops there: its slot is empty, or nothing waits. -/
def StopsAt (r : RtpReorder w) (n : Nat) : Prop :=
  r.slots (slotOf w (r.baseSeq + BitVec.ofNat 16 n)) = none ∨
    ∀ j < w.size, n < j → rtpReorderGet r (r.baseSeq + BitVec.ofNat 16 j) = none

instance (r : RtpReorder w) (n : Nat) : Decidable (StopsAt r n) := inferInstanceAs (Decidable (_ ∨ _))

/-- No group that expires with `base_seq` at `base` covers a packet that waits. -/
def ReleaseOk (s : Stream w) (base : BitVec 16) : Prop :=
  ∀ ctx ∈ s.fec, ctx.attached → ctx.minEndSeqValid → 0 < sdiff base ctx.minEndSeq →
    ∀ i, ∀ grp ∈ ctx.groups i, 0 < sdiff base grp.endSeq → NoneWaiting s.r base grp.beginSeq grp.endSeq

instance (s : Stream w) (base : BitVec 16) : Decidable (ReleaseOk s base) :=
  inferInstanceAs (Decidable (∀ ctx ∈ s.fec, _ → _ → _ → ∀ i, ∀ grp ∈ ctx.groups i, _ → _))

def FlushOk (s : Stream w) : Prop :=
  ∀ n < w.size + 1, EndsAt s.r n → StopsAt s.r n ∧ ReleaseOk s (s.r.baseSeq + BitVec.ofNat 16 n)

instance (s : Stream w) : Decidable (FlushOk s) := inferInstanceAs (Decidable (∀ n < w.size + 1, _ → _ ∧ _))

/-- `k` passes after `s`. -/
structure Flushed (arrived : Nat) (s : Stream w) (k : Nat) (s' : Stream w) : Prop where
  inv : OnceInv arrived s'.r s'.delivered
  shrunk : Shrunk s.r s'.r
  fec : s'.fec = s.fec
  baseSeq : s'.r.baseSeq = s.r.baseSeq + BitVec.ofNat 16 k
  le : k ≤ w.size
  held : ∀ i < k, (rtpReorderGet s.r (s.r.baseSeq + BitVec.ofNat 16 i)).isSome
  rest : ∀ j, k ≤ j → j < w.size → s'.r.slots (slotOf w (s.r.baseSeq + BitVec.ofNat 16 j)) =
    s.r.slots (slotOf w (s.r.baseSeq + BitVec.ofNat 16 j))

namespace Flushed

variable {s s' : Stream w} {k : Nat} (h : Flushed arrived s k s')
include h

theorem get {j : Nat} (hkj : k ≤ j) (hj : j < w.size) :
    rtpReorderGet s'.r (s.r.baseSeq + BitVec.ofNat 16 j) = rtpReorderGet s.r (s.r.baseSeq + BitVec.ofNat 16 j) := by
  rw [rtpReorderGet, rtpReorderGet, h.shrunk.seq, h.rest j hkj hj]

/-- Numbers of the next window share their slots with the numbers that were passed. -/
theorem get_wrapped (hseq : r.seq = s.r.seq) {j : Nat} (hj : j < k) :
    rtpReorderGet r (s.r.baseSeq + BitVec.ofNat 16 (w.size + j)) = none := by
  have hle := h.le
  have hsize := w.size_le
  have hsize' := w.le_size
  have hslot : slotOf w (s.r.baseSeq + BitVec.ofNat 16 (w.size + j)) = slotOf w (s.r.baseSeq + BitVec.ofNat 16 j) := by
    rw [Nat.add_comm, BitVec.ofNat_add, ← BitVec.add_assoc, slotOf_add_size]
  unfold rtpReorderGet
  rw [hseq, hslot, (isSome_rtpReorderGet.1 (h.held j hj)).2, if_neg]
  intro he
  have := congrArg (ahead · s.r.baseSeq) he
  rw [ahead_add (by omega), ahead_add (by omega)] at this
  omega

/-- Without a packet waiting nothing is counted. -/
theorem count_eq_zero (hnone : ∀ j, k ≤ j → j < w.size → rtpReorderGet s'.r (s.r.baseSeq + BitVec.ofNat 16 j) = none) :
    s'.r.count = 0 := by
  have hle := h.le
  have hsize := w.size_le
  refine BitVec.eq_of_toNat_eq ?_
  rw [h.inv.count]
  refine tally_eq_zero.2 fun i buf hi => ?_
  rw [decide_eq_false_iff_not]
  intro hnear
  have hplaced := h.inv.placed i buf hi
  have hget : (rtpReorderGet s'.r (s'.r.seq i)).isSome := by
    rw [isSome_rtpReorderGet, hplaced, hi]
    simp
  -- the number lies between `k` and `k + w` from the old `base_seq`
  have hnum := add_ahead (s'.r.seq i) s'.r.baseSeq
  rw [Near] at hnear
  rw [h.baseSeq, BitVec.add_assoc, ← BitVec.ofNat_add] at hnum
  rw [h.baseSeq] at hnear
  rw [← hnum] at hget
  generalize ahead (s'.r.seq i) (s.r.baseSeq + BitVec.ofNat 16 k) = d at hnear hget
  rcases Nat.lt_or_ge (k + d) w.size with hlt | hge
  · rw [hnone _ (by omega) hlt] at hget
    cases hget
  · have hwrap := h.get_wrapped h.shrunk.seq (show k + d - w.size < k by omega)
    rw [show w.size + (k + d - w.size) = k + d by omega] at hwrap
    rw [hwrap] at hget
    cases hget

/-- A hole at the present `base_seq` is a hole of the ring before. -/
theorem endsAt (hget : rtpReorderGet s'.r s'.r.baseSeq = none) : EndsAt s.r k := by
  refine ⟨h.held, ?_⟩
  rw [h.baseSeq] at hget
  rcases Nat.lt_or_ge k w.size with hlt | hge
  · rwa [h.get le_rfl hlt] at hget
  · obtain rfl : k = w.size := le_antisymm h.le hge
    have hwrap := h.get_wrapped (r := s.r) (Eq.refl _) w.size_pos
    rwa [Nat.add_zero] at hwrap

/-- The loop goes on only with the packet numbered `base_seq`. -/
theorem own (hstop : EndsAt s.r k → StopsAt s.r k) (hcount : s'.r.count ≠ 0)
    (hb : s'.r.slots (slotOf w s'.r.baseSeq) = some buf) : (rtpReorderGet s'.r s'.r.baseSeq).isSome := by
  rw [Option.isSome_iff_ne_none]
  intro hget
  have hends := h.endsAt hget
  rw [h.baseSeq] at hb hget
  rcases hstop hends with hempty | hnone
  · rw [h.shrunk.slots _ _ hb] at hempty
    cases hempty
  · refine hcount (h.count_eq_zero fun j hkj hj => ?_)
    rcases Nat.eq_or_lt_of_le hkj with rfl | hlt
    · exact hget
    · rw [h.get hkj hj, hnone j hj hlt]

theorem pass {keep : Bool} (hown : (rtpReorderGet s'.r s'.r.baseSeq).isSome)
    (hb : s'.r.slots (slotOf w s'.r.baseSeq) = some buf) :
    Flushed arrived s (k + 1) (flushPass conn isSnapshot keep s' buf) := by
  have hsize := w.size_le
  have hslots : (flushPass conn isSnapshot keep s' buf).r.slots = s'.r.slots ∨
      (flushPass conn isSnapshot keep s' buf).r.slots =
        Function.update s'.r.slots (slotOf w s'.r.baseSeq) none := by
    cases keep
    · exact .inr flushPass_slots_false
    · exact .inl flushPass_slots_true
  have hlt : k < w.size := by
    refine lt_of_le_of_ne h.le fun he => ?_
    have hwrap := h.get_wrapped h.shrunk.seq (j := 0) (by have := w.size_pos; omega)
    rw [Nat.add_zero, ← he, ← h.baseSeq] at hwrap
    rw [hwrap] at hown
    cases hown
  refine ⟨?_, ⟨fun i c hi => ?_, ?_⟩, ?_, ?_, hlt, fun i hi => ?_, fun j hkj hj => ?_⟩
  · refine h.inv.deliver hb (isSome_rtpReorderGet.1 hown).2 ?_ hslots flushPass_seq flushPass_baseSeq
      flushPass_count
    rw [flushPass_delivered, deliveredIds, List.filterMap_append]
    rfl
  · refine h.shrunk.slots i c ?_
    rcases hslots with hs | hs
    · rwa [hs] at hi
    · rw [hs] at hi
      rcases eq_or_ne i (slotOf w s'.r.baseSeq) with he | hne
      · rw [he, Function.update_self] at hi
        cases hi
      · rwa [Function.update_of_ne hne] at hi
  · rw [flushPass_seq, h.shrunk.seq]
  · rw [flushPass_fec, h.fec]
  · rw [flushPass_baseSeq, h.baseSeq, BitVec.add_assoc, BitVec.ofNat_add]
    rfl
  · rcases Nat.lt_succ_iff_lt_or_eq.1 hi with hi | rfl
    · exact h.held i hi
    · rwa [← h.get le_rfl hlt, ← h.baseSeq]
  · rw [← h.rest j (by omega) hj]
    rcases hslots with hs | hs
    · rw [hs]
    · rw [hs, Function.update_of_ne]
      rw [h.baseSeq]
      intro he
      have := slotOf_add_inj hj hlt he
      omega

end Flushed

/-- Where the loop stops, the packet `base_seq` is missing. -/
theorem OnceInv.get_of_stops (h : OnceInv arrived r delivered)
    (hstops : r.count = 0 ∨ r.slots (slotOf w r.baseSeq) = none) : rtpReorderGet r r.baseSeq = none := by
  by_contra hne
  obtain ⟨hsome, hseq⟩ := isSome_rtpReorderGet.1 (Option.isSome_iff_ne_none.2 hne)
  obtain ⟨buf, hb⟩ := Option.isSome_iff_exists.1 hsome
  rcases hstops with hc | hs
  · have hcount := h.count
    rw [hc] at hcount
    have hfar := tally_eq_zero.1 hcount.symm _ buf hb
    rw [decide_eq_false_iff_not, Near, hseq, ahead_self] at hfar
    exact hfar w.size_pos
  · rw [hs] at hb
    cases hb

theorem OnceInv.releaseExpired {s : Stream w} (h : OnceInv arrived s.r s.delivered)
    (hok : ReleaseOk s s.r.baseSeq) :
    OnceInv arrived (releaseExpired s).r (releaseExpired s).delivered := by
  unfold Rtp2httpd.releaseExpired
  split
  · exact h
  · next fec hfec =>
    split
    · next hexp =>
      exact h.released (Released.expiredGroups fun hatt i grp hi => hok fec hfec hatt hexp.1 hexp.2 i grp hi)
    · exact h

theorem OnceInv.flushConsecutive {s : Stream w} (h : OnceInv arrived s.r s.delivered) (hok : FlushOk s) :
    OnceInv arrived (flushConsecutive conn isSnapshot s).r (flushConsecutive conn isSnapshot s).delivered := by
  have hstart : Flushed arrived s 0 s :=
    ⟨h, ⟨fun _ _ h => h, rfl⟩, rfl, by simp, Nat.zero_le _, nofun, fun _ _ _ => rfl⟩
  obtain ⟨k, hk⟩ : ∃ k, Flushed arrived s k
      (flushLoop conn isSnapshot (keepForFec s.fec) s.r.count.toNat s) := by
    refine flushLoop_induct (P := fun s' => ∃ k, Flushed arrived s k s') ?_ ⟨0, hstart⟩ _
    rintro s' buf ⟨k, hk⟩ hcount hb
    have hstop := fun hends => (hok k (Nat.lt_succ_of_le hk.le) hends).1
    exact ⟨k + 1, hk.pass (hk.own hstop hcount hb) hb⟩
  have hget := hk.inv.get_of_stops (flushLoop_stops le_rfl)
  have hrel := (hok k (Nat.lt_succ_of_le hk.le) (hk.endsAt hget)).2
  refine hk.inv.releaseExpired fun ctx hctx hatt hvalid hmin i grp hi hexp => ?_
  rw [hk.fec] at hctx
  rw [hk.baseSeq] at hmin hexp ⊢
  exact (hrel ctx hctx hatt hvalid hmin i grp hi hexp).shrunk hk.shrunk

/-! ### `force_flush_until` -/

/-- The slots of the next `n` numbers are empty or hold these numbers. -/
def PassOk (r : RtpReorder w) (n : Nat) : Prop :=
  ∀ j < w.size, j < n → r.slots (slotOf w (r.baseSeq + BitVec.ofNat 16 j)) = none ∨
    (rtpReorderGet r (r.baseSeq + BitVec.ofNat 16 j)).isSome

instance (r : RtpReorder w) (n : Nat) : Decidable (PassOk r n) :=
  inferInstanceAs (Decidable (∀ j < w.size, _ → _ ∨ _))

theorem PassOk.forceFlushPass {s : Stream w} {n : Nat} (h : PassOk s.r (n + 1)) :
    PassOk (forceFlushPass conn isSnapshot s).r n := by
  intro j hj hjn
  have hsize := w.size_le
  have hnum : s.r.baseSeq + 1 + BitVec.ofNat 16 j = s.r.baseSeq + BitVec.ofNat 16 (j + 1) := by
    rw [BitVec.add_assoc, Nat.add_comm, BitVec.ofNat_add]
    rfl
  unfold rtpReorderGet
  rw [forceFlushPass_slots, forceFlushPass_baseSeq, forceFlushPass_seq, hnum]
  rcases Nat.eq_or_lt_of_le (show j + 1 ≤ w.size by omega) with he | hlt
  · rw [he, slotOf_add_size, Function.update_self]
    exact .inl rfl
  · rw [Function.update_of_ne]
    · exact h (j + 1) hlt (by omega)
    · intro he
      have := slotOf_add_inj hlt w.size_pos (he.trans (by simp))
      omega

theorem OnceInv.forceFlushPass {s : Stream w} (h : OnceInv arrived s.r s.delivered) {n : Nat}
    (hok : PassOk s.r (n + 1)) : OnceInv arrived (forceFlushPass conn isSnapshot s).r
      (forceFlushPass conn isSnapshot s).delivered := by
  have hbase := hok 0 w.size_pos (Nat.succ_pos n)
  rw [show s.r.baseSeq + BitVec.ofNat 16 0 = s.r.baseSeq by simp] at hbase
  have hcount := @forceFlushPass_count w conn isSnapshot s
  have hdel := @forceFlushPass_delivered w conn isSnapshot s
  rcases hbase with hnone | hown
  · rw [hnone] at hcount hdel
    refine h.pass (fun hsome => by rw [hnone] at hsome; cases hsome) ?_ ?_ forceFlushPass_seq forceFlushPass_baseSeq hcount
    · rw [hdel]
      simp
    · rw [forceFlushPass_slots]
      exact Function.update_eq_self_iff.2 hnone.symm
  · obtain ⟨hsome, hseq⟩ := isSome_rtpReorderGet.1 hown
    obtain ⟨buf, hb⟩ := Option.isSome_iff_exists.1 hsome
    rw [hb] at hcount hdel
    refine h.deliver hb hseq ?_ (.inr forceFlushPass_slots) forceFlushPass_seq forceFlushPass_baseSeq hcount
    rw [hdel, deliveredIds, List.filterMap_append]
    rfl

theorem OnceInv.iterate_forceFlushPass {s : Stream w} (h : OnceInv arrived s.r s.delivered) {n : Nat}
    (hok : PassOk s.r n) : OnceInv arrived ((Rtp2httpd.forceFlushPass conn isSnapshot)^[n] s).r
      ((Rtp2httpd.forceFlushPass conn isSnapshot)^[n] s).delivered := by
  induction n generalizing s with
  | zero => exact h
  | succ n ih =>
    rw [Function.iterate_succ_apply]
    exact ih (h.forceFlushPass hok) hok.forceFlushPass

/-! ### `rtp_reorder_insert` -/

/-- A packet is recovered only if it is not in the ring. -/
def RecoverOk (heap : Heap) (s : Stream w) : Prop :=
  ∀ ctx ∈ s.fec, fecIsEnabled ctx → (fecAttemptRecovery heap ctx s.r s.r.baseSeq).2.isSome →
    Vacant s.r ∧ FlushOk { s with
      r := { s.r with baseSeq := s.r.baseSeq + 1 }
      fec := some (fecAttemptRecovery heap ctx s.r s.r.baseSeq).1 }

instance (heap : Heap) (s : Stream w) : Decidable (RecoverOk heap s) :=
  inferInstanceAs (Decidable (∀ ctx ∈ s.fec, _ → _ → _ ∧ _))

theorem OnceInv.recoverBase {s : Stream w} (h : OnceInv arrived s.r s.delivered) {heap : Heap}
    (hok : RecoverOk heap s) : OnceInv arrived (recoverBase heap conn isSnapshot s).r
      (recoverBase heap conn isSnapshot s).delivered := by
  unfold Rtp2httpd.recoverBase
  split
  · exact h
  · next ctx hctx =>
    split
    · next hen =>
      split
      · exact h
      · next ctx' recovered hrec =>
        have hok := hok ctx hctx hen
        rw [hrec] at hok
        obtain ⟨hvacant, hflush⟩ := hok rfl
        have hget : rtpReorderGet s.r s.r.baseSeq = none := by
          unfold rtpReorderGet
          split
          · next hseq =>
            by_contra hne
            exact (hvacant (Option.isSome_iff_ne_none.2 hne)).1 hseq
          · rfl
        refine OnceInv.flushConsecutive ?_ hflush
        refine h.pass hvacant ?_ rfl rfl rfl rfl
        show deliveredIds (s.delivered ++ [.raw s.r.baseSeq (rtpReorderGet s.r s.r.baseSeq) recovered]) = _
        rw [hget, deliveredIds, List.filterMap_append]
        exact List.append_nil _
    · exact h

/-- Phase 2: the expected packet is not in the ring; room is made by passing numbers whose slots are
empty or theirs; and every flush stops at a missing packet. -/
def ActiveOk (s : Stream w) (a : Arrival) : Prop :=
  let room := if w.size ≤ ahead a.seqn s.r.baseSeq then forceFlushUntil a.conn a.isSnapshot s a.seqn else s
  (a.seqn = s.r.baseSeq →
    rtpReorderGet s.r a.seqn = none ∧ FlushOk { s with r := insertSlot s.r a.buf a.seqn }) ∧
  (0 < ahead a.seqn s.r.baseSeq → ahead a.seqn s.r.baseSeq < 32768 →
    PassOk s.r (ahead a.seqn s.r.baseSeq - (w.size - 1)) ∧
    (rtpReorderGet room.r a.seqn = none → RecoverOk a.heap { room with r := insertSlot room.r a.buf a.seqn }))

instance (s : Stream w) (a : Arrival) : Decidable (ActiveOk s a) :=
  inferInstanceAs (Decidable ((_ → _ ∧ _) ∧ (_ → _ → _ ∧ (_ → _))))

theorem OnceInv.madeRoom {s s' : Stream w} (h : OnceInv arrived s.r s.delivered) {seqn : BitVec 16}
    (hroom : MadeRoom conn isSnapshot s seqn s')
    (hok : PassOk s.r (ahead seqn s.r.baseSeq - (w.size - 1))) : OnceInv arrived s'.r s'.delivered := by
  cases hroom with
  | near => exact h
  | far _ hlt =>
    rw [forceFlushUntil_eq_iterate hlt]
    exact h.iterate_forceFlushPass hok

theorem MadeRoom.eq_ite {s s' : Stream w} {seqn : BitVec 16} (h : MadeRoom conn isSnapshot s seqn s') :
    s' = if w.size ≤ Serial.ahead seqn s.r.baseSeq then forceFlushUntil conn isSnapshot s seqn else s := by
  cases h with
  | near _ hlt => rw [if_neg (by omega)]
  | far hfar _ => rw [if_pos hfar]

theorem MadeRoom.ahead_pos {s s' : Stream w} {seqn : BitVec 16} (h : MadeRoom conn isSnapshot s seqn s') :
    0 < Serial.ahead seqn s.r.baseSeq ∧ Serial.ahead seqn s.r.baseSeq < 32768 := by
  have hsize := w.size_le
  have hsize' := w.size_pos
  cases h with
  | near hpos hlt => exact ⟨hpos, by omega⟩
  | far hfar hlt => exact ⟨by omega, hlt⟩

theorem OnceInv.insertActive {s : Stream w} (h : OnceInv arrived s.r s.delivered) {a : Arrival}
    (ha : ActiveOk s a) (hid : a.buf.id = arrived) :
    OnceInv (arrived + 1) (insertActive a.heap a.conn a.isSnapshot s a.buf a.seqn).r
      (insertActive a.heap a.conn a.isSnapshot s a.buf a.seqn).delivered := by
  obtain ⟨hexp, hahead⟩ := ha
  have hcase := insertActive_cases a.heap a.conn a.isSnapshot s a.buf a.seqn
  generalize Rtp2httpd.insertActive a.heap a.conn a.isSnapshot s a.buf a.seqn = s₁ at hcase ⊢
  cases hcase with
  | expected heq =>
    obtain ⟨hget, hflush⟩ := hexp heq
    have hx : ahead a.seqn s.r.baseSeq < w.size := by
      rw [heq, ahead_self]
      exact w.size_pos
    exact OnceInv.flushConsecutive (h.insertSlot hx hget hid) hflush
  | late => exact h.arrive
  | duplicate hroom _ =>
    obtain ⟨hpos, hlt⟩ := hroom.ahead_pos
    exact (h.madeRoom hroom (hahead hpos hlt).1).arrive
  | stored hroom hget =>
    obtain ⟨hpos, hlt⟩ := hroom.ahead_pos
    obtain ⟨hpass, hrec⟩ := hahead hpos hlt
    rw [← hroom.eq_ite] at hrec
    exact OnceInv.recoverBase ((h.madeRoom hroom hpass).insertSlot hroom.ahead.2 hget hid) (hrec hget)

/-! ### Collecting -/

/-- Before the first delivery every packet in the ring is in the window. -/
theorem OnceInv.inWindow (h : OnceInv arrived r []) : InWindow r := fun i buf hi =>
  ⟨h.placed i buf hi, (h.near_iff i buf hi).2 (by simp [deliveredIds])⟩

theorem OnceInv.rebase (h : OnceInv arrived r []) {base : BitVec 16} {phase : Phase}
    (hwin : InWindow { r with baseSeq := base }) :
    OnceInv arrived { r with baseSeq := base, phase := phase } [] where
  placed := h.placed
  near_iff i buf hi := iff_of_true (hwin i buf hi).2 (by simp [deliveredIds])
  count := by
    show r.count.toNat = _
    rw [h.count]
    refine tally_congr fun i buf hi => ?_
    rw [decide_eq_decide]
    exact iff_of_true (h.inWindow i buf hi).2 (hwin i buf hi).2
  distinct := h.distinct
  known := h.known
  delivered_known := h.delivered_known
  once := h.once

/-- The invariant of a stream, with the number of its inputs so far. -/
structure ReplayInv (arrived : Nat) (s : Stream w) : Prop where
  once : OnceInv arrived s.r s.delivered
  unstarted : s.r.phase = .notStarted → ∀ i, s.r.slots i = none
  collecting : s.r.phase = .collecting → (rtpReorderGet s.r s.r.baseSeq).isSome
  idle : s.r.phase ≠ .active → s.delivered = []

/-- What is asked of a packet. -/
structure InsertOk (s : Stream w) (a : Arrival) : Prop where
  collecting : CollectOk s a
  firstFlush : s.r.phase = .collecting →
    rtpReorderInitCollect ≤ (insertCollecting s.r a.buf a.seqn).count.toNat →
      FlushOk { s with r := insertCollecting s.r a.buf a.seqn }
  active : s.r.phase = .active → ActiveOk { s with totalBytes := 0 } a

instance (s : Stream w) (a : Arrival) : Decidable (InsertOk s a) :=
  decidable_of_iff (CollectOk s a ∧ (s.r.phase = .collecting →
    rtpReorderInitCollect ≤ (insertCollecting s.r a.buf a.seqn).count.toNat →
      FlushOk { s with r := insertCollecting s.r a.buf a.seqn }) ∧
    (s.r.phase = .active → ActiveOk { s with totalBytes := 0 } a))
    ⟨fun h => ⟨h.1, h.2.1, h.2.2⟩, fun h => ⟨h.collecting, h.firstFlush, h.active⟩⟩

namespace ReplayInv

variable {s : Stream w}

theorem insertFirst (h : ReplayInv arrived s) (hp : s.r.phase = .notStarted) {a : Arrival}
    (hid : a.buf.id = arrived) :
    ReplayInv (arrived + 1) { s with r := insertFirst s.r a.buf a.seqn, totalBytes := 0 } := by
  have hdel := h.idle (by rw [hp]; nofun)
  have hempty := h.unstarted hp
  have hcount : s.r.count = 0 := by
    refine BitVec.eq_of_toNat_eq ?_
    rw [h.once.count]
    refine tally_eq_zero.2 fun i buf hi => ?_
    rw [hempty i] at hi
    cases hi
  have hfirst : Rtp2httpd.insertFirst s.r a.buf a.seqn =
      { s.r with baseSeq := a.seqn, phase := Phase.collecting }.storeSlot a.buf a.seqn := by
    simp [Rtp2httpd.insertFirst, RtpReorder.storeSlot, hcount]
  have honce := h.once
  rw [hdel] at honce
  have hwin : InWindow { s.r with baseSeq := a.seqn } := fun i buf hi => by
    rw [show s.r.slots i = none from hempty i] at hi
    cases hi
  refine ⟨?_, fun hn => (by cases hn), fun _ => ?_, fun _ => hdel⟩
  · show OnceInv _ (Rtp2httpd.insertFirst s.r a.buf a.seqn) s.delivered
    rw [hfirst, hdel]
    refine (honce.rebase hwin).storeSlot (hempty _) ?_ hid
    rw [ahead_self]
    exact w.size_pos
  · simp [Rtp2httpd.insertFirst, rtpReorderGet]

theorem insertCollecting (h : ReplayInv arrived s) (hp : s.r.phase = .collecting) {a : Arrival}
    (ha : CollectOk s a) (hid : a.buf.id = arrived) :
    ReplayInv (arrived + 1) { s with r := insertCollecting s.r a.buf a.seqn, totalBytes := 0 } := by
  have hdel := h.idle (by rw [hp]; nofun)
  have honce := h.once
  rw [hdel] at honce
  cases hfree : s.r.slots (slotOf w a.seqn) with
  | some old =>
    have hsame : Rtp2httpd.insertCollecting s.r a.buf a.seqn = s.r := by
      unfold Rtp2httpd.insertCollecting
      rw [hfree]
    rw [hsame]
    exact ⟨h.once.arrive, h.unstarted, h.collecting, h.idle⟩
  | none =>
    have hsize := w.size_le
    have hclose : ∀ i, (s.r.slots i).isSome →
        ahead a.seqn (s.r.seq i) < w.size ∨ ahead (s.r.seq i) a.seqn < w.size :=
      fun i hi => (abs_sdiff_lt (by omega)).1 (ha hp hfree i hi)
    obtain ⟨hbase, hseq⟩ := isSome_rtpReorderGet.1 (h.collecting hp)
    have hstarted : s.r.phase ≠ .notStarted := by rw [hp]; nofun
    rw [insertCollecting_free hfree]
    split
    · next hneg =>
      have hwin := honce.inWindow.rebase (h.collecting hp) (sdiff_neg.1 hneg) hclose
      refine ⟨?_, fun hn => absurd hn hstarted, fun _ => by simp [rtpReorderGet], fun _ => hdel⟩
      show OnceInv _ ({ s.r with baseSeq := a.seqn }.storeSlot a.buf a.seqn) s.delivered
      rw [hdel]
      refine (honce.rebase hwin).storeSlot hfree ?_ hid
      rw [ahead_self]
      exact w.size_pos
    · next hpos =>
      have hbaseClose := hclose _ hbase
      rw [hseq] at hbaseClose
      have hx := ahead_lt_of_close hbaseClose hpos
      refine ⟨h.once.storeSlot hfree hx hid, fun hn => absurd hn hstarted, fun _ => ?_, fun _ => hdel⟩
      have hne : slotOf w s.r.baseSeq ≠ slotOf w a.seqn := by
        intro he
        rw [he, hfree] at hbase
        cases hbase
      rw [isSome_rtpReorderGet]
      simp [Function.update_of_ne hne, hbase, hseq]

theorem insertArrival (h : ReplayInv arrived s) {a : Arrival} (ha : InsertOk s a) (hid : a.buf.id = arrived) :
    ReplayInv (arrived + 1) (insertArrival s a) := by
  unfold Rtp2httpd.insertArrival rtpReorderInsert
  dsimp only
  split
  · next hp => exact h.insertFirst hp hid
  · next hp =>
    have h' := h.insertCollecting hp ha.collecting hid
    split
    · next hfull =>
      have hrel : Released (Rtp2httpd.insertCollecting s.r a.buf a.seqn)
          { Rtp2httpd.insertCollecting s.r a.buf a.seqn with phase := .active } :=
        ⟨⟨fun _ _ h => h, rfl⟩, rfl, rfl, fun _ _ h _ => h⟩
      have hactive := @OnceInv.flushConsecutive w a.conn a.isSnapshot _ { s with
        r := { Rtp2httpd.insertCollecting s.r a.buf a.seqn with phase := .active }, totalBytes := 0 }
        (h'.once.released hrel) (ha.firstFlush hp hfull)
      have hphase := flushConsecutive_phase a.conn a.isSnapshot { s with
        r := { Rtp2httpd.insertCollecting s.r a.buf a.seqn with phase := .active }, totalBytes := 0 }
      refine ⟨hactive, ?_, ?_, ?_⟩ <;> rw [hphase] <;> simp
    · exact h'
  · next hp =>
    have hactive := OnceInv.insertActive (s := { s with totalBytes := 0 }) h.once (ha.active hp) hid
    have hphase := insertActive_phase a.heap a.conn a.isSnapshot { s with totalBytes := 0 } a.buf a.seqn
    refine ⟨hactive, ?_, ?_, ?_⟩ <;> rw [hphase, hp] <;> simp

theorem released (h : ReplayInv arrived s) (hr : Released s.r r) (hphase : r.phase = s.r.phase)
    (fec : Option FecContext) : ReplayInv arrived { s with fec := fec, r := r } where
  once := h.once.released hr
  unstarted hp i := by
    rw [Option.eq_none_iff_forall_ne_some]
    intro buf hi
    have := hr.slots i buf hi
    rw [h.unstarted (hphase.symm.trans hp) i] at this
    cases this
  collecting hp := by
    obtain ⟨hsome, hseq⟩ := isSome_rtpReorderGet.1 (h.collecting (hphase.symm.trans hp))
    obtain ⟨buf, hb⟩ := Option.isSome_iff_exists.1 hsome
    have hnear : Near s.r (slotOf w s.r.baseSeq) := by
      rw [Near, hseq, ahead_self]
      exact w.size_pos
    show (rtpReorderGet r r.baseSeq).isSome
    rw [isSome_rtpReorderGet, hr.baseSeq, hr.seq, hr.kept _ buf hb hnear]
    exact ⟨rfl, hseq⟩
  idle hp := h.idle (by rwa [← hphase])

end ReplayInv

/-! ### Parity packets -/

/-- A group that is evicted covers no packet that waits. -/
def EvictOk (s : Stream w) (data : List UInt8) : Prop :=
  ∀ ctx ∈ s.fec, ctx.attached → ∀ hdr ∈ (fecParsePacket data).toOption.join,
    sdiff s.r.baseSeq hdr.endSeq ≤ 0 → fecFindGroup ctx hdr.beginSeq hdr.endSeq = none →
      (∀ i, (ctx.groups i).isSome) → ∀ grp ∈ ctx.groups (fecOldestIdx ctx hdr.beginSeq),
        NoneWaiting s.r s.r.baseSeq grp.beginSeq grp.endSeq

instance (s : Stream w) (data : List UInt8) : Decidable (EvictOk s data) :=
  inferInstanceAs (Decidable (∀ ctx ∈ s.fec, _ → ∀ hdr ∈ (fecParsePacket data).toOption.join, _ → _ → _ →
    ∀ grp ∈ ctx.groups (fecOldestIdx ctx hdr.beginSeq), _))

theorem Released.fecFindOrCreateGroup {heap : Heap} {ctx : FecContext} {beginSeq endSeq : BitVec 16}
    {k m rtpLen : Nat} (h : ctx.attached → sdiff r.baseSeq endSeq ≤ 0 → fecFindGroup ctx beginSeq endSeq = none →
      (∀ i, (ctx.groups i).isSome) → ∀ grp ∈ ctx.groups (fecOldestIdx ctx beginSeq),
        NoneWaiting r r.baseSeq grp.beginSeq grp.endSeq) :
    Released r (fecFindOrCreateGroup heap ctx r beginSeq endSeq k m rtpLen).2.1 := by
  unfold Rtp2httpd.fecFindOrCreateGroup
  split
  · exact Released.rfl
  · next hlive =>
    split
    · exact Released.rfl
    · next hfind =>
      have hnew : Released r (fecNewSlot ctx r beginSeq).r := by
        unfold fecNewSlot
        split
        · exact Released.rfl
        · next hfull =>
          have hfull : ∀ i, (ctx.groups i).isSome := fun i => by
            have := List.find?_eq_none.1 hfull i (List.mem_finRange i)
            simpa [Option.isSome_iff_ne_none] using this
          dsimp only
          split
          · next grp hgrp =>
            dsimp only
            split
            · next hatt => exact Released.range (h hatt (by
                rw [not_and] at hlive
                exact not_lt.1 (hlive hatt)) hfind hfull grp hgrp)
            · exact Released.rfl
          · exact Released.rfl
      dsimp only
      split <;> exact hnew

/-- A parity packet concerns the ring only by the group that is made for it. -/
theorem fecProcessPacket_ring {heap : Heap} {ctx ctx' : FecContext} {data : List UInt8} {res : Int}
    (h : fecProcessPacket heap ctx r data = .ok (ctx', r', res)) :
    r' = r ∨ ∃ hdr, fecParsePacket data = .ok (some hdr) ∧ r' = (fecFindOrCreateGroup heap
      { ctx with fecActive := true } r hdr.beginSeq hdr.endSeq hdr.k hdr.m hdr.rtpLen).2.1 := by
  have hcase := fecProcessPacket_cases heap ctx r data
  rw [h] at hcase
  generalize hout : Except.ok (ctx', r', res) = out at hcase
  cases hcase with
  | ignored =>
    cases hout
    exact .inl rfl
  | @noGroup hdr _ _ hparse hgroup =>
    cases hout
    exact .inr ⟨hdr, hparse, by rw [hgroup]⟩
  | @stored hdr _ _ _ grp hparse _ hgroup _ =>
    refine .inr ⟨hdr, hparse, ?_⟩
    rw [hgroup]
    cases hstore : fecStorePacket heap grp data hdr with
    | error e =>
      rw [hstore] at hout
      cases hout
    | ok grp' =>
      rw [hstore] at hout
      cases hout
      rfl

theorem ReplayInv.fecProcessPacket {s : Stream w} (h : ReplayInv arrived s) {heap : Heap} {ctx ctx' : FecContext}
    {data : List UInt8} {res : Int} (hctx : s.fec = some ctx) (hok : EvictOk s data)
    (hrun : fecProcessPacket heap ctx s.r data = .ok (ctx', r', res)) :
    ReplayInv arrived { s with fec := some ctx', r := r' } := by
  rcases fecProcessPacket_ring hrun with rfl | ⟨hdr, hparse, rfl⟩
  · exact h.released Released.rfl rfl _
  · refine h.released (Released.fecFindOrCreateGroup fun hatt => ?_)
      ((lasting_phase s.r.phase).fecFindOrCreateGroup rfl ..) _
    exact hok ctx hctx hatt hdr (by rw [hparse]; rfl)

/-! ### Runs -/

/-- A stream with the number of its inputs so far. Every packet comes in a buffer of its own, which gets
this number as its identity. -/
structure StreamRun (w : Window) where
  stream : Stream w
  arrived : Nat

def StreamInput.withId (id : Nat) : StreamInput → StreamInput
  | .rtp a => .rtp { a with buf := { a.buf with id := id } }
  | .fec heap data => .fec heap data

def runStep (f : StreamRun w) (x : StreamInput) : Except Fault (StreamRun w) := do
  return ⟨← streamStep f.stream (x.withId f.arrived), f.arrived + 1⟩

def StreamInput.Ok (s : Stream w) : StreamInput → Prop
  | .rtp a => InsertOk s a
  | .fec _ data => EvictOk s data

instance (s : Stream w) : DecidablePred (StreamInput.Ok s)
  | .rtp a => inferInstanceAs (Decidable (InsertOk s a))
  | .fec _ data => inferInstanceAs (Decidable (EvictOk s data))

def StepOk (f : StreamRun w) (x : StreamInput) : Prop := (x.withId f.arrived).Ok f.stream

instance (f : StreamRun w) (x : StreamInput) : Decidable (StepOk f x) :=
  inferInstanceAs (Decidable (StreamInput.Ok f.stream _))

theorem ReplayInv.start (useFec : Bool) (fecPort : BitVec 16) (attached : Bool) :
    ReplayInv 0 (startFec useFec fecPort attached) where
  once := by
    refine ⟨nofun, nofun, ?_, nofun, nofun, nofun, .nil⟩
    exact (tally_eq_zero.2 fun _ _ h => by cases h).symm
  unstarted _ _ := rfl
  collecting := nofun
  idle _ := rfl

theorem ReplayInv.runStep {f f' : StreamRun w} {x : StreamInput} (hok : StepOk f x)
    (h : ReplayInv f.arrived f.stream) (hrun : runStep f x = .ok f') : ReplayInv f'.arrived f'.stream := by
  unfold StepOk at hok
  unfold Rtp2httpd.runStep at hrun
  cases x with
  | rtp a =>
    cases hrun
    exact h.insertArrival hok rfl
  | fec heap data =>
    unfold StreamInput.withId streamStep at hrun
    cases hctx : f.stream.fec with
    | none =>
      rw [hctx] at hrun
      cases hrun
      exact ⟨h.once.arrive, h.unstarted, h.collecting, h.idle⟩
    | some ctx =>
      rw [hctx] at hrun
      dsimp only at hrun
      cases hstep : Rtp2httpd.fecProcessPacket heap ctx f.stream.r data with
      | error e =>
        rw [hstep] at hrun
        cases hrun
      | ok res =>
        rw [hstep] at hrun
        cases hrun
        have h' := h.fecProcessPacket hctx hok hstep
        exact ⟨h'.once.arrive, h'.unstarted, h'.collecting, h'.idle⟩

/-- In every run whose steps meet the condition no packet is delivered twice, and `count` is the number
of packets in the ring that have not been delivered. -/
theorem reorder_delivers_once {useFec attached : Bool} {fecPort : BitVec 16} {xs : List StreamInput}
    {f : StreamRun (Window.ofFec useFec)}
    (h : Run.MeetsM runStep StepOk ⟨startFec useFec fecPort attached, 0⟩ xs)
    (hrun : xs.foldlM runStep ⟨startFec useFec fecPort attached, 0⟩ = .ok f) :
    (deliveredIds f.stream.delivered).Nodup ∧
      f.stream.r.count.toNat = undelivered f.stream.r f.stream.delivered := by
  have hinv := h.invariant (I := fun f : StreamRun (Window.ofFec useFec) => ReplayInv f.arrived f.stream)
    (fun _ _ _ hok h hrun => h.runStep hok hrun) (ReplayInv.start useFec fecPort attached) hrun
  exact ⟨hinv.once.once, hinv.once.undelivered_eq.symm⟩

/-- A stream that learns of FEC from a parity packet and then receives the packets numbered `ns`. -/
def inBandFec (ns : List Nat) : Except Fault (StreamRun .small) :=
  (parityPacket 1 0 :: ns.map fun n => .rtp (.numbered n 0)).foldlM runStep ⟨startFec false 0 true, 0⟩

/-- Packets 0 to 7, 9 and 8. -/
theorem reorder_delivers_once_swapped : ∃ f, inBandFec [0, 1, 2, 3, 4, 5, 6, 7, 9, 8] = .ok f ∧
    (deliveredIds f.stream.delivered).Nodup ∧
      f.stream.r.count.toNat = undelivered f.stream.r f.stream.delivered := by
  have hmap : (inBandFec [0, 1, 2, 3, 4, 5, 6, 7, 9, 8]).map (fun _ => ()) = .ok () := by decide +kernel
  obtain ⟨f, hrun, -⟩ := Except.map_eq_ok.1 hmap
  exact ⟨f, hrun, @reorder_delivers_once false true 0 _ f (by decide +kernel) hrun⟩

/-- Packets 0 to 7, 63 and 32: packet 1 is delivered again in the place of packet 33. -/
theorem oldPacket_delivered_again : ∃ f, inBandFec [0, 1, 2, 3, 4, 5, 6, 7, 63, 32] = .ok f ∧
    deliveredIds f.stream.delivered = [1, 2, 3, 4, 5, 6, 7, 8, 10, 2] ∧
      ¬ (deliveredIds f.stream.delivered).Nodup := by
  have hmap : (inBandFec [0, 1, 2, 3, 4, 5, 6, 7, 63, 32]).map (fun f => deliveredIds f.stream.delivered) =
      .ok [1, 2, 3, 4, 5, 6, 7, 8, 10, 2] := by decide +kernel
  obtain ⟨f, hrun, hids⟩ := Except.map_eq_ok.1 hmap
  exact ⟨f, hrun, hids, by rw [hids]; decide⟩

end Rtp2httpd
