import DOpenWrt.Rtp2httpd.RtpReorderWindow

/-!
# In-order delivery without FEC

A packet is delivered under its own number as long as the packets collected before the first delivery
span less than a window. Phase 1 accepts a packet for any free slot, so a packet from further away can
sit in a slot that `flush_consecutive` reaches under another number: the loop does not compare the
number recorded for the slot with `base_seq`, as `rtp_reorder_get` does.

The order is strict as long as no packet that arrives at an empty ring is the furthest that counts as ahead of
`base_seq`: it is half of the numbers behind the packet delivered last, and delivered next if all before it is lost.
-/

namespace Rtp2httpd
open Serial

variable {w : Window} {conn : Conn} {isSnapshot : Bool} {arrivals : List Arrival}

def Delivery.baseSeq : Delivery → BitVec 16
  | .packet baseSeq _ _ => baseSeq
  | .raw baseSeq _ _ => baseSeq

/-- `b` follows `a` in serial order. -/
def Follows (a b : BitVec 16) : Prop := 0 < sdiff b a

theorem follows_iff {a b : BitVec 16} : Follows a b ↔ 1 ≤ ahead b a ∧ ahead b a ≤ 32767 := by
  have hlt := ahead_lt_65536 b a
  rw [Follows, sdiff_eq_ite]
  split <;> omega

/-- Some packet in the ring is at most `n` ahead of `base_seq`. -/
def Pending (r : RtpReorder w) (n : Nat) : Prop :=
  ∃ i, (r.slots i).isSome ∧ ahead (r.seq i) r.baseSeq ≤ n

/-- Every delivered buffer is a packet that arrived, delivered when `base_seq` was its number, which was
also the number recorded for the slot. -/
def OwnNumbers (arrivals : List Arrival) (delivered : List Delivery) : Prop :=
  ∀ d ∈ delivered, ∃ a ∈ arrivals, d = .packet a.seqn a.seqn a.buf

/-- The delivered numbers advance in serial order. -/
def Advancing (delivered : List Delivery) : Prop := (delivered.map Delivery.baseSeq).IsChain Follows

/-- `bound` limits how far ahead of `base_seq` the next packet to be delivered can be. -/
structure InOrder (arrivals : List Arrival) (bound : BitVec 16 → Nat) (s : Stream w) : Prop where
  fec : s.fec = none
  window : InWindow s.r
  arrived : ∀ i buf, s.r.slots i = some buf → ∃ a ∈ arrivals, a.buf = buf ∧ a.seqn = s.r.seq i
  own : OwnNumbers arrivals s.delivered
  advancing : Advancing s.delivered
  last : ∀ d ∈ s.delivered.getLast?, 1 ≤ ahead s.r.baseSeq d.baseSeq ∧
    ahead s.r.baseSeq d.baseSeq ≤ 32767 ∧
      (ahead s.r.baseSeq d.baseSeq + bound s.r.baseSeq ≤ 32767 ∨
        Pending s.r (32767 - ahead s.r.baseSeq d.baseSeq))

theorem ahead_succ_left (b : BitVec 16) : ahead (b + 1) b = 1 := ahead_add (i := 1) (by decide) b

theorem ahead_succ_of_lt {a b : BitVec 16} (h : ahead a b < 65535) : ahead (a + 1) b = ahead a b + 1 := by
  have := ahead_trans_of_lt (a := a + 1) (b := a) (c := b) (by rw [ahead_succ_left]; omega)
  rw [this, ahead_succ_left]
  omega

theorem MadeRoom.lt {s s' : Stream w} {seqn : BitVec 16} (h : MadeRoom conn isSnapshot s seqn s') :
    Serial.ahead seqn s.r.baseSeq < 32768 := by
  have hsize := w.size_le
  cases h <;> omega

namespace InOrder

variable {bound : BitVec 16 → Nat} {s : Stream w}

/-- Delivering the packet in the slot of `base_seq`, whose slot is emptied. -/
theorem deliver (h : InOrder arrivals bound s) {buf : BufferRef}
    (hb : s.r.slots (slotOf w s.r.baseSeq) = some buf) {s' : Stream w} (hfec : s'.fec = none)
    (hwin : InWindow s'.r) (hslots : s'.r.slots = Function.update s.r.slots (slotOf w s.r.baseSeq) none)
    (hseq : s'.r.seq = s.r.seq) (hbase : s'.r.baseSeq = s.r.baseSeq + 1)
    (hdel : s'.delivered = s.delivered ++ [.packet s.r.baseSeq (s.r.seq (slotOf w s.r.baseSeq)) buf])
    (hbound : bound s'.r.baseSeq ≤ 32766) : InOrder arrivals bound s' := by
  rw [h.window.seq_base hb] at hdel
  refine ⟨hfec, hwin, ?_, ?_, ?_, ?_⟩
  · intro i b hi
    rw [hslots] at hi
    rw [hseq]
    rcases eq_or_ne i (slotOf w s.r.baseSeq) with rfl | hne
    · simp at hi
    · rw [Function.update_of_ne hne] at hi
      exact h.arrived i b hi
  · intro d hd
    rw [hdel, List.mem_append, List.mem_singleton] at hd
    rcases hd with hd | rfl
    · exact h.own d hd
    · obtain ⟨a, ha, rfl, hn⟩ := h.arrived _ _ hb
      rw [h.window.seq_base hb] at hn
      exact ⟨a, ha, by rw [hn]⟩
  · rw [Advancing, hdel, List.map_append, List.isChain_append]
    refine ⟨h.advancing, by simp, ?_⟩
    intro x hx y hy
    rw [List.getLast?_map] at hx
    obtain ⟨d, hd, rfl⟩ := Option.mem_map.1 hx
    simp only [List.map_cons, List.map_nil, List.head?_cons, Option.mem_some_iff] at hy
    subst hy
    exact follows_iff.2 ⟨(h.last d hd).1, (h.last d hd).2.1⟩
  · intro d hd
    rw [hdel, List.getLast?_concat, Option.mem_some_iff] at hd
    subst hd
    have : ahead s'.r.baseSeq s.r.baseSeq = 1 := by rw [hbase, ahead_succ_left]
    simp only [Delivery.baseSeq, this]
    refine ⟨le_rfl, by omega, .inl (by omega)⟩

theorem flushPass (h : InOrder arrivals (fun _ => 32766) s) {buf : BufferRef}
    (hb : s.r.slots (slotOf w s.r.baseSeq) = some buf) :
    InOrder arrivals (fun _ => 32766) (flushPass conn isSnapshot false s buf) :=
  h.deliver hb (by rw [flushPass_fec, h.fec]) h.window.flushPass flushPass_slots_false flushPass_seq
    flushPass_baseSeq flushPass_delivered le_rfl

theorem flushConsecutive (h : InOrder arrivals (fun _ => 32766) s) :
    InOrder arrivals (fun _ => 32766) (flushConsecutive conn isSnapshot s) := by
  rw [flushConsecutive_none h.fec]
  exact flushLoop_induct (fun s buf h _ hb => h.flushPass hb) h _

theorem forceFlushPass {target : BitVec 16} (h : InOrder arrivals (ahead target) s)
    (hd : w.size ≤ sdiff target s.r.baseSeq) :
    InOrder arrivals (ahead target) (forceFlushPass conn isSnapshot s) := by
  obtain ⟨hfar, hhalf⟩ := size_le_sdiff.1 hd
  have hsize := w.le_size
  have hne : target ≠ s.r.baseSeq := by
    rintro rfl
    rw [ahead_self] at hfar
    omega
  have hwin : InWindow (Rtp2httpd.forceFlushPass conn isSnapshot s).r := h.window.forceFlushPass
  have hbase := @forceFlushPass_baseSeq w conn isSnapshot s
  cases hb : s.r.slots (slotOf w s.r.baseSeq) with
  | some buf =>
    refine h.deliver hb (forceFlushPass_fec_none h.fec) hwin forceFlushPass_slots forceFlushPass_seq
      hbase ?_ ?_
    · rw [forceFlushPass_delivered, hb]
      rfl
    · rw [hbase, ahead_succ hne]
      omega
  | none =>
    have hr : Rtp2httpd.forceFlushPass conn isSnapshot s =
        { s with
          r := { s.r with baseSeq := s.r.baseSeq + 1 }
          fec := s.fec.map fun fec => { fec with packetsLost := fec.packetsLost + 1 } } := by
      unfold Rtp2httpd.forceFlushPass
      rw [hb]
    refine ⟨forceFlushPass_fec_none h.fec, hwin, ?_, ?_, ?_, ?_⟩ <;> rw [hr]
    · exact h.arrived
    · exact h.own
    · exact h.advancing
    · intro d hdl
      obtain ⟨hpos, hle, hnear⟩ := h.last d hdl
      have hpend : Pending s.r (32767 - ahead s.r.baseSeq d.baseSeq) →
          ahead s.r.baseSeq d.baseSeq < 32767 ∧ Pending { s.r with baseSeq := s.r.baseSeq + 1 }
            (32767 - (ahead s.r.baseSeq d.baseSeq + 1)) := by
        rintro ⟨i, hi, hle'⟩
        -- a packet in the ring is not the one that is missing
        have hne' : s.r.seq i ≠ s.r.baseSeq := by
          intro he
          obtain ⟨b, hib⟩ := Option.isSome_iff_exists.1 hi
          have := (h.window i b hib).1
          rw [he] at this
          rw [← this, hb] at hib
          cases hib
        have h0 : ahead (s.r.seq i) s.r.baseSeq ≠ 0 := fun h' => hne' (ahead_eq_zero.1 h')
        refine ⟨by omega, i, hi, ?_⟩
        show ahead (s.r.seq i) (s.r.baseSeq + 1) ≤ _
        rw [ahead_succ hne']
        omega
      have hlt : ahead s.r.baseSeq d.baseSeq < 32767 := by
        rcases hnear with hnear | hnear
        · omega
        · exact (hpend hnear).1
      simp only
      rw [ahead_succ_of_lt (by omega), ahead_succ hne]
      refine ⟨by omega, by omega, ?_⟩
      rcases hnear with hnear | hnear
      · exact .inl (by omega)
      · exact .inr (hpend hnear).2

theorem mono (h : InOrder arrivals bound s) {bound' : BitVec 16 → Nat}
    (hle : bound' s.r.baseSeq ≤ bound s.r.baseSeq) : InOrder arrivals bound' s where
  fec := h.fec
  window := h.window
  arrived := h.arrived
  own := h.own
  advancing := h.advancing
  last d hd := by
    obtain ⟨hpos, hle', hnear⟩ := h.last d hd
    exact ⟨hpos, hle', hnear.imp_left fun hn => by omega⟩

theorem congr (h : InOrder arrivals bound s) {s' : Stream w} (hslots : s'.r.slots = s.r.slots)
    (hseq : s'.r.seq = s.r.seq) (hbase : s'.r.baseSeq = s.r.baseSeq) (hfec : s'.fec = s.fec)
    (hdel : s'.delivered = s.delivered) : InOrder arrivals bound s' := by
  obtain ⟨h₁, h₂, h₃, h₄, h₅, h₆⟩ := h
  constructor <;> simp only [InWindow, Pending, hslots, hseq, hbase, hfec, hdel] <;> assumption

/-- Once the target is in the ring, it is the packet to be waited for. -/
theorem of_stored {target : BitVec 16} (h : InOrder arrivals (ahead target) s)
    (ht : (rtpReorderGet s.r target).isSome) : InOrder arrivals (fun _ => 32766) s where
  fec := h.fec
  window := h.window
  arrived := h.arrived
  own := h.own
  advancing := h.advancing
  last d hd := by
    obtain ⟨hpos, hle, hnear⟩ := h.last d hd
    refine ⟨hpos, hle, .inr (hnear.elim (fun hn => ?_) id)⟩
    unfold rtpReorderGet at ht
    split at ht
    · next hseq => exact ⟨slotOf w target, ht, by rw [hseq]; omega⟩
    · cases ht

/-- A packet that arrives at an empty ring is to be waited for; at any other, one that the ring holds. -/
theorem await (h : InOrder arrivals (fun _ => 32766) s) {target : BitVec 16}
    (hempty : (∀ i, s.r.slots i = none) → ahead target s.r.baseSeq ≤ 32766) : InOrder arrivals (ahead target) s := by
  by_cases hnone : ∀ i, s.r.slots i = none
  · exact h.mono (hempty hnone)
  · obtain ⟨i, hi⟩ := not_forall.1 hnone
    obtain ⟨buf, hb⟩ := Option.ne_none_iff_exists'.1 hi
    have hnear : ahead (s.r.seq i) s.r.baseSeq < w.size := (h.window i buf hb).2
    have hsize := w.size_le
    refine ⟨h.fec, h.window, h.arrived, h.own, h.advancing, fun d hd => ?_⟩
    obtain ⟨hpos, hle, hor⟩ := h.last d hd
    refine ⟨hpos, hle, .inr (hor.elim (fun hfirst => ⟨i, by simp [hb], ?_⟩) id)⟩
    -- the bound leaves `base_seq` directly behind the packet delivered last
    omega

theorem forceFlushUntil {target : BitVec 16} (h : InOrder arrivals (ahead target) s) :
    InOrder arrivals (ahead target) (forceFlushUntil conn isSnapshot s target) :=
  forceFlushLoop_induct (fun _ h hd => h.forceFlushPass hd) h _

theorem storeSlot (h : InOrder arrivals bound s) {a : Arrival} (hx : ahead a.seqn s.r.baseSeq < w.size) :
    InOrder (arrivals ++ [a]) bound { s with r := s.r.storeSlot a.buf a.seqn } where
  fec := h.fec
  window := h.window.storeSlot hx a.buf
  arrived i buf hi := by
    rcases eq_or_ne i (slotOf w a.seqn) with rfl | hne
    · simp only [RtpReorder.storeSlot_slots, Function.update_self, Option.some.injEq] at hi
      exact ⟨a, by simp, hi, by simp⟩
    · rw [RtpReorder.storeSlot_slots, Function.update_of_ne hne] at hi
      obtain ⟨a', ha', h'⟩ := h.arrived i buf hi
      refine ⟨a', List.mem_append_left _ ha', ?_⟩
      rwa [RtpReorder.storeSlot_seq, Function.update_of_ne hne]
  own d hd := by
    obtain ⟨a', ha', h'⟩ := h.own d hd
    exact ⟨a', List.mem_append_left _ ha', h'⟩
  advancing := h.advancing
  last d hd := by
    obtain ⟨hpos, hle, hnear⟩ := h.last d hd
    refine ⟨hpos, hle, hnear.imp_right ?_⟩
    rintro ⟨i, hi, hle'⟩
    rcases eq_or_ne i (slotOf w a.seqn) with rfl | hne
    · -- the packet that is replaced has the same number
      obtain ⟨buf, hb⟩ := Option.isSome_iff_exists.1 hi
      rw [h.window.seq_slotOf hx hb] at hle'
      exact ⟨slotOf w a.seqn, by simp, by simpa using hle'⟩
    · exact ⟨i, by simpa [Function.update_of_ne hne] using hi, by simpa [Function.update_of_ne hne] using hle'⟩

theorem insertSlot (h : InOrder arrivals bound s) {a : Arrival} (hx : ahead a.seqn s.r.baseSeq < w.size) :
    InOrder (arrivals ++ [a]) bound { s with r := insertSlot s.r a.buf a.seqn } :=
  (h.storeSlot hx).congr (by simp) (by simp) (by simp) rfl rfl

theorem arrive (h : InOrder arrivals bound s) (a : Arrival) : InOrder (arrivals ++ [a]) bound s where
  fec := h.fec
  window := h.window
  arrived i buf hi := by
    obtain ⟨a', ha', h'⟩ := h.arrived i buf hi
    exact ⟨a', List.mem_append_left _ ha', h'⟩
  own d hd := by
    obtain ⟨a', ha', h'⟩ := h.own d hd
    exact ⟨a', List.mem_append_left _ ha', h'⟩
  advancing := h.advancing
  last := h.last

theorem madeRoom {seqn : BitVec 16} (h : InOrder arrivals (ahead seqn) s) {s' : Stream w}
    (hs' : MadeRoom conn isSnapshot s seqn s') : InOrder arrivals (ahead seqn) s' := by
  cases hs' with
  | near => exact h
  | far => exact h.forceFlushUntil

theorem insertActive (h : InOrder arrivals (fun _ => 32766) s) {a : Arrival}
    (ha : (∀ i, s.r.slots i = none) → sdiff a.seqn s.r.baseSeq ≠ 32767) :
    InOrder (arrivals ++ [a]) (fun _ => 32766)
      (insertActive a.heap a.conn a.isSnapshot s a.buf a.seqn) := by
  have hnear (hlt : ahead a.seqn s.r.baseSeq < 32768) (hnone : ∀ i, s.r.slots i = none) :
      ahead a.seqn s.r.baseSeq ≤ 32766 := by
    have hne := ha hnone
    rw [sdiff_eq_ite, if_pos hlt] at hne
    omega
  have hcase := insertActive_cases a.heap a.conn a.isSnapshot s a.buf a.seqn
  generalize Rtp2httpd.insertActive a.heap a.conn a.isSnapshot s a.buf a.seqn = s₁ at hcase ⊢
  cases hcase with
  | expected heq =>
    have hx : ahead a.seqn s.r.baseSeq < w.size := by
      rw [heq, ahead_self]
      exact w.size_pos
    exact (h.insertSlot hx).flushConsecutive
  | late _ => exact h.arrive a
  | duplicate hroom hdup =>
    exact (((h.await (hnear hroom.lt)).madeRoom hroom).of_stored hdup).arrive a
  | stored hroom _ =>
    have h' := ((h.await (hnear hroom.lt)).madeRoom hroom).insertSlot hroom.ahead.2
    rw [recoverBase_none a.heap h'.fec]
    exact h'.of_stored (by simp [rtpReorderGet])

end InOrder

/-! ### Collecting -/

/-- A packet that will be stored while the first packets are collected is less than a window away from
each of them. -/
def CollectOk (s : Stream w) (a : Arrival) : Prop :=
  s.r.phase = .collecting → s.r.slots (slotOf w a.seqn) = none →
    ∀ i, (s.r.slots i).isSome → |sdiff a.seqn (s.r.seq i)| < w.size

instance (s : Stream w) (a : Arrival) : Decidable (CollectOk s a) :=
  inferInstanceAs (Decidable (s.r.phase = .collecting → s.r.slots (slotOf w a.seqn) = none →
    ∀ i, (s.r.slots i).isSome → |sdiff a.seqn (s.r.seq i)| < w.size))

/-- A packet that arrives while nothing is held, after the first packets, is not the furthest one that counts as ahead
of `base_seq`. -/
def NotHalfway (s : Stream w) (a : Arrival) : Prop :=
  s.r.phase = .active → (∀ i, s.r.slots i = none) → sdiff a.seqn s.r.baseSeq ≠ 32767

/-- What is asked of each arrival. -/
structure ArrivalOk (s : Stream w) (a : Arrival) : Prop where
  collect : CollectOk s a
  notHalfway : NotHalfway s a

instance (s : Stream w) (a : Arrival) : Decidable (ArrivalOk s a) :=
  decidable_of_iff (CollectOk s a ∧ (s.r.phase = .active → (∀ i, s.r.slots i = none) →
    sdiff a.seqn s.r.baseSeq ≠ 32767)) ⟨fun h => ⟨h.1, h.2⟩, fun h => ⟨h.1, h.2⟩⟩

structure OrderInv (arrivals : List Arrival) (s : Stream w) : Prop where
  inOrder : InOrder arrivals (fun _ => 32766) s
  unstarted : s.r.phase = .notStarted → ∀ i, s.r.slots i = none
  collecting : s.r.phase = .collecting → (rtpReorderGet s.r s.r.baseSeq).isSome
  idle : s.r.phase ≠ .active → s.delivered = []

namespace OrderInv

variable {s : Stream w}

theorem start : OrderInv [] startPlain where
  inOrder := ⟨rfl, nofun, nofun, nofun, .nil, nofun⟩
  unstarted _ _ := rfl
  collecting := nofun
  idle _ := rfl

theorem insertFirst (h : OrderInv arrivals s) (hp : s.r.phase = .notStarted) (a : Arrival) :
    OrderInv (arrivals ++ [a]) { s with r := insertFirst s.r a.buf a.seqn, totalBytes := 0 } := by
  have hdel := h.idle (by rw [hp]; nofun)
  have hempty := h.unstarted hp
  have h' : InOrder arrivals (fun _ => 32766)
      { s with r := { s.r with baseSeq := a.seqn, phase := Phase.collecting } } := by
    refine ⟨h.inOrder.fec, fun i buf hi => ?_, h.inOrder.arrived, h.inOrder.own, h.inOrder.advancing, ?_⟩
    · rw [hempty i] at hi
      cases hi
    · rw [hdel]
      nofun
  refine ⟨?_, nofun, fun _ => ?_, fun _ => hdel⟩
  · refine (h'.storeSlot (a := a) ?_).congr rfl rfl rfl rfl rfl
    rw [ahead_self]
    exact w.size_pos
  · simp [Rtp2httpd.insertFirst, rtpReorderGet]

/-- The numbers collected so far lie in a window that starts at the smallest of them. -/
theorem insertCollecting (h : OrderInv arrivals s) (hp : s.r.phase = .collecting) {a : Arrival}
    (ha : CollectOk s a) :
    OrderInv (arrivals ++ [a]) { s with r := insertCollecting s.r a.buf a.seqn, totalBytes := 0 } := by
  have hdel := h.idle (by rw [hp]; nofun)
  unfold Rtp2httpd.insertCollecting
  split
  · exact ⟨(h.inOrder.arrive a).congr rfl rfl rfl rfl rfl, h.unstarted, h.collecting, h.idle⟩
  · next hfree =>
    have hsize := w.size_le
    have hclose : ∀ i, (s.r.slots i).isSome →
        ahead a.seqn (s.r.seq i) < w.size ∨ ahead (s.r.seq i) a.seqn < w.size :=
      fun i hi => (abs_sdiff_lt (by omega)).1 (ha hp hfree i hi)
    obtain ⟨hbase, hseq⟩ := isSome_rtpReorderGet.1 (h.collecting hp)
    have hstarted : s.r.phase ≠ .notStarted := by rw [hp]; nofun
    dsimp only
    split
    · next hneg =>
      have hhalf : 32768 ≤ ahead a.seqn s.r.baseSeq := sdiff_neg.1 hneg
      have h' : InOrder arrivals (fun _ => 32766) { s with r := { s.r with baseSeq := a.seqn } } := by
        refine ⟨h.inOrder.fec, h.inOrder.window.rebase (h.collecting hp) hhalf hclose, h.inOrder.arrived,
          h.inOrder.own, h.inOrder.advancing, ?_⟩
        rw [hdel]
        nofun
      refine ⟨(h'.storeSlot (a := a) ?_).congr rfl rfl rfl rfl rfl, fun hn => absurd hn hstarted,
        fun _ => ?_, fun _ => hdel⟩
      · rw [ahead_self]
        exact w.size_pos
      · simp [rtpReorderGet]
    · next hpos =>
      have hbaseClose := hclose _ hbase
      rw [hseq] at hbaseClose
      have hx := ahead_lt_of_close hbaseClose hpos
      refine ⟨(h.inOrder.storeSlot hx).congr rfl rfl rfl rfl rfl, fun hn => absurd hn hstarted,
        fun _ => ?_, fun _ => hdel⟩
      have hne : slotOf w s.r.baseSeq ≠ slotOf w a.seqn := by
        intro he
        rw [he, hfree] at hbase
        cases hbase
      rw [isSome_rtpReorderGet]
      simp [Function.update_of_ne hne, hbase, hseq]

theorem insertArrival (h : OrderInv arrivals s) {a : Arrival} (ha : ArrivalOk s a) :
    OrderInv (arrivals ++ [a]) (insertArrival s a) := by
  unfold Rtp2httpd.insertArrival rtpReorderInsert
  dsimp only
  split
  · next hp => exact h.insertFirst hp a
  · next hp =>
    have h' := h.insertCollecting hp ha.collect
    split
    · -- enough packets: the first flush
      have hfull : InOrder (arrivals ++ [a]) (fun _ => 32766) { s with
          r := { Rtp2httpd.insertCollecting s.r a.buf a.seqn with phase := .active }, totalBytes := 0 } :=
        h'.inOrder.congr rfl rfl rfl rfl rfl
      have hphase := flushConsecutive_phase a.conn a.isSnapshot { s with
        r := { Rtp2httpd.insertCollecting s.r a.buf a.seqn with phase := .active }, totalBytes := 0 }
      refine ⟨hfull.flushConsecutive, ?_, ?_, ?_⟩ <;> rw [hphase] <;> simp
    · exact h'
  · next hp =>
    have hactive : InOrder arrivals (fun _ => 32766) { s with totalBytes := 0 } :=
      h.inOrder.congr rfl rfl rfl rfl rfl
    have hphase := insertActive_phase a.heap a.conn a.isSnapshot { s with totalBytes := 0 } a.buf a.seqn
    refine ⟨hactive.insertActive (ha.notHalfway hp), ?_, ?_, ?_⟩ <;> rw [hphase, hp] <;> simp

end OrderInv

/-- Without FEC every packet is delivered under its own number, and each delivered number is ahead of the one before it,
in every run in which the packets collected at the start are less than a window apart and no packet comes half of the
numbers behind the one delivered last. -/
theorem reorder_delivers_in_order {arrivals : List Arrival}
    (h : Run.Meets insertArrival ArrivalOk startPlain arrivals) :
    OwnNumbers arrivals (arrivals.foldl insertArrival startPlain).delivered ∧
      Advancing (arrivals.foldl insertArrival startPlain).delivered := by
  have hinv : OrderInv ([] ++ arrivals) (arrivals.foldl insertArrival startPlain) :=
    h.invariant (fun _ _ _ ha h => h.insertArrival ha) OrderInv.start
  exact ⟨hinv.inOrder.own, hinv.inOrder.advancing⟩

/-- The number recorded for the slot is `base_seq`. -/
def Delivery.InPlace : Delivery → Prop
  | .packet baseSeq seq _ => seq = baseSeq
  | .raw .. => True

instance : DecidablePred Delivery.InPlace
  | .packet _ _ _ => inferInstanceAs (Decidable (_ = _))
  | .raw .. => inferInstanceAs (Decidable True)

/-- Packets 0, 33, 2, 3, ..., 7: packet 33 takes the slot of the missing packet 1. -/
def farCollected : List Arrival := [0, 33, 2, 3, 4, 5, 6, 7].map fun n => .numbered n n

/-- Packet 33 is delivered as packet 1. -/
theorem farCollected_not_inPlace :
    ¬ ∀ d ∈ (farCollected.foldl insertArrival startPlain).delivered, d.InPlace := by
  decide

/-- Packets 1, 0, 3, 2, ..., 7, 6 and then 9. -/
theorem reorder_delivers_in_order_swapped :
    let arrivals := [1, 0, 3, 2, 5, 4, 7, 6, 9].map fun n => Arrival.numbered n n
    OwnNumbers arrivals (arrivals.foldl insertArrival startPlain).delivered ∧
      Advancing (arrivals.foldl insertArrival startPlain).delivered :=
  reorder_delivers_in_order (by decide)

end Rtp2httpd
