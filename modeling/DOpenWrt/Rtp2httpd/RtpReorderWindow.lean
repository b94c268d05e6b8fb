import DOpenWrt.Lib.Run
import DOpenWrt.Rtp2httpd.RtpReorderInsert

/-!
# Loops and windows

How the two loops of the ring are reasoned about, what `rtp_reorder_insert` amounts to without FEC, and
the window property: every packet in the ring is in the slot of its number and less than a window ahead
of `base_seq`.
-/

namespace Rtp2httpd
open Serial

variable {w : Window} {conn : Conn} {isSnapshot keep : Bool} {s : Stream w} {buf : BufferRef}

theorem toNat_add_one {c : BitVec 16} (h : c.toNat < 2 ^ 16 - 1) : (c + 1).toNat = c.toNat + 1 := by
  rw [BitVec.toNat_add]
  simp
  omega

theorem toNat_sub_one {c : BitVec 16} (h : c ≠ 0) : (c - 1).toNat = c.toNat - 1 := by
  have : c.toNat ≠ 0 := fun h' => h (BitVec.eq_of_toNat_eq (by simpa using h'))
  rw [BitVec.toNat_sub]
  simp
  omega

/-! ### The passes -/

@[simp] theorem flushPass_baseSeq : (flushPass conn isSnapshot keep s buf).r.baseSeq = s.r.baseSeq + 1 := by
  cases keep <;> simp [flushPass, deliverPacket]

@[simp] theorem flushPass_count : (flushPass conn isSnapshot keep s buf).r.count = s.r.count - 1 := by
  cases keep <;> simp [flushPass, deliverPacket]

@[simp] theorem flushPass_seq : (flushPass conn isSnapshot keep s buf).r.seq = s.r.seq := by
  cases keep <;> simp [flushPass, deliverPacket]

@[simp] theorem flushPass_phase : (flushPass conn isSnapshot keep s buf).r.phase = s.r.phase := by
  cases keep <;> simp [flushPass, deliverPacket]

@[simp] theorem flushPass_fec : (flushPass conn isSnapshot keep s buf).fec = s.fec := by
  cases keep <;> simp [flushPass, deliverPacket]

@[simp] theorem flushPass_delivered : (flushPass conn isSnapshot keep s buf).delivered =
    s.delivered ++ [.packet s.r.baseSeq (s.r.seq (slotOf w s.r.baseSeq)) buf] := by
  cases keep <;> simp [flushPass, deliverPacket]

@[simp] theorem flushPass_slots_false : (flushPass conn isSnapshot false s buf).r.slots =
    Function.update s.r.slots (slotOf w s.r.baseSeq) none := by
  simp [flushPass, deliverPacket]

@[simp] theorem flushPass_slots_true : (flushPass conn isSnapshot true s buf).r.slots = s.r.slots := by
  simp [flushPass, deliverPacket]

@[simp] theorem forceFlushPass_baseSeq :
    (forceFlushPass conn isSnapshot s).r.baseSeq = s.r.baseSeq + 1 := by
  unfold forceFlushPass
  split <;> simp [deliverPacket]

@[simp] theorem forceFlushPass_seq : (forceFlushPass conn isSnapshot s).r.seq = s.r.seq := by
  unfold forceFlushPass
  split <;> simp [deliverPacket]

@[simp] theorem forceFlushPass_phase : (forceFlushPass conn isSnapshot s).r.phase = s.r.phase := by
  unfold forceFlushPass
  split <;> simp [deliverPacket]

/-- Whether or not there was a packet, the slot is empty after the pass. -/
@[simp] theorem forceFlushPass_slots : (forceFlushPass conn isSnapshot s).r.slots =
    Function.update s.r.slots (slotOf w s.r.baseSeq) none := by
  unfold forceFlushPass
  split
  · simp [deliverPacket]
  · next h => exact (Function.update_eq_self_iff.2 h.symm).symm

theorem forceFlushPass_count : (forceFlushPass conn isSnapshot s).r.count =
    if (s.r.slots (slotOf w s.r.baseSeq)).isSome then s.r.count - 1 else s.r.count := by
  unfold forceFlushPass
  split <;> simp [deliverPacket, *]

theorem forceFlushPass_delivered : (forceFlushPass conn isSnapshot s).delivered = s.delivered ++
    ((s.r.slots (slotOf w s.r.baseSeq)).map
      (.packet s.r.baseSeq (s.r.seq (slotOf w s.r.baseSeq)))).toList := by
  unfold forceFlushPass
  split <;> simp [deliverPacket, *]

theorem forceFlushPass_fec_none (h : s.fec = none) : (forceFlushPass conn isSnapshot s).fec = none := by
  unfold forceFlushPass
  split <;> simp [deliverPacket, h]

/-! ### The loops -/

theorem flushLoop_induct {P : Stream w → Prop}
    (hpass : ∀ s buf, P s → s.r.count ≠ 0 → s.r.slots (slotOf w s.r.baseSeq) = some buf →
      P (flushPass conn isSnapshot keep s buf)) (h : P s) (fuel : Nat) :
    P (flushLoop conn isSnapshot keep fuel s) := by
  induction fuel generalizing s with
  | zero => exact h
  | succ fuel ih =>
    unfold flushLoop
    split
    · exact h
    · next hc =>
      split
      · exact h
      · next buf hb => exact ih (hpass s buf h hc hb)

/-- The fuel is enough: the loop stops at a hole or with nothing left. -/
theorem flushLoop_stops {fuel : Nat} (hf : s.r.count.toNat ≤ fuel) :
    (flushLoop conn isSnapshot keep fuel s).r.count = 0 ∨
      (flushLoop conn isSnapshot keep fuel s).r.slots
        (slotOf w (flushLoop conn isSnapshot keep fuel s).r.baseSeq) = none := by
  induction fuel generalizing s with
  | zero =>
    left
    show s.r.count = 0
    exact BitVec.eq_of_toNat_eq (by simpa using hf)
  | succ fuel ih =>
    unfold flushLoop
    split
    · next hc => exact .inl hc
    · next hc =>
      split
      · next hb => exact .inr hb
      · refine ih ?_
        rw [flushPass_count, toNat_sub_one hc]
        omega

theorem forceFlushLoop_induct {P : Stream w → Prop} {target : BitVec 16}
    (hpass : ∀ s, P s → w.size ≤ sdiff target s.r.baseSeq → P (forceFlushPass conn isSnapshot s))
    (h : P s) (fuel : Nat) : P (forceFlushLoop conn isSnapshot target fuel s) := by
  induction fuel generalizing s with
  | zero => exact h
  | succ fuel ih =>
    unfold forceFlushLoop
    split
    · next hd => exact ih (hpass s h hd)
    · exact h

theorem size_le_sdiff {a b : BitVec 16} :
    (w.size : ℤ) ≤ sdiff a b ↔ w.size ≤ ahead a b ∧ ahead a b < 32768 := by
  have := ahead_lt_65536 a b
  have := w.le_size
  rw [sdiff_eq_ite]
  split <;> omega

/-- A force flush passes every number up to a window before the target. -/
theorem forceFlushUntil_eq_iterate {target : BitVec 16} (h : ahead target s.r.baseSeq < 32768) :
    forceFlushUntil conn isSnapshot s target =
      (forceFlushPass conn isSnapshot)^[ahead target s.r.baseSeq - (w.size - 1)] s := by
  unfold forceFlushUntil
  generalize hf : ahead target s.r.baseSeq = fuel at *
  have hsize := w.le_size
  induction fuel generalizing s with
  | zero => rw [Nat.zero_sub]; rfl
  | succ fuel ih =>
    unfold forceFlushLoop
    split
    · next hd =>
      have hne : target ≠ s.r.baseSeq := fun h => by rw [h, ahead_self] at hf; omega
      obtain ⟨hfar, -⟩ := size_le_sdiff.1 hd
      rw [ih (by rw [forceFlushPass_baseSeq, ahead_succ hne, hf]; rfl) (by omega),
        ← Function.iterate_succ_apply]
      congr 2
      omega
    · next hd =>
      rw [size_le_sdiff, hf] at hd
      rw [show fuel + 1 - (w.size - 1) = 0 by omega]
      rfl

theorem iterate_forceFlushPass_baseSeq (n : Nat) :
    ((forceFlushPass conn isSnapshot)^[n] s).r.baseSeq = s.r.baseSeq + BitVec.ofNat 16 n := by
  induction n with
  | zero => simp
  | succ n ih =>
    rw [Function.iterate_succ_apply', forceFlushPass_baseSeq, ih, BitVec.add_assoc, BitVec.ofNat_add]
    rfl

theorem iterate_forceFlushPass_seq (n : Nat) :
    ((forceFlushPass conn isSnapshot)^[n] s).r.seq = s.r.seq := by
  induction n with
  | zero => rfl
  | succ n ih => rw [Function.iterate_succ_apply', forceFlushPass_seq, ih]

theorem iterate_forceFlushPass_slots (n : Nat) (i : Fin w.size) :
    ((forceFlushPass conn isSnapshot)^[n] s).r.slots i =
      if ∃ j < n, slotOf w (s.r.baseSeq + BitVec.ofNat 16 j) = i then none else s.r.slots i := by
  induction n with
  | zero => simp
  | succ n ih =>
    rw [Function.iterate_succ_apply', forceFlushPass_slots, iterate_forceFlushPass_baseSeq]
    rcases eq_or_ne i (slotOf w (s.r.baseSeq + BitVec.ofNat 16 n)) with rfl | hne
    · rw [Function.update_self, if_pos ⟨n, by omega, rfl⟩]
    · rw [Function.update_of_ne hne, ih]
      congr 1
      simp only [Nat.lt_succ_iff_lt_or_eq, or_and_right, exists_or, exists_eq_left, hne.symm, or_false]

/-- Where the target lies after a force flush. -/
theorem forceFlushUntil_ahead {target : BitVec 16} (h : ahead target s.r.baseSeq < 32768) :
    ahead target (forceFlushUntil conn isSnapshot s target).r.baseSeq =
      min (ahead target s.r.baseSeq) (w.size - 1) := by
  have hsize := w.le_size
  rw [forceFlushUntil_eq_iterate h, iterate_forceFlushPass_baseSeq]
  generalize hn : ahead target s.r.baseSeq - (w.size - 1) = n
  have hlt : n < 2 ^ 16 := by omega
  have hsum := ahead_trans target (s.r.baseSeq + BitVec.ofNat 16 n) s.r.baseSeq
  rw [ahead_add hlt] at hsum
  have := ahead_lt_65536 target (s.r.baseSeq + BitVec.ofNat 16 n)
  omega

/-! ### The phase -/

theorem lasting_phase (p : Phase) : Lasting fun r : RtpReorder w => r.phase = p :=
  ⟨fun _ h => by rw [RtpReorder.putSlot_phase, h], fun _ _ h => h⟩

theorem flushConsecutive_phase (conn : Conn) (isSnapshot : Bool) (s : Stream w) :
    (flushConsecutive conn isSnapshot s).r.phase = s.r.phase :=
  (lasting_phase s.r.phase).flushConsecutive rfl ..

theorem forceFlushUntil_phase (target : BitVec 16) :
    (forceFlushUntil conn isSnapshot s target).r.phase = s.r.phase :=
  (lasting_phase s.r.phase).forceFlushUntil rfl ..

theorem recoverBase_phase (heap : Heap) : (recoverBase heap conn isSnapshot s).r.phase = s.r.phase :=
  (lasting_phase s.r.phase).recoverBase rfl ..

/-! ### What an insertion can do -/

/-- The stream in which a packet ahead of `base_seq` will be stored. -/
inductive MadeRoom (conn : Conn) (isSnapshot : Bool) (s : Stream w) (seqn : BitVec 16) : Stream w → Prop
  | near (hpos : 0 < ahead seqn s.r.baseSeq) (hlt : ahead seqn s.r.baseSeq < w.size) :
    MadeRoom conn isSnapshot s seqn s
  | far (hfar : w.size ≤ ahead seqn s.r.baseSeq) (hlt : ahead seqn s.r.baseSeq < 32768) :
    MadeRoom conn isSnapshot s seqn (forceFlushUntil conn isSnapshot s seqn)

theorem MadeRoom.ahead {seqn : BitVec 16} {s' : Stream w} (h : MadeRoom conn isSnapshot s seqn s') :
    0 < ahead seqn s'.r.baseSeq ∧ ahead seqn s'.r.baseSeq < w.size := by
  have := w.le_size
  cases h with
  | near hpos hlt => exact ⟨hpos, hlt⟩
  | far hfar hlt =>
    rw [forceFlushUntil_ahead hlt]
    omega

/-- The four ways through phase 2. -/
inductive ActiveCase (heap : Heap) (conn : Conn) (isSnapshot : Bool) (s : Stream w) (buf : BufferRef)
    (seqn : BitVec 16) : Stream w → Prop
  | expected (h : seqn = s.r.baseSeq) : ActiveCase heap conn isSnapshot s buf seqn
      (flushConsecutive conn isSnapshot { s with r := insertSlot s.r buf seqn })
  | late (h : 32768 ≤ ahead seqn s.r.baseSeq) : ActiveCase heap conn isSnapshot s buf seqn s
  | duplicate {s' : Stream w} (hroom : MadeRoom conn isSnapshot s seqn s')
      (h : (rtpReorderGet s'.r seqn).isSome) : ActiveCase heap conn isSnapshot s buf seqn s'
  | stored {s' : Stream w} (hroom : MadeRoom conn isSnapshot s seqn s')
      (h : rtpReorderGet s'.r seqn = none) : ActiveCase heap conn isSnapshot s buf seqn
        (recoverBase heap conn isSnapshot { s' with r := insertSlot s'.r buf seqn })

theorem insertActive_cases (heap : Heap) (conn : Conn) (isSnapshot : Bool) (s : Stream w) (buf : BufferRef)
    (seqn : BitVec 16) : ActiveCase heap conn isSnapshot s buf seqn
      (insertActive heap conn isSnapshot s buf seqn) := by
  have hd := sdiff_eq_ite seqn s.r.baseSeq
  have hlt := ahead_lt_65536 seqn s.r.baseSeq
  have hsize := w.le_size
  have hroom : ∀ {s'}, MadeRoom conn isSnapshot s seqn s' → ActiveCase heap conn isSnapshot s buf seqn
      (if (rtpReorderGet s'.r seqn).isSome then s'
        else recoverBase heap conn isSnapshot { s' with r := insertSlot s'.r buf seqn }) := by
    intro s' hs'
    split
    · next h => exact .duplicate hs' h
    · next h => exact .stored hs' (by simpa using h)
  unfold insertActive
  dsimp only
  split
  · next h0 =>
    refine .expected (ahead_eq_zero.1 ?_)
    split at hd <;> omega
  · next h0 =>
    split
    · next hneg =>
      refine .late ?_
      split at hd <;> omega
    · next hneg =>
      have hhalf : ahead seqn s.r.baseSeq < 32768 := by split at hd <;> omega
      rw [if_pos hhalf] at hd
      split
      · next hfar => exact hroom (.far (by omega) hhalf)
      · next hnear => exact hroom (.near (by omega) (by omega))

theorem MadeRoom.phase {seqn : BitVec 16} {s' : Stream w} (h : MadeRoom conn isSnapshot s seqn s') :
    s'.r.phase = s.r.phase := by
  cases h with
  | near => rfl
  | far => exact forceFlushUntil_phase seqn

theorem insertActive_phase (heap : Heap) (conn : Conn) (isSnapshot : Bool) (s : Stream w) (buf : BufferRef)
    (seqn : BitVec 16) : (insertActive heap conn isSnapshot s buf seqn).r.phase = s.r.phase := by
  have hcase := insertActive_cases heap conn isSnapshot s buf seqn
  generalize insertActive heap conn isSnapshot s buf seqn = s₁ at hcase ⊢
  cases hcase with
  | expected => rw [flushConsecutive_phase, insertSlot_phase]
  | late => rfl
  | duplicate h _ => exact h.phase
  | stored h _ => rw [recoverBase_phase, insertSlot_phase, h.phase]

/-! ### Without FEC -/

theorem flushLoop_fec (fuel : Nat) : (flushLoop conn isSnapshot keep fuel s).fec = s.fec :=
  flushLoop_induct (P := fun s' => s'.fec = s.fec) (fun s buf h _ _ => by rw [flushPass_fec, h]) rfl fuel

theorem flushConsecutive_none (h : s.fec = none) : flushConsecutive conn isSnapshot s =
    flushLoop conn isSnapshot false s.r.count.toNat s := by
  unfold flushConsecutive releaseExpired
  rw [flushLoop_fec, h]
  rfl

theorem flushConsecutive_fec_none (h : s.fec = none) : (flushConsecutive conn isSnapshot s).fec = none := by
  rw [flushConsecutive_none h, flushLoop_fec, h]

theorem recoverBase_none (heap : Heap) (h : s.fec = none) : recoverBase heap conn isSnapshot s = s := by
  unfold recoverBase
  rw [h]

theorem forceFlushUntil_none (h : s.fec = none) (target : BitVec 16) :
    (forceFlushUntil conn isSnapshot s target).fec = none :=
  forceFlushLoop_induct (P := fun s => s.fec = none) (fun _ h _ => forceFlushPass_fec_none h) h _

theorem MadeRoom.fec_none {seqn : BitVec 16} {s' : Stream w} (hroom : MadeRoom conn isSnapshot s seqn s')
    (h : s.fec = none) : s'.fec = none := by
  cases hroom with
  | near => exact h
  | far => exact forceFlushUntil_none h _

/-- A number that is less than a window away and not behind is less than a window ahead. -/
theorem ahead_lt_of_close {a b : BitVec 16} (hclose : ahead a b < w.size ∨ ahead b a < w.size)
    (hpos : ¬ sdiff a b < 0) : ahead a b < w.size := by
  have hsize := w.size_le
  rw [sdiff_neg] at hpos
  rcases eq_or_ne a b with rfl | hne
  · rw [ahead_self]
    exact w.size_pos
  · have := ahead_swap hne
    omega

/-- The arrival of a packet: the arguments of one call. -/
structure Arrival where
  heap : Heap
  conn : Conn
  isSnapshot : Bool
  buf : BufferRef
  seqn : BitVec 16

/-- The arrival of packet `n` with the buffer `id`, on a connection that accepts everything. -/
def Arrival.numbered (n id : Nat) : Arrival where
  heap _ := true
  conn := ⟨fun _ => 1316, fun _ => 1316, fun _ => 0⟩
  isSnapshot := false
  buf := ⟨id, [], 12, 1316⟩
  seqn := BitVec.ofNat 16 n

def insertArrival (s : Stream w) (a : Arrival) : Stream w :=
  rtpReorderInsert a.heap a.conn a.isSnapshot s a.buf a.seqn

/-- A stream without FEC before its first packet. -/
def startPlain : Stream (Window.ofFec false) := ⟨rtpReorderInit false, none, [], 0⟩

/-! ### The window -/

/-- Every packet in the ring is in its slot and less than a window ahead of `base_seq`. -/
def InWindow (r : RtpReorder w) : Prop :=
  ∀ i buf, r.slots i = some buf → slotOf w (r.seq i) = i ∧ ahead (r.seq i) r.baseSeq < w.size

namespace InWindow

variable {r : RtpReorder w}

/-- A slot within the window holds its own number. -/
theorem seq_slotOf (h : InWindow r) {x : BitVec 16} (hx : ahead x r.baseSeq < w.size)
    (hb : r.slots (slotOf w x) = some buf) : r.seq (slotOf w x) = x := by
  obtain ⟨hslot, hwin⟩ := h _ _ hb
  exact slotOf_injective hwin hx hslot

theorem seq_base (h : InWindow r) (hb : r.slots (slotOf w r.baseSeq) = some buf) :
    r.seq (slotOf w r.baseSeq) = r.baseSeq :=
  h.seq_slotOf (by rw [ahead_self]; exact w.size_pos) hb

theorem putSlot (h : InWindow r) (i : Fin w.size) : InWindow (r.putSlot i) := by
  intro j buf hj
  rw [RtpReorder.putSlot_slots] at hj
  rcases eq_or_ne j i with rfl | hne
  · simp at hj
  · rw [Function.update_of_ne hne] at hj
    simpa using h j buf hj

/-- `base_seq` can pass an empty slot. -/
theorem advance (h : InWindow r) (hb : r.slots (slotOf w r.baseSeq) = none) (count : BitVec 16) :
    InWindow { r with baseSeq := r.baseSeq + 1, count := count } := by
  intro j buf hj
  obtain ⟨hslot, hwin⟩ := h j buf hj
  have hne : r.seq j ≠ r.baseSeq := by
    intro he
    rw [he] at hslot
    rw [hslot] at hb
    rw [hb] at hj
    cases hj
  refine ⟨hslot, ?_⟩
  show ahead (r.seq j) (r.baseSeq + 1) < w.size
  rw [ahead_succ hne]
  omega

theorem storeSlot (h : InWindow r) {seqn : BitVec 16} (hx : ahead seqn r.baseSeq < w.size)
    (buf : BufferRef) : InWindow (r.storeSlot buf seqn) := by
  intro j b hj
  rcases eq_or_ne j (slotOf w seqn) with rfl | hne
  · simp [hx]
  · rw [RtpReorder.storeSlot_slots, Function.update_of_ne hne] at hj
    simpa [Function.update_of_ne hne] using h j b hj

/-- `base_seq` can go back to a number that is less than a window away from all packets, if it is one
of theirs now. -/
theorem rebase (h : InWindow r) (hbase : (rtpReorderGet r r.baseSeq).isSome) {base : BitVec 16}
    (hback : 32768 ≤ ahead base r.baseSeq)
    (hclose : ∀ i, (r.slots i).isSome → ahead base (r.seq i) < w.size ∨ ahead (r.seq i) base < w.size) :
    InWindow { r with baseSeq := base } := by
  have hsize := w.size_le
  obtain ⟨hsome, hseq⟩ := isSome_rtpReorderGet.1 hbase
  have hbaseClose := hclose _ hsome
  rw [hseq] at hbaseClose
  intro i buf hi
  obtain ⟨hslot, hwin⟩ := h i buf hi
  refine ⟨hslot, ?_⟩
  -- less than two windows ahead, hence less than one
  have hi' := hclose i (by rw [hi]; rfl)
  have hsum := ahead_trans_of_lt (a := r.seq i) (b := r.baseSeq) (c := base) (by omega)
  show ahead (r.seq i) base < w.size
  rcases eq_or_ne base (r.seq i) with he | hne
  · rw [← he, ahead_self]
    exact w.size_pos
  · have := ahead_swap hne
    omega

theorem flushPass {s : Stream w} (h : InWindow s.r) :
    InWindow (flushPass conn isSnapshot false s buf).r :=
  (h.putSlot (slotOf w s.r.baseSeq)).advance (by simp) _

theorem forceFlushPass {s : Stream w} (h : InWindow s.r) : InWindow (forceFlushPass conn isSnapshot s).r := by
  unfold Rtp2httpd.forceFlushPass
  split
  · exact (h.putSlot (slotOf w s.r.baseSeq)).advance (by simp) _
  · next hb => exact h.advance hb _

end InWindow

end Rtp2httpd
