import DOpenWrt.Lib.SlotTable
import DOpenWrt.Rtp2httpd.RtpReorderWindow

/-!
# The packet count without FEC

`count` decides how long `flush_consecutive` goes on. It is the number of packets in the ring as long
as all of them are in the window, and may exceed it by the number of packets that were collected from
outside the window and overwritten later.
-/

namespace Rtp2httpd
open Serial SlotTable

variable {w : Window} {conn : Conn} {isSnapshot : Bool} {slack : Nat}

def occupied (r : RtpReorder w) : Nat := tally (fun _ _ => true) r.slots

/-- The packets that are not less than a window ahead of `base_seq`. -/
def foreign (r : RtpReorder w) : Nat :=
  tally (fun i _ => decide (w.size ≤ ahead (r.seq i) r.baseSeq)) r.slots

def Placed (r : RtpReorder w) : Prop := ∀ i, (r.slots i).isSome → slotOf w (r.seq i) = i

/-- `count` is at least the number of packets, so that a flush does not stop too early. It exceeds that
number by one for every packet that was overwritten, and only packets from outside the window are. With
`slack = 0` all packets are in the window and `count` is exact. -/
structure CountInv (slack : Nat) (r : RtpReorder w) : Prop where
  placed : Placed r
  enough : occupied r ≤ r.count.toNat
  bounded : r.count.toNat + foreign r ≤ occupied r + slack

theorem occupied_le (r : RtpReorder w) : occupied r ≤ w.size := by
  have : occupied r ≤ Fintype.card (Fin w.size) := tally_le
  rwa [Fintype.card_fin] at this

theorem foreign_le (r : RtpReorder w) : foreign r ≤ occupied r :=
  tally_mono fun _ _ h _ => ⟨h, rfl⟩

namespace CountInv

variable {r r' : RtpReorder w}

/-- With an exact count all packets are in the window. -/
theorem inWindow (h : CountInv 0 r) : InWindow r := by
  have henough := h.enough
  have hbounded := h.bounded
  have hforeign := tally_eq_zero.1 (show foreign r = 0 by omega)
  intro i buf hi
  exact ⟨h.placed i (by rw [hi]; rfl), by simpa using hforeign i buf hi⟩

/-- Passing the slot of `base_seq`, which is left empty. -/
theorem foreign_pass (h : Placed r)
    (hslots : r'.slots = Function.update r.slots (slotOf w r.baseSeq) none) (hseq : r'.seq = r.seq)
    (hbase : r'.baseSeq = r.baseSeq + 1) : foreign r' ≤ foreign r := by
  refine tally_mono fun i buf hi hfar => ?_
  rw [hslots] at hi
  have hne : i ≠ slotOf w r.baseSeq := by
    rintro rfl
    simp at hi
  rw [Function.update_of_ne hne] at hi
  have hseq' : r.seq i ≠ r.baseSeq := by
    intro he
    exact hne (by rw [← h i (by rw [hi]; rfl), he])
  simp only [decide_eq_true_eq] at hfar ⊢
  rw [hseq, hbase, ahead_succ hseq'] at hfar
  exact ⟨hi, by omega⟩

theorem placed_pass (h : Placed r)
    (hslots : r'.slots = Function.update r.slots (slotOf w r.baseSeq) none) (hseq : r'.seq = r.seq) :
    Placed r' := by
  intro i hi
  rw [hslots] at hi
  rcases eq_or_ne i (slotOf w r.baseSeq) with rfl | hne
  · simp at hi
  · rw [Function.update_of_ne hne] at hi
    rw [hseq, h i hi]

theorem deliver (h : CountInv slack r) {buf : BufferRef} (hb : r.slots (slotOf w r.baseSeq) = some buf)
    (hslots : r'.slots = Function.update r.slots (slotOf w r.baseSeq) none) (hseq : r'.seq = r.seq)
    (hbase : r'.baseSeq = r.baseSeq + 1) (hcount : r'.count = r.count - 1) : CountInv slack r' := by
  have hforeign := foreign_pass h.placed hslots hseq hbase
  have hocc : occupied r = occupied r' + 1 := by
    have := tally_clear (p := fun _ (_ : BufferRef) => true) hb
    rwa [← hslots] at this
  have hne : r.count ≠ 0 := by
    intro h0
    have := h.enough
    rw [h0, hocc] at this
    simp at this
  have henough := h.enough
  have hbounded := h.bounded
  refine ⟨placed_pass h.placed hslots hseq, ?_, ?_⟩ <;> rw [hcount, toNat_sub_one hne] <;> omega

theorem skip (h : CountInv slack r) (hb : r.slots (slotOf w r.baseSeq) = none)
    (hslots : r'.slots = Function.update r.slots (slotOf w r.baseSeq) none) (hseq : r'.seq = r.seq)
    (hbase : r'.baseSeq = r.baseSeq + 1) (hcount : r'.count = r.count) : CountInv slack r' := by
  have hforeign := foreign_pass h.placed hslots hseq hbase
  have hocc : occupied r' = occupied r := by
    unfold occupied
    rw [hslots, tally_clear_none hb]
  have henough := h.enough
  have hbounded := h.bounded
  refine ⟨placed_pass h.placed hslots hseq, ?_, ?_⟩ <;> rw [hcount] <;> omega

theorem insertSlot (h : CountInv slack r) (hslack : slack ≤ 8) {seqn : BitVec 16} (hx : ahead seqn r.baseSeq < w.size)
    (hget : rtpReorderGet r seqn = none) (buf : BufferRef) : CountInv slack (insertSlot r buf seqn) := by
  have hslots := insertSlot_slots r buf seqn
  have hseq := insertSlot_seq r buf seqn
  set i := slotOf w seqn with hi
  have hclear : ∀ p : Fin w.size → BufferRef → Bool,
      tally p (Rtp2httpd.insertSlot r buf seqn).slots =
        tally p (Function.update r.slots i none) + if p i buf then 1 else 0 := by
    intro p
    rw [hslots, ← tally_fill (by simp), Function.update_idem]
  have hocc' := hclear fun _ _ => true
  have hforeign' : foreign (Rtp2httpd.insertSlot r buf seqn) =
      tally (fun i _ => decide (w.size ≤ ahead (r.seq i) r.baseSeq)) (Function.update r.slots i none) := by
    unfold foreign
    rw [hclear, hseq, insertSlot_baseSeq, Function.update_self, if_neg (by simpa using hx), Nat.add_zero]
    refine tally_congr fun j _ hj => ?_
    rcases eq_or_ne j i with rfl | hne
    · simp at hj
    · rw [Function.update_of_ne hne]
  have hplaced : Placed (Rtp2httpd.insertSlot r buf seqn) := by
    intro j hj
    rcases eq_or_ne j i with rfl | hne
    · rw [hseq, Function.update_self]
    · rw [hslots, Function.update_of_ne hne] at hj
      rw [hseq, Function.update_of_ne hne, h.placed j hj]
  have hcount : (Rtp2httpd.insertSlot r buf seqn).count.toNat = r.count.toNat + 1 := by
    have := h.bounded
    have := occupied_le r
    have := w.size_le
    rw [insertSlot_count, toNat_add_one (by omega)]
  have henough := h.enough
  have hbounded := h.bounded
  simp only [if_true] at hocc'
  change occupied _ = _ at hocc'
  cases hb : r.slots i with
  | none =>
    rw [tally_clear_none hb] at hocc' hforeign'
    change _ = occupied r + 1 at hocc'
    change _ = foreign r at hforeign'
    exact ⟨hplaced, by omega, by omega⟩
  | some old =>
    -- the packet that is overwritten is not in the window, or it would have the same number
    have hfar : w.size ≤ ahead (r.seq i) r.baseSeq := by
      by_contra hin
      have hold := slotOf_injective (by omega) hx (h.placed i (by rw [hb]; rfl))
      unfold rtpReorderGet at hget
      rw [← hi, if_pos hold, hb] at hget
      cases hget
    have hocc := tally_clear (p := fun _ (_ : BufferRef) => true) hb
    have hforeign := tally_clear
      (p := fun i (_ : BufferRef) => decide (w.size ≤ ahead (r.seq i) r.baseSeq)) hb
    simp only [if_true] at hocc
    simp only [hfar, decide_true, if_true] at hforeign
    change occupied r = _ at hocc
    change foreign r = _ at hforeign
    exact ⟨hplaced, by omega, by omega⟩

theorem flushConsecutive {s : Stream w} (h : CountInv slack s.r) (hfec : s.fec = none) :
    CountInv slack (flushConsecutive conn isSnapshot s).r := by
  rw [flushConsecutive_none hfec]
  exact flushLoop_induct (P := fun s => CountInv slack s.r)
    (fun s buf h _ hb => h.deliver hb flushPass_slots_false flushPass_seq flushPass_baseSeq flushPass_count) h _

theorem forceFlushUntil {s : Stream w} (h : CountInv slack s.r) (target : BitVec 16) :
    CountInv slack (forceFlushUntil conn isSnapshot s target).r := by
  refine forceFlushLoop_induct (P := fun s => CountInv slack s.r) (fun s h _ => ?_) h _
  have hcount := @forceFlushPass_count w conn isSnapshot s
  cases hb : s.r.slots (slotOf w s.r.baseSeq) with
  | none =>
    rw [hb] at hcount
    exact h.skip hb forceFlushPass_slots forceFlushPass_seq forceFlushPass_baseSeq hcount
  | some buf =>
    rw [hb] at hcount
    exact h.deliver hb forceFlushPass_slots forceFlushPass_seq forceFlushPass_baseSeq hcount

theorem madeRoom {s s' : Stream w} {seqn : BitVec 16} (h : CountInv slack s.r)
    (hroom : MadeRoom conn isSnapshot s seqn s') : CountInv slack s'.r := by
  cases hroom with
  | near => exact h
  | far => exact h.forceFlushUntil _

/-- After a flush the next expected packet is not in the ring. -/
theorem flushConsecutive_stops {s : Stream w} (h : CountInv slack s.r) (hfec : s.fec = none) :
    rtpReorderGet (Rtp2httpd.flushConsecutive conn isSnapshot s).r
      (Rtp2httpd.flushConsecutive conn isSnapshot s).r.baseSeq = none := by
  have hinv := @CountInv.flushConsecutive w conn isSnapshot _ _ h hfec
  rw [flushConsecutive_none hfec] at hinv ⊢
  unfold rtpReorderGet
  split
  · rcases @flushLoop_stops w conn isSnapshot false s _ le_rfl with hc | hs
    · have henough := hinv.enough
      rw [hc] at henough
      have hempty := tally_eq_zero.1 (Nat.le_zero.1 henough)
      by_contra hne
      obtain ⟨buf, hb⟩ := Option.ne_none_iff_exists'.1 hne
      exact absurd (hempty _ buf hb) (by simp)
    · exact hs
  · rfl

end CountInv

/-! ### Collecting -/

structure PlainInv (s : Stream w) : Prop where
  fec : s.fec = none
  unstarted : s.r.phase = .notStarted → ∀ i, s.r.slots i = none
  collecting : s.r.phase = .collecting →
    Placed s.r ∧ s.r.count.toNat = occupied s.r ∧ occupied s.r < rtpReorderInitCollect
  active : s.r.phase = .active → CountInv 8 s.r

theorem PlainInv.start : PlainInv startPlain := ⟨rfl, fun _ _ => rfl, nofun, nofun⟩

namespace PlainInv

variable {s : Stream w}

theorem insertFirst (h : PlainInv s) (hp : s.r.phase = .notStarted) (a : Arrival) :
    PlainInv { s with r := insertFirst s.r a.buf a.seqn, totalBytes := 0 } := by
  have hempty := h.unstarted hp
  refine ⟨h.fec, nofun, fun _ => ⟨fun i hi => ?_, ?_⟩, nofun⟩
  · rcases eq_or_ne i (slotOf w a.seqn) with rfl | hne
    · simp [Rtp2httpd.insertFirst]
    · simp [Rtp2httpd.insertFirst, Function.update_of_ne hne, hempty i] at hi
  · have hocc : occupied (Rtp2httpd.insertFirst s.r a.buf a.seqn) = 1 := by
      have := tally_fill (p := fun _ (_ : BufferRef) => true) (hempty (slotOf w a.seqn)) a.buf
      rw [show s.r.slots = fun _ => none from funext hempty, tally_empty] at this
      simpa [occupied, Rtp2httpd.insertFirst, show s.r.slots = fun _ => none from funext hempty] using this
    exact ⟨by rw [hocc]; rfl, by rw [hocc]; decide⟩

/-- Collecting counts the packets it stores. -/
theorem insertCollecting (h : PlainInv s) (hp : s.r.phase = .collecting) (a : Arrival) :
    Placed (insertCollecting s.r a.buf a.seqn) ∧
      (insertCollecting s.r a.buf a.seqn).count.toNat = occupied (insertCollecting s.r a.buf a.seqn) ∧
      occupied (insertCollecting s.r a.buf a.seqn) ≤ rtpReorderInitCollect := by
  obtain ⟨hplaced, hcount, hlt⟩ := h.collecting hp
  unfold Rtp2httpd.insertCollecting
  split
  · exact ⟨hplaced, hcount, hlt.le⟩
  · next hfree =>
    have hocc : occupied (s.r.storeSlot a.buf a.seqn) = occupied s.r + 1 :=
      tally_fill (p := fun _ (_ : BufferRef) => true) hfree a.buf
    have hstore : Placed (s.r.storeSlot a.buf a.seqn) ∧
        (s.r.storeSlot a.buf a.seqn).count.toNat = occupied (s.r.storeSlot a.buf a.seqn) ∧
        occupied (s.r.storeSlot a.buf a.seqn) ≤ rtpReorderInitCollect := by
      refine ⟨fun i hi => ?_, ?_, by omega⟩
      · rcases eq_or_ne i (slotOf w a.seqn) with rfl | hne
        · simp
        · rw [RtpReorder.storeSlot_slots, Function.update_of_ne hne] at hi
          rw [RtpReorder.storeSlot_seq, Function.update_of_ne hne, hplaced i hi]
      · have : rtpReorderInitCollect = 8 := rfl
        rw [RtpReorder.storeSlot_count, toNat_add_one (by omega), hocc, hcount]
    dsimp only
    split <;> exact hstore

/-- The ring as the first flush finds it. -/
theorem activate (h : PlainInv s) (hp : s.r.phase = .collecting) (a : Arrival)
    (hfull : rtpReorderInitCollect ≤ (Rtp2httpd.insertCollecting s.r a.buf a.seqn).count.toNat) :
    CountInv 8 { Rtp2httpd.insertCollecting s.r a.buf a.seqn with phase := .active } := by
  obtain ⟨hplaced, hcount, hle⟩ := h.insertCollecting hp a
  have hforeign := foreign_le (Rtp2httpd.insertCollecting s.r a.buf a.seqn)
  have : rtpReorderInitCollect = 8 := rfl
  refine ⟨hplaced, ?_, ?_⟩
  · show occupied (Rtp2httpd.insertCollecting s.r a.buf a.seqn) ≤
      (Rtp2httpd.insertCollecting s.r a.buf a.seqn).count.toNat
    omega
  · show (Rtp2httpd.insertCollecting s.r a.buf a.seqn).count.toNat +
      foreign (Rtp2httpd.insertCollecting s.r a.buf a.seqn) ≤
        occupied (Rtp2httpd.insertCollecting s.r a.buf a.seqn) + 8
    omega

end PlainInv

end Rtp2httpd
