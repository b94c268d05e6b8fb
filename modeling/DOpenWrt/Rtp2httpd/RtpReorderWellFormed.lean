import DOpenWrt.Rtp2httpd.RtpReorderCount

/-!
# Well-formed rings without FEC

In the active phase a ring is well formed if every packet is in the slot of its number, less than a window ahead of
`base_seq`, and `count` is the number of packets. One arrival breaks this: the packet numbered `base_seq`, when the
ring has it already. It takes the place of the packet in the slot, which is counted although it was never delivered.
-/

namespace Rtp2httpd
open Serial SlotTable

variable {w : Window} {conn : Conn} {isSnapshot : Bool} {r r' : RtpReorder w} {s : Stream w} {buf : BufferRef}

/-- A well-formed state of phase 2. -/
structure WellFormed (r : RtpReorder w) : Prop where
  phase : r.phase = .active
  placed : ∀ i, (r.slots i).isSome → slotOf w (r.seq i) = i
  window : ∀ i, (r.slots i).isSome → ahead (r.seq i) r.baseSeq < w.size
  count : r.count.toNat = occupied r

/-- The stream has no FEC context, or one as `fec_init` leaves it where there is no FEC port. -/
def WithoutFec (s : Stream w) : Prop := ∀ ctx ∈ s.fec, fecIsEnabled ctx = false ∧ ctx.minEndSeqValid = false

/-- The packet is the expected one, and is in the ring already. -/
def HeldAlready (r : RtpReorder w) (seqn : BitVec 16) : Prop :=
  seqn = r.baseSeq ∧ (r.slots (slotOf w seqn)).isSome

instance (r : RtpReorder w) (seqn : BitVec 16) : Decidable (HeldAlready r seqn) :=
  inferInstanceAs (Decidable (_ ∧ _))

namespace WellFormed

theorem countInv (h : WellFormed r) : CountInv 0 r where
  placed := h.placed
  enough := h.count.ge
  bounded := by
    have hnone : foreign r = 0 := tally_eq_zero.2 fun i buf hi => by
      simpa using h.window i (by rw [hi]; rfl)
    rw [hnone, h.count]

theorem of_countInv (h : CountInv 0 r) (hphase : r.phase = .active) : WellFormed r where
  phase := hphase
  placed := h.placed
  window i hi := by
    obtain ⟨buf, hb⟩ := Option.isSome_iff_exists.1 hi
    exact (h.inWindow i buf hb).2
  count := by
    have := h.enough
    have := h.bounded
    omega

end WellFormed

/-! ### Without FEC -/

namespace WithoutFec

variable (h : WithoutFec s)
include h

theorem flushConsecutive : flushConsecutive conn isSnapshot s = flushLoop conn isSnapshot false s.r.count.toNat s := by
  unfold Rtp2httpd.flushConsecutive releaseExpired
  rw [flushLoop_fec]
  cases hfec : s.fec with
  | none => rfl
  | some ctx =>
    obtain ⟨hoff, hvalid⟩ := h ctx hfec
    simp [keepForFec, hoff, hvalid]

theorem recoverBase (heap : Heap) : recoverBase heap conn isSnapshot s = s := by
  unfold Rtp2httpd.recoverBase
  split
  · rfl
  · next ctx hfec => rw [if_neg (by simp [(h ctx hfec).1])]

theorem forceFlushPass : WithoutFec (forceFlushPass conn isSnapshot s) := by
  unfold Rtp2httpd.forceFlushPass
  split
  · exact h
  · intro ctx hctx
    obtain ⟨ctx', hctx', rfl⟩ := Option.map_eq_some_iff.1 hctx
    exact h ctx' hctx'

theorem madeRoom {s' : Stream w} {seqn : BitVec 16} (hroom : MadeRoom conn isSnapshot s seqn s') :
    WithoutFec s' := by
  cases hroom with
  | near => exact h
  | far => exact forceFlushLoop_induct (P := WithoutFec) (fun _ h _ => h.forceFlushPass) h _

end WithoutFec

/-- A flush without FEC keeps the count right. -/
theorem CountInv.flushLoop {slack : Nat} (h : CountInv slack s.r) (fuel : Nat) :
    CountInv slack (flushLoop conn isSnapshot false fuel s).r :=
  flushLoop_induct (P := fun s => CountInv slack s.r)
    (fun _ _ h _ hb => h.deliver hb flushPass_slots_false flushPass_seq flushPass_baseSeq flushPass_count) h _

/-- A flush without FEC keeps an excess of the count by one. -/
theorem flushLoop_excess (h : s.r.count.toNat = occupied s.r + 1) (fuel : Nat) :
    (flushLoop conn isSnapshot false fuel s).r.count.toNat =
      occupied (flushLoop conn isSnapshot false fuel s).r + 1 := by
  refine flushLoop_induct (P := fun s => s.r.count.toNat = occupied s.r + 1) (fun s buf h hc hb => ?_) h _
  have hocc := tally_clear (p := fun _ (_ : BufferRef) => true) hb
  change occupied s.r = _ at hocc
  rw [flushPass_count, toNat_sub_one hc, h, hocc]
  unfold occupied
  rw [flushPass_slots_false]
  rfl

/-! ### One packet -/

/-- The packet in the slot of `base_seq` is overwritten and not taken off the count. -/
theorem insertSlot_excess (h : WellFormed r) {seqn : BitVec 16} (hheld : HeldAlready r seqn) :
    (insertSlot r buf seqn).count.toNat = occupied (insertSlot r buf seqn) + 1 := by
  obtain ⟨old, hold⟩ := Option.isSome_iff_exists.1 hheld.2
  have hle := occupied_le r
  have hsize := w.size_le
  have hcount := h.count
  have hocc := tally_clear (p := fun _ (_ : BufferRef) => true) hold
  have hocc' := @tally_fill _ _ _ (fun _ (_ : BufferRef) => true) (Function.update r.slots (slotOf w seqn) none)
    (slotOf w seqn) _ (Function.update_self ..) buf
  change occupied r = _ at hocc
  rw [Function.update_idem, ← insertSlot_slots r buf seqn] at hocc'
  change occupied (insertSlot r buf seqn) = _ at hocc'
  rw [insertSlot_count, toNat_add_one (by omega), hocc', hcount, hocc]

theorem MadeRoom.ne_baseSeq {s' : Stream w} {seqn : BitVec 16} (h : MadeRoom conn isSnapshot s seqn s') :
    seqn ≠ s.r.baseSeq := by
  rintro rfl
  have := w.size_pos
  cases h with
  | near hpos _ => simp at hpos
  | far hfar _ =>
    rw [ahead_self] at hfar
    omega

theorem insertActive_wellFormed_iff (hfec : WithoutFec s) (h : WellFormed s.r) (heap : Heap) (seqn : BitVec 16) :
    WellFormed (insertActive heap conn isSnapshot s buf seqn).r ↔ ¬ HeldAlready s.r seqn := by
  have hinv := h.countInv
  have hphase := insertActive_phase heap conn isSnapshot s buf seqn
  rw [h.phase] at hphase
  have hcase := insertActive_cases heap conn isSnapshot s buf seqn
  generalize insertActive heap conn isSnapshot s buf seqn = s₁ at hcase hphase ⊢
  cases hcase with
  | expected heq =>
    have hfec' : WithoutFec { s with r := insertSlot s.r buf seqn } := hfec
    rw [hfec'.flushConsecutive] at hphase ⊢
    by_cases hheld : HeldAlready s.r seqn
    · refine iff_of_false (fun hwf => ?_) (not_not.2 hheld)
      have hexcess := @flushLoop_excess w conn isSnapshot { s with r := insertSlot s.r buf seqn }
        (insertSlot_excess h hheld) (insertSlot s.r buf seqn).count.toNat
      exact absurd (hwf.count.symm.trans hexcess) (Nat.succ_ne_self _).symm
    · refine iff_of_true (WellFormed.of_countInv (CountInv.flushLoop ?_ _) hphase) hheld
      have hfree : s.r.slots (slotOf w seqn) = none := by
        by_contra hne
        exact hheld ⟨heq, Option.isSome_iff_ne_none.2 hne⟩
      have hx : ahead seqn s.r.baseSeq < w.size := by
        rw [heq, ahead_self]
        exact w.size_pos
      exact hinv.insertSlot (by omega) hx (by simp [rtpReorderGet, hfree]) buf
  | late hlate =>
    refine iff_of_true h fun hheld => ?_
    rw [hheld.1, ahead_self] at hlate
    omega
  | duplicate hroom _ =>
    refine iff_of_true (WellFormed.of_countInv (hinv.madeRoom hroom) hphase) fun hheld => ?_
    exact hroom.ne_baseSeq hheld.1
  | @stored s' hroom hget =>
    have hx := hroom.ahead
    have hroomFec : WithoutFec s' := hfec.madeRoom hroom
    have hfec' : WithoutFec { s' with r := insertSlot s'.r buf seqn } := hroomFec
    rw [hfec'.recoverBase] at hphase ⊢
    refine iff_of_true (WellFormed.of_countInv ((hinv.madeRoom hroom).insertSlot (by omega) hx.2 hget buf) hphase)
      fun hheld => hroom.ne_baseSeq hheld.1

/-- A packet leaves a well-formed ring well formed, unless it is the expected packet and the ring has it already. -/
theorem rtpReorderInsert_wellFormed_iff (heap : Heap) (conn : Conn) (isSnapshot : Bool) (hfec : WithoutFec s)
    (h : WellFormed s.r) (buf : BufferRef) (seqn : BitVec 16) :
    WellFormed (rtpReorderInsert heap conn isSnapshot s buf seqn).r ↔ ¬ HeldAlready s.r seqn := by
  rw [rtpReorderInsert_active heap conn isSnapshot buf seqn h.phase]
  exact insertActive_wellFormed_iff (s := { s with totalBytes := 0 }) hfec h heap seqn

instance : Decidable (WellFormed r) :=
  decidable_of_iff (r.phase = .active ∧ (∀ i, (r.slots i).isSome → slotOf w (r.seq i) = i) ∧
    (∀ i, (r.slots i).isSome → ahead (r.seq i) r.baseSeq < w.size) ∧ r.count.toNat = occupied r)
    ⟨fun ⟨h₁, h₂, h₃, h₄⟩ => ⟨h₁, h₂, h₃, h₄⟩, fun ⟨h₁, h₂, h₃, h₄⟩ => ⟨h₁, h₂, h₃, h₄⟩⟩

/-- The ring after packets 0 to 7, 9 and 40: the next packet is 9, and it is there. -/
def heldRing : Stream (Window.ofFec false) :=
  ([0, 1, 2, 3, 4, 5, 6, 7, 9, 40].map fun n => Arrival.numbered n n).foldl insertArrival startPlain

theorem heldRing_wellFormed : WellFormed heldRing.r := by decide

theorem heldRing_fec : WithoutFec heldRing := fun _ h => by cases h

/-- Packet 10 leaves the ring well formed. -/
theorem rtpReorderInsert_wellFormed_iff_next :
    WellFormed (insertArrival heldRing (Arrival.numbered 10 10)).r :=
  (rtpReorderInsert_wellFormed_iff _ _ _ heldRing_fec heldRing_wellFormed _ _).2 (by decide)

/-- Packet 9 comes once more. -/
theorem heldRing_duplicate : WellFormed heldRing.r ∧ ¬ WellFormed (insertArrival heldRing (Arrival.numbered 9 10)).r := by
  decide

end Rtp2httpd
