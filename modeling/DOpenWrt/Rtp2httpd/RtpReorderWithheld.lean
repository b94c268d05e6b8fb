import DOpenWrt.Rtp2httpd.RtpReorderCount

/-!
# Packets held back without FEC

Every way through phase 2 that can put the next expected packet within reach ends with a flush, except
the one through `force_flush_until`: if the packet at which it stops is in the ring, it stays there
until a later packet arrives at `base_seq` or makes the window overflow again. This is the only way for
a deliverable packet to be withheld.
-/

namespace Rtp2httpd
open Serial

variable {w : Window} {conn : Conn} {isSnapshot : Bool}

/-- The next expected packet is not in the ring. -/
def NothingWithheld (s : Stream w) : Prop := s.r.phase = .active → rtpReorderGet s.r s.r.baseSeq = none

/-- A packet that makes the window overflow does not leave `base_seq` at a packet that is in the ring. -/
def StopsAtHole (s : Stream w) (a : Arrival) : Prop :=
  s.r.phase = .active → w.size ≤ ahead a.seqn s.r.baseSeq → ahead a.seqn s.r.baseSeq < 2 * w.size - 1 →
    rtpReorderGet s.r (a.seqn - BitVec.ofNat 16 (w.size - 1)) = none

/-- What the ring holds where a force flush stops. -/
theorem rtpReorderGet_forceFlushUntil {s : Stream w} {target : BitVec 16}
    (hfar : w.size ≤ ahead target s.r.baseSeq) (hlt : ahead target s.r.baseSeq < 32768) :
    (forceFlushUntil conn isSnapshot s target).r.baseSeq = target - BitVec.ofNat 16 (w.size - 1) ∧
    (rtpReorderGet (forceFlushUntil conn isSnapshot s target).r
      (target - BitVec.ofNat 16 (w.size - 1)) = none ↔
      2 * w.size - 1 ≤ ahead target s.r.baseSeq ∨
        rtpReorderGet s.r (target - BitVec.ofNat 16 (w.size - 1)) = none) := by
  have hsize := w.le_size
  have hsize' := w.size_le
  rw [forceFlushUntil_eq_iterate hlt]
  set n := ahead target s.r.baseSeq - (w.size - 1) with hn
  have htarget : target - BitVec.ofNat 16 (w.size - 1) = s.r.baseSeq + BitVec.ofNat 16 n := by
    have := add_ahead target s.r.baseSeq
    rw [show ahead target s.r.baseSeq = n + (w.size - 1) by omega, BitVec.ofNat_add, ← BitVec.add_assoc]
      at this
    rw [← this, BitVec.add_sub_cancel]
  refine ⟨by rw [iterate_forceFlushPass_baseSeq, htarget], ?_⟩
  rw [htarget]
  unfold rtpReorderGet
  rw [iterate_forceFlushPass_seq, iterate_forceFlushPass_slots]
  split
  · split
    · next hpassed =>
      refine iff_of_true rfl (.inl ?_)
      -- a slot is passed twice only by going round the ring
      obtain ⟨j, hj, hslot⟩ := hpassed
      by_contra hnear
      have := slotOf_add_inj (by omega) (by omega) hslot
      omega
    · next hpassed =>
      refine ⟨.inr, fun h => h.resolve_left fun hround => hpassed ⟨n - w.size, by omega, ?_⟩⟩
      rw [← slotOf_add_size, BitVec.add_assoc, ← BitVec.ofNat_add]
      congr 3
      omega
  · simp

namespace PlainInv

variable {s : Stream w}

/-- The condition is about the state in which the packet is stored. -/
theorem stopsAtHole_iff {s' : Stream w} (hp : s.r.phase = .active)
    (hbase : rtpReorderGet s.r s.r.baseSeq = none) {a : Arrival}
    (hroom : MadeRoom conn isSnapshot s a.seqn s') :
    StopsAtHole s a ↔ rtpReorderGet s'.r s'.r.baseSeq = none := by
  cases hroom with
  | near _ hnear =>
    refine iff_of_true (fun _ hfar _ => ?_) hbase
    omega
  | far hfar hlt =>
    obtain ⟨hb, hget⟩ := @rtpReorderGet_forceFlushUntil w conn isSnapshot _ _ hfar hlt
    rw [hb, hget]
    constructor
    · intro hstop
      rcases Nat.lt_or_ge (ahead a.seqn s.r.baseSeq) (2 * w.size - 1) with hnear | hround
      · exact .inr (hstop hp hfar hnear)
      · exact .inl hround
    · rintro (hround | hget) _ _ hnear
      · omega
      · exact hget

/-- Phase 2: the invariant is kept, and nothing is withheld exactly under the condition. -/
theorem insertActive (h : PlainInv s) (hp : s.r.phase = .active) (hs : NothingWithheld s) (a : Arrival) :
    (insertActive a.heap a.conn a.isSnapshot s a.buf a.seqn).fec = none ∧
      CountInv 8 (insertActive a.heap a.conn a.isSnapshot s a.buf a.seqn).r ∧
      (StopsAtHole s a ↔
        NothingWithheld (insertActive a.heap a.conn a.isSnapshot s a.buf a.seqn)) := by
  have hinv := h.active hp
  have hbase := hs hp
  have hcase := insertActive_cases a.heap a.conn a.isSnapshot s a.buf a.seqn
  generalize Rtp2httpd.insertActive a.heap a.conn a.isSnapshot s a.buf a.seqn = s₁ at hcase ⊢
  cases hcase with
  | expected heq =>
    have hstore := @CountInv.insertSlot _ _ _ hinv le_rfl a.seqn (by rw [heq, ahead_self]; exact w.size_pos)
      (by rw [heq, hbase]) a.buf
    refine ⟨flushConsecutive_fec_none h.fec, CountInv.flushConsecutive hstore h.fec,
      iff_of_true (fun _ hfar _ => ?_) fun _ => CountInv.flushConsecutive_stops (s := { s with r := _ }) hstore h.fec⟩
    rw [heq, ahead_self] at hfar
    have := w.size_pos
    omega
  | late hlate =>
    refine ⟨h.fec, hinv, iff_of_true (fun _ _ hnear => ?_) hs⟩
    have := w.size_le
    omega
  | duplicate hroom _ =>
    refine ⟨hroom.fec_none h.fec, hinv.madeRoom hroom, ?_⟩
    rw [stopsAtHole_iff hp hbase hroom]
    exact ⟨fun hget _ => hget, fun hw => hw (by rw [hroom.phase, hp])⟩
  | @stored s' hroom hget =>
    have hx := hroom.ahead
    rw [recoverBase_none a.heap (s := { s' with r := insertSlot s'.r a.buf a.seqn }) (hroom.fec_none h.fec)]
    refine ⟨hroom.fec_none h.fec, (hinv.madeRoom hroom).insertSlot le_rfl hx.2 hget a.buf, ?_⟩
    rw [stopsAtHole_iff hp hbase hroom]
    -- the packet stored is not the expected one, and has another slot
    have hne : slotOf w s'.r.baseSeq ≠ slotOf w a.seqn := by
      intro he
      have := @slotOf_injective w _ _ s'.r.baseSeq (by rw [ahead_self]; exact w.size_pos) hx.2 he
      rw [← this, ahead_self] at hx
      exact absurd hx.1 (lt_irrefl 0)
    have hsame : rtpReorderGet (insertSlot s'.r a.buf a.seqn) s'.r.baseSeq = rtpReorderGet s'.r s'.r.baseSeq := by
      simp [rtpReorderGet, Function.update_of_ne hne]
    constructor
    · intro hget' _
      show rtpReorderGet (insertSlot s'.r a.buf a.seqn) _ = none
      rw [insertSlot_baseSeq, hsame, hget']
    · intro hw
      have := hw (show (insertSlot s'.r a.buf a.seqn).phase = .active by
        rw [insertSlot_phase, hroom.phase, hp])
      change rtpReorderGet (insertSlot s'.r a.buf a.seqn) (insertSlot s'.r a.buf a.seqn).baseSeq = none at this
      rwa [insertSlot_baseSeq, hsame] at this

theorem insertArrival (h : PlainInv s) (hs : NothingWithheld s) (a : Arrival) :
    PlainInv (insertArrival s a) ∧ (StopsAtHole s a ↔ NothingWithheld (insertArrival s a)) := by
  unfold Rtp2httpd.insertArrival rtpReorderInsert
  dsimp only
  split
  · next hp =>
    exact ⟨h.insertFirst hp a, iff_of_true (fun hp' => by rw [hp] at hp'; cases hp') nofun⟩
  · next hp =>
    have hvacuous : StopsAtHole s a := fun hp' => by rw [hp] at hp'; cases hp'
    split
    · next hfull =>
      have hact := h.activate hp a hfull
      have hphase := flushConsecutive_phase a.conn a.isSnapshot { s with
        r := { Rtp2httpd.insertCollecting s.r a.buf a.seqn with phase := .active }, totalBytes := 0 }
      refine ⟨⟨flushConsecutive_fec_none h.fec, ?_, ?_, fun _ => CountInv.flushConsecutive hact h.fec⟩,
        iff_of_true hvacuous fun _ => CountInv.flushConsecutive_stops hact h.fec⟩ <;> rw [hphase] <;> nofun
    · next hfew =>
      have hstore := h.insertCollecting hp a
      have hphase : (Rtp2httpd.insertCollecting s.r a.buf a.seqn).phase = .collecting := by
        rw [insertCollecting_phase, hp]
      refine ⟨⟨h.fec, fun hn => ?_, fun _ => ⟨hstore.1, hstore.2.1, hstore.2.1 ▸ Nat.lt_of_not_le hfew⟩, fun hn => ?_⟩,
        iff_of_true hvacuous fun hn => ?_⟩ <;>
      · change (Rtp2httpd.insertCollecting s.r a.buf a.seqn).phase = _ at hn
        rw [hphase] at hn
        cases hn
  · next hp =>
    obtain ⟨hfec, hinv, hiff⟩ := insertActive (s := { s with totalBytes := 0 })
      ⟨h.fec, h.unstarted, h.collecting, h.active⟩ hp hs a
    have hphase := insertActive_phase a.heap a.conn a.isSnapshot { s with totalBytes := 0 } a.buf a.seqn
    refine ⟨⟨hfec, ?_, ?_, fun _ => hinv⟩, hiff⟩ <;> rw [hphase, hp] <;> nofun

end PlainInv

/-- After every packet of a run without FEC the next expected packet is not in the ring, if and only if
no packet that makes the window overflow leaves `base_seq` at a packet that is in the ring. -/
theorem reorder_withholds_nothing_iff (arrivals : List Arrival) :
    Run.Meets insertArrival StopsAtHole startPlain arrivals ↔
      Run.Meets insertArrival (fun s a => NothingWithheld (insertArrival s a)) startPlain arrivals :=
  Run.meets_iff (fun _ a h hs => (h.insertArrival hs a).1) (fun _ a h hs => (h.insertArrival hs a).2)
    PlainInv.start nofun

instance (s : Stream w) : Decidable (NothingWithheld s) :=
  inferInstanceAs (Decidable (s.r.phase = .active → rtpReorderGet s.r s.r.baseSeq = none))

/-- Packets 0 to 7, then 9, then 40: the window now starts at 9, which is in the ring. -/
theorem overflow_withholds_packet :
    ¬ NothingWithheld (([0, 1, 2, 3, 4, 5, 6, 7, 9, 40].map fun n => Arrival.numbered n n).foldl
      insertArrival startPlain) := by
  decide

end Rtp2httpd
