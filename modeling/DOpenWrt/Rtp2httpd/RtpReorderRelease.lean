import DOpenWrt.Lib.SlotTable
import DOpenWrt.Rtp2httpd.RtpFecEviction

/-!
# What the FEC module releases from the ring

A group that is evicted or has expired takes the buffers of its range with it. `rtp_reorder_release_range` looks
neither at `base_seq` nor at `count`, so a packet that waits is lost if the range covers it.
-/

namespace Rtp2httpd
open Serial SlotTable

variable {w : Window} {r r' r'' : RtpReorder w} {i : Fin w.size} {ctx : FecContext} {heap : Heap}

/-- Slot `i` holds a packet that was not delivered yet: its number is at or after `base_seq`. -/
def Waiting (r : RtpReorder w) (i : Fin w.size) : Prop := (r.slots i).isSome ∧ 0 ≤ sdiff (r.seq i) r.baseSeq

instance : Decidable (Waiting r i) := inferInstanceAs (Decidable (_ ∧ _))

/-- The number of packets that wait. -/
def waiting (r : RtpReorder w) : Nat := tally (fun i _ => decide (0 ≤ sdiff (r.seq i) r.baseSeq)) r.slots

/-- The number recorded for slot `i` belongs to the slot and lies in the range. -/
def Covered (r : RtpReorder w) (beginSeq endSeq : BitVec 16) (i : Fin w.size) : Prop :=
  slotOf w (r.seq i) = i ∧ ahead (r.seq i) beginSeq ≤ ahead endSeq beginSeq

/-- No packet that waits is taken away, and `count` stays right if it was. -/
structure KeepsWaiting (r r' : RtpReorder w) : Prop where
  kept : ∀ i, Waiting r i → r'.slots i = r.slots i
  count : r.count.toNat = waiting r → r'.count.toNat = waiting r'

/-! ### Slots that are emptied -/

/-- `r'` is `r` with the slots `P` emptied. -/
structure Cleared (r r' : RtpReorder w) (P : Fin w.size → Prop) : Prop where
  emptied : ∀ i, P i → r'.slots i = none
  rest : ∀ i, ¬ P i → r'.slots i = r.slots i
  seq : r'.seq = r.seq
  baseSeq : r'.baseSeq = r.baseSeq
  count : r'.count = r.count

namespace Cleared

variable {P Q : Fin w.size → Prop}

theorem none (h : ∀ i, ¬ P i) : Cleared r r P := ⟨fun i hi => absurd hi (h i), fun _ _ => rfl, rfl, rfl, rfl⟩

theorem congr (h : Cleared r r' P) (hPQ : ∀ i, P i ↔ Q i) : Cleared r r' Q :=
  ⟨fun i hi => h.emptied i ((hPQ i).2 hi), fun i hi => h.rest i (mt (hPQ i).1 hi), h.seq, h.baseSeq, h.count⟩

theorem trans (h : Cleared r r' P) (h' : Cleared r' r'' Q) : Cleared r r'' fun i => P i ∨ Q i where
  emptied i hi := by
    by_cases hQ : Q i
    · exact h'.emptied i hQ
    · rw [h'.rest i hQ, h.emptied i (hi.resolve_right hQ)]
  rest i hi := by
    rw [not_or] at hi
    rw [h'.rest i hi.2, h.rest i hi.1]
  seq := h'.seq.trans h.seq
  baseSeq := h'.baseSeq.trans h.baseSeq
  count := h'.count.trans h.count

theorem covered_iff (h : Cleared r r' P) {beginSeq endSeq : BitVec 16} :
    Covered r' beginSeq endSeq i ↔ Covered r beginSeq endSeq i := by rw [Covered, Covered, h.seq]

/-- The packets that wait are kept if and only if none of them is in a slot that is emptied. -/
theorem keepsWaiting_iff (h : Cleared r r' P) : KeepsWaiting r r' ↔ ∀ i, Waiting r i → ¬ P i := by
  constructor
  · intro hkeep i hi hP
    have := hkeep.kept i hi
    rw [h.emptied i hP] at this
    rw [Waiting, ← this] at hi
    exact absurd hi.1 (by simp)
  · intro hnone
    have hkept : ∀ i, Waiting r i → r'.slots i = r.slots i := fun i hi => h.rest i (hnone i hi)
    refine ⟨hkept, fun hcount => ?_⟩
    rw [h.count, hcount]
    refine le_antisymm (tally_mono fun i buf hi hp => ?_) (tally_mono fun i buf hi hp => ?_)
    · have hwait : Waiting r i := ⟨by rw [hi]; rfl, of_decide_eq_true hp⟩
      exact ⟨(hkept i hwait).trans hi, by rwa [h.seq, h.baseSeq]⟩
    · by_cases hP : P i
      · rw [h.emptied i hP] at hi
        cases hi
      · rw [h.rest i hP] at hi
        exact ⟨hi, by rwa [h.seq, h.baseSeq] at hp⟩

end Cleared

/-! ### `rtp_reorder_release_range` -/

theorem releaseSeq_cleared (r : RtpReorder w) (seq : BitVec 16) :
    Cleared r (releaseSeq r seq) fun i => slotOf w (r.seq i) = i ∧ r.seq i = seq := by
  unfold releaseSeq
  split
  · next hget =>
    obtain ⟨-, hseq⟩ := isSome_rtpReorderGet.1 hget
    refine ⟨fun i hi => ?_, fun i hi => ?_, RtpReorder.putSlot_seq, RtpReorder.putSlot_baseSeq, RtpReorder.putSlot_count⟩
    · obtain ⟨hslot, rfl⟩ := hi
      rw [RtpReorder.putSlot_slots, hslot, Function.update_self]
    · rw [RtpReorder.putSlot_slots, Function.update_of_ne]
      rintro rfl
      exact hi ⟨by rw [hseq], hseq⟩
  · next hget =>
    refine ⟨fun i hi => ?_, fun _ _ => rfl, rfl, rfl, rfl⟩
    obtain ⟨hslot, rfl⟩ := hi
    rw [isSome_rtpReorderGet, hslot] at hget
    by_contra hne
    exact hget ⟨Option.isSome_iff_ne_none.2 hne, rfl⟩

theorem rtpReorderReleaseRange_cleared (r : RtpReorder w) (beginSeq endSeq : BitVec 16) :
    Cleared r (rtpReorderReleaseRange r beginSeq endSeq) (Covered r beginSeq endSeq) := by
  have hlt := ahead_lt_65536 endSeq beginSeq
  have hpasses : ∀ n ≤ 65536, Cleared r ((List.range n).foldl
      (fun r i => releaseSeq r (beginSeq + BitVec.ofNat 16 i)) r)
        fun i => slotOf w (r.seq i) = i ∧ ahead (r.seq i) beginSeq < n := by
    intro n
    induction n with
    | zero => exact fun _ => Cleared.none (fun i hi => absurd hi.2 (Nat.not_lt_zero _))
    | succ n ih =>
      intro hn
      have ih := ih (by omega)
      rw [List.range_succ, List.foldl_append]
      refine (ih.trans (releaseSeq_cleared _ (beginSeq + BitVec.ofNat 16 n))).congr fun i => ?_
      have hat : r.seq i = beginSeq + BitVec.ofNat 16 n ↔ ahead (r.seq i) beginSeq = n := by
        constructor
        · intro h
          rw [h, ahead_add (by omega)]
        · rintro rfl
          exact (add_ahead _ _).symm
      rw [ih.seq, hat, ← and_or_left, Nat.lt_succ_iff_lt_or_eq]
  exact (hpasses _ (by omega)).congr fun i => by rw [Covered, Nat.lt_succ_iff]

/-! ### Expired groups -/

/-- An attached context has an expired group that covers slot `i`. -/
def ExpiredCovers (ctx : FecContext) (r : RtpReorder w) (baseSeq : BitVec 16) (l : List (Fin fecMaxGroups))
    (i : Fin w.size) : Prop :=
  ctx.attached ∧ ∃ j ∈ l, ∃ grp, ctx.groups j = some grp ∧ 0 < sdiff baseSeq grp.endSeq ∧
    Covered r grp.beginSeq grp.endSeq i

/-- The context after the slots `l`: the other groups are as they were. -/
structure ReleasedUpTo (ctx : FecContext) (r : RtpReorder w) (baseSeq : BitVec 16) (l : List (Fin fecMaxGroups))
    (s : FecContext × RtpReorder w) : Prop where
  attached : s.1.attached = ctx.attached
  groups : ∀ j, j ∉ l → s.1.groups j = ctx.groups j
  cleared : Cleared r s.2 (ExpiredCovers ctx r baseSeq l)

theorem ReleasedUpTo.step {baseSeq : BitVec 16} {l : List (Fin fecMaxGroups)} {s : FecContext × RtpReorder w}
    (h : ReleasedUpTo ctx r baseSeq l s) {j : Fin fecMaxGroups} (hj : j ∉ l) :
    ReleasedUpTo ctx r baseSeq (l ++ [j]) (fecReleaseIfExpired baseSeq s j) := by
  have hgrp := h.groups j hj
  have hsplit : ∀ i, ExpiredCovers ctx r baseSeq (l ++ [j]) i ↔ ExpiredCovers ctx r baseSeq l i ∨
      ExpiredCovers ctx r baseSeq [j] i := fun i => by
    simp only [ExpiredCovers, List.mem_append, or_and_right, exists_or, and_or_left]
  have hgroups : ∀ k, k ∉ l ++ [j] → s.1.groups k = ctx.groups k :=
    fun k hk => h.groups k fun hkl => hk (List.mem_append_left _ hkl)
  unfold fecReleaseIfExpired
  split
  · next hnone =>
    refine ⟨h.attached, hgroups, h.cleared.congr fun i => ?_⟩
    rw [hsplit, iff_self_or]
    rintro ⟨-, k, hk, grp, hgrp', -⟩
    rw [List.mem_singleton.1 hk, ← hgrp, hnone] at hgrp'
    cases hgrp'
  · next grp hsome =>
    rw [hgrp] at hsome
    split
    · next hexp =>
      refine ⟨h.attached, fun k hk => ?_, ?_⟩
      · have hne : k ≠ j := by
          rintro rfl
          exact hk (by simp)
        show Function.update s.1.groups j none k = _
        rw [Function.update_of_ne hne, hgroups k hk]
      · dsimp only
        rw [h.attached]
        split
        · next hatt =>
          refine (h.cleared.trans (rtpReorderReleaseRange_cleared s.2 grp.beginSeq grp.endSeq)).congr fun i => ?_
          rw [hsplit, h.cleared.covered_iff]
          refine or_congr_right ⟨fun hcov => ⟨hatt, j, by simp, grp, hsome, hexp, hcov⟩, ?_⟩
          rintro ⟨-, k, hk, grp', hgrp', -, hcov⟩
          rw [List.mem_singleton.1 hk, hsome] at hgrp'
          cases hgrp'
          exact hcov
        · next hdet =>
          refine h.cleared.congr fun i => ?_
          rw [hsplit, iff_self_or]
          exact fun hcov => absurd hcov.1 hdet
    · next hlive =>
      refine ⟨h.attached, hgroups, h.cleared.congr fun i => ?_⟩
      rw [hsplit, iff_self_or]
      rintro ⟨-, k, hk, grp', hgrp', hexp, -⟩
      rw [List.mem_singleton.1 hk, hsome] at hgrp'
      cases hgrp'
      exact absurd hexp hlive

theorem fecReleaseExpiredGroups_cleared (ctx : FecContext) (r : RtpReorder w) (baseSeq : BitVec 16) :
    Cleared r (fecReleaseExpiredGroups ctx r baseSeq).2
      (ExpiredCovers ctx r baseSeq (List.finRange fecMaxGroups)) := by
  have hscan : ∀ l : List (Fin fecMaxGroups), l.Nodup →
      ReleasedUpTo ctx r baseSeq l (l.foldl (fecReleaseIfExpired baseSeq) (ctx, r)) := by
    intro l hl
    induction l using List.reverseRecOn with
    | nil => exact ⟨rfl, fun _ _ => rfl, Cleared.none fun i ⟨_, j, hj, _⟩ => by cases hj⟩
    | append_singleton l j ih =>
      rw [List.nodup_append] at hl
      rw [List.foldl_append]
      exact (ih hl.1).step fun hj => hl.2.2 j hj j (by simp) rfl
  exact (hscan _ (List.nodup_finRange _)).cleared

/-! ### The group that is evicted -/

/-- A new range is given the slot of a group that covers slot `i`. -/
def EvictedCovers (ctx : FecContext) (r : RtpReorder w) (beginSeq endSeq : BitVec 16) (i : Fin w.size) : Prop :=
  ctx.attached ∧ ¬ RangeExpired ctx r endSeq ∧ fecFindGroup ctx beginSeq endSeq = none ∧
    (∀ j, (ctx.groups j).isSome) ∧ ∃ grp, ctx.groups (fecOldestIdx ctx beginSeq) = some grp ∧
      Covered r grp.beginSeq grp.endSeq i

theorem fecNewSlot_cleared (ctx : FecContext) (r : RtpReorder w) (beginSeq : BitVec 16) :
    Cleared r (fecNewSlot ctx r beginSeq).r fun i => ctx.attached ∧ (∀ j, (ctx.groups j).isSome) ∧
      ∃ grp, ctx.groups (fecOldestIdx ctx beginSeq) = some grp ∧ Covered r grp.beginSeq grp.endSeq i := by
  unfold fecNewSlot
  split
  · next j hj =>
    have hfree : ctx.groups j = none := by simpa using List.find?_some hj
    refine Cleared.none fun i ⟨_, hfull, _⟩ => ?_
    have := hfull j
    rw [hfree] at this
    cases this
  · next hfull =>
    have hfull : ∀ j, (ctx.groups j).isSome := fun j => by
      have := List.find?_eq_none.1 hfull j (List.mem_finRange j)
      simpa [Option.isSome_iff_ne_none] using this
    dsimp only
    split
    · next grp hgrp =>
      dsimp only
      split
      · next hatt =>
        refine (rtpReorderReleaseRange_cleared r grp.beginSeq grp.endSeq).congr fun i => ?_
        refine ⟨fun hcov => ⟨hatt, hfull, grp, hgrp, hcov⟩, ?_⟩
        rintro ⟨-, -, grp', hgrp', hcov⟩
        rw [hgrp] at hgrp'
        cases hgrp'
        exact hcov
      · next hdet => exact Cleared.none fun i h => hdet h.1
    · next hnone =>
      refine Cleared.none fun i ⟨_, _, grp, hgrp, _⟩ => ?_
      rw [hnone] at hgrp
      cases hgrp

theorem fecFindOrCreateGroup_cleared (heap : Heap) (ctx : FecContext) (r : RtpReorder w) (beginSeq endSeq : BitVec 16)
    (k m rtpLen : Nat) : Cleared r (fecFindOrCreateGroup heap ctx r beginSeq endSeq k m rtpLen).2.1
      (EvictedCovers ctx r beginSeq endSeq) := by
  unfold fecFindOrCreateGroup
  split
  · next hexp => exact Cleared.none fun i h => h.2.1 hexp
  · next hlive =>
    split
    · next j hj =>
      refine Cleared.none fun i h => ?_
      rw [h.2.2.1] at hj
      cases hj
    · next hfind =>
      have hnew := (fecNewSlot_cleared ctx r beginSeq).congr
        (Q := EvictedCovers ctx r beginSeq endSeq) fun i =>
          ⟨fun h => ⟨h.1, hlive, hfind, h.2⟩, fun h => ⟨h.1, h.2.2.2⟩⟩
      dsimp only
      split <;> exact hnew

theorem fecProcessPacket_cleared {ctx' : FecContext} {data : List UInt8} {res : Int}
    (h : fecProcessPacket heap ctx r data = .ok (ctx', r', res)) : Cleared r r' fun i =>
      ∃ hdr, fecParsePacket data = .ok (some hdr) ∧ EvictedCovers ctx r hdr.beginSeq hdr.endSeq i := by
  have hcreate := fun hdr : FecPacketHeader => fecFindOrCreateGroup_cleared heap { ctx with fecActive := true } r
    hdr.beginSeq hdr.endSeq hdr.k hdr.m hdr.rtpLen
  have hheader : ∀ {hdr : FecPacketHeader}, fecParsePacket data = .ok (some hdr) → ∀ i,
      EvictedCovers { ctx with fecActive := true } r hdr.beginSeq hdr.endSeq i ↔
        ∃ hdr, fecParsePacket data = .ok (some hdr) ∧ EvictedCovers ctx r hdr.beginSeq hdr.endSeq i := by
    intro hdr hparse i
    refine ⟨fun hcov => ⟨hdr, hparse, hcov⟩, ?_⟩
    rintro ⟨hdr', hparse', hcov⟩
    rw [hparse] at hparse'
    cases hparse'
    exact hcov
  have hcase := fecProcessPacket_cases heap ctx r data
  rw [h] at hcase
  generalize hout : Except.ok (ctx', r', res) = out at hcase
  cases hcase with
  | ignored hparse =>
    cases hout
    refine Cleared.none fun i ⟨hdr, hparse', _⟩ => ?_
    rw [hparse] at hparse'
    cases hparse'
  | @noGroup hdr _ _ hparse hgroup =>
    cases hout
    have := hcreate hdr
    rw [hgroup] at this
    exact this.congr (hheader hparse)
  | @stored hdr _ _ _ grp hparse _ hgroup _ =>
    cases hstore : fecStorePacket heap grp data hdr with
    | error e =>
      rw [hstore] at hout
      cases hout
    | ok grp' =>
      rw [hstore] at hout
      cases hout
      have := hcreate hdr
      rw [hgroup] at this
      exact this.congr (hheader hparse)

/-- Where a group is evicted the packet does not fault. -/
theorem EvictedCovers.ok (heap : Heap) {data : List UInt8} {hdr : FecPacketHeader} (hparse : fecParsePacket data = .ok (some hdr))
    (h : EvictedCovers ctx r hdr.beginSeq hdr.endSeq i) : ∃ res, fecProcessPacket heap ctx r data = .ok res := by
  rw [fecProcessPacket_ok_iff, redundIdxInRange_iff hparse]
  intro _ j grp hj
  rw [h.2.2.1] at hj
  cases hj

/-! ### Runs -/

section FlushCall

variable (heap : Heap) (conn : Conn) (isSnapshot : Bool) (s : Stream w) (buf : BufferRef) (seqn : BitVec 16)

/-- The stream that is flushed after a recovery. -/
def recoverCall : Option (Stream w) :=
  match s.fec with
  | none => none
  | some fec =>
    if fecIsEnabled fec then
      match fecAttemptRecovery heap fec s.r s.r.baseSeq with
      | (_, none) => none
      | (fec, some recovered) =>
        let s := deliverRawPacket conn isSnapshot { s with fec := some fec } recovered
        some { s with r := { s.r with baseSeq := s.r.baseSeq + 1 } }
    else none

/-- The stream for which phase 2 calls `flush_consecutive`, if it does. -/
def activeCall : Option (Stream w) :=
  let seqDiff := sdiff seqn s.r.baseSeq
  if seqDiff = 0 then some { s with r := insertSlot s.r buf seqn }
  else if seqDiff < 0 then none
  else
    let s := if w.size ≤ seqDiff then forceFlushUntil conn isSnapshot s seqn else s
    if (rtpReorderGet s.r seqn).isSome then none
    else recoverCall heap conn isSnapshot { s with r := insertSlot s.r buf seqn }

/-- The stream for which `rtp_reorder_insert` calls `flush_consecutive`, if it does. -/
def flushCall : Option (Stream w) :=
  let s := { s with totalBytes := 0 }
  match s.r.phase with
  | .notStarted => none
  | .collecting =>
    let r := insertCollecting s.r buf seqn
    if rtpReorderInitCollect ≤ r.count.toNat then some { s with r := { r with phase := .active } } else none
  | .active => activeCall heap conn isSnapshot s buf seqn

/-- The stream when the loop of `flush_consecutive` has ended. -/
def flushed (conn : Conn) (isSnapshot : Bool) (t : Stream w) : Stream w :=
  flushLoop conn isSnapshot (keepForFec t.fec) t.r.count.toNat t

variable {heap conn isSnapshot s buf seqn} {t : Stream w}

theorem recoverBase_eq_flush (h : recoverCall heap conn isSnapshot s = some t) :
    recoverBase heap conn isSnapshot s = flushConsecutive conn isSnapshot t := by
  unfold recoverCall at h
  unfold recoverBase
  cases hfec : s.fec with
  | none =>
    rw [hfec] at h
    cases h
  | some fec =>
    rw [hfec] at h
    dsimp only at h ⊢
    split at h
    · next hen =>
      rw [if_pos hen]
      cases hrec : fecAttemptRecovery heap fec s.r s.r.baseSeq with
      | mk fec' out =>
        rw [hrec] at h
        cases out with
        | none => cases h
        | some recovered =>
          cases h
          rfl
    · cases h

theorem insertActive_eq_flush (h : activeCall heap conn isSnapshot s buf seqn = some t) :
    insertActive heap conn isSnapshot s buf seqn = flushConsecutive conn isSnapshot t := by
  unfold activeCall at h
  unfold insertActive
  dsimp only at h ⊢
  split at h
  · next h0 =>
    cases h
    rw [if_pos h0]
  · next h0 =>
    rw [if_neg h0]
    split at h
    · cases h
    · next hpos =>
      rw [if_neg hpos]
      generalize (if (w.size : ℤ) ≤ sdiff seqn s.r.baseSeq then forceFlushUntil conn isSnapshot s seqn else s) = room at h ⊢
      split at h
      · cases h
      · next hget =>
        rw [if_neg hget]
        exact recoverBase_eq_flush h

/-- The call is where `rtp_reorder_insert` ends. -/
theorem rtpReorderInsert_eq_flush (h : flushCall heap conn isSnapshot s buf seqn = some t) :
    rtpReorderInsert heap conn isSnapshot s buf seqn = flushConsecutive conn isSnapshot t := by
  unfold flushCall at h
  unfold rtpReorderInsert
  dsimp only at h ⊢
  cases hp : s.r.phase with
  | notStarted =>
    rw [hp] at h
    cases h
  | collecting =>
    rw [hp] at h
    dsimp only at h ⊢
    split at h
    · next hfull =>
      cases h
      rw [if_pos hfull]
    · cases h
  | active =>
    rw [hp] at h
    exact insertActive_eq_flush h

end FlushCall

/-- The releases of a step, with the ring before and after: those of the groups that have expired when a flush ends,
and that of the group evicted for a parity packet. -/
inductive Releases : Stream w → StreamInput → RtpReorder w → RtpReorder w → Prop
  | flush {s t : Stream w} {a : Arrival} (h : flushCall a.heap a.conn a.isSnapshot s a.buf a.seqn = some t) :
    Releases s (.rtp a) (flushed a.conn a.isSnapshot t).r (releaseExpired (flushed a.conn a.isSnapshot t)).r
  | parity {s s' : Stream w} {heap : Heap} {data : List UInt8} (h : streamStep s (.fec heap data) = .ok s') :
    Releases s (.fec heap data) s.r s'.r

/-- No release of the step takes a packet that waits. -/
def DiscardsNone (s : Stream w) (x : StreamInput) : Prop := ∀ r r', Releases s x r r' → KeepsWaiting r r'

/-- The groups that have expired at `base_seq` cover no packet that waits. -/
def ExpiryOk (s : Stream w) : Prop :=
  ∀ ctx ∈ s.fec, ctx.minEndSeqValid → 0 < sdiff s.r.baseSeq ctx.minEndSeq →
    ∀ i, Waiting s.r i → ¬ ExpiredCovers ctx s.r s.r.baseSeq (List.finRange fecMaxGroups) i

/-- No group that is released in the step covers a packet that waits. -/
def CoversNone (s : Stream w) : StreamInput → Prop
  | .rtp a => ∀ t, flushCall a.heap a.conn a.isSnapshot s a.buf a.seqn = some t →
    ExpiryOk (flushed a.conn a.isSnapshot t)
  | .fec _ data => ∀ ctx ∈ s.fec, ∀ hdr, fecParsePacket data = .ok (some hdr) →
    ∀ i, Waiting s.r i → ¬ EvictedCovers ctx s.r hdr.beginSeq hdr.endSeq i

theorem KeepsWaiting.rfl : KeepsWaiting r r := ⟨fun _ _ => Eq.refl _, fun h => h⟩

theorem expiryOk_iff (s : Stream w) : ExpiryOk s ↔ KeepsWaiting s.r (releaseExpired s).r := by
  unfold ExpiryOk releaseExpired
  cases s.fec with
  | none => exact iff_of_true (fun ctx h => by cases h) KeepsWaiting.rfl
  | some ctx =>
    simp only [Option.mem_some_iff, forall_eq']
    split
    · next hdue =>
      rw [(fecReleaseExpiredGroups_cleared ctx s.r s.r.baseSeq).keepsWaiting_iff]
      exact ⟨fun h => h hdue.1 hdue.2, fun h _ _ => h⟩
    · next hdue => exact iff_of_true (fun hvalid hpos => absurd ⟨hvalid, hpos⟩ hdue) KeepsWaiting.rfl

theorem discardsNone_iff (s : Stream w) (x : StreamInput) : CoversNone s x ↔ DiscardsNone s x := by
  cases x with
  | rtp a =>
    constructor
    · intro h r r' hrel
      cases hrel with
      | flush ht => exact (expiryOk_iff _).1 (h _ ht)
    · intro h t ht
      exact (expiryOk_iff _).2 (h _ _ (.flush ht))
  | fec heap data =>
    cases hctx : s.fec with
    | none =>
      refine iff_of_true (fun ctx h => by rw [hctx] at h; cases h) fun r r' hrel => ?_
      cases hrel with
      | parity h =>
        unfold streamStep at h
        rw [hctx] at h
        cases h
        exact KeepsWaiting.rfl
    | some ctx =>
      have hstep : streamStep s (.fec heap data) = (fecProcessPacket heap ctx s.r data).map
          fun out => { s with fec := some out.1, r := out.2.1 } := by
        unfold streamStep
        rw [hctx]
        rfl
      constructor
      · intro h r r' hrel
        cases hrel with
        | @parity s' _ _ hrun =>
          rw [hstep] at hrun
          cases hout : fecProcessPacket heap ctx s.r data with
          | error e =>
            rw [hout] at hrun
            cases hrun
          | ok out =>
            rw [hout] at hrun
            cases hrun
            refine (fecProcessPacket_cleared hout).keepsWaiting_iff.2 fun i hi => ?_
            rintro ⟨hdr, hparse, hcov⟩
            exact h ctx hctx hdr hparse i hi hcov
      · intro h ctx' hctx' hdr hparse i hi hcov
        rw [hctx] at hctx'
        cases hctx'
        obtain ⟨out, hout⟩ := hcov.ok heap hparse
        have hparity : streamStep s (.fec heap data) = .ok { s with fec := some out.1, r := out.2.1 } := by
          rw [hstep, hout]
          rfl
        have hrel : Releases s (.fec heap data) s.r out.2.1 := .parity hparity
        exact (fecProcessPacket_cleared hout).keepsWaiting_iff.1 (h _ _ hrel) i hi ⟨hdr, hparse, hcov⟩

/-- In every run the releases take no packet that waits, and leave a right count right, if and only if no group that
is released covers a packet that waits. -/
theorem fec_keeps_waiting_iff (useFec : Bool) (fecPort : BitVec 16) (attached : Bool) (xs : List StreamInput) :
    Run.MeetsM streamStep CoversNone (startFec useFec fecPort attached) xs ↔
      Run.MeetsM streamStep DiscardsNone (startFec useFec fecPort attached) xs :=
  Run.meetsM_congr discardsNone_iff _ _

/-- A parity packet for the single number `n`. -/
def parityFor (n : UInt8) : StreamInput :=
  .fec (fun _ => true) [0x80, 127, 0, 0, 0, 0, 0, 0, 0, 0, 0, 0, 0, n, 0, n, 1, 0, 0, 0, 0, 12, 0, 0]

/-- Packet 10, then parity packets for 10, 11, ..., 42. -/
def evictingRun : List StreamInput :=
  .rtp (.numbered 10 0) :: (List.range 33).map fun i => parityFor (UInt8.ofNat (10 + i))

/-- The last parity packet evicts the group for 10, and packet 10 with it; it is still counted. -/
theorem eviction_discards_waiting : ∃ s s', (evictingRun.take 33).foldlM streamStep (startFec true 1 true) = .ok s ∧
    streamStep s (parityFor 42) = .ok s' ∧ Waiting s.r (slotOf .large 10) ∧ s.r.count.toNat = waiting s.r ∧
      s'.r.slots (slotOf .large 10) = none ∧ s'.r.count.toNat ≠ waiting s'.r := by
  have hbefore : ((evictingRun.take 33).foldlM streamStep (startFec true 1 true)).map (fun s =>
      (decide (Waiting s.r (slotOf .large 10)), decide (s.r.count.toNat = waiting s.r),
        (streamStep s (parityFor 42)).map fun s' =>
          ((s'.r.slots (slotOf .large 10)).isNone, decide (s'.r.count.toNat = waiting s'.r)))) =
      .ok (true, true, .ok (true, false)) := by decide +kernel
  generalize (evictingRun.take 33).foldlM streamStep (startFec true 1 true) = out at hbefore
  cases out with
  | error e => cases hbefore
  | ok s =>
    have hstate := Except.ok.inj hbefore
    simp only [Prod.mk.injEq, decide_eq_true_eq] at hstate
    obtain ⟨hwait, hcount, hafter⟩ := hstate
    cases hstep : streamStep s (parityFor 42) with
    | error e =>
      rw [hstep] at hafter
      cases hafter
    | ok s' =>
      rw [hstep] at hafter
      have hlost := Except.ok.inj hafter
      simp only [Prod.mk.injEq, Option.isNone_iff_eq_none, decide_eq_false_iff_not] at hlost
      exact ⟨s, s', rfl, hstep, hwait, hcount, hlost.1, hlost.2⟩

end Rtp2httpd
