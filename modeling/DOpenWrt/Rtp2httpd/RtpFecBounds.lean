import DOpenWrt.Lib.Run
import DOpenWrt.Rtp2httpd.RtpReorderWindow

/-!
# Bounds in the FEC module

No byte outside a parity packet is read. The slot in which the parity data is stored is another matter:
`redund_idx` is checked against the `redund_num` of the packet it came in, while the group may have been
made for an earlier packet with the same range and another `redund_num`.
-/

namespace Rtp2httpd
open Serial

variable {w : Window} {data : List UInt8}

/-- What the checks of a parity packet establish. -/
structure FecPacketHeader.Valid (hdr : FecPacketHeader) (data : List UInt8) : Prop where
  k_eq : (hdr.k : ℤ) = sdiff hdr.endSeq hdr.beginSeq + 1
  k_pos : 0 < hdr.k
  redundIdx_lt : hdr.redundIdx < hdr.m
  rtpLen_ge : 12 ≤ hdr.rtpLen
  rtpLen_le : hdr.rtpLen ≤ bufferPoolBufferSize
  fecData : hdr.fecDataOffset + hdr.fecLen ≤ data.length

theorem safe_fecRtpHeaderLen (h : 24 ≤ data.length) : Safe (fecRtpHeaderLen data) fun _ => True := by
  unfold fecRtpHeaderLen
  refine (safe_byteAt (by omega)).bind fun flags _ => ?_
  dsimp only
  split
  · split
    · exact .pure trivial
    · exact (safe_be16At (by omega)).bind fun _ _ => .pure trivial
  · exact .pure trivial

theorem safe_fecParsePacket (data : List UInt8) :
    Safe (fecParsePacket data) fun o => ∀ hdr ∈ o, hdr.Valid data := by
  unfold fecParsePacket
  split
  · exact .pure nofun
  · next hlen =>
    refine (safe_byteAt (by omega)).bind fun b₀ _ => ?_
    split
    · exact .pure nofun
    · refine (safe_byteAt (by omega)).bind fun b₁ _ => ?_
      dsimp only
      split
      · exact .pure nofun
      · refine (safe_fecRtpHeaderLen (by omega)).bind fun o _ => ?_
        split
        · exact .pure nofun
        · next hdr =>
          split
          · exact .pure nofun
          · next hfit =>
            rw [show fecPacketHeaderSize = 12 from rfl] at hfit
            refine (safe_be16At (by omega)).bind fun beginSeq _ => ?_
            refine (safe_be16At (by omega)).bind fun endSeq _ => ?_
            refine (safe_byteAt (by omega)).bind fun m _ => ?_
            refine (safe_byteAt (by omega)).bind fun redundIdx _ => ?_
            refine (safe_be16At (by omega)).bind fun fecLen _ => ?_
            refine (safe_be16At (by omega)).bind fun rtpLen _ => ?_
            split
            · exact .pure nofun
            · split
              · exact .pure nofun
              · split
                · exact .pure nofun
                · split
                  · exact .pure nofun
                  · refine .pure fun hdr' h => ?_
                    cases h
                    constructor <;> dsimp only at * <;> omega

/-! ### The group -/

theorem fecRecalcMinEndSeq_groups (ctx : FecContext) : (fecRecalcMinEndSeq ctx).groups = ctx.groups := by
  unfold fecRecalcMinEndSeq
  refine List.foldlRecOn (motive := fun c : FecContext => c.groups = ctx.groups) _ _ rfl fun c hc i _ => ?_
  split
  · exact hc
  · split <;> exact hc

/-- The three outcomes of `fec_find_or_create_group`. -/
inductive FindOrCreate (ctx : FecContext) (r : RtpReorder w) (beginSeq endSeq : BitVec 16) (k m rtpLen : Nat) :
    FecContext × RtpReorder w × Option (Fin fecMaxGroups) → Prop
  | none {ctx' : FecContext} {r' : RtpReorder w} (h : ctx.attached ∧ 0 < sdiff r.baseSeq endSeq ∨
      fecFindGroup ctx beginSeq endSeq = .none) :
    FindOrCreate ctx r beginSeq endSeq k m rtpLen (ctx', r', .none)
  | found {i : Fin fecMaxGroups} (hlive : ¬ (ctx.attached ∧ 0 < sdiff r.baseSeq endSeq))
      (h : fecFindGroup ctx beginSeq endSeq = some i) :
    FindOrCreate ctx r beginSeq endSeq k m rtpLen (ctx, r, some i)
  | created {ctx' : FecContext} {r' : RtpReorder w} {i : Fin fecMaxGroups}
      (h : fecFindGroup ctx beginSeq endSeq = .none)
      (hi : ctx'.groups i = some ⟨beginSeq, endSeq, k, m, rtpLen, 0, fun _ => .none⟩) :
    FindOrCreate ctx r beginSeq endSeq k m rtpLen (ctx', r', some i)

theorem fecFindOrCreateGroup_cases (heap : Heap) (ctx : FecContext) (r : RtpReorder w)
    (beginSeq endSeq : BitVec 16) (k m rtpLen : Nat) : FindOrCreate ctx r beginSeq endSeq k m rtpLen
      (fecFindOrCreateGroup heap ctx r beginSeq endSeq k m rtpLen) := by
  unfold fecFindOrCreateGroup
  split
  · next h => exact .none (.inl h)
  · next hlive =>
    split
    · next h => exact .found hlive h
    · next h =>
      dsimp only
      split
      · refine .created h ?_
        split
        · simp
        · split
          · rw [fecRecalcMinEndSeq_groups]
            simp
          · simp
      · exact .none (.inr h)

theorem fecFindGroup_isSome {ctx : FecContext} {beginSeq endSeq : BitVec 16} {i : Fin fecMaxGroups}
    (h : fecFindGroup ctx beginSeq endSeq = some i) : ∃ grp, ctx.groups i = some grp := by
  have := List.find?_some h
  revert this
  cases ctx.groups i with
  | none => nofun
  | some grp => exact fun _ => ⟨grp, rfl⟩

theorem FindOrCreate.exists_group {ctx ctx' : FecContext} {r r' : RtpReorder w} {beginSeq endSeq : BitVec 16}
    {k m rtpLen : Nat} {i : Fin fecMaxGroups}
    (h : FindOrCreate ctx r beginSeq endSeq k m rtpLen (ctx', r', some i)) : ∃ grp, ctx'.groups i = some grp := by
  cases h with
  | found _ h => exact fecFindGroup_isSome h
  | created _ hi => exact ⟨_, hi⟩

/-! ### `fec_process_packet` -/

/-- The parity data is stored if there is a slot for it. -/
theorem fecStorePacket_ok_iff (heap : Heap) (grp : FecGroup) {hdr : FecPacketHeader} (hv : hdr.Valid data) :
    (∃ grp', fecStorePacket heap grp data hdr = .ok grp') ↔ hdr.redundIdx < grp.m := by
  have hdata := hv.fecData
  unfold fecStorePacket
  split
  · next h =>
    refine iff_of_true ?_ h
    split
    · exact ⟨_, rfl⟩
    · split
      · rw [bytesAt, if_pos hdata]
        exact ⟨_, rfl⟩
      · exact ⟨_, rfl⟩
  · next h => exact iff_of_false nofun h

theorem fecStorePacket_ne_packetRead (heap : Heap) (grp : FecGroup) {hdr : FecPacketHeader}
    (hv : hdr.Valid data) : fecStorePacket heap grp data hdr ≠ .error .packetRead := by
  have hdata := hv.fecData
  unfold fecStorePacket
  split
  · split
    · nofun
    · split
      · rw [bytesAt, if_pos hdata]
        nofun
      · nofun
  · nofun

/-- A packet for a range that has a group already, and has not expired, names a slot of that group. -/
def RedundIdxInRange (ctx : FecContext) (r : RtpReorder w) (data : List UInt8) : Prop :=
  ∀ hdr, fecParsePacket data = .ok (some hdr) → ¬ (ctx.attached ∧ 0 < sdiff r.baseSeq hdr.endSeq) →
    ∀ i grp, fecFindGroup ctx hdr.beginSeq hdr.endSeq = some i → ctx.groups i = some grp →
      hdr.redundIdx < grp.m

/-- What `fec_process_packet` does with a packet: it ignores it, it gets no group for it, or it stores
the packet in the group found or created for it. -/
inductive ProcessPacket (heap : Heap) (ctx : FecContext) (r : RtpReorder w) (data : List UInt8) :
    Except Fault (FecContext × RtpReorder w × Int) → Prop
  | ignored (hparse : fecParsePacket data = .ok none) :
    ProcessPacket heap ctx r data (.ok (ctx, r, -1))
  | noGroup {hdr : FecPacketHeader} {ctx' : FecContext} {r' : RtpReorder w}
      (hparse : fecParsePacket data = .ok (some hdr))
      (hgroup : fecFindOrCreateGroup heap { ctx with fecActive := true } r hdr.beginSeq hdr.endSeq hdr.k hdr.m
        hdr.rtpLen = (ctx', r', none)) :
    ProcessPacket heap ctx r data (.ok (ctx', r', 0))
  | stored {hdr : FecPacketHeader} {ctx' : FecContext} {r' : RtpReorder w} {i : Fin fecMaxGroups} {grp : FecGroup}
      (hparse : fecParsePacket data = .ok (some hdr)) (hvalid : hdr.Valid data)
      (hgroup : fecFindOrCreateGroup heap { ctx with fecActive := true } r hdr.beginSeq hdr.endSeq hdr.k hdr.m
        hdr.rtpLen = (ctx', r', some i)) (hi : ctx'.groups i = some grp) :
    ProcessPacket heap ctx r data ((fecStorePacket heap grp data hdr).bind fun grp =>
      .ok ({ ctx' with groups := Function.update ctx'.groups i (some grp) }, r', 0))

theorem fecProcessPacket_cases (heap : Heap) (ctx : FecContext) (r : RtpReorder w) (data : List UInt8) :
    ProcessPacket heap ctx r data (fecProcessPacket heap ctx r data) := by
  obtain ⟨o, hparse, hvalid⟩ := safe_fecParsePacket data
  unfold fecProcessPacket
  rw [hparse]
  simp only [bind, Except.bind]
  cases o with
  | none => exact .ignored hparse
  | some hdr =>
    have hcase := fecFindOrCreateGroup_cases heap { ctx with fecActive := true } r hdr.beginSeq hdr.endSeq
      hdr.k hdr.m hdr.rtpLen
    generalize hgroup : fecFindOrCreateGroup heap { ctx with fecActive := true } r hdr.beginSeq hdr.endSeq
      hdr.k hdr.m hdr.rtpLen = found at hcase
    obtain ⟨ctx', r', o⟩ := found
    dsimp only
    rw [hgroup]
    cases o with
    | none => exact .noGroup hparse hgroup
    | some i =>
      obtain ⟨grp, hi⟩ := hcase.exists_group
      simp only [hi]
      exact .stored hparse (hvalid hdr rfl) hgroup hi

theorem redundIdxInRange_iff {ctx : FecContext} {r : RtpReorder w} {hdr : FecPacketHeader}
    (hparse : fecParsePacket data = .ok (some hdr)) :
    RedundIdxInRange ctx r data ↔ (¬ (ctx.attached ∧ 0 < sdiff r.baseSeq hdr.endSeq) →
      ∀ i grp, fecFindGroup ctx hdr.beginSeq hdr.endSeq = some i → ctx.groups i = some grp →
        hdr.redundIdx < grp.m) := by
  constructor
  · intro h
    exact h hdr hparse
  · intro h hdr' hparse'
    rw [hparse] at hparse'
    cases hparse'
    exact h

theorem bind_ok_iff {α β : Type} {x : Except Fault α} {f : α → β} :
    (∃ b, x.bind (fun a => .ok (f a)) = .ok b) ↔ ∃ a, x = .ok a := by
  cases x with
  | error e => exact iff_of_false nofun nofun
  | ok a => exact iff_of_true ⟨_, rfl⟩ ⟨_, rfl⟩

theorem bind_ok_ne_error {α β : Type} {x : Except Fault α} {f : α → β} {e : Fault} (h : x ≠ .error e) :
    x.bind (fun a => .ok (f a)) ≠ .error e := by
  cases x with
  | error e' =>
    intro he
    cases he
    exact h rfl
  | ok a => nofun

theorem fecProcessPacket_ok_iff (heap : Heap) (ctx : FecContext) (r : RtpReorder w) (data : List UInt8) :
    (∃ res, fecProcessPacket heap ctx r data = .ok res) ↔ RedundIdxInRange ctx r data := by
  have hcase := fecProcessPacket_cases heap ctx r data
  generalize fecProcessPacket heap ctx r data = out at hcase
  cases hcase with
  | ignored hparse =>
    refine iff_of_true ⟨_, rfl⟩ fun hdr h => ?_
    rw [hparse] at h
    cases h
  | @noGroup hdr _ _ hparse hgroup =>
    refine iff_of_true ⟨_, rfl⟩ ((redundIdxInRange_iff hparse).2 fun hlive i _ hi => ?_)
    have hfind := fecFindOrCreateGroup_cases heap { ctx with fecActive := true } r hdr.beginSeq hdr.endSeq
      hdr.k hdr.m hdr.rtpLen
    rw [hgroup] at hfind
    cases hfind with
    | none h =>
      rcases h with h | h
      · exact absurd h hlive
      · exact absurd (hi.symm.trans h) nofun
  | @stored hdr _ _ i grp hparse hvalid hgroup hgrp =>
    rw [bind_ok_iff, fecStorePacket_ok_iff heap grp hvalid, redundIdxInRange_iff hparse]
    have hfind := fecFindOrCreateGroup_cases heap { ctx with fecActive := true } r hdr.beginSeq hdr.endSeq
      hdr.k hdr.m hdr.rtpLen
    rw [hgroup] at hfind
    cases hfind with
    | found hlive h =>
      constructor
      · intro hlt _ j grp' hj hgrp'
        obtain rfl : i = j := Option.some.inj (h.symm.trans hj)
        obtain rfl : grp = grp' := Option.some.inj (hgrp.symm.trans hgrp')
        exact hlt
      · intro hin
        exact hin hlive i grp h hgrp
    | created h hnew =>
      obtain rfl := Option.some.inj (hnew.symm.trans hgrp)
      exact iff_of_true hvalid.redundIdx_lt fun _ i _ hi => absurd (hi.symm.trans h) nofun

theorem fecProcessPacket_ne_packetRead (heap : Heap) (ctx : FecContext) (r : RtpReorder w)
    (data : List UInt8) : fecProcessPacket heap ctx r data ≠ .error .packetRead := by
  have hcase := fecProcessPacket_cases heap ctx r data
  generalize fecProcessPacket heap ctx r data = out at hcase
  cases hcase with
  | ignored => nofun
  | noGroup => nofun
  | stored _ hvalid _ _ => exact bind_ok_ne_error (fecStorePacket_ne_packetRead heap _ hvalid)

/-! ### Runs -/

/-- What a stream receives: packets for the ring and packets for the FEC module. -/
inductive StreamInput where
  | rtp (a : Arrival)
  | fec (heap : Heap) (data : List UInt8)

def streamStep (s : Stream w) : StreamInput → Except Fault (Stream w)
  | .rtp a => .ok (insertArrival s a)
  | .fec heap data =>
    match s.fec with
    | none => .ok s
    | some ctx => do
      let (ctx, r, _) ← fecProcessPacket heap ctx s.r data
      return { s with fec := some ctx, r := r }

/-- A stream with a fresh ring and a fresh FEC context. -/
def startFec (useFec : Bool) (fecPort : BitVec 16) (attached : Bool) : Stream (Window.ofFec useFec) :=
  ⟨rtpReorderInit useFec, some (fecInit fecPort attached), [], 0⟩

/-- The condition on what is received. -/
def InputInRange (s : Stream w) : StreamInput → Prop
  | .rtp _ => True
  | .fec _ data => ∀ ctx ∈ s.fec, RedundIdxInRange ctx s.r data

theorem streamStep_ok_iff (s : Stream w) (x : StreamInput) :
    InputInRange s x ↔ ∃ s', streamStep s x = .ok s' := by
  cases x with
  | rtp a => exact iff_of_true trivial ⟨_, rfl⟩
  | fec heap data =>
    unfold InputInRange streamStep
    cases s.fec with
    | none => exact iff_of_true nofun ⟨s, rfl⟩
    | some ctx =>
      have h := fecProcessPacket_ok_iff heap ctx s.r data
      simp only [Option.mem_some_iff, forall_eq']
      rw [← h]
      exact bind_ok_iff.symm

theorem streamStep_ne_packetRead (s : Stream w) (x : StreamInput) : streamStep s x ≠ .error .packetRead := by
  cases x with
  | rtp a => nofun
  | fec heap data =>
    unfold streamStep
    cases s.fec with
    | none => nofun
    | some ctx =>
      have hne := fecProcessPacket_ne_packetRead heap ctx s.r data
      dsimp only
      cases h : fecProcessPacket heap ctx s.r data with
      | ok res => nofun
      | error e =>
        intro he
        cases he
        exact hne h

/-- In every run no byte outside a packet is read; and parity data is only stored in slots that exist,
if and only if no packet for a range that has a group names a slot beyond those of that group. -/
theorem fec_in_bounds_iff (useFec : Bool) (fecPort : BitVec 16) (attached : Bool) (xs : List StreamInput) :
    xs.foldlM streamStep (startFec useFec fecPort attached) ≠ .error .packetRead ∧
      (Run.MeetsM streamStep InputInRange (startFec useFec fecPort attached) xs ↔
        ∃ s, xs.foldlM streamStep (startFec useFec fecPort attached) = .ok s) :=
  ⟨Run.foldlM_ne_error streamStep_ne_packetRead _ _, Run.meetsM_iff streamStep_ok_iff⟩

/-- A parity packet for the range 0..0 with the given `redund_num` and `redund_idx`. -/
def parityPacket (redundNum redundIdx : UInt8) : StreamInput :=
  .fec (fun _ => true) [0x80, 127, 0, 0, 0, 0, 0, 0, 0, 0, 0, 0,
    0, 0, 0, 0, redundNum, redundIdx, 0, 0, 0, 12, 0, 0]

/-- A group made for one parity packet receives the second of two. -/
theorem parityPacket_out_of_bounds :
    [parityPacket 1 0, parityPacket 2 1].foldlM streamStep (startFec true 1 true) = .error .slotIndex := by
  rfl

end Rtp2httpd
