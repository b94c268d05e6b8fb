import Mathlib.Data.List.GetD
import DOpenWrt.Rtp2httpd.RsFecDecode
import DOpenWrt.Rtp2httpd.RtpReorderInsert

/-!
# Recovered packets

What `fec_attempt_recovery` returns for a group whose parity data was computed over the complete
packets. A packet that is in the ring is copied from there. A decoded packet is right if it is as long
as the group's `rtp_len`: a shorter one comes back with the zeros it was extended by. Decoding itself
needs the received packets complete, but the ring does not keep the RTP padding at their end.
-/

namespace Rtp2httpd
open Matrix Serial

variable {w : Window} {p : List UInt8} {start size : Nat} {seqn : BitVec 16}

/-! ### The two header parsers -/

/-- The padding that the last byte of a packet counts, if its flags say that there is some. -/
def paddingLen (p : List UInt8) : Nat := (if p.getD 0 0 &&& 0x20 ≠ 0 then p.getD (p.length - 1) 0 else 0).toNat

/-- What `rtp_get_payload` has found out about a packet that it accepts. -/
structure RtpPacket (p : List UInt8) (start size : Nat) : Prop where
  length : 12 ≤ p.length
  version : p.getD 0 0 &&& 0xC0 = 0x80
  header : rtpPayloadStart p (p.getD 0 0) = .ok (some start)
  size_pos : 0 < size
  size_eq : start + size + paddingLen p = p.length

theorem byteAt_eq {i : Nat} (h : i < p.length) : byteAt p i = .ok (p.getD i 0) := by
  rw [byteAt_ok h, List.getD_eq_getElem p 0 h]

theorem rtpGetPayload_rtp (h : rtpGetPayload p = .ok (.rtp start size seqn)) : RtpPacket p start size := by
  unfold rtpGetPayload at h
  split at h
  · cases h
  · next hlen =>
    rw [byteAt_eq (show 0 < p.length by omega), byteAt_eq (show 1 < p.length by omega),
      be16At_ok (show 2 + 1 < p.length by omega)] at h
    simp only [bind, Except.bind, pure, Except.pure] at h
    split at h
    · cases h
    · next hversion =>
      split at h
      · cases h
      · cases hstart : rtpPayloadStart p (p.getD 0 0) with
        | error e => rw [hstart] at h; cases h
        | ok o =>
          rw [hstart] at h
          cases o with
          | none => cases h
          | some start' =>
            have hversion := not_not.1 hversion
            dsimp only at h
            split at h
            · next hflag =>
              rw [byteAt_eq (show p.length - 1 < p.length by omega)] at h
              dsimp only at h
              split at h
              · cases h
              · cases h
                exact ⟨by omega, hversion, hstart, by omega, by rw [paddingLen, if_pos hflag]; omega⟩
            · next hflag =>
              split at h
              · cases h
              · cases h
                exact ⟨by omega, hversion, hstart, by omega, by rw [paddingLen, if_neg hflag]; omega⟩

/-- The second parser finds the payload where the first does, also in a packet extended by zeros. -/
theorem fecPayloadOffset_append {zeros : List UInt8} {flags : UInt8}
    (h : rtpPayloadStart p flags = .ok (some start)) : fecPayloadOffset (p ++ zeros) flags = some start := by
  unfold rtpPayloadStart at h
  unfold fecPayloadOffset
  dsimp only at h ⊢
  rw [List.length_append]
  split at h
  · cases h
  · next hcsrc =>
    rw [if_neg (by omega)]
    split at h
    · next hext =>
      split at h
      · cases h
      · next hfit =>
        rw [be16At_ok (by omega)] at h
        simp only [bind, Except.bind, pure, Except.pure] at h
        split at h
        · cases h
        · next hlen =>
          cases h
          have hbyte : ∀ i (hi : i < p.length), (p ++ zeros).getD i 0 = p[i] := fun i hi => by
            rw [List.getD_append _ _ _ _ hi, List.getD_eq_getElem _ _ hi]
          rw [if_pos hext, if_neg (by omega), hbyte _ (by omega), hbyte _ (by omega)]
          have hlen : ¬ p[12 + (flags &&& 0x0F).toNat * 4 + 2].toNat * 256 +
            p[12 + (flags &&& 0x0F).toNat * 4 + 3].toNat > _ := hlen
          exact if_neg (by omega)
    · next hext =>
      cases h
      rw [if_neg hext]

/-- The bytes of a packet extended by zeros. -/
theorem getD_append_zeros (p : List UInt8) (z i : Nat) : (p ++ List.replicate z 0).getD i 0 = p.getD i 0 := by
  rcases Nat.lt_or_ge i p.length with hi | hi
  · rw [List.getD_append _ _ _ _ hi]
  · rw [List.getD_append_right _ _ _ _ hi, List.getD_eq_default _ _ hi, List.getD_eq_getElem?_getD]
    simp [List.getElem?_replicate]
    split <;> rfl

/-- The payload that is left of a recovered packet. -/
theorem fecStripHeader_some {payload : List UInt8} (hversion : p.getD 0 0 &&& 0xC0 = 0x80)
    (hoff : fecPayloadOffset p (p.getD 0 0) = some start) (h : fecStripHeader p = some payload) :
    payload = (p.drop start).take (p.length - start - paddingLen p) := by
  have hpad : (if p.getD 0 0 &&& 0x20 ≠ 0 then p.getD (p.length - 1) 0 else 0).toNat = paddingLen p := rfl
  unfold fecStripHeader at h
  dsimp only at h
  rw [hoff] at h
  dsimp only at h
  rw [hpad] at h
  split at h
  · cases h
  · rw [if_neg (not_not.2 hversion)] at h
    split at h
    · cases h
    · cases h
      congr 1
      omega

/-- The zeros that a shorter packet was extended by stay in the payload. -/
theorem fecStripHeader_extended (h : RtpPacket p start size) {z : Nat} {payload : List UInt8}
    (hs : fecStripHeader (p ++ List.replicate z 0) = some payload) :
    payload = (p.drop start).take size ↔ z = 0 := by
  have hlen := h.length
  have hsize := h.size_eq
  have hflags := getD_append_zeros p z 0
  have hpayload := fecStripHeader_some (by rw [hflags, h.version])
    (by rw [hflags]; exact fecPayloadOffset_append h.header) hs
  constructor
  · intro heq
    by_contra hz
    have hpad : paddingLen (p ++ List.replicate z 0) = 0 := by
      have hlast : (p ++ List.replicate z 0).getD ((p ++ List.replicate z 0).length - 1) 0 = 0 := by
        rw [getD_append_zeros, List.getD_eq_default]
        rw [List.length_append, List.length_replicate]
        omega
      unfold paddingLen
      rw [hlast, ite_self]
      rfl
    have := congrArg List.length (hpayload.symm.trans heq)
    rw [hpad] at this
    simp only [List.length_take, List.length_drop, List.length_append, List.length_replicate] at this
    omega
  · rintro rfl
    rw [List.replicate_zero, List.append_nil] at hpayload
    rw [hpayload]
    congr 1
    omega

/-! ### What a recovery returns -/

theorem fecGetDecoder_some {heap : Heap} {ctx ctx' : FecContext} {k m : Nat} {code : RsFec k m}
    (h : fecGetDecoder heap ctx k m = (ctx', some code)) : rsFecNew k m = some code := by
  unfold fecGetDecoder at h
  split at h
  · next code' hcached =>
    cases h
    obtain ⟨d, -, hd⟩ := Option.bind_eq_some_iff.1 hcached
    unfold RsDecoder.codeFor at hd
    split at hd
    · next hkm =>
      obtain ⟨rfl, rfl⟩ := hkm
      cases hd
      exact d.new
    · cases hd
  · split at h
    · split at h
      · next code' hnew =>
        cases h
        exact hnew
      · cases h
    · cases h

theorem fecDecode_some {heap : Heap} {r : RtpReorder w} {grp : FecGroup} {code : RsFec grp.k grp.m}
    {decoded : Fin grp.k → Fin grp.rtpLen → UInt8} (h : fecDecode heap r grp code = some decoded) :
    rsFecDecode code (dataPtrs r grp) (fecPtrs grp) (lostMap r grp) = some decoded := by
  unfold fecDecode at h
  split at h
  · cases h
  · split at h
    · cases h
    · exact h

/-- The two sources of a recovered payload: the ring and the decoder. -/
inductive Recovered (r : RtpReorder w) (grp : FecGroup) (t : Fin grp.k) : List UInt8 → Prop
  | held {ref : BufferRef} (hget : rtpReorderGet r (grp.pktSeq t) = some ref) :
    Recovered r grp t ((ref.data.drop ref.dataOffset).take ref.dataSize)
  | decoded {code : RsFec grp.k grp.m} {decoded : Fin grp.k → Fin grp.rtpLen → UInt8}
      {payload : List UInt8} (hget : rtpReorderGet r (grp.pktSeq t) = none)
      (hnew : rsFecNew grp.k grp.m = some code)
      (hdecode : rsFecDecode code (dataPtrs r grp) (fecPtrs grp) (lostMap r grp) = some decoded)
      (hstrip : fecStripHeader (List.ofFn (decoded t)) = some payload) : Recovered r grp t payload

/-- The target slot is that of the packet numbered `seq`. -/
theorem pktSeq_eq_iff {grp : FecGroup} {seq : BitVec 16} (h : 0 ≤ sdiff seq grp.beginSeq)
    (hk : grp.k ≤ w.size) {i : Nat} (hi : i < grp.k) :
    grp.pktSeq i = seq ↔ i = (sdiff seq grp.beginSeq).toNat := by
  have hd := sdiff_eq_ite seq grp.beginSeq
  have hlt := ahead_lt_65536 seq grp.beginSeq
  have hsize := w.size_le
  have htarget : (sdiff seq grp.beginSeq).toNat = ahead seq grp.beginSeq := by split at hd <;> omega
  rw [htarget]
  constructor
  · rintro rfl
    exact (ahead_add (by omega) grp.beginSeq).symm
  · rintro rfl
    exact add_ahead seq grp.beginSeq

theorem fecAttemptRecovery_some {heap : Heap} {ctx ctx' : FecContext} {r : RtpReorder w} {seq : BitVec 16}
    {grp : FecGroup} {recovered : List UInt8} (hgrp : fecGroupOf ctx seq = some grp)
    (h : fecAttemptRecovery heap ctx r seq = (ctx', some recovered)) :
    ∃ t : Fin grp.k, (∀ i : Fin grp.k, grp.pktSeq i = seq ↔ i = t) ∧ Recovered r grp t recovered := by
  unfold fecAttemptRecovery at h
  split at h
  · cases h
  rw [hgrp] at h
  dsimp only at h
  split at h
  · cases h
  next hk =>
  split at h
  · next hrange =>
    have hiff : ∀ i : Fin grp.k, grp.pktSeq i = seq ↔ i = ⟨(sdiff seq grp.beginSeq).toNat, by omega⟩ :=
      fun i => by rw [pktSeq_eq_iff hrange.1 (Nat.le_of_not_lt hk) i.isLt, Fin.ext_iff]
    have hseq := (hiff _).2 rfl
    refine ⟨⟨(sdiff seq grp.beginSeq).toNat, by omega⟩, hiff, ?_⟩
    split at h
    · next ref hget =>
      split at h
      · cases h
        exact .held (by rw [hseq, hget])
      · cases h
    · next hget =>
      split at h
      · cases h
      · split at h
        · cases h
        · next code hcode =>
          split at h
          · cases h
          · next decoded hdecode =>
            split at h
            · cases h
            · next payload hstrip =>
              split at h
              · cases h
                exact .decoded (by rw [hseq, hget]) (fecGetDecoder_some hcode) (fecDecode_some hdecode) hstrip
              · cases h
  · cases h

/-! ### Transparency -/

/-- A complete packet, zero-padded to `rtp_len`. -/
def zeroPadded (p : List UInt8) (rtpLen : Nat) : Fin rtpLen → UInt8 := fun b => p.getD b 0

/-- What the sender and the network do: the group's parity data is that of the complete packets `orig`,
zero-padded, and every packet in the ring was received from them, with the payload that
`rtp_get_payload` found. -/
structure Transmitted (grp : FecGroup) (r : RtpReorder w) (orig : Fin grp.k → List UInt8)
    (start size : Fin grp.k → Nat) : Prop where
  packet : ∀ i, rtpGetPayload (orig i) = .ok (.rtp (start i) (size i) (grp.pktSeq i))
  length_le : ∀ i, (orig i).length ≤ grp.rtpLen
  parity : ∀ code, rsFecNew grp.k grp.m = some code → ∀ j parity, grp.fecSlots j = some parity →
    ∀ b : Fin grp.rtpLen, GF256.mk (parity.getD b 0) =
      ∑ i, ⟨code.enGM j i⟩ * ⟨zeroPadded (orig i) grp.rtpLen b⟩
  held : ∀ (i : Fin grp.k) ref, rtpReorderGet r (grp.pktSeq i) = some ref →
    orig i <+: ref.data ∧ ref.dataOffset = start i ∧ ref.dataSize = size i

/-- No packet of the group that is in the ring had RTP padding. -/
def Unpadded (grp : FecGroup) (r : RtpReorder w) (orig : Fin grp.k → List UInt8) : Prop :=
  ∀ i : Fin grp.k, (rtpReorderGet r (grp.pktSeq i)).isSome → paddingLen (orig i) = 0

section Transmission

variable {grp : FecGroup} {r : RtpReorder w} {orig : Fin grp.k → List UInt8} {start size : Fin grp.k → Nat}

theorem rtpBlock_eq {p : List UInt8} {ref : BufferRef} {rtpLen : Nat} (hp : p <+: ref.data)
    (hlen : ref.dataOffset + ref.dataSize = p.length) :
    rtpBlock ref rtpLen = zeroPadded p rtpLen := by
  funext b
  unfold rtpBlock zeroPadded
  split
  · rw [hlen, ← List.prefix_iff_eq_take.1 hp]
  · next hge =>
    obtain ⟨rest, hrest⟩ := hp
    show ref.data.getD b 0 = p.getD b 0
    rw [← hrest, List.getD_append _ _ _ _ (by omega)]

/-- The decoder is given the blocks that the parity data was computed from. -/
theorem Transmitted.dataPtrs (ht : Transmitted grp r orig start size) (hun : Unpadded grp r orig) (i : Fin grp.k)
    (hi : lostMap r grp (.inl i) = true) :
    dataPtrs r grp i = zeroPadded (orig i) grp.rtpLen := by
  obtain ⟨ref, href⟩ : ∃ ref, rtpReorderGet r (grp.pktSeq i) = some ref := Option.isSome_iff_exists.1 hi
  obtain ⟨hpre, hstart, hsize⟩ := ht.held i ref href
  have hpkt := (rtpGetPayload_rtp (ht.packet i)).size_eq
  unfold Rtp2httpd.dataPtrs
  rw [href]
  refine rtpBlock_eq hpre ?_
  rw [← hpkt, hun i hi, hstart, hsize, Nat.add_zero]

theorem Transmitted.fecPtrs (ht : Transmitted grp r orig start size) {code : RsFec grp.k grp.m}
    (hnew : rsFecNew grp.k grp.m = some code) (j : Fin grp.m) (hj : lostMap r grp (.inr j) = true)
    (b : Fin grp.rtpLen) :
    GF256.mk (fecPtrs grp j b) = ∑ i, ⟨code.enGM j i⟩ * ⟨zeroPadded (orig i) grp.rtpLen b⟩ := by
  obtain ⟨parity, hparity⟩ : ∃ parity, grp.fecSlots j = some parity := Option.isSome_iff_exists.1 hj
  unfold Rtp2httpd.fecPtrs
  rw [hparity]
  exact ht.parity code hnew j parity hparity b

theorem ofFn_zeroPadded {p : List UInt8} {rtpLen : Nat} (h : p.length ≤ rtpLen) :
    List.ofFn (zeroPadded p rtpLen) = p ++ List.replicate (rtpLen - p.length) 0 := by
  refine List.ext_getElem (by simp; omega) fun b hb _ => ?_
  rw [List.getElem_ofFn, ← List.getD_eq_getElem _ 0, getD_append_zeros]
  rfl

/-- A packet in the ring is copied from there. -/
theorem Transmitted.recovered_held (ht : Transmitted grp r orig start size) {t : Fin grp.k} {ref : BufferRef}
    (href : rtpReorderGet r (grp.pktSeq t) = some ref) :
    (ref.data.drop ref.dataOffset).take ref.dataSize = ((orig t).drop (start t)).take (size t) := by
  obtain ⟨⟨rest, hrest⟩, hstart, hsize⟩ := ht.held t ref href
  have hpkt := (rtpGetPayload_rtp (ht.packet t)).size_eq
  rw [← hrest, hstart, hsize, List.drop_append_of_le_length (by omega),
    List.take_append_of_le_length (by rw [List.length_drop]; omega)]

/-- A decoded packet comes back extended by zeros. -/
theorem Transmitted.recovered_decoded (ht : Transmitted grp r orig start size) (hun : Unpadded grp r orig)
    {t : Fin grp.k} {code : RsFec grp.k grp.m} {decoded : Fin grp.k → Fin grp.rtpLen → UInt8}
    {payload : List UInt8} (hget : rtpReorderGet r (grp.pktSeq t) = none)
    (hnew : rsFecNew grp.k grp.m = some code)
    (hdecode : rsFecDecode code (Rtp2httpd.dataPtrs r grp) (Rtp2httpd.fecPtrs grp) (lostMap r grp) = some decoded)
    (hstrip : fecStripHeader (List.ofFn (decoded t)) = some payload) :
    payload = ((orig t).drop (start t)).take (size t) ↔ (orig t).length = grp.rtpLen := by
  obtain ⟨hk, hk'⟩ := rsFecNew_pos_lt hnew
  have hrecv := @isReceived_of_parity _ _ _ code (fun i => zeroPadded (orig i) grp.rtpLen) _ _ _ (ht.dataPtrs hun)
    (ht.fecPtrs hnew)
  have hlost : lostMap r grp (.inl t) = false := by
    show (rtpReorderGet r (grp.pktSeq t)).isSome = false
    rw [hget]
    rfl
  have hblock := rsFecDecode_spec code hk hk' hrecv hdecode t
  rw [hlost] at hblock
  have hlen := ht.length_le t
  rw [hblock, if_neg nofun, ofFn_zeroPadded hlen] at hstrip
  rw [fecStripHeader_extended (rtpGetPayload_rtp (ht.packet t)) hstrip]
  omega

/-- The recovered data is the payload of the packet numbered `seq` if that packet is in the ring, or if
it is as long as `rtp_len` and the packets in the ring had no padding. When they had none, it is so
only then. -/
theorem fecAttemptRecovery_transparent {heap : Heap} {ctx ctx' : FecContext} {seq : BitVec 16}
    {recovered : List UInt8} (hgrp : fecGroupOf ctx seq = some grp) (ht : Transmitted grp r orig start size)
    (h : fecAttemptRecovery heap ctx r seq = (ctx', some recovered)) :
    ∃ t, (∀ i : Fin grp.k, grp.pktSeq i = seq ↔ i = t) ∧
      ((rtpReorderGet r seq).isSome ∨ Unpadded grp r orig ∧ (orig t).length = grp.rtpLen →
        recovered = ((orig t).drop (start t)).take (size t)) ∧
      (Unpadded grp r orig → (recovered = ((orig t).drop (start t)).take (size t) ↔
        (rtpReorderGet r seq).isSome ∨ (orig t).length = grp.rtpLen)) := by
  obtain ⟨t, hseq, hrec⟩ := fecAttemptRecovery_some hgrp h
  refine ⟨t, hseq, ?_⟩
  obtain rfl := (hseq t).2 rfl
  cases hrec with
  | held hget =>
    have heq := ht.recovered_held hget
    have hsome : (rtpReorderGet r (grp.pktSeq t)).isSome := by
      rw [hget]
      rfl
    exact ⟨fun _ => heq, fun _ => iff_of_true heq (.inl hsome)⟩
  | decoded hget hnew hdecode hstrip =>
    have hiff := fun hun => ht.recovered_decoded hun hget hnew hdecode hstrip
    have hnone : ¬ (rtpReorderGet r (grp.pktSeq t)).isSome := by
      rw [hget]
      nofun
    refine ⟨fun hcond => ?_, fun hun => ?_⟩
    · rcases hcond with hsome | ⟨hun, hlen⟩
      · exact absurd hsome hnone
      · exact (hiff hun).2 hlen
    · rw [hiff hun, or_iff_right hnone]

end Transmission

/-! ### Two packets, of which the second is lost -/

/-- Two packets of 14 bytes, the first with or without a byte of padding. -/
def twoPackets (padded : Bool) : Fin 2 → List UInt8 :=
  ![[if padded then 0xA0 else 0x80, 33, 0, 0, 0, 0, 0, 0, 0, 0, 0, 0, 7, 1],
    [0x80, 33, 0, 1, 0, 0, 0, 0, 0, 0, 0, 0, 5, 6]]

def twoPayloadSizes (padded : Bool) : Fin 2 → Nat := ![if padded then 1 else 2, 2]

def twoPacketsParity (padded : Bool) : List UInt8 :=
  [if padded then 192 else 128, 33, 0, 3, 0, 0, 0, 0, 0, 0, 0, 0, 1, 8]

/-- The group of the two packets with its one parity packet. -/
def twoPacketsGroup (padded : Bool) : FecGroup where
  beginSeq := 0
  endSeq := 1
  k := 2
  m := 1
  rtpLen := 14
  fecReceived := 1
  fecSlots _ := some (twoPacketsParity padded)

def twoPacketsContext (padded : Bool) : FecContext :=
  { fecInit 1 true with
    fecActive := true
    groups := fun i => if i.val = 0 then some (twoPacketsGroup padded) else none
    groupCount := 1
    minEndSeq := 1
    minEndSeqValid := true }

/-- The ring with the first packet. -/
def twoPacketsRing (padded : Bool) : RtpReorder .large :=
  insertFirst (rtpReorderInit true) ⟨0, twoPackets padded 0, 12, twoPayloadSizes padded 0⟩ 0

theorem twoPacketsRing_get (padded : Bool) :
    rtpReorderGet (twoPacketsRing padded) 0 = some ⟨0, twoPackets padded 0, 12, twoPayloadSizes padded 0⟩ ∧
      rtpReorderGet (twoPacketsRing padded) 1 = none := by
  revert padded
  decide +kernel

theorem enGM_two_one {code : RsFec 2 1} (h : rsFecNew 2 1 = some code) (j : Fin 1) :
    code.enGM j 0 = 2 ∧ code.enGM j 1 = 3 := by
  have hrow : ∀ j, (rsFecNew 2 1).map (fun code => (code.enGM j 0, code.enGM j 1)) = some (2, 3) := by
    decide +kernel
  have := hrow j
  rw [h] at this
  simpa using this

theorem twoPacketsParity_eq {padded : Bool} (b : Fin 14) : GF256.mk ((twoPacketsParity padded).getD b 0) =
    ⟨2⟩ * ⟨zeroPadded (twoPackets padded 0) 14 b⟩ + ⟨3⟩ * ⟨zeroPadded (twoPackets padded 1) 14 b⟩ := by
  revert padded b
  decide +kernel

theorem twoPackets_transmitted (padded : Bool) : Transmitted (twoPacketsGroup padded) (twoPacketsRing padded)
    (twoPackets padded) (fun _ => 12) (twoPayloadSizes padded) := by
  obtain ⟨hget0, hget1⟩ := twoPacketsRing_get padded
  refine ⟨?_, ?_, ?_, ?_⟩
  · show ∀ i : Fin 2, rtpGetPayload (twoPackets padded i) =
      .ok (.rtp 12 (twoPayloadSizes padded i) (0 + BitVec.ofNat 16 i))
    revert padded
    decide
  · show ∀ i : Fin 2, (twoPackets padded i).length ≤ 14
    revert padded
    decide
  · rintro code hnew (j : Fin 1) parity ⟨⟩ b
    obtain ⟨h0, h1⟩ := enGM_two_one hnew j
    refine (twoPacketsParity_eq b).trans ?_
    rw [← h0, ← h1]
    exact (Fin.sum_univ_two fun i : Fin 2 =>
      GF256.mk (code.enGM j i) * ⟨zeroPadded (twoPackets padded i) 14 b⟩).symm
  · show ∀ (i : Fin 2) ref, rtpReorderGet (twoPacketsRing padded) (0 + BitVec.ofNat 16 i) = some ref →
      twoPackets padded i <+: ref.data ∧ ref.dataOffset = 12 ∧ ref.dataSize = twoPayloadSizes padded i
    intro i ref hget
    match i with
    | 0 =>
      obtain rfl := Option.some.inj (hget0.symm.trans hget)
      exact ⟨List.prefix_rfl, rfl, rfl⟩
    | 1 => exact absurd (hget1.symm.trans hget) nofun

/-- Without padding the second packet is recovered. -/
theorem fecAttemptRecovery_transparent_twoPackets : ∃ recovered,
    (fecAttemptRecovery (fun _ => true) (twoPacketsContext false) (twoPacketsRing false) 1).2 = some recovered ∧
      recovered = ((twoPackets false 1).drop 12).take 2 := by
  have hsome : (fecAttemptRecovery (fun _ => true) (twoPacketsContext false) (twoPacketsRing false) 1).2 =
      some [5, 6] := by decide +kernel
  have hgrp : fecGroupOf (twoPacketsContext false) 1 = some (twoPacketsGroup false) := rfl
  obtain ⟨t, ht, hok, -⟩ :=
    fecAttemptRecovery_transparent hgrp (twoPackets_transmitted false) (Prod.ext rfl hsome)
  obtain rfl := (ht (1 : Fin 2)).1 rfl
  have hun : ∀ i : Fin 2, paddingLen (twoPackets false i) = 0 := by decide
  exact ⟨_, hsome, hok (.inr ⟨fun i _ => hun i, rfl⟩)⟩

/-- With padding in the first packet the payload of the second, `[5, 6]`, comes back wrong. -/
theorem twoPackets_not_transparent : fecGroupOf (twoPacketsContext true) 1 = some (twoPacketsGroup true) ∧
    Transmitted (twoPacketsGroup true) (twoPacketsRing true) (twoPackets true) (fun _ => 12)
      (twoPayloadSizes true) ∧
    (twoPacketsGroup true).pktSeq 1 = 1 ∧
    ((twoPackets true 1).drop 12).take (twoPayloadSizes true 1) = [5, 6] ∧
    (fecAttemptRecovery (fun _ => true) (twoPacketsContext true) (twoPacketsRing true) 1).2 =
      some [5, 243] := by
  refine ⟨rfl, twoPackets_transmitted true, rfl, rfl, ?_⟩
  decide +kernel

end Rtp2httpd
