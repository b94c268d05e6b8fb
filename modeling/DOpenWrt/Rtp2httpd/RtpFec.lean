import DOpenWrt.Rtp2httpd.RsFec
import DOpenWrt.Rtp2httpd.RtpReorder

/-!
# The FEC module

Parity packets are kept in groups, the data packets they protect in the reorder ring. Everything that
`ctx->reorder` is used for is done on the ring given as an argument; `attached` says whether that pointer
is set. Log messages are left out.
-/

namespace Rtp2httpd
open Serial

variable {w : Window}

/-- The places where the module allocates memory. A call is given which of its allocations succeed. -/
inductive AllocSite where
  | fecSlots | fecData | existingCopy | rsDecoder | arrays | dataBlock (i : Nat) | payload
  deriving DecidableEq, Repr

abbrev Heap := AllocSite → Bool

def fecMaxGroups : Nat := 32

/-- An active group. A slot holds the parity data that was received for it. -/
structure FecGroup where
  beginSeq : BitVec 16
  endSeq : BitVec 16
  k : Nat
  m : Nat
  rtpLen : Nat
  fecReceived : Nat
  fecSlots : Fin m → Option (List UInt8)

/-- `rs_decoder` with its parameters `rs_k` and `rs_m`. -/
structure RsDecoder where
  k : Nat
  m : Nat
  code : RsFec k m
  new : rsFecNew k m = some code

structure FecContext where
  fecPort : BitVec 16
  fecActive : Bool
  /-- `none` for a group whose `fec_slots` is `NULL` -/
  groups : Fin fecMaxGroups → Option FecGroup
  groupCount : Int
  minEndSeq : BitVec 16
  minEndSeqValid : Bool
  attached : Bool
  rsDecoder : Option RsDecoder
  packetsLost : Nat
  recoverySuccesses : Nat

def fecInit (fecPort : BitVec 16) (attached : Bool) : FecContext where
  fecPort := fecPort
  fecActive := false
  groups _ := none
  groupCount := 0
  minEndSeq := 0
  minEndSeqValid := false
  attached := attached
  rsDecoder := none
  packetsLost := 0
  recoverySuccesses := 0

def fecIsEnabled (ctx : FecContext) : Bool := ctx.fecPort ≠ 0 || ctx.fecActive

/-- `SEQ_IN_RANGE` -/
def seqInRange (seq beginSeq endSeq : BitVec 16) : Prop := 0 ≤ sdiff seq beginSeq ∧ 0 ≤ sdiff endSeq seq

instance (seq beginSeq endSeq : BitVec 16) : Decidable (seqInRange seq beginSeq endSeq) :=
  inferInstanceAs (Decidable (_ ∧ _))

/-! ### Groups -/

def fecRecalcMinEndSeq (ctx : FecContext) : FecContext :=
  (List.finRange fecMaxGroups).foldl (fun ctx i =>
    match ctx.groups i with
    | none => ctx
    | some grp =>
      if !ctx.minEndSeqValid ∨ sdiff grp.endSeq ctx.minEndSeq < 0 then
        { ctx with minEndSeq := grp.endSeq, minEndSeqValid := true }
      else ctx)
    { ctx with minEndSeqValid := false }

/-- The group with the given range. -/
def fecFindGroup (ctx : FecContext) (beginSeq endSeq : BitVec 16) : Option (Fin fecMaxGroups) :=
  (List.finRange fecMaxGroups).find? fun i =>
    match ctx.groups i with
    | some grp => grp.beginSeq = beginSeq ∧ grp.endSeq = endSeq
    | none => false

/-- The index of the group to evict: the largest positive distance from its begin to the new begin. -/
def fecOldestIdx (ctx : FecContext) (beginSeq : BitVec 16) : Fin fecMaxGroups :=
  ((List.finRange fecMaxGroups).foldl (fun (best : ℤ × Fin fecMaxGroups) i =>
    match ctx.groups i with
    | some grp =>
      let diff := sdiff beginSeq grp.beginSeq
      if diff > best.1 then (diff, i) else best
    | none => best) (0, ⟨0, by decide⟩)).2

/-- A slot for a new group: an empty one, else that of the oldest group, which is evicted. -/
structure FecNewSlot (w : Window) where
  evicted : Bool
  idx : Fin fecMaxGroups
  r : RtpReorder w
  groupCount : Int

def fecNewSlot (ctx : FecContext) (r : RtpReorder w) (beginSeq : BitVec 16) : FecNewSlot w :=
  match (List.finRange fecMaxGroups).find? fun i => (ctx.groups i).isNone with
  | some i => ⟨false, i, r, ctx.groupCount⟩
  | none =>
    let i := fecOldestIdx ctx beginSeq
    match ctx.groups i with
    | some grp =>
      ⟨true, i, if ctx.attached then rtpReorderReleaseRange r grp.beginSeq grp.endSeq else r,
        ctx.groupCount - 1⟩
    | none => ⟨true, i, r, ctx.groupCount - 1⟩

/-- `fec_find_or_create_group`; the group is returned by its index, `none` standing for `NULL`. -/
def fecFindOrCreateGroup (heap : Heap) (ctx : FecContext) (r : RtpReorder w)
    (beginSeq endSeq : BitVec 16) (k m rtpLen : Nat) :
    FecContext × RtpReorder w × Option (Fin fecMaxGroups) :=
  if ctx.attached ∧ 0 < sdiff r.baseSeq endSeq then (ctx, r, none)
  else match fecFindGroup ctx beginSeq endSeq with
  | some i => (ctx, r, some i)
  | none =>
    let new := fecNewSlot ctx r beginSeq
    if heap .fecSlots then
      let grp : FecGroup := ⟨beginSeq, endSeq, k, m, rtpLen, 0, fun _ => none⟩
      let ctx := { ctx with
        groups := Function.update ctx.groups new.idx (some grp)
        groupCount := new.groupCount + 1 }
      let ctx :=
        if !ctx.minEndSeqValid ∨ sdiff endSeq ctx.minEndSeq < 0 then
          { ctx with minEndSeq := endSeq, minEndSeqValid := true }
        else if new.evicted then fecRecalcMinEndSeq ctx
        else ctx
      (ctx, new.r, some new.idx)
    else
      ({ ctx with groups := Function.update ctx.groups new.idx none, groupCount := new.groupCount },
        new.r, none)

/-- One pass of the loop of `fec_release_expired_groups`. -/
def fecReleaseIfExpired (baseSeq : BitVec 16) (s : FecContext × RtpReorder w) (i : Fin fecMaxGroups) :
    FecContext × RtpReorder w :=
  match s.1.groups i with
  | none => s
  | some grp =>
    if 0 < sdiff baseSeq grp.endSeq then
      ({ s.1 with groups := Function.update s.1.groups i none, groupCount := s.1.groupCount - 1 },
        if s.1.attached then rtpReorderReleaseRange s.2 grp.beginSeq grp.endSeq else s.2)
    else s

def fecReleaseExpiredGroups (ctx : FecContext) (r : RtpReorder w) (baseSeq : BitVec 16) :
    FecContext × RtpReorder w :=
  let (ctx, r) := (List.finRange fecMaxGroups).foldl (fecReleaseIfExpired baseSeq) (ctx, r)
  (fecRecalcMinEndSeq ctx, r)

/-! ### `fec_process_packet` -/

/-- A parity packet's header, checked, with the place of the parity data. -/
structure FecPacketHeader where
  beginSeq : BitVec 16
  endSeq : BitVec 16
  k : Nat
  m : Nat
  redundIdx : Nat
  fecLen : Nat
  rtpLen : Nat
  fecDataOffset : Nat
  deriving DecidableEq, Repr

/-- `sizeof(fec_packet_header_t)` -/
def fecPacketHeaderSize : Nat := 12

/-- The length of the RTP header, `none` when the extension header does not fit. -/
def fecRtpHeaderLen (data : List UInt8) : Except Fault (Option Nat) := do
  let flags ← byteAt data 0
  let rtpHeaderLen := 12 + (flags &&& 0x0F).toNat * 4
  if flags &&& 0x10 ≠ 0 then
    if rtpHeaderLen + 4 > data.length then return none
    let extLen ← be16At data (rtpHeaderLen + 2)
    return some (rtpHeaderLen + (4 + 4 * extLen))
  return some rtpHeaderLen

/-- The first half of `fec_process_packet`: every check of the packet, `none` for `-1`. -/
def fecParsePacket (data : List UInt8) : Except Fault (Option FecPacketHeader) := do
  if data.length < 24 then return none
  if (← byteAt data 0) &&& 0xC0 ≠ 0x80 then return none
  let payloadType := ((← byteAt data 1) &&& 0x7F).toNat
  if payloadType ≠ fecPayloadType1 ∧ payloadType ≠ fecPayloadType2 then return none
  match ← fecRtpHeaderLen data with
  | none => return none
  | some hdr =>
    if hdr + fecPacketHeaderSize > data.length then return none
    let beginSeq := BitVec.ofNat 16 (← be16At data hdr)
    let endSeq := BitVec.ofNat 16 (← be16At data (hdr + 2))
    let m := (← byteAt data (hdr + 4)).toNat
    let redundIdx := (← byteAt data (hdr + 5)).toNat
    let fecLen ← be16At data (hdr + 6)
    let rtpLen ← be16At data (hdr + 8)
    if rtpLen < 12 ∨ rtpLen > bufferPoolBufferSize then return none
    let k := sdiff endSeq beginSeq + 1
    if k ≤ 0 ∨ m ≤ 0 then return none
    if redundIdx ≥ m then return none
    let fecDataOffset := hdr + fecPacketHeaderSize
    if fecDataOffset + fecLen > data.length then return none
    return some ⟨beginSeq, endSeq, k.toNat, m, redundIdx, fecLen, rtpLen, fecDataOffset⟩

/-- `memcpy` out of the packet. -/
def bytesAt (data : List UInt8) (offset len : Nat) : Except Fault (List UInt8) :=
  if offset + len ≤ data.length then .ok ((data.drop offset).take len) else .error .packetRead

/-- Storing the parity data in slot `redund_idx` of a group, unless that slot is filled. -/
def fecStorePacket (heap : Heap) (grp : FecGroup) (data : List UInt8) (hdr : FecPacketHeader) :
    Except Fault FecGroup :=
  if h : hdr.redundIdx < grp.m then
    match grp.fecSlots ⟨hdr.redundIdx, h⟩ with
    | some _ => .ok grp
    | none =>
      if heap .fecData then do
        let parity ← bytesAt data hdr.fecDataOffset hdr.fecLen
        return { grp with
          fecSlots := Function.update grp.fecSlots ⟨hdr.redundIdx, h⟩ (some parity)
          fecReceived := grp.fecReceived + 1 }
      else .ok grp
  else .error .slotIndex

/-- `fec_process_packet`, with the value it returns. -/
def fecProcessPacket (heap : Heap) (ctx : FecContext) (r : RtpReorder w) (data : List UInt8) :
    Except Fault (FecContext × RtpReorder w × Int) := do
  match ← fecParsePacket data with
  | none => return (ctx, r, -1)
  | some hdr =>
    match fecFindOrCreateGroup heap { ctx with fecActive := true } r hdr.beginSeq hdr.endSeq hdr.k hdr.m
        hdr.rtpLen with
    | (ctx, r, none) => return (ctx, r, 0)
    | (ctx, r, some i) =>
      match ctx.groups i with
      | none => return (ctx, r, 0)
      | some grp =>
        let grp ← fecStorePacket heap grp data hdr
        return ({ ctx with groups := Function.update ctx.groups i (some grp) }, r, 0)

/-! ### `fec_attempt_recovery` -/

/-- The cached decoder, where it is one for `k` and `m`. -/
def RsDecoder.codeFor (d : RsDecoder) (k m : Nat) : Option (RsFec k m) :=
  if h : d.k = k ∧ d.m = m then some (h.1 ▸ h.2 ▸ d.code) else none

/-- Get or create the RS decoder. -/
def fecGetDecoder (heap : Heap) (ctx : FecContext) (k m : Nat) : FecContext × Option (RsFec k m) :=
  match ctx.rsDecoder.bind fun d => d.codeFor k m with
  | some code => (ctx, some code)
  | none =>
    if heap .rsDecoder then
      match h : rsFecNew k m with
      | some code => ({ ctx with rsDecoder := some ⟨k, m, code, h⟩ }, some code)
      | none => ({ ctx with rsDecoder := none }, none)
    else ({ ctx with rsDecoder := none }, none)

/-- The sequence number of the group's packet `i`. -/
def FecGroup.pktSeq (grp : FecGroup) (i : Nat) : BitVec 16 := grp.beginSeq + BitVec.ofNat 16 i

/-- A received packet as the decoder reads it: its buffer up to the end of the payload, extended by
zeros where that is shorter than `rtp_len`. -/
def rtpBlock (ref : BufferRef) (rtpLen : Nat) : Fin rtpLen → UInt8 :=
  let rtpPacketSize := ref.dataOffset + ref.dataSize
  if rtpPacketSize < rtpLen then fun i => (ref.data.take rtpPacketSize).getD i 0
  else fun i => ref.data.getD i 0

def dataPtrs (r : RtpReorder w) (grp : FecGroup) (i : Fin grp.k) : Fin grp.rtpLen → UInt8 :=
  match rtpReorderGet r (grp.pktSeq i) with
  | some ref => rtpBlock ref grp.rtpLen
  | none => fun _ => 0

def fecPtrs (grp : FecGroup) (j : Fin grp.m) : Fin grp.rtpLen → UInt8 :=
  fun i => ((grp.fecSlots j).getD []).getD i 0

def lostMap (r : RtpReorder w) (grp : FecGroup) : Fin grp.k ⊕ Fin grp.m → Bool
  | .inl i => (rtpReorderGet r (grp.pktSeq i)).isSome
  | .inr j => (grp.fecSlots j).isSome

/-- Whether the array for packet `i` was there or could be allocated. -/
def dataBlockReady (heap : Heap) (r : RtpReorder w) (grp : FecGroup) (i : Fin grp.k) : Bool :=
  match rtpReorderGet r (grp.pktSeq i) with
  | some ref => grp.rtpLen ≤ ref.dataOffset + ref.dataSize ∨ heap (.dataBlock i)
  | none => heap (.dataBlock i)

/-- Preparing the arrays and decoding. -/
def fecDecode (heap : Heap) (r : RtpReorder w) (grp : FecGroup) (code : RsFec grp.k grp.m) :
    Option (Fin grp.k → Fin grp.rtpLen → UInt8) :=
  if !heap .arrays ∨ ∃ i, !dataBlockReady heap r grp i then none
  else if ∃ j, (grp.fecSlots j).any fun parity => parity.length < grp.rtpLen then none
  else rsFecDecode code (dataPtrs r grp) (fecPtrs grp) (lostMap r grp)

/-- The payload offset of a recovered packet, `none` when its header does not fit. -/
def fecPayloadOffset (rtpPacket : List UInt8) (flags : UInt8) : Option Nat :=
  let rtpHdrLen := 12 + (flags &&& 0x0F).toNat * 4
  if rtpHdrLen > rtpPacket.length then none
  else if flags &&& 0x10 ≠ 0 then
    if rtpHdrLen + 4 > rtpPacket.length then none
    else
      let extLen := (rtpPacket.getD (rtpHdrLen + 2) 0).toNat * 256 + (rtpPacket.getD (rtpHdrLen + 3) 0).toNat
      let rtpHdrLen := rtpHdrLen + (4 + 4 * extLen)
      if rtpHdrLen > rtpPacket.length then none else some rtpHdrLen
  else some rtpHdrLen

/-- Stripping the header, and the padding, off a recovered packet of `rtp_len` bytes. -/
def fecStripHeader (rtpPacket : List UInt8) : Option (List UInt8) :=
  let rtpLen := rtpPacket.length
  if rtpLen < 12 ∨ rtpLen > bufferPoolBufferSize then none
  else
    let flags := rtpPacket.getD 0 0
    if flags &&& 0xC0 ≠ 0x80 then none
    else match fecPayloadOffset rtpPacket flags with
    | none => none
    | some rtpHdrLen =>
      let padding := if flags &&& 0x20 ≠ 0 then rtpPacket.getD (rtpLen - 1) 0 else 0
      let payloadLen : Int := rtpLen - rtpHdrLen - padding.toNat
      if payloadLen ≤ 0 then none else some ((rtpPacket.drop rtpHdrLen).take payloadLen.toNat)

/-- The first group in whose range `seq` lies. -/
def fecGroupOf (ctx : FecContext) (seq : BitVec 16) : Option FecGroup :=
  (List.finRange fecMaxGroups).findSome? fun i =>
    (ctx.groups i).filter fun grp => seqInRange seq grp.beginSeq grp.endSeq

/-- How many of the group's packets are in the ring. -/
def rtpReceived (r : RtpReorder w) (grp : FecGroup) : Nat :=
  (List.range grp.k).countP fun i => (rtpReorderGet r (grp.pktSeq i)).isSome

/-- `fec_attempt_recovery`: `none` for `-1`, else the recovered payload. -/
def fecAttemptRecovery (heap : Heap) (ctx : FecContext) (r : RtpReorder w) (seq : BitVec 16) :
    FecContext × Option (List UInt8) :=
  if !fecIsEnabled ctx ∨ !ctx.attached then (ctx, none)
  else match fecGroupOf ctx seq with
  | none => (ctx, none)
  | some grp =>
    if grp.k > w.size then (ctx, none)
    else
      let targetSlot := sdiff seq grp.beginSeq
      if h : 0 ≤ targetSlot ∧ targetSlot < grp.k then
        match rtpReorderGet r seq with
        | some existing =>
          if heap .existingCopy then
            (ctx, some ((existing.data.drop existing.dataOffset).take existing.dataSize))
          else (ctx, none)
        | none =>
          if rtpReceived r grp + grp.fecReceived < grp.k then (ctx, none)
          else match fecGetDecoder heap ctx grp.k grp.m with
          | (ctx, none) => (ctx, none)
          | (ctx, some code) =>
            match fecDecode heap r grp code with
            | none => (ctx, none)
            | some decoded =>
              match fecStripHeader (List.ofFn (decoded ⟨targetSlot.toNat, by omega⟩)) with
              | none => (ctx, none)
              | some payload =>
                if heap .payload then
                  ({ ctx with recoverySuccesses := ctx.recoverySuccesses + 1 }, some payload)
                else (ctx, none)
      else (ctx, none)

end Rtp2httpd
