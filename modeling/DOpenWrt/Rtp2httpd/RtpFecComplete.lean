import DOpenWrt.Rtp2httpd.RtpFecExpiry
import DOpenWrt.Rtp2httpd.RtpFecRecovery

/-!
# When a recovery succeeds

With `k` usable packets of a group a missing one can be decoded. `fec_attempt_recovery` decodes from them unless the
group also holds a parity packet that is shorter than `rtp_len`, where it gives up at once. A decoded packet is a
well-formed one again if the packets in the ring were given to the decoder complete.
-/

namespace Rtp2httpd
open Matrix Serial SlotTable

variable {w : Window} {ctx ctx' : FecContext} {r : RtpReorder w} {grp : FecGroup} {heap : Heap}

/-! ### The groups -/

/-- What holds of every group that `fec_process_packet` makes. -/
structure FecGroup.Ok (grp : FecGroup) : Prop where
  k_eq : (grp.k : ℤ) = sdiff grp.endSeq grp.beginSeq + 1
  rtpLen_ge : 12 ≤ grp.rtpLen
  rtpLen_le : grp.rtpLen ≤ bufferPoolBufferSize
  received : grp.fecReceived = tally (fun _ _ => true) grp.fecSlots

def GroupsOk (ctx : FecContext) : Prop := ∀ i grp, ctx.groups i = some grp → grp.Ok

theorem FecPacketHeader.Valid.groupOk {hdr : FecPacketHeader} {data : List UInt8} (h : hdr.Valid data) :
    FecGroup.Ok ⟨hdr.beginSeq, hdr.endSeq, hdr.k, hdr.m, hdr.rtpLen, 0, fun _ => none⟩ :=
  ⟨h.k_eq, h.rtpLen_ge, h.rtpLen_le, (tally_empty _).symm⟩

theorem FecGroup.Ok.store {data : List UInt8} {hdr : FecPacketHeader} {grp' : FecGroup} (h : grp.Ok)
    (hstore : fecStorePacket heap grp data hdr = .ok grp') : grp'.Ok := by
  unfold fecStorePacket at hstore
  split at hstore
  · next hidx =>
    split at hstore
    · cases hstore
      exact h
    · next hfree =>
      split at hstore
      · cases hbytes : bytesAt data hdr.fecDataOffset hdr.fecLen with
        | error e =>
          rw [hbytes] at hstore
          cases hstore
        | ok parity =>
          rw [hbytes] at hstore
          cases hstore
          have hfill := tally_fill (p := fun _ (_ : List UInt8) => true) hfree parity
          rw [if_pos rfl, ← h.received] at hfill
          exact ⟨h.k_eq, h.rtpLen_ge, h.rtpLen_le, hfill.symm⟩
      · cases hstore
        exact h
  · cases hstore

theorem GroupsOk.findOrCreate (h : GroupsOk ctx) (heap : Heap) (r : RtpReorder w) {hdr : FecPacketHeader} {data : List UInt8}
    (hvalid : hdr.Valid data) :
    GroupsOk (fecFindOrCreateGroup heap ctx r hdr.beginSeq hdr.endSeq hdr.k hdr.m hdr.rtpLen).1 := by
  by_cases hlive : RangeExpired ctx r hdr.endSeq
  · unfold RangeExpired at hlive
    unfold fecFindOrCreateGroup
    rw [if_pos hlive]
    exact h
  · cases hfind : fecFindGroup ctx hdr.beginSeq hdr.endSeq with
    | some i =>
      unfold RangeExpired at hlive
      unfold fecFindOrCreateGroup
      rw [if_neg hlive, hfind]
      exact h
    | none =>
      intro i grp hi
      rw [fecFindOrCreateGroup_groups heap r hdr.k hdr.m hdr.rtpLen hfind hlive] at hi
      rcases eq_or_ne i (fecNewSlot ctx r hdr.beginSeq).idx with rfl | hne
      · rw [Function.update_self] at hi
        split at hi
        · cases hi
          exact hvalid.groupOk
        · cases hi
      · rw [Function.update_of_ne hne] at hi
        exact h i grp hi

theorem GroupsOk.call (h : GroupsOk ctx) {call : FecCall w} (hrun : fecCall ctx call = .ok ctx') : GroupsOk ctx' := by
  cases call with
  | processPacket heap r data =>
    change (fecProcessPacket heap ctx r data).map (fun out => out.1) = _ at hrun
    have hvalid : ∀ hdr, fecParsePacket data = .ok (some hdr) → hdr.Valid data := by
      intro hdr hparse
      obtain ⟨o, hparse', hvalid⟩ := safe_fecParsePacket data
      rw [hparse] at hparse'
      cases hparse'
      exact hvalid hdr rfl
    have hactive : GroupsOk { ctx with fecActive := true } := h
    have hcase := fecProcessPacket_cases heap ctx r data
    generalize fecProcessPacket heap ctx r data = out at hcase hrun
    cases hcase with
    | ignored =>
      cases hrun
      exact h
    | @noGroup hdr _ _ hparse hgroup =>
      cases hrun
      have hcreated := hactive.findOrCreate heap r (hvalid hdr hparse)
      rwa [hgroup] at hcreated
    | @stored hdr ctx₁ _ i grp hparse _ hgroup hi =>
      have hcreated := hactive.findOrCreate heap r (hvalid hdr hparse)
      rw [hgroup] at hcreated
      cases hstore : fecStorePacket heap grp data hdr with
      | error e =>
        rw [hstore] at hrun
        cases hrun
      | ok grp' =>
        rw [hstore] at hrun
        cases hrun
        intro j grp₁ hj
        change Function.update ctx₁.groups i (some grp') j = _ at hj
        rcases eq_or_ne j i with rfl | hne
        · rw [Function.update_self] at hj
          cases hj
          exact (hcreated j grp hi).store hstore
        · rw [Function.update_of_ne hne] at hj
          exact hcreated j grp₁ hj
  | releaseExpiredGroups r baseSeq =>
    cases hrun
    intro i grp hi
    change (fecRecalcMinEndSeq _).groups i = _ at hi
    rw [fecRecalcMinEndSeq_groups] at hi
    have hsub : ∀ j grp, ((List.finRange fecMaxGroups).foldl (fecReleaseIfExpired baseSeq) (ctx, r)).1.groups j =
        some grp → ctx.groups j = some grp := by
      refine List.foldlRecOn (motive := fun s : FecContext × RtpReorder w =>
        ∀ j grp, s.1.groups j = some grp → ctx.groups j = some grp) _ _ (fun _ _ hj => hj) fun s hs k _ => ?_
      unfold fecReleaseIfExpired
      split
      · exact hs
      · split
        · intro j grp hj
          change Function.update s.1.groups k none j = _ at hj
          rcases eq_or_ne j k with rfl | hne
          · rw [Function.update_self] at hj
            cases hj
          · rw [Function.update_of_ne hne] at hj
            exact hs j grp hj
        · exact hs
    exact h i grp (hsub i grp hi)

/-- Every group of every run is as `fec_process_packet` makes it. -/
theorem groupsOk_run {fecPort : BitVec 16} {attached : Bool} {calls : List (FecCall w)}
    (hrun : calls.foldlM fecCall (fecInit fecPort attached) = .ok ctx) : GroupsOk ctx := by
  have hmeets : Run.MeetsM fecCall (fun (_ : FecContext) (_ : FecCall w) => True) (fecInit fecPort attached) calls :=
    Run.meetsM_true _ _
  exact hmeets.invariant (fun _ _ _ _ h hcall => GroupsOk.call h hcall) (fun _ _ h => by cases h) hrun

/-! ### What is received -/

/-- The received parity packets with at least `rtp_len` bytes of data. -/
def usableParity (grp : FecGroup) : Nat := tally (fun _ parity => decide (grp.rtpLen ≤ parity.length)) grp.fecSlots

/-- No parity packet that was received is shorter than `rtp_len`. -/
def NoneShort (grp : FecGroup) : Prop := ∀ j parity, grp.fecSlots j = some parity → grp.rtpLen ≤ parity.length

/-- What the sender and the network do, as in `Transmitted`; a parity packet may arrive short. -/
structure Sent (grp : FecGroup) (r : RtpReorder w) (orig : Fin grp.k → List UInt8)
    (start size : Fin grp.k → Nat) : Prop where
  packet : ∀ i, rtpGetPayload (orig i) = .ok (.rtp (start i) (size i) (grp.pktSeq i))
  length_le : ∀ i, (orig i).length ≤ grp.rtpLen
  parity : ∀ code, rsFecNew grp.k grp.m = some code → ∀ j parity, grp.fecSlots j = some parity →
    grp.rtpLen ≤ parity.length → ∀ b : Fin grp.rtpLen, GF256.mk (parity.getD b 0) =
      ∑ i, ⟨code.enGM j i⟩ * ⟨zeroPadded (orig i) grp.rtpLen b⟩
  held : ∀ (i : Fin grp.k) ref, rtpReorderGet r (grp.pktSeq i) = some ref →
    orig i <+: ref.data ∧ ref.dataOffset = start i ∧ ref.dataSize = size i

/-- The packet has neither an extension header nor padding. -/
def PlainHeader (p : List UInt8) : Prop := p.getD 0 0 &&& 0x10 = 0 ∧ p.getD 0 0 &&& 0x20 = 0

section Sending

variable {orig : Fin grp.k → List UInt8} {start size : Fin grp.k → Nat}

theorem Sent.transmitted (h : Sent grp r orig start size) (hnone : NoneShort grp) :
    Transmitted grp r orig start size :=
  ⟨h.packet, h.length_le, fun code hnew j parity hj => h.parity code hnew j parity hj (hnone j parity hj), h.held⟩

theorem usableParity_eq (hok : grp.Ok) (hnone : NoneShort grp) : usableParity grp = grp.fecReceived := by
  rw [hok.received]
  exact tally_congr fun j parity hj => by simpa using hnone j parity hj

theorem usableParity_le (hok : grp.Ok) : usableParity grp ≤ grp.fecReceived := by
  rw [hok.received]
  exact tally_mono fun j parity hj _ => ⟨hj, rfl⟩

theorem rtpReceived_eq (r : RtpReorder w) (grp : FecGroup) :
    rtpReceived r grp = ((List.finRange grp.k).filter fun i => lostMap r grp (.inl i)).length := by
  unfold rtpReceived
  rw [← List.map_coe_finRange_eq_range, List.countP_map, List.countP_eq_length_filter]
  rfl

theorem card_lost (r : RtpReorder w) (grp : FecGroup) :
    (Finset.univ.filter fun i => lostMap r grp (.inl i) = false).card + rtpReceived r grp = grp.k := by
  have hsplit := List.length_eq_length_filter_add (l := List.finRange grp.k) fun i => lostMap r grp (.inl i)
  have hlost := length_filter_finRange fun i : Fin grp.k => !lostMap r grp (.inl i)
  simp only [Bool.not_eq_true'] at hlost
  rw [List.length_finRange] at hsplit
  rw [rtpReceived_eq, ← hlost]
  omega

/-- The decoder has enough blocks, and nothing else can fail. -/
theorem fecDecode_some_of_enough (hkm : grp.k + grp.m ≤ 255) (hne : (grp.k, grp.m) ≠ (100, 5)) (hok : grp.Ok)
    (hnone : NoneShort grp) (hk : 0 < grp.k) (hcount : grp.k ≤ rtpReceived r grp + usableParity grp)
    {code : RsFec grp.k grp.m} (hnew : rsFecNew grp.k grp.m = some code) :
    ∃ decoded, fecDecode (fun _ => true) r grp code = some decoded := by
  have hready : ∀ i, dataBlockReady (fun _ => true) r grp i = true := by
    intro i
    unfold dataBlockReady
    split <;> simp
  have hparity : (Finset.univ.filter fun j => lostMap r grp (.inr j) = true).card = usableParity grp := by
    rw [usableParity_eq hok hnone, hok.received]
    unfold tally
    congr 1
  have hlost := card_lost r grp
  have hle : (Finset.univ.filter fun j => lostMap r grp (.inr j) = true).card ≤ grp.m := by
    have := Finset.card_le_univ (Finset.univ.filter fun j => lostMap r grp (.inr j) = true)
    rwa [Fintype.card_fin] at this
  obtain ⟨code', hnew', hdecode⟩ := rsFecNew_mds hk hkm hne
  obtain rfl := Option.some.inj (hnew.symm.trans hnew')
  obtain ⟨decoded, hdecoded⟩ := hdecode grp.rtpLen (dataPtrs r grp) (fecPtrs grp) (lostMap r grp) (by omega) (by omega)
  refine ⟨decoded, ?_⟩
  unfold fecDecode
  rw [if_neg (by simp [hready]), if_neg, hdecoded]
  rintro ⟨j, hj⟩
  obtain ⟨parity, hparity, hshort⟩ := (Option.any_eq_true _ _).1 hj
  exact absurd (hnone j parity hparity) (by simpa using hshort)

theorem fecDecode_none_of_short (heap : Heap) (r : RtpReorder w) (code : RsFec grp.k grp.m) (h : ¬ NoneShort grp) :
    fecDecode heap r grp code = none := by
  unfold NoneShort at h
  push Not at h
  obtain ⟨j, parity, hj, hshort⟩ := h
  have hex : ∃ j, (grp.fecSlots j).any (fun parity => decide (parity.length < grp.rtpLen)) = true :=
    ⟨j, by rw [hj]; simpa using hshort⟩
  unfold fecDecode
  rw [if_pos hex, ite_self]

theorem fecGetDecoder_ready (ctx : FecContext) (hkm : grp.k + grp.m ≤ 255) (hne : (grp.k, grp.m) ≠ (100, 5))
    (hk : 0 < grp.k) : ∃ ctx' code, fecGetDecoder (fun _ => true) ctx grp.k grp.m = (ctx', some code) := by
  obtain ⟨code, hnew, -⟩ := rsFecNew_mds hk hkm hne
  unfold fecGetDecoder
  split
  · exact ⟨_, _, rfl⟩
  · rw [if_pos rfl]
    split
    · exact ⟨_, _, rfl⟩
    · next hnone =>
      rw [hnew] at hnone
      cases hnone

/-! ### The recovered packet -/

theorem fecStripHeader_ok {p : List UInt8} {start size : Nat} (h : RtpPacket p start size)
    (hlen : p.length ≤ bufferPoolBufferSize) : ∃ payload, fecStripHeader p = some payload := by
  have hl := h.length
  have hsize := h.size_eq
  have hpos := h.size_pos
  have hoff : fecPayloadOffset (p ++ []) (p.getD 0 0) = some start := fecPayloadOffset_append h.header
  rw [List.append_nil] at hoff
  have hpad : (if p.getD 0 0 &&& 0x20 ≠ 0 then p.getD (p.length - 1) 0 else 0).toNat = paddingLen p := rfl
  unfold fecStripHeader
  dsimp only
  rw [if_neg (by omega), if_neg (not_not.2 h.version), hoff]
  dsimp only
  rw [hpad, if_neg (by omega)]
  exact ⟨_, rfl⟩

/-- A packet with the first byte of a well-formed one that has neither extension nor padding. -/
theorem fecStripHeader_plain {p q : List UInt8} {start size : Nat} (h : RtpPacket p start size)
    (hplain : PlainHeader p) (hlen : p.length ≤ bufferPoolBufferSize) (hq : q.length = p.length)
    (hflags : q.getD 0 0 = p.getD 0 0) : ∃ payload, fecStripHeader q = some payload := by
  have hl := h.length
  have hsize := h.size_eq
  have hpos := h.size_pos
  obtain ⟨hext, hpadding⟩ := hplain
  have hheader := h.header
  unfold rtpPayloadStart at hheader
  dsimp only at hheader
  split at hheader
  · cases hheader
  · next hcsrc =>
    rw [if_neg (not_not.2 hext)] at hheader
    cases hheader
    have hoff : fecPayloadOffset q (q.getD 0 0) = some (12 + (p.getD 0 0 &&& 0x0F).toNat * 4) := by
      unfold fecPayloadOffset
      dsimp only
      rw [hflags, if_neg (by omega), if_neg (not_not.2 hext)]
    unfold fecStripHeader
    dsimp only
    rw [hoff, hflags, hq, if_neg (by omega), if_neg (not_not.2 h.version)]
    dsimp only
    rw [if_neg (not_not.2 hpadding), show (0 : UInt8).toNat = 0 from rfl, if_neg (by omega)]
    exact ⟨_, rfl⟩

/-! ### Decoding by columns -/

theorem gatherRecv_map {β γ : Type} {k m : Nat} (g : β → γ) (block : Fin k ⊕ Fin m → β)
    (lostMap : Fin k ⊕ Fin m → Bool) (is : List (Fin k ⊕ Fin m)) (recv : List β) :
    gatherRecv (fun b => g (block b)) lostMap is (recv.map g) = (gatherRecv block lostMap is recv).map g := by
  induction is generalizing recv with
  | nil => rfl
  | cons i is ih =>
    unfold gatherRecv
    dsimp only
    cases lostMap i with
    | false =>
      rw [if_neg Bool.false_ne_true, if_neg Bool.false_ne_true, List.length_map]
      split
      · rfl
      · exact ih recv
    | true =>
      rw [if_pos rfl, if_pos rfl, ← List.map_singleton, ← List.map_append, List.length_map]
      split
      · rfl
      · exact ih _

/-- Every column is decoded by itself. -/
theorem rsFecDecode_columns {k m S S' : Nat} {code : RsFec k m} {data : Fin k → Fin S → UInt8}
    {fecData : Fin m → Fin S → UInt8} {lostMap : Fin k ⊕ Fin m → Bool} {out : Fin k → Fin S → UInt8}
    (h : rsFecDecode code data fecData lostMap = some out) (f : Fin S' → Fin S) :
    rsFecDecode code (fun i b => data i (f b)) (fun j b => fecData j (f b)) lostMap =
      some fun i b => out i (f b) := by
  have hgather := gatherRecv_map (fun (block : Fin S → UInt8) b => block (f b)) (Sum.elim data fecData) lostMap
    (blockIds k m) []
  have helim : (fun b => (fun (block : Fin S → UInt8) b => block (f b)) (Sum.elim data fecData b)) =
      Sum.elim (fun i b => data i (f b)) (fun j b => fecData j (f b)) := by
    funext b
    cases b <;> rfl
  rw [List.map_nil, helim] at hgather
  unfold rsFecDecode at h ⊢
  split at h
  · cases h
  · next hm =>
    rw [if_neg hm]
    split at h
    · cases h
    · next inv hinv =>
      cases h
      dsimp only
      rw [hgather]
      congr 1
      funext i b
      split
      · congr 1
        funext acc l
        congr 1
        rw [List.getD_eq_getElem?_getD, List.getD_eq_getElem?_getD, List.getElem?_map]
        cases (gatherRecv (Sum.elim data fecData) lostMap (blockIds k m) [])[(l : Nat)]? <;> rfl
      · rfl

/-- The first byte of a decoded packet is right whatever padding the packets in the ring had. -/
theorem Transmitted.decoded_flags (ht : Transmitted grp r orig start size) {t : Fin grp.k}
    {code : RsFec grp.k grp.m} {decoded : Fin grp.k → Fin grp.rtpLen → UInt8} (hpos : 0 < grp.rtpLen)
    (hget : rtpReorderGet r (grp.pktSeq t) = none) (hnew : rsFecNew grp.k grp.m = some code)
    (hdecode : rsFecDecode code (Rtp2httpd.dataPtrs r grp) (Rtp2httpd.fecPtrs grp) (lostMap r grp) = some decoded) :
    decoded t ⟨0, hpos⟩ = (orig t).getD 0 0 := by
  obtain ⟨hk, hk'⟩ := rsFecNew_pos_lt hnew
  have hcolumn := rsFecDecode_columns hdecode (fun _ : Fin 1 => ⟨0, hpos⟩)
  have hdata : ∀ i : Fin grp.k, lostMap r grp (.inl i) = true →
      (fun _ : Fin 1 => Rtp2httpd.dataPtrs r grp i ⟨0, hpos⟩) = fun _ => (orig i).getD 0 0 := by
    intro i hi
    funext b
    obtain ⟨ref, href⟩ : ∃ ref, rtpReorderGet r (grp.pktSeq i) = some ref := Option.isSome_iff_exists.1 hi
    obtain ⟨⟨rest, hrest⟩, hstart, hsize⟩ := ht.held i ref href
    have hpkt := rtpGetPayload_rtp (ht.packet i)
    have hlen := hpkt.length
    have hsizePos := hpkt.size_pos
    have hfirst : ref.data.getD 0 0 = (orig i).getD 0 0 := by
      rw [← hrest, List.getD_append _ _ _ _ (by omega)]
    unfold Rtp2httpd.dataPtrs rtpBlock
    rw [href]
    dsimp only
    split
    · show (ref.data.take (ref.dataOffset + ref.dataSize)).getD 0 0 = _
      rw [← hfirst, List.getD_eq_getElem?_getD, List.getD_eq_getElem?_getD, List.getElem?_take_of_lt (by omega)]
    · exact hfirst
  have hrecv := @isReceived_of_parity _ _ _ code (fun i (_ : Fin 1) => (orig i).getD 0 0) _ _ (lostMap r grp) hdata
    (fun j hj _ => ht.fecPtrs hnew j hj ⟨0, hpos⟩)
  have hlost : lostMap r grp (.inl t) = false := by
    show (rtpReorderGet r (grp.pktSeq t)).isSome = false
    rw [hget]
    rfl
  have hblock := rsFecDecode_spec code hk hk' hrecv hcolumn t
  rw [hlost] at hblock
  exact congrFun hblock 0

/-! ### `fec_attempt_recovery` -/

/-- With enough packets received, what is returned is what the decoder and the parser of its result make of them. -/
theorem fecAttemptRecovery_enough {t : Fin grp.k} (hen : fecIsEnabled ctx) (hatt : ctx.attached)
    (hgrp : fecGroupOf ctx (grp.pktSeq t) = some grp) (hok : grp.Ok) (hk : grp.k ≤ w.size)
    (hmiss : rtpReorderGet r (grp.pktSeq t) = none) (hcount : grp.k ≤ rtpReceived r grp + usableParity grp)
    {code : RsFec grp.k grp.m} (hcode : fecGetDecoder (fun _ => true) ctx grp.k grp.m = (ctx', some code)) :
    (fecAttemptRecovery (fun _ => true) ctx r (grp.pktSeq t)).2 =
      (fecDecode (fun _ => true) r grp code).bind fun decoded => fecStripHeader (List.ofFn (decoded t)) := by
  have hsize := w.size_le
  have hahead : ahead (grp.pktSeq t) grp.beginSeq = t := ahead_add (by omega) _
  have htarget : sdiff (grp.pktSeq t) grp.beginSeq = (t : ℤ) := by
    rw [sdiff_eq_ite, hahead, if_pos (by omega)]
  have hle := usableParity_le hok
  unfold fecAttemptRecovery
  rw [if_neg (by simp [hen, hatt]), hgrp]
  dsimp only
  rw [if_neg (Nat.not_lt.2 hk)]
  have hrange : 0 ≤ sdiff (grp.pktSeq t) grp.beginSeq ∧ sdiff (grp.pktSeq t) grp.beginSeq < grp.k := by
    rw [htarget]
    omega
  rw [dif_pos hrange, hmiss]
  dsimp only
  rw [if_neg (by omega), hcode]
  have hindex : (⟨(sdiff (grp.pktSeq t) grp.beginSeq).toNat, by omega⟩ : Fin grp.k) = t := by
    apply Fin.ext
    show (sdiff (grp.pktSeq t) grp.beginSeq).toNat = t
    rw [htarget, Int.toNat_natCast]
  simp only [hindex]
  cases fecDecode (fun _ => true) r grp code with
  | none => rfl
  | some decoded =>
    simp only [Option.bind_some]
    cases fecStripHeader (List.ofFn (decoded t)) with
    | none => rfl
    | some payload => rfl

/-- Decoding gives a packet whose header can be parsed. -/
theorem Sent.decoded_strip (hs : Sent grp r orig start size) (hok : grp.Ok) (hnone : NoneShort grp) {t : Fin grp.k}
    (hlen : (orig t).length = grp.rtpLen) (hmiss : rtpReorderGet r (grp.pktSeq t) = none)
    (hcomplete : Unpadded grp r orig ∨ PlainHeader (orig t)) {code : RsFec grp.k grp.m}
    (hnew : rsFecNew grp.k grp.m = some code) {decoded : Fin grp.k → Fin grp.rtpLen → UInt8}
    (hdecode : rsFecDecode code (Rtp2httpd.dataPtrs r grp) (Rtp2httpd.fecPtrs grp) (lostMap r grp) = some decoded) :
    ∃ payload, fecStripHeader (List.ofFn (decoded t)) = some payload := by
  have ht := hs.transmitted hnone
  have hpkt := rtpGetPayload_rtp (hs.packet t)
  have hbuffer : (orig t).length ≤ bufferPoolBufferSize := hlen ▸ hok.rtpLen_le
  have hpos : 0 < grp.rtpLen := lt_of_lt_of_le (by decide) hok.rtpLen_ge
  rcases hcomplete with hun | hplain
  · obtain ⟨hk, hk'⟩ := rsFecNew_pos_lt hnew
    have hrecv := @isReceived_of_parity _ _ _ code (fun i => zeroPadded (orig i) grp.rtpLen) _ _ _ (ht.dataPtrs hun)
      (ht.fecPtrs hnew)
    have hlost : lostMap r grp (.inl t) = false := by
      show (rtpReorderGet r (grp.pktSeq t)).isSome = false
      rw [hmiss]
      rfl
    have hblock := rsFecDecode_spec code hk hk' hrecv hdecode t
    rw [hlost, if_neg Bool.false_ne_true] at hblock
    rw [hblock, ofFn_zeroPadded (hs.length_le t), hlen, Nat.sub_self, List.replicate_zero, List.append_nil]
    exact fecStripHeader_ok hpkt hbuffer
  · refine fecStripHeader_plain hpkt hplain hbuffer (by rw [List.length_ofFn, hlen]) ?_
    rw [List.getD_eq_getElem _ _ (by rw [List.length_ofFn]; exact hpos), List.getElem_ofFn]
    exact ht.decoded_flags hpos hmiss hnew hdecode

/-- With `k` usable packets of a group received, the recovery of a missing one of `rtp_len` bytes fails where a short
parity packet was received as well; and it succeeds where none was, if no packet in the ring had padding or the
missing one has neither extension nor padding. -/
theorem fecAttemptRecovery_complete {t : Fin grp.k} (hen : fecIsEnabled ctx) (hatt : ctx.attached)
    (hgrp : fecGroupOf ctx (grp.pktSeq t) = some grp) (hok : grp.Ok) (hkm : grp.k + grp.m ≤ 255)
    (hne : (grp.k, grp.m) ≠ (100, 5)) (hk : grp.k ≤ w.size) (hs : Sent grp r orig start size)
    (hlen : (orig t).length = grp.rtpLen) (hmiss : rtpReorderGet r (grp.pktSeq t) = none)
    (hcount : grp.k ≤ rtpReceived r grp + usableParity grp) :
    (¬ NoneShort grp → (fecAttemptRecovery (fun _ => true) ctx r (grp.pktSeq t)).2 = none) ∧
      (Unpadded grp r orig ∨ PlainHeader (orig t) →
        ((∃ payload, (fecAttemptRecovery (fun _ => true) ctx r (grp.pktSeq t)).2 = some payload) ↔ NoneShort grp)) := by
  have hkpos : 0 < grp.k := lt_of_le_of_lt (Nat.zero_le _) t.isLt
  obtain ⟨ctx', code, hcode⟩ := fecGetDecoder_ready ctx hkm hne hkpos
  have hnew := fecGetDecoder_some hcode
  rw [fecAttemptRecovery_enough hen hatt hgrp hok hk hmiss hcount hcode]
  have hshort : ¬ NoneShort grp → (fecDecode (fun _ => true) r grp code).bind
      (fun decoded => fecStripHeader (List.ofFn (decoded t))) = none := fun h => by
    rw [fecDecode_none_of_short _ r code h]
    rfl
  refine ⟨hshort, fun hcomplete => ⟨?_, fun hnone => ?_⟩⟩
  · rintro ⟨payload, hpayload⟩
    by_contra h
    rw [hshort h] at hpayload
    cases hpayload
  · obtain ⟨decoded, hdecoded⟩ := fecDecode_some_of_enough hkm hne hok hnone hkpos hcount hnew
    rw [hdecoded]
    exact hs.decoded_strip hok hnone hlen hmiss hcomplete hnew (fecDecode_some hdecoded)

end Sending

/-! ### Two packets, of which the second is lost -/

/-- The group of the two packets with a second parity packet, whose data was cut off. -/
def cutOffGroup : FecGroup where
  beginSeq := 0
  endSeq := 1
  k := 2
  m := 2
  rtpLen := 14
  fecReceived := 2
  fecSlots := ![some (twoPacketsParity false), some []]

def cutOffContext : FecContext :=
  { twoPacketsContext false with groups := fun i => if i.val = 0 then some cutOffGroup else none }

theorem Transmitted.sent {orig : Fin grp.k → List UInt8} {start size : Fin grp.k → Nat}
    (h : Transmitted grp r orig start size) : Sent grp r orig start size :=
  ⟨h.packet, h.length_le, fun code hnew j parity hj _ => h.parity code hnew j parity hj, h.held⟩

/-- With its one parity packet complete the second packet is recovered. -/
theorem fecAttemptRecovery_complete_twoPackets : ∃ payload,
    (fecAttemptRecovery (fun _ => true) (twoPacketsContext false) (twoPacketsRing false) 1).2 = some payload := by
  have hok : (twoPacketsGroup false).Ok := ⟨by decide, by decide, by decide, by decide⟩
  have hplain : ∀ i : Fin 2, PlainHeader (twoPackets false i) := by
    unfold PlainHeader
    decide
  have h := @fecAttemptRecovery_complete _ (twoPacketsContext false) (twoPacketsRing false) (twoPacketsGroup false) _ _ _
    (1 : Fin 2) rfl rfl rfl hok (by decide) (by decide) (by decide) (twoPackets_transmitted false).sent rfl
    (twoPacketsRing_get false).2 (by decide +kernel)
  refine (h.2 (.inr (hplain 1))).2 fun j parity hj => ?_
  cases hj
  decide

theorem enGM_two_two {code : RsFec 2 2} (h : rsFecNew 2 2 = some code) : code.enGM 0 0 = 2 ∧ code.enGM 0 1 = 3 := by
  have hrow : (rsFecNew 2 2).map (fun code => (code.enGM 0 0, code.enGM 0 1)) = some (2, 3) := by decide +kernel
  rw [h] at hrow
  simpa using hrow

theorem cutOffGroup_sent : Sent cutOffGroup (twoPacketsRing false) (twoPackets false) (fun _ => 12)
    (twoPayloadSizes false) where
  packet := (twoPackets_transmitted false).packet
  length_le := (twoPackets_transmitted false).length_le
  held := (twoPackets_transmitted false).held
  parity := by
    rintro code hnew (j : Fin 2) parity hj hlen b
    match j with
    | 0 =>
      cases hj
      obtain ⟨h0, h1⟩ := enGM_two_two hnew
      refine (twoPacketsParity_eq b).trans ?_
      rw [← h0, ← h1]
      exact (Fin.sum_univ_two fun i : Fin 2 =>
        GF256.mk (code.enGM (0 : Fin 2) i) * ⟨zeroPadded (twoPackets false i) 14 b⟩).symm
    | 1 =>
      cases hj
      exact absurd hlen (by decide)

/-- With the cut-off parity packet in the group as well it is not. -/
theorem cutOffGroup_fails : fecGroupOf cutOffContext 1 = some cutOffGroup ∧ cutOffGroup.Ok ∧
    Sent cutOffGroup (twoPacketsRing false) (twoPackets false) (fun _ => 12) (twoPayloadSizes false) ∧
    (twoPackets false 1).length = cutOffGroup.rtpLen ∧ rtpReorderGet (twoPacketsRing false) 1 = none ∧
    cutOffGroup.k ≤ rtpReceived (twoPacketsRing false) cutOffGroup + usableParity cutOffGroup ∧
    (fecAttemptRecovery (fun _ => true) cutOffContext (twoPacketsRing false) 1).2 = none :=
  ⟨rfl, ⟨by decide, by decide, by decide, by decide⟩, cutOffGroup_sent, rfl, (twoPacketsRing_get false).2,
    by decide +kernel, by decide +kernel⟩

end Rtp2httpd
