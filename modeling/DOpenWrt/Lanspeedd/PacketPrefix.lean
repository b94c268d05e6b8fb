import DOpenWrt.Lanspeedd.Packet

/-!
# Parsing a prefix of a frame

The parser reads no byte behind the headers, so a prefix with the headers gives what the frame gives; it reads inside the
slice whatever lengths are declared; and where it finds a transport header, the walk over the headers of a GRO packet ends at
the end of the same one.
-/

namespace Lanspeedd.Packet

/-! ### The headers of a frame -/

/-- Where the transport header ends that the parser reads, counted from its first byte: nothing of it is read where not even
the shortest header is declared, and only that much where its length is wrong. -/
def transportRead (protocol : UInt8) (transport : List UInt8) (transportLen : Nat) : Nat :=
  if protocol = ipprotoTcp then
    if transportLen < 20 then 0
    else if transport.getD 12 0 >>> 4 < 5 ∨ transportLen < (transport.getD 12 0 >>> 4).toNat * 4 then 20
    else (transport.getD 12 0 >>> 4).toNat * 4
  else if protocol = ipprotoUdp then if transportLen < 8 then 0 else 8
  else 0

def ipv4Read (packet : List UInt8) (packetLen : Nat) : Nat :=
  if packet.getD 0 0 >>> 4 ≠ 4 ∨ packet.getD 0 0 &&& 0x0f < 5 then 20
  else
    let headerLen := (packet.getD 0 0 &&& 0x0f).toNat * 4
    let totalLen := (be16 packet 2).toNat
    if totalLen < headerLen ∨ packetLen < totalLen ∨ be16 packet 6 &&& 0x1fff ≠ 0 then headerLen
    else headerLen + transportRead (packet.getD 9 0) (packet.drop headerLen) (totalLen - headerLen)

def ipv6Read (packet : List UInt8) (packetLen : Nat) : Nat :=
  let payloadLen := (be16 packet 4).toNat
  if packet.getD 0 0 >>> 4 ≠ 6 ∨ packetLen < 40 + payloadLen then 40
  else 40 + transportRead (packet.getD 6 0) (packet.drop 40) payloadLen

/-- The end of the headers that the parser reads of a frame. -/
def headersRead (frame : List UInt8) : Nat :=
  if be16 frame 12 = ethertypeIpv4 then 14 + ipv4Read (frame.drop 14) (frame.length - 14)
  else if be16 frame 12 = ethertypeIpv6 then 14 + ipv6Read (frame.drop 14) (frame.length - 14)
  else 14

/-! ### Every read is inside -/

section
variable {ε α β : Type} {frame : List UInt8}

theorem Safe.bind {x : Outcome ε α} {k : α → Outcome ε β} (hx : Safe x) (hk : ∀ a, x = .ok a → Safe (k a)) :
    Safe (x >>= k) := by
  cases x with
  | ok a => exact hk a rfl
  | error e =>
    cases e with
    | err e => exact safe_fail e
    | outOfRange => exact absurd rfl hx.1
    | overflow => exact absurd rfl hx.2

theorem parseTransport_safe (protocol : UInt8) (transport : List UInt8) (transportLen : Nat) (allow : Bool) :
    Safe (parseTransport protocol transport transportLen allow) := by
  rw [parseTransport, parseTcp_eq, parseUdp_eq]
  split_ifs
  all_goals first | exact safe_fail _ | exact safe_ok _

theorem parseNetwork_safe (ethertype : UInt16) (payload : List UInt8) (payloadLen : Nat) :
    Safe (parseNetwork ethertype payload payloadLen) := by
  rw [parseNetwork, parseIpv4_eq, parseIpv6_eq]
  split_ifs
  all_goals first | exact safe_fail _ | exact (parseTransport_safe ..).bind fun _ _ => safe_ok _

theorem parsePacketPrefix_safe (frame : List UInt8) (frameLen : Nat) : Safe (parsePacketPrefix frame frameLen) := by
  rw [parsePacketPrefix_eq]
  split
  · exact safe_fail _
  · exact (parseNetwork_safe ..).bind fun _ _ => safe_ok _

theorem checkedEnd_safe (frame : List UInt8) (offset len : Nat) : Safe (checkedEnd frame offset len) := by
  unfold checkedEnd
  split
  · exact safe_ok _
  · exact safe_fail _

theorem checkedEnd_ok {offset len n : Nat} (h : checkedEnd frame offset len = .ok n) :
    n = offset + len ∧ n ≤ frame.length := by
  unfold checkedEnd at h
  split at h <;> cases h
  exact ⟨rfl, by assumption⟩

theorem index_safe {i : Nat} (h : i < frame.length) : Safe (index frame i : Outcome ε UInt8) := by
  rw [index_eq h]
  exact safe_ok _

theorem readU16_safe (frame : List UInt8) (offset : Nat) : Safe (readU16 frame offset) := by
  refine (checkedEnd_safe ..).bind fun n hn => ?_
  obtain ⟨rfl, hle⟩ := checkedEnd_ok hn
  rw [be16At_eq (by omega)]
  exact safe_ok _

theorem groTransportHeaderEnd_safe (frame : List UInt8) (offset : Nat) (protocol : UInt8) :
    Safe (groTransportHeaderEnd frame offset protocol) := by
  unfold groTransportHeaderEnd tcpMinHeaderLen
  split_ifs
  · refine (checkedEnd_safe ..).bind fun n hn => ?_
    obtain ⟨rfl, hle⟩ := checkedEnd_ok hn
    refine (index_safe (by omega)).bind fun words _ => ?_
    dsimp only
    split
    · exact safe_fail _
    · exact checkedEnd_safe ..
  · exact checkedEnd_safe ..
  · exact safe_fail _

theorem groIpv4HeaderLen_safe (frame : List UInt8) (offset : Nat) : Safe (groIpv4HeaderLen frame offset) := by
  unfold groIpv4HeaderLen ipv4MinHeaderLen
  refine (checkedEnd_safe ..).bind fun n hn => ?_
  obtain ⟨rfl, hle⟩ := checkedEnd_ok hn
  refine (index_safe (by omega)).bind fun versionIhl _ => ?_
  dsimp only
  split_ifs
  · exact safe_fail _
  · exact safe_fail _
  · exact safe_fail _
  · refine (readU16_safe ..).bind fun fragment _ => ?_
    split
    · exact safe_fail _
    · exact (index_safe (by omega)).bind fun _ _ => groTransportHeaderEnd_safe ..

/-- An extension header is read behind a check of its first bytes. -/
theorem groIpv6Extensions_safe (frame : List UInt8) (left : Nat) (nextHeader : UInt8) (transportOffset : Nat) :
    Safe (groIpv6Extensions frame left nextHeader transportOffset) := by
  induction left generalizing nextHeader transportOffset with
  | zero =>
    unfold groIpv6Extensions
    split
    · exact groTransportHeaderEnd_safe ..
    · exact safe_fail _
  | succ left ih =>
    unfold groIpv6Extensions
    dsimp only
    split_ifs
    · exact groTransportHeaderEnd_safe ..
    · refine (checkedEnd_safe ..).bind fun n hn => ?_
      obtain ⟨rfl, hle⟩ := checkedEnd_ok hn
      refine (index_safe (by omega)).bind fun _ _ => (index_safe (by omega)).bind fun _ _ => ?_
      exact (checkedEnd_safe ..).bind fun _ _ => ih ..
    · refine (checkedEnd_safe ..).bind fun n hn => ?_
      obtain ⟨rfl, hle⟩ := checkedEnd_ok hn
      refine (readU16_safe ..).bind fun _ _ => ?_
      split
      · exact safe_fail _
      · exact (index_safe (by omega)).bind fun _ _ => ih ..
    · refine (checkedEnd_safe ..).bind fun n hn => ?_
      obtain ⟨rfl, hle⟩ := checkedEnd_ok hn
      refine (index_safe (by omega)).bind fun _ _ => (index_safe (by omega)).bind fun _ _ => ?_
      exact (checkedEnd_safe ..).bind fun _ _ => ih ..
    · exact safe_fail _

theorem groIpv6HeaderLen_safe (frame : List UInt8) (offset : Nat) : Safe (groIpv6HeaderLen frame offset) := by
  unfold groIpv6HeaderLen ipv6HeaderLen
  refine (checkedEnd_safe ..).bind fun n hn => ?_
  obtain ⟨rfl, hle⟩ := checkedEnd_ok hn
  refine (index_safe (by omega)).bind fun _ _ => ?_
  split
  · exact safe_fail _
  · exact (index_safe (by omega)).bind fun _ _ => groIpv6Extensions_safe ..

theorem skipVlanTags_safe (frame : List UInt8) (ethertype : UInt16) : Safe (skipVlanTags frame ethertype) := by
  have hinner : ∀ offset, Safe (vlanInnerEthertype frame offset) := fun _ =>
    (checkedEnd_safe ..).bind fun _ _ => readU16_safe ..
  unfold skipVlanTags
  split
  · exact safe_ok _
  refine (hinner _).bind fun _ _ => ?_
  split
  · exact safe_ok _
  refine (hinner _).bind fun _ _ => ?_
  split
  · exact safe_fail _
  · exact safe_ok _

theorem groRepeatedHeaderLen_safe (frame : List UInt8) : Safe (groRepeatedHeaderLen frame) := by
  unfold groRepeatedHeaderLen
  split
  · exact safe_fail _
  refine (readU16_safe ..).bind fun _ _ => (skipVlanTags_safe ..).bind fun _ _ => Safe.bind ?_ fun _ _ => ?_
  · split_ifs
    · exact groIpv4HeaderLen_safe ..
    · exact groIpv6HeaderLen_safe ..
    · exact safe_fail _
  · split
    · exact safe_ok _
    · exact safe_fail _

end

/-! ### A prefix -/

section
variable {bytes frame captured : List UInt8} {i k n : Nat}

theorem getD_take (h : i < k) : (bytes.take k).getD i 0 = bytes.getD i 0 := by
  rw [List.getD_eq_getElem?_getD, List.getD_eq_getElem?_getD, List.getElem?_take_of_lt h]

theorem be16_take (h : i + 1 < k) : be16 (bytes.take k) i = be16 bytes i := by
  rw [be16, be16, getD_take (by omega), getD_take h]

theorem vectorAt_take (h : i + n ≤ k) : vectorAt (bytes.take k) i n = vectorAt bytes i n := by
  unfold vectorAt
  congr 1
  funext j
  exact getD_take (by omega)

theorem parseTcp_take {tcp : List UInt8} {tcpLen : Nat} (hle : k ≤ tcp.length)
    (hk : transportRead ipprotoTcp tcp tcpLen ≤ k) : parseTcp (tcp.take k) tcpLen = parseTcp tcp tcpLen := by
  have hlength : (tcp.take k).length = k := List.length_take_of_le hle
  rw [transportRead, if_pos rfl] at hk
  rw [parseTcp_eq, parseTcp_eq, hlength]
  by_cases hlen : tcpLen < 20
  · rw [if_pos (.inl hlen), if_pos (.inl hlen)]
  rw [if_neg hlen] at hk
  have h20 : 20 ≤ k := by
    split at hk
    · exact hk
    · next h =>
      have : 5 ≤ (tcp.getD 12 0 >>> 4).toNat := Nat.le_of_not_lt (not_or.1 h).1
      omega
  have hshort : ¬ (tcpLen < 20 ∨ k < 20) := by omega
  have hshort' : ¬ (tcpLen < 20 ∨ tcp.length < 20) := by omega
  rw [getD_take (by omega), if_neg hshort, if_neg hshort', be16_take (by omega), be16_take (by omega)]
  by_cases hwords : tcp.getD 12 0 >>> 4 < 5
  · rw [if_pos hwords, if_pos hwords]
  rw [if_neg hwords, if_neg hwords]
  by_cases hdeclared : tcpLen < (tcp.getD 12 0 >>> 4).toNat * 4
  · rw [if_pos (.inl hdeclared), if_pos (.inl hdeclared)]
  · rw [if_neg (not_or_intro hwords hdeclared)] at hk
    have hheader : ¬ (tcpLen < (tcp.getD 12 0 >>> 4).toNat * 4 ∨ k < (tcp.getD 12 0 >>> 4).toNat * 4) := by omega
    have hheader' : ¬ (tcpLen < (tcp.getD 12 0 >>> 4).toNat * 4 ∨ tcp.length < (tcp.getD 12 0 >>> 4).toNat * 4) := by
      omega
    rw [if_neg hheader, if_neg hheader']

theorem parseUdp_take {udp : List UInt8} {udpLen : Nat} {allow : Bool} (hle : k ≤ udp.length)
    (hk : transportRead ipprotoUdp udp udpLen ≤ k) : parseUdp (udp.take k) udpLen allow = parseUdp udp udpLen allow := by
  have hlength : (udp.take k).length = k := List.length_take_of_le hle
  rw [transportRead, if_neg (by decide), if_pos rfl] at hk
  rw [parseUdp_eq, parseUdp_eq, hlength]
  by_cases hlen : udpLen < 8
  · rw [if_pos (.inl hlen), if_pos (.inl hlen)]
  · rw [if_neg hlen] at hk
    have hshort : ¬ (udpLen < 8 ∨ k < 8) := by omega
    have hshort' : ¬ (udpLen < 8 ∨ udp.length < 8) := by omega
    rw [if_neg hshort, if_neg hshort', be16_take (by omega), be16_take (by omega), be16_take (by omega)]

theorem parseTransport_take {protocol : UInt8} {transport : List UInt8} {transportLen : Nat} {allow : Bool}
    (hk : transportRead protocol transport transportLen ≤ k) :
    parseTransport protocol (transport.take k) transportLen allow = parseTransport protocol transport transportLen allow := by
  rcases Nat.le_total transport.length k with hle | hle
  · rw [List.take_of_length_le hle]
  unfold parseTransport
  split
  · next htcp => exact parseTcp_take hle (htcp ▸ hk)
  split
  · next hudp => exact parseUdp_take hle (hudp ▸ hk)
  · rfl

theorem parseIpv4_take {packet : List UInt8} {packetLen : Nat} (hk : ipv4Read packet packetLen ≤ k) :
    parseIpv4 (packet.take k) packetLen = parseIpv4 packet packetLen := by
  rcases Nat.le_total packet.length k with hle | hle
  · rw [List.take_of_length_le hle]
  have hlength : (packet.take k).length = k := List.length_take_of_le hle
  have hmin : ¬ packet.getD 0 0 &&& 0x0f < 5 → 5 ≤ (packet.getD 0 0 &&& 0x0f).toNat := Nat.le_of_not_lt
  unfold ipv4Read at hk
  dsimp only at hk
  have h20 : 20 ≤ k := by
    split at hk
    · exact hk
    · next h =>
      have := hmin (not_or.1 h).2
      split at hk <;> omega
  rw [parseIpv4_eq, parseIpv4_eq, hlength, getD_take (by omega), getD_take (by omega), be16_take (by omega),
    be16_take (by omega), vectorAt_take (by omega), vectorAt_take (by omega), if_neg (Nat.not_lt.2 h20),
    if_neg (Nat.not_lt.2 (h20.trans hle))]
  by_cases hversion : packet.getD 0 0 >>> 4 ≠ 4
  · rw [if_pos hversion, if_pos hversion]
  by_cases hwords : packet.getD 0 0 &&& 0x0f < 5
  · rw [if_neg hversion, if_neg hversion, if_pos hwords, if_pos hwords]
  rw [if_neg (not_or_intro hversion hwords)] at hk
  rw [if_neg hversion, if_neg hversion, if_neg hwords, if_neg hwords]
  have hheader : (packet.getD 0 0 &&& 0x0f).toNat * 4 ≤ k := by split at hk <;> omega
  rw [if_neg (Nat.not_lt.2 hheader), if_neg (Nat.not_lt.2 (hheader.trans hle))]
  by_cases htotal : (be16 packet 2).toNat < (packet.getD 0 0 &&& 0x0f).toNat * 4
  · rw [if_pos htotal, if_pos htotal]
  by_cases hdeclared : packetLen < (be16 packet 2).toNat
  · rw [if_neg htotal, if_neg htotal, if_pos hdeclared, if_pos hdeclared]
  by_cases hfragment : be16 packet 6 &&& 0x1fff ≠ 0
  · rw [if_neg htotal, if_neg htotal, if_neg hdeclared, if_neg hdeclared, if_pos hfragment, if_pos hfragment]
  rw [if_neg (not_or_intro htotal (not_or_intro hdeclared hfragment))] at hk
  rw [if_neg htotal, if_neg htotal, if_neg hdeclared, if_neg hdeclared, if_neg hfragment, if_neg hfragment, List.drop_take,
    parseTransport_take (by omega)]

theorem parseIpv6_take {packet : List UInt8} {packetLen : Nat} (hk : ipv6Read packet packetLen ≤ k) :
    parseIpv6 (packet.take k) packetLen = parseIpv6 packet packetLen := by
  rcases Nat.le_total packet.length k with hle | hle
  · rw [List.take_of_length_le hle]
  have hlength : (packet.take k).length = k := List.length_take_of_le hle
  unfold ipv6Read at hk
  dsimp only at hk
  have h40 : 40 ≤ k := by split at hk <;> omega
  rw [parseIpv6_eq, parseIpv6_eq, hlength, getD_take (by omega), getD_take (by omega), be16_take (by omega),
    vectorAt_take (by omega), vectorAt_take (by omega), if_neg (Nat.not_lt.2 h40), if_neg (Nat.not_lt.2 (h40.trans hle))]
  by_cases hversion : packet.getD 0 0 >>> 4 ≠ 6
  · rw [if_pos hversion, if_pos hversion]
  by_cases hdeclared : packetLen < 40 + (be16 packet 4).toNat
  · rw [if_neg hversion, if_neg hversion, if_pos hdeclared, if_pos hdeclared]
  rw [if_neg (not_or_intro hversion hdeclared)] at hk
  rw [if_neg hversion, if_neg hversion, if_neg hdeclared, if_neg hdeclared, List.drop_take, parseTransport_take (by omega)]

/-- A prefix with the headers that are read of the frame gives what the frame gives. -/
theorem parsePacketPrefix_take (hk : headersRead frame ≤ k) :
    parsePacketPrefix (frame.take k) frame.length = parsePacket frame := by
  rcases Nat.le_total frame.length k with hle | hle
  · rw [List.take_of_length_le hle, parsePacket]
  have hlength : (frame.take k).length = k := List.length_take_of_le hle
  have h14 : 14 ≤ k := by
    unfold headersRead at hk
    split_ifs at hk <;> omega
  have hshort : ¬ (k < 14 ∨ frame.length < 14) := by omega
  have hshort' : ¬ (frame.length < 14 ∨ frame.length < 14) := by omega
  rw [parsePacket, parsePacketPrefix_eq, parsePacketPrefix_eq, hlength, if_neg hshort, if_neg hshort', be16_take (by omega),
    vectorAt_take (by omega), vectorAt_take (by omega), List.drop_take]
  congr 1
  unfold headersRead at hk
  unfold parseNetwork
  split
  · next hipv4 =>
    rw [if_pos hipv4] at hk
    exact parseIpv4_take (by omega)
  next hipv4 =>
  split
  · next hipv6 =>
    rw [if_neg hipv4, if_pos hipv6] at hk
    exact parseIpv6_take (by omega)
  · rfl

end

/-! ### The walk over the headers of a GRO packet -/

/-- How long a transport header is. -/
def transportHeaderLen (protocol : UInt8) (transport : List UInt8) : Nat :=
  if protocol = ipprotoTcp then (transport.getD 12 0 >>> 4).toNat * 4 else 8

/-- Where the transport header of an untagged frame ends. -/
def transportHeaderEnd (frame : List UInt8) : Nat :=
  if be16 frame 12 = ethertypeIpv4 then
    let offset := 14 + (frame.getD 14 0 &&& 0x0f).toNat * 4
    offset + transportHeaderLen (frame.getD 23 0) (frame.drop offset)
  else 54 + transportHeaderLen (frame.getD 20 0) (frame.drop 54)

section
variable {frame : List UInt8} {i k n offset : Nat} {protocol : UInt8}

theorem getD_drop : (frame.drop k).getD i 0 = frame.getD (k + i) 0 := by
  rw [List.getD_eq_getElem?_getD, List.getD_eq_getElem?_getD, List.getElem?_drop]

theorem be16_drop : be16 (frame.drop k) i = be16 frame (k + i) := by
  rw [be16, be16, getD_drop, getD_drop, Nat.add_assoc]

theorem checkedEnd_eq (h : offset + n ≤ frame.length) : checkedEnd frame offset n = .ok (offset + n) := if_pos h

theorem readU16_eq (h : i + 2 ≤ frame.length) : readU16 frame i = .ok (be16 frame i) := by
  rw [readU16, checkedEnd_eq h, Except.ok_bind, be16At_eq (by omega)]

/-- The transport header that the parser has found is whole. -/
structure TransportFound (frame : List UInt8) (offset : Nat) (protocol : UInt8) : Prop where
  known : protocol = ipprotoTcp ∨ protocol = ipprotoUdp
  words : protocol = ipprotoTcp → 5 ≤ (frame.getD (offset + 12) 0 >>> 4).toNat
  inside : offset + transportHeaderLen protocol (frame.drop offset) ≤ frame.length

theorem transportFound_of_parse {transportLen : Nat} {allow : Bool} {transport : Transport} (hoff : offset ≤ frame.length)
    (h : parseTransport protocol (frame.drop offset) transportLen allow = .ok transport) :
    TransportFound frame offset protocol := by
  unfold parseTransport at h
  split at h
  · next htcp =>
    rw [parseTcp_eq, getD_drop, List.length_drop] at h
    split at h
    · cases h
    split at h
    · cases h
    split at h
    · cases h
    next hshort hwords hheader =>
    refine ⟨.inl htcp, fun _ => Nat.le_of_not_lt hwords, ?_⟩
    rw [transportHeaderLen, if_pos htcp, getD_drop]
    omega
  split at h
  · next htcp hudp =>
    rw [parseUdp_eq, List.length_drop] at h
    split at h
    · cases h
    next hshort =>
    refine ⟨.inr hudp, fun h => absurd h htcp, ?_⟩
    rw [transportHeaderLen, if_neg htcp]
    omega
  · cases h

theorem TransportFound.min_le (h : TransportFound frame offset protocol) :
    8 ≤ transportHeaderLen protocol (frame.drop offset) := by
  unfold transportHeaderLen
  split
  · next htcp =>
    have := h.words htcp
    rw [getD_drop]
    omega
  · exact le_rfl

theorem groTransportHeaderEnd_eq (h : TransportFound frame offset protocol) :
    groTransportHeaderEnd frame offset protocol = .ok (offset + transportHeaderLen protocol (frame.drop offset)) := by
  have hinside := h.inside
  unfold groTransportHeaderEnd tcpMinHeaderLen udpHeaderLen
  by_cases htcp : protocol = ipprotoTcp
  · have hwords := h.words htcp
    rw [transportHeaderLen, if_pos htcp, getD_drop] at hinside ⊢
    rw [if_pos htcp, checkedEnd_eq (by omega), index_eq (by omega)]
    simp only [Except.ok_bind]
    have hnot : ¬ frame.getD (offset + 12) 0 >>> 4 < 5 := Nat.not_lt.2 hwords
    rw [if_neg hnot, checkedEnd_eq hinside]
  · rw [transportHeaderLen, if_neg htcp] at hinside ⊢
    rw [if_neg htcp, if_pos (h.known.resolve_left htcp), checkedEnd_eq hinside]

theorem groIpv4HeaderLen_of_parse {packetLen : Nat} {network : NetworkIdentity} (hoff : offset ≤ frame.length)
    (h : parseIpv4 (frame.drop offset) packetLen = .ok network) :
    ∃ headerLen, headerLen = (frame.getD offset 0 &&& 0x0f).toNat * 4 ∧ 20 ≤ headerLen ∧
      TransportFound frame (offset + headerLen) (frame.getD (offset + 9) 0) ∧
      groIpv4HeaderLen frame offset =
        .ok (offset + headerLen + transportHeaderLen (frame.getD (offset + 9) 0) (frame.drop (offset + headerLen))) := by
  rw [parseIpv4_eq, List.length_drop, getD_drop, getD_drop, be16_drop, be16_drop, List.drop_drop, Nat.add_zero] at h
  split at h
  · cases h
  split at h
  · cases h
  split at h
  · cases h
  split at h
  · cases h
  split at h
  · cases h
  split at h
  · cases h
  split at h
  · cases h
  next hshort hversion hwords hheader htotal hdeclared hfragment =>
  have hmin : 5 ≤ (frame.getD offset 0 &&& 0x0f).toNat := Nat.le_of_not_lt hwords
  obtain ⟨transport, htransport, -⟩ := Except.bind_eq_ok.1 h
  have hfound := transportFound_of_parse (by omega) htransport
  refine ⟨_, rfl, by omega, hfound, ?_⟩
  unfold groIpv4HeaderLen ipv4MinHeaderLen
  rw [checkedEnd_eq (by omega), index_eq (by omega)]
  simp only [Except.ok_bind]
  rw [if_neg hversion, if_neg hwords, if_neg (by omega), readU16_eq (by omega), Except.ok_bind, if_neg hfragment,
    index_eq (by omega), Except.ok_bind, groTransportHeaderEnd_eq hfound]

theorem groIpv6HeaderLen_of_parse {packetLen : Nat} {network : NetworkIdentity} (hoff : offset ≤ frame.length)
    (h : parseIpv6 (frame.drop offset) packetLen = .ok network) :
    TransportFound frame (offset + 40) (frame.getD (offset + 6) 0) ∧
      groIpv6HeaderLen frame offset =
        .ok (offset + 40 + transportHeaderLen (frame.getD (offset + 6) 0) (frame.drop (offset + 40))) := by
  rw [parseIpv6_eq, List.length_drop, getD_drop, getD_drop, be16_drop, List.drop_drop, Nat.add_zero] at h
  split at h
  · cases h
  split at h
  · cases h
  split at h
  · cases h
  next hshort hversion hdeclared =>
  obtain ⟨transport, htransport, -⟩ := Except.bind_eq_ok.1 h
  have hfound := transportFound_of_parse (by omega) htransport
  refine ⟨hfound, ?_⟩
  unfold groIpv6HeaderLen ipv6HeaderLen groIpv6Extensions
  rw [checkedEnd_eq (by omega), Except.ok_bind, index_eq (by omega), Except.ok_bind, if_neg hversion, index_eq (by omega),
    Except.ok_bind, if_pos hfound.known, groTransportHeaderEnd_eq hfound]

theorem transportHeaderLen_le (protocol : UInt8) (transport : List UInt8) : transportHeaderLen protocol transport ≤ 60 := by
  have hlt := (transport.getD 12 0).toNat_lt
  unfold transportHeaderLen
  split
  · rw [UInt8.toNat_shiftRight]
    have : (4 : UInt8).toNat % 8 = 4 := rfl
    rw [this, Nat.shiftRight_eq_div_pow]
    omega
  · omega

/-- `u16::try_from` of a length that fits. -/
theorem tryFrom_fits (hmin : 42 ≤ n) (hmax : n ≤ frame.length) (hfits : n < 2 ^ 16) :
    ∃ m, (if n < 2 ^ 16 then (return UInt16.ofNat n : Partial UInt16) else fail ()) = .ok m ∧ m.toNat = n ∧ 42 ≤ m.toNat ∧
      m.toNat ≤ frame.length := by
  have htoNat : (UInt16.ofNat n).toNat = n := UInt16.toNat_ofNat_of_lt' hfits
  refine ⟨UInt16.ofNat n, if_pos hfits, htoNat, ?_, ?_⟩ <;> rwa [htoNat]

/-- Where the parser succeeds the walk ends at the end of the transport header. -/
theorem groRepeatedHeaderLen_of_parse {frameLen : Nat} {identity : PacketIdentity}
    (h : parsePacketPrefix frame frameLen = .ok identity) :
    ∃ n, groRepeatedHeaderLen frame = .ok n ∧ n.toNat = transportHeaderEnd frame ∧ 42 ≤ n.toNat ∧
      n.toNat ≤ frame.length := by
  rw [parsePacketPrefix_eq] at h
  split at h
  · cases h
  next hshort =>
  obtain ⟨network, hnetwork, -⟩ := Except.bind_eq_ok.1 h
  unfold parseNetwork at hnetwork
  -- the ethertype is none of a VLAN tag
  have huntagged (ethertype : UInt16) (hip : ethertype = ethertypeIpv4 ∨ ethertype = ethertypeIpv6) :
      skipVlanTags frame ethertype = .ok (14, ethertype) := by
    rcases hip with rfl | rfl
    · rfl
    · rfl
  unfold groRepeatedHeaderLen ethernetHeaderLen transportHeaderEnd
  rw [if_neg (by omega), readU16_eq (by omega), Except.ok_bind]
  split at hnetwork
  · next hipv4 =>
    obtain ⟨headerLen, hheader, hmin, hfound, hgro⟩ := groIpv4HeaderLen_of_parse (by omega) hnetwork
    rw [huntagged _ (.inl hipv4), Except.ok_bind]
    dsimp only
    rw [if_pos hipv4, if_pos hipv4, hgro, Except.ok_bind, ← hheader]
    have hwords : (frame.getD 14 0 &&& 0x0f).toNat ≤ 15 := by
      rw [UInt8.toNat_and]
      exact Nat.and_le_right
    have := hfound.min_le
    have := hfound.inside
    have := transportHeaderLen_le (frame.getD (14 + 9) 0) (frame.drop (14 + headerLen))
    exact tryFrom_fits (by omega) (by omega) (by omega)
  next hipv4 =>
  split at hnetwork
  · next hipv6 =>
    obtain ⟨hfound, hgro⟩ := groIpv6HeaderLen_of_parse (by omega) hnetwork
    rw [huntagged _ (.inr hipv6), Except.ok_bind]
    dsimp only
    rw [if_neg hipv4, if_neg hipv4, if_pos hipv6, hgro, Except.ok_bind]
    have := hfound.min_le
    have := hfound.inside
    have := transportHeaderLen_le (frame.getD (14 + 6) 0) (frame.drop (14 + 40))
    exact tryFrom_fits (by omega) (by omega) (by omega)
  · cases hnetwork

end

/-- A prefix with the headers that are read gives what the frame gives; no read is outside the slice, for any declared length;
and where a prefix is parsed, the headers that a GRO packet repeats end with the transport header. -/
theorem parsePacketPrefix_faithful :
    (∀ frame captured : List UInt8, captured <+: frame → min frame.length (headersRead frame) ≤ captured.length →
      parsePacketPrefix captured frame.length = parsePacket frame) ∧
    (∀ (bytes : List UInt8) (frameLen : Nat), Safe (parsePacketPrefix bytes frameLen) ∧ Safe (groRepeatedHeaderLen bytes)) ∧
    ∀ (captured : List UInt8) (frameLen : Nat) (identity : PacketIdentity),
      parsePacketPrefix captured frameLen = .ok identity →
        ∃ n, groRepeatedHeaderLen captured = .ok n ∧ n.toNat = transportHeaderEnd captured ∧ 42 ≤ n.toNat ∧
          n.toNat ≤ captured.length := by
  refine ⟨fun frame captured hprefix hlength => ?_,
    fun bytes frameLen => ⟨parsePacketPrefix_safe bytes frameLen, groRepeatedHeaderLen_safe bytes⟩,
    fun captured frameLen identity h => groRepeatedHeaderLen_of_parse h⟩
  rw [List.prefix_iff_eq_take.1 hprefix]
  rcases Nat.le_total frame.length captured.length with hle | hle
  · rw [List.take_of_length_le hle, parsePacket]
  · rcases Nat.le_total (headersRead frame) frame.length with hread | hread
    · exact parsePacketPrefix_take (by omega)
    · rw [List.take_of_length_le (by omega), parsePacket]

/-- A UDP packet with three bytes behind its headers. -/
def udpFrame : List UInt8 :=
  [10, 187, 204, 221, 238, 255, 2, 17, 34, 51, 68, 85, 8, 0] ++
    [0x45, 0, 0, 31, 0, 0, 0, 0, 64, 17, 0, 0, 192, 0, 2, 10, 198, 51, 100, 20] ++ [0, 53, 0, 80, 0, 11, 0, 0] ++ [1, 2, 3]

theorem udpFrame_prefix : parsePacketPrefix (udpFrame.take 42) 45 = parsePacket udpFrame ∧
    ∃ n, groRepeatedHeaderLen (udpFrame.take 42) = .ok n ∧ n.toNat = 42 := by
  have hparse := parsePacketPrefix_faithful.1 udpFrame (udpFrame.take 42) (List.take_prefix _ _) (by decide)
  refine ⟨hparse, ?_⟩
  have hok : (parsePacketPrefix (udpFrame.take 42) 45).isOk = true := by decide
  cases hidentity : parsePacketPrefix (udpFrame.take 42) 45 with
  | error e =>
    rw [hidentity] at hok
    cases hok
  | ok identity =>
    obtain ⟨n, hgro, hend, -⟩ := parsePacketPrefix_faithful.2.2 _ _ _ hidentity
    exact ⟨n, hgro, hend⟩

end Lanspeedd.Packet
