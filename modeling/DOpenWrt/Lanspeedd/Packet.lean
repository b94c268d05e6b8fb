import DOpenWrt.Lib.Except

/-!
# Packet headers (`lanspeed-common/src/packet.rs`)

The parser of Ethernet, IP and transport headers and the second walk over the same headers, which also passes VLAN tags and
IPv6 extensions. An index or a range outside a slice is a failure of its own. A slice has at most `isize::MAX` bytes, so
where `checked_add` fails the end is outside the slice as well.
-/

namespace Lanspeedd.Packet

/-! ### The source -/

def ethernetHeaderLen : Nat := 14
def ipv4MinHeaderLen : Nat := 20
def ipv6HeaderLen : Nat := 40
def tcpMinHeaderLen : Nat := 20
def udpHeaderLen : Nat := 8
def ethertypeIpv4 : UInt16 := 0x0800
def ethertypeIpv6 : UInt16 := 0x86dd
def ethertypeVlan : UInt16 := 0x8100
def ethertypeVlanAd : UInt16 := 0x88a8
def ipprotoHopopts : UInt8 := 0
def ipprotoTcp : UInt8 := 6
def ipprotoUdp : UInt8 := 17
def ipprotoRouting : UInt8 := 43
def ipprotoFragment : UInt8 := 44
def ipprotoAh : UInt8 := 51
def ipprotoDstopts : UInt8 := 60
def maxIpv6ExtensionHeaders : Nat := 4

inductive AddressFamily where
  | ipv4 | ipv6
deriving DecidableEq, Repr

inductive TransportProtocol where
  | tcp | udp
deriving DecidableEq, Repr

structure PacketIdentity where
  srcMac : Vector UInt8 6
  dstMac : Vector UInt8 6
  family : AddressFamily
  protocol : TransportProtocol
  srcAddr : Vector UInt8 16
  dstAddr : Vector UInt8 16
  srcPort : UInt16
  dstPort : UInt16
deriving DecidableEq, Repr

inductive ParseError where
  | truncatedEthernet | unsupportedEtherType
  | truncatedIpv4 | invalidIpv4HeaderLength | invalidIpv4TotalLength | nonInitialIpv4Fragment
  | truncatedIpv6 | invalidIpVersion
  | unsupportedTransportProtocol
  | truncatedTcp | invalidTcpHeaderLength
  | truncatedUdp | invalidUdpLength
deriving DecidableEq, Repr

/-- Why there is no result: the function returns an error, or it panics. -/
inductive Failure (ε : Type) where
  | err (error : ε)
  | outOfRange
  | overflow
deriving DecidableEq, Repr

abbrev Outcome (ε : Type) := Except (Failure ε)

section
variable {ε α : Type}

/-- `return Err(error)`. -/
def fail (error : ε) : Outcome ε α := .error (.err error)

def index (bytes : List UInt8) (i : Nat) : Outcome ε UInt8 :=
  match bytes[i]? with
  | some b => .ok b
  | none => .error .outOfRange

/-- `copy_from_slice(&bytes[first..first + n])`. -/
def copyFrom (bytes : List UInt8) (first n : Nat) : Outcome ε (Vector UInt8 n) :=
  if first + n ≤ bytes.length then .ok (Vector.ofFn fun i => bytes.getD (first + i) 0) else .error .outOfRange

/-- `&bytes[first..]`. -/
def sliceFrom (bytes : List UInt8) (first : Nat) : Outcome ε (List UInt8) :=
  if first ≤ bytes.length then .ok (bytes.drop first) else .error .outOfRange

def subtract (a b : Nat) : Outcome ε Nat := if b ≤ a then .ok (a - b) else .error .overflow

def fromBeBytes (high low : UInt8) : UInt16 := high.toUInt16 <<< 8 ||| low.toUInt16

/-- `u16::from_be_bytes([bytes[i], bytes[i + 1]])`. -/
def be16At (bytes : List UInt8) (i : Nat) : Outcome ε UInt16 := do
  return fromBeBytes (← index bytes i) (← index bytes (i + 1))

end

abbrev Transport := TransportProtocol × UInt16 × UInt16

def parseTcp (tcp : List UInt8) (tcpLen : Nat) : Outcome ParseError Transport :=
  if tcpLen < tcpMinHeaderLen ∨ tcp.length < tcpMinHeaderLen then fail .truncatedTcp
  else do
    let headerWords := (← index tcp 12) >>> 4
    if headerWords < 5 then fail .invalidTcpHeaderLength
    else
      let headerLen := headerWords.toNat * 4
      if tcpLen < headerLen ∨ tcp.length < headerLen then fail .truncatedTcp
      else return (.tcp, ← be16At tcp 0, ← be16At tcp 2)

def parseUdp (udp : List UInt8) (udpLen : Nat) (allowIncompleteDatagram : Bool) : Outcome ParseError Transport :=
  if udpLen < udpHeaderLen ∨ udp.length < udpHeaderLen then fail .truncatedUdp
  else do
    let datagramLen := (← be16At udp 4).toNat
    if datagramLen < udpHeaderLen ∨ ¬ allowIncompleteDatagram ∧ udpLen < datagramLen then fail .invalidUdpLength
    else return (.udp, ← be16At udp 0, ← be16At udp 2)

def parseTransport (protocol : UInt8) (transport : List UInt8) (transportLen : Nat) (allowIncompleteDatagram : Bool) :
    Outcome ParseError Transport :=
  if protocol = ipprotoTcp then parseTcp transport transportLen
  else if protocol = ipprotoUdp then parseUdp transport transportLen allowIncompleteDatagram
  else fail .unsupportedTransportProtocol

structure NetworkIdentity where
  family : AddressFamily
  protocol : TransportProtocol
  srcAddr : Vector UInt8 16
  dstAddr : Vector UInt8 16
  srcPort : UInt16
  dstPort : UInt16
deriving DecidableEq, Repr

/-- `[0; 16]` with the address in the first four bytes. -/
def ipv4Addr (addr : Vector UInt8 4) : Vector UInt8 16 := addr ++ (Vector.replicate 12 0 : Vector UInt8 12)

def parseIpv4 (packet : List UInt8) (packetLen : Nat) : Outcome ParseError NetworkIdentity :=
  if packet.length < ipv4MinHeaderLen then fail .truncatedIpv4
  else do
    let versionIhl ← index packet 0
    if versionIhl >>> 4 ≠ 4 then fail .invalidIpVersion
    else
      let ihlWords := versionIhl &&& 0x0f
      if ihlWords < 5 then fail .invalidIpv4HeaderLength
      else
        let headerLen := ihlWords.toNat * 4
        if packet.length < headerLen then fail .truncatedIpv4
        else do
          let totalLen := (← be16At packet 2).toNat
          if totalLen < headerLen then fail .invalidIpv4TotalLength
          else if packetLen < totalLen then fail .truncatedIpv4
          else do
            let fragment ← be16At packet 6
            if fragment &&& 0x1fff ≠ 0 then fail .nonInitialIpv4Fragment
            else do
              let allowIncompleteDatagram : Bool := fragment &&& 0x2000 ≠ 0
              let transportLen ← subtract totalLen headerLen
              let srcAddr ← copyFrom packet 12 4
              let dstAddr ← copyFrom packet 16 4
              let protocol ← index packet 9
              -- `packet.get(header_len..)`
              let transport ← (if headerLen ≤ packet.length then .ok (packet.drop headerLen) else fail .truncatedIpv4)
              let (protocol, srcPort, dstPort) ← parseTransport protocol transport transportLen allowIncompleteDatagram
              return ⟨.ipv4, protocol, ipv4Addr srcAddr, ipv4Addr dstAddr, srcPort, dstPort⟩

def parseIpv6 (packet : List UInt8) (packetLen : Nat) : Outcome ParseError NetworkIdentity :=
  if packet.length < ipv6HeaderLen then fail .truncatedIpv6
  else do
    let version ← index packet 0
    if version >>> 4 ≠ 6 then fail .invalidIpVersion
    else do
      let payloadLen := (← be16At packet 4).toNat
      if packetLen < ipv6HeaderLen + payloadLen then fail .truncatedIpv6
      else do
        let srcAddr ← copyFrom packet 8 16
        let dstAddr ← copyFrom packet 24 16
        let protocol ← index packet 6
        let transport ← sliceFrom packet ipv6HeaderLen
        let (protocol, srcPort, dstPort) ← parseTransport protocol transport payloadLen false
        return ⟨.ipv6, protocol, srcAddr, dstAddr, srcPort, dstPort⟩

def parsePacketPrefix (frame : List UInt8) (frameLen : Nat) : Outcome ParseError PacketIdentity :=
  if frame.length < ethernetHeaderLen then fail .truncatedEthernet
  else if frameLen < ethernetHeaderLen then fail .truncatedEthernet
  else do
    let dstMac ← copyFrom frame 0 6
    let srcMac ← copyFrom frame 6 6
    let ethertype ← be16At frame 12
    let payload ← sliceFrom frame ethernetHeaderLen
    let payloadLen ← subtract frameLen ethernetHeaderLen
    let network ← (if ethertype = ethertypeIpv4 then parseIpv4 payload payloadLen
      else if ethertype = ethertypeIpv6 then parseIpv6 payload payloadLen
      else fail .unsupportedEtherType)
    return ⟨srcMac, dstMac, network.family, network.protocol, network.srcAddr, network.dstAddr, network.srcPort,
      network.dstPort⟩

def parsePacket (frame : List UInt8) : Outcome ParseError PacketIdentity := parsePacketPrefix frame frame.length

/-! ### The repeated headers of a GRO packet -/

/-- A function that returns an `Option`. -/
abbrev Partial := Outcome Unit

def checkedEnd (frame : List UInt8) (offset len : Nat) : Partial Nat :=
  if offset + len ≤ frame.length then .ok (offset + len) else fail ()

def readU16 (frame : List UInt8) (offset : Nat) : Partial UInt16 := do
  let _ ← checkedEnd frame offset 2
  be16At frame offset

def isVlanEthertype (ethertype : UInt16) : Bool := ethertype = ethertypeVlan ∨ ethertype = ethertypeVlanAd

def vlanInnerEthertype (frame : List UInt8) (offset : Nat) : Partial UInt16 := do
  let _ ← checkedEnd frame offset 4
  readU16 frame (offset + 2)

def groTransportHeaderEnd (frame : List UInt8) (offset : Nat) (protocol : UInt8) : Partial Nat :=
  if protocol = ipprotoTcp then do
    let _ ← checkedEnd frame offset tcpMinHeaderLen
    let dataOffsetWords := (← index frame (offset + 12)) >>> 4
    if dataOffsetWords < 5 then fail () else checkedEnd frame offset (dataOffsetWords.toNat * 4)
  else if protocol = ipprotoUdp then checkedEnd frame offset udpHeaderLen
  else fail ()

def groIpv4HeaderLen (frame : List UInt8) (offset : Nat) : Partial Nat := do
  let _ ← checkedEnd frame offset ipv4MinHeaderLen
  let versionIhl ← index frame offset
  if versionIhl >>> 4 ≠ 4 then fail ()
  else
    let ihlWords := versionIhl &&& 0x0f
    if ihlWords < 5 then fail ()
    else
      let transportOffset := offset + ihlWords.toNat * 4
      if frame.length < transportOffset then fail ()
      else if (← readU16 frame (offset + 6)) &&& 0x1fff ≠ 0 then fail ()
      else groTransportHeaderEnd frame transportOffset (← index frame (offset + 9))

/-- The loop over the extension headers, with how many more there may be. -/
def groIpv6Extensions (frame : List UInt8) : Nat → UInt8 → Nat → Partial Nat
  | left, nextHeader, transportOffset =>
    if nextHeader = ipprotoTcp ∨ nextHeader = ipprotoUdp then groTransportHeaderEnd frame transportOffset nextHeader
    else match left with
      | 0 => fail ()
      | left + 1 =>
        if nextHeader = ipprotoHopopts ∨ nextHeader = ipprotoRouting ∨ nextHeader = ipprotoDstopts then do
          let _ ← checkedEnd frame transportOffset 2
          let nextHeader ← index frame transportOffset
          let extensionLen := ((← index frame (transportOffset + 1)).toNat + 1) * 8
          groIpv6Extensions frame left nextHeader (← checkedEnd frame transportOffset extensionLen)
        else if nextHeader = ipprotoFragment then do
          let _ ← checkedEnd frame transportOffset 8
          if (← readU16 frame (transportOffset + 2)) &&& 0xfff8 ≠ 0 then fail ()
          else groIpv6Extensions frame left (← index frame transportOffset) (transportOffset + 8)
        else if nextHeader = ipprotoAh then do
          let _ ← checkedEnd frame transportOffset 2
          let nextHeader ← index frame transportOffset
          let extensionLen := ((← index frame (transportOffset + 1)).toNat + 2) * 4
          groIpv6Extensions frame left nextHeader (← checkedEnd frame transportOffset extensionLen)
        -- ESP, no next header and all others
        else fail ()

def groIpv6HeaderLen (frame : List UInt8) (offset : Nat) : Partial Nat := do
  let transportOffset ← checkedEnd frame offset ipv6HeaderLen
  if (← index frame offset) >>> 4 ≠ 6 then fail ()
  else groIpv6Extensions frame maxIpv6ExtensionHeaders (← index frame (offset + 6)) transportOffset

/-- Behind the VLAN tags: the network offset and the ethertype. -/
def skipVlanTags (frame : List UInt8) (ethertype : UInt16) : Partial (Nat × UInt16) :=
  if ¬ isVlanEthertype ethertype then .ok (ethernetHeaderLen, ethertype)
  else do
    let ethertype ← vlanInnerEthertype frame ethernetHeaderLen
    if ¬ isVlanEthertype ethertype then return (ethernetHeaderLen + 4, ethertype)
    else
      let ethertype ← vlanInnerEthertype frame (ethernetHeaderLen + 4)
      if isVlanEthertype ethertype then fail () else return (ethernetHeaderLen + 4 + 4, ethertype)

def groRepeatedHeaderLen (frame : List UInt8) : Partial UInt16 :=
  if frame.length < ethernetHeaderLen then fail ()
  else do
    let (networkOffset, ethertype) ← skipVlanTags frame (← readU16 frame 12)
    let headerLen ← (if ethertype = ethertypeIpv4 then groIpv4HeaderLen frame networkOffset
      else if ethertype = ethertypeIpv6 then groIpv6HeaderLen frame networkOffset
      else fail ())
    -- `u16::try_from`
    if headerLen < 2 ^ 16 then return UInt16.ofNat headerLen else fail ()

/-! ### Reads inside a slice -/

section
variable {ε α : Type} {bytes : List UInt8} {i n : Nat}

def be16 (bytes : List UInt8) (i : Nat) : UInt16 := fromBeBytes (bytes.getD i 0) (bytes.getD (i + 1) 0)

def vectorAt (bytes : List UInt8) (first n : Nat) : Vector UInt8 n := Vector.ofFn fun i => bytes.getD (first + i) 0

theorem index_eq (h : i < bytes.length) : (index bytes i : Outcome ε UInt8) = .ok (bytes.getD i 0) := by
  rw [index, List.getElem?_eq_getElem h, List.getD_eq_getElem?_getD, List.getElem?_eq_getElem h]
  rfl

theorem be16At_eq (h : i + 1 < bytes.length) : (be16At bytes i : Outcome ε UInt16) = .ok (be16 bytes i) := by
  rw [be16At, index_eq (by omega), index_eq h]
  rfl

theorem copyFrom_eq (h : i + n ≤ bytes.length) :
    (copyFrom bytes i n : Outcome ε (Vector UInt8 n)) = .ok (vectorAt bytes i n) :=
  if_pos h

theorem sliceFrom_eq (h : i ≤ bytes.length) : (sliceFrom bytes i : Outcome ε (List UInt8)) = .ok (bytes.drop i) :=
  if_pos h

theorem subtract_eq (h : n ≤ i) : (subtract i n : Outcome ε Nat) = .ok (i - n) := if_pos h

/-- No index or range is outside its slice, and no subtraction overflows. -/
def Safe (r : Outcome ε α) : Prop := r ≠ .error .outOfRange ∧ r ≠ .error .overflow

theorem safe_ok (a : α) : Safe (.ok a : Outcome ε α) := ⟨nofun, nofun⟩

theorem safe_fail (e : ε) : Safe (fail e : Outcome ε α) := ⟨nofun, nofun⟩

end

/-! ### What the parser computes -/

theorem parseTcp_eq (tcp : List UInt8) (tcpLen : Nat) : parseTcp tcp tcpLen =
    if tcpLen < 20 ∨ tcp.length < 20 then fail .truncatedTcp
    else if tcp.getD 12 0 >>> 4 < 5 then fail .invalidTcpHeaderLength
    else if tcpLen < (tcp.getD 12 0 >>> 4).toNat * 4 ∨ tcp.length < (tcp.getD 12 0 >>> 4).toNat * 4 then
      fail .truncatedTcp
    else .ok (.tcp, be16 tcp 0, be16 tcp 2) := by
  unfold parseTcp tcpMinHeaderLen
  split
  · rfl
  · rw [index_eq (by omega), Except.ok_bind, be16At_eq (by omega), be16At_eq (by omega)]
    rfl

theorem parseUdp_eq (udp : List UInt8) (udpLen : Nat) (allowIncompleteDatagram : Bool) :
    parseUdp udp udpLen allowIncompleteDatagram =
    if udpLen < 8 ∨ udp.length < 8 then fail .truncatedUdp
    else if (be16 udp 4).toNat < 8 ∨ ¬ allowIncompleteDatagram ∧ udpLen < (be16 udp 4).toNat then fail .invalidUdpLength
    else .ok (.udp, be16 udp 0, be16 udp 2) := by
  unfold parseUdp udpHeaderLen
  split
  · rfl
  · rw [be16At_eq (by omega), be16At_eq (by omega), be16At_eq (by omega)]
    rfl

theorem parseIpv4_eq (packet : List UInt8) (packetLen : Nat) : parseIpv4 packet packetLen =
    if packet.length < 20 then fail .truncatedIpv4
    else if packet.getD 0 0 >>> 4 ≠ 4 then fail .invalidIpVersion
    else if packet.getD 0 0 &&& 0x0f < 5 then fail .invalidIpv4HeaderLength
    else if packet.length < (packet.getD 0 0 &&& 0x0f).toNat * 4 then fail .truncatedIpv4
    else if (be16 packet 2).toNat < (packet.getD 0 0 &&& 0x0f).toNat * 4 then fail .invalidIpv4TotalLength
    else if packetLen < (be16 packet 2).toNat then fail .truncatedIpv4
    else if be16 packet 6 &&& 0x1fff ≠ 0 then fail .nonInitialIpv4Fragment
    else parseTransport (packet.getD 9 0) (packet.drop ((packet.getD 0 0 &&& 0x0f).toNat * 4))
      ((be16 packet 2).toNat - (packet.getD 0 0 &&& 0x0f).toNat * 4) (be16 packet 6 &&& 0x2000 ≠ 0) >>= fun transport =>
        .ok ⟨.ipv4, transport.1, ipv4Addr (vectorAt packet 12 4), ipv4Addr (vectorAt packet 16 4), transport.2.1,
          transport.2.2⟩ := by
  unfold parseIpv4 ipv4MinHeaderLen
  by_cases hlength : packet.length < 20
  · rw [if_pos hlength, if_pos hlength]
  · rw [if_neg hlength, if_neg hlength, index_eq (by omega), Except.ok_bind, be16At_eq (by omega), be16At_eq (by omega),
      copyFrom_eq (by omega), copyFrom_eq (by omega), index_eq (by omega)]
    dsimp only [Except.ok_bind]
    split_ifs
    · rfl
    · rfl
    · rfl
    · rfl
    · rfl
    · rfl
    · rw [subtract_eq (by omega)]
      rfl
    · omega

theorem parseIpv6_eq (packet : List UInt8) (packetLen : Nat) : parseIpv6 packet packetLen =
    if packet.length < 40 then fail .truncatedIpv6
    else if packet.getD 0 0 >>> 4 ≠ 6 then fail .invalidIpVersion
    else if packetLen < 40 + (be16 packet 4).toNat then fail .truncatedIpv6
    else parseTransport (packet.getD 6 0) (packet.drop 40) (be16 packet 4).toNat false >>= fun transport =>
      .ok ⟨.ipv6, transport.1, vectorAt packet 8 16, vectorAt packet 24 16, transport.2.1, transport.2.2⟩ := by
  unfold parseIpv6 ipv6HeaderLen
  by_cases hlength : packet.length < 40
  · rw [if_pos hlength, if_pos hlength]
  · rw [if_neg hlength, if_neg hlength, index_eq (by omega), Except.ok_bind, be16At_eq (by omega), copyFrom_eq (by omega),
      copyFrom_eq (by omega), index_eq (by omega), sliceFrom_eq (by omega)]
    rfl

/-- What the parser makes of the network layer. -/
def parseNetwork (ethertype : UInt16) (payload : List UInt8) (payloadLen : Nat) : Outcome ParseError NetworkIdentity :=
  if ethertype = ethertypeIpv4 then parseIpv4 payload payloadLen
  else if ethertype = ethertypeIpv6 then parseIpv6 payload payloadLen
  else fail .unsupportedEtherType

theorem parsePacketPrefix_eq (frame : List UInt8) (frameLen : Nat) : parsePacketPrefix frame frameLen =
    if frame.length < 14 ∨ frameLen < 14 then fail .truncatedEthernet
    else parseNetwork (be16 frame 12) (frame.drop 14) (frameLen - 14) >>= fun network =>
      .ok ⟨vectorAt frame 6 6, vectorAt frame 0 6, network.family, network.protocol, network.srcAddr, network.dstAddr,
        network.srcPort, network.dstPort⟩ := by
  unfold parsePacketPrefix ethernetHeaderLen
  by_cases hlength : frame.length < 14
  · rw [if_pos hlength, if_pos (.inl hlength)]
  · by_cases hlen : frameLen < 14
    · rw [if_neg hlength, if_pos hlen, if_pos (.inr hlen)]
    · rw [if_neg hlength, if_neg hlen, if_neg (by omega), copyFrom_eq (by omega), copyFrom_eq (by omega),
        be16At_eq (by omega), sliceFrom_eq (by omega), subtract_eq (by omega)]
      rfl

end Lanspeedd.Packet
