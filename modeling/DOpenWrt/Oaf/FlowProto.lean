import DOpenWrt.Lib.BlockReader

/-!
# The headers of a packet

`parse_flow_proto` finds the payload of a TCP or UDP packet from the lengths in its headers, `read_skb` copies the
payload of a packet that does not lie in one piece. Positions are counted from the IP header.
-/

namespace Oaf

def ethPIp : ℕ := 0x0800
def ethPIpv6 : ℕ := 0x86DD
def ipprotoTcp : ℕ := 6
def ipprotoUdp : ℕ := 17
def maxAfSupportDataLen : ℤ := 3000

/-- A packet: `data` are its bytes from the IP header on, of which the first `headlen` lie in one piece, followed in
memory by whatever `beyond` says. -/
structure SkBuff where
  protocol : ℕ
  data : List UInt8
  headlen : ℕ
  beyond : ℕ → UInt8
  headlen_le : headlen ≤ data.length
  length_lt : data.length < 2 ^ 32

namespace SkBuff

variable (skb : SkBuff)

/-- `skb_is_nonlinear`. -/
def nonlinear : Bool := skb.headlen < skb.data.length

/-- The byte of memory at a position. -/
def byte (i : ℕ) : UInt8 := if i < skb.headlen then skb.data.getD i 0 else skb.beyond i

/-- Two bytes in network order. -/
def ntohs (i : ℕ) : ℕ := (skb.byte i).toNat * 256 + (skb.byte (i + 1)).toNat

def bytes (i n : ℕ) : List UInt8 := (List.range n).map fun k => skb.byte (i + k)

def ihl : ℕ := (skb.byte 0).toNat % 16
def totLen : ℕ := skb.ntohs 2
def ipProtocol : ℕ := (skb.byte 9).toNat
def payloadLen : ℕ := skb.ntohs 4
def nexthdr : ℕ := (skb.byte 6).toNat

/-- `doff` of the TCP header at `ipp`. -/
def doff (ipp : ℕ) : ℕ := (skb.byte (ipp + 12)).toNat / 16

/-- `len` of the UDP header at `ipp`. -/
def udpLen (ipp : ℕ) : ℕ := skb.ntohs (ipp + 4)

end SkBuff

/-- What `parse_flow_proto` fills in. `l4Data` is a position. -/
structure FlowInfo where
  src : List UInt8
  dst : List UInt8
  l4Protocol : ℕ
  sport : ℕ
  dport : ℕ
  l4Data : ℕ
  l4Len : ℤ

/-- The second half: the transport header at `ipp`, with `ippLen` bytes from there on by the IP header. -/
def parseL4 (skb : SkBuff) (src dst : List UInt8) (l4Protocol ipp : ℕ) (ippLen : ℤ) : Option FlowInfo :=
  if l4Protocol = ipprotoTcp then
    some {
      src, dst, l4Protocol
      l4Len := ippLen - skb.doff ipp * 4
      l4Data := ipp + skb.doff ipp * 4
      dport := skb.ntohs (ipp + 2)
      sport := skb.ntohs ipp }
  else if l4Protocol = ipprotoUdp then
    some {
      src, dst, l4Protocol
      l4Len := skb.udpLen ipp - 8
      l4Data := ipp + 8
      dport := skb.ntohs (ipp + 2)
      sport := skb.ntohs ipp }
  else none

/-- The flow, none for the return value -1. -/
def parseFlowProto (skb : SkBuff) : Option FlowInfo :=
  if skb.protocol = ethPIp then
    let ipp := skb.ihl * 4
    parseL4 skb (skb.bytes 12 4) (skb.bytes 16 4) skb.ipProtocol ipp (skb.totLen - ipp)
  else if skb.protocol = ethPIpv6 then
    parseL4 skb (skb.bytes 8 16) (skb.bytes 24 16) skb.nexthdr 40 skb.payloadLen
  else none

/-- The conversion to an unsigned int. -/
def u32 (z : ℤ) : ℕ := (z % 2 ^ 32).toNat

/-- The buffer that `read_skb` returns, none if it cannot be allocated. The reader is `skb_seq_read`. -/
def readSkb (skb : SkBuff) (rd : BlockReader skb.data) (kmalloc : ℕ → Bool) (from' len : ℕ) :
    Option (ℕ → Option UInt8) :=
  if !kmalloc len then none else some (rd.copy from' ((from' + len) % 2 ^ 32) len 0 fun _ => none)

/-- The arguments with which the hooks call `read_skb` for a flow, if they do. -/
def readSkbArgs (skb : SkBuff) (flow : FlowInfo) : Option (ℕ × ℕ) :=
  if skb.nonlinear && flow.l4Len < maxAfSupportDataLen then some (u32 flow.l4Data, u32 flow.l4Len) else none

/-! ### The payload lies inside the packet -/

/-- The size of a TCP or UDP header. -/
def l4HeaderLen (l4Protocol : ℕ) : ℕ := if l4Protocol = ipprotoTcp then 20 else 8

/-- The copy of a payload: its arguments are the payload, and every byte of the buffer is the payload's. -/
def Copied (skb : SkBuff) (rd : BlockReader skb.data) (kmalloc : ℕ → Bool) (flow : FlowInfo) : Prop :=
  ∀ from' len, readSkbArgs skb flow = some (from', len) →
    from' + len ≤ skb.data.length ∧
      ∀ buf, readSkb skb rd kmalloc from' len = some buf → ∀ i < len, ∃ b, skb.data[from' + i]? = some b ∧ buf i = some b

structure PayloadInside (skb : SkBuff) (rd : BlockReader skb.data) (kmalloc : ℕ → Bool) (ipp : ℕ) (flow : FlowInfo) :
    Prop where
  header : ipp + l4HeaderLen flow.l4Protocol ≤ skb.data.length
  nonneg : 0 ≤ flow.l4Len
  inside : flow.l4Data + flow.l4Len ≤ skb.data.length
  copied : Copied skb rd kmalloc flow

/-- The lengths of a transport header agree with the packet and with the IP header. -/
structure TransportAgrees (skb : SkBuff) (l4Protocol ipp : ℕ) (ippLen : ℤ) : Prop where
  tcp : l4Protocol = ipprotoTcp → ipp + 20 ≤ skb.data.length ∧ skb.doff ipp * 4 ≤ ippLen ∧ ipp + ippLen ≤ skb.data.length
  udp : l4Protocol = ipprotoUdp → ipp + 8 ≤ skb.data.length ∧ 8 ≤ skb.udpLen ipp ∧ ipp + skb.udpLen ipp ≤ skb.data.length

theorem u32_eq {n : ℕ} (h : n < 2 ^ 32) : u32 n = n := by
  rw [u32, Int.emod_eq_of_lt (by omega) (by omega), Int.toNat_natCast]

section

variable {skb : SkBuff} {rd : BlockReader skb.data} {kmalloc : ℕ → Bool}

theorem copied_of_inside {flow : FlowInfo} (hnonneg : 0 ≤ flow.l4Len)
    (hinside : flow.l4Data + flow.l4Len ≤ skb.data.length) : Copied skb rd kmalloc flow := by
  intro from' len hargs
  have hlt := skb.length_lt
  obtain ⟨n, hn⟩ := Int.eq_ofNat_of_zero_le hnonneg
  rw [readSkbArgs] at hargs
  split at hargs
  · rw [hn, u32_eq (by omega), u32_eq (by omega)] at hargs
    cases hargs
    have hin : flow.l4Data + len ≤ skb.data.length := by omega
    refine ⟨hin, fun buf hbuf i hi => ?_⟩
    rw [readSkb] at hbuf
    split at hbuf
    · cases hbuf
    · rw [Nat.mod_eq_of_lt (by omega)] at hbuf
      cases hbuf
      refine ⟨_, List.getElem?_eq_getElem (by omega), ?_⟩
      rw [rd.copy_fills hin _ i hi]
      exact List.getElem?_eq_getElem (by omega)
  · cases hargs

theorem parseL4_inside_iff {src dst : List UInt8} {l4Protocol ipp : ℕ} {ippLen : ℤ} :
    (∀ flow, parseL4 skb src dst l4Protocol ipp ippLen = some flow → PayloadInside skb rd kmalloc ipp flow) ↔
      TransportAgrees skb l4Protocol ipp ippLen := by
  by_cases htcp : l4Protocol = ipprotoTcp
  · rw [parseL4, if_pos htcp]
    have hudp : l4Protocol ≠ ipprotoUdp := by rw [htcp]; decide
    constructor
    · intro h
      have hin := h _ rfl
      have h1 := hin.header
      have h2 := hin.nonneg
      have h3 := hin.inside
      rw [l4HeaderLen, if_pos htcp] at h1
      simp only at h2 h3
      push_cast at h3
      exact ⟨fun _ => ⟨h1, by omega, by omega⟩, fun h => absurd h hudp⟩
    · rintro h flow ⟨⟩
      obtain ⟨h1, h2, h3⟩ := h.tcp htcp
      have hnonneg : 0 ≤ ippLen - skb.doff ipp * 4 := by omega
      have hinside : ((ipp + skb.doff ipp * 4 : ℕ) : ℤ) + (ippLen - skb.doff ipp * 4) ≤ skb.data.length := by
        push_cast
        omega
      exact ⟨by rw [l4HeaderLen, if_pos htcp]; exact h1, hnonneg, hinside, copied_of_inside hnonneg hinside⟩
  · by_cases hudp : l4Protocol = ipprotoUdp
    · rw [parseL4, if_neg htcp, if_pos hudp]
      constructor
      · intro h
        have hin := h _ rfl
        have h1 := hin.header
        have h2 := hin.nonneg
        have h3 := hin.inside
        rw [l4HeaderLen, if_neg htcp] at h1
        simp only at h2 h3
        push_cast at h3
        exact ⟨fun h => absurd h htcp, fun _ => ⟨h1, by omega, by omega⟩⟩
      · rintro h flow ⟨⟩
        obtain ⟨h1, h2, h3⟩ := h.udp hudp
        have hnonneg : (0 : ℤ) ≤ skb.udpLen ipp - 8 := by omega
        have hinside : ((ipp + 8 : ℕ) : ℤ) + (skb.udpLen ipp - 8) ≤ skb.data.length := by
          push_cast
          omega
        exact ⟨by rw [l4HeaderLen, if_neg htcp]; exact h1, hnonneg, hinside, copied_of_inside hnonneg hinside⟩
    · rw [parseL4, if_neg htcp, if_neg hudp]
      exact iff_of_true nofun ⟨fun h => absurd h htcp, fun h => absurd h hudp⟩

end

/-- Where the IP header ends. -/
def transportOffset (skb : SkBuff) : ℕ := if skb.protocol = ethPIp then skb.ihl * 4 else 40

/-- The lengths in the headers of a packet agree with each other and with its length. -/
structure LengthsAgree (skb : SkBuff) : Prop where
  ip : skb.protocol = ethPIp → TransportAgrees skb skb.ipProtocol (skb.ihl * 4) (skb.totLen - (skb.ihl * 4 : ℕ))
  ipv6 : skb.protocol = ethPIpv6 → TransportAgrees skb skb.nexthdr 40 skb.payloadLen

theorem parse_inside_iff (skb : SkBuff) (rd : BlockReader skb.data) (kmalloc : ℕ → Bool) :
    (∀ flow, parseFlowProto skb = some flow → PayloadInside skb rd kmalloc (transportOffset skb) flow) ↔
      LengthsAgree skb := by
  by_cases hip : skb.protocol = ethPIp
  · have hipv6 : skb.protocol ≠ ethPIpv6 := by rw [hip]; decide
    simp only [parseFlowProto, transportOffset, if_pos hip]
    rw [parseL4_inside_iff]
    exact ⟨fun h => ⟨fun _ => h, fun h' => absurd h' hipv6⟩, fun h => h.ip hip⟩
  · by_cases hipv6 : skb.protocol = ethPIpv6
    · simp only [parseFlowProto, transportOffset, if_neg hip, if_pos hipv6]
      rw [parseL4_inside_iff]
      exact ⟨fun h => ⟨fun h' => absurd h' hip, fun _ => h⟩, fun h => h.ipv6 hipv6⟩
    · simp only [parseFlowProto, if_neg hip, if_neg hipv6]
      exact iff_of_true nofun ⟨fun h => absurd h hip, fun h => absurd h hipv6⟩

/-- An IPv4 packet of 28 bytes with a UDP header that gives the length 0. -/
def shortUdp : SkBuff where
  protocol := ethPIp
  data := [0x45, 0, 0, 28, 0, 0, 0, 0, 64, 17, 0, 0, 192, 168, 1, 2, 192, 168, 1, 1, 0, 53, 0, 53, 0, 0, 0, 0]
  headlen := 28
  beyond _ := 0
  headlen_le := by decide
  length_lt := by decide

theorem shortUdp_negative_length :
    (∃ flow, parseFlowProto shortUdp = some flow ∧ flow.l4Len = -8) ∧
      ¬ ∀ flow, parseFlowProto shortUdp = some flow →
        PayloadInside shortUdp (BlockReader.whole _) (fun _ => true) (transportOffset shortUdp) flow := by
  have hparse : ∃ flow, parseFlowProto shortUdp = some flow ∧ flow.l4Len = -8 := ⟨_, rfl, by decide⟩
  refine ⟨hparse, fun h => ?_⟩
  obtain ⟨flow, hflow, hlen⟩ := hparse
  have := (h flow hflow).nonneg
  omega

end Oaf
