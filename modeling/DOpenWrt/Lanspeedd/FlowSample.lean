import Mathlib.Tactic

/-!
# Flow samples

The entries of the connection tracking table as both collectors hand them on (`collectors/conntrack/mod.rs`), and the
verdict on them (`connection_details.rs`).
-/

namespace Lanspeedd

inductive IpAddr where
  | v4 (addr : BitVec 32)
  | v6 (addr : BitVec 128)
deriving DecidableEq, Repr, Ord

def IpAddr.isIpv6 : IpAddr → Bool
  | v4 _ => false
  | v6 _ => true

inductive Protocol where
  | tcp
  | udp
  | other (number : BitVec 8)
deriving DecidableEq, Repr

inductive TcpState where
  | synSent | synRecv | established | finWait | closeWait | lastAck | timeWait | close
  | unknown (state : BitVec 8)
deriving DecidableEq, Repr

structure FlowSample where
  conntrackId : Option (BitVec 32)
  conntrackZone : Option (BitVec 16)
  origSrc : Option IpAddr
  origDst : Option IpAddr
  replySrc : Option IpAddr
  replyDst : Option IpAddr
  origBytes : BitVec 64
  replyBytes : BitVec 64
  origSport : BitVec 16
  origDport : BitVec 16
  replySport : BitVec 16
  replyDport : BitVec 16
  protocol : Protocol
  tcpState : Option TcpState
  assured : Bool
deriving DecidableEq, Repr

namespace FlowSample

def default : FlowSample := ⟨none, none, none, none, none, none, 0, 0, 0, 0, 0, 0, .other 0, none, false⟩

def isDns (flow : FlowSample) : Bool :=
  flow.protocol = .udp ∧ 53 ∈ [flow.origSport, flow.origDport, flow.replySport, flow.replyDport]

end FlowSample

inductive ConnectionProtocol where
  | tcp | udp
deriving DecidableEq, Repr

inductive ConnectionState where
  | established | assured
deriving DecidableEq, Repr

def classifyConnection (flow : FlowSample) : Option (ConnectionProtocol × ConnectionState) :=
  match flow.protocol with
  | .tcp => if flow.tcpState = some .established ∧ flow.assured then some (.tcp, .established) else none
  | .udp => if flow.assured then some (.udp, .assured) else none
  | .other _ => none

end Lanspeedd
