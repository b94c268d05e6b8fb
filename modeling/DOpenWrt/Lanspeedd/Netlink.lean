import DOpenWrt.Lanspeedd.FlowSample
import DOpenWrt.Lanspeedd.SnapshotStore
import DOpenWrt.Lib.ChunkLoop

/-!
# The conntrack netlink parser

`collectors/conntrack/netlink.rs`. An index or a slice out of range, on which the program panics, is a fault of its own,
and so is a loop that does not end. Where the source has an offset into a buffer, `rest` is the buffer from there on.
-/

namespace Lanspeedd

def nlmsgError : Nat := 2
def nlmsgDone : Nat := 3
def nlmFMulti : Nat := 2
def nlmFDumpIntr : Nat := 0x10
def nlaTypeMask : Nat := 0x3fff
def ctaTupleOrig : Nat := 1
def ctaTupleReply : Nat := 2
def ctaStatus : Nat := 3
def ctaProtoinfo : Nat := 4
def ctaCountersOrig : Nat := 9
def ctaCountersReply : Nat := 10
def ctaId : Nat := 12
def ctaZone : Nat := 18
def ipsAssured : BitVec 32 := 1 <<< 2
def ipsOffload : BitVec 32 := 1 <<< 14
def ipsHwOffload : BitVec 32 := 1 <<< 15
def ipctnlMsgCtNew : Nat := 1 <<< 8
def maxDumpBytes : Nat := 8 * 1024 * 1024

structure Datagram where
  senderPid : Nat
  bytes : List UInt8
deriving DecidableEq, Repr

inductive DumpError where
  | unexpectedSender (pid : Nat)
  | unexpectedPortId (expected actual : Nat)
  | unexpectedSequence (expected actual : Nat)
  | interrupted
  | kernel (errno : Nat)
  | malformed (reason : String)
  | missingDone
  | limitExceeded
deriving DecidableEq, Repr

inductive Fault where
  | dump (error : DumpError)
  | outOfRange
  | stuck
deriving DecidableEq, Repr

abbrev Parse := Except Fault

def malformed {α : Type} (reason : String) : Parse α := .error (.dump (.malformed reason))

/-- `bytes[first..last]` -/
def slice (bytes : List UInt8) (first last : Nat) : Parse (List UInt8) :=
  if first ≤ last ∧ last ≤ bytes.length then .ok ((bytes.take last).drop first) else .error .outOfRange

/-- `table[i]` -/
def index {α : Type} (table : List α) (i : Nat) : Parse α :=
  match table[i]? with
  | some a => .ok a
  | none => .error .outOfRange

def fromBe (bytes : List UInt8) : Nat := bytes.foldl (fun n b => 256 * n + b.toNat) 0

def i32 (n : Nat) : Int := if n < 2 ^ 31 then n else n - 2 ^ 32

/-- `i32::saturating_abs` -/
def saturatingAbs (i : Int) : Nat := min i.natAbs (2 ^ 31 - 1)

def align4 (value : Nat) : Nat := (value + 3) / 4 * 4

def exact (bytes : List UInt8) (len : Nat) : Parse (List UInt8) :=
  if bytes.length = len then .ok bytes else malformed "attribute payload has wrong length"

def beU16 (bytes : List UInt8) : Parse (BitVec 16) := do
  let bytes ← exact bytes 2
  return .ofNat 16 (fromBe bytes)

def beU32 (bytes : List UInt8) : Parse (BitVec 32) := do
  let bytes ← exact bytes 4
  return .ofNat 32 (fromBe bytes)

def protocol (number : UInt8) : Protocol :=
  if number = 6 then .tcp else if number = 17 then .udp else .other number.toBitVec

def tcpState (state : UInt8) : TcpState :=
  if state = 1 then .synSent
  else if state = 2 then .synRecv
  else if state = 3 then .established
  else if state = 4 then .finWait
  else if state = 5 then .closeWait
  else if state = 6 then .lastAck
  else if state = 7 then .timeWait
  else if state = 8 then .close
  else .unknown state.toBitVec

section

/- The byte order of the machine. -/
variable (bigEndian : Bool)

def fromNe (bytes : List UInt8) : Nat := fromBe (if bigEndian then bytes else bytes.reverse)

/-! ### Attributes -/

abbrev AttrTable := List (Option (List UInt8))

/-- The slot of an attribute at the front of `rest`, if its type is known. -/
def setSlot (max : Nat) (table : AttrTable) (kind len : Nat) (rest : List UInt8) : Parse AttrTable :=
  if kind ≤ max then do
    let slot ← index table kind
    if slot.isSome then malformed "duplicate known attribute"
    else
      let payload ← slice rest 4 len
      pure (table.set kind (some payload))
  else pure table

/-- The loop of `attr_table` for one attribute. -/
def attrStep (max : Nat) (table : AttrTable) (rest : List UInt8) : Parse (AttrTable × Option Nat) :=
  if rest.all (· == 0) then .ok (table, none)
  else if rest.length < 4 then malformed "truncated nlattr"
  else
    let len := fromNe bigEndian (rest.take 2)
    let kind := fromNe bigEndian ((rest.take 4).drop 2) &&& nlaTypeMask
    if len < 4 ∨ rest.length < len then malformed "invalid nlattr length"
    else do
      let table ← setSlot max table kind len rest
      if rest.length < align4 len then malformed "truncated nlattr padding" else pure (table, some (align4 len))

def attrTable (payload : List UInt8) (max : Nat) : Parse AttrTable :=
  ChunkLoop.run .stuck (attrStep bigEndian max) payload.length (.replicate (max + 1) none) payload

/-- `ok_or(DumpError::Malformed(reason))?` -/
def required {α : Type} (value : Option α) (reason : String) : Parse α :=
  match value with
  | some a => .ok a
  | none => malformed reason

/-! ### Flows -/

structure TupleMeta where
  protocol : Protocol
  ipv6 : Bool
deriving DecidableEq, Repr

def parseIp (v4 v6 : Option (List UInt8)) : Parse (Option IpAddr) :=
  match v4, v6 with
  | some _, some _ => malformed "tuple contains both IPv4 and IPv6 address"
  | some attr, none => do
    let bytes ← exact attr 4
    return some (.v4 (.ofNat 32 (fromBe bytes)))
  | none, some attr => do
    let bytes ← exact attr 16
    return some (.v6 (.ofNat 128 (fromBe bytes)))
  | none, none => .ok none

def parseTuple (payload : List UInt8) (original : Bool) (flow : FlowSample) : Parse (TupleMeta × FlowSample) := do
  let table ← attrTable bigEndian payload 2
  let ip ← attrTable bigEndian (← required (← index table 1) "tuple missing IP attributes") 4
  let proto ← attrTable bigEndian (← required (← index table 2) "tuple missing protocol attributes") 3
  let src ← required (← parseIp (← index ip 1) (← index ip 3)) "tuple missing source address"
  let dst ← required (← parseIp (← index ip 2) (← index ip 4)) "tuple missing destination address"
  if src.isIpv6 ≠ dst.isIpv6 then malformed "tuple address family mismatch"
  else do
    let number ← index (← exact (← required (← index proto 1) "tuple missing protocol number") 1) 0
    let parsed := protocol number
    let sportAttr ← index proto 2
    let dportAttr ← index proto 3
    if (parsed = .tcp ∨ parsed = .udp) ∧ (sportAttr = none ∨ dportAttr = none) then
      malformed "TCP/UDP tuple missing ports"
    else do
      let sport ← sportAttr.mapM beU16
      let dport ← dportAttr.mapM beU16
      let flow :=
        if original then { flow with
          origSrc := some src, origDst := some dst, origSport := sport.getD 0, origDport := dport.getD 0
          protocol := parsed }
        else { flow with
          replySrc := some src, replyDst := some dst, replySport := sport.getD 0, replyDport := dport.getD 0
          protocol := if flow.protocol = .other 0 then parsed else flow.protocol }
      return (⟨parsed, src.isIpv6⟩, flow)

def parseCounters (payload : List UInt8) : Parse (BitVec 64) := do
  let table ← attrTable bigEndian payload 4
  match ← index table 2 with
  | some bytes =>
    let bytes ← exact bytes 8
    return .ofNat 64 (fromBe bytes)
  | none =>
    match ← index table 4 with
    | some bytes =>
      let bytes ← exact bytes 4
      return .ofNat 64 (fromBe bytes)
    | none => malformed "missing accounting byte counter"

def parseProtoinfo (payload : List UInt8) (flow : FlowSample) : Parse FlowSample := do
  let table ← attrTable bigEndian payload 1
  match ← index table 1 with
  | none => return flow
  | some tcp =>
    let tcp ← attrTable bigEndian tcp 1
    match ← index tcp 1 with
    | none => return flow
    | some state =>
      let number ← index (← exact state 1) 0
      return { flow with tcpState := some (tcpState number) }

/-- The reply tuple, which has to be of the original's kind. -/
def parseReply (reply : Option (List UInt8)) (origMeta : TupleMeta) (flow : FlowSample) : Parse FlowSample :=
  match reply with
  | none => .ok flow
  | some reply => do
    let (replyMeta, flow) ← parseTuple bigEndian reply false flow
    if replyMeta ≠ origMeta then malformed "reply tuple protocol or address family mismatch" else return flow

def parseFlow (payload : List UInt8) : Parse FlowSample :=
  if payload.length < 4 then malformed "short nfgenmsg"
  else do
    let attrs ← attrTable bigEndian (payload.drop 4) ctaZone
    let orig ← required (← index attrs ctaTupleOrig) "missing original tuple"
    let origCounters ← required (← index attrs ctaCountersOrig) "missing original counters"
    let conntrackId ← (← index attrs ctaId).mapM beU32
    let conntrackZone ← (← index attrs ctaZone).mapM beU16
    let (origMeta, flow) ← parseTuple bigEndian orig true { FlowSample.default with conntrackId, conntrackZone }
    let flow ← parseReply bigEndian (← index attrs ctaTupleReply) origMeta flow
    let origBytes ← parseCounters bigEndian origCounters
    let replyBytes ← (← index attrs ctaCountersReply).mapM (parseCounters bigEndian)
    let status := (← (← index attrs ctaStatus).mapM beU32).getD 0
    let flow := { flow with
      origBytes, replyBytes := replyBytes.getD flow.replyBytes, assured := status &&& ipsAssured ≠ 0 }
    let protoinfo ← index attrs ctaProtoinfo
    let flow ← protoinfo.elim (pure flow) fun protoinfo => parseProtoinfo bigEndian protoinfo flow
    let flow :=
      if flow.protocol = .tcp ∧ protoinfo = none ∧ status &&& (ipsOffload ||| ipsHwOffload) ≠ 0 then
        { flow with tcpState := some .established }
      else flow
    if flow.origSrc = none then malformed "original tuple has no source address" else return flow

/-! ### Messages -/

def parseAck (payload : List UInt8) : Parse Unit :=
  if payload.length < 20 then malformed "short NLMSG_ERROR"
  else
    let error := i32 (fromNe bigEndian (payload.take 4))
    if error = 0 then .ok ()
    else if error < 0 then .error (.dump (.kernel (saturatingAbs error)))
    else malformed "positive NLMSG_ERROR errno"

structure ParsedDump where
  flows : List FlowSample
  malformedEntries : Nat
deriving DecidableEq, Repr

structure DumpParser extends ParsedDump where
  expectedSeq : Nat
  expectedPortId : Nat
  maxBytes : Nat
  totalBytes : Nat
  done : Bool
deriving DecidableEq, Repr

namespace DumpParser

def new (expectedSeq expectedPortId maxBytes : Nat) : DumpParser where
  flows := []
  malformedEntries := 0
  expectedSeq := expectedSeq
  expectedPortId := expectedPortId
  maxBytes := maxBytes
  totalBytes := 0
  done := false

/-- The part of the loop of `parse_datagram` behind the checks of the header. -/
def message (parser : DumpParser) (kind flags : Nat) (payload : List UInt8) : Parse DumpParser :=
  if parser.done then
    if kind = nlmsgDone then malformed "duplicate NLMSG_DONE" else malformed "message after NLMSG_DONE"
  else if kind = nlmsgDone then
    if flags &&& nlmFMulti = 0 then malformed "NLMSG_DONE is not multipart"
    else if 1 ≤ payload.length ∧ payload.length < 4 then malformed "short NLMSG_DONE status"
    else if 4 ≤ payload.length then
      let error := i32 (fromNe bigEndian (payload.take 4))
      if error < 0 then .error (.dump (.kernel (saturatingAbs error)))
      else if 0 < error then malformed "positive NLMSG_DONE status"
      else .ok { parser with done := true }
    else .ok { parser with done := true }
  else if kind = nlmsgError then do
    parseAck bigEndian payload
    return parser
  else if kind = ipctnlMsgCtNew then
    if flags &&& nlmFMulti = 0 then malformed "conntrack data is not multipart"
    else match parseFlow bigEndian payload with
      | .ok flow => .ok { parser with flows := parser.flows ++ [flow] }
      | .error (.dump (.malformed _)) =>
        .ok { parser with malformedEntries := saturatingAdd parser.malformedEntries 1 }
      | .error e => .error e
  else malformed "unexpected netlink message type"

/-- The loop of `parse_datagram` for one message. -/
def messageStep (parser : DumpParser) (rest : List UInt8) : Parse (DumpParser × Option Nat) :=
  if rest.length < 16 then malformed "truncated nlmsghdr"
  else
    let len := fromNe bigEndian (rest.take 4)
    if len < 16 ∨ rest.length < len then malformed "invalid nlmsg length"
    else
      let kind := fromNe bigEndian ((rest.take 6).drop 4)
      let flags := fromNe bigEndian ((rest.take 8).drop 6)
      let seq := fromNe bigEndian ((rest.take 12).drop 8)
      let pid := fromNe bigEndian ((rest.take 16).drop 12)
      if seq ≠ parser.expectedSeq then .error (.dump (.unexpectedSequence parser.expectedSeq seq))
      else if pid ≠ parser.expectedPortId then .error (.dump (.unexpectedPortId parser.expectedPortId pid))
      else if flags &&& nlmFDumpIntr ≠ 0 then .error (.dump .interrupted)
      else do
        let payload ← slice rest 16 len
        let parser ← message bigEndian parser kind flags payload
        if rest.length < align4 len then malformed "truncated nlmsg padding" else pure (parser, some (align4 len))

def parseDatagram (parser : DumpParser) (senderPid : Nat) (bytes : List UInt8) : Parse DumpParser :=
  if senderPid ≠ 0 then .error (.dump (.unexpectedSender senderPid))
  else ChunkLoop.run .stuck (messageStep bigEndian) bytes.length parser bytes

/-- A total beyond `usize` is beyond the limit too. -/
def pushDatagram (parser : DumpParser) (datagram : Datagram) : Parse DumpParser :=
  if parser.maxBytes < parser.totalBytes + datagram.bytes.length then .error (.dump .limitExceeded)
  else
    parseDatagram bigEndian { parser with totalBytes := parser.totalBytes + datagram.bytes.length } datagram.senderPid
      datagram.bytes

def finish (parser : DumpParser) : Parse ParsedDump :=
  if parser.done then .ok parser.toParsedDump else .error (.dump .missingDone)

end DumpParser

def totalBytes (datagrams : List Datagram) : Nat := (datagrams.map (·.bytes.length)).sum

def validateDumpSize (datagrams : List Datagram) (maxBytes : Nat) : Parse Unit :=
  if maxBytes < totalBytes datagrams then .error (.dump .limitExceeded) else .ok ()

def parseDumpDetailedWithLimit (datagrams : List Datagram) (expectedSeq expectedPortId maxBytes : Nat) :
    Parse ParsedDump := do
  validateDumpSize datagrams maxBytes
  let parser ← datagrams.foldlM (DumpParser.pushDatagram bigEndian) (.new expectedSeq expectedPortId maxBytes)
  parser.finish

def parseDumpDetailed (datagrams : List Datagram) (expectedSeq : Nat) : Parse ParsedDump :=
  parseDumpDetailedWithLimit bigEndian datagrams expectedSeq 0 maxDumpBytes

def parseDumpForPort (datagrams : List Datagram) (expectedSeq expectedPortId : Nat) : Parse (List FlowSample) := do
  let parsed ← parseDumpDetailedWithLimit bigEndian datagrams expectedSeq expectedPortId maxDumpBytes
  return parsed.flows

end

end Lanspeedd
