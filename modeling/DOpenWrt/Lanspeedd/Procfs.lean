import DOpenWrt.Lanspeedd.AggregateDump
import DOpenWrt.Lanspeedd.Text

/-!
# The conntrack procfs parser

`collectors/conntrack/procfs.rs`: a line of `/proc/net/nf_conntrack`, and how the file is read line by line.
-/

namespace Lanspeedd

def conntrackLineMax : Nat := 1024
def procfsCounterSource : String := "procfs_conntrack_acct_orig_reply_bytes"

def parseTcpState (value : List Char) : TcpState :=
  if value = "SYN_SENT".toList then .synSent
  else if value = "SYN_RECV".toList then .synRecv
  else if value = "ESTABLISHED".toList then .established
  else if value = "FIN_WAIT".toList then .finWait
  else if value = "CLOSE_WAIT".toList then .closeWait
  else if value = "LAST_ACK".toList then .lastAck
  else if value = "TIME_WAIT".toList then .timeWait
  else if value = "CLOSE".toList then .close
  else .unknown 255

/-- The variables of `parse_line`. -/
structure LineState where
  flow : FlowSample
  src : Nat
  dst : Nat
  sport : Nat
  dport : Nat
  bytesSeen : Nat
  hasOrigBytes : Bool
  offloaded : Bool
  unreplied : Bool
deriving DecidableEq, Repr

/-- A value goes to the original direction the first time and to the reply the second; what does not parse counts all
the same. -/
def setNth {α : Type} (seen : Nat) (value : Option α) (orig reply : α → FlowSample) (flow : FlowSample) : FlowSample :=
  match value with
  | none => flow
  | some value => if seen = 0 then orig value else if seen = 1 then reply value else flow

/-- The loop of `parse_line` for one token. -/
def lineStep (s : LineState) (token : List Char) : LineState :=
  match stripPrefix "src=".toList token with
  | some value =>
    { s with
      flow := setNth s.src (parseIpAddr value) (fun v => { s.flow with origSrc := some v })
        (fun v => { s.flow with replySrc := some v }) s.flow
      src := saturatingAdd s.src 1 }
  | none => match stripPrefix "dst=".toList token with
  | some value =>
    { s with
      flow := setNth s.dst (parseIpAddr value) (fun v => { s.flow with origDst := some v })
        (fun v => { s.flow with replyDst := some v }) s.flow
      dst := saturatingAdd s.dst 1 }
  | none => match stripPrefix "sport=".toList token with
  | some value =>
    { s with
      flow := setNth s.sport (parseUnsigned 16 value) (fun v => { s.flow with origSport := v })
        (fun v => { s.flow with replySport := v }) s.flow
      sport := saturatingAdd s.sport 1 }
  | none => match stripPrefix "dport=".toList token with
  | some value =>
    { s with
      flow := setNth s.dport (parseUnsigned 16 value) (fun v => { s.flow with origDport := v })
        (fun v => { s.flow with replyDport := v }) s.flow
      dport := saturatingAdd s.dport 1 }
  | none => match stripPrefix "bytes=".toList token with
  | some value =>
    { s with
      flow := setNth s.bytesSeen (parseUnsigned 64 value) (fun v => { s.flow with origBytes := v })
        (fun v => { s.flow with replyBytes := v }) s.flow
      hasOrigBytes := s.hasOrigBytes || s.bytesSeen = 0 && (parseUnsigned 64 value).isSome
      bytesSeen := saturatingAdd s.bytesSeen 1 }
  | none => match stripPrefix "zone=".toList token with
  | some value => { s with flow := { s.flow with conntrackZone := parseUnsigned 16 value } }
  | none =>
    if token = "[ASSURED]".toList then { s with flow := { s.flow with assured := true } }
    else if token = "[UNREPLIED]".toList then { s with unreplied := true }
    -- for replied offloaded entries the kernel prints the marker instead of ASSURED and leaves out the TCP state
    else if token = "[OFFLOAD]".toList ∨ token = "[HW_OFFLOAD]".toList then { s with offloaded := true }
    else s

/-- What the markers say in the end. -/
def finishLine (s : LineState) : Option FlowSample :=
  let flow := s.flow
  let flow :=
    if s.unreplied then { flow with assured := false }
    else if s.offloaded then { flow with assured := true }
    else flow
  let flow :=
    if s.offloaded ∧ ¬ s.unreplied ∧ flow.protocol = .tcp ∧ flow.tcpState = none then
      { flow with tcpState := some .established }
    else flow
  if flow.origSrc.isSome ∧ s.hasOrigBytes then some flow else none

def lineProtocol (tokens : List (List Char)) : Option Protocol := do
  let name ← tokens[2]?
  if name = "tcp".toList then return .tcp
  else if name = "udp".toList then return .udp
  else return .other (← parseUnsigned 8 (← tokens[3]?))

def lineTcpState (tokens : List (List Char)) (protocol : Protocol) : Option TcpState :=
  if protocol = .tcp ∧ (tokens[4]?.any fun value => (parseUnsigned 64 value).isSome) then
    some (parseTcpState (tokens[5]?.getD []))
  else none

def parseTokens (tokens : List (List Char)) : Option FlowSample := do
  let protocol ← lineProtocol tokens
  let flow := { FlowSample.default with protocol, tcpState := lineTcpState tokens protocol }
  finishLine (tokens.foldl lineStep ⟨flow, 0, 0, 0, 0, 0, false, false, false⟩)

def parseLine (bytes : List UInt8) : Option FlowSample := do
  let line ← fromUtf8 bytes
  parseTokens (splitAsciiWhitespace line)

/-! ### The file

A reader is the pieces that `fill_buf` gives, none of them empty before the end of the file. -/

abbrev Reader := List (List UInt8)

/-- What is left of a piece. -/
def consume (available : List UInt8) (take : Nat) (reader : Reader) : Reader :=
  if available.drop take = [] then reader else available.drop take :: reader

/-- The loop of `read_bounded_line`. -/
def readLineLoop : Reader → List UInt8 → Bool → Bool → Option (List UInt8 × Bool) × Reader
  | [], line, oversized, sawData => (if sawData then some (line, oversized) else none, [])
  | available :: reader, line, oversized, _ =>
    let take := match available.findIdx? (· = 10) with
      | some index => index + 1
      | none => available.length
    let room := conntrackLineMax - line.length
    let line' := if oversized then line else line ++ available.take (min take room)
    let oversized := oversized || room < take
    if (available.take take).getLast? = some 10 then (some (line', oversized), consume available take reader)
    else readLineLoop reader line' oversized true

def readBoundedLine (reader : Reader) : Option (List UInt8 × Bool) × Reader := readLineLoop reader [] false false

end Lanspeedd
