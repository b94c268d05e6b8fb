import DOpenWrt.Rtp2httpd.M3u

/-!
# Interleaved RTSP data (`rtsp.c`)

`rtsp_process_interleaved_buffer` takes the frames and the server's requests from the front of the response buffer, and
`rtsp_handle_tcp_interleaved_data` fills the buffer and has it processed. The client connection and what it does with a
media packet are parameters, and the answers of `recv` are inputs.

Behind the buffer the session has `upstream_paused`, a 0 or a 1, so that no search for `"\r\n\r\n"` finds anything there.
-/

namespace Rtp2httpd.Rtsp
open CString

/-- `RTSP_RESPONSE_BUFFER_SIZE`. -/
def rtspResponseBufferSize : Nat := 4096

/-- `BUFFER_POOL_BUFFER_SIZE`. -/
def interleavedPacketMax : Nat := 1536

/-- `strstr`: where the needle first occurs. -/
def strstr (needle : List UInt8) : List UInt8 → Option Nat
  | [] => if needle = [] then some 0 else none
  | c :: s => if startsWith needle (c :: s) then some 0 else (strstr needle s).map (· + 1)

/-- What the client connection does: whether the upstream is to wait, a buffer for a packet, and the packet. -/
structure MediaSink (γ : Type) where
  connectionShouldPauseUpstream : γ → Bool × γ
  bufferPoolAlloc : γ → Bool × γ
  streamProcessRtpPayload : γ → List UInt8 → Int × γ

/-- The session, with its client connection and the responses that it has sent. -/
structure RtspSession (γ : Type) where
  responseBuffer : List UInt8
  responseBufferPos : Nat
  rtpChannel : Int
  teardownRequested : Bool
  firstMediaReceived : Bool
  packetsDropped : UInt64
  conn : γ
  sent : List (List UInt8)
  size_eq : responseBuffer.length = rtspResponseBufferSize
  pos_le : responseBufferPos ≤ rtspResponseBufferSize

namespace RtspSession
variable {γ : Type}

/-- The first bytes are removed: the rest is moved to the front, and what was behind it stays. -/
def consume (s : RtspSession γ) (k : Nat) (h : k ≤ s.responseBufferPos) : RtspSession γ :=
  { s with
    responseBuffer := (s.responseBuffer.drop k).take (s.responseBufferPos - k) ++
      s.responseBuffer.drop (s.responseBufferPos - k)
    responseBufferPos := s.responseBufferPos - k
    size_eq := by
      have := s.size_eq
      have := s.pos_le
      rw [List.length_append, List.length_take, List.length_drop, List.length_drop]
      omega
    pos_le := by
      have := s.pos_le
      omega }

/-- Bytes are received behind those that are there, as many as fit. -/
def receive (s : RtspSession γ) (bytes : List UInt8) : RtspSession γ :=
  let received := bytes.take (rtspResponseBufferSize - s.responseBufferPos)
  { s with
    responseBuffer := s.responseBuffer.take s.responseBufferPos ++ received ++
      s.responseBuffer.drop (s.responseBufferPos + received.length)
    responseBufferPos := s.responseBufferPos + received.length
    size_eq := by
      have := s.size_eq
      have := s.pos_le
      have : received.length ≤ rtspResponseBufferSize - s.responseBufferPos := List.length_take_le ..
      rw [List.length_append, List.length_append, List.length_take, List.length_drop]
      omega
    pos_le := by
      have := s.pos_le
      have : received.length ≤ rtspResponseBufferSize - s.responseBufferPos := List.length_take_le ..
      omega }

end RtspSession

def dollar : UInt8 := UInt8.ofNat '$'.toNat

def crlfcrlf : List UInt8 := str "\r\n\r\n"

def isAnnounce (buffer : List UInt8) : Bool := startsWith (str "ANNOUNCE") buffer

def isServerRequest (buffer : List UInt8) : Bool :=
  isAnnounce buffer ∨ startsWith (str "OPTIONS") buffer ∨ startsWith (str "SET_PARAMETER") buffer

/-- `sscanf(cseq_line, "CSeq: %31s", cseq_buf)`. -/
def scanCseq (cseqLine : List UInt8) : List UInt8 :=
  let value := ((cseqLine.drop 5).dropWhile isspace).takeWhile (fun c => ¬ isspace c)
  if value = [] then str "0" else value.take 31

/-- The `CSeq` of a request that ends at `endMarker`. -/
def requestCseq (text : List UInt8) (endMarker : Nat) : List UInt8 :=
  match strstr (str "CSeq:") text with
  | some i => if i < endMarker then scanCseq (text.drop i) else str "0"
  | none => str "0"

def okResponse (cseq : List UInt8) : List UInt8 := str "RTSP/1.0 200 OK\r\nCSeq: " ++ cseq ++ str "\r\n\r\n"

/-- The length of the frame behind its header. -/
def packetLength (buffer : List UInt8) : Nat := (buffer.getD 2 0).toNat * 256 + (buffer.getD 3 0).toNat

/-- How a round of the loop ends. Where a message ends behind the bytes that were received, their number wraps. -/
inductive RoundEnd where
  | goOn | waits | announce | wraps
deriving DecidableEq, Repr

structure Round (γ : Type) where
  session : RtspSession γ
  bytesForwarded : Int
  ending : RoundEnd

section
variable {γ : Type} (sink : MediaSink γ)

/-- A media packet, if its channel is that of RTP. -/
def deliverPacket (s : RtspSession γ) (channel : UInt8) (payload : List UInt8) : RtspSession γ × Int :=
  if s.teardownRequested ∨ (channel.toNat : Int) ≠ s.rtpChannel then (s, 0)
  else
    match sink.bufferPoolAlloc s.conn with
    | (false, conn) => ({ s with conn := conn, packetsDropped := s.packetsDropped + 1 }, 0)
    | (true, conn) =>
      let (pb, conn) := sink.streamProcessRtpPayload conn payload
      ({ s with conn := conn, firstMediaReceived := true }, if 0 < pb then pb else 0)

theorem deliverPacket_pos (s : RtspSession γ) (channel : UInt8) (payload : List UInt8) :
    (deliverPacket sink s channel payload).1.responseBufferPos = s.responseBufferPos := by
  unfold deliverPacket
  split
  · rfl
  · split <;> rfl

/-- A server request. -/
def requestRound (s : RtspSession γ) : Round γ :=
  let text := cstr s.responseBuffer
  match strstr crlfcrlf text with
  | none => ⟨s, 0, .waits⟩
  | some endMarker =>
    let answered := { s with sent := s.sent ++ [okResponse (requestCseq text endMarker)] }
    if h : endMarker + 4 ≤ answered.responseBufferPos then
      ⟨answered.consume (endMarker + 4) h, 0, if isAnnounce s.responseBuffer then .announce else .goOn⟩
    else ⟨answered, 0, .wraps⟩

/-- To the next `$`, or to the end. -/
def resync (s : RtspSession γ) : RtspSession γ :=
  match ((s.responseBuffer.take s.responseBufferPos).drop 1).idxOf? dollar with
  | some i => if h : i + 1 ≤ s.responseBufferPos then s.consume (i + 1) h else s
  | none => s.consume s.responseBufferPos le_rfl

/-- A frame. -/
def frameRound (s : RtspSession γ) : Round γ :=
  let length := packetLength s.responseBuffer
  if s.responseBufferPos < 4 + length then ⟨s, 0, .waits⟩
  else if interleavedPacketMax < length then ⟨resync s, 0, .waits⟩
  else
    let delivered := deliverPacket sink s (s.responseBuffer.getD 1 0) ((s.responseBuffer.drop 4).take length)
    if h : 4 + length ≤ delivered.1.responseBufferPos then ⟨delivered.1.consume (4 + length) h, delivered.2, .goOn⟩
    else ⟨delivered.1, 0, .wraps⟩

/-- A round of the loop, with four bytes in the buffer at least. -/
def interleavedRound (s : RtspSession γ) : Round γ :=
  if s.responseBuffer.head? ≠ some dollar then
    if 8 ≤ s.responseBufferPos ∧ isServerRequest s.responseBuffer then requestRound s else ⟨s, 0, .waits⟩
  else frameRound sink s

/-- How the processing of the buffer ends. That the loop runs on does not happen; this is shown below. -/
inductive ProcessEnd where
  | forwarded (bytes : Int)
  | announce
  | wraps
  | runsOn
deriving DecidableEq, Repr

def processLoop : Nat → RtspSession γ → Int → RtspSession γ × ProcessEnd
  | 0, s, _ => (s, .runsOn)
  | fuel + 1, s, bytesForwarded =>
    if s.responseBufferPos < 4 then (s, .forwarded bytesForwarded)
    else
      let round := interleavedRound sink s
      match round.ending with
      | .goOn => processLoop fuel round.session (bytesForwarded + round.bytesForwarded)
      | .waits => (round.session, .forwarded bytesForwarded)
      | .announce => (round.session, .announce)
      | .wraps => (round.session, .wraps)

/-- A round removes a byte at least. -/
def rtspProcessInterleavedBuffer (s : RtspSession γ) : RtspSession γ × ProcessEnd :=
  processLoop sink (s.responseBufferPos + 1) s 0

/-! ### Receiving -/

/-- What `recv` does: it gives bytes, none at the end of the stream, or it has none now, or it fails. -/
inductive RecvAnswer where
  | received (bytes : List UInt8)
  | again
  | failed
deriving DecidableEq, Repr

inductive FillEnd where
  | full | hitEagain | gone
deriving DecidableEq, Repr

/-- Receiving until the buffer is full or there is nothing more. -/
def fillBuffer : List RecvAnswer → RtspSession γ → RtspSession γ × FillEnd × List RecvAnswer
  | [], s => (s, if s.responseBufferPos < rtspResponseBufferSize then .hitEagain else .full, [])
  | answer :: answers, s =>
    if s.responseBufferPos < rtspResponseBufferSize then
      match answer with
      | .received [] => (s, .gone, answers)
      | .received (b :: bytes) => fillBuffer answers (s.receive (b :: bytes))
      | .again => (s, .hitEagain, answers)
      | .failed => (s, .gone, answers)
    else (s, .full, answer :: answers)

/-- How the handling of an event ends. -/
inductive HandleEnd where
  | forwarded (bytes : Int)
  | gone
  | announce
  | wraps
  | runsOn
deriving DecidableEq, Repr

/-- What an event leaves: the session, how it ended, the answers that are left, and the sessions of which the buffer was
processed. -/
structure Handled (γ : Type) where
  session : RtspSession γ
  ending : HandleEnd
  answers : List RecvAnswer
  processed : List (RtspSession γ)

def handleLoop : Nat → List RecvAnswer → RtspSession γ → Int → List (RtspSession γ) → Handled γ
  | 0, answers, s, _, processed => ⟨s, .runsOn, answers, processed⟩
  | fuel + 1, answers, s, totalForwarded, processed =>
    match sink.connectionShouldPauseUpstream s.conn with
    | (true, conn) => ⟨{ s with conn := conn }, .forwarded totalForwarded, answers, processed⟩
    | (false, conn) =>
      match fillBuffer answers { s with conn := conn } with
      | (s, .gone, answers) => ⟨s, .gone, answers, processed⟩
      | (s, fillEnd, answers) =>
        match rtspProcessInterleavedBuffer sink s with
        | (s', .forwarded bytes) =>
          if fillEnd = .hitEagain ∨ rtspResponseBufferSize ≤ s'.responseBufferPos then
            ⟨s', .forwarded (totalForwarded + bytes), answers, processed ++ [s]⟩
          else handleLoop fuel answers s' (totalForwarded + bytes) (processed ++ [s])
        | (s', .announce) => ⟨s', .announce, answers, processed ++ [s]⟩
        | (s', .wraps) => ⟨s', .wraps, answers, processed ++ [s]⟩
        | (s', .runsOn) => ⟨s', .runsOn, answers, processed ++ [s]⟩

/-- A round but the first takes an answer at least, or it is the last one. -/
def rtspHandleTcpInterleavedData (answers : List RecvAnswer) (s : RtspSession γ) : Handled γ :=
  handleLoop sink (answers.length + 2) answers s 0 []

end

end Rtp2httpd.Rtsp
