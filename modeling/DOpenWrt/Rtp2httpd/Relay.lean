import DOpenWrt.Rtp2httpd.QueueLimit
import DOpenWrt.Rtp2httpd.ZerocopyStream

/-!
# Relaying from TCP upstreams

A connection with its HTTP proxy and RTSP sessions, as far as reading from them stops and goes on with the send queue
of the client: `connection.c`, `stream.c`, `http_proxy.c` and `rtsp.c`. What sockets, the pool and the clock give is
an input.
-/

namespace Rtp2httpd

inductive HttpProxyState where
  | init
  | connecting
  | sendingRequest
  | awaitingHeaders
  | streaming
  | complete
  | error
  | closing
deriving DecidableEq, Repr

structure HttpProxySession where
  initialized : Bool
  state : HttpProxyState
  contentLength : Int
  bytesReceived : Int
  upstreamPaused : Bool
deriving DecidableEq, Repr

inductive RtspTransportMode where
  | tcp
  | udp
deriving DecidableEq, Repr

structure RtspSession where
  initialized : Bool
  transportMode : RtspTransportMode
  upstreamPaused : Bool
deriving DecidableEq, Repr

/-- A connection and the sessions of its stream. `closing` is the state `CONN_CLOSING`. -/
structure Relay where
  conn : Connection
  closing : Bool
  anyUpstreamPaused : Bool
  backpressureEvents : Nat
  httpProxy : HttpProxySession
  rtsp : RtspSession

/-! ### Inputs -/

/-- The pool, the number of streams and the clock when a function looks at them. -/
structure PoolView where
  pool : BufferPool
  activeStreams : Nat
  nowMs : Int

/-- `buffer_pool_alloc`: a buffer that is in neither queue of the connection. -/
structure BufferSource where
  alloc : ZcState → Option Nat
  fresh : ∀ st ref, alloc st = some ref → ref ∉ st.sendList ++ st.pendingList

/-- A buffer to queue: what it describes, how many references others have to it, and the pool at the call. -/
structure Output where
  source : BufferSource
  buffer : SendBuffer
  held : Nat
  view : PoolView

inductive RecvResult where
  | received (n : Nat)
  | eagain
  | failed
deriving DecidableEq, Repr

/-- One `recv` of the HTTP proxy: the pool at the check before it, and the buffer it reads into. -/
structure HttpRecv where
  check : PoolView
  output : Output
  result : RecvResult

inductive RtspFill where
  /-- The socket has no more data. -/
  | drained
  /-- The response buffer is full. -/
  | filled
  /-- End of file or an error. -/
  | gone
deriving DecidableEq, Repr

/-- One round of `rtsp_handle_tcp_interleaved_data`: how the response buffer was filled, what its frames queue for the
client, whether the server announced the end, and whether the buffer is still full. -/
structure RtspRound where
  check : PoolView
  fill : RtspFill
  outputs : List Output
  announced : Bool
  stuck : Bool

/-- What a drain notification finds: the pool, and the data of the two upstreams. -/
structure DrainInput where
  view : PoolView
  http : List HttpRecv
  rtsp : List RtspRound

/-! ### The flag of the connection -/

def Relay.upstreamPaused (s : Relay) : Bool :=
  s.httpProxy.initialized && s.httpProxy.upstreamPaused || s.rtsp.initialized && s.rtsp.upstreamPaused

def connectionRecomputeAnyUpstreamPaused (s : Relay) : Relay := { s with anyUpstreamPaused := s.upstreamPaused }

def connectionBeginDrainClose (s : Relay) : Relay := { s with closing := true }

/-! ### Queueing -/

def Relay.modifyZc (s : Relay) (f : ZcState → ZcState) : Relay := { s with conn := { s.conn with zc := f s.conn.zc } }

/-- Fill the buffer `ref`, queue it and give the reference back. -/
def queueBuffer (ref : Nat) (o : Output) (s : Relay) : Int × Relay :=
  let s := s.modifyZc (·.modify ref fun _ => { o.buffer with refcount := o.held + 1 })
  let (ret, conn) := connectionQueueZerocopy o.view.pool o.view.activeStreams o.view.nowMs s.conn ref
  (ret, { s with conn := conn }.modifyZc (·.bufferRefPut ref))

/-- A buffer that any part of the stream queues. Without a buffer nothing is queued. -/
def queueOutput (o : Output) (s : Relay) : Int × Relay :=
  match o.source.alloc s.conn.zc with
  | none => (-1, s)
  | some ref => queueBuffer ref o s

/-! ### The HTTP proxy -/

def httpProxyPauseUpstream (s : Relay) : Relay :=
  if s.httpProxy.upstreamPaused then s
  else connectionRecomputeAnyUpstreamPaused { s with
    httpProxy.upstreamPaused := true, backpressureEvents := s.backpressureEvents + 1 }

/-- `http_proxy_handle_upstream_end` of a body that is passed on as it comes. -/
def httpProxyHandleUpstreamEnd (s : Relay) : Int × Relay := (0, { s with httpProxy.state := .complete })

/-- Read into a buffer from the pool and queue it. -/
def httpProxyReceiveBuffer (r : HttpRecv) (s : Relay) : Int × Relay :=
  match r.output.source.alloc s.conn.zc with
  | none => (-1, s)
  | some ref =>
    let s := s.modifyZc (·.modify ref fun b => { b with refcount := 1 })
    match r.result with
    | .eagain => (0, s.modifyZc (·.bufferRefPut ref))
    | .failed | .received 0 => httpProxyHandleUpstreamEnd (s.modifyZc (·.bufferRefPut ref))
    | .received (n + 1) =>
      let received := min (n + 1) bufferPoolBufferSize
      let output := { r.output with buffer.dataOffset := 0, buffer.dataSize := received, held := 0 }
      let (ret, s) := queueBuffer ref output s
      if ret < 0 then (-1, s)
      else
        let s := { s with httpProxy.bytesReceived := s.httpProxy.bytesReceived + received }
        if s.httpProxy.contentLength ≥ 0 ∧ s.httpProxy.bytesReceived ≥ s.httpProxy.contentLength then
          (received, { s with httpProxy.state := .complete })
        else (received, s)

/-- The second phase of `http_proxy_try_receive_response`. -/
def httpProxyTryReceiveResponse (r : HttpRecv) (s : Relay) : Int × Relay :=
  let (pause, conn) := connectionShouldPauseUpstream s.conn r.check.pool r.check.activeStreams
  let s := { s with conn := conn }
  if pause then (0, httpProxyPauseUpstream s) else httpProxyReceiveBuffer r s

/-- The read loop of `http_proxy_handle_socket_event`: the last result, and the state. -/
def httpProxyReadLoop : List HttpRecv → Relay → Int × Relay
  | [], s => (0, s)
  | r :: recvs, s =>
    if s.httpProxy.state ≠ .streaming then (0, s)
    else
      let (result, s) := httpProxyTryReceiveResponse r s
      if result ≤ 0 then (result, s) else httpProxyReadLoop recvs s

/-- `http_proxy_handle_socket_event` for a readable socket. When it fails the connection is closed. -/
def httpProxyReadable (recvs : List HttpRecv) (s : Relay) : Relay :=
  let (result, s) := httpProxyReadLoop recvs s
  if result < 0 then connectionBeginDrainClose { s with httpProxy.state := .error }
  else if s.httpProxy.state = .complete then connectionBeginDrainClose s
  else s

/-- The loop of `http_proxy_resume_upstream`. -/
def httpProxyResumeLoop : List HttpRecv → Relay → Relay
  | [], s => s
  | r :: recvs, s =>
    if s.httpProxy.state = .streaming ∧ ¬ s.httpProxy.upstreamPaused then
      let (ret, s) := httpProxyTryReceiveResponse r s
      if ret ≤ 0 then s else httpProxyResumeLoop recvs s
    else s

def httpProxyResumeUpstream (recvs : List HttpRecv) (s : Relay) : Relay :=
  if ¬ s.httpProxy.upstreamPaused then s
  else
    let s := connectionRecomputeAnyUpstreamPaused { s with httpProxy.upstreamPaused := false }
    let s := httpProxyResumeLoop recvs s
    if s.httpProxy.state = .complete then connectionBeginDrainClose s else s

/-! ### RTSP -/

def rtspPauseUpstream (s : Relay) : Relay :=
  if s.rtsp.upstreamPaused ∨ s.rtsp.transportMode ≠ .tcp then s
  else connectionRecomputeAnyUpstreamPaused { s with
    rtsp.upstreamPaused := true, backpressureEvents := s.backpressureEvents + 1 }

/-- The session is no longer initialized. Its flag stays, and so does the flag of the connection. -/
def rtspForceCleanup (s : Relay) : Relay := { s with rtsp.initialized := false }

/-- The result is whether the upstream is gone. -/
def rtspHandleTcpInterleavedData : List RtspRound → Relay → Bool × Relay
  | [], s => (false, s)
  | r :: rounds, s =>
    let (pause, conn) := connectionShouldPauseUpstream s.conn r.check.pool r.check.activeStreams
    let s := { s with conn := conn }
    if pause then (false, rtspPauseUpstream s)
    else if r.fill = .gone then (true, s)
    else
      let s := r.outputs.foldl (fun s o => (queueOutput o s).2) s
      if r.announced then (true, s)
      else if r.fill = .drained ∨ r.stuck then (false, s)
      else rtspHandleTcpInterleavedData rounds s

/-- `rtsp_handle_socket_event` for a readable socket of a session that plays over TCP. -/
def rtspReadable (rounds : List RtspRound) (s : Relay) : Relay :=
  let (gone, s) := rtspHandleTcpInterleavedData rounds s
  if gone then connectionBeginDrainClose (rtspForceCleanup s) else s

def rtspResumeUpstream (rounds : List RtspRound) (s : Relay) : Relay :=
  if ¬ s.rtsp.upstreamPaused then s
  else
    let s := connectionRecomputeAnyUpstreamPaused { s with rtsp.upstreamPaused := false }
    let (gone, s) := rtspHandleTcpInterleavedData rounds s
    if gone then connectionBeginDrainClose (rtspForceCleanup s) else s

/-! ### The client -/

/-- The end of `stream_on_client_drain`. -/
def resumeUpstreams (d : DrainInput) (s : Relay) : Relay :=
  let s := if s.httpProxy.initialized then httpProxyResumeUpstream d.http s else s
  if s.rtsp.initialized then rtspResumeUpstream d.rtsp s else s

def streamOnClientDrain (d : DrainInput) (s : Relay) : Relay :=
  if ¬ s.anyUpstreamPaused then s
  else
    let (resume, conn) := connectionCanResumeUpstream s.conn d.view.pool d.view.activeStreams
    let s := { s with conn := conn }
    if ¬ resume then s else resumeUpstreams d s

/-- The kernel takes no more than it is offered. -/
def SendResult.clip (st : ZcState) : SendResult → SendResult
  | .sent n => .sent (min n st.offered.length)
  | r => r

/-- The drain notification after a write that sent something. -/
def notifyDrain (d : DrainInput) (totalSent : Nat) (s : Relay) : Relay :=
  if 0 < totalSent then streamOnClientDrain d s else s

/-- The loop of `connection_handle_write`. The answers of the kernel end with `EAGAIN`. -/
def writeLoop (zerocopyOnSend : Bool) (d : DrainInput) : List SendResult → Nat → Relay → Relay
  | [], totalSent, s => notifyDrain d totalSent s
  | kernel :: kernels, totalSent, s =>
    let (ret, bytesSent, zc) := zerocopySend zerocopyOnSend (kernel.clip s.conn.zc) s.conn.zc
    let s := s.modifyZc fun _ => zc
    let totalSent := totalSent + bytesSent
    if ret < 0 ∧ ret ≠ -2 then { s with closing := true }
    else if ret = -2 then notifyDrain d totalSent s
    else if s.conn.zc.queue.head = none then
      if s.closing ∧ s.conn.zc.queue.pendingHead = none then s else notifyDrain d totalSent s
    else if bytesSent = 0 then notifyDrain d totalSent s
    else writeLoop zerocopyOnSend d kernels totalSent s

def connectionHandleWrite (zerocopyOnSend : Bool) (d : DrainInput) (kernels : List SendResult) (s : Relay) : Relay :=
  if s.conn.zc.queue.head = none then s else writeLoop zerocopyOnSend d kernels 0 s

/-! ### Events -/

/-- What happens to a connection: its upstreams are readable or end, something is queued, the client takes data, the
kernel reports completions, or the rest of the program changes a buffer that is in neither queue. -/
inductive RelayEvent where
  | httpReadable (recvs : List HttpRecv)
  | httpEnd (failed : Bool)
  | rtspReadable (rounds : List RtspRound)
  | rtspEnd
  | queue (o : Output)
  | queueFile (source : BufferSource) (fileFd : Int) (file : Nat → UInt8) (fileOffset fileSize : Nat)
  | clientWrite (kernels : List SendResult) (d : DrainInput)
  | clientDrain (d : DrainInput)
  | completions (ranges : List (BitVec 32 × BitVec 32)) (failed : Bool)
  | touch (source : BufferSource) (buffer : SendBuffer) (freeList : Option Nat)

def Relay.step (zerocopyOnSend : Bool) (s : Relay) : RelayEvent → Relay
  | .httpReadable recvs => if s.httpProxy.initialized then httpProxyReadable recvs s else s
  | .httpEnd failed =>
    if s.httpProxy.initialized then
      connectionBeginDrainClose { s with httpProxy.state := if failed then .error else .complete }
    else s
  | .rtspReadable rounds => if s.rtsp.initialized then rtspReadable rounds s else s
  | .rtspEnd => if s.rtsp.initialized then connectionBeginDrainClose (rtspForceCleanup s) else s
  | .queue o => (queueOutput o s).2
  | .queueFile source fileFd file fileOffset fileSize =>
    match zerocopyQueueAddFile s.conn.zc (source.alloc s.conn.zc) fileFd file fileOffset fileSize with
    | (ret, zc) => if ret < 0 then s.modifyZc fun _ => zc else { s.modifyZc fun _ => zc with closing := true }
  | .clientWrite kernels d => connectionHandleWrite zerocopyOnSend d kernels s
  | .clientDrain d => streamOnClientDrain d s
  | .completions ranges failed =>
    s.modifyZc fun zc => (zerocopyHandleCompletions zerocopyOnSend ranges failed zc).2
  | .touch source buffer freeList =>
    match source.alloc s.conn.zc with
    | none => s
    | some ref => s.modifyZc fun zc => { zc.modify ref fun _ => buffer with freeList }

end Rtp2httpd
