import DOpenWrt.Rtp2httpd.Fcc

/-!
# Messages of the FCC server

`fcc_telecom.c`, `fcc_huawei.c` and the rest of `fcc.c`: requests, responses, events on the sockets and ticks, with
the parts of `multicast.c` and `stream.c` that drive them. The contents of request packets are left out.
-/

namespace Rtp2httpd

variable {σ : Type}

def be16 (buf : List UInt8) (i : Nat) : BitVec 16 :=
  BitVec.ofNat 16 ((buf.getD i 0).toNat * 256 + (buf.getD (i + 1) 0).toNat)

def be32 (buf : List UInt8) (i : Nat) : BitVec 32 := be16 buf i ++ be16 buf (i + 2)

/-! ### Requests -/

/-- The sockets of `fcc_initialize_and_request`, none if that fails. -/
def fccOpenSockets (ctx : FccContext σ) (env : FccEnv) : FccContext σ × Int :=
  match ctx.fcc.type with
  | .telecom =>
    if ¬ env.fccBind then (ctx, -1)
    else if ¬ env.fccRegister then ({ ctx with fcc := { ctx.fcc with fccServer := true } }, -1)
    else ({ ctx with fcc := { ctx.fcc with fccSock := true, fccServer := true } }, 0)
  | .huawei =>
    if ¬ env.fccBind then (ctx, -1)
    else if ¬ env.fccRegister then
      ({ ctx with fcc := { ctx.fcc with mediaSock := false, fccSock := false, fccServer := false } }, -1)
    else ({ ctx with fcc := { ctx.fcc with mediaSock := true, fccSock := true, fccServer := true } }, 0)

/-- The request itself, in either format. -/
def fccRequest (ctx : FccContext σ) (env : FccEnv) : FccContext σ × Int :=
  if ctx.fcc.type = .huawei ∧ ¬ env.localIp then (ctx, -1)
  else (ctx.emit .request, if env.sendtoTriple then 0 else -1)

def fccInitializeAndRequest (ctx : FccContext σ) (env : FccEnv) : FccContext σ × Int :=
  let (ctx, opened) := if ¬ ctx.fcc.fccSock then fccOpenSockets ctx env else (ctx, 0)
  if opened < 0 then (ctx, -1)
  else
    let (ctx, r) := fccRequest ctx env
    if r < 0 then (ctx, -1)
    else ({ ctx with fcc := { ctx.fcc with lastDataTime := env.time } }.setState .requested, 0)

/-! ### Telecom, ZTE and Fiberhome -/

def fccFmtTelecomResp : Nat := 3
def fccFmtTelecomSyn : Nat := 4

/-- The server a message names; an address or port of 0 stands for the present one. -/
def SockAddrIn.redirect (server : SockAddrIn) (addr : BitVec 32) (port : BitVec 16) : SockAddrIn :=
  ⟨if addr ≠ 0 then addr else server.addr, if port ≠ 0 then port else server.port⟩

/-- "Record start time for unicast phase". -/
def fccAwaitUnicast (ctx : FccContext σ) (env : FccEnv) : FccContext σ :=
  { ctx with fcc := { ctx.fcc with unicastStartTime := env.time } }.setState .unicastPending

/-- "Normal FCC flow": the holes are punched whether or not that succeeds. -/
def fccTelecomAccept (ctx : FccContext σ) (env : FccEnv) (mediaPortChanged signalPortChanged : Bool) : FccContext σ :=
  let ctx := if mediaPortChanged ∧ ctx.fcc.mediaPort ≠ 0 then
    ctx.emit (.punch { ctx.fccAddr with port := ctx.fcc.mediaPort }) else ctx
  let ctx := if signalPortChanged then ctx.emit (.punch ctx.fccAddr) else ctx
  fccAwaitUnicast ctx env

/-- "Redirect to new FCC server", for both vendors. -/
def fccRedirect (ctx : FccContext σ) (env : FccEnv) (server : SockAddrIn) (verify : Bool) : FccContext σ × Int :=
  let ctx := { ctx with fcc := { ctx.fcc with redirectCount := ctx.fcc.redirectCount + 1 } }
  if ctx.fcc.redirectCount > fccMaxRedirects then (fallBackToMulticast ctx env, 0)
  else
    let ctx := { ctx with fccAddr := server, fcc := { ctx.fcc with verifyServerIp := verify } }
    (ctx.setState .init, 1)

/-- "Update server endpoints if provided". -/
def fccTelecomUpdateEndpoints (ctx : FccContext σ) (buf : List UInt8) : FccContext σ :=
  let newMediaPort := be16 buf 16
  { ctx with
    fccAddr := ctx.fccAddr.redirect (be32 buf 20) (be16 buf 14)
    fcc := { ctx.fcc with
      mediaPort := if newMediaPort ≠ 0 then newMediaPort else ctx.fcc.mediaPort
      verifyServerIp := ctx.fcc.verifyServerIp ∨ be32 buf 20 ≠ 0 } }

/-- The fields of a response with FMT 3. -/
def fccTelecomResponse (ctx : FccContext σ) (env : FccEnv) (buf : List UInt8) : FccContext σ × Int :=
  let resultCode := (buf.getD 12 0).toNat
  let type := (buf.getD 13 0).toNat
  let newSignalPort := be16 buf 14
  let newMediaPort := be16 buf 16
  let newFccIp := be32 buf 20
  if resultCode ≠ 0 then (fallBackToMulticast ctx env, 0)
  else if type = 3 ∧ ctx.fcc.redirectCount > 0 ∧ ctx.fccAddr.redirect newFccIp newSignalPort = ctx.fccAddr then
    (ctx, 0)
  else
    let ipChanged := newFccIp ≠ 0 ∧ newFccIp ≠ ctx.fccAddr.addr
    let signalPortChanged := newSignalPort ≠ 0 ∧ newSignalPort ≠ ctx.fccAddr.port ∨ ipChanged
    let mediaPortChanged := newMediaPort ≠ 0 ∧ newMediaPort ≠ ctx.fcc.mediaPort ∨ ipChanged
    let ctx := fccTelecomUpdateEndpoints ctx buf
    if type = 1 then (fallBackToMulticast ctx env, 0)
    else if type = 2 then (fccTelecomAccept ctx env mediaPortChanged signalPortChanged, 0)
    else if type = 3 then fccRedirect ctx env ctx.fccAddr ctx.fcc.verifyServerIp
    else (fallBackToMulticast ctx env, 0)

def fccTelecomHandleServerResponse (ctx : FccContext σ) (env : FccEnv) (buf : List UInt8) : FccContext σ × Int :=
  if buf.length < 12 then (ctx, 0)
  else
    let fmt := (buf.getD 0 0 &&& 0x1F).toNat
    if fmt = fccFmtTelecomSyn then (fccHandleSyncNotification ctx env, 0)
    else if fmt = fccFmtTelecomResp then
      if buf.length < 36 then (ctx, 0)
      else if ctx.fcc.state ≠ .requested then (ctx, 0)
      else if (buf.getD 1 0).toNat ≠ 205 then (ctx, 0)
      else fccTelecomResponse ctx env buf
    else (ctx, 0)

/-! ### Huawei -/

def fccFmtHuaweiResp : Nat := 6
def fccFmtHuaweiSyn : Nat := 8

/-- What a response that accepts says about NAT traversal, in a packet long enough for it. -/
def fccHuaweiNat (ctx : FccContext σ) (buf : List UInt8) : FccContext σ :=
  -- the shift left does not cut off the two highest bits
  let needNatTraversal := (buf.getD 24 0).toNat * 4 / 128
  let serverPort := be16 buf 26
  let sessionId := be32 buf 28
  let serverIp := be32 buf 32
  let ctx := { ctx with fcc := { ctx.fcc with sessionId } }
  if needNatTraversal = 1 ∧ sessionId ≠ 0 then
    let ctx := { ctx with
      fccAddr := if serverIp ≠ 0 then { ctx.fccAddr with addr := serverIp } else ctx.fccAddr
      fcc := { ctx.fcc with
        needNatTraversal := true
        verifyServerIp := ctx.fcc.verifyServerIp ∨ serverIp ≠ 0
        mediaPort := if serverPort ≠ 0 then serverPort else ctx.fcc.mediaPort } }
    ctx.emit (.punch (if ctx.fcc.mediaPort ≠ 0 then { ctx.fccAddr with port := ctx.fcc.mediaPort } else ctx.fccAddr))
  else ctx

/-- The fields of a response with FMT 6. -/
def fccHuaweiResponse (ctx : FccContext σ) (env : FccEnv) (buf : List UInt8) : FccContext σ × Int :=
  let resultCode := (buf.getD 12 0).toNat
  let type := (be16 buf 14).toNat
  if resultCode ≠ 1 then (fallBackToMulticast ctx env, 0)
  else if type = 1 then (fallBackToMulticast ctx env, 0)
  else if type = 2 then
    if buf.length < 24 then (fallBackToMulticast ctx env, 0)
    else
      let ctx := if buf.length ≥ 36 then fccHuaweiNat ctx buf else ctx
      (fccAwaitUnicast ctx env, 0)
  else if type = 3 then
    if buf.length < 36 then (fallBackToMulticast ctx env, 0)
    else
      let serverPort := be16 buf 26
      let serverIp := be32 buf 32
      let server := ctx.fccAddr.redirect serverIp serverPort
      if ctx.fcc.redirectCount > 0 ∧ server = ctx.fccAddr then (ctx, 0)
      else fccRedirect ctx env server (ctx.fcc.verifyServerIp ∨ serverIp ≠ 0)
  else (fallBackToMulticast ctx env, 0)

def fccHuaweiHandleServerResponse (ctx : FccContext σ) (env : FccEnv) (buf : List UInt8) : FccContext σ × Int :=
  if buf.length < 2 then (ctx, 0)
  else
    let fmt := (buf.getD 0 0 &&& 0x1F).toNat
    if fmt = fccFmtHuaweiResp then
      if ctx.fcc.state ≠ .requested then (ctx, 0)
      else if (buf.getD 1 0).toNat ≠ 205 then (ctx, 0)
      else if buf.length < 16 then (ctx, 0)
      else fccHuaweiResponse ctx env buf
    else if fmt = fccFmtHuaweiSyn then (fccHandleSyncNotification ctx env, 0)
    else (ctx, 0)

def fccHandleServerResponse (ctx : FccContext σ) (env : FccEnv) (buf : List UInt8) : FccContext σ × Int :=
  match ctx.fcc.type with
  | .huawei => fccHuaweiHandleServerResponse ctx env buf
  | .telecom => fccTelecomHandleServerResponse ctx env buf

/-! ### Events on the sockets -/

def isRtcpPacket (data : List UInt8) : Bool :=
  data.length ≥ 8 ∧ (data.getD 0 0).toNat / 64 = 2 ∧ 200 ≤ (data.getD 1 0).toNat ∧ (data.getD 1 0).toNat ≤ 211 ∧
    ((be16 data 2).toNat + 1) * 4 ≤ data.length

/-- What a round of a receive loop finds: no buffer in the pool, in which case it drops a packet, or a packet. -/
inductive Received where
  | exhausted
  | packet (peer : BitVec 32) (ref : Nat) (data : List UInt8)
deriving DecidableEq, Repr

/-- A packet in the buffer it was received into. -/
def FccContext.receive (ctx : FccContext σ) (ref : Nat) (data : List UInt8) : FccContext σ :=
  { ctx with heap := Function.update ctx.heap ref ⟨data, 0, data.length, none⟩ }

def FccContext.fccDataAt (ctx : FccContext σ) (now : Int) : FccContext σ :=
  { ctx with fcc := { ctx.fcc with lastDataTime := now } }

def FccContext.mcastDataAt (ctx : FccContext σ) (now : Int) : FccContext σ :=
  { ctx with mcast := { ctx.mcast with lastDataTime := now } }

/-- A round of the loop of `fcc_handle_socket_event`, with the value if it returns. -/
def fccReceive (path : MediaPath σ) (now : Int) (ctx : FccContext σ) (env : FccEnv) :
    Received → FccContext σ × Option Int
  | .exhausted => (ctx.fccDataAt now, some 0)
  | .packet peer ref data =>
    let ctx := ctx.receive ref data
    if ctx.fcc.verifyServerIp ∧ peer ≠ ctx.fccAddr.addr then (ctx, none)
    else
      let ctx := ctx.fccDataAt now
      if isRtcpPacket data then
        let (ctx, res) := fccHandleServerResponse ctx env data
        if res = 1 then
          let (ctx, r) := fccInitializeAndRequest ctx env
          (ctx, some (if r < 0 then -1 else 0))
        else (ctx, if res ≠ 0 then some res else none)
      else (fccHandleUnicastMedia path ctx ref, none)

/-- The loop; it ends when nothing is left to receive. -/
def fccHandleSocketEvent (path : MediaPath σ) (now : Int) : List (FccEnv × Received) → FccContext σ → FccContext σ × Int
  | [], ctx => (ctx, 0)
  | (env, received) :: rest, ctx =>
    match fccReceive path now ctx env received with
    | (ctx, some r) => (ctx, r)
    | (ctx, none) => fccHandleSocketEvent path now rest ctx

/-- A round of the loop of `mcast_session_handle_event`. -/
def mcastReceive (path : MediaPath σ) (now : Int) (ctx : FccContext σ) (env : FccEnv) :
    Received → FccContext σ × Option Int
  | .exhausted => (ctx.mcastDataAt now, some 0)
  | .packet _ ref data =>
    let ctx := (ctx.receive ref data).mcastDataAt now
    if ¬ ctx.fcc.initialized then (ctx.process path ref .multicast, none)
    else match ctx.fcc.state with
      | .mcastActive => (fccHandleMcastActive path ctx ref, none)
      | .mcastRequested =>
        let (ctx, result) := fccHandleMcastTransition ctx env ref
        (ctx, if result ≠ 0 then some result else none)
      | _ => (ctx, none)

def mcastSessionHandleEventLoop (path : MediaPath σ) (now : Int) :
    List (FccEnv × Received) → FccContext σ → FccContext σ × Int
  | [], ctx => (ctx, 0)
  | (env, received) :: rest, ctx =>
    match mcastReceive path now ctx env received with
    | (ctx, some r) => (ctx, r)
    | (ctx, none) => mcastSessionHandleEventLoop path now rest ctx

def mcastSessionHandleEvent (path : MediaPath σ) (now : Int) (rs : List (FccEnv × Received)) (ctx : FccContext σ) :
    FccContext σ × Int :=
  if ¬ ctx.mcast.initialized ∨ ¬ ctx.mcast.sock then (ctx, -1) else mcastSessionHandleEventLoop path now rs ctx

/-! ### Ticks -/

def fccTimeoutSignalingMs : Int := 80
def fccTimeoutUnicastMs : Int := 1000
def fccTimeoutSyncWaitMs : Int := 15000
def mcastTimeoutMs : Int := 1000

def fccSessionTick (ctx : FccContext σ) (env : FccEnv) (now : Int) : FccContext σ :=
  if ¬ ctx.fcc.initialized ∨ ¬ ctx.fcc.fccSock then ctx
  else
    let elapsedMs := now - ctx.fcc.lastDataTime
    if ctx.fcc.state = .requested ∨ ctx.fcc.state = .unicastPending then
      if elapsedMs ≥ fccTimeoutSignalingMs then fallBackToMulticast ctx env else ctx
    else if ctx.fcc.state = .unicastActive ∨ ctx.fcc.state = .mcastRequested then
      let ctx := if elapsedMs ≥ fccTimeoutUnicastMs then fallBackToMulticast ctx env else ctx
      if ctx.fcc.state = .unicastActive ∧ ctx.fcc.unicastStartTime > 0 ∧
          now - ctx.fcc.unicastStartTime ≥ fccTimeoutSyncWaitMs then fccHandleSyncNotification ctx env
      else ctx
    else ctx

/-- `config.mcast_rejoin_interval`, and whether `service->addr` is an IPv4 address. -/
structure McastConfig where
  mcastRejoinInterval : Int
  ipv4 : Bool
deriving DecidableEq, Repr

/-- "Periodic multicast rejoin". -/
def mcastRejoin (config : McastConfig) (mcast : McastSession) (env : FccEnv) (now : Int) : McastSession :=
  if config.mcastRejoinInterval > 0 then
    if ¬ config.ipv4 then { mcast with rejoinUnsupportedWarned := true }
    else if now - mcast.lastRejoinTime ≥ config.mcastRejoinInterval * 1000 ∧ env.rejoinMcastGroup then
      { mcast with lastRejoinTime := now }
    else mcast
  else mcast

def mcastSessionTick (config : McastConfig) (mcast : McastSession) (env : FccEnv) (now : Int) : McastSession × Int :=
  if ¬ mcast.initialized ∨ ¬ mcast.sock then (mcast, 0)
  else
    let mcast := mcastRejoin config mcast env now
    (mcast, if now - mcast.lastDataTime ≥ mcastTimeoutMs then -1 else 0)

/-- `SNAPSHOT_TIMEOUT_SEC`. -/
def snapshotTimeoutSec : Int := 5

/-- "Check snapshot timeout", with `snapshot_fallback_to_streaming`. -/
def snapshotTick (path : MediaPath σ) (ctx : FccContext σ) (now : Int) : FccContext σ :=
  match path.snapshot ctx.media with
  | none => ctx
  | some snapshot =>
    if now - snapshot.startTime > snapshotTimeoutSec * 1000 then
      if ¬ snapshot.fallbackToStreaming then ctx.emit .serverError
      else { ctx with media := path.snapshotCleanup ctx.media }
    else ctx

/-- `stream_tick`, as far as multicast, FCC and snapshots are concerned. -/
def streamTick (path : MediaPath σ) (config : McastConfig) (ctx : FccContext σ) (env : FccEnv) (now : Int) :
    FccContext σ × Int :=
  let (mcast, r) := mcastSessionTick config ctx.mcast env now
  let ctx := { ctx with mcast }
  if r < 0 then (ctx, -1) else (snapshotTick path (fccSessionTick ctx env now) now, 0)

/-! ### Runs -/

/-- The multicast part of `stream_context_init_for_worker`, for a service with an FCC server. -/
def streamStartFcc (type : FccType) (fccAddr : SockAddrIn) (media : σ) (heap : Nat → PacketBuffer) (env : FccEnv) :
    FccContext σ × Int :=
  fccInitializeAndRequest ⟨fccSessionInit type, mcastSessionInit, fccAddr, media, heap, 0, [], []⟩ env

inductive FccInput where
  /-- Packets on the signal or media socket of the session. -/
  | fcc (now : Int) (received : List (FccEnv × Received))
  | mcast (now : Int) (received : List (FccEnv × Received))
  | tick (now : Int) (env : FccEnv)

/-- `stream_handle_fd_event`, as far as these sockets are concerned, and `stream_tick`. -/
def fccStep (path : MediaPath σ) (config : McastConfig) (ctx : FccContext σ) : FccInput → FccContext σ
  | .fcc now received =>
    if ctx.fcc.initialized ∧ (ctx.fcc.fccSock ∨ ctx.fcc.mediaSock) then
      (fccHandleSocketEvent path now received ctx).1 else ctx
  | .mcast now received =>
    if ctx.mcast.initialized ∧ ctx.mcast.sock then (mcastSessionHandleEvent path now received ctx).1 else ctx
  | .tick now env => (streamTick path config ctx env now).1

end Rtp2httpd
