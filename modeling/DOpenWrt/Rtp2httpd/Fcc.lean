import DOpenWrt.Rtp2httpd.RtpReorder

/-!
# Fast channel change

`fcc.c` with `mcast_session_join` of `multicast.c`: the session of one stream and what it does with a packet. What
the system answers during an event is an input (`FccEnv`); `log` records what the session did, the oldest first.
Buffers are numbered, and their link field is shared with the send queue.
-/

namespace Rtp2httpd
open Serial

inductive FccType where
  | telecom
  | huawei
deriving DecidableEq, Repr

inductive FccState where
  | init | requested | unicastPending | unicastActive | mcastRequested | mcastActive | error
deriving DecidableEq, Repr

/-- An address and a port, in network byte order. -/
structure SockAddrIn where
  addr : BitVec 32
  port : BitVec 16
deriving DecidableEq, Repr

/-- `fcc_session_t`. Of a socket only whether it is open matters, of `fcc_server`, which points to the address in the
service, whether it is set. -/
structure FccSession where
  initialized : Bool
  state : FccState
  type : FccType
  fccSock : Bool
  mediaSock : Bool
  fccServer : Bool
  mediaPort : BitVec 16
  verifyServerIp : Bool
  fccTermSeqn : BitVec 16
  fccTermSent : Bool
  redirectCount : Nat
  unicastStartTime : Int
  lastDataTime : Int
  sessionId : BitVec 32
  needNatTraversal : Bool
  pendingListHead : Option Nat
  pendingListTail : Option Nat
deriving Repr

def fccMaxRedirects : Nat := 5

structure McastSession where
  initialized : Bool
  sock : Bool
  lastDataTime : Int
  lastRejoinTime : Int
  rejoinUnsupportedWarned : Bool
deriving Repr

/-- A buffer of the pool, as far as a received packet is concerned. -/
structure PacketBuffer where
  data : List UInt8
  dataOffset : Nat
  dataSize : Nat
  sendNext : Option Nat

inductive MediaOrigin where
  | multicast | fccUnicast | fccMulticast
deriving DecidableEq, Repr

/-- What the session does to the world around it. -/
inductive FccEvent where
  | enter (state : FccState)
  | request
  | punch (dest : SockAddrIn)
  /-- A termination packet was sent in normal flow. -/
  | terminate (seqn : BitVec 16)
  | join (joined : Bool)
  | media (ref : Nat) (origin : MediaOrigin)
  /-- `http_send_500`, behind which the connection closes. -/
  | serverError
deriving DecidableEq, Repr

/-- What `stream_tick` reads of a snapshot. -/
structure SnapshotDeadline where
  startTime : Int
  fallbackToStreaming : Bool
deriving DecidableEq, Repr

/-- The rest of the stream: `stream_process_rtp_payload`, what is read of `ctx->reorder`, and `ctx->snapshot`. -/
structure MediaPath (σ : Type) where
  streamProcessRtpPayload : σ → (Nat → PacketBuffer) → Nat → MediaOrigin → σ × (Nat → PacketBuffer)
  reorderPhase : σ → Phase
  reorderBaseSeq : σ → BitVec 16
  /-- None if it is not initialized. -/
  snapshot : σ → Option SnapshotDeadline
  /-- `snapshot_cleanup`, behind which the stream counts as one. -/
  snapshotCleanup : σ → σ
  snapshot_cleanup : ∀ media, snapshot (snapshotCleanup media) = none

/-- The rest of a stream that takes no snapshot. -/
def MediaPath.withoutSnapshot (process : σ → (Nat → PacketBuffer) → Nat → MediaOrigin → σ × (Nat → PacketBuffer))
    (phase : σ → Phase) (baseSeq : σ → BitVec 16) : MediaPath σ :=
  ⟨process, phase, baseSeq, fun _ => none, id, fun _ => rfl⟩

structure FccContext (σ : Type) where
  fcc : FccSession
  mcast : McastSession
  /-- `service->fcc_addr`. -/
  fccAddr : SockAddrIn
  media : σ
  heap : Nat → PacketBuffer
  /-- How many buffers were put into the pending list since it was empty. -/
  pendingCount : Nat
  /-- The references the pending list took and gave back, the newest first. -/
  refs : List RefEvent
  log : List FccEvent

/-- The answers of the system during one packet or tick. -/
structure FccEnv where
  /-- `get_time_ms`. -/
  time : Int
  joinMcastGroup : Bool
  pollerAdd : Bool
  rejoinMcastGroup : Bool
  /-- The sockets could be made and bound, and could be added to the poller. -/
  fccBind : Bool
  fccRegister : Bool
  /-- `get_local_ip_for_fcc` found an address. -/
  localIp : Bool
  sendtoTriple : Bool
deriving DecidableEq, Repr

variable {σ : Type}

def fccSessionInit (type : FccType) : FccSession where
  initialized := true
  state := .init
  type := type
  fccSock := false
  mediaSock := false
  fccServer := false
  mediaPort := 0
  verifyServerIp := false
  fccTermSeqn := 0
  fccTermSent := false
  redirectCount := 0
  unicastStartTime := 0
  lastDataTime := 0
  sessionId := 0
  needNatTraversal := false
  pendingListHead := none
  pendingListTail := none

def mcastSessionInit : McastSession := ⟨true, false, 0, 0, false⟩

namespace FccContext

def emit (ctx : FccContext σ) (e : FccEvent) : FccContext σ := { ctx with log := ctx.log ++ [e] }

/-- `fcc_session_set_state`. -/
def setState (ctx : FccContext σ) (state : FccState) : FccContext σ :=
  if ctx.fcc.state = state then ctx
  else { ctx with fcc := { ctx.fcc with state } }.emit (.enter state)

/-- A call of `stream_process_rtp_payload`. -/
def process (path : MediaPath σ) (ctx : FccContext σ) (ref : Nat) (origin : MediaOrigin) : FccContext σ :=
  let (media, heap) := path.streamProcessRtpPayload ctx.media ctx.heap ref origin
  { ctx with media, heap }.emit (.media ref origin)

def setNext (ctx : FccContext σ) (ref : Nat) (next : Option Nat) : FccContext σ :=
  { ctx with heap := Function.update ctx.heap ref { ctx.heap ref with sendNext := next } }

end FccContext

/-! ### Joining -/

def mcastSessionJoin (ctx : FccContext σ) (env : FccEnv) : FccContext σ × Int :=
  if ¬ ctx.mcast.initialized then (ctx, -1)
  else if ctx.mcast.sock then (ctx, 0)
  else if env.joinMcastGroup ∧ env.pollerAdd then
    ({ ctx with mcast := { ctx.mcast with
      sock := true, lastDataTime := env.time, lastRejoinTime := env.time } }.emit (.join true), 0)
  else (ctx.emit (.join false), -1)

/-- "Falling back to multicast": the result of the join is not looked at. -/
def fallBackToMulticast (ctx : FccContext σ) (env : FccEnv) : FccContext σ :=
  (mcastSessionJoin (ctx.setState .mcastActive) env).1

def fccHandleSyncNotification (ctx : FccContext σ) (env : FccEnv) : FccContext σ :=
  if ctx.fcc.state = .mcastRequested ∨ ctx.fcc.state = .mcastActive then ctx
  else (mcastSessionJoin (ctx.setState .mcastRequested) env).1

/-! ### Media packets -/

def fccHandleUnicastMedia (path : MediaPath σ) (ctx : FccContext σ) (ref : Nat) : FccContext σ :=
  if ctx.fcc.state = .mcastActive then ctx
  else
    let ctx := if ctx.fcc.state = .unicastPending then ctx.setState .unicastActive else ctx
    let ctx := ctx.process path ref .fccUnicast
    if ctx.fcc.fccTermSent ∧ path.reorderPhase ctx.media = .active ∧ ctx.fcc.state ≠ .mcastActive then
      let lastDelivered := path.reorderBaseSeq ctx.media - 1
      if 0 ≤ sdiff lastDelivered (ctx.fcc.fccTermSeqn - 1) then ctx.setState .mcastActive else ctx
    else ctx

/-- `fcc_send_term_packet`, in either format. -/
def fccSendTermPacket (fcc : FccSession) (env : FccEnv) : Bool := fcc.fccSock && fcc.fccServer && env.sendtoTriple

def fccSendTerminationMessage (ctx : FccContext σ) (env : FccEnv) (mcastSeqn : BitVec 16) : FccContext σ × Int :=
  if ¬ ctx.fcc.fccTermSent then
    let ctx := { ctx with fcc := { ctx.fcc with fccTermSeqn := mcastSeqn } }
    if fccSendTermPacket ctx.fcc env then
      ({ ctx with fcc := { ctx.fcc with fccTermSent := true } }.emit (.terminate (mcastSeqn + 2)), 0)
    else (ctx, -1)
  else (ctx, 0)

/-- The bytes that `data_offset` and `data_size` select. -/
def PacketBuffer.packet (b : PacketBuffer) : List UInt8 := (b.data.drop b.dataOffset).take b.dataSize

/-- The number a multicast packet is taken to have, 0 if it is not an RTP packet and none if it is malformed. -/
def transitionSeqn (data : List UInt8) : Option (BitVec 16) :=
  match rtpGetPayload data with
  | .ok (.rtp _ _ seqn) => some seqn
  | .ok .notRtp | .ok .fec => some 0
  | .ok (.malformed _) | .error _ => none

/-- "Add to pending list", with the reference it takes. -/
def pendingListAdd (ctx : FccContext σ) (ref : Nat) : FccContext σ :=
  let ctx := { ctx with refs := .get ref :: ctx.refs }.setNext ref none
  let ctx := match ctx.fcc.pendingListTail with
    | some tail => ctx.setNext tail (some ref)
    | none => { ctx with fcc := { ctx.fcc with pendingListHead := some ref } }
  { ctx with fcc := { ctx.fcc with pendingListTail := some ref }, pendingCount := ctx.pendingCount + 1 }

def fccHandleMcastTransition (ctx : FccContext σ) (env : FccEnv) (ref : Nat) : FccContext σ × Int :=
  match transitionSeqn (ctx.heap ref).packet with
  | none => (ctx, 0)
  | some seqn =>
    let (ctx, sent) := if ¬ ctx.fcc.fccTermSent then fccSendTerminationMessage ctx env seqn else (ctx, 0)
    if sent < 0 then (ctx, -1) else (pendingListAdd ctx ref, 0)

/-- The loop that flushes the pending list from `node` on, at most as many times as it has buffers. -/
def flushPending (path : MediaPath σ) : Nat → Option Nat → FccContext σ → FccContext σ
  | 0, _, ctx => ctx
  | _ + 1, none, ctx => ctx
  | fuel + 1, some node, ctx =>
    let next := (ctx.heap node).sendNext
    let ctx := ctx.process path node .fccMulticast
    flushPending path fuel next { ctx with refs := .put node :: ctx.refs }

def emptyPending (ctx : FccContext σ) : FccContext σ :=
  { ctx with fcc := { ctx.fcc with pendingListHead := none, pendingListTail := none }, pendingCount := 0 }

def fccHandleMcastActive (path : MediaPath σ) (ctx : FccContext σ) (ref : Nat) : FccContext σ :=
  let ctx := match ctx.fcc.pendingListHead with
    | none => ctx
    | some head => emptyPending (flushPending path ctx.pendingCount (some head) ctx)
  ctx.process path ref .fccMulticast

end Rtp2httpd
