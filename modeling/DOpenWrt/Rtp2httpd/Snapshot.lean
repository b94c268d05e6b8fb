import DOpenWrt.Rtp2httpd.Rtp

/-!
# Snapshots (`snapshot.c`)

`snapshot_process_packet` looks in the TS packets of each payload for one that starts an IDR frame, and collects the
packets of its PID behind the PAT and the PMT until the next one that starts a unit.
-/

namespace Rtp2httpd.Snapshot

def tsPacketSize : Nat := 188
def tsSyncByte : UInt8 := 0x47
def tsPatPid : Nat := 0
def snapshotBufferCapacity : Nat := 1024 * 1024

/-- An access outside the payload or outside `idr_frame_mmap`. -/
inductive SnapshotFault where
  | payloadRead
  | bufferWrite
deriving DecidableEq, Repr

/-- `snapshot_context_t`, with the bytes of `idr_frame_mmap`. -/
structure SnapshotContext where
  initialized : Bool
  fallbackToStreaming : Bool
  idrFrameMmap : List UInt8
  idrFrameSize : Nat
  idrFrameCapacity : Nat
  idrFrameComplete : Bool
  idrFrameStarted : Bool
  videoPid : Nat
  hasPat : Bool
  hasPmt : Bool
  pmtPid : Nat
  tsHeaderSize : Nat
deriving DecidableEq, Repr

/-- `snapshot_init`, and the fallback that the caller asks for. -/
def snapshotInit (fallbackToStreaming : Bool) : SnapshotContext where
  initialized := true
  fallbackToStreaming := fallbackToStreaming
  idrFrameMmap := List.replicate snapshotBufferCapacity 0
  idrFrameSize := 0
  idrFrameCapacity := snapshotBufferCapacity
  idrFrameComplete := false
  idrFrameStarted := false
  videoPid := 0
  hasPat := false
  hasPmt := false
  pmtPid := 0
  tsHeaderSize := 0

def snapshotCleanup (ctx : SnapshotContext) : SnapshotContext := { ctx with idrFrameMmap := [], initialized := false }

/-- The payload from the packet on, read at `i`. -/
def tsByte (ts : List UInt8) (i : Nat) : Except SnapshotFault UInt8 :=
  match ts[i]? with
  | some b => .ok b
  | none => .error .payloadRead

/-- `memcpy` of a TS packet to `idr_frame_mmap + offset`. -/
def copyTs (mmap : List UInt8) (offset : Nat) (ts : List UInt8) : Except SnapshotFault (List UInt8) :=
  if ts.length < tsPacketSize then .error .payloadRead
  else if mmap.length < offset + tsPacketSize then .error .bufferWrite
  else .ok (mmap.take offset ++ ts.take tsPacketSize ++ mmap.drop (offset + tsPacketSize))

/-! ### Headers -/

/-- 13 bits at `i`. -/
def tsPidAt (ts : List UInt8) (i : Nat) : Except SnapshotFault Nat := do
  let hi ← tsByte ts i
  let lo ← tsByte ts (i + 1)
  return (hi &&& 0x1F).toNat * 256 + lo.toNat

/-- Where the payload of a TS packet starts, behind the adaptation field. -/
def tsPayloadStart (ts : List UInt8) : Except SnapshotFault Nat := do
  if (← tsByte ts 3) &&& 0x20 ≠ 0 then return 4 + (1 + (← tsByte ts 4).toNat)
  return 4

/-- The program entries from `i` on, `left` of them. -/
def patPrograms (ts : List UInt8) : (left i : Nat) → Except SnapshotFault Nat
  | 0, _ => return 0
  | left + 1, i => do
    let hi ← tsByte ts i
    let lo ← tsByte ts (i + 1)
    let pmtPid ← tsPidAt ts (i + 2)
    -- program 0 is the NIT
    if hi.toNat * 256 + lo.toNat ≠ 0 ∧ pmtPid ≠ 0 then return pmtPid
    patPrograms ts left (i + 4)

/-- The table at `start`. -/
def patTable (ts : List UInt8) (start : Nat) : Except SnapshotFault Nat := do
  if tsPacketSize < start + 8 then return 0
  if (← tsByte ts start) ≠ 0 then return 0
  let sectionLength := ((← tsByte ts (start + 1)) &&& 0x0F).toNat * 256 + (← tsByte ts (start + 2)).toNat
  if sectionLength < 5 ∨ tsPacketSize < start + (3 + sectionLength) then return 0
  patPrograms ts ((sectionLength - 5 - 4) / 4) (start + 8)

/-- `extract_pmt_pid_from_pat`: 0 if there is none. -/
def extractPmtPidFromPat (ts : List UInt8) : Except SnapshotFault Nat := do
  if (← tsByte ts 0) ≠ tsSyncByte then return 0
  if (← tsPidAt ts 1) ≠ tsPatPid then return 0
  if (← tsByte ts 3) &&& 0x10 = 0 then return 0
  let payloadStart ← tsPayloadStart ts
  if payloadStart ≥ tsPacketSize then return 0
  if (← tsByte ts 1) &&& 0x40 ≠ 0 then patTable ts (payloadStart + (1 + (← tsByte ts payloadStart).toNat))
  else patTable ts payloadStart

def cacheTsHeaderPacket (ctx : SnapshotContext) (ts : List UInt8) (pid : Nat) :
    Except SnapshotFault SnapshotContext := do
  let ctx ← (if pid = tsPatPid ∧ ctx.hasPat = false then do
      let mmap ← copyTs ctx.idrFrameMmap 0 ts
      let pmtPid ← extractPmtPidFromPat ts
      return { ctx with idrFrameMmap := mmap, hasPat := true, pmtPid := pmtPid }
    else if ctx.pmtPid ≠ 0 ∧ pid = ctx.pmtPid ∧ ctx.hasPmt = false then do
      let mmap ← copyTs ctx.idrFrameMmap tsPacketSize ts
      return { ctx with idrFrameMmap := mmap, hasPmt := true }
    else return ctx)
  return { ctx with
    tsHeaderSize := (if ctx.hasPat then tsPacketSize else 0) + (if ctx.hasPmt then tsPacketSize else 0) }

/-! ### The start of the frame -/

/-- The type of a NAL unit of an IDR frame, of H.264 or of HEVC. -/
def isIdrNal (nalHeader : UInt8) : Bool :=
  let h264Type := nalHeader &&& 0x1F
  let hevcType := nalHeader >>> 1 &&& 0x3F
  h264Type = 5 ∨ hevcType = 19 ∨ hevcType = 20 ∨ hevcType = 21

/-- The start code at `i`: where the NAL unit begins. -/
def startCodeAt (ts : List UInt8) (i : Nat) : Except SnapshotFault (Option Nat) := do
  if (← tsByte ts i) ≠ 0 then return none
  if (← tsByte ts (i + 1)) ≠ 0 then return none
  let b ← tsByte ts (i + 2)
  if b = 1 then return some (i + 3)
  if b = 0 then
    if (← tsByte ts (i + 3)) = 1 then return some (i + 4)
  return none

/-- The scan for a NAL unit of an IDR frame from `i` on, `left` places. -/
def scanNal (ts : List UInt8) : (left i : Nat) → Except SnapshotFault Bool
  | 0, _ => return false
  | left + 1, i => do
    match ← startCodeAt ts i with
    | some nalStart =>
      if nalStart < tsPacketSize then
        if isIdrNal (← tsByte ts nalStart) then return true
    | none => pure ()
    scanNal ts left (i + 1)

/-- A PES header of a video stream at `start`. -/
def isVideoPes (ts : List UInt8) (start : Nat) : Except SnapshotFault Bool := do
  if (← tsByte ts start) ≠ 0 then return false
  if (← tsByte ts (start + 1)) ≠ 0 then return false
  if (← tsByte ts (start + 2)) ≠ 1 then return false
  let streamId ← tsByte ts (start + 3)
  return 0xE0 ≤ streamId && streamId ≤ 0xEF

/-- Whether a TS packet starts an IDR frame. -/
def startsIdr (ts : List UInt8) : Except SnapshotFault Bool := do
  let flags ← tsByte ts 1
  let control ← tsByte ts 3
  if control &&& 0x10 = 0 ∨ flags &&& 0x40 = 0 then return false
  let start ← tsPayloadStart ts
  if start ≥ tsPacketSize then return false
  -- six bytes are asked for, and nine are read
  if tsPacketSize - start < 6 then return false
  if ← isVideoPes ts start then
    let esStart := start + (9 + (← tsByte ts (start + 8)).toNat)
    if esStart < tsPacketSize then scanNal ts (tsPacketSize - esStart - 4) esStart else return false
  else return false

/-! ### Payloads -/

/-- What becomes of the file with the frame: converted and queued, converted but not queued, or not converted. -/
inductive Delivery where
  | sent
  | notQueued
  | notConverted
deriving DecidableEq, Repr

/-- What `snapshot_process_packet` returns, and the file if the frame is declared complete. -/
structure Processed where
  result : Int
  ctx : SnapshotContext
  captured : Option (List UInt8)
deriving DecidableEq, Repr

/-- After a TS packet the next one is looked at, or the function returns. -/
inductive TsOutcome where
  | next (ctx : SnapshotContext)
  | done (processed : Processed)
deriving DecidableEq, Repr

section
variable (deliver : List UInt8 → Delivery)

/-- The frame is declared complete: the file is cut to the size of the frame and handed on. -/
def completeFrame (ctx : SnapshotContext) : Processed :=
  let ctx := { ctx with idrFrameComplete := true }
  let file := ctx.idrFrameMmap.take ctx.idrFrameSize
  match deliver file with
  | .sent => ⟨0, ctx, some file⟩
  | .notQueued => ⟨-1, ctx, some file⟩
  | .notConverted => ⟨0, if ctx.fallbackToStreaming then snapshotCleanup ctx else ctx, some file⟩

def processTsPacket (ts : List UInt8) (ctx : SnapshotContext) : Except SnapshotFault TsOutcome := do
  let pid ← tsPidAt ts 1
  let flags ← tsByte ts 1
  let ctx ← (if ctx.idrFrameStarted then pure ctx else cacheTsHeaderPacket ctx ts pid)
  let started ← (if ctx.idrFrameStarted then pure false else startsIdr ts)
  let ctx := if started then
    { ctx with idrFrameStarted := true, videoPid := pid, idrFrameSize := ctx.tsHeaderSize } else ctx
  if ctx.idrFrameStarted = false then return .next ctx
  if pid = ctx.videoPid ∧ flags &&& 0x40 ≠ 0 ∧ ctx.idrFrameSize > ctx.tsHeaderSize then
    return .done (completeFrame deliver ctx)
  if pid ≠ ctx.videoPid then return .next ctx
  if ctx.idrFrameSize + tsPacketSize > ctx.idrFrameCapacity then return .done ⟨-1, ctx, none⟩
  let mmap ← copyTs ctx.idrFrameMmap ctx.idrFrameSize ts
  return .next { ctx with idrFrameMmap := mmap, idrFrameSize := ctx.idrFrameSize + tsPacketSize }

/-- The loop over the payload, of which `skip` bytes belong to the TS packet before. -/
def processTsPackets : (skip : Nat) → List UInt8 → SnapshotContext → Except SnapshotFault Processed
  | _, [], ctx => return ⟨0, ctx, none⟩
  | skip + 1, _ :: rest, ctx => processTsPackets skip rest ctx
  | 0, b :: rest, ctx =>
    if (b :: rest).length < tsPacketSize then return ⟨0, ctx, none⟩
    else if b ≠ tsSyncByte then processTsPackets 0 rest ctx
    else do
      match ← processTsPacket deliver (b :: rest) ctx with
      | .next ctx => processTsPackets (tsPacketSize - 1) rest ctx
      | .done processed => return processed

/-- A payload that is no TS is skipped. -/
def processPayload (payload : List UInt8) (ctx : SnapshotContext) : Except SnapshotFault Processed :=
  if payload.length ≥ tsPacketSize ∧ payload.head? = some tsSyncByte then processTsPackets deliver 0 payload ctx
  else return ⟨0, ctx, none⟩

def snapshotProcessPacket (ctx : SnapshotContext) (buf : List UInt8) : Except SnapshotFault Processed := do
  if ctx.initialized = false then return ⟨-1, ctx, none⟩
  if ctx.idrFrameComplete then return ⟨0, ctx, none⟩
  match ← (rtpGetPayload buf).mapError fun _ => SnapshotFault.payloadRead with
  | .malformed _ => return ⟨0, ctx, none⟩
  | .rtp payloadStart size _ => processPayload deliver ((buf.drop payloadStart).take size) ctx
  | .notRtp | .fec => processPayload deliver buf ctx

/-- Packets one after the other: the context at the end, and the files of the frames that were declared complete. -/
def snapshotRun : SnapshotContext → List (List UInt8) → Except SnapshotFault (SnapshotContext × List (List UInt8))
  | ctx, [] => return (ctx, [])
  | ctx, buf :: bufs => do
    let processed ← snapshotProcessPacket deliver ctx buf
    let (ctx, files) ← snapshotRun processed.ctx bufs
    return (ctx, processed.captured.toList ++ files)

end

end Rtp2httpd.Snapshot
