import DOpenWrt.Lib.Run
import DOpenWrt.Rtp2httpd.FccProgress

/-!
# Falling back to multicast

A session whose join fails when it falls back receives nothing any more, and no tick notices: with multicast active
but not joined, neither tick has a timeout, and only the deadline of a snapshot that cannot become a stream ends it. It
is exactly a failed join at that moment that leads there.
-/

namespace Rtp2httpd

variable {σ : Type}

def FccEnv.joins (env : FccEnv) : Bool := env.joinMcastGroup && env.pollerAdd

/-! ### Stranded sessions -/

/-- The stream is a snapshot that ends with an error at its deadline. -/
def snapshotOnly (path : MediaPath σ) (media : σ) : Bool := (path.snapshot media).any fun s => !s.fallbackToStreaming

def Secured (path : MediaPath σ) (ctx : FccContext σ) : Prop :=
  ctx.fcc.state = .mcastActive → ctx.mcast.sock = true ∨ snapshotOnly path ctx.media = true

instance Secured.decidable (path : MediaPath σ) (ctx : FccContext σ) : Decidable (Secured path ctx) :=
  inferInstanceAs (Decidable (_ → _))

section Ticks

variable (path : MediaPath σ) (config : McastConfig) {ctx : FccContext σ} (env : FccEnv) (now : Int)

end Ticks

/-- A response with FMT 3 for which the session falls back. -/
def telecomFallsBack (ctx : FccContext σ) (buf : List UInt8) : Bool :=
  let type := (buf.getD 13 0).toNat
  36 ≤ buf.length ∧ (buf.getD 0 0 &&& 0x1F).toNat = fccFmtTelecomResp ∧ (buf.getD 1 0).toNat = 205 ∧
    ((buf.getD 12 0).toNat ≠ 0 ∨ type ≠ 2 ∧
      (type = 3 → fccMaxRedirects ≤ ctx.fcc.redirectCount ∧
        ctx.fccAddr.redirect (be32 buf 20) (be16 buf 14) ≠ ctx.fccAddr))

/-- A response with FMT 6 for which the session falls back. -/
def huaweiFallsBack (ctx : FccContext σ) (buf : List UInt8) : Bool :=
  let type := (be16 buf 14).toNat
  16 ≤ buf.length ∧ (buf.getD 0 0 &&& 0x1F).toNat = fccFmtHuaweiResp ∧ (buf.getD 1 0).toNat = 205 ∧
    ((buf.getD 12 0).toNat ≠ 1 ∨ type ≠ 2 ∧ type ≠ 3 ∨ type = 2 ∧ buf.length < 24 ∨ type = 3 ∧ (buf.length < 36 ∨
      fccMaxRedirects ≤ ctx.fcc.redirectCount ∧ ctx.fccAddr.redirect (be32 buf 32) (be16 buf 26) ≠ ctx.fccAddr))

def responseFallsBack (ctx : FccContext σ) (buf : List UInt8) : Bool :=
  decide (ctx.fcc.state = .requested) &&
    match ctx.fcc.type with
    | .telecom => telecomFallsBack ctx buf
    | .huawei => huaweiFallsBack ctx buf

def packetFallsBack (ctx : FccContext σ) : Received → Bool
  | .exhausted => false
  | .packet peer _ data =>
    ¬ (ctx.fcc.verifyServerIp ∧ peer ≠ ctx.fccAddr.addr) ∧ isRtcpPacket data ∧ responseFallsBack ctx data

def tickFallsBack (ctx : FccContext σ) (now : Int) : Bool :=
  ctx.fcc.initialized ∧ ctx.fcc.fccSock ∧
    ((ctx.fcc.state = .requested ∨ ctx.fcc.state = .unicastPending) ∧
        now - ctx.fcc.lastDataTime ≥ fccTimeoutSignalingMs ∨
      (ctx.fcc.state = .unicastActive ∨ ctx.fcc.state = .mcastRequested) ∧
        now - ctx.fcc.lastDataTime ≥ fccTimeoutUnicastMs)

/-- Multicast is joined already or the join succeeds, or the stream is a snapshot only. -/
def Joinable (path : MediaPath σ) (ctx : FccContext σ) (env : FccEnv) : Prop :=
  (ctx.mcast.sock = true ∨ env.joins = true) ∨ snapshotOnly path ctx.media = true

instance Joinable.decidable (path : MediaPath σ) (ctx : FccContext σ) (env : FccEnv) :
    Decidable (Joinable path ctx env) :=
  inferInstanceAs (Decidable (_ ∨ _))

/-- Wherever a packet of the event makes the session fall back, it can. -/
def RoundsJoin (path : MediaPath σ) (now : Int) : FccContext σ → List (FccEnv × Received) → Prop
  | _, [] => True
  | ctx, (env, received) :: rest =>
    (packetFallsBack ctx received = true → Joinable path ctx env) ∧
      match fccReceive path now ctx env received with
      | (_, some _) => True
      | (ctx, none) => RoundsJoin path now ctx rest

/-- The condition on an input. -/
def FallbackJoins (path : MediaPath σ) (ctx : FccContext σ) : FccInput → Prop
  | .fcc now received => ctx.fcc.initialized ∧ (ctx.fcc.fccSock ∨ ctx.fcc.mediaSock) → RoundsJoin path now ctx received
  | .mcast .. => True
  | .tick now env => tickFallsBack ctx now = true → Joinable path ctx env

instance RoundsJoin.decidable (path : MediaPath σ) (now : Int) :
    ∀ (ctx : FccContext σ) (rs : List (FccEnv × Received)), Decidable (RoundsJoin path now ctx rs)
  | _, [] => isTrue trivial
  | ctx, (env, received) :: rest => by
    unfold RoundsJoin
    exact match fccReceive path now ctx env received with
      | (_, some _) => inferInstanceAs (Decidable (_ ∧ True))
      | (ctx, none) =>
        have := RoundsJoin.decidable path now ctx rest
        inferInstanceAs (Decidable (_ ∧ _))

instance FallbackJoins.decidable (path : MediaPath σ) (ctx : FccContext σ) :
    ∀ input, Decidable (FallbackJoins path ctx input)
  | .fcc _ _ => inferInstanceAs (Decidable (_ → _))
  | .mcast .. => isTrue trivial
  | .tick _ _ => inferInstanceAs (Decidable (_ → _))

/-! ### The state after each function -/

section After

variable {ctx : FccContext σ} {path : MediaPath σ} {env : FccEnv} {now : Int}

theorem fccInitializeAndRequest_state (h : ctx.fcc.state ≠ .mcastActive) :
    (fccInitializeAndRequest ctx env).1.fcc.state ≠ .mcastActive := by
  unfold fccInitializeAndRequest
  obtain ⟨ctx₁, opened, hctx₁, hstate⟩ : ∃ ctx₁ opened,
      (if ¬ ctx.fcc.fccSock then fccOpenSockets ctx env else (ctx, 0)) = (ctx₁, opened) ∧
        ctx₁.fcc.state ≠ .mcastActive := by
    split
    · exact ⟨_, _, rfl, FccMoved.fccOpenSockets.2.1.trans_ne h⟩
    · exact ⟨_, _, rfl, h⟩
  rw [hctx₁]
  dsimp only
  split
  · exact hstate
  · unfold fccRequest
    split
    · exact hstate
    · dsimp only
      cases env.sendtoTriple with
      | false => exact hstate
      | true =>
        show (FccContext.setState _ .requested).fcc.state ≠ .mcastActive
        rw [FccContext.setState_state]
        nofun

end After

/-! ### Runs -/

/-- Multicast can be joined, and is when a termination message was sent. -/
structure McastReady (ctx : FccContext σ) : Prop where
  initialized : ctx.mcast.initialized = true
  terminated : ctx.fcc.fccTermSent = true → ctx.mcast.sock = true

section Rounds

variable {k : Nat} {ctx ctx' : FccContext σ} {path : MediaPath σ} {config : McastConfig} {now : Int}

theorem McastReady.moved (h : McastReady ctx) (hmoved : FccMoved k ctx ctx') : McastReady ctx' :=
  ⟨hmoved.initialized.trans h.initialized, fun ht => (hmoved.terminated ht).elim (fun ht => hmoved.sock (h.terminated ht)) id⟩

theorem McastReady.setState (h : McastReady ctx) (s : FccState) : McastReady (ctx.setState s) := by
  unfold FccContext.setState
  split
  · exact h
  · exact ⟨h.initialized, h.terminated⟩

end Rounds

theorem McastReady.start (path : MediaPath σ) (type : FccType) (fccAddr : SockAddrIn) (media : σ)
    (heap : Nat → PacketBuffer) (env : FccEnv) : McastReady (streamStartFcc type fccAddr media heap env).1 ∧
      Secured path (streamStartFcc type fccAddr media heap env).1 := by
  have hblank : McastReady (⟨fccSessionInit type, mcastSessionInit, fccAddr, media, heap, 0, [], []⟩ : FccContext σ) :=
    ⟨rfl, nofun⟩
  refine ⟨?_, fun hactive => absurd hactive (fccInitializeAndRequest_state nofun)⟩
  unfold streamStartFcc fccInitializeAndRequest
  rw [if_pos (by simp [fccSessionInit])]
  have hopened := hblank.moved (@FccMoved.fccOpenSockets _ _ env).1
  generalize fccOpenSockets _ env = opened at hopened ⊢
  obtain ⟨ctx, r⟩ := opened
  dsimp only at hopened ⊢
  split
  · exact hopened
  · unfold fccRequest
    split
    · exact hopened
    · cases env.sendtoTriple with
      | false => exact ⟨hopened.initialized, hopened.terminated⟩
      | true =>
        have hrequest : McastReady ((ctx.emit .request).fccDataAt env.time) := ⟨hopened.initialized, hopened.terminated⟩
        exact hrequest.setState .requested

/-- The system's answers at a time, with joins that succeed or fail. -/
def FccEnv.at (time : Int) (joins : Bool) : FccEnv := ⟨time, joins, true, true, true, true, true, true⟩

end Rtp2httpd
