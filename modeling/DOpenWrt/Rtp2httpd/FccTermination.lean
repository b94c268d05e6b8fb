import DOpenWrt.Rtp2httpd.FccProgress

/-!
# The termination message of a channel change

The server is told at which packet multicast begins. The number 0 stands for a stop without one in both formats, and
for a packet without a number in `fcc_handle_mcast_transition`, although it is a number like any other.
-/

namespace Rtp2httpd

variable {σ : Type}

/-! ### The packets (`fcc_telecom.c`, `fcc_huawei.c`) -/

def fccFmtTelecomTerm : UInt8 := 5
def fccFmtHuaweiTerm : UInt8 := 9

def netBytes16 (x : BitVec 16) : List UInt8 := [UInt8.ofNat (x.toNat / 256), UInt8.ofNat x.toNat]

def netBytes32 (x : BitVec 32) : List UInt8 := netBytes16 (x.extractLsb' 16 16) ++ netBytes16 (x.extractLsb' 0 16)

def buildFccTermPkTelecom (maddr : SockAddrIn) (seqn : BitVec 16) : List UInt8 :=
  [0x80 ||| fccFmtTelecomTerm, 205] ++ netBytes16 3 ++ [0, 0, 0, 0] ++ netBytes32 maddr.addr ++
    [if seqn ≠ 0 then 0 else 1, 0] ++ netBytes16 seqn

def buildFccTermPkHuawei (maddr : SockAddrIn) (seqn : BitVec 16) : List UInt8 :=
  [0x80 ||| fccFmtHuaweiTerm, 205] ++ netBytes16 3 ++ [0, 0, 0, 0] ++ netBytes32 maddr.addr ++
    if seqn.toNat > 0 then [0x01, 0x00] ++ netBytes16 seqn else [0x02, 0x00, 0, 0]

/-- The packet `fcc_send_term_packet` sends. -/
def fccTermPk (type : FccType) (maddr : SockAddrIn) (seqn : BitVec 16) : List UInt8 :=
  match type with
  | .huawei => buildFccTermPkHuawei maddr seqn
  | .telecom => buildFccTermPkTelecom maddr seqn

/-- Stop bit 0, or status 0x01. -/
def normalStop : FccType → UInt8
  | .telecom => 0
  | .huawei => 0x01

/-- A normal stop, with the number of the first multicast packet the server need not send. -/
def IsNormalStop (type : FccType) (pk : List UInt8) (seqn : BitVec 16) : Prop :=
  pk[12]? = some (normalStop type) ∧ pk.drop 14 = netBytes16 seqn

/-- The number 0 is what makes a stop a forced one. -/
theorem fccTermPk_normal_iff (type : FccType) (maddr : SockAddrIn) (seqn : BitVec 16) :
    IsNormalStop type (fccTermPk type maddr seqn) seqn ↔ seqn ≠ 0 := by
  rcases eq_or_ne seqn 0 with rfl | h
  · cases type <;> simp [IsNormalStop, normalStop, fccTermPk, buildFccTermPkTelecom, buildFccTermPkHuawei, netBytes16,
      netBytes32]
  · have hpos : seqn.toNat > 0 := Nat.pos_of_ne_zero fun h0 => h (BitVec.eq_of_toNat_eq h0)
    refine iff_of_true ?_ h
    cases type with
    | telecom =>
      rw [fccTermPk, buildFccTermPkTelecom, if_pos h]
      exact ⟨rfl, rfl⟩
    | huawei =>
      rw [fccTermPk, buildFccTermPkHuawei, if_pos hpos]
      exact ⟨rfl, rfl⟩

/-! ### What only the transition touches -/

/-- Whether a message was sent in normal flow, with which number, and the messages of normal flow in the log. -/
def FccContext.term (ctx : FccContext σ) : Bool × BitVec 16 × List FccEvent :=
  (ctx.fcc.fccTermSent, ctx.fcc.fccTermSeqn, ctx.log.filter FccEvent.isTerminate)

section
variable {ctx : FccContext σ} {env : FccEnv} {path : MediaPath σ} {now : Int}

theorem term_emit {e : FccEvent} (h : e.isTerminate = false) : (ctx.emit e).term = ctx.term := by
  simp [FccContext.term, FccContext.emit, h]

theorem term_setState (s : FccState) : (ctx.setState s).term = ctx.term := by
  unfold FccContext.setState
  split
  · rfl
  · exact term_emit rfl

theorem term_process (path : MediaPath σ) (ref : Nat) (origin : MediaOrigin) :
    (ctx.process path ref origin).term = ctx.term := term_emit rfl

theorem term_mcastSessionJoin : (mcastSessionJoin ctx env).1.term = ctx.term := by
  unfold mcastSessionJoin
  split
  · rfl
  split
  · rfl
  split <;> exact term_emit rfl

theorem term_fallBackToMulticast : (fallBackToMulticast ctx env).term = ctx.term :=
  term_mcastSessionJoin.trans (term_setState _)

theorem term_fccHandleSyncNotification : (fccHandleSyncNotification ctx env).term = ctx.term := by
  unfold fccHandleSyncNotification
  split
  · rfl
  · exact term_mcastSessionJoin.trans (term_setState _)

theorem term_fccHandleUnicastMedia (ref : Nat) : (fccHandleUnicastMedia path ctx ref).term = ctx.term := by
  unfold fccHandleUnicastMedia
  split
  · rfl
  dsimp only
  have hactive : (if ctx.fcc.state = .unicastPending then ctx.setState .unicastActive else ctx).term = ctx.term := by
    split
    · exact term_setState _
    · rfl
  generalize (if ctx.fcc.state = .unicastPending then ctx.setState .unicastActive else ctx) = ctx₁ at hactive ⊢
  have hprocess : (ctx₁.process path ref .fccUnicast).term = _ := (term_process path ref .fccUnicast).trans hactive
  split
  · split
    · exact (term_setState _).trans hprocess
    · exact hprocess
  · exact hprocess

theorem term_flushPending {fuel : Nat} {node : Option Nat} : (flushPending path fuel node ctx).term = ctx.term := by
  induction fuel generalizing node ctx with
  | zero => rfl
  | succ fuel ih =>
    cases node with
    | none => rfl
    | some node => exact ih.trans (term_process path node .fccMulticast)

theorem term_fccHandleMcastActive (ref : Nat) : (fccHandleMcastActive path ctx ref).term = ctx.term := by
  unfold fccHandleMcastActive
  refine (term_process _ _ _).trans ?_
  split
  · rfl
  · exact term_flushPending

/-! ### Messages of the server -/

theorem term_fccRedirect (server : SockAddrIn) (verify : Bool) :
    (fccRedirect ctx env server verify).1.term = ctx.term := by
  unfold fccRedirect
  dsimp only
  split
  · exact term_fallBackToMulticast
  · exact term_setState _

theorem term_fccAwaitUnicast : (fccAwaitUnicast ctx env).term = ctx.term := term_setState _

theorem term_fccTelecomAccept (mediaPortChanged signalPortChanged : Bool) :
    (fccTelecomAccept ctx env mediaPortChanged signalPortChanged).term = ctx.term := by
  unfold fccTelecomAccept
  refine term_fccAwaitUnicast.trans ?_
  split <;> split
  · exact (term_emit rfl).trans (term_emit rfl)
  · exact term_emit rfl
  · exact term_emit rfl
  · rfl

theorem term_fccTelecomResponse (buf : List UInt8) : (fccTelecomResponse ctx env buf).1.term = ctx.term := by
  unfold fccTelecomResponse
  dsimp only
  split
  · exact term_fallBackToMulticast
  split
  · rfl
  have hupdate : (fccTelecomUpdateEndpoints ctx buf).term = ctx.term := rfl
  split
  · exact term_fallBackToMulticast.trans hupdate
  split
  · exact (term_fccTelecomAccept _ _).trans hupdate
  split
  · exact (term_fccRedirect _ _).trans hupdate
  · exact term_fallBackToMulticast.trans hupdate

theorem term_fccTelecomHandleServerResponse (buf : List UInt8) :
    (fccTelecomHandleServerResponse ctx env buf).1.term = ctx.term := by
  unfold fccTelecomHandleServerResponse
  dsimp only
  repeat' split
  all_goals first | rfl | exact term_fccHandleSyncNotification | exact term_fccTelecomResponse buf

theorem term_fccHuaweiNat (buf : List UInt8) : (fccHuaweiNat ctx buf).term = ctx.term := by
  unfold fccHuaweiNat
  dsimp only
  split
  · exact term_emit rfl
  · rfl

theorem term_fccHuaweiResponse (buf : List UInt8) : (fccHuaweiResponse ctx env buf).1.term = ctx.term := by
  unfold fccHuaweiResponse
  dsimp only
  split
  · exact term_fallBackToMulticast
  split
  · exact term_fallBackToMulticast
  split
  · split
    · exact term_fallBackToMulticast
    · refine term_fccAwaitUnicast.trans ?_
      split
      · exact term_fccHuaweiNat buf
      · rfl
  split
  · split
    · exact term_fallBackToMulticast
    split
    · rfl
    · exact term_fccRedirect _ _
  · exact term_fallBackToMulticast

theorem term_fccHuaweiHandleServerResponse (buf : List UInt8) :
    (fccHuaweiHandleServerResponse ctx env buf).1.term = ctx.term := by
  unfold fccHuaweiHandleServerResponse
  dsimp only
  repeat' split
  all_goals first | rfl | exact term_fccHandleSyncNotification | exact term_fccHuaweiResponse buf

theorem term_fccHandleServerResponse (buf : List UInt8) : (fccHandleServerResponse ctx env buf).1.term = ctx.term := by
  unfold fccHandleServerResponse
  split
  · exact term_fccHuaweiHandleServerResponse buf
  · exact term_fccTelecomHandleServerResponse buf

theorem term_fccOpenSockets : (fccOpenSockets ctx env).1.term = ctx.term := by
  unfold fccOpenSockets
  repeat' split
  all_goals rfl

theorem term_fccInitializeAndRequest : (fccInitializeAndRequest ctx env).1.term = ctx.term := by
  unfold fccInitializeAndRequest
  have hopened : (if ¬ ctx.fcc.fccSock then fccOpenSockets ctx env else (ctx, 0)).1.term = ctx.term := by
    split
    · exact term_fccOpenSockets
    · rfl
  generalize (if ¬ ctx.fcc.fccSock then fccOpenSockets ctx env else (ctx, 0)) = opened at hopened ⊢
  obtain ⟨ctx₁, r⟩ := opened
  dsimp only at hopened ⊢
  split
  · exact hopened
  · unfold fccRequest
    split
    · exact hopened
    · have hrequest : (ctx₁.emit .request).term = ctx.term := (term_emit rfl).trans hopened
      cases env.sendtoTriple with
      | false => exact hrequest
      | true => exact (term_setState _).trans hrequest

theorem term_fccReceive (received : Received) : (fccReceive path now ctx env received).1.term = ctx.term := by
  cases received with
  | exhausted => rfl
  | packet peer ref data =>
    unfold fccReceive
    dsimp only
    split
    · rfl
    · have hreceived : ((ctx.receive ref data).fccDataAt now).term = ctx.term := rfl
      generalize (ctx.receive ref data).fccDataAt now = ctx₁ at hreceived ⊢
      split
      · have hanswer : (fccHandleServerResponse ctx₁ env data).1.term = ctx₁.term := term_fccHandleServerResponse data
        generalize fccHandleServerResponse ctx₁ env data = out at hanswer ⊢
        obtain ⟨ctx₂, res⟩ := out
        dsimp only at hanswer ⊢
        split
        · exact (term_fccInitializeAndRequest.trans hanswer).trans hreceived
        · exact hanswer.trans hreceived
      · exact (term_fccHandleUnicastMedia ref).trans hreceived

theorem term_fccHandleSocketEvent (received : List (FccEnv × Received)) :
    (fccHandleSocketEvent path now received ctx).1.term = ctx.term := by
  induction received generalizing ctx with
  | nil => rfl
  | cons x rest ih =>
    have hround : (fccReceive path now ctx x.1 x.2).1.term = ctx.term := term_fccReceive x.2
    unfold fccHandleSocketEvent
    split
    · next heq =>
      rw [heq] at hround
      exact hround
    · next heq =>
      rw [heq] at hround
      exact ih.trans hround

theorem term_fccSessionTick : (fccSessionTick ctx env now).term = ctx.term := by
  unfold fccSessionTick
  dsimp only
  split
  · rfl
  split
  · split
    · exact term_fallBackToMulticast
    · rfl
  split
  · have hfall : (if now - ctx.fcc.lastDataTime ≥ fccTimeoutUnicastMs then fallBackToMulticast ctx env
        else ctx).term = ctx.term := by
      split
      · exact term_fallBackToMulticast
      · rfl
    generalize (if now - ctx.fcc.lastDataTime ≥ fccTimeoutUnicastMs then fallBackToMulticast ctx env
      else ctx) = ctx₁ at hfall ⊢
    split
    · exact term_fccHandleSyncNotification.trans hfall
    · exact hfall
  · rfl

theorem term_snapshotTick : (snapshotTick path ctx now).term = ctx.term := by
  unfold snapshotTick
  split
  · rfl
  · split
    · split
      · exact term_emit rfl
      · rfl
    · rfl

theorem term_streamTick (config : McastConfig) : (streamTick path config ctx env now).1.term = ctx.term := by
  unfold streamTick
  dsimp only
  split
  · rfl
  · exact term_snapshotTick.trans term_fccSessionTick

theorem term_pendingListAdd (ref : Nat) : (pendingListAdd ctx ref).term = ctx.term := by
  unfold pendingListAdd
  dsimp only
  split <;> rfl

theorem pendingListAdd_count (ref : Nat) : (pendingListAdd ctx ref).pendingCount = ctx.pendingCount + 1 := by
  unfold pendingListAdd
  dsimp only
  split <;> rfl

end

/-! ### What comes into the pending list -/

/-- The number of an RTP media packet. -/
def mediaSeqn (data : List UInt8) : Option (BitVec 16) :=
  match rtpGetPayload data with
  | .ok (.rtp _ _ seqn) => some seqn
  | _ => none

/-- A packet without a number is taken to have the number 0. -/
theorem transitionSeqn_eq {data : List UInt8} {seqn : BitVec 16} (h : transitionSeqn data = some seqn) :
    seqn = (mediaSeqn data).getD 0 := by
  unfold transitionSeqn at h
  unfold mediaSeqn
  split at h
  · next heq =>
    rw [heq]
    exact (Option.some.inj h).symm
  · next heq =>
    rw [heq]
    exact (Option.some.inj h).symm
  · next heq =>
    rw [heq]
    exact (Option.some.inj h).symm
  · cases h
  · cases h

/-- The packet that the transition puts into the list. -/
def transitionAdded (ctx : FccContext σ) (env : FccEnv) (ref : Nat) : List (List UInt8) :=
  if (fccHandleMcastTransition ctx env ref).1.pendingCount = ctx.pendingCount then [] else [(ctx.heap ref).packet]

def mcastReceiveAdded (now : Int) (ctx : FccContext σ) (env : FccEnv) : Received → List (List UInt8)
  | .exhausted => []
  | .packet _ ref data =>
    let ctx := (ctx.receive ref data).mcastDataAt now
    if ctx.fcc.initialized ∧ ctx.fcc.state = .mcastRequested then transitionAdded ctx env ref else []

def mcastEventAdded (path : MediaPath σ) (now : Int) : List (FccEnv × Received) → FccContext σ → List (List UInt8)
  | [], _ => []
  | (env, received) :: rest, ctx =>
    mcastReceiveAdded now ctx env received ++
      match mcastReceive path now ctx env received with
      | (_, some _) => []
      | (ctx, none) => mcastEventAdded path now rest ctx

def stepAdded (path : MediaPath σ) (ctx : FccContext σ) : FccInput → List (List UInt8)
  | .mcast now received =>
    if ctx.mcast.initialized ∧ ctx.mcast.sock then mcastEventAdded path now received ctx else []
  | .fcc _ _ => []
  | .tick _ _ => []

/-- The packets that come into the list in a run, the oldest first. -/
def runAdded (path : MediaPath σ) (config : McastConfig) : List FccInput → FccContext σ → List (List UInt8)
  | [], _ => []
  | input :: inputs, ctx => stepAdded path ctx input ++ runAdded path config inputs (fccStep path config ctx input)

/-! ### The message is for the first packet of the list -/

/-- One message goes with the first packet of the list, and has the number that packet is taken to have. -/
def TermInv : Bool × BitVec 16 × List FccEvent → List (List UInt8) → Prop
  | (false, _, terms), added => terms = [] ∧ added = []
  | (true, seqn, terms), added =>
    terms = [.terminate (seqn + 2)] ∧ ∃ data rest, added = data :: rest ∧ transitionSeqn data = some seqn

section
variable {ctx : FccContext σ} {env : FccEnv} {path : MediaPath σ} {now : Int} {added : List (List UInt8)}

/-- More packets change nothing once there is a message. -/
theorem TermInv.append (h : TermInv ctx.term added) (hsent : ctx.fcc.fccTermSent = true) (more : List (List UInt8)) :
    TermInv ctx.term (added ++ more) := by
  unfold FccContext.term at h ⊢
  rw [hsent] at h ⊢
  obtain ⟨hterms, data, rest, rfl, hdata⟩ := h
  exact ⟨hterms, data, rest ++ more, rfl, hdata⟩

/-- The first message of normal flow, if it can be sent. -/
theorem fccSendTerminationMessage_unsent (hsent : ctx.fcc.fccTermSent = false) (seqn : BitVec 16) :
    (fccSendTerminationMessage ctx env seqn).1.pendingCount = ctx.pendingCount ∧
      ((fccSendTerminationMessage ctx env seqn).2 = -1 ∧
          (fccSendTerminationMessage ctx env seqn).1.term = (false, seqn, ctx.term.2.2) ∨
        (fccSendTerminationMessage ctx env seqn).2 = 0 ∧
          (fccSendTerminationMessage ctx env seqn).1.term = (true, seqn, ctx.term.2.2 ++ [.terminate (seqn + 2)])) := by
  unfold fccSendTerminationMessage
  rw [if_pos (by rw [hsent]; exact Bool.false_ne_true)]
  dsimp only
  split
  · refine ⟨rfl, .inr ⟨rfl, ?_⟩⟩
    simp [FccContext.term, FccContext.emit, FccEvent.isTerminate]
  · exact ⟨rfl, .inl ⟨rfl, by rw [← hsent]; rfl⟩⟩

theorem TermInv.fccHandleMcastTransition (h : TermInv ctx.term added) (ref : Nat) :
    TermInv (fccHandleMcastTransition ctx env ref).1.term (added ++ transitionAdded ctx env ref) := by
  unfold transitionAdded Rtp2httpd.fccHandleMcastTransition
  cases hseqn : transitionSeqn (ctx.heap ref).packet with
  | none =>
    dsimp only
    rw [if_pos rfl, List.append_nil]
    exact h
  | some seqn =>
    dsimp only
    cases hsent : ctx.fcc.fccTermSent with
    | true =>
      simp only [not_true, if_false, lt_irrefl]
      rw [term_pendingListAdd]
      exact h.append hsent _
    | false =>
      obtain ⟨hcount, hmessage⟩ := @fccSendTerminationMessage_unsent _ _ env hsent seqn
      have hnothing : ctx.term.2.2 = [] ∧ added = [] := by
        unfold FccContext.term at h ⊢
        rw [hsent] at h
        exact h
      simp only [Bool.false_eq_true, not_false_eq_true, if_true]
      generalize fccSendTerminationMessage ctx env seqn = out at hcount hmessage ⊢
      obtain ⟨ctx₁, sent⟩ := out
      dsimp only at hcount hmessage ⊢
      rcases hmessage with ⟨rfl, hterm⟩ | ⟨rfl, hterm⟩
      · rw [if_pos (by decide)]
        dsimp only
        rw [if_pos hcount, hterm, hnothing.1, hnothing.2]
        exact ⟨rfl, rfl⟩
      · rw [if_neg (by decide)]
        dsimp only
        rw [if_neg (by rw [pendingListAdd_count]; omega), term_pendingListAdd, hterm, hnothing.1, hnothing.2]
        exact ⟨rfl, _, [], rfl, hseqn⟩

theorem TermInv.mcastReceive (h : TermInv ctx.term added) (received : Received) :
    TermInv (mcastReceive path now ctx env received).1.term (added ++ mcastReceiveAdded now ctx env received) := by
  cases received with
  | exhausted =>
    rw [mcastReceiveAdded, List.append_nil]
    exact h
  | packet peer ref data =>
    rw [Rtp2httpd.mcastReceive, mcastReceiveAdded]
    dsimp only
    replace h : TermInv ((ctx.receive ref data).mcastDataAt now).term added := h
    generalize (ctx.receive ref data).mcastDataAt now = ctx₁ at h ⊢
    by_cases hinit : ctx₁.fcc.initialized = true
    · rw [if_neg (not_not_intro hinit)]
      have hother {s : FccState} (hs : s ≠ .mcastRequested) :
          (if ctx₁.fcc.initialized = true ∧ s = .mcastRequested then transitionAdded ctx₁ env ref else []) = [] :=
        if_neg (hs ·.2)
      cases hstate : ctx₁.fcc.state with
      | mcastRequested =>
        rw [if_pos (show ctx₁.fcc.initialized = true ∧ FccState.mcastRequested = .mcastRequested from ⟨hinit, rfl⟩)]
        exact h.fccHandleMcastTransition ref
      | mcastActive =>
        rw [hother (s := .mcastActive) (by decide), List.append_nil]
        dsimp only
        rw [term_fccHandleMcastActive]
        exact h
      | _ =>
        rw [hother, List.append_nil]
        · exact h
        · decide
    · rw [if_pos hinit, if_neg (hinit ·.1), List.append_nil]
      dsimp only
      rw [term_process]
      exact h

theorem TermInv.mcastSessionHandleEventLoop (h : TermInv ctx.term added) (received : List (FccEnv × Received)) :
    TermInv (mcastSessionHandleEventLoop path now received ctx).1.term
      (added ++ mcastEventAdded path now received ctx) := by
  induction received generalizing ctx added with
  | nil =>
    rw [mcastEventAdded, List.append_nil]
    exact h
  | cons x rest ih =>
    have hround : TermInv (Rtp2httpd.mcastReceive path now ctx x.1 x.2).1.term (added ++ mcastReceiveAdded now ctx x.1 x.2) :=
      h.mcastReceive x.2
    rw [Rtp2httpd.mcastSessionHandleEventLoop, mcastEventAdded, ← List.append_assoc]
    cases heq : Rtp2httpd.mcastReceive path now ctx x.1 x.2 with
    | mk ctx₁ r =>
      rw [heq] at hround
      cases r with
      | some r =>
        rw [List.append_nil]
        exact hround
      | none => exact ih hround

theorem TermInv.fccStep (h : TermInv ctx.term added) (config : McastConfig) (input : FccInput) :
    TermInv (fccStep path config ctx input).term (added ++ stepAdded path ctx input) := by
  cases input with
  | fcc now received =>
    rw [Rtp2httpd.fccStep, stepAdded, List.append_nil]
    split
    · rw [term_fccHandleSocketEvent]
      exact h
    · exact h
  | mcast now received =>
    rw [Rtp2httpd.fccStep, stepAdded]
    split
    · next hjoined =>
      rw [mcastSessionHandleEvent, if_neg (by rw [not_or]; exact ⟨not_not_intro hjoined.1, not_not_intro hjoined.2⟩)]
      exact h.mcastSessionHandleEventLoop received
    · rw [List.append_nil]
      exact h
  | tick now env =>
    rw [Rtp2httpd.fccStep, stepAdded, List.append_nil, term_streamTick]
    exact h

theorem TermInv.run (h : TermInv ctx.term added) (config : McastConfig) (inputs : List FccInput) :
    TermInv (inputs.foldl (Rtp2httpd.fccStep path config) ctx).term (added ++ runAdded path config inputs ctx) := by
  induction inputs generalizing ctx added with
  | nil =>
    rw [runAdded, List.append_nil]
    exact h
  | cons input inputs ih =>
    rw [runAdded, ← List.append_assoc]
    exact ih (h.fccStep config input)

theorem TermInv.start (type : FccType) (fccAddr : SockAddrIn) (media : σ) (heap : Nat → PacketBuffer) :
    TermInv (streamStartFcc type fccAddr media heap env).1.term [] := by
  unfold streamStartFcc
  rw [term_fccInitializeAndRequest]
  exact ⟨rfl, rfl⟩

end

/-! ### The message and the first media packet -/

/-- A message of normal flow is a normal stop, and names the first media packet of the list. -/
structure NamesFirstMedia (ctx : FccContext σ) (added : List (List UInt8)) : Prop where
  normal : ∀ n, .terminate n ∈ ctx.log → ∀ type maddr, IsNormalStop type (fccTermPk type maddr n) n
  first : ∀ n s, .terminate n ∈ ctx.log → added.findSome? mediaSeqn = some s → n = s + 2 ∧ ctx.fcc.fccTermSeqn = s

/-- The first packet of the list is a media packet whose number leads to no 0, or the media packets after it begin
with the number 0. -/
def FirstIsMedia : List (List UInt8) → Prop
  | [] => True
  | data :: rest =>
    match mediaSeqn data with
    | some s => s ≠ 65534
    | none => ∀ s, rest.findSome? mediaSeqn = some s → s = 0

/-- In a run the message names the first media packet of the list exactly if that is the first packet of the list and
not numbered 65534, or the 0 of a packet without a number happens to be right. -/
theorem fccTermination_names_iff (path : MediaPath σ) (config : McastConfig) (type : FccType) (fccAddr : SockAddrIn)
    (media : σ) (heap : Nat → PacketBuffer) (env : FccEnv) (inputs : List FccInput) :
    let start := (streamStartFcc type fccAddr media heap env).1
    NamesFirstMedia (inputs.foldl (fccStep path config) start) (runAdded path config inputs start) ↔
      FirstIsMedia (runAdded path config inputs start) := by
  intro start
  have hinv : TermInv (inputs.foldl (fccStep path config) start).term ([] ++ runAdded path config inputs start) :=
    (TermInv.start type fccAddr media heap).run config inputs
  rw [List.nil_append] at hinv
  generalize inputs.foldl (fccStep path config) start = ctx at hinv ⊢
  generalize runAdded path config inputs start = added at hinv ⊢
  have hlog (n : BitVec 16) : .terminate n ∈ ctx.log ↔ .terminate n ∈ ctx.log.filter FccEvent.isTerminate := by
    rw [List.mem_filter]
    exact (and_iff_left rfl).symm
  unfold FccContext.term at hinv
  cases hsent : ctx.fcc.fccTermSent with
  | false =>
    rw [hsent] at hinv
    obtain ⟨hterms, rfl⟩ := hinv
    rw [hterms] at hlog
    exact iff_of_true ⟨fun n hn => absurd ((hlog n).1 hn) List.not_mem_nil, nofun⟩ trivial
  | true =>
    rw [hsent] at hinv
    obtain ⟨hterms, data, rest, rfl, hdata⟩ := hinv
    simp only [hterms, List.mem_singleton, FccEvent.terminate.injEq] at hlog
    have hseqn := transitionSeqn_eq hdata
    have hnames : NamesFirstMedia ctx (data :: rest) ↔ ctx.fcc.fccTermSeqn + 2 ≠ 0 ∧
        ∀ s, (data :: rest).findSome? mediaSeqn = some s → ctx.fcc.fccTermSeqn = s := by
      constructor
      · intro h
        have hmem := (hlog (ctx.fcc.fccTermSeqn + 2)).2 rfl
        exact ⟨(fccTermPk_normal_iff .telecom fccAddr _).1 (h.normal _ hmem .telecom fccAddr),
          fun s hs => (h.first _ s hmem hs).2⟩
      · rintro ⟨hne, hfirst⟩
        refine ⟨fun n hn type maddr => ?_, fun n s hn hs => ?_⟩
        · rw [(hlog n).1 hn]
          exact (fccTermPk_normal_iff type maddr _).2 hne
        · rw [(hlog n).1 hn, hfirst s hs]
          exact ⟨rfl, rfl⟩
    rw [hnames, FirstIsMedia, List.findSome?_cons, hseqn]
    cases mediaSeqn data with
    | some s =>
      simp only [Option.getD_some, Option.some.injEq, forall_eq', and_true]
      exact not_congr ⟨fun h => by bv_omega, fun h => by rw [h]; rfl⟩
    | none =>
      simp only [Option.getD_none]
      exact ⟨fun h s hs => (h.2 s hs).symm, fun h => ⟨by decide, fun s hs => (h s hs).symm⟩⟩

/-! ### Runs in which it does not -/

/-- Everything succeeds. -/
def fccEnvAll : FccEnv := ⟨0, true, true, true, true, true, true, true⟩

/-- The server asks to join, then the packets arrive. -/
def transitionInputs (packets : List (List UInt8)) : List FccInput :=
  [.fcc 0 [(fccEnvAll, .packet 0 0 [0x84, 205, 0, 2, 0, 0, 0, 0, 0, 0, 0, 0])],
    .mcast 0 (packets.mapIdx fun i data => (fccEnvAll, .packet 0 (i + 1) data))]

/-- A packet of 13 bytes, with its payload type and number. -/
def rtpPacket (payloadType hi lo : UInt8) : List UInt8 := [0x80, payloadType, hi, lo, 0, 0, 0, 0, 0, 0, 0, 0, 0x47]

/-- A media path that does nothing. -/
def quietPath : MediaPath Unit :=
  .withoutSnapshot (fun s heap _ _ => (s, heap)) (fun _ => .collecting) fun _ => 0

def quietStart : FccContext Unit := (streamStartFcc .telecom ⟨0, 0⟩ () (fun _ => ⟨[], 0, 0, none⟩) fccEnvAll).1

def transitionCtx (packets : List (List UInt8)) : FccContext Unit :=
  (transitionInputs packets).foldl (fccStep quietPath ⟨0, true⟩) quietStart

/-- The number 65534 leads to a forced stop, and the number of a parity packet is taken to be 0. -/
theorem fccTermination_not_names :
    ¬ NamesFirstMedia (transitionCtx [rtpPacket 33 0xFF 0xFE])
        (runAdded quietPath ⟨0, true⟩ (transitionInputs [rtpPacket 33 0xFF 0xFE]) quietStart) ∧
      ¬ NamesFirstMedia (transitionCtx [rtpPacket 127 0 9, rtpPacket 33 0 5])
        (runAdded quietPath ⟨0, true⟩ (transitionInputs [rtpPacket 127 0 9, rtpPacket 33 0 5]) quietStart) := by
  constructor
  · intro h
    have hforced : FccEvent.terminate 0 ∈ (transitionCtx [rtpPacket 33 0xFF 0xFE]).log := by decide
    exact absurd rfl ((fccTermPk_normal_iff .telecom ⟨0, 0⟩ 0).1 (h.normal 0 hforced .telecom ⟨0, 0⟩))
  · intro h
    have hparity : FccEvent.terminate 2 ∈ (transitionCtx [rtpPacket 127 0 9, rtpPacket 33 0 5]).log := by decide
    exact absurd (h.first 2 5 hparity (by decide)).1 (by decide)

end Rtp2httpd
