import DOpenWrt.Rtp2httpd.FccServer

/-!
# Progress of the FCC session

What any function of the session may do, whatever it receives: `FccMoved`. It gives the order of the states in the
log, the number of requests and that of termination messages.
-/

namespace Rtp2httpd

variable {σ : Type}

/-! ### Logs -/

def FccState.after (s : FccState) : FccEvent → FccState
  | .enter t => t
  | _ => s

/-- What may happen once multicast is active. -/
def FccEvent.Harmless : FccEvent → Prop
  | .enter _ => False
  | .media _ .fccUnicast => False
  | _ => True

/-- The events lead from `s` to `s'`, and none of them is harmful while multicast is active. -/
def FccPath : FccState → List FccEvent → FccState → Prop
  | s, [], s' => s = s'
  | s, e :: es, s' => (s = .mcastActive → e.Harmless) ∧ FccPath (s.after e) es s'

theorem FccPath.append {s t u : FccState} {es fs : List FccEvent} (h : FccPath s es t) (h' : FccPath t fs u) :
    FccPath s (es ++ fs) u := by
  induction es generalizing s with
  | nil =>
    cases h
    exact h'
  | cons e es ih => exact ⟨h.1, ih h.2⟩

theorem FccPath.of_append {s u : FccState} {es fs : List FccEvent} (h : FccPath s (es ++ fs) u) :
    ∃ t, FccPath s es t ∧ FccPath t fs u := by
  induction es generalizing s with
  | nil => exact ⟨s, rfl, h⟩
  | cons e es ih =>
    obtain ⟨t, ht, hu⟩ := ih h.2
    exact ⟨t, ⟨h.1, ht⟩, hu⟩

theorem FccState.after_harmless {s : FccState} {e : FccEvent} (h : e.Harmless) : s.after e = s := by
  cases e with
  | enter t => exact h.elim
  | _ => rfl

/-- From the active state on nothing harmful happens, and the state stays. -/
theorem FccPath.active {s' : FccState} {es : List FccEvent} (h : FccPath .mcastActive es s') :
    s' = .mcastActive ∧ ∀ e ∈ es, e.Harmless := by
  induction es with
  | nil => exact ⟨h.symm, nofun⟩
  | cons e es ih =>
    have he := h.1 rfl
    have htail := h.2
    rw [FccState.after_harmless he] at htail
    obtain ⟨hs, hall⟩ := ih htail
    exact ⟨hs, List.forall_mem_cons.2 ⟨he, hall⟩⟩

def FccEvent.isTerminate : FccEvent → Bool
  | .terminate _ => true
  | _ => false

theorem FccContext.setState_state (ctx : FccContext σ) (s : FccState) : (ctx.setState s).fcc.state = s := by
  unfold setState
  split
  · assumption
  · rfl

/-! ### Moves -/

/-- From `ctx` to `ctx'` the session did what it may: the state followed the log, a redirect allows one request, of
which `k` were not used, and a termination message was sent only if none had been and multicast is joined. Multicast is
not left, and it is not joined any more once it is active. -/
structure FccMoved (k : Nat) (ctx ctx' : FccContext σ) : Prop where
  log : ∃ added, ctx'.log = ctx.log ++ added ∧ FccPath ctx.fcc.state added ctx'.fcc.state ∧
    added.count .request + k + min ctx.fcc.redirectCount fccMaxRedirects ≤
      min ctx'.fcc.redirectCount fccMaxRedirects ∧
    added.countP FccEvent.isTerminate + ctx.fcc.fccTermSent.toNat ≤ ctx'.fcc.fccTermSent.toNat
  initialized : ctx'.mcast.initialized = ctx.mcast.initialized
  sock : ctx.mcast.sock = true → ctx'.mcast.sock = true
  active : ctx.fcc.state = .mcastActive → ctx'.mcast.sock = ctx.mcast.sock
  terminated : ctx'.fcc.fccTermSent = true → ctx.fcc.fccTermSent = true ∨ ctx'.mcast.sock = true

namespace FccMoved

variable {k j : Nat} {ctx ctx' ctx'' : FccContext σ} {path : MediaPath σ} {env : FccEnv}

theorem stays (h : FccMoved k ctx ctx') (hactive : ctx.fcc.state = .mcastActive) : ctx'.fcc.state = .mcastActive := by
  obtain ⟨es, -, hpath, -, -⟩ := h.log
  rw [hactive] at hpath
  exact hpath.active.1

theorem trans (h : FccMoved k ctx ctx') (h' : FccMoved j ctx' ctx'') : FccMoved (k + j) ctx ctx'' where
  log := by
    obtain ⟨es, hlog, hpath, hreq, hterm⟩ := h.log
    obtain ⟨fs, hlog', hpath', hreq', hterm'⟩ := h'.log
    refine ⟨es ++ fs, ?_, hpath.append hpath', ?_, ?_⟩
    · rw [hlog', hlog, List.append_assoc]
    · rw [List.count_append]
      omega
    · rw [List.countP_append]
      omega
  initialized := h'.initialized.trans h.initialized
  sock hs := h'.sock (h.sock hs)
  active ha := (h'.active (h.stays ha)).trans (h.active ha)
  terminated ht := (h'.terminated ht).elim (fun ht' => (h.terminated ht').imp_right h'.sock) .inr

theorem trans_zero (h : FccMoved k ctx ctx') (h' : FccMoved 0 ctx' ctx'') : FccMoved k ctx ctx'' := h.trans h'

/-- A change of what the log does not show. -/
theorem quiet (hlog : ctx'.log = ctx.log) (hstate : ctx'.fcc.state = ctx.fcc.state)
    (hredirect : ctx'.fcc.redirectCount = ctx.fcc.redirectCount) (hterm : ctx'.fcc.fccTermSent = ctx.fcc.fccTermSent)
    (hinit : ctx'.mcast.initialized = ctx.mcast.initialized) (hsock : ctx'.mcast.sock = ctx.mcast.sock) :
    FccMoved 0 ctx ctx' where
  log := by
    refine ⟨[], ?_, hstate.symm, ?_, ?_⟩
    · rw [hlog, List.append_nil]
    · simp [hredirect]
    · simp [hterm]
  initialized := hinit
  sock := hsock.trans
  active _ := hsock
  terminated ht := .inl (hterm.symm.trans ht)

theorem still : FccMoved 0 ctx ctx := quiet rfl rfl rfl rfl rfl rfl

/-- An event that is neither a request nor a termination message. -/
theorem event {e : FccEvent} (hlog : ctx'.log = ctx.log ++ [e]) (hstate : ctx'.fcc.state = ctx.fcc.state.after e)
    (hactive : ctx.fcc.state = .mcastActive → e.Harmless) (hreq : e ≠ .request) (hterm : e.isTerminate = false)
    (hredirect : ctx'.fcc.redirectCount = ctx.fcc.redirectCount)
    (hsent : ctx'.fcc.fccTermSent = ctx.fcc.fccTermSent) (hmcast : ctx'.mcast = ctx.mcast) : FccMoved 0 ctx ctx' where
  log := by
    refine ⟨[e], hlog, ⟨hactive, hstate.symm⟩, ?_, ?_⟩
    · rw [hredirect, List.count_singleton, beq_false_of_ne hreq]
      simp
    · rw [hsent, List.countP_singleton, hterm]
      simp
  initialized := by rw [hmcast]
  sock hs := by rwa [hmcast]
  active _ := by rw [hmcast]
  terminated ht := .inl (hsent.symm.trans ht)

theorem setState {s : FccState} (h : ctx.fcc.state ≠ .mcastActive) : FccMoved 0 ctx (ctx.setState s) := by
  unfold FccContext.setState
  split
  · exact still
  · exact event (e := .enter s) rfl rfl (fun ha => absurd ha h) nofun rfl rfl rfl rfl

theorem process {origin : MediaOrigin} {ref : Nat}
    (h : ctx.fcc.state = .mcastActive → (FccEvent.media ref origin).Harmless) :
    FccMoved 0 ctx (ctx.process path ref origin) :=
  event (e := .media ref origin) rfl rfl h nofun rfl rfl rfl rfl

/-- A join after a change of state, or in a state other than the last. -/
theorem mcastSessionJoin (h : FccMoved k ctx ctx') (hstate : ctx.fcc.state ≠ .mcastActive) :
    FccMoved k ctx (mcastSessionJoin ctx' env).1 := by
  obtain ⟨es, hlog, hpath, hreq, hterm⟩ := h.log
  have hjoin : ∀ b : Bool, ∃ added, (ctx'.emit (.join b)).log = ctx.log ++ added ∧
      FccPath ctx.fcc.state added ctx'.fcc.state ∧
      added.count .request + k + min ctx.fcc.redirectCount fccMaxRedirects ≤
        min ctx'.fcc.redirectCount fccMaxRedirects ∧
      added.countP FccEvent.isTerminate + ctx.fcc.fccTermSent.toNat ≤ ctx'.fcc.fccTermSent.toNat := fun b => by
    refine ⟨es ++ [.join b], ?_, hpath.append (show FccPath _ [.join b] _ from ⟨fun _ => trivial, rfl⟩), ?_, ?_⟩
    · simp [FccContext.emit, hlog]
    · rw [List.count_append]
      exact hreq
    · rw [List.countP_append]
      exact hterm
  unfold Rtp2httpd.mcastSessionJoin
  split
  · exact h
  · split
    · exact h
    · split
      · exact ⟨hjoin true, h.initialized, fun _ => rfl, fun ha => absurd ha hstate, fun _ => .inr rfl⟩
      · exact ⟨hjoin false, h.initialized, h.sock, fun ha => absurd ha hstate, h.terminated⟩

theorem fallBackToMulticast (h : ctx.fcc.state ≠ .mcastActive) : FccMoved 0 ctx (fallBackToMulticast ctx env) :=
  (setState h).mcastSessionJoin h

theorem fccHandleSyncNotification : FccMoved 0 ctx (fccHandleSyncNotification ctx env) := by
  unfold Rtp2httpd.fccHandleSyncNotification
  split
  · exact still
  · next h =>
    rw [not_or] at h
    exact (setState h.2).mcastSessionJoin h.2

/-! ### Media packets -/

theorem fccHandleUnicastMedia (ref : Nat) : FccMoved 0 ctx (fccHandleUnicastMedia path ctx ref) := by
  unfold Rtp2httpd.fccHandleUnicastMedia
  split
  · exact still
  · next hstate =>
    -- up to the call of `stream_process_rtp_payload`
    obtain ⟨ctx₁, hctx₁⟩ : ∃ ctx₁, ctx₁ = if ctx.fcc.state = .unicastPending then ctx.setState .unicastActive else ctx :=
      ⟨_, rfl⟩
    have hmoved : FccMoved 0 ctx ctx₁ ∧ ctx₁.fcc.state ≠ .mcastActive := by
      rw [hctx₁]
      split
      · exact ⟨setState hstate, by rw [FccContext.setState_state]; nofun⟩
      · exact ⟨still, hstate⟩
    dsimp only
    rw [← hctx₁]
    have hprocess : FccMoved 0 ctx (ctx₁.process path ref .fccUnicast) :=
      hmoved.1.trans_zero (process fun ha => absurd ha hmoved.2)
    split
    · next hcond =>
      split
      · exact hprocess.trans_zero (setState hcond.2.2)
      · exact hprocess
    · exact hprocess

theorem fccSendTerminationMessage (hsock : ctx.mcast.sock = true) (seqn : BitVec 16) :
    FccMoved 0 ctx (fccSendTerminationMessage ctx env seqn).1 := by
  unfold Rtp2httpd.fccSendTerminationMessage
  split
  · next hsent =>
    dsimp only
    split
    · refine ⟨⟨[.terminate (seqn + 2)], rfl, ⟨fun _ => trivial, rfl⟩, ?_, ?_⟩, rfl, id, fun _ => rfl, fun _ => .inr hsock⟩
      · simp [FccContext.emit]
      · rw [Bool.not_eq_true] at hsent
        simp [FccEvent.isTerminate, hsent, FccContext.emit]
    · exact quiet rfl rfl rfl rfl rfl rfl
  · exact still

theorem pendingListAdd (ref : Nat) : FccMoved 0 ctx (pendingListAdd ctx ref) := by
  unfold Rtp2httpd.pendingListAdd
  dsimp only
  split <;> exact quiet rfl rfl rfl rfl rfl rfl

theorem fccHandleMcastTransition (hsock : ctx.mcast.sock = true) (ref : Nat) :
    FccMoved 0 ctx (fccHandleMcastTransition ctx env ref).1 := by
  unfold Rtp2httpd.fccHandleMcastTransition
  split
  · exact still
  · next seqn _ =>
    obtain ⟨ctx₁, sent, hctx₁, hmoved⟩ : ∃ ctx₁ sent,
        (if ¬ ctx.fcc.fccTermSent then Rtp2httpd.fccSendTerminationMessage ctx env seqn else (ctx, 0)) = (ctx₁, sent) ∧
          FccMoved 0 ctx ctx₁ := by
      split
      · exact ⟨_, _, rfl, fccSendTerminationMessage hsock seqn⟩
      · exact ⟨_, _, rfl, still⟩
    rw [hctx₁]
    dsimp only
    split
    · exact hmoved
    · exact hmoved.trans_zero (pendingListAdd ref)

theorem flushPending {fuel : Nat} {node : Option Nat} : FccMoved 0 ctx (flushPending path fuel node ctx) := by
  induction fuel generalizing node ctx with
  | zero => exact still
  | succ fuel ih =>
    cases node with
    | none => exact still
    | some node =>
      have hprocess : FccMoved 0 ctx (ctx.process path node .fccMulticast) := process fun _ => trivial
      rw [Rtp2httpd.flushPending]
      refine (hprocess.trans_zero ?_).trans_zero ih
      exact quiet rfl rfl rfl rfl rfl rfl

theorem fccHandleMcastActive (ref : Nat) : FccMoved 0 ctx (fccHandleMcastActive path ctx ref) := by
  unfold Rtp2httpd.fccHandleMcastActive
  refine trans_zero ?_ (process fun _ => trivial)
  split
  · exact still
  · exact flushPending.trans_zero (quiet rfl rfl rfl rfl rfl rfl)

end FccMoved

/-! ### Messages of the server -/

/-- What the answer to a response may be: nothing more to do, or a redirect that allows one request. -/
def FccAnswered (ctx : FccContext σ) (out : FccContext σ × Int) : Prop :=
  out.2 = 0 ∧ FccMoved 0 ctx out.1 ∨ out.2 = 1 ∧ FccMoved 1 ctx out.1 ∧ out.1.fcc.state ≠ .mcastActive

namespace FccAnswered

variable {ctx ctx' : FccContext σ} {env : FccEnv} {out : FccContext σ × Int}

theorem done (h : FccMoved 0 ctx ctx') : FccAnswered ctx (ctx', 0) := .inl ⟨rfl, h⟩

theorem after (h : FccMoved 0 ctx ctx') (h' : FccAnswered ctx' out) : FccAnswered ctx out := by
  rcases h' with ⟨hres, hmoved⟩ | ⟨hres, hmoved, hstate⟩
  · exact .inl ⟨hres, h.trans hmoved⟩
  · refine .inr ⟨hres, ?_, hstate⟩
    have := h.trans hmoved
    rwa [Nat.zero_add] at this

theorem fccRedirect (hstate : ctx.fcc.state ≠ .mcastActive) (server : SockAddrIn) (verify : Bool) :
    FccAnswered ctx (fccRedirect ctx env server verify) := by
  unfold Rtp2httpd.fccRedirect
  dsimp only
  -- the count is raised before it is compared
  have hcount : FccMoved 0 ctx { ctx with fcc := { ctx.fcc with redirectCount := ctx.fcc.redirectCount + 1 } } := by
    refine ⟨⟨[], (List.append_nil _).symm, rfl, ?_, ?_⟩, rfl, id, fun _ => rfl, .inl⟩
    · simp only [List.count_nil]
      omega
    · simp
  split
  · exact done (hcount.trans_zero (.fallBackToMulticast hstate))
  · next hle =>
    refine .inr ⟨rfl, ?_, ?_⟩
    · have hallowed : FccMoved 1 ctx { ctx with
          fccAddr := server
          fcc := { ctx.fcc with redirectCount := ctx.fcc.redirectCount + 1, verifyServerIp := verify } } := by
        refine ⟨⟨[], (List.append_nil _).symm, rfl, ?_, ?_⟩, rfl, id, fun _ => rfl, .inl⟩
        · simp only [List.count_nil]
          omega
        · simp
      exact hallowed.trans_zero (.setState hstate)
    · rw [FccContext.setState_state]
      nofun

theorem fccAwaitUnicast (hstate : ctx.fcc.state ≠ .mcastActive) : FccMoved 0 ctx (fccAwaitUnicast ctx env) := by
  unfold Rtp2httpd.fccAwaitUnicast
  refine FccMoved.trans_zero ?_ (.setState hstate)
  exact .quiet rfl rfl rfl rfl rfl rfl

theorem fccTelecomAccept (hstate : ctx.fcc.state ≠ .mcastActive) (mediaPortChanged signalPortChanged : Bool) :
    FccMoved 0 ctx (fccTelecomAccept ctx env mediaPortChanged signalPortChanged) := by
  have hpunch : ∀ (c : FccContext σ) (dest : SockAddrIn), FccMoved 0 c (c.emit (.punch dest)) := fun c dest =>
    .event rfl rfl (fun _ => trivial) nofun rfl rfl rfl rfl
  unfold Rtp2httpd.fccTelecomAccept
  dsimp only
  split <;> split
  · exact ((hpunch ..).trans_zero (hpunch ..)).trans_zero (fccAwaitUnicast hstate)
  · exact (hpunch ..).trans_zero (fccAwaitUnicast hstate)
  · exact (hpunch ..).trans_zero (fccAwaitUnicast hstate)
  · exact fccAwaitUnicast hstate

theorem fccTelecomResponse (hstate : ctx.fcc.state ≠ .mcastActive) (buf : List UInt8) :
    FccAnswered ctx (fccTelecomResponse ctx env buf) := by
  unfold Rtp2httpd.fccTelecomResponse
  dsimp only
  split
  · exact done (.fallBackToMulticast hstate)
  · split
    · exact done .still
    · have hupdate : FccMoved 0 ctx (fccTelecomUpdateEndpoints ctx buf) := .quiet rfl rfl rfl rfl rfl rfl
      have hstate' : (fccTelecomUpdateEndpoints ctx buf).fcc.state ≠ .mcastActive := hstate
      refine after hupdate ?_
      split
      · exact done (.fallBackToMulticast hstate')
      · split
        · exact done (fccTelecomAccept hstate' ..)
        · split
          · exact fccRedirect hstate' ..
          · exact done (.fallBackToMulticast hstate')

theorem fccTelecomHandleServerResponse (buf : List UInt8) :
    FccAnswered ctx (fccTelecomHandleServerResponse ctx env buf) := by
  unfold Rtp2httpd.fccTelecomHandleServerResponse
  dsimp only
  split
  · exact done .still
  · split
    · exact done .fccHandleSyncNotification
    · split
      · split
        · exact done .still
        · split
          · exact done .still
          · next hrequested =>
            split
            · exact done .still
            · refine fccTelecomResponse (fun ha => ?_) buf
              rw [not_not] at hrequested
              rw [hrequested] at ha
              cases ha
      · exact done .still

theorem fccHuaweiNat (buf : List UInt8) : FccMoved 0 ctx (fccHuaweiNat ctx buf) := by
  unfold Rtp2httpd.fccHuaweiNat
  dsimp only
  split
  · exact .event rfl rfl (fun _ => trivial) nofun rfl rfl rfl rfl
  · exact .quiet rfl rfl rfl rfl rfl rfl

theorem fccHuaweiNat_state (buf : List UInt8) : (Rtp2httpd.fccHuaweiNat ctx buf).fcc.state = ctx.fcc.state := by
  unfold Rtp2httpd.fccHuaweiNat
  dsimp only
  split <;> rfl

theorem fccHuaweiResponse (hstate : ctx.fcc.state ≠ .mcastActive) (buf : List UInt8) :
    FccAnswered ctx (fccHuaweiResponse ctx env buf) := by
  unfold Rtp2httpd.fccHuaweiResponse
  dsimp only
  split
  · exact done (.fallBackToMulticast hstate)
  · split
    · exact done (.fallBackToMulticast hstate)
    · split
      · split
        · exact done (.fallBackToMulticast hstate)
        · obtain ⟨ctx₁, hctx₁, hmoved, hstate₁⟩ : ∃ ctx₁,
              ctx₁ = (if buf.length ≥ 36 then Rtp2httpd.fccHuaweiNat ctx buf else ctx) ∧ FccMoved 0 ctx ctx₁ ∧
                ctx₁.fcc.state ≠ .mcastActive := by
            refine ⟨_, rfl, ?_⟩
            split
            · exact ⟨fccHuaweiNat buf, by rwa [fccHuaweiNat_state]⟩
            · exact ⟨.still, hstate⟩
          rw [← hctx₁]
          exact done (hmoved.trans_zero (fccAwaitUnicast hstate₁))
      · split
        · split
          · exact done (.fallBackToMulticast hstate)
          · split
            · exact done .still
            · exact fccRedirect hstate ..
        · exact done (.fallBackToMulticast hstate)

theorem fccHuaweiHandleServerResponse (buf : List UInt8) :
    FccAnswered ctx (fccHuaweiHandleServerResponse ctx env buf) := by
  unfold Rtp2httpd.fccHuaweiHandleServerResponse
  dsimp only
  split
  · exact done .still
  · split
    · split
      · exact done .still
      · next hrequested =>
        split
        · exact done .still
        · split
          · exact done .still
          · refine fccHuaweiResponse (fun ha => ?_) buf
            rw [not_not] at hrequested
            rw [hrequested] at ha
            cases ha
    · split
      · exact done .fccHandleSyncNotification
      · exact done .still

theorem fccHandleServerResponse (buf : List UInt8) : FccAnswered ctx (fccHandleServerResponse ctx env buf) := by
  unfold Rtp2httpd.fccHandleServerResponse
  split
  · exact fccHuaweiHandleServerResponse buf
  · exact fccTelecomHandleServerResponse buf

end FccAnswered

/-! ### Events -/

namespace FccMoved

variable {k : Nat} {ctx₀ ctx ctx' : FccContext σ} {path : MediaPath σ} {env : FccEnv} {now : Int}

/-- A request uses up the redirect that allows it. -/
theorem request (h : FccMoved (k + 1) ctx₀ ctx) : FccMoved k ctx₀ (ctx.emit .request) := by
  obtain ⟨es, hlog, hpath, hreq, hterm⟩ := h.log
  refine ⟨⟨es ++ [.request], ?_, hpath.append (show FccPath _ [.request] _ from ⟨fun _ => trivial, rfl⟩), ?_, ?_⟩,
    h.initialized, h.sock, h.active, h.terminated⟩
  · simp [FccContext.emit, hlog]
  · rw [List.count_append, List.count_singleton_self]
    exact Nat.le_trans (by omega) hreq
  · rw [List.countP_append]
    exact hterm

/-- Opening the sockets shows in nothing the log depends on. -/
theorem fccOpenSockets : FccMoved 0 ctx (fccOpenSockets ctx env).1 ∧
    (Rtp2httpd.fccOpenSockets ctx env).1.fcc.state = ctx.fcc.state ∧
      (Rtp2httpd.fccOpenSockets ctx env).1.log = ctx.log := by
  unfold Rtp2httpd.fccOpenSockets
  split <;> split
  · exact ⟨still, rfl, rfl⟩
  · split <;> exact ⟨quiet rfl rfl rfl rfl rfl rfl, rfl, rfl⟩
  · exact ⟨still, rfl, rfl⟩
  · split <;> exact ⟨quiet rfl rfl rfl rfl rfl rfl, rfl, rfl⟩

theorem weaken (h : FccMoved (k + 1) ctx ctx') : FccMoved k ctx ctx' := by
  obtain ⟨es, hlog, hpath, hreq, hterm⟩ := h.log
  exact ⟨⟨es, hlog, hpath, by omega, hterm⟩, h.initialized, h.sock, h.active, h.terminated⟩

theorem fccInitializeAndRequest (h : FccMoved (k + 1) ctx₀ ctx) (hstate : ctx.fcc.state ≠ .mcastActive) :
    FccMoved k ctx₀ (fccInitializeAndRequest ctx env).1 := by
  unfold Rtp2httpd.fccInitializeAndRequest
  obtain ⟨ctx₁, opened, hctx₁, hmoved, hstate₁⟩ : ∃ ctx₁ opened,
      (if ¬ ctx.fcc.fccSock then Rtp2httpd.fccOpenSockets ctx env else (ctx, 0)) = (ctx₁, opened) ∧
        FccMoved (k + 1) ctx₀ ctx₁ ∧ ctx₁.fcc.state ≠ .mcastActive := by
    split
    · exact ⟨_, _, rfl, h.trans_zero fccOpenSockets.1, fccOpenSockets.2.1.trans_ne hstate⟩
    · exact ⟨_, _, rfl, h, hstate⟩
  rw [hctx₁]
  dsimp only
  split
  · exact hmoved.weaken
  · unfold fccRequest
    split
    · exact hmoved.weaken
    · cases env.sendtoTriple with
      | false => exact hmoved.request
      | true =>
        have htime : FccMoved 0 (ctx₁.emit .request) ((ctx₁.emit .request).fccDataAt env.time) := quiet rfl rfl rfl rfl rfl rfl
        exact (hmoved.request.trans_zero htime).trans_zero (setState hstate₁)

theorem fccReceive (received : Received) : FccMoved 0 ctx (fccReceive path now ctx env received).1 := by
  cases received with
  | exhausted => exact quiet rfl rfl rfl rfl rfl rfl
  | packet peer ref data =>
    unfold Rtp2httpd.fccReceive
    dsimp only
    split
    · exact quiet rfl rfl rfl rfl rfl rfl
    · -- the packet is in its buffer, and the time is noted
      have hmoved : FccMoved 0 ctx ((ctx.receive ref data).fccDataAt now) := quiet rfl rfl rfl rfl rfl rfl
      generalize (ctx.receive ref data).fccDataAt now = ctx₁ at hmoved ⊢
      split
      · have hanswer := @FccAnswered.fccHandleServerResponse _ ctx₁ env data
        generalize fccHandleServerResponse ctx₁ env data = out at hanswer
        obtain ⟨ctx₂, res⟩ := out
        rcases hanswer with ⟨hres, hanswer⟩ | ⟨hres, hanswer, hstate⟩
        · dsimp only at hres
          subst hres
          exact hmoved.trans_zero hanswer
        · dsimp only at hres
          subst hres
          have := hmoved.trans hanswer
          exact fccInitializeAndRequest this hstate
      · exact hmoved.trans_zero (fccHandleUnicastMedia ref)

theorem fccHandleSocketEvent (received : List (FccEnv × Received)) :
    FccMoved 0 ctx (fccHandleSocketEvent path now received ctx).1 := by
  induction received generalizing ctx with
  | nil => exact still
  | cons x rest ih =>
    have hround : FccMoved 0 ctx (Rtp2httpd.fccReceive path now ctx x.1 x.2).1 := fccReceive x.2
    unfold Rtp2httpd.fccHandleSocketEvent
    split
    · next heq =>
      rw [heq] at hround
      exact hround
    · next heq =>
      rw [heq] at hround
      exact hround.trans_zero ih

theorem mcastReceive (hsock : ctx.mcast.sock = true) (received : Received) :
    FccMoved 0 ctx (mcastReceive path now ctx env received).1 := by
  cases received with
  | exhausted => exact quiet rfl rfl rfl rfl rfl rfl
  | packet peer ref data =>
    unfold Rtp2httpd.mcastReceive
    dsimp only
    have hmoved : FccMoved 0 ctx ((ctx.receive ref data).mcastDataAt now) := quiet rfl rfl rfl rfl rfl rfl
    have hsock' := hmoved.sock hsock
    generalize (ctx.receive ref data).mcastDataAt now = ctx₁ at hmoved hsock' ⊢
    split
    · exact hmoved.trans_zero (process fun _ => trivial)
    · split
      · exact hmoved.trans_zero (fccHandleMcastActive ref)
      · exact hmoved.trans_zero (fccHandleMcastTransition hsock' ref)
      · exact hmoved

theorem mcastSessionHandleEvent (hsock : ctx.mcast.sock = true) (received : List (FccEnv × Received)) :
    FccMoved 0 ctx (mcastSessionHandleEvent path now received ctx).1 := by
  have hloop : FccMoved 0 ctx (mcastSessionHandleEventLoop path now received ctx).1 := by
    induction received generalizing ctx with
    | nil => exact still
    | cons x rest ih =>
      have hround : FccMoved 0 ctx (Rtp2httpd.mcastReceive path now ctx x.1 x.2).1 := mcastReceive hsock x.2
      unfold mcastSessionHandleEventLoop
      split
      · next heq =>
        rw [heq] at hround
        exact hround
      · next heq =>
        rw [heq] at hround
        exact hround.trans_zero (ih (hround.sock hsock))
  unfold Rtp2httpd.mcastSessionHandleEvent
  split
  · exact still
  · exact hloop

theorem fccSessionTick : FccMoved 0 ctx (fccSessionTick ctx env now) := by
  unfold Rtp2httpd.fccSessionTick
  dsimp only
  split
  · exact still
  · split
    · next hstate =>
      split
      · exact fallBackToMulticast fun ha => by simp [ha] at hstate
      · exact still
    · split
      · next hstate =>
        obtain ⟨ctx₁, hctx₁, hmoved⟩ : ∃ ctx₁,
            ctx₁ = (if now - ctx.fcc.lastDataTime ≥ fccTimeoutUnicastMs then
              Rtp2httpd.fallBackToMulticast ctx env else ctx) ∧ FccMoved 0 ctx ctx₁ := by
          refine ⟨_, rfl, ?_⟩
          split
          · exact fallBackToMulticast fun ha => by simp [ha] at hstate
          · exact still
        rw [← hctx₁]
        split
        · exact hmoved.trans_zero fccHandleSyncNotification
        · exact hmoved
      · exact still

theorem snapshotTick : FccMoved 0 ctx (snapshotTick path ctx now) := by
  unfold Rtp2httpd.snapshotTick
  split
  · exact still
  · split
    · split
      · exact event (e := .serverError) rfl rfl (fun _ => trivial) nofun rfl rfl rfl rfl
      · exact quiet rfl rfl rfl rfl rfl rfl
    · exact still

theorem mcastSessionTick_kept (config : McastConfig) (mcast : McastSession) (env : FccEnv) (now : Int) :
    (mcastSessionTick config mcast env now).1.initialized = mcast.initialized ∧
      (mcastSessionTick config mcast env now).1.sock = mcast.sock := by
  have hrejoin : (mcastRejoin config mcast env now).initialized = mcast.initialized ∧
      (mcastRejoin config mcast env now).sock = mcast.sock := by
    unfold mcastRejoin
    split
    · split
      · exact ⟨rfl, rfl⟩
      · split <;> exact ⟨rfl, rfl⟩
    · exact ⟨rfl, rfl⟩
  unfold mcastSessionTick
  split
  · exact ⟨rfl, rfl⟩
  · exact hrejoin

theorem fccStep (config : McastConfig) (input : FccInput) : FccMoved 0 ctx (fccStep path config ctx input) := by
  cases input with
  | fcc now received =>
    rw [Rtp2httpd.fccStep]
    split
    · exact fccHandleSocketEvent received
    · exact still
  | mcast now received =>
    rw [Rtp2httpd.fccStep]
    split
    · next h => exact mcastSessionHandleEvent h.2 received
    · exact still
  | tick now env =>
    rw [Rtp2httpd.fccStep, streamTick]
    obtain ⟨hinit, hsock⟩ := mcastSessionTick_kept config ctx.mcast env now
    generalize mcastSessionTick config ctx.mcast env now = out at hinit hsock ⊢
    obtain ⟨mcast, r⟩ := out
    dsimp only
    have hmoved : FccMoved 0 ctx { ctx with mcast } := quiet rfl rfl rfl rfl hinit hsock
    split
    · exact hmoved
    · exact (hmoved.trans_zero fccSessionTick).trans_zero snapshotTick

theorem run (config : McastConfig) (inputs : List FccInput) :
    FccMoved 0 ctx (inputs.foldl (Rtp2httpd.fccStep path config) ctx) := by
  induction inputs generalizing ctx with
  | nil => exact still
  | cons x inputs ih => exact (fccStep config x).trans_zero ih

end FccMoved

/-! ### Runs -/

/-- The log explains the state, with a request for the start and one for every redirect followed. -/
structure FccRun (ctx : FccContext σ) : Prop where
  path : FccPath .init ctx.log ctx.fcc.state
  requests : ctx.log.count .request ≤ 1 + min ctx.fcc.redirectCount fccMaxRedirects
  terminated : ctx.log.countP FccEvent.isTerminate ≤ ctx.fcc.fccTermSent.toNat

theorem FccRun.moved {ctx ctx' : FccContext σ} (h : FccRun ctx) (hmoved : FccMoved 0 ctx ctx') : FccRun ctx' := by
  obtain ⟨es, hlog, hpath, hreq, hterm⟩ := hmoved.log
  refine ⟨?_, ?_, ?_⟩ <;> rw [hlog]
  · exact h.path.append hpath
  · have := h.requests
    rw [List.count_append]
    omega
  · have := h.terminated
    rw [List.countP_append]
    omega

theorem FccRun.start (type : FccType) (fccAddr : SockAddrIn) (media : σ) (heap : Nat → PacketBuffer) (env : FccEnv) :
    FccRun (streamStartFcc type fccAddr media heap env).1 := by
  have hnone : ∀ ctx : FccContext σ, ctx.log = [] → ctx.fcc.state = .init → FccRun ctx := fun ctx hlog hstate => by
    refine ⟨?_, ?_, ?_⟩ <;> rw [hlog]
    · exact hstate.symm
    · exact Nat.zero_le _
    · exact Nat.zero_le _
  have hsent : ∀ ctx : FccContext σ, ctx.log = [] → ctx.fcc.state = .init → FccRun (ctx.emit .request) :=
    fun ctx hlog hstate => by
      refine ⟨?_, ?_, ?_⟩ <;> rw [FccContext.emit, hlog]
      · exact ⟨fun _ => trivial, hstate.symm⟩
      · exact Nat.le_add_right 1 _
      · exact Nat.zero_le _
  unfold streamStartFcc fccInitializeAndRequest
  rw [if_pos (by simp [fccSessionInit])]
  obtain ⟨hstate, hlog⟩ := (@FccMoved.fccOpenSockets _
    ⟨fccSessionInit type, mcastSessionInit, fccAddr, media, heap, 0, [], []⟩ env).2
  generalize fccOpenSockets _ env = opened at hstate hlog ⊢
  obtain ⟨ctx, r⟩ := opened
  dsimp only at hstate hlog ⊢
  split
  · exact hnone ctx hlog hstate
  · unfold fccRequest
    split
    · exact hnone ctx hlog hstate
    · cases env.sendtoTriple with
      | false => exact hsent ctx hlog hstate
      | true =>
        have htime : FccMoved 0 (ctx.emit .request) ((ctx.emit .request).fccDataAt env.time) := .quiet rfl rfl rfl rfl rfl rfl
        refine (hsent ctx hlog hstate).moved (htime.trans_zero (.setState ?_))
        rw [show ((ctx.emit .request).fccDataAt env.time).fcc.state = .init from hstate]
        nofun

/-- The messages that ask to join: FMT 4 of one vendor and FMT 8 of the other. -/
def isSyncNotification (type : FccType) (buf : List UInt8) : Bool :=
  match type with
  | .telecom => 12 ≤ buf.length ∧ (buf.getD 0 0 &&& 0x1F).toNat = fccFmtTelecomSyn
  | .huawei => 2 ≤ buf.length ∧ (buf.getD 0 0 &&& 0x1F).toNat = fccFmtHuaweiSyn

/-- Outside the state in which a response is awaited, nothing is done with one. -/
theorem fccHandleServerResponse_ignored {ctx : FccContext σ} (h : ctx.fcc.state ≠ .requested) (env : FccEnv)
    (buf : List UInt8) : fccHandleServerResponse ctx env buf =
      (if isSyncNotification ctx.fcc.type buf then fccHandleSyncNotification ctx env else ctx, 0) := by
  unfold fccHandleServerResponse isSyncNotification
  cases ctx.fcc.type with
  | huawei =>
    dsimp only
    unfold fccHuaweiHandleServerResponse
    by_cases hlen : buf.length < 2
    · simp [hlen]
    · by_cases hfmt : (buf.getD 0 0 &&& 0x1F).toNat = fccFmtHuaweiResp
      · have : fccFmtHuaweiResp ≠ fccFmtHuaweiSyn := by decide
        simp only [hlen, hfmt, h, this, ne_eq, not_false_eq_true, if_true, if_false, and_false, decide_false,
          Bool.false_eq_true]
      · by_cases hsync : (buf.getD 0 0 &&& 0x1F).toNat = fccFmtHuaweiSyn
        · have : fccFmtHuaweiSyn ≠ fccFmtHuaweiResp := by decide
          simp only [hlen, hsync, this, Nat.not_lt.1 hlen, if_true, if_false, and_self, decide_true]
        · simp only [hlen, hfmt, hsync, if_false, and_false, decide_false, Bool.false_eq_true]
  | telecom =>
    dsimp only
    unfold fccTelecomHandleServerResponse
    by_cases hlen : buf.length < 12
    · simp [hlen]
    · by_cases hsync : (buf.getD 0 0 &&& 0x1F).toNat = fccFmtTelecomSyn
      · simp only [hlen, hsync, Nat.not_lt.1 hlen, if_true, if_false, and_self, decide_true]
      · simp only [hlen, hsync, h, ne_eq, not_false_eq_true, if_true, if_false, ite_self, and_false, decide_false,
          Bool.false_eq_true]

/-- Multicast is never left and no unicast packet is passed on from then on, not even within the event that activates
it; responses count only while one is awaited; the redirects lead to a bounded number of requests; and there is at most
one termination message of the normal flow. -/
theorem fcc_progress (path : MediaPath σ) (config : McastConfig) (type : FccType) (fccAddr : SockAddrIn) (media : σ)
    (heap : Nat → PacketBuffer) (env : FccEnv) (inputs : List FccInput) :
    let step := fccStep path config
    let ctx := inputs.foldl step (streamStartFcc type fccAddr media heap env).1
    (ctx.fcc.state = .mcastActive → ∀ more : List FccInput, (more.foldl step ctx).fcc.state = .mcastActive ∧
        ∃ added, (more.foldl step ctx).log = ctx.log ++ added ∧ ∀ e ∈ added, e.Harmless) ∧
      (∀ pre post, ctx.log = pre ++ .enter .mcastActive :: post →
        ctx.fcc.state = .mcastActive ∧ ∀ e ∈ post, e.Harmless) ∧
      (ctx.fcc.state ≠ .requested → ∀ env buf, fccHandleServerResponse ctx env buf =
        (if isSyncNotification ctx.fcc.type buf then fccHandleSyncNotification ctx env else ctx, 0)) ∧
      ctx.log.count .request ≤ 1 + fccMaxRedirects ∧ ctx.log.countP FccEvent.isTerminate ≤ 1 := by
  intro step ctx
  have hrun : FccRun ctx := (FccRun.start type fccAddr media heap env).moved (.run config inputs)
  refine ⟨fun hactive (more : List FccInput) => ?_, fun pre post hlog => ?_, fun h => fccHandleServerResponse_ignored h, ?_, ?_⟩
  · have hmore : FccMoved 0 ctx (more.foldl (fccStep path config) ctx) := .run config more
    obtain ⟨added, hlog, hpath, -, -⟩ := hmore.log
    rw [hactive] at hpath
    exact ⟨hpath.active.1, added, hlog, hpath.active.2⟩
  · have hpath := hrun.path
    rw [hlog] at hpath
    obtain ⟨s, -, hpath⟩ := hpath.of_append
    exact FccPath.active hpath.2
  · have := hrun.requests
    omega
  · have := hrun.terminated
    have := Bool.toNat_le ctx.fcc.fccTermSent
    omega

end Rtp2httpd
