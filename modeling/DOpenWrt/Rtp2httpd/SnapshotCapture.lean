import DOpenWrt.Rtp2httpd.SnapshotFrame
import Mathlib.Data.List.Forall2

/-!
# The capture of a snapshot

The context tracks the packets so far. A run over payloads goes well if and only if no PES header is read behind the
payload, and the file is the frame if and only if the frame fits in the buffer.
-/

namespace Rtp2httpd.Snapshot

section
variable {ctx : SnapshotContext} {ps : List TsPacket} {p : TsPacket} {mmap : List UInt8} {offset : Nat}

theorem length_bytesOf (ps : List TsPacket) : (bytesOf ps).length = tsPacketSize * ps.length := by
  induction ps with
  | nil => rfl
  | cons p ps ih =>
    rw [bytesOf_cons, List.length_append, p.length_eq, ih, List.length_cons, Nat.mul_succ, Nat.add_comm]

theorem length_header (ps : List TsPacket) : (header ps).length =
    (if (patOf ps).isSome then tsPacketSize else 0) + (if (pmtOf ps).isSome then tsPacketSize else 0) := by
  rw [header, length_bytesOf, List.length_append]
  cases patOf ps <;> cases pmtOf ps <;> rfl

theorem length_header_le (ps : List TsPacket) : (header ps).length ≤ 2 * tsPacketSize := by
  rw [length_header]
  split_ifs <;> decide

/-- A packet that is copied stands behind what was there before. -/
theorem copyTs_packet (h : offset + tsPacketSize ≤ mmap.length) (rest : List UInt8) : ∃ copied,
    copyTs mmap offset (p.bytes ++ rest) = .ok copied ∧ copied.length = mmap.length ∧
      copied.take (offset + tsPacketSize) = mmap.take offset ++ p.bytes := by
  have hlen : (mmap.take offset ++ p.bytes).length = offset + tsPacketSize := by
    rw [List.length_append, List.length_take, p.length_eq]
    omega
  have htake : (p.bytes ++ rest).take tsPacketSize = p.bytes := List.take_left' p.length_eq
  refine ⟨mmap.take offset ++ p.bytes ++ mmap.drop (offset + tsPacketSize), ?_, ?_, List.take_left' hlen⟩
  · rw [copyTs, if_neg (by rw [List.length_append, p.length_eq]; omega), if_neg (by omega), htake]
  · rw [List.length_append, hlen, List.length_drop]
    omega

/-! ### The cached headers -/

structure CachedHeader (ctx : SnapshotContext) (ps : List TsPacket) : Prop where
  hasPat : ctx.hasPat = (patOf ps).isSome
  hasPmt : ctx.hasPmt = (pmtOf ps).isSome
  pmtPid : ctx.pmtPid = (patOf ps).elim 0 TsPacket.pmtPid
  size : ctx.tsHeaderSize = (header ps).length
  bytes : ctx.idrFrameMmap.take ctx.tsHeaderSize = header ps
  length : ctx.idrFrameMmap.length = snapshotBufferCapacity

/-- No IDR frame has started yet. -/
structure Searching (ctx : SnapshotContext) (ps : List TsPacket) : Prop where
  initialized : ctx.initialized = true
  complete : ctx.idrFrameComplete = false
  started : ctx.idrFrameStarted = false
  capacity : ctx.idrFrameCapacity = snapshotBufferCapacity
  header : CachedHeader ctx ps

theorem searching_init (fallback : Bool) : Searching (snapshotInit fallback) [] :=
  ⟨rfl, rfl, rfl, rfl, rfl, rfl, rfl, rfl, rfl, List.length_replicate⟩

/-- A packet that is no header. -/
theorem Searching.other (h : Searching ctx ps) (hpat : patOf (ps ++ [p]) = patOf ps)
    (hpmt : pmtOf (ps ++ [p]) = pmtOf ps) : Searching { ctx with tsHeaderSize :=
      (if ctx.hasPat then tsPacketSize else 0) + (if ctx.hasPmt then tsPacketSize else 0) } (ps ++ [p]) := by
  obtain ⟨hinit, hcomplete, hstarted, hcapacity, hheader⟩ := h
  have hsame : Snapshot.header (ps ++ [p]) = Snapshot.header ps := by rw [Snapshot.header, Snapshot.header, hpat, hpmt]
  have hsize : (if ctx.hasPat then tsPacketSize else 0) + (if ctx.hasPmt then tsPacketSize else 0) =
      ctx.tsHeaderSize := by rw [hheader.size, length_header, hheader.hasPat, hheader.hasPmt]
  rw [hsize]
  refine ⟨hinit, hcomplete, hstarted, hcapacity, ?_⟩
  exact ⟨hpat ▸ hheader.hasPat, hpmt ▸ hheader.hasPmt, hpat ▸ hheader.pmtPid, hsame ▸ hheader.size,
    hsame ▸ hheader.bytes, hheader.length⟩

theorem cacheTsHeaderPacket_searching (h : Searching ctx ps) (p : TsPacket) (rest : List UInt8) : ∃ ctx',
    cacheTsHeaderPacket ctx (p.bytes ++ rest) p.pid = .ok ctx' ∧ Searching ctx' (ps ++ [p]) := by
  obtain ⟨hinit, hcomplete, hstarted, hcapacity, hheader⟩ := id h
  have hlength : ctx.idrFrameMmap.length = 1048576 := hheader.length
  unfold cacheTsHeaderPacket
  cases hpat : patOf ps with
  | none =>
    have hhas : ctx.hasPat = false := by rw [hheader.hasPat, hpat]; rfl
    have hpid : ctx.pmtPid = 0 := by rw [hheader.pmtPid, hpat]; rfl
    have hpmt := pmtOf_snoc_of_pat_none hpat p
    have hhasPmt : ctx.hasPmt = false := by rw [hheader.hasPmt, pmtOf_of_pat_none hpat]; rfl
    by_cases hp : p.pid = tsPatPid
    · obtain ⟨copied, hcopy, hlen, htake⟩ := copyTs_packet (p := p) (show 0 + tsPacketSize ≤ ctx.idrFrameMmap.length by
        rw [hlength]; decide) rest
      rw [if_pos ⟨hp, hhas⟩, hcopy, Except.ok_bind, extractPmtPidFromPat_packet, Except.ok_bind]
      have hpat' : patOf (ps ++ [p]) = some p := by rw [patOf_snoc, hpat, if_pos hp]; rfl
      have hheader' : Snapshot.header (ps ++ [p]) = p.bytes := by
        rw [Snapshot.header, hpat', hpmt]
        exact bytesOf_singleton p
      refine ⟨_, rfl, hinit, hcomplete, hstarted, hcapacity, ?_, ?_, ?_, ?_, ?_, ?_⟩
      · rw [hpat']; rfl
      · rw [hpmt]; exact hhasPmt
      · rw [hpat']; rfl
      · rw [hheader', p.length_eq]; simp only [hhasPmt]; rfl
      · rw [hheader']; simp only [hhasPmt]; exact htake
      · exact hlen.trans hheader.length
    · rw [if_neg fun hc => hp hc.1, if_neg fun hc => hc.1 hpid]
      refine ⟨_, rfl, h.other ?_ ?_⟩
      · rw [patOf_snoc, if_neg hp, Option.or_none]
      · rw [hpmt, pmtOf_of_pat_none hpat]
  | some pat =>
    have hhas : ctx.hasPat = true := by rw [hheader.hasPat, hpat]; rfl
    have hpid : ctx.pmtPid = pat.pmtPid := by rw [hheader.pmtPid, hpat]; rfl
    have hpat' : patOf (ps ++ [p]) = some pat := by rw [patOf_snoc, hpat]; rfl
    have hpmt := pmtOf_snoc_of_pat hpat p
    rw [if_neg fun hc => by rw [hhas] at hc; cases hc.2]
    by_cases hp : (ctx.pmtPid ≠ 0 ∧ p.pid = ctx.pmtPid ∧ ctx.hasPmt = false)
    · have hnone : pmtOf ps = none := Option.isSome_eq_false_iff.1 (hheader.hasPmt ▸ hp.2.2) |> Option.isNone_iff_eq_none.1
      obtain ⟨copied, hcopy, hlen, htake⟩ := copyTs_packet (p := p)
        (show tsPacketSize + tsPacketSize ≤ ctx.idrFrameMmap.length by rw [hlength]; decide) rest
      rw [if_pos hp, hcopy, Except.ok_bind]
      have hpmt' : pmtOf (ps ++ [p]) = some p := by rw [hpmt, hnone, if_pos ⟨hpid ▸ hp.1, hpid ▸ hp.2.1⟩]; rfl
      have hheader' : Snapshot.header (ps ++ [p]) = Snapshot.header ps ++ p.bytes := by
        rw [Snapshot.header, Snapshot.header, hpat', hpmt', hpat, hnone]
        exact (bytesOf_append [pat] [p]).trans (by rw [bytesOf_singleton p]; rfl)
      have hsize : ctx.tsHeaderSize = tsPacketSize := by
        rw [hheader.size, length_header, hpat, hnone]
        rfl
      refine ⟨_, rfl, hinit, hcomplete, hstarted, hcapacity, ?_, ?_, ?_, ?_, ?_, ?_⟩
      · rw [hpat']; exact hhas
      · rw [hpmt']; rfl
      · rw [hpat']; exact hpid
      · rw [hheader', List.length_append, p.length_eq, ← hheader.size, hsize]; simp only [hhas]; rfl
      · rw [hheader', ← hheader.bytes, hsize]; simp only [hhas]; exact htake
      · exact hlen.trans hheader.length
    · rw [if_neg hp]
      refine ⟨_, rfl, h.other (hpat'.trans hpat.symm) ?_⟩
      rw [hpmt]
      cases hpmtOf : pmtOf ps with
      | some q => rfl
      | none =>
        have hhasPmt : ctx.hasPmt = false := by rw [hheader.hasPmt, hpmtOf]; rfl
        rw [if_neg fun hc => hp ⟨hpid ▸ hc.1, hpid ▸ hc.2, hhasPmt⟩, Option.or_none]

end

/-! ### The states of a capture -/

/-- The fields of a context whose frame has started and is not complete. -/
structure Started (ctx : SnapshotContext) (start : TsPacket) : Prop where
  initialized : ctx.initialized = true
  complete : ctx.idrFrameComplete = false
  started : ctx.idrFrameStarted = true
  capacity : ctx.idrFrameCapacity = snapshotBufferCapacity
  videoPid : ctx.videoPid = start.pid
  length : ctx.idrFrameMmap.length = snapshotBufferCapacity
  size_gt : ctx.tsHeaderSize < ctx.idrFrameSize
  size_le : ctx.idrFrameSize ≤ snapshotBufferCapacity

/-- The packets up to now: the frame has started and goes on. -/
structure Open (ps seen : List TsPacket) (start : TsPacket) (body : List TsPacket) : Prop where
  eq : ps = seen ++ start :: body
  starts : StartsAt seen start
  goesOn : ∀ p ∈ body, endsFrame start p = false

/-- The frame is in the buffer so far. -/
structure Collecting (ctx : SnapshotContext) (ps seen : List TsPacket) (start : TsPacket) (body : List TsPacket) : Prop where
  fields : Started ctx start
  packets : Open ps seen start body
  size : ctx.idrFrameSize = (frameOf seen start body).length
  bytes : ctx.idrFrameMmap.take ctx.idrFrameSize = frameOf seen start body

/-- The capture goes wrong or is at its end, whatever comes. -/
inductive Halted (ctx : SnapshotContext) : List (List UInt8) → List TsPacket → Prop
  | overflowed {ps seen : List TsPacket} {start : TsPacket} {body : List TsPacket} (more : List TsPacket) :
    Started ctx start → Open ps seen start body → snapshotBufferCapacity < (frameOf seen start body).length →
      snapshotBufferCapacity < ctx.idrFrameSize + tsPacketSize → Halted ctx [] (ps ++ more)
  | finished {ps seen : List TsPacket} {start : TsPacket} {body : List TsPacket} {p : TsPacket} {file : List UInt8}
    (more : List TsPacket) : ctx.initialized = false ∨ ctx.idrFrameComplete = true → Open ps seen start body →
      endsFrame start p = true → file.length ≤ snapshotBufferCapacity →
      (file = frameOf seen start body ∨ snapshotBufferCapacity < (frameOf seen start body).length) →
        Halted ctx [file] (ps ++ p :: more)

/-- What the context, and the files so far, have to do with the packets so far. -/
inductive Tracks (ctx : SnapshotContext) : List (List UInt8) → List TsPacket → Prop
  | searching {ps : List TsPacket} : Searching ctx ps → (∀ p ∈ ps, p.idrStart = false) → Tracks ctx [] ps
  | collecting {ps seen : List TsPacket} {start : TsPacket} {body : List TsPacket} :
    Collecting ctx ps seen start body → Tracks ctx [] ps
  | halted {files : List (List UInt8)} {ps : List TsPacket} : Halted ctx files ps → Tracks ctx files ps

section
variable {ctx : SnapshotContext} {ps seen body more : List TsPacket} {start p : TsPacket} {files : List (List UInt8)}

theorem Halted.skip (h : Halted ctx files ps) (more : List TsPacket) : Halted ctx files (ps ++ more) := by
  cases h with
  | overflowed more' hstarted hopen hlarge hfull =>
    rw [List.append_assoc]
    exact .overflowed _ hstarted hopen hlarge hfull
  | finished more' hended hopen hend hfile hframe =>
    rw [List.append_assoc, List.cons_append]
    exact .finished _ hended hopen hend hfile hframe

theorem Open.saw (h : Open ps seen start body) : ∃ q ∈ ps, q.idrStart = true :=
  ⟨start, h.eq ▸ List.mem_append_right _ List.mem_cons_self, h.starts.idr⟩

theorem Halted.saw (h : Halted ctx files ps) : ∃ q ∈ ps, q.idrStart = true := by
  cases h with
  | overflowed more hstarted hopen =>
    obtain ⟨q, hq, hidr⟩ := hopen.saw
    exact ⟨q, List.mem_append_left _ hq, hidr⟩
  | finished more hended hopen =>
    obtain ⟨q, hq, hidr⟩ := hopen.saw
    exact ⟨q, List.mem_append_left _ hq, hidr⟩

theorem captureFrame_open (h : Open ps seen start body) (more : List TsPacket) :
    captureFrame (ps ++ more) = if more.any (endsFrame start) then
      some (frameOf seen start (body ++ more.takeWhile (!endsFrame start ·))) else none := by
  rw [h.eq, List.append_assoc, List.cons_append]
  exact captureFrame_started h.starts h.goesOn

/-- The file is the frame exactly if the frame fits. -/
theorem Tracks.files_iff (h : Tracks ctx files ps) : files = (captureFrame ps).toList ↔
    ∀ frame, captureFrame ps = some frame → frame.length ≤ snapshotBufferCapacity := by
  cases h with
  | searching _ hnone =>
    rw [captureFrame_none hnone]
    exact iff_of_true rfl nofun
  | collecting hcollect =>
    have hcapture := captureFrame_open hcollect.packets []
    rw [List.append_nil] at hcapture
    rw [hcapture]
    exact iff_of_true rfl nofun
  | halted h =>
    cases h with
    | @overflowed ps seen start body more hstarted hopen hlarge hfull =>
      rw [captureFrame_open hopen]
      split_ifs with hany
      · refine iff_of_false (List.cons_ne_nil _ _).symm fun hfits => ?_
        have := hfits _ rfl
        rw [frameOf_append, List.length_append] at this
        omega
      · exact iff_of_true rfl nofun
    | @finished ps seen start body p file more hended hopen hend hfile hframe =>
      have hany : (p :: more).any (endsFrame start) = true := by rw [List.any_cons, hend, Bool.true_or]
      have htake : (p :: more).takeWhile (!endsFrame start ·) = [] :=
        List.takeWhile_cons_of_neg (by rw [hend]; decide)
      rw [captureFrame_open hopen, if_pos hany, htake, List.append_nil]
      simp only [Option.toList_some, List.cons.injEq, and_true, Option.some.injEq, forall_eq']
      constructor
      · rintro rfl
        exact hfile
      · intro hfits
        exact hframe.resolve_right (by omega)

end

/-! ### One packet -/

/-- What is left of a context after a packet, where `ps` are the packets up to it. -/
def Follows (files : List (List UInt8)) (ps : List TsPacket) : TsOutcome → Prop
  | .next ctx => Tracks ctx files ps ∧ ctx.initialized = true ∧ ctx.idrFrameComplete = false
  | .done processed => Halted processed.ctx (files ++ processed.captured.toList) ps

section
variable (deliver : List UInt8 → Delivery) {ctx : SnapshotContext} {ps seen body : List TsPacket} {start p : TsPacket}
  {files : List (List UInt8)} {rest : List UInt8}

theorem completeFrame_ended (ctx : SnapshotContext) :
    ((completeFrame deliver ctx).ctx.initialized = false ∨ (completeFrame deliver ctx).ctx.idrFrameComplete = true) ∧
      (completeFrame deliver ctx).captured = some (ctx.idrFrameMmap.take ctx.idrFrameSize) := by
  unfold completeFrame
  dsimp only
  cases deliver (ctx.idrFrameMmap.take ctx.idrFrameSize) with
  | sent => exact ⟨.inr rfl, rfl⟩
  | notQueued => exact ⟨.inr rfl, rfl⟩
  | notConverted =>
    refine ⟨?_, rfl⟩
    dsimp only
    split
    · exact .inl rfl
    · exact .inr rfl

theorem unitStart_iff : p.byte 1 &&& 0x40 ≠ 0 ↔ p.unitStart = true := decide_eq_true_iff.symm

/-- A packet after the start of the frame. -/
theorem processTsPacket_started (h : Started ctx start) (p : TsPacket) (rest : List UInt8) :
    processTsPacket deliver (p.bytes ++ rest) ctx =
      if endsFrame start p then .ok (.done (completeFrame deliver ctx))
      else if p.pid ≠ start.pid then .ok (.next ctx)
      else if ctx.idrFrameSize + tsPacketSize > snapshotBufferCapacity then .ok (.done ⟨-1, ctx, none⟩)
      else copyTs ctx.idrFrameMmap ctx.idrFrameSize (p.bytes ++ rest) >>= fun mmap =>
        .ok (.next { ctx with idrFrameMmap := mmap, idrFrameSize := ctx.idrFrameSize + tsPacketSize }) := by
  unfold processTsPacket
  rw [tsPidAt_packet, tsByte_packet (by decide)]
  simp only [Except.ok_bind, h.started, if_true, pure_bind, Bool.false_eq_true, if_false, Bool.true_eq_false, h.videoPid,
    h.capacity]
  by_cases hend : endsFrame start p = true
  · obtain ⟨hpid, hunit⟩ := Bool.and_eq_true_iff.1 hend
    rw [if_pos hend, if_pos ⟨of_decide_eq_true hpid, unitStart_iff.2 hunit, h.size_gt⟩]
    rfl
  · have hnot : ¬ (p.pid = start.pid ∧ p.byte 1 &&& 0x40 ≠ 0 ∧ ctx.idrFrameSize > ctx.tsHeaderSize) := fun hc =>
      hend (Bool.and_eq_true_iff.2 ⟨decide_eq_true hc.1, unitStart_iff.1 hc.2.1⟩)
    rw [if_neg hend, if_neg hnot]
    rfl

theorem Started.live (h : Started ctx start) : ctx.initialized = true ∧ ctx.idrFrameComplete = false :=
  ⟨h.initialized, h.complete⟩

theorem Open.snoc (h : Open ps seen start body) (hp : endsFrame start p = false) :
    Open (ps ++ [p]) seen start (body ++ [p]) := by
  refine ⟨?_, h.starts, fun q hq => ?_⟩
  · rw [h.eq, List.append_assoc, List.cons_append]
  · rcases List.mem_append.1 hq with hq | hq
    · exact h.goesOn q hq
    · rw [List.mem_singleton.1 hq]
      exact hp

theorem frameOf_snoc_other (seen body : List TsPacket) (hp : p.pid ≠ start.pid) : frameOf seen start (body ++ [p]) = frameOf seen start body := by
  rw [frameOf_append, List.filter_cons_of_neg (by simpa using hp), List.filter_nil]
  exact List.append_nil _

theorem frameOf_snoc_video (seen body : List TsPacket) (hp : p.pid = start.pid) :
    frameOf seen start (body ++ [p]) = frameOf seen start body ++ p.bytes := by
  rw [frameOf_append, List.filter_cons_of_pos (by simpa using hp), List.filter_nil, bytesOf_singleton]

theorem processTsPacket_collecting (h : Collecting ctx ps seen start body) (p : TsPacket) (rest : List UInt8) :
    ∃ outcome, processTsPacket deliver (p.bytes ++ rest) ctx = .ok outcome ∧ Follows [] (ps ++ [p]) outcome := by
  obtain ⟨hfields, hopen, hsize, hbytes⟩ := h
  rw [processTsPacket_started deliver hfields]
  by_cases hend : endsFrame start p = true
  · rw [if_pos hend]
    obtain ⟨hended, hcaptured⟩ := completeFrame_ended deliver ctx
    refine ⟨_, rfl, ?_⟩
    unfold Follows
    dsimp only
    rw [hcaptured, hbytes]
    exact .finished [] hended hopen hend (hsize ▸ hfields.size_le) (.inl rfl)
  rw [Bool.not_eq_true] at hend
  rw [if_neg (by rw [hend]; decide)]
  have hopen' := hopen.snoc hend
  by_cases hpid : p.pid = start.pid
  · rw [if_neg (not_not_intro hpid)]
    have hframe := frameOf_snoc_video seen body hpid
    by_cases hfull : ctx.idrFrameSize + tsPacketSize > snapshotBufferCapacity
    · rw [if_pos hfull]
      refine ⟨_, rfl, ?_⟩
      have hlarge : snapshotBufferCapacity < (frameOf seen start (body ++ [p])).length := by
        rw [hframe, List.length_append, p.length_eq, ← hsize]
        exact hfull
      have hhalted := Halted.overflowed [] hfields hopen' hlarge hfull
      rw [List.append_nil] at hhalted
      exact hhalted
    · rw [if_neg hfull]
      obtain ⟨copied, hcopy, hlen, htake⟩ := copyTs_packet (p := p)
        (show ctx.idrFrameSize + tsPacketSize ≤ ctx.idrFrameMmap.length by rw [hfields.length]; omega) rest
      rw [hcopy]
      refine ⟨_, rfl, .collecting (show Collecting _ (ps ++ [p]) seen start (body ++ [p]) from ⟨?_, hopen', ?_, ?_⟩),
        hfields.live⟩
      · exact ⟨hfields.initialized, hfields.complete, hfields.started, hfields.capacity, hfields.videoPid,
          hlen.trans hfields.length, Nat.lt_add_right _ hfields.size_gt, Nat.le_of_not_lt hfull⟩
      · rw [hframe, List.length_append, p.length_eq, ← hsize]
      · exact htake.trans (by rw [hframe, hbytes])
  · rw [if_pos hpid]
    have hframe := frameOf_snoc_other seen body hpid
    exact ⟨_, rfl, .collecting ⟨hfields, hopen', hsize.trans (by rw [hframe]), hbytes.trans hframe.symm⟩, hfields.live⟩

/-- A frame that is declared complete after the buffer was full; packets that end it may have been skipped before. -/
theorem Open.declared {file : List UInt8} (h : Open ps seen start body)
    (hlarge : snapshotBufferCapacity < (frameOf seen start body).length) (hend : endsFrame start p = true)
    (hended : ctx.initialized = false ∨ ctx.idrFrameComplete = true) (hfile : file.length ≤ snapshotBufferCapacity)
    (more : List TsPacket) : Halted ctx [file] (ps ++ more ++ [p]) := by
  obtain ⟨q, hq⟩ : ∃ q, (more ++ [p]).find? (endsFrame start) = some q :=
    Option.isSome_iff_exists.1 (List.find?_isSome.2 ⟨p, List.mem_append_right _ List.mem_cons_self, hend⟩)
  obtain ⟨hqend, before, after, heq, hbefore⟩ := List.find?_eq_some_iff_append.1 hq
  have hopen : Open (ps ++ before) seen start (body ++ before) := by
    refine ⟨?_, h.starts, fun r hr => ?_⟩
    · rw [h.eq, List.append_assoc, List.cons_append]
    · rcases List.mem_append.1 hr with hr | hr
      · exact h.goesOn r hr
      · simpa using hbefore r hr
  rw [List.append_assoc, heq, ← List.append_assoc]
  refine .finished after hended hopen hqend hfile (.inr ?_)
  rw [frameOf_append, List.length_append]
  omega

/-- Once the buffer is full no packet is stored, and the frame is declared complete without what is missing. -/
theorem processTsPacket_halted (h : Halted ctx files ps) (hinit : ctx.initialized = true)
    (hcomplete : ctx.idrFrameComplete = false) (p : TsPacket) (rest : List UInt8) :
    ∃ outcome, processTsPacket deliver (p.bytes ++ rest) ctx = .ok outcome ∧ Follows files (ps ++ [p]) outcome := by
  cases h with
  | @overflowed ps seen start body more hfields hopen hlarge hfull =>
    have hskip := (Halted.overflowed more hfields hopen hlarge hfull).skip [p]
    rw [processTsPacket_started deliver hfields]
    split_ifs with hend hpid
    · obtain ⟨hended, hcaptured⟩ := completeFrame_ended deliver ctx
      refine ⟨_, rfl, ?_⟩
      unfold Follows
      dsimp only
      rw [hcaptured]
      exact hopen.declared hlarge hend hended ((List.length_take_le _ _).trans hfields.size_le) more
    · exact ⟨_, rfl, .halted hskip, hfields.live⟩
    · exact ⟨_, rfl, hskip⟩
  | finished more hended hopen hend hfile hframe =>
    rcases hended with hended | hended
    · rw [hinit] at hended
      cases hended
    · rw [hcomplete] at hended
      cases hended

/-- The packet of a context that still searches. -/
theorem processTsPacket_searching (h : Searching ctx ps) (p : TsPacket) (rest : List UInt8) : ∃ ctx',
    Searching ctx' (ps ++ [p]) ∧ processTsPacket deliver (p.bytes ++ rest) ctx =
      startsIdr (p.bytes ++ rest) >>= fun started => if started then
        copyTs ctx'.idrFrameMmap ctx'.tsHeaderSize (p.bytes ++ rest) >>= fun mmap =>
          .ok (.next { ctx' with
            idrFrameStarted := true, videoPid := p.pid, idrFrameMmap := mmap,
            idrFrameSize := ctx'.tsHeaderSize + tsPacketSize })
      else .ok (.next ctx') := by
  obtain ⟨ctx', hcache, hsearch⟩ := cacheTsHeaderPacket_searching h p rest
  refine ⟨ctx', hsearch, ?_⟩
  have hfits : ¬ ctx'.tsHeaderSize + tsPacketSize > ctx'.idrFrameCapacity := by
    have hle := length_header_le (ps ++ [p])
    rw [← hsearch.header.size] at hle
    rw [hsearch.capacity]
    unfold tsPacketSize snapshotBufferCapacity at *
    omega
  unfold processTsPacket
  rw [tsPidAt_packet, tsByte_packet (by decide)]
  simp only [Except.ok_bind, h.started, hsearch.started, Bool.false_eq_true, if_false, hcache]
  cases startsIdr (p.bytes ++ rest) with
  | error e => rfl
  | ok started =>
    simp only [Except.ok_bind]
    cases started with
    | false =>
      simp only [Bool.false_eq_true, if_false, hsearch.started, if_true]
      rfl
    | true =>
      simp only [if_true, Bool.true_eq_false, if_false, gt_iff_lt, Nat.lt_irrefl, and_false, ne_eq,
        not_true_eq_false, if_neg hfits]
      rfl

/-- A packet is next to its start in the buffer. -/
theorem follows_searching (h : Searching ctx ps) (hnone : ∀ q ∈ ps, q.idrStart = false)
    (hread : startsIdr (p.bytes ++ rest) = .ok p.idrStart) :
    ∃ ctx', processTsPacket deliver (p.bytes ++ rest) ctx = .ok (.next ctx') ∧ Follows [] (ps ++ [p]) (.next ctx') := by
  obtain ⟨ctx', hsearch, hstep⟩ := processTsPacket_searching deliver h p rest
  rw [hread, Except.ok_bind] at hstep
  by_cases hidr : p.idrStart = true
  · rw [if_pos hidr] at hstep
    have hle := length_header_le (ps ++ [p])
    rw [← hsearch.header.size] at hle
    have hfits : ctx'.tsHeaderSize + tsPacketSize ≤ snapshotBufferCapacity := by
      unfold tsPacketSize snapshotBufferCapacity at *
      omega
    obtain ⟨copied, hcopy, hlen, htake⟩ := copyTs_packet (p := p) (by rw [hsearch.header.length]; exact hfits) rest
    rw [hcopy] at hstep
    have hframe : frameOf ps p [] = header (ps ++ [p]) ++ p.bytes := by
      rw [frameOf, List.filter_nil, bytesOf_singleton]
    refine ⟨_, hstep, .collecting (show Collecting _ (ps ++ [p]) ps p [] from
      ⟨?_, ⟨rfl, ⟨hnone, hidr⟩, fun q hq => absurd hq List.not_mem_nil⟩, ?_, ?_⟩), hsearch.initialized, hsearch.complete⟩
    · exact ⟨hsearch.initialized, hsearch.complete, rfl, hsearch.capacity, rfl, hlen.trans hsearch.header.length,
        Nat.lt_add_of_pos_right (by decide), hfits⟩
    · rw [hframe, List.length_append, p.length_eq, ← hsearch.header.size]
    · rw [hframe, ← hsearch.header.bytes]
      exact htake
  · rw [if_neg hidr] at hstep
    refine ⟨ctx', hstep, .searching hsearch fun q hq => ?_, hsearch.initialized, hsearch.complete⟩
    rcases List.mem_append.1 hq with hq | hq
    · exact hnone q hq
    · rw [List.mem_singleton.1 hq]
      exact Bool.not_eq_true _ ▸ hidr

end

/-! ### One payload -/

/-- No PES header is read behind the payload: the last packet has none that is short, or the frame has started. -/
def ReadsPayload (ps payload : List TsPacket) : Prop :=
  ∀ p, payload.getLast? = some p → p.ShortPes → ∃ q ∈ ps ++ payload.dropLast, q.idrStart = true

/-- The payload of a packet, in RTP or bare. -/
def payloadOf (buf : List UInt8) : Option (List UInt8) :=
  match rtpGetPayload buf with
  | .ok (.rtp payloadStart size _) => some ((buf.drop payloadStart).take size)
  | .ok .notRtp | .ok .fec => some buf
  | _ => none

/-- The packet arrives with these TS packets as its payload. -/
def Carries (buf : List UInt8) (payload : List TsPacket) : Prop := payloadOf buf = some (bytesOf payload)

section
variable (deliver : List UInt8 → Delivery) {ctx : SnapshotContext} {ps payload : List TsPacket} {p : TsPacket}
  {files : List (List UInt8)} {buf : List UInt8}

theorem processTsPackets_skip (taken rest : List UInt8) (ctx : SnapshotContext) :
    processTsPackets deliver taken.length (taken ++ rest) ctx = processTsPackets deliver 0 rest ctx := by
  induction taken with
  | nil => rfl
  | cons b taken ih =>
    rw [List.length_cons, List.cons_append, processTsPackets, ih]

theorem processTsPackets_packet (p : TsPacket) (rest : List UInt8) (ctx : SnapshotContext) :
    processTsPackets deliver 0 (p.bytes ++ rest) ctx = processTsPacket deliver (p.bytes ++ rest) ctx >>= fun outcome =>
      match outcome with
      | .next ctx => processTsPackets deliver 0 rest ctx
      | .done processed => .ok processed := by
  have hlen := p.length_eq
  have hsync := p.sync
  cases hbytes : p.bytes with
  | nil =>
    rw [hbytes] at hlen
    cases hlen
  | cons b taken =>
    rw [hbytes] at hlen hsync
    have htaken : taken.length = tsPacketSize - 1 := by
      rw [← hlen]
      rfl
    have hskip := fun ctx => processTsPackets_skip deliver taken rest ctx
    rw [htaken] at hskip
    have hb : ¬ b ≠ tsSyncByte := not_not_intro (Option.some.inj hsync)
    have hlong : ¬ (b :: (taken ++ rest)).length < tsPacketSize := by
      rw [List.length_cons, List.length_append]
      rw [List.length_cons] at hlen
      omega
    rw [List.cons_append, processTsPackets, if_neg hlong, if_neg hb]
    cases processTsPacket deliver (b :: (taken ++ rest)) ctx with
    | error e => rfl
    | ok outcome =>
      cases outcome with
      | next ctx => exact hskip ctx
      | done processed => rfl

/-- After the start of the frame nothing is read behind the payload. -/
theorem processTsPackets_started (h : Tracks ctx files ps) (hinit : ctx.initialized = true)
    (hcomplete : ctx.idrFrameComplete = false) (hsaw : ∃ q ∈ ps, q.idrStart = true) : ∃ processed,
    processTsPackets deliver 0 (bytesOf payload) ctx = .ok processed ∧
      Tracks processed.ctx (files ++ processed.captured.toList) (ps ++ payload) := by
  induction payload generalizing ctx ps with
  | nil => exact ⟨⟨0, ctx, none⟩, rfl, by simpa using h⟩
  | cons p payload ih =>
    rw [bytesOf_cons, processTsPackets_packet deliver]
    have hstep : ∃ outcome, processTsPacket deliver (p.bytes ++ bytesOf payload) ctx = .ok outcome ∧
        Follows files (ps ++ [p]) outcome := by
      cases h with
      | searching hsearch hnone =>
        obtain ⟨q, hq, hidr⟩ := hsaw
        rw [hnone q hq] at hidr
        cases hidr
      | collecting hcollect => exact processTsPacket_collecting deliver hcollect p _
      | halted hhalted => exact processTsPacket_halted deliver hhalted hinit hcomplete p _
    obtain ⟨outcome, houtcome, hfollows⟩ := hstep
    rw [houtcome, Except.ok_bind]
    have hps : ps ++ p :: payload = ps ++ [p] ++ payload := by rw [List.append_assoc, List.singleton_append]
    rw [hps]
    cases outcome with
    | next ctx' =>
      obtain ⟨q, hq, hidr⟩ := hsaw
      exact ih hfollows.1 hfollows.2.1 hfollows.2.2 ⟨q, List.mem_append_left _ hq, hidr⟩
    | done processed => exact ⟨processed, rfl, .halted (hfollows.skip payload)⟩

theorem readsPayload_of_started (hsaw : ∃ q ∈ ps, q.idrStart = true) (payload : List TsPacket) :
    ReadsPayload ps payload := by
  obtain ⟨q, hq, hidr⟩ := hsaw
  exact fun _ _ _ => ⟨q, List.mem_append_left _ hq, hidr⟩

theorem readsPayload_cons {q : TsPacket} : ReadsPayload ps (p :: q :: payload) ↔
    ReadsPayload (ps ++ [p]) (q :: payload) := by
  rw [ReadsPayload, ReadsPayload, List.getLast?_cons_cons, List.dropLast_cons_cons, List.append_assoc,
    List.singleton_append]

theorem processTsPackets_searching (h : Searching ctx ps) (hnone : ∀ q ∈ ps, q.idrStart = false) :
    (ReadsPayload ps payload → ∃ processed, processTsPackets deliver 0 (bytesOf payload) ctx = .ok processed ∧
        Tracks processed.ctx processed.captured.toList (ps ++ payload)) ∧
      (¬ ReadsPayload ps payload → processTsPackets deliver 0 (bytesOf payload) ctx = .error .payloadRead) := by
  induction payload generalizing ctx ps with
  | nil => exact ⟨fun _ => ⟨⟨0, ctx, none⟩, rfl, by simpa using Tracks.searching h hnone⟩, fun hnot => absurd nofun hnot⟩
  | cons p payload ih =>
    rw [bytesOf_cons, processTsPackets_packet deliver]
    by_cases hfault : p.ShortPes ∧ payload = []
    · obtain ⟨hshort, rfl⟩ := hfault
      have hnot : ¬ ReadsPayload ps [p] := fun hreads => by
        obtain ⟨q, hq, hidr⟩ := hreads p rfl hshort
        rw [hnone q (by simpa using hq)] at hidr
        cases hidr
      refine ⟨fun hreads => absurd hreads hnot, fun _ => ?_⟩
      obtain ⟨ctx', -, hstep⟩ := processTsPacket_searching deliver h p []
      rw [startsIdr_short hshort [] (.inl rfl), if_pos rfl] at hstep
      have hbytes : bytesOf [] = [] := rfl
      rw [hbytes, hstep]
      rfl
    · have hread : startsIdr (p.bytes ++ bytesOf payload) = .ok p.idrStart := by
        by_cases hshort : p.ShortPes
        · obtain ⟨q, payload, rfl⟩ := List.exists_cons_of_ne_nil fun hnil => hfault ⟨hshort, hnil⟩
          have hlen : 3 ≤ (bytesOf (q :: payload)).length := by
            rw [length_bytesOf, List.length_cons]
            unfold tsPacketSize
            omega
          rw [startsIdr_short hshort _ (.inr hlen), if_neg (List.ne_nil_of_length_pos (by omega))]
        · exact startsIdr_settled hshort _
      obtain ⟨ctx', hstep, htracks, hinit, hcomplete⟩ := follows_searching deliver h hnone hread
      rw [hstep, Except.ok_bind]
      have hps : ps ++ p :: payload = ps ++ [p] ++ payload := by rw [List.append_assoc, List.singleton_append]
      have hreads : ReadsPayload ps (p :: payload) ↔ ReadsPayload (ps ++ [p]) payload := by
        cases payload with
        | nil => exact iff_of_true (fun q hq hshort => absurd ⟨(show p = q from Option.some.inj hq) ▸ hshort, rfl⟩ hfault) nofun
        | cons q payload => exact readsPayload_cons
      rw [hps, hreads]
      by_cases hsaw : ∃ q ∈ ps ++ [p], q.idrStart = true
      · exact ⟨fun _ => processTsPackets_started deliver htracks hinit hcomplete hsaw,
          fun hnot => absurd (readsPayload_of_started hsaw payload) hnot⟩
      · have hnone' : ∀ q ∈ ps ++ [p], q.idrStart = false := fun q hq =>
          Bool.not_eq_true _ ▸ fun hidr => hsaw ⟨q, hq, hidr⟩
        cases htracks with
        | searching hsearch _ => exact ih hsearch hnone'
        | collecting hcollect => exact absurd hcollect.packets.saw hsaw
        | halted hhalted => exact absurd hhalted.saw hsaw

theorem processPayload_packets (payload : List TsPacket) (ctx : SnapshotContext) :
    processPayload deliver (bytesOf payload) ctx = processTsPackets deliver 0 (bytesOf payload) ctx := by
  cases payload with
  | nil => rfl
  | cons p payload =>
    refine if_pos ⟨?_, ?_⟩
    · rw [length_bytesOf, List.length_cons]
      exact Nat.le_mul_of_pos_right _ (Nat.succ_pos _)
    · rw [bytesOf_cons, List.head?_append, p.sync]
      rfl

theorem snapshotProcessPacket_carries (hbuf : Carries buf payload) (hinit : ctx.initialized = true)
    (hcomplete : ctx.idrFrameComplete = false) :
    snapshotProcessPacket deliver ctx buf = processTsPackets deliver 0 (bytesOf payload) ctx := by
  unfold Carries payloadOf at hbuf
  unfold snapshotProcessPacket
  simp only [hinit, hcomplete, Bool.true_eq_false, Bool.false_eq_true, if_false]
  split at hbuf
  · next payloadStart size seqn hrtp =>
    rw [hrtp, ← processPayload_packets deliver, ← Option.some.inj hbuf]
    rfl
  · next hrtp =>
    rw [hrtp, ← processPayload_packets deliver, ← Option.some.inj hbuf]
    rfl
  · next hrtp =>
    rw [hrtp, ← processPayload_packets deliver, ← Option.some.inj hbuf]
    rfl
  · cases hbuf

/-- One payload: it is read without a fault exactly if no PES header is read behind it. -/
theorem snapshotProcessPacket_tracks (h : Tracks ctx files ps) (hbuf : Carries buf payload) :
    (ReadsPayload ps payload → ∃ processed, snapshotProcessPacket deliver ctx buf = .ok processed ∧
        Tracks processed.ctx (files ++ processed.captured.toList) (ps ++ payload)) ∧
      (¬ ReadsPayload ps payload → snapshotProcessPacket deliver ctx buf = .error .payloadRead) := by
  by_cases hlive : ctx.initialized = true ∧ ctx.idrFrameComplete = false
  · rw [snapshotProcessPacket_carries deliver hbuf hlive.1 hlive.2]
    cases h with
    | searching hsearch hnone => exact processTsPackets_searching deliver hsearch hnone
    | collecting hcollect =>
      exact ⟨fun _ => processTsPackets_started deliver (.collecting hcollect) hlive.1 hlive.2 hcollect.packets.saw,
        fun hnot => absurd (readsPayload_of_started hcollect.packets.saw payload) hnot⟩
    | halted hhalted =>
      exact ⟨fun _ => processTsPackets_started deliver (.halted hhalted) hlive.1 hlive.2 hhalted.saw,
        fun hnot => absurd (readsPayload_of_started hhalted.saw payload) hnot⟩
  · -- the frame has been declared complete before
    have hhalted : Halted ctx files ps := by
      cases h with
      | searching hsearch _ => exact absurd ⟨hsearch.initialized, hsearch.complete⟩ hlive
      | collecting hcollect => exact absurd hcollect.fields.live hlive
      | halted hhalted => exact hhalted
    refine ⟨fun _ => ?_, fun hnot => absurd (readsPayload_of_started hhalted.saw payload) hnot⟩
    have hskip := hhalted.skip payload
    unfold snapshotProcessPacket
    by_cases hinit : ctx.initialized = false
    · exact ⟨⟨-1, ctx, none⟩, if_pos hinit, .halted (by simpa using hskip)⟩
    · have hcomplete : ctx.idrFrameComplete = true := by
        by_contra hnot
        exact hlive ⟨Bool.not_eq_false _ ▸ hinit, Bool.not_eq_true _ ▸ hnot⟩
      rw [if_neg hinit, if_pos hcomplete]
      exact ⟨⟨0, ctx, none⟩, rfl, .halted (by simpa using hskip)⟩

end

/-! ### Runs -/

/-- No PES header is read behind any of the payloads that follow the packets `ps`. -/
def ReadsInside (ps : List TsPacket) : List (List TsPacket) → Prop
  | [] => True
  | payload :: payloads => ReadsPayload ps payload ∧ ReadsInside (ps ++ payload) payloads

section
variable (deliver : List UInt8 → Delivery) {ctx : SnapshotContext} {ps : List TsPacket} {files : List (List UInt8)}
  {bufs : List (List UInt8)} {payloads : List (List TsPacket)}

theorem snapshotRun_tracks (h : Tracks ctx files ps) (hbufs : List.Forall₂ Carries bufs payloads) :
    (ReadsInside ps payloads → ∃ ctx' new, snapshotRun deliver ctx bufs = .ok (ctx', new) ∧
        Tracks ctx' (files ++ new) (ps ++ payloads.flatten)) ∧
      (¬ ReadsInside ps payloads → snapshotRun deliver ctx bufs = .error .payloadRead) := by
  induction hbufs generalizing ctx ps files with
  | nil => exact ⟨fun _ => ⟨ctx, [], rfl, by simpa using h⟩, fun hnot => absurd trivial hnot⟩
  | @cons buf payload bufs payloads hbuf hbufs ih =>
    obtain ⟨hread, hfault⟩ := snapshotProcessPacket_tracks deliver h hbuf
    rw [ReadsInside, snapshotRun]
    by_cases hreads : ReadsPayload ps payload
    · obtain ⟨processed, hprocessed, htracks⟩ := hread hreads
      obtain ⟨hrest, hrestFault⟩ := ih htracks
      rw [hprocessed, Except.ok_bind]
      constructor
      · rintro ⟨-, hinside⟩
        obtain ⟨ctx', new, hrun, htracks'⟩ := hrest hinside
        rw [hrun]
        refine ⟨ctx', processed.captured.toList ++ new, rfl, ?_⟩
        rw [List.flatten_cons, ← List.append_assoc, ← List.append_assoc]
        exact htracks'
      · intro hnot
        rw [hrestFault fun hinside => hnot ⟨hreads, hinside⟩]
        rfl
    · refine ⟨fun hinside => absurd hinside.1 hreads, fun _ => ?_⟩
      rw [hfault hreads]
      rfl

/-- Nothing is written outside the buffer. -/
theorem snapshotRun_writes_inside (fallback : Bool) (h : List.Forall₂ Carries bufs payloads) :
    snapshotRun deliver (snapshotInit fallback) bufs ≠ .error .bufferWrite := by
  obtain ⟨hread, hfault⟩ := snapshotRun_tracks deliver (.searching (searching_init fallback) nofun) h
  intro hwrite
  by_cases hinside : ReadsInside [] payloads
  · obtain ⟨ctx, new, hrun, -⟩ := hread hinside
    rw [hrun] at hwrite
    cases hwrite
  · rw [hfault hinside] at hwrite
    cases hwrite

/-- A run stays inside its payloads and hands on exactly the frame of the stream, once it is complete, if and only if
no packet with a short PES header ends a payload before the frame has started, and the frame fits in the buffer. -/
theorem snapshotRun_captures_iff (fallback : Bool) (h : List.Forall₂ Carries bufs payloads) :
    (∃ ctx, snapshotRun deliver (snapshotInit fallback) bufs = .ok (ctx, (captureFrame payloads.flatten).toList)) ↔
      ReadsInside [] payloads ∧
        ∀ frame, captureFrame payloads.flatten = some frame → frame.length ≤ snapshotBufferCapacity := by
  obtain ⟨hread, hfault⟩ := snapshotRun_tracks deliver (.searching (searching_init fallback) nofun) h
  by_cases hinside : ReadsInside [] payloads
  · obtain ⟨ctx, new, hrun, htracks⟩ := hread hinside
    rw [List.nil_append, List.nil_append] at htracks
    rw [and_iff_right hinside, ← htracks.files_iff, hrun]
    constructor
    · rintro ⟨ctx', heq⟩
      exact (Prod.mk.inj (Except.ok.inj heq)).2
    · rintro hfiles
      exact ⟨ctx, by rw [hfiles]⟩
  · rw [hfault hinside]
    exact iff_of_false (fun ⟨_, heq⟩ => nomatch heq) fun h => hinside h.1

end

/-- Packets that are not in RTP. -/
theorem carries_bare (payload : List TsPacket) : Carries (bytesOf payload) payload := by
  have hbare : rtpGetPayload (bytesOf payload) = .ok .notRtp := by
    unfold rtpGetPayload
    cases payload with
    | nil => rfl
    | cons p payload =>
      have hlen : ¬ (bytesOf (p :: payload)).length < 12 := by
        rw [length_bytesOf, List.length_cons]
        unfold tsPacketSize
        omega
      have hsync : byteAt (bytesOf (p :: payload)) 0 = .ok tsSyncByte := by
        have hhead : (p.bytes ++ bytesOf payload)[0]? = some tsSyncByte := by
          rw [← List.head?_eq_getElem?, List.head?_append, p.sync]
          rfl
        rw [bytesOf_cons, byteAt, hhead]
      rw [if_neg hlen, hsync]
      rfl
  rw [Carries, payloadOf, hbare]

/-- A packet of these first bytes, filled up. -/
def filledPacket (first : List UInt8) (h : first.length + 1 ≤ tsPacketSize) : TsPacket where
  bytes := tsSyncByte :: (first ++ List.replicate (tsPacketSize - (first.length + 1)) 0xFF)
  length_eq := by
    rw [List.length_cons, List.length_append, List.length_replicate]
    omega
  sync := rfl

/-- A PAT that names PID 256, and the PMT. -/
def patPacket : TsPacket :=
  filledPacket [0x40, 0, 0x10, 0, 0, 0xB0, 13, 0, 1, 0xC1, 0, 0, 0, 1, 0xE1, 0, 1, 2, 3, 4] (by decide)

def pmtPacket : TsPacket := filledPacket [0x41, 0, 0x10, 0, 2, 0xB0, 18] (by decide)

/-- A PES header of a video stream and the NAL unit of an IDR frame, on PID 257. -/
def idrPacket : TsPacket :=
  filledPacket [0x41, 1, 0x10, 0, 0, 1, 0xE0, 0, 0, 0x80, 0, 0, 0, 0, 1, 0x65] (by decide)

def videoPacket : TsPacket := filledPacket [1, 1, 0x11, 7] (by decide)

def audioPacket : TsPacket := filledPacket [0x41, 2, 0x10, 0, 0, 1, 0xC0] (by decide)

/-- The next frame, which is no IDR frame. -/
def nextPacket : TsPacket :=
  filledPacket [0x41, 1, 0x12, 0, 0, 1, 0xE0, 0, 0, 0x80, 0, 0, 0, 0, 1, 0x41] (by decide)

def framePayloads : List (List TsPacket) :=
  [[patPacket, audioPacket], [pmtPacket, idrPacket, audioPacket], [videoPacket], [nextPacket, videoPacket]]

/-- The first payload comes in RTP. -/
def frameBufs : List (List UInt8) :=
  ([0x80, 33, 0, 1, 0, 0, 0, 0, 0, 0, 0, 0] ++ bytesOf [patPacket, audioPacket]) :: framePayloads.tail.map bytesOf

theorem readsPayload_of_getLast? {ps payload : List TsPacket} (h : ∀ p ∈ payload.getLast?, ¬ p.ShortPes) :
    ReadsPayload ps payload := fun p hp hshort => absurd hshort (h p hp)

/-- The PAT, the PMT and both packets of the frame are handed on, without the audio and the next frame. -/
theorem snapshotRun_captures_iff_idr :
    ∃ ctx, snapshotRun (fun _ => .sent) (snapshotInit false) frameBufs =
      .ok (ctx, [bytesOf [patPacket, pmtPacket, idrPacket, videoPacket]]) := by
  have hcarries : List.Forall₂ Carries frameBufs framePayloads :=
    .cons (by show payloadOf _ = some _; decide +kernel)
      (.cons (carries_bare _) (.cons (carries_bare _) (.cons (carries_bare _) .nil)))
  have hreads : ReadsInside [] framePayloads :=
    ⟨readsPayload_of_getLast? (by decide +kernel), readsPayload_of_getLast? (by decide +kernel),
      readsPayload_of_getLast? (by decide +kernel), readsPayload_of_getLast? (by decide +kernel), trivial⟩
  have hframe : captureFrame framePayloads.flatten =
      some (bytesOf [patPacket, pmtPacket, idrPacket, videoPacket]) := by decide +kernel
  obtain ⟨ctx, hrun⟩ := (snapshotRun_captures_iff (fun _ => .sent) false hcarries).2 ⟨hreads, fun frame hsome => by
    rw [← Option.some.inj (hframe.symm.trans hsome)]
    decide +kernel⟩
  rw [hframe] at hrun
  exact ⟨ctx, hrun⟩

/-- A packet whose payload of six bytes is the beginning of a PES header. -/
def shortPacket : TsPacket where
  bytes := [0x47, 0x41, 0, 0x30, 177] ++ List.replicate 177 0xFF ++ [0, 0, 1, 0xE0, 0, 0]
  length_eq := rfl
  sync := rfl

/-- Six bytes are asked for, and the ninth is read behind the payload. -/
theorem snapshotRun_reads_behind :
    ¬ ∀ (deliver : List UInt8 → Delivery) (fallback : Bool) (bufs : List (List UInt8)) (payloads : List (List TsPacket)),
      List.Forall₂ Carries bufs payloads →
        ∃ ctx, snapshotRun deliver (snapshotInit fallback) bufs = .ok (ctx, (captureFrame payloads.flatten).toList) := by
  intro h
  have hcarries : List.Forall₂ Carries [bytesOf [shortPacket]] [[shortPacket]] := .cons (carries_bare [shortPacket]) .nil
  have hshort : shortPacket.ShortPes := by decide +kernel
  have hbehind : ¬ ReadsInside [] [[shortPacket]] := by
    rintro ⟨hreads, -⟩
    obtain ⟨q, hq, -⟩ := hreads shortPacket rfl hshort
    cases hq
  have hfault := (snapshotRun_tracks (fun _ => .sent) (.searching (searching_init false) nofun) hcarries).2 hbehind
  obtain ⟨ctx, hrun⟩ := h (fun _ => .sent) false _ _ hcarries
  rw [hfault] at hrun
  cases hrun

end Rtp2httpd.Snapshot
