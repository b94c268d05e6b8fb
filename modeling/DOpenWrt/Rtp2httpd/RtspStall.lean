import DOpenWrt.Rtp2httpd.RtspInterleaved

/-!
# A full response buffer

From a full buffer something can be taken unless the frame at its front is announced longer than the buffer, or what stands
there is neither a frame nor a whole request. Then nothing is received any more.
-/

namespace Rtp2httpd.Rtsp
open CString

/-- Nothing can be taken from the front of a full buffer with these bytes. -/
def Stuck (buffer : List UInt8) : Prop :=
  if buffer.head? = some dollar then rtspResponseBufferSize < 4 + packetLength buffer
  else ¬ (isServerRequest buffer = true ∧ crlfcrlf <:+: cstr buffer)

section
variable {γ : Type} {sink : MediaSink γ} {s : RtspSession γ} {fuel : Nat} {n : Int}

/-! ### Rounds -/

theorem strstr_none {needle text : List UInt8} : strstr needle text = none ↔ ¬ needle <:+: text := by
  induction text with
  | nil =>
    rw [strstr, List.infix_nil]
    split <;> simp [*]
  | cons c text ih =>
    rw [strstr, List.infix_cons_iff, ← List.isPrefixOf_iff_prefix]
    unfold startsWith
    split
    · next h => simp [h]
    · next h => simp [h, ih]

theorem strstr_some_le {needle text : List UInt8} {i : Nat} (h : strstr needle text = some i) :
    i + needle.length ≤ text.length := by
  induction text generalizing i with
  | nil =>
    rw [strstr] at h
    split at h <;> cases h
    next hnil =>
    rw [hnil]
    exact le_rfl
  | cons c text ih =>
    rw [strstr] at h
    split at h
    · next hprefix =>
      cases h
      have := (List.isPrefixOf_iff_prefix.1 hprefix).length_le
      omega
    · obtain ⟨j, hj, rfl⟩ := Option.map_eq_some_iff.1 h
      have := ih hj
      rw [List.length_cons]
      omega

theorem cstr_length_le (text : List UInt8) : (cstr text).length ≤ text.length := (List.takeWhile_prefix _).length_le

theorem consume_pos (s : RtspSession γ) (k : Nat) (h : k ≤ s.responseBufferPos) :
    (s.consume k h).responseBufferPos = s.responseBufferPos - k := rfl

theorem requestRound_le : (requestRound s).session.responseBufferPos ≤ s.responseBufferPos := by
  unfold requestRound
  dsimp only
  split
  · exact le_rfl
  · split
    · exact Nat.sub_le _ _
    · exact le_rfl

theorem requestRound_goOn (h : (requestRound s).ending = .goOn) :
    (requestRound s).session.responseBufferPos < s.responseBufferPos := by
  unfold requestRound at h ⊢
  dsimp only at h ⊢
  split at h
  · cases h
  · next endMarker _ =>
    split at h
    · next hle =>
      rw [dif_pos hle, consume_pos]
      dsimp only at hle ⊢
      omega
    · cases h

theorem resync_lt (h : 4 ≤ s.responseBufferPos) : (resync s).responseBufferPos < s.responseBufferPos := by
  unfold resync
  split
  · next i hi =>
    have hlt := (List.idxOf?_eq_some_iff.1 hi).1
    rw [List.length_drop, List.length_take] at hlt
    have := s.size_eq
    have hle : i + 1 ≤ s.responseBufferPos := by omega
    rw [dif_pos hle, consume_pos]
    omega
  · rw [consume_pos]
    omega

theorem frameRound_le : (frameRound sink s).session.responseBufferPos ≤ s.responseBufferPos := by
  unfold frameRound
  dsimp only
  split
  · exact le_rfl
  · next hlen =>
    split
    · exact (resync_lt (by omega)).le
    · split
      · rw [consume_pos, deliverPacket_pos]
        exact Nat.sub_le _ _
      · rw [deliverPacket_pos]

/-- A whole frame is removed, or what is no frame is skipped. -/
theorem frameRound_lt (h : 4 + packetLength s.responseBuffer ≤ s.responseBufferPos) :
    (frameRound sink s).session.responseBufferPos < s.responseBufferPos := by
  unfold frameRound
  dsimp only
  rw [if_neg (Nat.not_lt.2 h)]
  split
  · exact resync_lt (by omega)
  · rw [dif_pos (by rwa [deliverPacket_pos]), consume_pos, deliverPacket_pos]
    omega

theorem frameRound_waits (h : s.responseBufferPos < 4 + packetLength s.responseBuffer) : frameRound sink s = ⟨s, 0, .waits⟩ :=
  if_pos h

theorem interleavedRound_le : (interleavedRound sink s).session.responseBufferPos ≤ s.responseBufferPos := by
  unfold interleavedRound
  split
  · split
    · exact requestRound_le
    · exact le_rfl
  · exact frameRound_le

theorem interleavedRound_goOn (h : (interleavedRound sink s).ending = .goOn) :
    (interleavedRound sink s).session.responseBufferPos < s.responseBufferPos := by
  unfold interleavedRound at h ⊢
  split at h
  · next hno =>
    rw [if_pos hno]
    split at h
    · next hrequest =>
      rw [if_pos hrequest]
      exact requestRound_goOn h
    · cases h
  · next hframe =>
    rw [if_neg hframe]
    by_cases hlen : 4 + packetLength s.responseBuffer ≤ s.responseBufferPos
    · exact frameRound_lt hlen
    · rw [frameRound_waits (Nat.lt_of_not_le hlen)] at h
      cases h

/-! ### The loop -/

theorem processLoop_le : (processLoop sink fuel s n).1.responseBufferPos ≤ s.responseBufferPos := by
  induction fuel generalizing s n with
  | zero => exact le_rfl
  | succ fuel ih =>
    rw [processLoop]
    split
    · exact le_rfl
    · have hround : (interleavedRound sink s).session.responseBufferPos ≤ s.responseBufferPos := interleavedRound_le
      dsimp only
      split
      · exact ih.trans hround
      · exact hround
      · exact hround
      · exact hround

theorem processLoop_ends (h : s.responseBufferPos < fuel) : (processLoop sink fuel s n).2 ≠ .runsOn := by
  induction fuel generalizing s n with
  | zero => omega
  | succ fuel ih =>
    rw [processLoop]
    split
    · exact nofun
    · dsimp only
      split
      · next hgoOn =>
        have := interleavedRound_goOn hgoOn
        exact ih (by omega)
      · exact nofun
      · exact nofun
      · exact nofun

/-- The loop removes something if its first round does. -/
theorem process_lt_iff (h : 4 ≤ s.responseBufferPos) :
    (rtspProcessInterleavedBuffer sink s).1.responseBufferPos < s.responseBufferPos ↔
      (interleavedRound sink s).session.responseBufferPos < s.responseBufferPos := by
  rw [rtspProcessInterleavedBuffer, processLoop, if_neg (Nat.not_lt.2 h)]
  dsimp only
  split
  · next hgoOn =>
    have hlt := interleavedRound_goOn hgoOn
    exact ⟨fun _ => hlt, fun _ => processLoop_le.trans_lt hlt⟩
  · exact Iff.rfl
  · exact Iff.rfl
  · exact Iff.rfl

theorem process_ends : (rtspProcessInterleavedBuffer sink s).2 ≠ .runsOn := processLoop_ends (Nat.lt_succ_self _)

/-- Where the buffer fills up, an answer was taken unless it was full. -/
theorem fillBuffer_answers {answers left : List RecvAnswer} {s' : RtspSession γ}
    (h : fillBuffer answers s = (s', .full, left)) :
    left.length ≤ answers.length ∧ (s.responseBufferPos < rtspResponseBufferSize → left.length < answers.length) := by
  induction answers generalizing s with
  | nil =>
    unfold fillBuffer at h
    split at h <;> cases h
    next hfull => exact ⟨le_rfl, fun hlt => absurd hlt hfull⟩
  | cons answer answers ih =>
    unfold fillBuffer at h
    split at h
    · split at h
      · cases h
      · have := (ih h).1
        rw [List.length_cons]
        exact ⟨by omega, fun _ => by omega⟩
      · cases h
      · cases h
    · next hfull =>
      cases h
      exact ⟨le_rfl, fun hlt => absurd hlt hfull⟩

/-- With a round for every answer, and one more for a buffer that is full at the start, the loop ends. -/
theorem handleLoop_ends {answers : List RecvAnswer} {processed : List (RtspSession γ)}
    (h : answers.length + (if s.responseBufferPos < rtspResponseBufferSize then 1 else 2) ≤ fuel) :
    (handleLoop sink fuel answers s n processed).ending ≠ .runsOn := by
  induction fuel generalizing answers s n processed with
  | zero => split at h <;> omega
  | succ fuel ih =>
    rw [handleLoop]
    rcases sink.connectionShouldPauseUpstream s.conn with ⟨_ | _, conn⟩
    · dsimp only
      split
      · exact nofun
      · next t fillEnd left hgone hfill =>
        have hends := @process_ends γ sink t
        split
        · split
          · exact nofun
          · next hmore =>
            rw [not_or] at hmore
            apply ih
            rw [if_pos (Nat.lt_of_not_le hmore.2)]
            cases fillEnd with
            | full =>
              obtain ⟨hle, hlt⟩ := fillBuffer_answers hfill
              dsimp only at hlt
              split at h
              · next hroom =>
                have := hlt hroom
                omega
              · omega
            | hitEagain => exact absurd rfl hmore.1
            | gone => exact (hgone rfl).elim
        · exact nofun
        · exact nofun
        · next hprocess => exact absurd (by rw [hprocess]) hends
    · exact nofun

theorem handle_ends (answers : List RecvAnswer) : (rtspHandleTcpInterleavedData sink answers s).ending ≠ .runsOn :=
  handleLoop_ends (by split <;> omega)

/-! ### A full buffer -/

/-- In a full buffer every request that is found is whole. -/
theorem requestRound_full (hfull : s.responseBufferPos = rtspResponseBufferSize) :
    (requestRound s).session.responseBufferPos < s.responseBufferPos ↔ crlfcrlf <:+: cstr s.responseBuffer := by
  have hsize := s.size_eq
  unfold requestRound
  dsimp only
  split
  · next hnone => exact ⟨fun h => absurd h (lt_irrefl _), fun h => absurd h (strstr_none.1 hnone)⟩
  · next endMarker hsome =>
    have hle := (strstr_some_le hsome).trans (cstr_length_le _)
    have hlength : crlfcrlf.length = 4 := rfl
    have hinfix : crlfcrlf <:+: cstr s.responseBuffer := by
      by_contra h
      rw [strstr_none.2 h] at hsome
      cases hsome
    have hin : endMarker + 4 ≤ s.responseBufferPos := by omega
    rw [dif_pos hin]
    refine ⟨fun _ => hinfix, fun _ => ?_⟩
    show s.responseBufferPos - (endMarker + 4) < s.responseBufferPos
    omega

theorem interleavedRound_full (hfull : s.responseBufferPos = rtspResponseBufferSize) :
    (interleavedRound sink s).session.responseBufferPos < s.responseBufferPos ↔ ¬ Stuck s.responseBuffer := by
  have h8 : 8 ≤ s.responseBufferPos := by
    rw [hfull]
    decide
  unfold interleavedRound Stuck
  by_cases hframe : s.responseBuffer.head? = some dollar
  · rw [if_neg (not_not_intro hframe), if_pos hframe, ← hfull, Nat.not_lt]
    refine ⟨fun hlt => ?_, frameRound_lt⟩
    by_contra hlen
    rw [frameRound_waits (Nat.lt_of_not_le hlen)] at hlt
    exact lt_irrefl _ hlt
  · rw [if_pos hframe, if_neg hframe, not_not]
    by_cases hrequest : isServerRequest s.responseBuffer = true
    · rw [if_pos ⟨h8, hrequest⟩, requestRound_full hfull]
      exact ⟨fun h => ⟨hrequest, h⟩, And.right⟩
    · rw [if_neg (not_and_of_not_right _ hrequest)]
      exact ⟨fun h => absurd h (lt_irrefl _), fun h => absurd h.1 hrequest⟩

/-- From a full buffer something is taken unless it is stuck. -/
theorem process_full (hfull : s.responseBufferPos = rtspResponseBufferSize) :
    (rtspProcessInterleavedBuffer sink s).1.responseBufferPos < s.responseBufferPos ↔ ¬ Stuck s.responseBuffer := by
  rw [process_lt_iff (by rw [hfull]; decide), interleavedRound_full hfull]

/-- Of a stuck buffer nothing is processed. -/
theorem process_stuck (hfull : s.responseBufferPos = rtspResponseBufferSize) (hstuck : Stuck s.responseBuffer) :
    rtspProcessInterleavedBuffer sink s = (s, .forwarded 0) := by
  have hround : interleavedRound sink s = ⟨s, 0, .waits⟩ := by
    unfold Stuck at hstuck
    unfold interleavedRound
    split at hstuck
    · next hframe =>
      rw [if_neg (not_not_intro hframe)]
      exact frameRound_waits (by rwa [hfull])
    · next hframe =>
      rw [if_pos hframe]
      split
      · next hrequest =>
        have hnone : strstr crlfcrlf (cstr s.responseBuffer) = none := strstr_none.2 fun h => hstuck ⟨hrequest.2, h⟩
        rw [requestRound]
        dsimp only
        rw [hnone]
      · rfl
  rw [rtspProcessInterleavedBuffer, processLoop, if_neg (by rw [hfull]; decide), hround]

/-! ### Runs -/

/-- A session that is playing has no request outstanding: the next event finds the client connection in some state and lets
the session receive. -/
structure PlayEvent (γ : Type) where
  conn : γ
  answers : List RecvAnswer

/-- The session after some events, until it ends. -/
def playSession (sink : MediaSink γ) (s : RtspSession γ) : List (PlayEvent γ) → RtspSession γ
  | [] => s
  | event :: events =>
    let handled := rtspHandleTcpInterleavedData sink event.answers { s with conn := event.conn }
    match handled.ending with
    | .forwarded _ => playSession sink handled.session events
    | _ => handled.session

/-- The sessions in a run of which the buffer is processed. -/
def playProcessed (sink : MediaSink γ) (s : RtspSession γ) : List (PlayEvent γ) → List (RtspSession γ)
  | [] => []
  | event :: events =>
    let handled := rtspHandleTcpInterleavedData sink event.answers { s with conn := event.conn }
    handled.processed ++ match handled.ending with
      | .forwarded _ => playProcessed sink handled.session events
      | _ => []

theorem fillBuffer_full (hfull : s.responseBufferPos = rtspResponseBufferSize) (answers : List RecvAnswer) :
    fillBuffer answers s = (s, .full, answers) := by
  have hnot : ¬ s.responseBufferPos < rtspResponseBufferSize := by omega
  cases answers with
  | nil =>
    unfold fillBuffer
    rw [if_neg hnot]
  | cons answer answers =>
    unfold fillBuffer
    rw [if_neg hnot]

/-- With a stuck buffer nothing is received. -/
theorem handle_stuck (hfull : s.responseBufferPos = rtspResponseBufferSize) (hstuck : Stuck s.responseBuffer)
    (answers : List RecvAnswer) :
    ∃ conn processed, rtspHandleTcpInterleavedData sink answers s = ⟨{ s with conn := conn }, .forwarded 0, answers, processed⟩ := by
  rw [rtspHandleTcpInterleavedData, handleLoop]
  rcases sink.connectionShouldPauseUpstream s.conn with ⟨_ | _, conn⟩
  · have hfill : fillBuffer answers { s with conn := conn } = ({ s with conn := conn }, .full, answers) :=
      fillBuffer_full (s := { s with conn := conn }) hfull answers
    have hprocess : rtspProcessInterleavedBuffer sink { s with conn := conn } = ({ s with conn := conn }, .forwarded 0) :=
      process_stuck (s := { s with conn := conn }) hfull hstuck
    dsimp only
    rw [hfill]
    dsimp only
    rw [hprocess]
    dsimp only
    rw [if_pos (.inr hfull.ge)]
    exact ⟨conn, _, rfl⟩
  · exact ⟨conn, _, rfl⟩

/-- Bytes that fill an empty buffer are what it holds. -/
theorem receive_all {bytes : List UInt8} (hpos : s.responseBufferPos = 0) (hbytes : bytes.length = rtspResponseBufferSize) :
    (s.receive bytes).responseBuffer = bytes ∧ (s.receive bytes).responseBufferPos = rtspResponseBufferSize := by
  have htake : bytes.take (rtspResponseBufferSize - s.responseBufferPos) = bytes :=
    List.take_of_length_le (by omega)
  have hdrop : s.responseBuffer.drop (s.responseBufferPos + bytes.length) = [] :=
    List.drop_eq_nil_of_le (by have := s.size_eq; omega)
  unfold RtspSession.receive
  dsimp only
  rw [htake, hdrop, hpos, List.take_zero, List.nil_append, List.append_nil]
  exact ⟨rfl, by rw [Nat.zero_add, hbytes]⟩

/-- An event in which the buffer fills up and is stuck. -/
theorem handle_fills {bytes : List UInt8} (hpause : sink.connectionShouldPauseUpstream s.conn = (false, s.conn))
    (hroom : s.responseBufferPos < rtspResponseBufferSize) (hne : bytes ≠ [])
    (hfull : (s.receive bytes).responseBufferPos = rtspResponseBufferSize) (hstuck : Stuck (s.receive bytes).responseBuffer) :
    rtspHandleTcpInterleavedData sink [.received bytes] s = ⟨s.receive bytes, .forwarded 0, [], [s.receive bytes]⟩ := by
  obtain ⟨b, rest, rfl⟩ := List.exists_cons_of_ne_nil hne
  have hfill : fillBuffer [.received (b :: rest)] s = (s.receive (b :: rest), .full, []) := by
    rw [fillBuffer, if_pos hroom]
    exact fillBuffer_full hfull []
  rw [rtspHandleTcpInterleavedData, handleLoop, hpause]
  dsimp only
  rw [hfill]
  dsimp only
  rw [process_stuck hfull hstuck]
  dsimp only
  rw [if_pos (.inr hfull.ge)]
  rfl

/-- A stuck buffer stays as it is. -/
theorem playSession_stuck (hfull : s.responseBufferPos = rtspResponseBufferSize) (hstuck : Stuck s.responseBuffer)
    (events : List (PlayEvent γ)) :
    (playSession sink s events).responseBuffer = s.responseBuffer ∧
      (playSession sink s events).responseBufferPos = s.responseBufferPos := by
  induction events generalizing s with
  | nil => exact ⟨rfl, rfl⟩
  | cons event events ih =>
    obtain ⟨conn, processed, hhandled⟩ : ∃ conn processed,
        rtspHandleTcpInterleavedData sink event.answers { s with conn := event.conn } =
          ⟨{ s with conn := conn }, .forwarded 0, event.answers, processed⟩ :=
      handle_stuck (s := { s with conn := event.conn }) hfull hstuck event.answers
    rw [playSession, hhandled]
    exact ih (s := { s with conn := conn }) hfull hstuck

end

/-- In every run, whenever a full buffer is processed something is taken from it, if and only if it is never stuck; and when
it is, it stays so. -/
theorem interleaved_consumes_iff {γ : Type} (sink : MediaSink γ) (s : RtspSession γ) (events : List (PlayEvent γ)) :
    ((∀ t ∈ playProcessed sink s events, t.responseBufferPos = rtspResponseBufferSize →
        (rtspProcessInterleavedBuffer sink t).1.responseBufferPos < t.responseBufferPos) ↔
      ∀ t ∈ playProcessed sink s events, t.responseBufferPos = rtspResponseBufferSize → ¬ Stuck t.responseBuffer) ∧
    ∀ t ∈ playProcessed sink s events, t.responseBufferPos = rtspResponseBufferSize → Stuck t.responseBuffer →
      ∀ later, (playSession sink t later).responseBuffer = t.responseBuffer ∧
        (playSession sink t later).responseBufferPos = t.responseBufferPos :=
  ⟨forall₂_congr fun _ _ => forall_congr' process_full, fun _ _ hfull hstuck later => playSession_stuck hfull hstuck later⟩

/-! ### A frame that does not fit -/

/-- A client that takes everything. -/
def idleSink : MediaSink Unit where
  connectionShouldPauseUpstream _ := (false, ())
  bufferPoolAlloc _ := (true, ())
  streamProcessRtpPayload _ _ := (0, ())

/-- A session that starts to play. -/
def playingSession : RtspSession Unit where
  responseBuffer := List.replicate 4096 0
  responseBufferPos := 0
  rtpChannel := 0
  teardownRequested := false
  firstMediaReceived := false
  packetsDropped := 0
  conn := ()
  sent := []
  size_eq := List.length_replicate
  pos_le := Nat.zero_le _

/-- The first bytes of a frame of 4096 bytes on channel 0. -/
def longFrame : List UInt8 := [dollar, 0, 16, 0] ++ List.replicate 4092 0

theorem longFrame_length : longFrame.length = rtspResponseBufferSize := by
  rw [longFrame, List.length_append, List.length_replicate]
  rfl

theorem longFrame_stuck : Stuck longFrame := by
  have hframe : longFrame.head? = some dollar := rfl
  have hlength : packetLength longFrame = 4096 := rfl
  rw [Stuck, if_pos hframe, hlength]
  decide

/-- The buffer is full before such a frame is complete, and nothing is taken from it. -/
theorem longFrame_stalls : ∃ t ∈ playProcessed idleSink playingSession [⟨(), [.received longFrame]⟩],
    t.responseBufferPos = rtspResponseBufferSize ∧
      ¬ (rtspProcessInterleavedBuffer idleSink t).1.responseBufferPos < t.responseBufferPos := by
  obtain ⟨hbuffer, hfull⟩ := receive_all (s := playingSession) rfl longFrame_length
  have hstuck : Stuck (playingSession.receive longFrame).responseBuffer := by
    rw [hbuffer]
    exact longFrame_stuck
  refine ⟨playingSession.receive longFrame, ?_, hfull, ?_⟩
  · rw [playProcessed, handle_fills rfl (by decide) (List.ne_nil_of_length_pos (by rw [longFrame_length]; decide)) hfull hstuck]
    exact List.mem_append_left _ (List.mem_singleton_self _)
  · rw [process_stuck hfull hstuck]
    exact lt_irrefl _

end Rtp2httpd.Rtsp
