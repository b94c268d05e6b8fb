import DOpenWrt.Lanspeedd.NetlinkAttrs

/-!
# What the dump parser accepts

A dump is accepted exactly if its datagrams come from the kernel and consist of whole messages that end with the only
`NLMSG_DONE`, and its flows are those of the messages.
-/

namespace Lanspeedd

variable (bigEndian : Bool)

def nlmsgLen (c : List UInt8) : Nat := fromNe bigEndian (c.take 4)
def nlmsgKind (c : List UInt8) : Nat := fromNe bigEndian ((c.take 6).drop 4)
def nlmsgFlags (c : List UInt8) : Nat := fromNe bigEndian ((c.take 8).drop 6)
def nlmsgSeq (c : List UInt8) : Nat := fromNe bigEndian ((c.take 12).drop 8)
def nlmsgPid (c : List UInt8) : Nat := fromNe bigEndian ((c.take 16).drop 12)
def nlmsgPayload (c : List UInt8) : List UInt8 := (c.take (nlmsgLen bigEndian c)).drop 16

/-- A message with the padding behind it. -/
structure WholeMessage (c : List UInt8) : Prop where
  header : 16 ≤ nlmsgLen bigEndian c
  length : c.length = align4 (nlmsgLen bigEndian c)

/-- A message of the dump that was asked for. -/
structure ExpectedMessage (expectedSeq expectedPortId : Nat) (c : List UInt8) : Prop where
  seq : nlmsgSeq bigEndian c = expectedSeq
  pid : nlmsgPid bigEndian c = expectedPortId
  consistent : nlmsgFlags bigEndian c &&& nlmFDumpIntr = 0

def status (payload : List UInt8) : Int := i32 (fromNe bigEndian (payload.take 4))

structure IsCtNew (c : List UInt8) : Prop where
  kind : nlmsgKind bigEndian c = ipctnlMsgCtNew
  multi : nlmsgFlags bigEndian c &&& nlmFMulti ≠ 0

structure IsAck (c : List UInt8) : Prop where
  kind : nlmsgKind bigEndian c = nlmsgError
  length : 20 ≤ (nlmsgPayload bigEndian c).length
  status : status bigEndian (nlmsgPayload bigEndian c) = 0

structure IsDone (c : List UInt8) : Prop where
  kind : nlmsgKind bigEndian c = nlmsgDone
  multi : nlmsgFlags bigEndian c &&& nlmFMulti ≠ 0
  status : nlmsgPayload bigEndian c = [] ∨
    4 ≤ (nlmsgPayload bigEndian c).length ∧ status bigEndian (nlmsgPayload bigEndian c) = 0

/-- The datagrams consist of `chunks`, and these are a whole dump. -/
structure AcceptedDump (expectedSeq expectedPortId maxBytes : Nat) (datagrams : List Datagram)
    (chunks : List (List (List UInt8))) : Prop where
  limit : totalBytes datagrams ≤ maxBytes
  kernel : ∀ d ∈ datagrams, d.senderPid = 0
  bytes : datagrams.map (·.bytes) = chunks.map List.flatten
  whole : ∀ c ∈ chunks.flatten, WholeMessage bigEndian c
  expected : ∀ c ∈ chunks.flatten, ExpectedMessage bigEndian expectedSeq expectedPortId c
  done : ∃ pre last, chunks.flatten = pre ++ [last] ∧ IsDone bigEndian last ∧
    ∀ c ∈ pre, IsCtNew bigEndian c ∨ IsAck bigEndian c

/-- The flows of some messages, without those whose payload is malformed. -/
def flowsOf (messages : List (List UInt8)) : List FlowSample :=
  (messages.filter fun c => nlmsgKind bigEndian c = ipctnlMsgCtNew).filterMap fun c =>
    (parseFlow bigEndian (nlmsgPayload bigEndian c)).toOption

def malformedOf (messages : List (List UInt8)) : Nat :=
  (messages.filter fun c => nlmsgKind bigEndian c = ipctnlMsgCtNew).countP fun c =>
    (parseFlow bigEndian (nlmsgPayload bigEndian c)).toOption.isNone

variable {bigEndian} {c : List UInt8}

/-! ### Messages as chunks -/

theorem WholeMessage.length_ge (h : WholeMessage bigEndian c) : 16 ≤ c.length :=
  h.length ▸ h.header.trans (le_align4 _)

/-- What the loop of `parse_datagram` does with a whole message. -/
def addMessage (bigEndian : Bool) (parser : DumpParser) (c : List UInt8) : Parse DumpParser :=
  if nlmsgSeq bigEndian c ≠ parser.expectedSeq then
    .error (.dump (.unexpectedSequence parser.expectedSeq (nlmsgSeq bigEndian c)))
  else if nlmsgPid bigEndian c ≠ parser.expectedPortId then
    .error (.dump (.unexpectedPortId parser.expectedPortId (nlmsgPid bigEndian c)))
  else if nlmsgFlags bigEndian c &&& nlmFDumpIntr ≠ 0 then .error (.dump .interrupted)
  else parser.message bigEndian (nlmsgKind bigEndian c) (nlmsgFlags bigEndian c) (nlmsgPayload bigEndian c)

theorem messageStep_append (h : WholeMessage bigEndian c) (parser : DumpParser) (rest : List UInt8) :
    DumpParser.messageStep bigEndian parser (c ++ rest) =
      (addMessage bigEndian parser c).map fun parser => (parser, some c.length) := by
  have hge := h.length_ge
  have hle : nlmsgLen bigEndian c ≤ c.length := h.length ▸ le_align4 _
  have hheader := h.header
  have hlength : (c ++ rest).length = c.length + rest.length := List.length_append
  have htake : ∀ n ≤ 16, (c ++ rest).take n = c.take n := fun n hn => take_append_of_le (hn.trans hge)
  have hpayload : slice (c ++ rest) 16 (nlmsgLen bigEndian c) = .ok (nlmsgPayload bigEndian c) := by
    rw [slice_eq hheader (by omega), take_append_of_le hle]
    rfl
  unfold DumpParser.messageStep addMessage
  rw [if_neg (by omega)]
  dsimp only
  rw [htake 4 (by decide), htake 6 (by decide), htake 8 (by decide), htake 12 (by decide), htake 16 (by decide)]
  change (if nlmsgLen bigEndian c < 16 ∨ _ < nlmsgLen bigEndian c then _ else
    if nlmsgSeq bigEndian c ≠ _ then _ else if nlmsgPid bigEndian c ≠ _ then _ else
      if nlmsgFlags bigEndian c &&& _ ≠ 0 then _ else do
        let payload ← slice (c ++ rest) 16 (nlmsgLen bigEndian c)
        let parser ← parser.message bigEndian (nlmsgKind bigEndian c) (nlmsgFlags bigEndian c) payload
        if (c ++ rest).length < align4 (nlmsgLen bigEndian c) then malformed "truncated nlmsg padding"
        else pure (parser, some (align4 (nlmsgLen bigEndian c)))) = _
  rw [if_neg (by omega), hpayload, ← h.length]
  split_ifs
  · rfl
  · rfl
  · rfl
  · omega
  · show (parser.message bigEndian (nlmsgKind bigEndian c) (nlmsgFlags bigEndian c) (nlmsgPayload bigEndian c) >>= _) = _
    cases parser.message bigEndian (nlmsgKind bigEndian c) (nlmsgFlags bigEndian c) (nlmsgPayload bigEndian c) <;> rfl

/-- A step that does not fail takes a message that fits. -/
theorem messageStep_ok {parser parser' : DumpParser} {l : List UInt8} {o : Option Nat}
    (h : DumpParser.messageStep bigEndian parser l = .ok (parser', o)) :
    o = some (align4 (nlmsgLen bigEndian l)) ∧ 16 ≤ nlmsgLen bigEndian l ∧
      align4 (nlmsgLen bigEndian l) ≤ l.length := by
  unfold DumpParser.messageStep at h
  split_ifs at h with hshort
  · cases h
  dsimp only at h
  split_ifs at h with hlen hseq hpid hintr hpad
  · cases h
  · obtain ⟨_, -, h⟩ := Except.bind_eq_ok.1 h
    obtain ⟨_, -, h⟩ := Except.bind_eq_ok.1 h
    cases h
  · obtain ⟨_, -, h⟩ := Except.bind_eq_ok.1 h
    obtain ⟨_, -, h⟩ := Except.bind_eq_ok.1 h
    cases h
    exact ⟨rfl, Nat.le_of_not_lt fun hlt => hlen (.inl hlt), Nat.le_of_not_lt hpad⟩

theorem messageStep_split {parser parser' : DumpParser} {l : List UInt8} {n : Nat}
    (h : DumpParser.messageStep bigEndian parser l = .ok (parser', some n)) :
    n ≤ l.length ∧ WholeMessage bigEndian (l.take n) := by
  obtain ⟨hn, hlen, hle⟩ := messageStep_ok h
  cases hn
  have heq : nlmsgLen bigEndian (l.take (align4 (nlmsgLen bigEndian l))) = nlmsgLen bigEndian l := by
    have := le_align4 (nlmsgLen bigEndian l)
    rw [nlmsgLen, List.take_take, Nat.min_eq_left (by omega), nlmsgLen]
  refine ⟨hle, ?_, ?_⟩
  · rw [heq]
    exact hlen
  · rw [heq, List.length_take, Nat.min_eq_left hle]

theorem process_messageStep (h : WholeMessage bigEndian c) (parser : DumpParser) :
    ChunkLoop.process (DumpParser.messageStep bigEndian) parser c = addMessage bigEndian parser c := by
  have := messageStep_append h parser []
  rw [List.append_nil] at this
  rw [ChunkLoop.process, this]
  cases addMessage bigEndian parser c <;> rfl

theorem messageStep_chunked (bigEndian : Bool) :
    ChunkLoop.Chunked (DumpParser.messageStep bigEndian) (WholeMessage bigEndian) where
  ne_nil c h := List.ne_nil_of_length_pos (by have := h.length_ge; omega)
  append parser c rest h := by rw [messageStep_append h, process_messageStep h]
  split _ _ _ _ h := messageStep_split h

/-! ### What a message does -/

variable {parser parser' : DumpParser}

/-- The parser after a conntrack message with the given payload. -/
def DumpParser.addFlow (bigEndian : Bool) (parser : DumpParser) (payload : List UInt8) : DumpParser :=
  match (parseFlow bigEndian payload).toOption with
  | some flow => { parser with flows := parser.flows ++ [flow] }
  | none => { parser with malformedEntries := saturatingAdd parser.malformedEntries 1 }

theorem malformed_ne_ok {α : Type} {reason : String} {a : α} : (malformed reason : Parse α) ≠ .ok a :=
  fun h => by cases h

theorem parseAck_iff {payload : List UInt8} :
    parseAck bigEndian payload = .ok () ↔ 20 ≤ payload.length ∧ status bigEndian payload = 0 := by
  unfold parseAck
  change (if payload.length < 20 then _ else if status bigEndian payload = 0 then _ else
    if status bigEndian payload < 0 then _ else _) = _ ↔ _
  split_ifs with hlen hzero hneg
  · exact iff_of_false malformed_ne_ok fun h => absurd h.1 (Nat.not_le_of_lt hlen)
  · exact iff_of_true rfl ⟨Nat.le_of_not_lt hlen, hzero⟩
  · exact iff_of_false (fun h => by cases h) fun h => hzero h.2
  · exact iff_of_false malformed_ne_ok fun h => hzero h.2

/-- What is accepted of a `NLMSG_DONE`. -/
theorem message_done_iff {flags : Nat} {payload : List UInt8} (hdone : parser.done = false) :
    parser.message bigEndian nlmsgDone flags payload = .ok parser' ↔ flags &&& nlmFMulti ≠ 0 ∧
      (payload = [] ∨ 4 ≤ payload.length ∧ status bigEndian payload = 0) ∧ parser' = { parser with done := true } := by
  have hok : (.ok { parser with done := true } : Parse DumpParser) = .ok parser' ↔
      parser' = { parser with done := true } := ⟨fun h => (Except.ok.inj h).symm, fun h => congrArg _ h.symm⟩
  unfold DumpParser.message
  rw [hdone, if_neg Bool.false_ne_true, if_pos rfl]
  change (if _ then _ else if _ then _ else if 4 ≤ payload.length then
    (if status bigEndian payload < 0 then _ else if 0 < status bigEndian payload then _ else _) else _) = _ ↔ _
  split_ifs with hmulti hshort hlong hneg hpos
  · exact iff_of_false malformed_ne_ok fun h => h.1 hmulti
  · refine iff_of_false malformed_ne_ok fun h => ?_
    rcases h.2.1 with rfl | h'
    · exact absurd hshort.1 (by decide)
    · omega
  · refine iff_of_false (fun h => by cases h) fun h => ?_
    rcases h.2.1 with rfl | h'
    · exact absurd hlong (by decide)
    · omega
  · refine iff_of_false malformed_ne_ok fun h => ?_
    rcases h.2.1 with rfl | h'
    · exact absurd hlong (by decide)
    · omega
  · rw [hok, and_iff_right hmulti, and_iff_right (.inr ⟨hlong, by omega⟩)]
  · have hempty : payload = [] := List.length_eq_zero_iff.1 (by omega)
    rw [hok, and_iff_right hmulti, and_iff_right (.inl hempty)]

theorem message_ctNew_iff {flags : Nat} {payload : List UInt8} (hdone : parser.done = false) :
    parser.message bigEndian ipctnlMsgCtNew flags payload = .ok parser' ↔
      flags &&& nlmFMulti ≠ 0 ∧ parser' = parser.addFlow bigEndian payload := by
  unfold DumpParser.message DumpParser.addFlow
  rw [hdone, if_neg Bool.false_ne_true, if_neg (by decide), if_neg (by decide), if_pos rfl]
  split_ifs with hmulti
  · exact iff_of_false malformed_ne_ok fun h => h.1 hmulti
  · rw [and_iff_right hmulti]
    cases hflow : parseFlow bigEndian payload with
    | ok flow => exact ⟨fun h => (Except.ok.inj h).symm, fun h => congrArg _ h.symm⟩
    | error e =>
      obtain ⟨reason, rfl⟩ := parseFlow_safe payload e hflow
      exact ⟨fun h => (Except.ok.inj h).symm, fun h => congrArg _ h.symm⟩

/-- What is accepted behind the header. -/
theorem message_iff {kind flags : Nat} {payload : List UInt8} :
    parser.message bigEndian kind flags payload = .ok parser' ↔ parser.done = false ∧
      ((kind = nlmsgDone ∧ flags &&& nlmFMulti ≠ 0 ∧
          (payload = [] ∨ 4 ≤ payload.length ∧ status bigEndian payload = 0) ∧ parser' = { parser with done := true }) ∨
        (kind = nlmsgError ∧ (20 ≤ payload.length ∧ status bigEndian payload = 0) ∧ parser' = parser) ∨
        (kind = ipctnlMsgCtNew ∧ flags &&& nlmFMulti ≠ 0 ∧ parser' = parser.addFlow bigEndian payload)) := by
  cases hdone : parser.done with
  | true =>
    refine iff_of_false ?_ fun h => absurd h.1 (by decide)
    unfold DumpParser.message
    rw [hdone, if_pos rfl]
    split_ifs <;> exact malformed_ne_ok
  | false =>
    rw [and_iff_right rfl]
    by_cases h1 : kind = nlmsgDone
    · subst h1
      rw [message_done_iff hdone]
      simp [nlmsgDone, nlmsgError, ipctnlMsgCtNew]
    by_cases h2 : kind = nlmsgError
    · subst h2
      have hmessage : parser.message bigEndian nlmsgError flags payload =
          (parseAck bigEndian payload).bind fun _ => .ok parser := by
        unfold DumpParser.message
        rw [hdone, if_neg Bool.false_ne_true, if_neg (by decide), if_pos rfl]
        rfl
      rw [hmessage, ← parseAck_iff]
      cases parseAck bigEndian payload <;> simp [nlmsgDone, nlmsgError, ipctnlMsgCtNew, Except.bind, eq_comm]
    by_cases h3 : kind = ipctnlMsgCtNew
    · subst h3
      rw [message_ctNew_iff hdone]
      simp [nlmsgDone, nlmsgError, ipctnlMsgCtNew]
    · unfold DumpParser.message
      rw [hdone, if_neg Bool.false_ne_true, if_neg h1, if_neg h2, if_neg h3]
      exact iff_of_false malformed_ne_ok (by simp [h1, h2, h3])

theorem addMessage_iff : addMessage bigEndian parser c = .ok parser' ↔
    ExpectedMessage bigEndian parser.expectedSeq parser.expectedPortId c ∧ parser.done = false ∧
      ((IsDone bigEndian c ∧ parser' = { parser with done := true }) ∨ (IsAck bigEndian c ∧ parser' = parser) ∨
        (IsCtNew bigEndian c ∧ parser' = parser.addFlow bigEndian (nlmsgPayload bigEndian c))) := by
  unfold addMessage
  split_ifs with hseq hpid hintr
  · exact iff_of_false (fun h => by cases h) fun h => hseq h.1.seq
  · exact iff_of_false (fun h => by cases h) fun h => hpid h.1.pid
  · exact iff_of_false (fun h => by cases h) fun h => hintr h.1.consistent
  · refine Iff.trans ?_ (and_iff_right ⟨not_not.1 hseq, not_not.1 hpid, not_not.1 hintr⟩).symm
    rw [message_iff]
    refine and_congr_right fun _ => or_congr ?_ (or_congr ?_ ?_)
    · exact ⟨fun ⟨h1, h2, h3, h4⟩ => ⟨⟨h1, h2, h3⟩, h4⟩, fun ⟨⟨h1, h2, h3⟩, h4⟩ => ⟨h1, h2, h3, h4⟩⟩
    · exact ⟨fun ⟨h1, ⟨h2, h3⟩, h4⟩ => ⟨⟨h1, h2, h3⟩, h4⟩, fun ⟨⟨h1, h2, h3⟩, h4⟩ => ⟨h1, ⟨h2, h3⟩, h4⟩⟩
    · exact ⟨fun ⟨h1, h2, h3⟩ => ⟨⟨h1, h2⟩, h3⟩, fun ⟨⟨h1, h2⟩, h3⟩ => ⟨h1, h2, h3⟩⟩

/-! ### Messages instead of datagrams -/

def DumpParser.setTotal (t : Nat) (parser : DumpParser) : DumpParser := { parser with totalBytes := t }

@[simp] theorem setTotal_expectedSeq (t : Nat) : (parser.setTotal t).expectedSeq = parser.expectedSeq := rfl
@[simp] theorem setTotal_expectedPortId (t : Nat) : (parser.setTotal t).expectedPortId = parser.expectedPortId := rfl
@[simp] theorem setTotal_done (t : Nat) : (parser.setTotal t).done = parser.done := rfl

theorem message_setTotal (t : Nat) (parser : DumpParser) (kind flags : Nat) (payload : List UInt8) :
    (parser.setTotal t).message bigEndian kind flags payload =
      (parser.message bigEndian kind flags payload).map (·.setTotal t) := by
  unfold DumpParser.message
  rw [setTotal_done]
  dsimp only
  split_ifs
  all_goals try rfl
  · cases parseAck bigEndian payload <;> rfl
  · cases parseFlow bigEndian payload with
    | ok flow => rfl
    | error e => rcases e with (_ | _ | _ | _ | _ | _ | _ | _) | _ | _ <;> rfl

theorem addMessage_setTotal (t : Nat) (parser : DumpParser) (c : List UInt8) :
    addMessage bigEndian (parser.setTotal t) c = (addMessage bigEndian parser c).map (·.setTotal t) := by
  unfold addMessage
  rw [setTotal_expectedSeq, setTotal_expectedPortId]
  split_ifs
  · rfl
  · rfl
  · rfl
  · exact message_setTotal t parser _ _ _

theorem foldlM_setTotal {β : Type} {f : DumpParser → β → Parse DumpParser} {t : Nat}
    (hf : ∀ parser b, f (parser.setTotal t) b = (f parser b).map (·.setTotal t)) (parser : DumpParser) (bs : List β) :
    bs.foldlM f (parser.setTotal t) = (bs.foldlM f parser).map (·.setTotal t) := by
  induction bs generalizing parser with
  | nil => rfl
  | cons b bs ih =>
    rw [List.foldlM_cons, List.foldlM_cons, hf]
    cases f parser b with
    | error e => rfl
    | ok parser => exact ih parser

theorem addMessage_maxBytes (h : addMessage bigEndian parser c = .ok parser') : parser'.maxBytes = parser.maxBytes := by
  obtain ⟨-, -, ⟨-, rfl⟩ | ⟨-, rfl⟩ | ⟨-, rfl⟩⟩ := addMessage_iff.1 h
  · rfl
  · rfl
  · unfold DumpParser.addFlow
    cases (parseFlow bigEndian (nlmsgPayload bigEndian c)).toOption <;> rfl

theorem foldlM_maxBytes {chunks : List (List UInt8)} (h : chunks.foldlM (addMessage bigEndian) parser = .ok parser') :
    parser'.maxBytes = parser.maxBytes := by
  induction chunks generalizing parser with
  | nil =>
    cases h
    rfl
  | cons c chunks ih =>
    rw [List.foldlM_cons, Except.bind_eq_ok] at h
    obtain ⟨parser₁, hc, h⟩ := h
    rw [ih h, addMessage_maxBytes hc]

/-- Datagrams, as their sender and the messages they are made of. -/
abbrev MessageDatagram := Nat × List (List UInt8)

def datagramsOf (ds : List MessageDatagram) : List Datagram := ds.map fun d => ⟨d.1, d.2.flatten⟩

/-- The messages of some datagrams, each with its sender. -/
def messagesOf (ds : List MessageDatagram) : List (Nat × List UInt8) := ds.flatMap fun d => d.2.map (d.1, ·)

structure WholeDatagram (bigEndian : Bool) (d : MessageDatagram) : Prop where
  whole : ∀ c ∈ d.2, WholeMessage bigEndian c
  sender : d.2 = [] → d.1 = 0

/-- What is done with a message from some sender. -/
def addFrom (bigEndian : Bool) (parser : DumpParser) (m : Nat × List UInt8) : Parse DumpParser :=
  if m.1 ≠ 0 then .error (.dump (.unexpectedSender m.1)) else addMessage bigEndian parser m.2

theorem addFrom_setTotal (t : Nat) (parser : DumpParser) (m : Nat × List UInt8) :
    addFrom bigEndian (parser.setTotal t) m = (addFrom bigEndian parser m).map (·.setTotal t) := by
  unfold addFrom
  split_ifs
  · rfl
  · exact addMessage_setTotal t parser m.2

theorem parseDatagram_flatten {chunks : List (List UInt8)} (h : ∀ c ∈ chunks, WholeMessage bigEndian c) :
    DumpParser.parseDatagram bigEndian parser 0 chunks.flatten = chunks.foldlM (addMessage bigEndian) parser := by
  have hfold : chunks.foldlM (ChunkLoop.process (DumpParser.messageStep bigEndian)) parser =
      chunks.foldlM (addMessage bigEndian) parser := by
    induction chunks generalizing parser with
    | nil => rfl
    | cons c chunks ih =>
      rw [List.foldlM_cons, List.foldlM_cons, process_messageStep (h c List.mem_cons_self)]
      exact bind_congr fun parser => ih fun c hc => h c (List.mem_cons_of_mem _ hc)
  have hrun := @ChunkLoop.Chunked.run_flatten _ _ _ Fault.stuck _ _ (messageStep_chunked bigEndian) _ chunks h [] le_rfl
    parser
  rw [List.append_nil] at hrun
  rw [DumpParser.parseDatagram, if_neg (not_not.2 rfl), hrun, hfold]
  cases chunks.foldlM (addMessage bigEndian) parser <;> rfl

theorem totalBytes_cons (d : Datagram) (datagrams : List Datagram) :
    totalBytes (d :: datagrams) = d.bytes.length + totalBytes datagrams := List.sum_cons

theorem pushDatagram_eq {datagram : Datagram} (h : parser.totalBytes + datagram.bytes.length ≤ parser.maxBytes) :
    parser.pushDatagram bigEndian datagram =
      (parser.setTotal (parser.totalBytes + datagram.bytes.length)).parseDatagram bigEndian datagram.senderPid
        datagram.bytes := if_neg (Nat.not_lt_of_le h)

/-- Below the limit, datagrams of whole messages are as good as the sequence of these messages. -/
theorem foldlM_pushDatagram {ds : List MessageDatagram} (hwhole : ∀ d ∈ ds, WholeDatagram bigEndian d)
    (hle : parser.totalBytes + totalBytes (datagramsOf ds) ≤ parser.maxBytes) :
    (datagramsOf ds).foldlM (DumpParser.pushDatagram bigEndian) parser =
      ((messagesOf ds).foldlM (addFrom bigEndian) parser).map
        (·.setTotal (parser.totalBytes + totalBytes (datagramsOf ds))) := by
  induction ds generalizing parser with
  | nil => rfl
  | cons d ds ih =>
    obtain ⟨pid, chunks⟩ := d
    have hd := hwhole _ List.mem_cons_self
    rw [datagramsOf, List.map_cons, totalBytes_cons] at hle ⊢
    rw [messagesOf, List.flatMap_cons, List.foldlM_cons, List.foldlM_append,
      pushDatagram_eq (by dsimp only at hle ⊢; omega)]
    dsimp only at hle ⊢
    by_cases hpid : pid = 0
    · subst hpid
      have hfrom : (chunks.map fun c => (0, c)).foldlM (addFrom bigEndian) parser =
          chunks.foldlM (addMessage bigEndian) parser := by
        rw [List.foldlM_map]
        rfl
      rw [parseDatagram_flatten hd.whole, foldlM_setTotal (addMessage_setTotal _), hfrom]
      cases hchunks : chunks.foldlM (addMessage bigEndian) parser with
      | error e => rfl
      | ok parser₁ =>
        have hmax := foldlM_maxBytes hchunks
        have hrest := @ih (parser₁.setTotal (parser.totalBytes + chunks.flatten.length))
          (fun d hd => hwhole d (List.mem_cons_of_mem _ hd)) (by
            show parser.totalBytes + chunks.flatten.length + _ ≤ parser₁.maxBytes
            rw [hmax]
            exact (Nat.add_assoc ..).trans_le hle)
        refine hrest.trans ?_
        rw [foldlM_setTotal (addFrom_setTotal _)]
        show _ = ((messagesOf ds).foldlM (addFrom bigEndian) parser₁).map _
        cases (messagesOf ds).foldlM (addFrom bigEndian) parser₁ with
        | error e => rfl
        | ok parser₂ => exact congrArg (fun t => Except.ok (parser₂.setTotal t)) (Nat.add_assoc ..)
    · have hne : chunks ≠ [] := fun h => hpid (hd.sender h)
      obtain ⟨c, chunks, rfl⟩ := List.exists_cons_of_ne_nil hne
      have hfrom : addFrom bigEndian parser (pid, c) = .error (.dump (.unexpectedSender pid)) := if_pos hpid
      rw [DumpParser.parseDatagram, if_pos hpid, List.map_cons, List.foldlM_cons, hfrom]
      rfl

/-! ### The result -/

/-- The parser after messages that are no `NLMSG_DONE`. -/
def afterMessages (bigEndian : Bool) (parser : DumpParser) (messages : List (List UInt8)) : DumpParser :=
  messages.foldl (fun parser c =>
    if nlmsgKind bigEndian c = ipctnlMsgCtNew then parser.addFlow bigEndian (nlmsgPayload bigEndian c)
    else parser) parser

theorem IsDone.kind_ne (h : IsDone bigEndian c) : nlmsgKind bigEndian c ≠ ipctnlMsgCtNew := by
  rw [h.kind]
  decide

theorem IsAck.kind_ne (h : IsAck bigEndian c) : nlmsgKind bigEndian c ≠ ipctnlMsgCtNew := by
  rw [h.kind]
  decide

theorem addFlow_fields (parser : DumpParser) (payload : List UInt8) :
    (parser.addFlow bigEndian payload).done = parser.done ∧
      (parser.addFlow bigEndian payload).expectedSeq = parser.expectedSeq ∧
      (parser.addFlow bigEndian payload).expectedPortId = parser.expectedPortId := by
  unfold DumpParser.addFlow
  cases (parseFlow bigEndian payload).toOption <;> exact ⟨rfl, rfl, rfl⟩

theorem foldlM_done (h : parser.done = true) (messages : List (List UInt8)) :
    messages.foldlM (addMessage bigEndian) parser = .ok parser' ↔ messages = [] ∧ parser' = parser := by
  cases messages with
  | nil => exact ⟨fun h => ⟨rfl, (Except.ok.inj h).symm⟩, fun h => congrArg _ h.2.symm⟩
  | cons c messages =>
    rw [List.foldlM_cons, Except.bind_eq_ok]
    refine iff_of_false ?_ fun h => by cases h.1
    rintro ⟨parser₁, hc, -⟩
    obtain ⟨-, hdone, -⟩ := addMessage_iff.1 hc
    rw [h] at hdone
    cases hdone

/-- A dump ends as it should exactly if its messages do. -/
theorem foldlM_addMessage_iff (h : parser.done = false) (messages : List (List UInt8)) :
    messages.foldlM (addMessage bigEndian) parser = .ok parser' ∧ parser'.done = true ↔
      (∀ c ∈ messages, ExpectedMessage bigEndian parser.expectedSeq parser.expectedPortId c) ∧
        ∃ pre last, messages = pre ++ [last] ∧ IsDone bigEndian last ∧
          (∀ c ∈ pre, IsCtNew bigEndian c ∨ IsAck bigEndian c) ∧
          parser' = { afterMessages bigEndian parser pre with done := true } := by
  induction messages generalizing parser with
  | nil =>
    refine iff_of_false ?_ ?_
    · rintro ⟨hok, hdone⟩
      cases hok
      rw [h] at hdone
      cases hdone
    · rintro ⟨-, pre, last, hnil, -⟩
      exact List.append_ne_nil_of_right_ne_nil pre (List.cons_ne_nil _ _) hnil.symm
  | cons c messages ih =>
    rw [List.foldlM_cons, Except.bind_eq_ok]
    constructor
    · rintro ⟨⟨parser₁, hc, hfold⟩, hdone⟩
      obtain ⟨hexpected, -, hcase⟩ := addMessage_iff.1 hc
      rcases hcase with ⟨hisDone, rfl⟩ | ⟨hack, rfl⟩ | ⟨hnew, rfl⟩
      · obtain ⟨rfl, rfl⟩ := (foldlM_done rfl messages).1 hfold
        refine ⟨fun c' hc' => ?_, [], c, rfl, hisDone, fun _ hc => absurd hc List.not_mem_nil, rfl⟩
        rw [List.mem_singleton.1 hc']
        exact hexpected
      · obtain ⟨hall, pre, last, rfl, hlast, hpre, rfl⟩ := (ih h).1 ⟨hfold, hdone⟩
        refine ⟨List.forall_mem_cons.2 ⟨hexpected, hall⟩, c :: pre, last, rfl, hlast,
          List.forall_mem_cons.2 ⟨.inr hack, hpre⟩, ?_⟩
        rw [afterMessages, afterMessages, List.foldl_cons, if_neg hack.kind_ne]
      · obtain ⟨hd, hseq, hport⟩ := @addFlow_fields bigEndian parser (nlmsgPayload bigEndian c)
        obtain ⟨hall, pre, last, rfl, hlast, hpre, rfl⟩ := (ih (hd.trans h)).1 ⟨hfold, hdone⟩
        rw [hseq, hport] at hall
        refine ⟨List.forall_mem_cons.2 ⟨hexpected, hall⟩, c :: pre, last, rfl, hlast,
          List.forall_mem_cons.2 ⟨.inl hnew, hpre⟩, ?_⟩
        rw [afterMessages, afterMessages, List.foldl_cons, if_pos hnew.kind]
    · rintro ⟨hall, pre, last, hmessages, hlast, hpre, rfl⟩
      obtain ⟨hexpected, hall⟩ := List.forall_mem_cons.1 hall
      refine ⟨?_, rfl⟩
      cases pre with
      | nil =>
        obtain ⟨rfl, rfl⟩ := List.cons.inj hmessages
        exact ⟨_, addMessage_iff.2 ⟨hexpected, h, .inl ⟨hlast, rfl⟩⟩, rfl⟩
      | cons c' pre =>
        obtain ⟨rfl, rfl⟩ := List.cons.inj hmessages
        obtain ⟨hc, hpre⟩ := List.forall_mem_cons.1 hpre
        rcases hc with hnew | hack
        · obtain ⟨hd, hseq, hport⟩ := @addFlow_fields bigEndian parser (nlmsgPayload bigEndian c)
          refine ⟨_, addMessage_iff.2 ⟨hexpected, h, .inr (.inr ⟨hnew, rfl⟩)⟩, ((ih (hd.trans h)).2 ⟨?_, pre, last, rfl,
            hlast, hpre, ?_⟩).1⟩
          · rw [hseq, hport]
            exact hall
          · rw [afterMessages, afterMessages, List.foldl_cons, if_pos hnew.kind]
        · refine ⟨_, addMessage_iff.2 ⟨hexpected, h, .inr (.inl ⟨hack, rfl⟩)⟩, ((ih h).2 ⟨hall, pre, last, rfl, hlast,
            hpre, ?_⟩).1⟩
          rw [afterMessages, afterMessages, List.foldl_cons, if_neg hack.kind_ne]

theorem afterMessages_flows (parser : DumpParser) (messages : List (List UInt8)) :
    (afterMessages bigEndian parser messages).flows = parser.flows ++ flowsOf bigEndian messages := by
  induction messages generalizing parser with
  | nil => exact (List.append_nil _).symm
  | cons c messages ih =>
    rw [afterMessages, List.foldl_cons]
    refine (ih _).trans ?_
    unfold flowsOf
    split_ifs with hkind
    · rw [List.filter_cons_of_pos (by simpa using hkind), List.filterMap_cons]
      unfold DumpParser.addFlow
      cases (parseFlow bigEndian (nlmsgPayload bigEndian c)).toOption <;> simp
    · rw [List.filter_cons_of_neg (by simpa using hkind)]

theorem addFlow_malformed (payload : List UInt8) : (parser.addFlow bigEndian payload).malformedEntries =
    if (parseFlow bigEndian payload).toOption.isNone then saturatingAdd parser.malformedEntries 1
    else parser.malformedEntries := by
  unfold DumpParser.addFlow
  cases (parseFlow bigEndian payload).toOption <;> rfl

theorem afterMessages_malformed (parser : DumpParser) (messages : List (List UInt8))
    (hle : parser.malformedEntries + malformedOf bigEndian messages ≤ u64Max) :
    (afterMessages bigEndian parser messages).malformedEntries =
      parser.malformedEntries + malformedOf bigEndian messages := by
  induction messages generalizing parser with
  | nil => rfl
  | cons c messages ih =>
    rw [afterMessages, List.foldl_cons]
    by_cases hkind : nlmsgKind bigEndian c = ipctnlMsgCtNew
    · have hcount : malformedOf bigEndian (c :: messages) = malformedOf bigEndian messages +
          if (parseFlow bigEndian (nlmsgPayload bigEndian c)).toOption.isNone then 1 else 0 := by
        rw [malformedOf, List.filter_cons_of_pos (by simpa using hkind), List.countP_cons, malformedOf]
      have hadd := @addFlow_malformed bigEndian parser (nlmsgPayload bigEndian c)
      rw [hcount] at hle ⊢
      rw [if_pos hkind]
      split_ifs at hle hadd ⊢ with hnone
      · rw [saturatingAdd_one (by omega)] at hadd
        exact (ih _ (by omega)).trans (by omega)
      · exact (ih _ (by omega)).trans (by omega)
    · have hcount : malformedOf bigEndian (c :: messages) = malformedOf bigEndian messages := by
        rw [malformedOf, List.filter_cons_of_neg (by simpa using hkind), malformedOf]
      rw [hcount] at hle ⊢
      rw [if_neg hkind]
      exact ih parser hle

/-! ### Acceptance -/

/-- A parser that gets neither stuck nor out of range. -/
def NoPanic {α : Type} (x : Parse α) : Prop := ∀ f, x = .error f → ∃ error, f = .dump error

namespace NoPanic

variable {α β : Type}

theorem ok (a : α) : NoPanic (.ok a : Parse α) := fun f h => by cases h

theorem dump (error : DumpError) : NoPanic (.error (.dump error) : Parse α) := fun f h => by
  cases h
  exact ⟨error, rfl⟩

theorem bind {x : Parse α} {k : α → Parse β} (hx : NoPanic x) (hk : ∀ a, x = .ok a → NoPanic (k a)) :
    NoPanic (x >>= k) := by
  cases x with
  | error e =>
    intro f hf
    cases hf
    exact hx e rfl
  | ok a => exact hk a rfl

theorem ite {p : Prop} [Decidable p] {x y : Parse α} (hx : p → NoPanic x) (hy : ¬ p → NoPanic y) :
    NoPanic (if p then x else y) := by
  split_ifs with h
  · exact hx h
  · exact hy h

theorem foldlM {k : β → α → Parse β} (hk : ∀ b a, NoPanic (k b a)) (b : β) (as : List α) : NoPanic (as.foldlM k b) := by
  induction as generalizing b with
  | nil => exact ok b
  | cons a as ih => exact bind (hk b a) fun b _ => ih b

end NoPanic

theorem message_noPanic (kind flags : Nat) (payload : List UInt8) :
    NoPanic (parser.message bigEndian kind flags payload) := by
  unfold DumpParser.message
  refine .ite (fun _ => .ite (fun _ => .dump _) fun _ => .dump _) fun _ => .ite (fun _ => ?_) fun _ =>
    .ite (fun _ => ?_) fun _ => .ite (fun _ => .ite (fun _ => .dump _) fun _ => ?_) fun _ => .dump _
  · exact .ite (fun _ => .dump _) fun _ => .ite (fun _ => .dump _) fun _ => .ite
      (fun _ => .ite (fun _ => .dump _) fun _ => .ite (fun _ => .dump _) fun _ => .ok _) fun _ => .ok _
  · refine .bind ?_ fun _ _ => .ok _
    exact .ite (fun _ => .dump _) fun _ => .ite (fun _ => .ok _) fun _ => .ite (fun _ => .dump _) fun _ => .dump _
  · cases hflow : parseFlow bigEndian payload with
    | ok flow => exact .ok _
    | error e =>
      obtain ⟨reason, rfl⟩ := parseFlow_safe payload e hflow
      exact .ok _

theorem messageStep_noPanic (l : List UInt8) : NoPanic (DumpParser.messageStep bigEndian parser l) := by
  unfold DumpParser.messageStep
  refine .ite (fun _ => .dump _) fun _ => .ite (fun _ => .dump _) fun hlen => .ite (fun _ => .dump _) fun _ =>
    .ite (fun _ => .dump _) fun _ => .ite (fun _ => .dump _) fun _ => ?_
  rw [slice_eq (by omega) (by omega)]
  exact .bind (.ok _) fun _ _ => .bind (message_noPanic _ _ _) fun _ _ => .ite (fun _ => .dump _) fun _ => .ok _

theorem pushDatagram_noPanic (parser : DumpParser) (datagram : Datagram) :
    NoPanic (parser.pushDatagram bigEndian datagram) := by
  refine .ite (fun _ => .dump _) fun _ => .ite (fun _ => .dump _) fun _ => fun e h => ?_
  exact ((messageStep_chunked bigEndian).run_spec (I := fun _ => True) (E := fun e => ∃ error, e = .dump error) le_rfl
    (fun _ _ _ _ _ _ => trivial) (fun _ l e _ h => messageStep_noPanic l e h) trivial).2 e h

theorem parseDumpDetailedWithLimit_noPanic (datagrams : List Datagram) (expectedSeq expectedPortId maxBytes : Nat) :
    NoPanic (parseDumpDetailedWithLimit bigEndian datagrams expectedSeq expectedPortId maxBytes) :=
  .bind (.ite (fun _ => .dump _) fun _ => .ok _) fun _ _ => .bind (.foldlM pushDatagram_noPanic _ _) fun _ _ =>
    .ite (fun _ => .ok _) fun _ => .dump _

theorem parseDatagram_ok {senderPid : Nat} {bytes : List UInt8}
    (h : parser.parseDatagram bigEndian senderPid bytes = .ok parser') :
    senderPid = 0 ∧ ∃ chunks : List (List UInt8), bytes = chunks.flatten ∧ ∀ c ∈ chunks, WholeMessage bigEndian c := by
  unfold DumpParser.parseDatagram at h
  split_ifs at h with hpid
  obtain ⟨chunks, tail, parser₁, hbytes, hwhole, -, ⟨rfl, -⟩ | ⟨-, hstop⟩⟩ :=
    (messageStep_chunked bigEndian).exists_chunks h
  · exact ⟨not_not.1 hpid, chunks, hbytes.trans (List.append_nil _), hwhole⟩
  · cases (messageStep_ok hstop).1

/-- Datagrams that are taken come from the kernel and consist of whole messages. -/
theorem foldlM_pushDatagram_ok {datagrams : List Datagram}
    (h : datagrams.foldlM (DumpParser.pushDatagram bigEndian) parser = .ok parser') :
    ∃ ds : List MessageDatagram, datagrams = datagramsOf ds ∧ (∀ d ∈ ds, d.1 = 0) ∧
      ∀ d ∈ ds, WholeDatagram bigEndian d := by
  induction datagrams generalizing parser with
  | nil => exact ⟨[], rfl, fun _ hd => absurd hd List.not_mem_nil, fun _ hd => absurd hd List.not_mem_nil⟩
  | cons d datagrams ih =>
    rw [List.foldlM_cons, Except.bind_eq_ok] at h
    obtain ⟨parser₁, hpush, h⟩ := h
    obtain ⟨ds, hds, hpid, hwhole⟩ := ih h
    unfold DumpParser.pushDatagram at hpush
    split_ifs at hpush
    obtain ⟨hsender, chunks, hbytes, hchunks⟩ := parseDatagram_ok hpush
    refine ⟨(0, chunks) :: ds, ?_, List.forall_mem_cons.2 ⟨rfl, hpid⟩,
      List.forall_mem_cons.2 ⟨⟨hchunks, fun _ => rfl⟩, hwhole⟩⟩
    rw [datagramsOf, List.map_cons, ← datagramsOf, ← hds, ← hbytes, ← hsender]

theorem messagesOf_kernel {ds : List MessageDatagram} (h : ∀ d ∈ ds, d.1 = 0) :
    messagesOf ds = (ds.map (·.2)).flatten.map fun c => (0, c) := by
  unfold messagesOf
  rw [List.map_flatten, List.map_map, List.flatMap_def]
  congr 1
  refine List.map_congr_left fun d hd => ?_
  rw [h d hd]
  rfl

theorem finish_iff {parsed : ParsedDump} :
    parser.finish = .ok parsed ↔ parser.done = true ∧ parsed = parser.toParsedDump := by
  unfold DumpParser.finish
  split_ifs with hdone
  · exact ⟨fun h => ⟨hdone, (Except.ok.inj h).symm⟩, fun h => congrArg _ h.2.symm⟩
  · exact iff_of_false (fun h => by cases h) fun h => hdone h.1

/-- A dump from the kernel, as its messages. -/
theorem parse_messages_iff {ds : List MessageDatagram} {expectedSeq expectedPortId maxBytes : Nat} {parsed : ParsedDump}
    (hkernel : ∀ d ∈ ds, d.1 = 0) (hwhole : ∀ d ∈ ds, WholeDatagram bigEndian d) :
    parseDumpDetailedWithLimit bigEndian (datagramsOf ds) expectedSeq expectedPortId maxBytes = .ok parsed ↔
      totalBytes (datagramsOf ds) ≤ maxBytes ∧ ∃ parser,
        (ds.map (·.2)).flatten.foldlM (addMessage bigEndian) (.new expectedSeq expectedPortId maxBytes) = .ok parser ∧
          parser.done = true ∧ parsed = parser.toParsedDump := by
  unfold parseDumpDetailedWithLimit validateDumpSize
  split_ifs with hlimit
  · exact iff_of_false (fun h => by cases h) fun h => absurd h.1 (Nat.not_le_of_lt hlimit)
  · refine Iff.trans ?_ (and_iff_right (Nat.le_of_not_lt hlimit)).symm
    have hfold : (messagesOf ds).foldlM (addFrom bigEndian) (.new expectedSeq expectedPortId maxBytes) =
        (ds.map (·.2)).flatten.foldlM (addMessage bigEndian) (.new expectedSeq expectedPortId maxBytes) := by
      rw [messagesOf_kernel hkernel, List.foldlM_map]
      rfl
    have hpush := @foldlM_pushDatagram bigEndian (.new expectedSeq expectedPortId maxBytes) ds hwhole
      ((Nat.zero_add _).trans_le (Nat.le_of_not_lt hlimit))
    show ((datagramsOf ds).foldlM (DumpParser.pushDatagram bigEndian) (.new expectedSeq expectedPortId maxBytes) >>=
      fun parser => parser.finish) = _ ↔ _
    rw [hpush, hfold]
    cases (ds.map (·.2)).flatten.foldlM (addMessage bigEndian) (.new expectedSeq expectedPortId maxBytes) with
    | error e => exact iff_of_false (fun h => by cases h) fun ⟨_, h, _⟩ => by cases h
    | ok parser =>
      refine (@finish_iff (parser.setTotal _) parsed).trans ⟨fun h => ⟨parser, rfl, h⟩, fun ⟨_, h, hparsed⟩ => ?_⟩
      cases h
      exact hparsed

theorem totalBytes_datagramsOf (ds : List MessageDatagram) :
    totalBytes (datagramsOf ds) = (ds.map (·.2)).flatten.flatten.length := by
  induction ds with
  | nil => rfl
  | cons d ds ih =>
    rw [datagramsOf, List.map_cons, totalBytes_cons, List.map_cons, List.flatten_cons, List.flatten_append,
      List.length_append, ← ih]
    rfl

theorem length_le_flatten {messages : List (List UInt8)} (h : ∀ c ∈ messages, WholeMessage bigEndian c) :
    messages.length ≤ messages.flatten.length := by
  induction messages with
  | nil => exact le_rfl
  | cons c messages ih =>
    have hc := (h c List.mem_cons_self).length_ge
    have := ih fun c hc => h c (List.mem_cons_of_mem _ hc)
    rw [List.length_cons, List.flatten_cons, List.length_append]
    omega

theorem malformedOf_le (messages : List (List UInt8)) : malformedOf bigEndian messages ≤ messages.length :=
  List.countP_le_length.trans (List.length_filter_le ..)

/-- `NLMSG_DONE` adds neither a flow nor a malformed entry. -/
theorem filter_concat_done {pre : List (List UInt8)} {last : List UInt8} (h : IsDone bigEndian last) :
    ((pre ++ [last]).filter fun c => nlmsgKind bigEndian c = ipctnlMsgCtNew) =
      pre.filter fun c => nlmsgKind bigEndian c = ipctnlMsgCtNew := by
  rw [List.filter_append, List.filter_cons_of_neg (by simpa using h.kind_ne), List.filter_nil, List.append_nil]

/-- What is accepted, and what is made of it. -/
theorem parseDumpDetailedWithLimit_iff {datagrams : List Datagram} {expectedSeq expectedPortId maxBytes : Nat}
    {parsed : ParsedDump} (hmax : maxBytes ≤ u64Max) :
    parseDumpDetailedWithLimit bigEndian datagrams expectedSeq expectedPortId maxBytes = .ok parsed ↔
      ∃ chunks, AcceptedDump bigEndian expectedSeq expectedPortId maxBytes datagrams chunks ∧
        parsed = ⟨flowsOf bigEndian chunks.flatten, malformedOf bigEndian chunks.flatten⟩ := by
  have hresult : ∀ {pre : List (List UInt8)} {last : List UInt8}, IsDone bigEndian last →
      (∀ c ∈ pre ++ [last], WholeMessage bigEndian c) → (pre ++ [last]).flatten.length ≤ maxBytes →
      (afterMessages bigEndian (.new expectedSeq expectedPortId maxBytes) pre).toParsedDump =
        ⟨flowsOf bigEndian (pre ++ [last]), malformedOf bigEndian (pre ++ [last])⟩ := by
    intro pre last hlast hwhole hlimit
    have hflows := @afterMessages_flows bigEndian (.new expectedSeq expectedPortId maxBytes) pre
    have hmalformed := @afterMessages_malformed bigEndian (.new expectedSeq expectedPortId maxBytes) pre (by
      have := @malformedOf_le bigEndian pre
      have := length_le_flatten hwhole
      rw [List.length_append] at this
      show 0 + malformedOf bigEndian pre ≤ u64Max
      omega)
    rw [flowsOf, malformedOf, filter_concat_done hlast, ← flowsOf, ← malformedOf]
    generalize afterMessages bigEndian (.new expectedSeq expectedPortId maxBytes) pre = parser at hflows hmalformed
    obtain ⟨⟨flows, malformedEntries⟩, _⟩ := parser
    rw [show flows = flowsOf bigEndian pre from hflows,
      show malformedEntries = malformedOf bigEndian pre from hmalformed.trans (Nat.zero_add _)]
  constructor
  · intro h
    obtain ⟨ds, rfl, hkernel, hwhole⟩ : ∃ ds : List MessageDatagram, datagrams = datagramsOf ds ∧ (∀ d ∈ ds, d.1 = 0) ∧
        ∀ d ∈ ds, WholeDatagram bigEndian d := by
      obtain ⟨_, -, h⟩ := Except.bind_eq_ok.1 h
      obtain ⟨parser, h, -⟩ := Except.bind_eq_ok.1 h
      exact foldlM_pushDatagram_ok h
    obtain ⟨hlimit, parser, hfold, hdone, rfl⟩ := (parse_messages_iff hkernel hwhole).1 h
    obtain ⟨hexpected, pre, last, hchunks, hlast, hpre, rfl⟩ := (foldlM_addMessage_iff rfl _).1 ⟨hfold, hdone⟩
    have hall : ∀ c ∈ (ds.map (·.2)).flatten, WholeMessage bigEndian c := by
      intro c hc
      obtain ⟨chunks, hmem, hc⟩ := List.mem_flatten.1 hc
      obtain ⟨d, hd, rfl⟩ := List.mem_map.1 hmem
      exact (hwhole d hd).whole c hc
    refine ⟨ds.map (·.2), ⟨hlimit, ?_, ?_, hall, hexpected, pre, last, hchunks, hlast, hpre⟩, ?_⟩
    · intro d hd
      obtain ⟨d', hd', rfl⟩ := List.mem_map.1 hd
      exact hkernel d' hd'
    · rw [datagramsOf, List.map_map, List.map_map]
      rfl
    · rw [totalBytes_datagramsOf] at hlimit
      rw [hchunks] at hall hlimit ⊢
      exact hresult hlast hall hlimit
  · rintro ⟨chunks, haccepted, rfl⟩
    have hds : datagrams = datagramsOf (chunks.map fun c => (0, c)) := by
      have hbytes := haccepted.bytes
      have hkernel := haccepted.kernel
      clear haccepted
      induction datagrams generalizing chunks with
      | nil =>
        obtain rfl : chunks = [] := List.map_eq_nil_iff.1 hbytes.symm
        rfl
      | cons d datagrams ih =>
        obtain ⟨c, chunks, rfl⟩ : ∃ c cs, chunks = c :: cs := by
          cases chunks with
          | nil => cases hbytes
          | cons c cs => exact ⟨c, cs, rfl⟩
        obtain ⟨hd, hbytes⟩ := List.cons.inj hbytes
        obtain ⟨hpid, hkernel⟩ := List.forall_mem_cons.1 hkernel
        rw [ih _ hbytes hkernel, List.map_cons, datagramsOf, datagramsOf, List.map_cons, ← hd, ← hpid]
    have hmap : (chunks.map fun c => ((0, c) : MessageDatagram)).map (·.2) = chunks := by
      rw [List.map_map]
      exact List.map_id _
    obtain ⟨pre, last, hchunks, hlast, hpre⟩ := haccepted.done
    have hlimit := haccepted.limit
    rw [hds]
    refine (parse_messages_iff ?_ ?_).2 ⟨hds ▸ hlimit, ?_⟩
    · intro d hd
      obtain ⟨c, -, rfl⟩ := List.mem_map.1 hd
      rfl
    · intro d hd
      obtain ⟨c, hc, rfl⟩ := List.mem_map.1 hd
      exact ⟨fun m hm => haccepted.whole m (List.mem_flatten.2 ⟨c, hc, hm⟩), fun _ => rfl⟩
    · rw [hmap]
      have := (@foldlM_addMessage_iff _ (.new expectedSeq expectedPortId maxBytes) _ rfl chunks.flatten).2
        ⟨haccepted.expected, pre, last, hchunks, hlast, hpre, rfl⟩
      refine ⟨_, this.1, this.2, ?_⟩
      have hwhole := haccepted.whole
      rw [hds, totalBytes_datagramsOf, hmap, hchunks] at hlimit
      rw [hchunks] at hwhole ⊢
      exact (hresult hlast hwhole hlimit).symm

/-- On no input is there an index or slice out of range or a loop without end. What is accepted is exactly a whole dump,
and its flows are those of its well-formed messages. The attribute walk accepts whole attributes of different known
types, up to zeros, and gives their payloads. -/
theorem netlink_exact (bigEndian : Bool) :
    (∀ datagrams expectedSeq expectedPortId,
      NoPanic (parseDumpForPort bigEndian datagrams expectedSeq expectedPortId) ∧
      (∀ flows, parseDumpForPort bigEndian datagrams expectedSeq expectedPortId = .ok flows ↔
        ∃ chunks, AcceptedDump bigEndian expectedSeq expectedPortId maxDumpBytes datagrams chunks ∧
          flows = flowsOf bigEndian chunks.flatten) ∧
      ∀ parsed, parseDumpDetailedWithLimit bigEndian datagrams expectedSeq expectedPortId maxDumpBytes = .ok parsed ↔
        ∃ chunks, AcceptedDump bigEndian expectedSeq expectedPortId maxDumpBytes datagrams chunks ∧
          parsed = ⟨flowsOf bigEndian chunks.flatten, malformedOf bigEndian chunks.flatten⟩) ∧
    ∀ payload max, Safe (attrTable bigEndian payload max) ∧
      ∀ table, attrTable bigEndian payload max = .ok table ↔ ∃ chunks tail, payload = chunks.flatten ++ tail ∧
        (∀ c ∈ chunks, WholeAttr bigEndian c) ∧ (∀ b ∈ tail, b = 0) ∧ (knownKinds bigEndian max chunks).Nodup ∧
          table = tableOf bigEndian max chunks := by
  have hmax : maxDumpBytes ≤ u64Max := by decide
  refine ⟨fun datagrams expectedSeq expectedPortId => ⟨?_, fun flows => ?_, fun parsed =>
    parseDumpDetailedWithLimit_iff hmax⟩, fun payload max => ⟨(attrTable_spec payload max).2, attrTable_iff payload max⟩⟩
  · exact .bind (parseDumpDetailedWithLimit_noPanic _ _ _ _) fun _ _ => .ok _
  · unfold parseDumpForPort
    rw [Except.bind_eq_ok]
    constructor
    · rintro ⟨parsed, h, hflows⟩
      obtain ⟨chunks, haccepted, rfl⟩ := (parseDumpDetailedWithLimit_iff hmax).1 h
      exact ⟨chunks, haccepted, (Except.ok.inj hflows).symm⟩
    · rintro ⟨chunks, haccepted, rfl⟩
      exact ⟨_, (parseDumpDetailedWithLimit_iff hmax).2 ⟨chunks, haccepted, rfl⟩, rfl⟩

end Lanspeedd
