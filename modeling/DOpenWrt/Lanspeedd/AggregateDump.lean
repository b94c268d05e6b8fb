import DOpenWrt.Lanspeedd.Aggregate
import DOpenWrt.Lanspeedd.NetlinkAccept

/-!
# The streaming dump

`aggregate_dump` hands the flows of a datagram on before it parses the next one. It comes to what the batch parser and
the aggregate of all its flows come to.
-/

namespace Lanspeedd

def netlinkSourcePath : String := "netlink:ctnetlink"
def netlinkCounterSource : String := "ctnetlink_conntrack_acct_orig_reply_bytes"

structure NetlinkAggregateSnapshot where
  aggregate : AggregateSnapshot
  sourcePath : String
  counterSource : String
  malformedEntries : Nat
  entriesSeen : Nat

variable (bigEndian : Bool)

def drainNewFlows (parser : DumpParser) (aggregate : AggregateState) : DumpParser × AggregateState :=
  ({ parser with flows := [] }, parser.flows.foldl .push aggregate)

def finishAggregateDump (aggregate : AggregateState) (parsed : ParsedDump) : NetlinkAggregateSnapshot :=
  let aggregate := aggregate.finish
  { aggregate
    sourcePath := netlinkSourcePath
    counterSource := netlinkCounterSource
    malformedEntries := parsed.malformedEntries
    entriesSeen := saturatingAdd aggregate.stats.entriesSeen parsed.malformedEntries }

/-- The loop of `aggregate_dump` for one datagram. -/
def aggregateStep (s : DumpParser × AggregateState) (datagram : Datagram) : Parse (DumpParser × AggregateState) := do
  let parser ← s.1.pushDatagram bigEndian datagram
  return drainNewFlows parser s.2

def aggregateDump (datagrams : List Datagram) (expectedSeq : Nat) (identities : IdentityTable) (nowMs maxClients : Nat) :
    Parse NetlinkAggregateSnapshot := do
  validateDumpSize datagrams maxDumpBytes
  let (parser, aggregate) ← datagrams.foldlM (aggregateStep bigEndian)
    (.new expectedSeq 0 maxDumpBytes, .new identities nowMs maxClients)
  let parsed ← parser.finish
  return finishAggregateDump aggregate parsed

variable {bigEndian}

/-! ### Flows that are already there -/

/-- The parser with some more flows before its own. -/
def DumpParser.after (flows : List FlowSample) (parser : DumpParser) : DumpParser :=
  { parser with flows := flows ++ parser.flows }

variable {flows : List FlowSample} {parser : DumpParser}

@[simp] theorem after_expectedSeq : (parser.after flows).expectedSeq = parser.expectedSeq := rfl
@[simp] theorem after_expectedPortId : (parser.after flows).expectedPortId = parser.expectedPortId := rfl
@[simp] theorem after_done : (parser.after flows).done = parser.done := rfl
@[simp] theorem after_maxBytes : (parser.after flows).maxBytes = parser.maxBytes := rfl
@[simp] theorem after_totalBytes : (parser.after flows).totalBytes = parser.totalBytes := rfl

theorem message_after (flows : List FlowSample) (parser : DumpParser) (kind flags : Nat) (payload : List UInt8) :
    (parser.after flows).message bigEndian kind flags payload =
      (parser.message bigEndian kind flags payload).map (·.after flows) := by
  unfold DumpParser.message
  rw [after_done]
  dsimp only
  split_ifs
  all_goals try rfl
  · cases parseAck bigEndian payload <;> rfl
  · cases parseFlow bigEndian payload with
    | ok flow =>
      show Except.ok { parser with flows := flows ++ parser.flows ++ [flow] } = _
      rw [List.append_assoc]
      rfl
    | error e => rcases e with (_ | _ | _ | _ | _ | _ | _ | _) | _ | _ <;> rfl

theorem messageStep_after (flows : List FlowSample) (parser : DumpParser) (rest : List UInt8) :
    DumpParser.messageStep bigEndian (parser.after flows) rest =
      (DumpParser.messageStep bigEndian parser rest).map fun r => (r.1.after flows, r.2) := by
  unfold DumpParser.messageStep
  dsimp only
  rw [after_expectedSeq, after_expectedPortId]
  split_ifs
  all_goals try rfl
  all_goals
    cases slice rest 16 (fromNe bigEndian (rest.take 4)) with
    | error e => rfl
    | ok payload =>
      show ((parser.after flows).message bigEndian _ _ payload >>= _) = ((parser.message bigEndian _ _ payload) >>= _).map _
      rw [message_after]
      cases parser.message bigEndian (fromNe bigEndian ((rest.take 6).drop 4))
        (fromNe bigEndian ((rest.take 8).drop 6)) payload <;> rfl

theorem pushDatagram_after (flows : List FlowSample) (parser : DumpParser) (datagram : Datagram) :
    (parser.after flows).pushDatagram bigEndian datagram =
      (parser.pushDatagram bigEndian datagram).map (·.after flows) := by
  unfold DumpParser.pushDatagram DumpParser.parseDatagram
  rw [after_maxBytes, after_totalBytes]
  split_ifs
  · rfl
  · rfl
  · exact ChunkLoop.run_map (messageStep_after flows) datagram.bytes.length
      (parser.setTotal (parser.totalBytes + datagram.bytes.length)) datagram.bytes

/-! ### Simulation -/

def DumpParser.drained (parser : DumpParser) : DumpParser := { parser with flows := [] }

/-- A datagram for the drained parser and for the one that keeps its flows. -/
theorem aggregateStep_eq (aggregate : AggregateState) (parser : DumpParser) (datagram : Datagram) :
    aggregateStep bigEndian (parser.drained, parser.flows.foldl .push aggregate) datagram =
      (parser.pushDatagram bigEndian datagram).map fun parser =>
        (parser.drained, parser.flows.foldl .push aggregate) := by
  have hparser : parser = parser.drained.after parser.flows := by
    unfold DumpParser.after DumpParser.drained
    rw [List.append_nil]
  have hpush := @pushDatagram_after bigEndian parser.flows parser.drained datagram
  rw [← hparser] at hpush
  rw [hpush]
  unfold aggregateStep
  cases parser.drained.pushDatagram bigEndian datagram with
  | error e => rfl
  | ok parser' =>
    show Except.ok (parser'.drained, parser'.flows.foldl .push (parser.flows.foldl .push aggregate)) =
      Except.ok (parser'.drained, (parser.flows ++ parser'.flows).foldl .push aggregate)
    rw [List.foldl_append]

theorem foldlM_aggregateStep (aggregate : AggregateState) (parser : DumpParser) (datagrams : List Datagram) :
    datagrams.foldlM (aggregateStep bigEndian) (parser.drained, parser.flows.foldl .push aggregate) =
      (datagrams.foldlM (DumpParser.pushDatagram bigEndian) parser).map fun parser =>
        (parser.drained, parser.flows.foldl .push aggregate) := by
  induction datagrams generalizing parser with
  | nil => rfl
  | cons d datagrams ih =>
    rw [List.foldlM_cons, List.foldlM_cons, aggregateStep_eq]
    cases parser.pushDatagram bigEndian d with
    | error e => rfl
    | ok parser => exact ih parser

/-- The streaming dump is the batch one followed by the aggregate. -/
theorem aggregateDump_eq_map (datagrams : List Datagram) (expectedSeq : Nat) (identities : IdentityTable)
    (nowMs maxClients : Nat) : aggregateDump bigEndian datagrams expectedSeq identities nowMs maxClients =
      (parseDumpDetailed bigEndian datagrams expectedSeq).map fun parsed =>
        finishAggregateDump (parsed.flows.foldl .push (.new identities nowMs maxClients)) parsed := by
  unfold aggregateDump parseDumpDetailed parseDumpDetailedWithLimit
  cases validateDumpSize datagrams maxDumpBytes with
  | error e => rfl
  | ok _ =>
    have hfold := @foldlM_aggregateStep bigEndian (.new identities nowMs maxClients)
      (.new expectedSeq 0 maxDumpBytes) datagrams
    show (datagrams.foldlM (aggregateStep bigEndian) (.new expectedSeq 0 maxDumpBytes, .new identities nowMs maxClients)
      >>= _) = (datagrams.foldlM (DumpParser.pushDatagram bigEndian) (.new expectedSeq 0 maxDumpBytes) >>= _).map _
    refine (congrArg (· >>= _) hfold).trans ?_
    cases datagrams.foldlM (DumpParser.pushDatagram bigEndian) (.new expectedSeq 0 maxDumpBytes) with
    | error e => rfl
    | ok parser =>
      show (parser.drained.finish >>= _) = (parser.finish).map _
      unfold DumpParser.finish
      rw [show parser.drained.done = parser.done from rfl]
      cases parser.done <;> rfl

/-! ### Counts -/

theorem countOwned_entriesSeen (stats : AggregateStats) (owned : OwnedFlow) :
    (AggregateState.countOwned stats owned).entriesSeen = stats.entriesSeen := by
  unfold AggregateState.countOwned
  cases owned.sourceSide <;> cases owned.clientIp.isIpv6 <;> rfl

theorem push_entriesSeen (state : AggregateState) (flow : FlowSample) :
    (state.push flow).stats.entriesSeen = saturatingAdd state.stats.entriesSeen 1 := by
  unfold AggregateState.push
  dsimp only
  cases classifyFlowOwnership state.identities flow with
  | bothLan => rfl
  | noLan => rfl
  | owned owned =>
    dsimp only
    unfold AggregateState.pushOwned
    dsimp only
    split_ifs
    · rfl
    · exact countOwned_entriesSeen _ _
    · exact countOwned_entriesSeen _ _

theorem foldl_entriesSeen (state : AggregateState) (flows : List FlowSample)
    (hle : state.stats.entriesSeen + flows.length ≤ u64Max) :
    (flows.foldl .push state).stats.entriesSeen = state.stats.entriesSeen + flows.length := by
  induction flows generalizing state with
  | nil => rfl
  | cons flow flows ih =>
    rw [List.length_cons] at hle ⊢
    have hpush := push_entriesSeen state flow
    rw [saturatingAdd_one (by omega)] at hpush
    rw [List.foldl_cons, ih _ (by omega), hpush]
    omega

/-- There are no more entries than messages, and no more messages than bytes. -/
theorem entries_le {datagrams : List Datagram} {expectedSeq : Nat} {parsed : ParsedDump}
    (h : parseDumpDetailed bigEndian datagrams expectedSeq = .ok parsed) :
    parsed.flows.length + parsed.malformedEntries ≤ maxDumpBytes := by
  obtain ⟨chunks, haccepted, rfl⟩ := (parseDumpDetailedWithLimit_iff (by decide)).1 h
  have hlength : ∀ messages : List (List UInt8),
      (messages.filterMap fun c => (parseFlow bigEndian (nlmsgPayload bigEndian c)).toOption).length +
        (messages.countP fun c => (parseFlow bigEndian (nlmsgPayload bigEndian c)).toOption.isNone) =
        messages.length := by
    intro messages
    induction messages with
    | nil => rfl
    | cons c messages ih =>
      rw [List.filterMap_cons, List.countP_cons, List.length_cons, ← ih]
      cases (parseFlow bigEndian (nlmsgPayload bigEndian c)).toOption with
      | none =>
        rw [Option.isNone_none, if_pos rfl]
        rfl
      | some flow =>
        rw [Option.isNone_some, if_neg Bool.false_ne_true, List.length_cons]
        omega
  have hbytes : totalBytes datagrams = chunks.flatten.flatten.length := by
    rw [List.flatten_flatten, ← haccepted.bytes, List.length_flatten, List.map_map]
    rfl
  have h1 := length_le_flatten haccepted.whole
  have h2 := haccepted.limit
  have h3 := hlength (chunks.flatten.filter fun c => nlmsgKind bigEndian c = ipctnlMsgCtNew)
  have h4 := List.length_filter_le (fun c => decide (nlmsgKind bigEndian c = ipctnlMsgCtNew)) chunks.flatten
  show (flowsOf bigEndian chunks.flatten).length + malformedOf bigEndian chunks.flatten ≤ maxDumpBytes
  unfold flowsOf malformedOf
  omega

/-- Below and above the limit, a dump is its sequence of messages. -/
theorem parseDumpDetailed_messages {a b : List MessageDatagram} (ha : ∀ d ∈ a, WholeDatagram bigEndian d)
    (hb : ∀ d ∈ b, WholeDatagram bigEndian d) (hmessages : messagesOf a = messagesOf b) (expectedSeq : Nat) :
    parseDumpDetailed bigEndian (datagramsOf a) expectedSeq = parseDumpDetailed bigEndian (datagramsOf b) expectedSeq := by
  have htotal : totalBytes (datagramsOf a) = totalBytes (datagramsOf b) := by
    have hsum : ∀ ds : List MessageDatagram,
        (ds.map (·.2)).flatten.flatten = ((messagesOf ds).map (·.2)).flatten := by
      intro ds
      rw [messagesOf, List.map_flatMap]
      simp only [List.map_map, Function.comp_def, List.map_id', List.flatMap_def]
    rw [totalBytes_datagramsOf, totalBytes_datagramsOf, hsum, hsum, hmessages]
  unfold parseDumpDetailed parseDumpDetailedWithLimit validateDumpSize
  rw [htotal]
  split_ifs with hlimit
  · rfl
  · have hle : totalBytes (datagramsOf b) ≤ maxDumpBytes := Nat.le_of_not_lt hlimit
    have hfold := fun (ds : List MessageDatagram) hds (h : totalBytes (datagramsOf ds) ≤ maxDumpBytes) =>
      @foldlM_pushDatagram bigEndian (.new expectedSeq 0 maxDumpBytes) ds hds ((Nat.zero_add _).trans_le h)
    show ((datagramsOf a).foldlM (DumpParser.pushDatagram bigEndian) (.new expectedSeq 0 maxDumpBytes) >>= _) =
      ((datagramsOf b).foldlM (DumpParser.pushDatagram bigEndian) (.new expectedSeq 0 maxDumpBytes) >>= _)
    rw [hfold a ha (htotal.trans_le hle), hfold b hb hle, hmessages, htotal]

/-- The streaming dump succeeds when the batch parser does, with the aggregate of its flows, and fails with the same error
otherwise. It does not depend on how the messages are split into datagrams. -/
theorem aggregateDump_batch (bigEndian : Bool) (expectedSeq : Nat) (identities : IdentityTable) (nowMs maxClients : Nat) :
    (∀ datagrams,
      (∀ e, aggregateDump bigEndian datagrams expectedSeq identities nowMs maxClients = .error e ↔
        parseDumpDetailed bigEndian datagrams expectedSeq = .error e) ∧
      ∀ s, aggregateDump bigEndian datagrams expectedSeq identities nowMs maxClients = .ok s ↔
        ∃ parsed, parseDumpDetailed bigEndian datagrams expectedSeq = .ok parsed ∧
          s = { aggregate := aggregateFlows identities parsed.flows nowMs maxClients
                sourcePath := netlinkSourcePath
                counterSource := netlinkCounterSource
                malformedEntries := parsed.malformedEntries
                entriesSeen := parsed.flows.length + parsed.malformedEntries }) ∧
    ∀ a b : List MessageDatagram, (∀ d ∈ a, WholeDatagram bigEndian d) → (∀ d ∈ b, WholeDatagram bigEndian d) →
      messagesOf a = messagesOf b →
      aggregateDump bigEndian (datagramsOf a) expectedSeq identities nowMs maxClients =
        aggregateDump bigEndian (datagramsOf b) expectedSeq identities nowMs maxClients := by
  refine ⟨fun datagrams => ?_, fun a b ha hb hmessages => ?_⟩
  · rw [aggregateDump_eq_map]
    cases hparsed : parseDumpDetailed bigEndian datagrams expectedSeq with
    | error e =>
      exact ⟨fun e' => ⟨fun h => (by cases h; rfl), fun h => (by cases h; rfl)⟩,
        fun s => iff_of_false (fun h => by cases h) fun ⟨_, h, _⟩ => by cases h⟩
    | ok parsed =>
      have hle := entries_le hparsed
      have hmax : maxDumpBytes ≤ u64Max := by decide
      have hseen := foldl_entriesSeen (.new identities nowMs maxClients) parsed.flows
        ((Nat.zero_add _).trans_le (by omega))
      have hfinish : finishAggregateDump (parsed.flows.foldl .push (.new identities nowMs maxClients)) parsed =
          { aggregate := aggregateFlows identities parsed.flows nowMs maxClients
            sourcePath := netlinkSourcePath
            counterSource := netlinkCounterSource
            malformedEntries := parsed.malformedEntries
            entriesSeen := parsed.flows.length + parsed.malformedEntries } := by
        have hentries : saturatingAdd
            (parsed.flows.foldl AggregateState.push (.new identities nowMs maxClients)).stats.entriesSeen
            parsed.malformedEntries = parsed.flows.length + parsed.malformedEntries := by
          rw [hseen, show (AggregateState.new identities nowMs maxClients).stats.entriesSeen = 0 from rfl, Nat.zero_add]
          exact Nat.min_eq_left (by omega)
        exact congrArg (NetlinkAggregateSnapshot.mk _ _ _ _) hentries
      refine ⟨fun e => iff_of_false (fun h => by cases h) (fun h => by cases h), fun s => ⟨fun h => ⟨parsed, rfl, ?_⟩, ?_⟩⟩
      · rw [← hfinish]
        exact (Except.ok.inj h).symm
      · rintro ⟨_, h, rfl⟩
        cases h
        exact congrArg _ hfinish
  · rw [aggregateDump_eq_map, aggregateDump_eq_map, parseDumpDetailed_messages ha hb hmessages]

end Lanspeedd
