import DOpenWrt.Lib.Except
import DOpenWrt.Lib.LineStream
import DOpenWrt.Lanspeedd.Procfs

/-!
# Reading procfs line by line

`visit_reader` with any visitor. `read_bounded_line` gives the lines of the stream whatever the pieces are, cut to
`CONNTRACK_LINE_MAX` bytes; a line that is longer is not parsed.
-/

namespace Lanspeedd
open LineStream

/-- The loop of `visit_reader` with a visitor that may fail, and the entries and the malformed lines so far. -/
def visitReaderLoop {σ ε : Type} (visit : σ → FlowSample → Except ε σ) :
    Nat → Reader → σ → Nat → Nat → Except ε (σ × Nat × Nat)
  | 0, _, state, entriesSeen, malformedLines => .ok (state, entriesSeen, malformedLines)
  | fuel + 1, reader, state, entriesSeen, malformedLines =>
    match readBoundedLine reader with
    | (none, _) => .ok (state, entriesSeen, malformedLines)
    | (some (line, oversized), reader) =>
      let entriesSeen := saturatingAdd entriesSeen 1
      if oversized then visitReaderLoop visit fuel reader state entriesSeen (saturatingAdd malformedLines 1)
      else
        match parseLine line with
        | some flow => do
          let state ← visit state flow
          visitReaderLoop visit fuel reader state entriesSeen malformedLines
        | none => visitReaderLoop visit fuel reader state entriesSeen (saturatingAdd malformedLines 1)

def visitReader {σ ε : Type} (visit : σ → FlowSample → Except ε σ) (reader : Reader) (state : σ) :
    Except ε (σ × Nat × Nat) :=
  -- a line has a byte at least
  visitReaderLoop visit (reader.flatten.length + 1) reader state 0 0

structure ProcfsAggregateSnapshot where
  aggregate : AggregateSnapshot
  sourcePath : String
  counterSource : String
  entriesSeen : Nat
  malformedLines : Nat

def aggregateReader {ε : Type} (reader : Reader) (sourcePath : String) (identities : IdentityTable)
    (nowMs maxClients : Nat) : Except ε ProcfsAggregateSnapshot := do
  let (aggregate, entriesSeen, malformedLines) ←
    visitReader (fun (aggregate : AggregateState) flow => .ok (aggregate.push flow)) reader
      (.new identities nowMs maxClients)
  return { aggregate := aggregate.finish, sourcePath, counterSource := procfsCounterSource, entriesSeen, malformedLines }

/-! ### Lines -/

/-- What a line gives: its flow, if it is not too long and can be parsed. -/
def lineFlow (line : List UInt8) : Option FlowSample := if line.length ≤ conntrackLineMax then parseLine line else none

def streamFlows (stream : List UInt8) : List FlowSample := (lines 10 stream).filterMap lineFlow

def malformedCount (stream : List UInt8) : Nat := (lines 10 stream).countP fun line => (lineFlow line).isNone

section
variable {reader : Reader} {read : List UInt8}

/-- The kept part of a line after one more part of it, the first `n` bytes of a piece. -/
theorem take_append_room {piece : List UInt8} {n : Nat} :
    (if decide (conntrackLineMax < read.length) = true then read.take conntrackLineMax
      else read.take conntrackLineMax ++ piece.take (min n (conntrackLineMax - (read.take conntrackLineMax).length))) =
        (read ++ piece.take n).take conntrackLineMax := by
  split
  · next h => rw [List.take_append_of_le_length (of_decide_eq_true h).le]
  · next h =>
    have hread : read.take conntrackLineMax = read :=
      List.take_of_length_le (Nat.not_lt.1 fun hlt => h (decide_eq_true hlt))
    rw [hread, List.take_append, hread, List.take_take, Nat.min_comm]

theorem oversized_append {piece : List UInt8} {n : Nat} (hn : n ≤ piece.length) :
    (decide (conntrackLineMax < read.length) || decide (conntrackLineMax - (read.take conntrackLineMax).length < n)) =
      decide (conntrackLineMax < (read ++ piece.take n).length) := by
  rw [Bool.eq_iff_iff, Bool.or_eq_true, decide_eq_true_iff, decide_eq_true_iff, decide_eq_true_iff, List.length_take,
    List.length_append, List.length_take]
  omega

/-- What `read_bounded_line` has read of a line is kept up to the limit, and the flag says whether there was more. -/
theorem readLineLoop_eq {sawData : Bool} (hsaw : reader = [] → sawData = true) :
    readLineLoop reader (read.take conntrackLineMax) (decide (conntrackLineMax < read.length)) sawData =
      (some ((read ++ (readUntil 10 reader).1).take conntrackLineMax,
        decide (conntrackLineMax < (read ++ (readUntil 10 reader).1).length)), (readUntil 10 reader).2) := by
  induction reader generalizing read sawData with
  | nil =>
    rw [readLineLoop, readUntil, hsaw rfl, List.append_nil]; rfl
  | cons piece reader ih =>
    rw [readLineLoop, readUntil]
    cases hfind : piece.findIdx? (· = 10) with
    | some i =>
      obtain ⟨hlt, hstop, -⟩ := List.findIdx?_eq_some_iff_getElem.1 hfind
      have hlast : (piece.take (i + 1)).getLast? = some 10 := by
        rw [List.take_add_one, List.getElem?_eq_getElem hlt, of_decide_eq_true hstop, Option.toList_some,
          List.getLast?_concat]
      simp only [hlast, if_true, take_append_room, oversized_append (Nat.succ_le_of_lt hlt)]
      rfl
    | none =>
      have hlast : ¬ piece.getLast? = some 10 := fun h => findIdx_none hfind (List.mem_of_getLast? h)
      simp only [take_append_room, oversized_append (Nat.le_refl _), List.take_length, if_neg hlast]
      rw [ih fun _ => rfl, List.append_assoc]

end

/-- The next line, and what is left. -/
theorem readBoundedLine_eq {reader : Reader} (hne : reader ≠ []) : readBoundedLine reader =
    (some ((readUntil 10 reader).1.take conntrackLineMax, decide (conntrackLineMax < (readUntil 10 reader).1.length)),
      (readUntil 10 reader).2) := by
  have h := @readLineLoop_eq reader [] false fun h => absurd h hne
  rw [List.take_nil, List.nil_append] at h
  exact h

/-! ### The run -/

theorem saturatingAdd_one_add (a n : Nat) : saturatingAdd (saturatingAdd a 1) n = saturatingAdd a (n + 1) := by
  rw [saturatingAdd, saturatingAdd, saturatingAdd]
  omega

section
variable {σ ε : Type} {visit : σ → FlowSample → Except ε σ} {reader : Reader}

/-- A visitor that stops keeps the counts from being seen. -/
theorem visitReaderLoop_eq {fuel : Nat} (hreader : ∀ piece ∈ reader, piece ≠ []) (hfuel : reader.flatten.length < fuel)
    (state : σ) {seen bad : Nat} (hseen : seen ≤ u64Max) (hbad : bad ≤ u64Max) :
    visitReaderLoop visit fuel reader state seen bad = ((streamFlows reader.flatten).foldlM visit state).bind fun state =>
      .ok (state, saturatingAdd seen (lines 10 reader.flatten).length, saturatingAdd bad (malformedCount reader.flatten)) := by
  induction fuel generalizing reader state seen bad with
  | zero => exact absurd hfuel (Nat.not_lt_zero _)
  | succ fuel ih =>
    have hsat (a : Nat) : saturatingAdd a 1 ≤ u64Max := Nat.min_le_right ..
    rw [visitReaderLoop]
    by_cases hne : reader = []
    · have hzero {a : Nat} (ha : a ≤ u64Max) : saturatingAdd a 0 = a := Nat.min_eq_left ha
      subst hne
      have hnone : readBoundedLine [] = (none, []) := rfl
      rw [hnone, streamFlows, malformedCount, List.flatten_nil, lines_nil, List.filterMap_nil, List.countP_nil,
        List.length_nil, hzero hseen, hzero hbad]; rfl
    · obtain ⟨hfirst, hrest⟩ := @readUntil_isFirst _ _ 10 _ hreader hne
      have hshort : (readUntil 10 reader).2.flatten.length < fuel := by
        have hlength := congrArg List.length hfirst.split
        have hpos := List.length_pos_iff.2 hfirst.ne_nil
        rw [List.length_append] at hlength
        omega
      rw [readBoundedLine_eq hne, streamFlows, malformedCount, hfirst.lines, List.filterMap_cons, List.countP_cons,
        List.length_cons]
      set line := (readUntil 10 reader).1
      set rest := (readUntil 10 reader).2
      dsimp only
      by_cases hlong : conntrackLineMax < line.length
      · have hflow : lineFlow line = none := if_neg (Nat.not_le.2 hlong)
        rw [if_pos (decide_eq_true hlong), ih hrest hshort state (hsat _) (hsat _), hflow, saturatingAdd_one_add,
          saturatingAdd_one_add]; rfl
      · have hflow : lineFlow line = parseLine line := if_pos (Nat.not_lt.1 hlong)
        rw [if_neg fun h => hlong (of_decide_eq_true h), List.take_of_length_le (Nat.not_lt.1 hlong), hflow]
        cases parseLine line with
        | none =>
          dsimp only
          rw [ih hrest hshort state (hsat _) (hsat _), saturatingAdd_one_add, saturatingAdd_one_add]; rfl
        | some flow =>
          dsimp only
          rw [List.foldlM_cons]
          cases visit state flow with
          | error e => rfl
          | ok state =>
            rw [Except.ok_bind, Except.ok_bind, ih hrest hshort state (hsat _) hbad, saturatingAdd_one_add]; rfl

end

theorem visitReader_eq {σ ε : Type} (visit : σ → FlowSample → Except ε σ) {reader : Reader}
    (hreader : ∀ piece ∈ reader, piece ≠ []) (state : σ) :
    visitReader visit reader state = ((streamFlows reader.flatten).foldlM visit state).bind fun state =>
      .ok (state, min (lines 10 reader.flatten).length u64Max, min (malformedCount reader.flatten) u64Max) := by
  have hzero (a : Nat) : saturatingAdd 0 a = min a u64Max := by rw [saturatingAdd, Nat.zero_add]
  rw [visitReader, visitReaderLoop_eq hreader (Nat.lt_succ_self _) state (Nat.zero_le _) (Nat.zero_le _), hzero, hzero]

/-- The aggregate of a file is that of its flows as a batch. -/
theorem aggregateReader_eq {ε : Type} {reader : Reader} (hreader : ∀ piece ∈ reader, piece ≠ []) (sourcePath : String)
    (identities : IdentityTable) (nowMs maxClients : Nat) :
    aggregateReader reader sourcePath identities nowMs maxClients = (.ok {
      aggregate := aggregateFlows identities (streamFlows reader.flatten) nowMs maxClients
      sourcePath
      counterSource := procfsCounterSource
      entriesSeen := min (lines 10 reader.flatten).length u64Max
      malformedLines := min (malformedCount reader.flatten) u64Max } : Except ε ProcfsAggregateSnapshot) := by
  have hpush (flows : List FlowSample) (state : AggregateState) :
      flows.foldlM (fun (aggregate : AggregateState) flow => (.ok (aggregate.push flow) : Except ε _)) state =
        .ok (flows.foldl AggregateState.push state) := List.foldlM_pure
  rw [aggregateReader, visitReader_eq _ hreader, hpush]
  rfl

/-! ### One line -/

section
variable {before line : List UInt8}

/-- The flows before a line, its own, and those behind it. -/
theorem streamFlows_line (hbefore : Ended 10 before) (hline : 10 ∉ line) (behind : List UInt8) :
    streamFlows (before ++ line ++ 10 :: behind) =
      streamFlows before ++ (lineFlow (line ++ [10])).toList ++ streamFlows behind := by
  rw [streamFlows, lines_replace hbefore hline, List.filterMap_append, List.append_assoc]
  refine congrArg (streamFlows before ++ ·) ?_
  rw [List.filterMap_cons]
  cases lineFlow (line ++ [10]) <;> rfl

theorem malformedCount_line (hbefore : Ended 10 before) (hline : 10 ∉ line) (behind : List UInt8) :
    malformedCount (before ++ line ++ 10 :: behind) =
      malformedCount before + (if (lineFlow (line ++ [10])).isNone then 1 else 0) + malformedCount behind := by
  rw [malformedCount, lines_replace hbefore hline, List.countP_append, List.countP_cons, malformedCount, malformedCount]
  omega

end

/-- Every line is visited or counted as malformed. -/
theorem length_streamFlows (stream : List UInt8) :
    (streamFlows stream).length + malformedCount stream = (lines 10 stream).length := by
  rw [streamFlows, malformedCount]
  induction lines 10 stream with
  | nil => rfl
  | cons line rest ih =>
    rw [List.filterMap_cons, List.countP_cons, List.length_cons, ← ih]
    cases lineFlow line with
    | none => exact (Nat.add_assoc ..).symm
    | some flow => exact Nat.add_right_comm ..

/-- However the stream is delivered, the visitor gets the flows of its lines in order, the counts are those of its lines,
and a line has its own flow only. -/
theorem visitReader_exact {σ ε : Type} (visit : σ → FlowSample → Except ε σ) (reader : Reader)
    (hreader : ∀ piece ∈ reader, piece ≠ []) (state : σ) :
    (visitReader visit reader state = ((streamFlows reader.flatten).foldlM visit state).bind fun state =>
      .ok (state, min (lines 10 reader.flatten).length u64Max, min (malformedCount reader.flatten) u64Max)) ∧
    (streamFlows reader.flatten).length + malformedCount reader.flatten = (lines 10 reader.flatten).length ∧
    ∀ before line behind : List UInt8, Ended 10 before → 10 ∉ line →
      lines 10 (before ++ line ++ 10 :: behind) = lines 10 before ++ (line ++ [10]) :: lines 10 behind ∧
      streamFlows (before ++ line ++ 10 :: behind) =
        streamFlows before ++ (lineFlow (line ++ [10])).toList ++ streamFlows behind ∧
      malformedCount (before ++ line ++ 10 :: behind) =
        malformedCount before + (if (lineFlow (line ++ [10])).isNone then 1 else 0) + malformedCount behind := by
  exact ⟨visitReader_eq visit hreader state, length_streamFlows _, fun before line behind hbefore hline =>
    ⟨lines_replace hbefore hline behind, streamFlows_line hbefore hline behind, malformedCount_line hbefore hline behind⟩⟩

/-- A line that comes in two pieces. -/
theorem visitReader_exact_pieces : (streamFlows [105, 112, 10]).length + malformedCount [105, 112, 10] = 1 ∧
    visitReader (fun (flows : List FlowSample) flow => (.ok (flows ++ [flow]) : Except Unit (List FlowSample))) [[105, 112], [10]] [] =
      ((streamFlows [105, 112, 10]).foldlM (fun flows flow => Except.ok (flows ++ [flow])) []).bind fun flows =>
        .ok (flows, 1, min (malformedCount [105, 112, 10]) u64Max) :=
  have h := visitReader_exact (fun (flows : List FlowSample) flow => (.ok (flows ++ [flow]) : Except Unit (List FlowSample)))
    [[105, 112], [10]] (by decide) []
  ⟨h.2.1, h.1⟩

end Lanspeedd
