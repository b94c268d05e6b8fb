import Mathlib.Tactic

/-!
# The chunked transfer decoder

`http_chunked_decoder_feed` is a byte-driven machine with twelve states that keeps its counters in the
decoder between calls. Body bytes leave it through the `emit` callback in runs that never cross the end
of the fragment being fed. The main result is that cutting the input into fragments changes nothing but
these runs.
-/

namespace Rtp2httpd

def httpChunkedMaxSizeLine : Nat := 4096
def httpChunkedMaxTrailerSize : Nat := 8192
def uint64Max : Nat := 2 ^ 64 - 1

inductive HttpChunkedState where
  | size | extension | sizeLf | data | dataCr | dataLf
  | trailerStart | trailer | trailerLf | trailerEndLf | done | error
  deriving DecidableEq, Repr

inductive HttpChunkedDecodeResult where
  | error | needMore | done
  deriving DecidableEq, Repr

structure HttpChunkedDecoder where
  state : HttpChunkedState
  chunkSize : Nat
  chunkRemaining : Nat
  sizeLineLength : Nat
  trailerSize : Nat
  sawSizeDigit : Bool
  deriving DecidableEq, Repr

def httpChunkedDecoderInit : HttpChunkedDecoder := ⟨.size, 0, 0, 0, 0, false⟩

def httpChunkedHexValue (ch : UInt8) : Option Nat :=
  if '0'.toNat ≤ ch.toNat ∧ ch.toNat ≤ '9'.toNat then some (ch.toNat - '0'.toNat)
  else if 'a'.toNat ≤ ch.toNat ∧ ch.toNat ≤ 'f'.toNat then some (ch.toNat - 'a'.toNat + 10)
  else if 'A'.toNat ≤ ch.toNat ∧ ch.toNat ≤ 'F'.toNat then some (ch.toNat - 'A'.toNat + 10)
  else none

namespace HttpChunkedDecoder

def fail (d : HttpChunkedDecoder) : HttpChunkedDecoder := { d with state := .error }

def countSizeByte (d : HttpChunkedDecoder) : HttpChunkedDecoder :=
  { d with sizeLineLength := d.sizeLineLength + 1 }

def countTrailerByte (d : HttpChunkedDecoder) : HttpChunkedDecoder :=
  { d with trailerSize := d.trailerSize + 1 }

end HttpChunkedDecoder

/-- What one pass through the `switch` asks of the loop around it. -/
inductive Switch where
  /-- `return http_chunked_fail(decoder, offset, consumed)`, with the decoder at that point -/
  | fail (d : HttpChunkedDecoder)
  /-- one byte consumed -/
  | next (d : HttpChunkedDecoder)
  /-- the next `emitLen` bytes are body bytes -/
  | emit (emitLen : Nat) (d : HttpChunkedDecoder)
  /-- the last line feed, after which nothing may follow -/
  | finish (d : HttpChunkedDecoder)

open HttpChunkedDecoder in
/-- The `switch` on the decoder's state, for the byte `ch` and `available` bytes from it on. -/
def switchState (d : HttpChunkedDecoder) (ch : UInt8) (available : Nat) : Switch :=
  match d.state with
  | .size =>
    let d := countSizeByte d
    if httpChunkedMaxSizeLine < d.sizeLineLength then .fail d
    else match httpChunkedHexValue ch with
      | some digit =>
        if (uint64Max - digit) / 16 < d.chunkSize then .fail d
        else .next { d with chunkSize := d.chunkSize * 16 + digit, sawSizeDigit := true }
      | none =>
        if ch.toNat = ';'.toNat ∧ d.sawSizeDigit then .next { d with state := .extension }
        else if ch.toNat = '\r'.toNat ∧ d.sawSizeDigit then .next { d with state := .sizeLf }
        else .fail d
  | .extension =>
    let d := countSizeByte d
    if httpChunkedMaxSizeLine < d.sizeLineLength then .fail d
    else if ch.toNat = '\r'.toNat then .next { d with state := .sizeLf }
    else if ch.toNat = '\n'.toNat ∨ (ch.toNat < 0x20 ∧ ch.toNat ≠ '\t'.toNat) ∨ ch.toNat = 0x7f then
      .fail d
    else .next d
  | .sizeLf =>
    if ch.toNat ≠ '\n'.toNat then .fail d
    else .next { d with
      chunkRemaining := d.chunkSize
      state := if d.chunkSize = 0 then .trailerStart else .data }
  | .data =>
    let emitLen := if d.chunkRemaining < available then d.chunkRemaining else available
    .emit emitLen { d with
      chunkRemaining := d.chunkRemaining - emitLen
      state := if d.chunkRemaining - emitLen = 0 then .dataCr else .data }
  | .dataCr =>
    if ch.toNat ≠ '\r'.toNat then .fail d else .next { d with state := .dataLf }
  | .dataLf =>
    if ch.toNat ≠ '\n'.toNat then .fail d
    else .next { d with state := .size, chunkSize := 0, sizeLineLength := 0, sawSizeDigit := false }
  | .trailerStart =>
    let d := countTrailerByte d
    if httpChunkedMaxTrailerSize < d.trailerSize then .fail d
    else if ch.toNat = '\r'.toNat then .next { d with state := .trailerEndLf }
    else if ch.toNat = '\n'.toNat then .fail d
    else .next { d with state := .trailer }
  | .trailer =>
    let d := countTrailerByte d
    if httpChunkedMaxTrailerSize < d.trailerSize then .fail d
    else if ch.toNat = '\r'.toNat then .next { d with state := .trailerLf }
    else if ch.toNat = '\n'.toNat then .fail d
    else .next d
  | .trailerLf =>
    let d := countTrailerByte d
    if httpChunkedMaxTrailerSize < d.trailerSize ∨ ch.toNat ≠ '\n'.toNat then .fail d
    else .next { d with state := .trailerStart }
  | .trailerEndLf =>
    let d := countTrailerByte d
    if httpChunkedMaxTrailerSize < d.trailerSize ∨ ch.toNat ≠ '\n'.toNat then .fail d
    else .finish { d with state := .done }
  | .done | .error => .fail d

/-- The outcome of a call: the decoder and the callback's own state after it, the runs handed to
`emit`, `*consumed` and the returned value. -/
structure Feed (ω : Type) where
  decoder : HttpChunkedDecoder
  sink : ω
  emitted : List (List UInt8)
  consumed : Nat
  result : HttpChunkedDecodeResult

variable {ω : Type}

/-- The outcome of a call that first consumed `n` bytes and emitted `runs`. -/
def Feed.after (n : Nat) (runs : List (List UInt8)) (f : Feed ω) : Feed ω :=
  { f with emitted := runs ++ f.emitted, consumed := n + f.consumed }

theorem switchState_emit {d d' : HttpChunkedDecoder} {ch : UInt8} {available n : Nat}
    (h : switchState d ch available = .emit n d') :
    d.state = .data ∧ n = min d.chunkRemaining available ∧
      d' = { d with
        chunkRemaining := d.chunkRemaining - n
        state := if d.chunkRemaining - n = 0 then .dataCr else .data } := by
  unfold switchState at h
  cases hs : d.state <;> simp only [hs] at h
  case data =>
    injection h with hn hd
    refine ⟨rfl, ?_, by rw [← hn, ← hd]⟩
    rw [← hn]
    split <;> omega
  all_goals
    repeat' split at h
    all_goals cases h

/-- The loop of `http_chunked_decoder_feed`. `emit` gives the callback's next state and whether it
returned a non-negative value. -/
def feedLoop (emit : ω → List UInt8 → ω × Bool) (d : HttpChunkedDecoder) (sink : ω) :
    List UInt8 → Feed ω
  | [] => ⟨d, sink, [], 0, if d.state = .done then .done else .needMore⟩
  | ch :: rest =>
    match _hswitch : switchState d ch (rest.length + 1) with
    | .fail d' => ⟨d'.fail, sink, [], 0, .error⟩
    | .next d' => (feedLoop emit d' sink rest).after 1 []
    | .finish d' =>
      if rest ≠ [] then ⟨d'.fail, sink, [], 1, .error⟩ else ⟨d', sink, [], 1, .done⟩
    | .emit emitLen d' =>
      -- with nothing left of the chunk, only the state moves on, and the callback is not called
      if emitLen = 0 then feedLoop emit d' sink (ch :: rest)
      else
        let run := (ch :: rest).take emitLen
        match emit sink run with
        | (sink', false) => ⟨d.fail, sink', [run], 0, .error⟩
        | (sink', true) =>
          (feedLoop emit d' sink' ((ch :: rest).drop emitLen)).after emitLen [run]
  termination_by input => (input.length, if d.state = .data then 1 else 0)
  decreasing_by
  · exact Prod.Lex.left _ _ (by simp)
  · obtain ⟨hs, hn, rfl⟩ := switchState_emit _hswitch
    refine Prod.Lex.right _ ?_
    have : d.chunkRemaining - emitLen = 0 := by omega
    simp [hs, this]
  · refine Prod.Lex.left _ _ ?_
    simp only [List.length_drop, List.length_cons]
    omega

/-- `http_chunked_decoder_feed`, given a decoder and an input that are not `NULL`. -/
def httpChunkedDecoderFeed (emit : ω → List UInt8 → ω × Bool) (d : HttpChunkedDecoder) (sink : ω)
    (input : List UInt8) : Feed ω :=
  match d.state with
  | .error => ⟨d, sink, [], 0, .error⟩
  | .done =>
    if input.length = 0 then ⟨d, sink, [], 0, .done⟩ else ⟨d.fail, sink, [], 0, .error⟩
  | _ => feedLoop emit d sink input

/-- `http_chunked_decoder_finish`, called when no more input will come. -/
def httpChunkedDecoderFinish (d : HttpChunkedDecoder) : HttpChunkedDecoder × HttpChunkedDecodeResult :=
  match d.state with
  | .error => (d, .error)
  | .done => (d, .done)
  | _ => (d.fail, .error)

/-! ### One pass through the loop -/

section Pass

variable (emit : ω → List UInt8 → ω × Bool) {d d' : HttpChunkedDecoder} (sink : ω) {ch : UInt8}
  {rest : List UInt8}

theorem feedLoop_nil : feedLoop emit d sink [] =
    ⟨d, sink, [], 0, if d.state = .done then .done else .needMore⟩ := by
  rw [feedLoop]

theorem feedLoop_fail (h : switchState d ch (rest.length + 1) = .fail d') :
    feedLoop emit d sink (ch :: rest) = ⟨d'.fail, sink, [], 0, .error⟩ := by
  rw [feedLoop]
  split <;> simp_all

theorem feedLoop_next (h : switchState d ch (rest.length + 1) = .next d') :
    feedLoop emit d sink (ch :: rest) = (feedLoop emit d' sink rest).after 1 [] := by
  rw [feedLoop]
  split <;> simp_all

theorem feedLoop_finish (h : switchState d ch (rest.length + 1) = .finish d') :
    feedLoop emit d sink (ch :: rest) =
      if rest ≠ [] then ⟨d'.fail, sink, [], 1, .error⟩ else ⟨d', sink, [], 1, .done⟩ := by
  rw [feedLoop]
  split <;> simp_all

theorem feedLoop_emit_zero (h : switchState d ch (rest.length + 1) = .emit 0 d') :
    feedLoop emit d sink (ch :: rest) = feedLoop emit d' sink (ch :: rest) := by
  rw [feedLoop]
  split <;> simp_all

theorem feedLoop_emit {n : Nat} (h : switchState d ch (rest.length + 1) = .emit n d') (hn : n ≠ 0)
    (hemit : (emit sink ((ch :: rest).take n)).2 = true) :
    feedLoop emit d sink (ch :: rest) =
      (feedLoop emit d' (emit sink ((ch :: rest).take n)).1 ((ch :: rest).drop n)).after n
        [(ch :: rest).take n] := by
  rw [feedLoop]
  split
  case h_4 h' =>
    rw [h] at h'
    cases h'
    rw [if_neg hn]
    show (match emit sink ((ch :: rest).take n) with | (sink', false) => _ | (sink', true) => _) = _
    cases heq : emit sink ((ch :: rest).take n) with
    | mk sink' b =>
      rw [heq] at hemit
      cases hemit
      rfl
  all_goals simp_all

end Pass

theorem httpChunkedDecoderFeed_eq_feedLoop (emit : ω → List UInt8 → ω × Bool) {d : HttpChunkedDecoder}
    (h : d.state ≠ .error) (sink : ω) (input : List UInt8) :
    httpChunkedDecoderFeed emit d sink input = feedLoop emit d sink input := by
  unfold httpChunkedDecoderFeed
  split
  · contradiction
  · next hdone =>
    cases input with
    | nil => simp [feedLoop_nil, hdone]
    | cons ch rest =>
      rw [feedLoop_fail emit sink (show switchState d ch (rest.length + 1) = .fail d by
        simp only [switchState, hdone])]
      rfl
  · rfl

/-! ### What a caller sees -/

/-- The outcome of a call, the cutting of the body into runs and the callback's own state aside. -/
structure View where
  decoder : HttpChunkedDecoder
  body : List UInt8
  consumed : Nat
  result : HttpChunkedDecodeResult

def Feed.view (f : Feed ω) : View := ⟨f.decoder, f.emitted.flatten, f.consumed, f.result⟩

/-- The view of a call followed by another one. -/
def View.join (v w : View) : View := ⟨w.decoder, v.body ++ w.body, v.consumed + w.consumed, w.result⟩

def View.after (n : Nat) (run : List UInt8) (v : View) : View :=
  ⟨v.decoder, run ++ v.body, n + v.consumed, v.result⟩

@[simp] theorem Feed.view_after (n : Nat) (runs : List (List UInt8)) (f : Feed ω) :
    (f.after n runs).view = f.view.after n runs.flatten := by
  simp [view, after, View.after]

@[simp] theorem View.after_join (n : Nat) (run : List UInt8) (v w : View) :
    (v.after n run).join w = (v.join w).after n run := by
  simp [join, after, Nat.add_assoc]

@[simp] theorem View.after_after (n n' : Nat) (run run' : List UInt8) (v : View) :
    (v.after n' run').after n run = v.after (n + n') (run ++ run') := by
  simp [after, Nat.add_assoc]

/-! ### Cutting the input -/

section Cut

variable {emit : ω → List UInt8 → ω × Bool}

/-- The callback's own state has no influence on a decoder whose callback never fails. -/
theorem feedLoop_view_sink (hemit : ∀ s run, (emit s run).2 = true) (d : HttpChunkedDecoder)
    (input : List UInt8) (sink sink' : ω) :
    (feedLoop emit d sink input).view = (feedLoop emit d sink' input).view := by
  induction d, sink, input using feedLoop.induct emit generalizing sink' with
  | case1 d sink => simp [feedLoop_nil, Feed.view]
  | case2 d sink ch rest d' h => simp [feedLoop_fail emit _ h, Feed.view]
  | case3 d sink ch rest d' h ih => simp [feedLoop_next emit _ h, ih sink']
  | case4 d sink ch rest d' h hrest => simp [feedLoop_finish emit _ h, hrest, Feed.view]
  | case5 d sink ch rest d' h hrest => simp [feedLoop_finish emit _ h, hrest, Feed.view]
  | case6 d sink ch rest d' h ih => simp [feedLoop_emit_zero emit _ h, ih sink']
  | case7 d sink ch rest n d' h hn run s' hfail =>
    have hok := hemit sink run
    rw [hfail] at hok
    cases hok
  | case8 d sink ch rest n d' h hn run s' hok ih =>
    rw [feedLoop_emit emit _ h hn (hemit ..), feedLoop_emit emit _ h hn (hemit ..)]
    rw [Feed.view_after, Feed.view_after, show (emit sink ((ch :: rest).take n)).1 = s' from
      congrArg Prod.fst hok, ih]

/-- The decoder after `n` body bytes. -/
def HttpChunkedDecoder.advance (d : HttpChunkedDecoder) (n : Nat) : HttpChunkedDecoder :=
  { d with
    chunkRemaining := d.chunkRemaining - n
    state := if d.chunkRemaining - n = 0 then .dataCr else .data }

theorem HttpChunkedDecoder.advance_advance (d : HttpChunkedDecoder) (n n' : Nat) :
    (d.advance n).advance n' = d.advance (n + n') := by
  simp [advance, Nat.sub_sub]

theorem switchState_data {d : HttpChunkedDecoder} (hd : d.state = .data) (ch : UInt8) (available : Nat) :
    switchState d ch available =
      .emit (min d.chunkRemaining available) (d.advance (min d.chunkRemaining available)) := by
  have : (if d.chunkRemaining < available then d.chunkRemaining else available) =
      min d.chunkRemaining available := by
    split <;> omega
  simp only [switchState, hd, this]
  rfl

/-- Body bytes may be handed over in one run or in two. -/
theorem feedLoop_data_append (hemit : ∀ s run, (emit s run).2 = true) {d : HttpChunkedDecoder}
    (hd : d.state = .data) {run : List UInt8} (hrun : run ≠ []) (hlen : run.length ≤ d.chunkRemaining)
    (rest : List UInt8) (sink sink' : ω) :
    (feedLoop emit d sink (run ++ rest)).view =
      (feedLoop emit (d.advance run.length) sink' rest).view.after run.length run := by
  -- the whole run is as long as the input and the chunk allow
  have hwhole : ∀ {input : List UInt8} {d : HttpChunkedDecoder} (sink sink' : ω), d.state = .data →
      min d.chunkRemaining input.length ≠ 0 →
      (feedLoop emit d sink input).view =
        (feedLoop emit (d.advance (min d.chunkRemaining input.length)) sink'
          (input.drop (min d.chunkRemaining input.length))).view.after
            (min d.chunkRemaining input.length) (input.take (min d.chunkRemaining input.length)) := by
    intro input d sink sink' hd hn
    cases input with
    | nil => simp at hn
    | cons ch tail =>
      rw [feedLoop_emit emit _ (switchState_data hd ch _) hn (hemit ..), Feed.view_after,
        feedLoop_view_sink hemit _ _ _ sink', List.flatten_singleton]
      rfl
  have hpos : 0 < run.length := List.length_pos_iff.2 hrun
  rw [hwhole sink sink' hd (by rw [List.length_append]; omega), List.length_append]
  rcases Nat.eq_zero_or_pos (min (d.chunkRemaining - run.length) rest.length) with hz | hz
  · -- nothing of what follows belongs to the chunk
    have hn : min d.chunkRemaining (run.length + rest.length) = run.length := by omega
    rw [hn, List.drop_left, List.take_left]
  · have hn : min d.chunkRemaining (run.length + rest.length) =
        run.length + min (d.chunkRemaining - run.length) rest.length := by omega
    have hd' : (d.advance run.length).state = .data := by
      rw [HttpChunkedDecoder.advance, if_neg (by omega)]
    rw [hn, List.drop_length_add_append, List.take_length_add_append,
      hwhole sink' sink' hd' (by exact Nat.ne_of_gt hz), View.after_after,
      HttpChunkedDecoder.advance_advance]
    rfl

/-- The state a pass leaves is the one its outcome stands for. -/
def Switch.WellFormed : Switch → Prop
  | .fail _ => True
  | .next d' | .emit _ d' => d'.state ≠ .error
  | .finish d' => d'.state = .done

theorem switchState_wellFormed (d : HttpChunkedDecoder) (ch : UInt8) (available : Nat) :
    (switchState d ch available).WellFormed := by
  unfold switchState
  cases hs : d.state <;> dsimp only <;> repeat' split
  all_goals
    simp [Switch.WellFormed, HttpChunkedDecoder.countSizeByte, HttpChunkedDecoder.countTrailerByte, *]

theorem switchState_next_ne_error {d d' : HttpChunkedDecoder} {ch : UInt8} {available : Nat}
    (h : switchState d ch available = .next d') : d'.state ≠ .error := by
  have := switchState_wellFormed d ch available
  rwa [h] at this

theorem switchState_emit_ne_error {d d' : HttpChunkedDecoder} {ch : UInt8} {available n : Nat}
    (h : switchState d ch available = .emit n d') : d'.state ≠ .error := by
  have := switchState_wellFormed d ch available
  rwa [h] at this

theorem switchState_finish_done {d d' : HttpChunkedDecoder} {ch : UInt8} {available : Nat}
    (h : switchState d ch available = .finish d') : d'.state = .done := by
  have := switchState_wellFormed d ch available
  rwa [h] at this

/-- Only the body state looks at how many bytes are available. -/
theorem switchState_available {d : HttpChunkedDecoder} {ch : UInt8} {available : Nat} {r : Switch}
    (h : switchState d ch available = r) (hr : ∀ n d', r ≠ .emit n d') (available' : Nat) :
    switchState d ch available' = r := by
  have hs : d.state ≠ .data := by
    intro hs
    rw [switchState_data hs] at h
    exact hr _ _ h.symm
  rw [← h]
  unfold switchState
  split <;> first | contradiction | rfl

/-- Feeding `a` and then `b` is feeding `a ++ b`. -/
theorem feedLoop_append (hemit : ∀ s run, (emit s run).2 = true) (d : HttpChunkedDecoder)
    (hd : d.state ≠ .error) (a b : List UInt8) (sink sink' : ω) :
    (feedLoop emit d sink (a ++ b)).view = (feedLoop emit d sink a).view.join
      (httpChunkedDecoderFeed emit (feedLoop emit d sink a).decoder sink' b).view := by
  induction d, sink, a using feedLoop.induct emit with
  | case1 d sink =>
    rw [feedLoop_nil, httpChunkedDecoderFeed_eq_feedLoop emit hd, List.nil_append,
      feedLoop_view_sink hemit d b sink sink']
    simp [Feed.view, View.join]
  | case2 d sink ch rest d' h =>
    rw [feedLoop_fail emit sink h, List.cons_append,
      feedLoop_fail emit sink (switchState_available h (by simp) _)]
    simp [Feed.view, View.join, httpChunkedDecoderFeed, HttpChunkedDecoder.fail]
  | case3 d sink ch rest d' h ih =>
    rw [feedLoop_next emit sink h, List.cons_append,
      feedLoop_next emit sink (switchState_available h (by simp) _), Feed.view_after,
      ih (switchState_next_ne_error h), Feed.view_after, View.after_join]
    rfl
  | case4 d sink ch rest d' h hrest =>
    rw [feedLoop_finish emit sink h, List.cons_append,
      feedLoop_finish emit sink (switchState_available h (by simp) _)]
    simp [hrest, Feed.view, View.join, httpChunkedDecoderFeed, HttpChunkedDecoder.fail]
  | case5 d sink ch rest d' h hrest =>
    have hdone := switchState_finish_done h
    obtain rfl : rest = [] := not_not.1 hrest
    rw [feedLoop_finish emit sink h, List.cons_append,
      feedLoop_finish emit sink (switchState_available h (by simp) _)]
    cases b <;> simp [hdone, Feed.view, View.join, httpChunkedDecoderFeed, HttpChunkedDecoder.fail]
  | case6 d sink ch rest d' h ih =>
    obtain ⟨hs, hn, -⟩ := switchState_emit h
    have h' : switchState d ch ((rest ++ b).length + 1) = .emit 0 d' := by
      rw [switchState_data hs] at h ⊢
      rw [← h]
      congr 1 <;> [skip; congr 1] <;> omega
    rw [feedLoop_emit_zero emit sink h, List.cons_append, feedLoop_emit_zero emit sink h']
    exact ih (switchState_emit_ne_error h)
  | case7 d sink ch rest n d' h hn run s' hfail =>
    have hok := hemit sink run
    rw [hfail] at hok
    cases hok
  | case8 d sink ch rest n d' h hn run s' hok ih =>
    obtain ⟨hs, hn', -⟩ := switchState_emit h
    have hd' : d' = d.advance run.length := by
      rw [switchState_data hs] at h
      injection h with hmin hd
      rw [← hd, List.length_take, List.length_cons, hn']
      congr 1
      omega
    have hrun : run ≠ [] := by
      simp [run, hn]
    rw [feedLoop_emit emit sink h hn (hemit ..)]
    have hsplit : ch :: rest ++ b = run ++ ((ch :: rest).drop n ++ b) := by
      rw [← List.append_assoc, List.take_append_drop]
    rw [hsplit, feedLoop_data_append hemit hs hrun (by simp [run]; omega) _ sink s', ← hd',
      ih (switchState_emit_ne_error h)]
    have hlen : run.length = n := by
      simp only [run, List.length_take, List.length_cons]
      omega
    have hsink : (emit sink ((ch :: rest).take n)).1 = s' := congrArg Prod.fst hok
    rw [hsink, Feed.view_after, View.after_join, hlen, List.flatten_singleton]
    rfl

/-- Feeding is compatible with concatenation, from any decoder. -/
theorem httpChunkedDecoderFeed_append (hemit : ∀ s run, (emit s run).2 = true)
    (d : HttpChunkedDecoder) (a b : List UInt8) (sink sink' : ω) :
    (httpChunkedDecoderFeed emit d sink (a ++ b)).view =
      (httpChunkedDecoderFeed emit d sink a).view.join
        (httpChunkedDecoderFeed emit (httpChunkedDecoderFeed emit d sink a).decoder sink' b).view := by
  rcases eq_or_ne d.state .error with hd | hd
  · simp [httpChunkedDecoderFeed, hd, Feed.view, View.join]
  · rw [httpChunkedDecoderFeed_eq_feedLoop emit hd, httpChunkedDecoderFeed_eq_feedLoop emit hd]
    exact feedLoop_append hemit d hd a b sink sink'

end Cut

/-- The calls for the fragments `input`, `more`, ..., one after another: the bodies one after
another, the consumed counts added up, and the last call's result. -/
def feedFragments (emit : ω → List UInt8 → ω × Bool) (d : HttpChunkedDecoder) (sink : ω)
    (input : List UInt8) : List (List UInt8) → Feed ω
  | [] => httpChunkedDecoderFeed emit d sink input
  | next :: more =>
    let f := httpChunkedDecoderFeed emit d sink input
    (feedFragments emit f.decoder f.sink next more).after f.consumed f.emitted

/-- However a byte string is cut into fragments, feeding these to the decoder gives the same body,
the same final decoder, the same number of consumed bytes and the same result as feeding it whole. -/
theorem feedFragments_view {emit : ω → List UInt8 → ω × Bool}
    (hemit : ∀ s run, (emit s run).2 = true) (d : HttpChunkedDecoder) (sink : ω)
    (input : List UInt8) (more : List (List UInt8)) :
    (feedFragments emit d sink input more).view =
      (httpChunkedDecoderFeed emit d sink (input ++ more.flatten)).view := by
  induction more generalizing d sink input with
  | nil => rw [feedFragments, List.flatten_nil, List.append_nil]
  | cons next more ih =>
    rw [feedFragments, Feed.view_after, ih, List.flatten_cons,
      httpChunkedDecoderFeed_append hemit d input]
    rfl

/-- A recording callback and a body cut inside a size line, inside the data and in an empty place. -/
theorem feedFragments_view_hello :
    (feedFragments (fun runs run => (runs ++ [run], true)) httpChunkedDecoderInit []
      "5\r".toUTF8.toList ["\nhel".toUTF8.toList, [], "lo\r\n0\r\n\r\n".toUTF8.toList]).view =
    (httpChunkedDecoderFeed (fun runs run => (runs ++ [run], true)) httpChunkedDecoderInit []
      ("5\r".toUTF8.toList ++
        ["\nhel".toUTF8.toList, [], "lo\r\n0\r\n\r\n".toUTF8.toList].flatten)).view :=
  feedFragments_view (fun _ _ => rfl) ..

end Rtp2httpd
