import DOpenWrt.Lib.Except
import DOpenWrt.Lib.CString

/-!
# Rewriting a playlist (`http_proxy_rewrite.c`)

`rewrite_m3u_content` rewrites a playlist line by line into a buffer that it doubles where a line does not fit. The
buffer starts at three times the length of the input, so for the empty one it has no room for the terminator.
-/

namespace Rtp2httpd

/-! ### The source -/

def newline : UInt8 := UInt8.ofNat '\n'.toNat

/-- `REWRITE_MAX_BODY_SIZE`. -/
def rewriteMaxBodySize : Nat := 2 * 1024 * 1024

/-- A write to the buffer, with what is allocated and what the code takes to remain then. -/
structure BufferWrite where
  offset : Nat
  length : Nat
  allocated : Nat
  remaining : Int
deriving DecidableEq, Repr

/-- The buffer: what stands before `out_ptr`, its sizes, and the writes so far. -/
structure RewriteBuffer where
  result : List UInt8
  estimatedSize : Nat
  remaining : Int
  writes : List BufferWrite
deriving DecidableEq, Repr

/-- Why there is no playlist. That a loop runs on does not happen; this is shown below. -/
inductive RewriteError where
  | tooLarge | noMemory | runsOn
deriving DecidableEq, Repr

namespace RewriteBuffer

/-- A write at `out_ptr`. -/
def log (b : RewriteBuffer) (length : Nat) : List BufferWrite :=
  b.writes ++ [⟨b.result.length, length, b.estimatedSize, b.remaining⟩]

/-- `memcpy(out_ptr, bytes)`, with what follows it. -/
def append (b : RewriteBuffer) (bytes : List UInt8) : RewriteBuffer :=
  { b with
    result := b.result ++ bytes
    remaining := b.remaining - bytes.length
    writes := b.log bytes.length }

/-- `realloc` to the double size, which may fail. Sizes that can be allocated do not wrap when doubled. -/
def grow (allocates : Nat → Bool) (b : RewriteBuffer) : Except RewriteError RewriteBuffer :=
  if allocates (b.estimatedSize * 2) then
    .ok { b with remaining := (b.estimatedSize * 2 : Nat) - b.result.length, estimatedSize := b.estimatedSize * 2 }
  else .error .noMemory

/-- `while (rewritten_len + 2 > remaining)`. -/
def growLoop (allocates : Nat → Bool) (rewrittenLen : Nat) : Nat → RewriteBuffer → Except RewriteError RewriteBuffer
  | 0, b => if (rewrittenLen + 2 : Int) > b.remaining then .error .runsOn else .ok b
  | fuel + 1, b =>
    if (rewrittenLen + 2 : Int) > b.remaining then (b.grow allocates).bind (growLoop allocates rewrittenLen fuel)
    else .ok b

end RewriteBuffer

section
variable (rewriteM3uLine : List UInt8 → Option (List UInt8)) (allocates : Nat → Bool)

/-- A line, with its newline if it has one. The buffer comes with the error, for the writes until then. -/
def rewriteLine (b : RewriteBuffer) (line : List UInt8) : RewriteBuffer × Option RewriteError :=
  match rewriteM3uLine line with
  | some rewritten =>
    -- a round adds at least one byte
    match b.growLoop allocates rewritten.length (rewritten.length + 2) with
    | .error e => (b, some e)
    | .ok b =>
      let b := b.append rewritten
      if line.getLast? = some newline ∧ rewritten.getLast? ≠ some newline then (b.append [newline], none) else (b, none)
  | none =>
    if (line.length + 1 : Int) > b.remaining then
      match b.grow allocates with
      | .error e => (b, some e)
      | .ok b => (b.append line, none)
    else (b.append line, none)

/-- The end of the line at `input`: the line and the rest. -/
def splitLine (input : List UInt8) : List UInt8 × List UInt8 :=
  match input.dropWhile (· ≠ newline) with
  | [] => (input, [])
  | c :: rest => (input.takeWhile (· ≠ newline) ++ [c], rest)

/-- The loop over the lines. -/
def rewriteLines : Nat → List UInt8 → RewriteBuffer → RewriteBuffer × Option RewriteError
  | 0, input, b => (b, if input = [] then none else some .runsOn)
  | fuel + 1, input, b =>
    if input = [] then (b, none)
    else match rewriteLine rewriteM3uLine allocates b (splitLine input).1 with
      | (b, some e) => (b, some e)
      | (b, none) => rewriteLines fuel (splitLine input).2 b

/-- What a run of `rewrite_m3u_content` did: its writes, and the playlist or why there is none. -/
structure RewriteRun where
  writes : List BufferWrite
  output : Except RewriteError (List UInt8)
deriving Repr

def rewriteM3uContent (input : List UInt8) : RewriteRun :=
  if input.length > rewriteMaxBodySize then ⟨[], .error .tooLarge⟩
  else if ¬ allocates (input.length * 3) then ⟨[], .error .noMemory⟩
  else
    -- a round consumes a byte
    match rewriteLines rewriteM3uLine allocates (input.length + 1) input
        ⟨[], input.length * 3, (input.length * 3 : Nat), []⟩ with
    | (b, some e) => ⟨b.writes, .error e⟩
    -- the terminator
    | (b, none) => ⟨b.log 1, .ok b.result⟩

end

example : (rewriteM3uContent (fun _ => some (List.replicate 9 newline)) (fun _ => true) [newline]).writes =
    [⟨0, 9, 12, 12⟩, ⟨9, 1, 12, 3⟩] := by decide

/-! ### Bounds -/

/-- The write is in the buffer, and what remains is right. -/
def BufferWrite.Inside (w : BufferWrite) : Prop :=
  w.offset + w.length ≤ w.allocated ∧ w.remaining = (w.allocated : Int) - w.offset

instance BufferWrite.decidableInside (w : BufferWrite) : Decidable w.Inside := inferInstanceAs (Decidable (_ ∧ _))

namespace RewriteBuffer

/-- Between two lines: what remains is right, room for the terminator is left, and the writes were in the buffer. -/
structure Inv (b : RewriteBuffer) : Prop where
  remaining_eq : b.remaining = (b.estimatedSize : Int) - b.result.length
  room : b.result.length < b.estimatedSize
  inside : ∀ w ∈ b.writes, w.Inside

variable {allocates : Nat → Bool} {b b' : RewriteBuffer} {bytes : List UInt8} {rewrittenLen fuel : Nat}

theorem inside_log {n : Nat} (hi : b.Inv) (h : b.result.length + n ≤ b.estimatedSize) : ∀ w ∈ b.log n, w.Inside :=
  List.forall_mem_append.2 ⟨hi.inside, List.forall_mem_singleton.2 ⟨h, hi.remaining_eq⟩⟩

theorem Inv.append (hi : b.Inv) (h : b.result.length + bytes.length < b.estimatedSize) : (b.append bytes).Inv where
  remaining_eq := by
    have := hi.remaining_eq
    simp only [RewriteBuffer.append, List.length_append]
    omega
  room := by rwa [RewriteBuffer.append, List.length_append]
  inside := inside_log hi h.le

theorem grow_eq_ok (h : b.grow allocates = .ok b') : b'.estimatedSize = b.estimatedSize * 2 ∧ b'.result = b.result ∧
    b'.writes = b.writes ∧ b'.remaining = (b'.estimatedSize : Int) - b'.result.length := by
  unfold grow at h
  split at h
  · cases h
    exact ⟨rfl, rfl, rfl, rfl⟩
  · cases h

theorem Inv.grow (hi : b.Inv) (h : b.grow allocates = .ok b') : b'.Inv := by
  obtain ⟨hsize, hresult, hwrites, hremaining⟩ := grow_eq_ok h
  have hroom := hi.room
  refine ⟨hremaining, ?_, ?_⟩
  · rw [hsize, hresult]
    omega
  · rw [hwrites]
    exact hi.inside

/-- The loop leaves room for the line, its newline and the terminator. -/
theorem growLoop_eq_ok (hi : b.Inv) (h : b.growLoop allocates rewrittenLen fuel = .ok b') :
    b'.Inv ∧ b'.result.length + rewrittenLen + 2 ≤ b'.estimatedSize := by
  induction fuel generalizing b with
  | zero =>
    rw [growLoop] at h
    split at h
    · cases h
    · cases h
      have := hi.remaining_eq
      exact ⟨hi, by omega⟩
  | succ fuel ih =>
    rw [growLoop] at h
    split at h
    · cases hgrow : b.grow allocates with
      | error e =>
        rw [hgrow] at h
        cases h
      | ok b₁ =>
        rw [hgrow] at h
        exact ih (hi.grow hgrow) h
    · cases h
      have := hi.remaining_eq
      exact ⟨hi, by omega⟩

/-- What remains grows by at least one with every doubling, so the loop ends. -/
theorem growLoop_ends (hi : b.Inv) (h : (rewrittenLen + 2 : Int) ≤ b.remaining + fuel) :
    b.growLoop allocates rewrittenLen fuel ≠ .error .runsOn := by
  induction fuel generalizing b with
  | zero =>
    rw [growLoop, if_neg (by omega)]
    exact fun h => nomatch h
  | succ fuel ih =>
    rw [growLoop]
    split
    · cases hgrow : b.grow allocates with
      | error e =>
        unfold grow at hgrow
        split at hgrow <;> cases hgrow
        exact fun h => nomatch h
      | ok b₁ =>
        obtain ⟨hsize, hresult, -, hremaining⟩ := grow_eq_ok hgrow
        refine ih (hi.grow hgrow) ?_
        have := hi.room
        have := hi.remaining_eq
        rw [hsize, hresult] at hremaining
        push_cast at *
        omega
    · exact fun h => nomatch h

end RewriteBuffer

section
variable {rewriteM3uLine : List UInt8 → Option (List UInt8)} {allocates : Nat → Bool} {b : RewriteBuffer}
  {line input : List UInt8} {fuel : Nat}

theorem growLoop_line_ends (hi : b.Inv) (n : Nat) : b.growLoop allocates n (n + 2) ≠ .error .runsOn := by
  have hroom := hi.room
  have hremaining := hi.remaining_eq
  exact RewriteBuffer.growLoop_ends hi (by push_cast; omega)

theorem growLoop_size {b' : RewriteBuffer} {n : Nat} (h : b.growLoop allocates n fuel = .ok b') :
    b.estimatedSize ≤ b'.estimatedSize := by
  induction fuel generalizing b with
  | zero =>
    rw [RewriteBuffer.growLoop] at h
    split at h <;> cases h
    exact le_rfl
  | succ fuel ih =>
    rw [RewriteBuffer.growLoop] at h
    split at h
    · obtain ⟨b₁, hgrow, h⟩ := Except.bind_eq_ok.1 h
      have := (RewriteBuffer.grow_eq_ok hgrow).1
      have := ih h
      omega
    · cases h
      exact le_rfl

/-- What a line leaves: the invariant, a buffer that is not smaller, and no loop that runs on. -/
structure LineDone (b : RewriteBuffer) (r : RewriteBuffer × Option RewriteError) : Prop where
  inv : r.1.Inv
  size : b.estimatedSize ≤ r.1.estimatedSize
  ends : r.2 ≠ some .runsOn

/-- A rewritten line: the loop has made room for it, its newline and the terminator. -/
theorem rewriteLine_rewritten {rewritten : List UInt8} (hi : b.Inv) (h : rewriteM3uLine line = some rewritten) :
    LineDone b (rewriteLine rewriteM3uLine allocates b line) := by
  rw [rewriteLine, h]
  dsimp only
  cases hloop : b.growLoop allocates rewritten.length (rewritten.length + 2) with
  | error e => exact ⟨hi, le_rfl, fun he => growLoop_line_ends hi _ (by rw [hloop, Option.some.inj he])⟩
  | ok b₁ =>
    obtain ⟨hi₁, hroom⟩ := RewriteBuffer.growLoop_eq_ok hi hloop
    have hsize := growLoop_size hloop
    have hi₂ : (b₁.append rewritten).Inv := hi₁.append (by omega)
    dsimp only
    split
    · refine ⟨hi₂.append ?_, hsize, nofun⟩
      simp only [RewriteBuffer.append, List.length_append, List.length_singleton]
      omega
    · exact ⟨hi₂, hsize, nofun⟩

/-- A line that is kept: one doubling makes room, as the buffer is larger than the line. -/
theorem rewriteLine_kept (hi : b.Inv) (hline : line.length < b.estimatedSize) (h : rewriteM3uLine line = none) :
    LineDone b (rewriteLine rewriteM3uLine allocates b line) := by
  have hroom := hi.room
  have hremaining := hi.remaining_eq
  rw [rewriteLine, h]
  dsimp only
  split
  · cases hgrow : b.grow allocates with
    | error e =>
      refine ⟨hi, le_rfl, fun he => ?_⟩
      unfold RewriteBuffer.grow at hgrow
      split at hgrow <;> cases hgrow
      cases he
    | ok b₁ =>
      obtain ⟨hsize, hresult, -, -⟩ := RewriteBuffer.grow_eq_ok hgrow
      refine ⟨(hi.grow hgrow).append ?_, ?_, nofun⟩
      · rw [hresult, hsize]
        omega
      · show b.estimatedSize ≤ b₁.estimatedSize
        omega
  · exact ⟨hi.append (by omega), le_rfl, nofun⟩

theorem rewriteLine_done (hi : b.Inv) (hline : line.length < b.estimatedSize) :
    LineDone b (rewriteLine rewriteM3uLine allocates b line) := by
  cases h : rewriteM3uLine line with
  | some rewritten => exact rewriteLine_rewritten hi h
  | none => exact rewriteLine_kept hi hline h

theorem splitLine_length (input : List UInt8) :
    (splitLine input).1.length + (splitLine input).2.length = input.length := by
  have h := congrArg List.length (List.takeWhile_append_dropWhile (p := (· ≠ newline)) (l := input))
  rw [List.length_append] at h
  unfold splitLine
  split
  · simp
  · next c rest hdrop =>
    rw [hdrop, List.length_cons] at h
    dsimp only
    rw [List.length_append, List.length_singleton]
    omega

theorem splitLine_pos (hinput : input ≠ []) : 0 < (splitLine input).1.length := by
  unfold splitLine
  split
  · exact List.length_pos_of_ne_nil hinput
  · rw [List.length_append, List.length_singleton]
    omega

/-- The lines that are left fit the buffer one by one, so all of them keep the invariant. -/
theorem rewriteLines_done (hi : b.Inv) (hinput : input.length < b.estimatedSize) (hfuel : input.length ≤ fuel) :
    LineDone b (rewriteLines rewriteM3uLine allocates fuel input b) := by
  induction fuel generalizing input b with
  | zero =>
    rw [rewriteLines, if_pos (List.eq_nil_of_length_eq_zero (by omega))]
    exact ⟨hi, le_rfl, nofun⟩
  | succ fuel ih =>
    rw [rewriteLines]
    split
    · exact ⟨hi, le_rfl, nofun⟩
    · next hne =>
      have hsplit := splitLine_length input
      have hpos := splitLine_pos hne
      have hline : LineDone b (rewriteLine rewriteM3uLine allocates b (splitLine input).1) :=
        rewriteLine_done hi (by omega)
      cases hr : rewriteLine rewriteM3uLine allocates b (splitLine input).1 with
      | mk b₁ e =>
        rw [hr] at hline
        cases e with
        | some e => exact hline
        | none =>
          have hsize : b.estimatedSize ≤ b₁.estimatedSize := hline.size
          have hrest : LineDone b₁ (rewriteLines rewriteM3uLine allocates fuel (splitLine input).2 b₁) :=
            ih hline.inv (by omega) (by omega)
          exact ⟨hrest.inv, hline.size.trans hrest.size, hrest.ends⟩

end

/-! ### The run -/

section
variable (rewriteM3uLine : List UInt8 → Option (List UInt8)) (allocates : Nat → Bool)

theorem rewriteM3uContent_nil : rewriteM3uContent rewriteM3uLine allocates [] =
    if allocates 0 then ⟨[⟨0, 1, 0, 0⟩], .ok []⟩ else ⟨[], .error .noMemory⟩ := by
  rw [rewriteM3uContent]
  by_cases h : allocates 0 = true
  · simp [h, rewriteLines, RewriteBuffer.log]
  · simp [h]

/-- A line at least makes the buffer, at three times the input, larger than the input. -/
theorem rewriteM3uContent_inside {input : List UInt8} (hinput : input ≠ []) :
    (∀ w ∈ (rewriteM3uContent rewriteM3uLine allocates input).writes, w.Inside) ∧
      (rewriteM3uContent rewriteM3uLine allocates input).output ≠ .error .runsOn := by
  have hpos := List.length_pos_of_ne_nil hinput
  unfold rewriteM3uContent
  split
  · exact ⟨nofun, nofun⟩
  split
  · exact ⟨nofun, nofun⟩
  have hi : RewriteBuffer.Inv ⟨[], input.length * 3, (input.length * 3 : Nat), []⟩ :=
    ⟨by simp, by dsimp only; rw [List.length_nil]; omega, nofun⟩
  have hlines : LineDone _ (rewriteLines rewriteM3uLine allocates (input.length + 1) input _) :=
    rewriteLines_done hi (by dsimp only; omega) (by omega)
  generalize rewriteLines rewriteM3uLine allocates (input.length + 1) input _ = r at hlines
  obtain ⟨b, e⟩ := r
  cases e with
  | some e => exact ⟨hlines.inv.inside, fun he => hlines.ends (congrArg some (Except.error.inj he))⟩
  | none => exact ⟨RewriteBuffer.inside_log hlines.inv hlines.inv.room, nofun⟩

/-- Every write is inside for every input but the empty one, where `malloc(0)` must have failed. -/
theorem rewriteM3uContent_inside_iff (input : List UInt8) :
    ((∀ w ∈ (rewriteM3uContent rewriteM3uLine allocates input).writes, w.Inside) ∧
      (rewriteM3uContent rewriteM3uLine allocates input).output ≠ .error .runsOn) ↔
    (input = [] → allocates 0 = false) := by
  constructor
  · rintro ⟨h, -⟩ rfl
    rw [rewriteM3uContent_nil] at h
    by_contra hmalloc
    rw [Bool.not_eq_false] at hmalloc
    rw [if_pos hmalloc] at h
    exact absurd (h _ (List.mem_singleton.2 rfl)) (by decide)
  · intro h
    rcases eq_or_ne input [] with rfl | hinput
    · rw [rewriteM3uContent_nil, h rfl]
      exact ⟨nofun, nofun⟩
    · exact rewriteM3uContent_inside rewriteM3uLine allocates hinput

end

/-- The terminator of the empty playlist is outside a buffer of no bytes. -/
theorem rewriteM3uContent_outside : ∃ (rewriteM3uLine : List UInt8 → Option (List UInt8)) (allocates : Nat → Bool),
    ∃ w ∈ (rewriteM3uContent rewriteM3uLine allocates []).writes, ¬ w.Inside :=
  ⟨fun _ => none, fun _ => true, ⟨0, 1, 0, 0⟩, by decide, by decide⟩

end Rtp2httpd
