import DOpenWrt.Rtp2httpd.SnapshotPacket
import Mathlib.Data.List.TakeWhile

/-!
# The frame of a snapshot

`captureFrame` says what the file of a stream of TS packets is: the PAT, the PMT, and the packets of the video PID from
the start of the IDR frame up to the next unit. `Tracks` relates the context to the packets so far, however they were
grouped, and once the buffer is full it keeps only that the frame is too large.
-/

namespace Rtp2httpd.Snapshot

/-! ### The frame of a stream -/

/-- The first PAT. -/
def patOf (ps : List TsPacket) : Option TsPacket := ps.find? (·.pid = tsPatPid)

/-- The first packet behind the PAT of the PID that it names. -/
def pmtOf (ps : List TsPacket) : Option TsPacket :=
  match ps.dropWhile (·.pid ≠ tsPatPid) with
  | [] => none
  | pat :: rest => if pat.pmtPid = 0 then none else rest.find? (·.pid = pat.pmtPid)

def bytesOf (ps : List TsPacket) : List UInt8 := ps.flatMap TsPacket.bytes

def header (ps : List TsPacket) : List UInt8 := bytesOf ((patOf ps).toList ++ (pmtOf ps).toList)

/-- The packet starts the next unit of the video that `start` began. -/
def endsFrame (start p : TsPacket) : Bool := p.pid = start.pid && p.unitStart

/-- The header, and the video packets of `start :: body`. -/
def frameOf (seen : List TsPacket) (start : TsPacket) (body : List TsPacket) : List UInt8 :=
  header (seen ++ [start]) ++ bytesOf (start :: body.filter (·.pid = start.pid))

/-- The file of the frame, if it starts and ends in the stream. -/
def captureFrame (ps : List TsPacket) : Option (List UInt8) :=
  match ps.dropWhile (!·.idrStart) with
  | [] => none
  | start :: rest =>
    if rest.any (endsFrame start) then
      some (frameOf (ps.takeWhile (!·.idrStart)) start (rest.takeWhile (!endsFrame start ·)))
    else none

section
variable {ps seen body more : List TsPacket} {start p : TsPacket}

theorem bytesOf_append (ps qs : List TsPacket) : bytesOf (ps ++ qs) = bytesOf ps ++ bytesOf qs := List.flatMap_append

theorem bytesOf_cons (p : TsPacket) (ps : List TsPacket) : bytesOf (p :: ps) = p.bytes ++ bytesOf ps :=
  List.flatMap_cons

theorem bytesOf_singleton (p : TsPacket) : bytesOf [p] = p.bytes := by rw [bytesOf_cons, bytesOf, List.flatMap_nil, List.append_nil]

/-- The start of the frame and what comes before it. -/
structure StartsAt (seen : List TsPacket) (start : TsPacket) : Prop where
  before : ∀ p ∈ seen, p.idrStart = false
  idr : start.idrStart = true

theorem captureFrame_none (h : ∀ p ∈ ps, p.idrStart = false) : captureFrame ps = none := by
  have hdrop : ps.dropWhile (!·.idrStart) = [] := List.dropWhile_eq_nil_iff.2 fun p hp => by rw [h p hp]; rfl
  rw [captureFrame, hdrop]

theorem captureFrame_started (h : StartsAt seen start) (hbody : ∀ p ∈ body, endsFrame start p = false) :
    captureFrame (seen ++ start :: (body ++ more)) = if more.any (endsFrame start) then
      some (frameOf seen start (body ++ more.takeWhile (!endsFrame start ·))) else none := by
  have hseen : ∀ p ∈ seen, (!p.idrStart) = true := fun p hp => by rw [h.before p hp]; rfl
  have hstart : ¬ (!start.idrStart) = true := by rw [h.idr]; decide
  have hopen : ∀ p ∈ body, (!endsFrame start p) = true := fun p hp => by rw [hbody p hp]; rfl
  have hany : body.any (endsFrame start) = false := by
    rw [List.any_eq_false]
    exact fun p hp => by rw [hbody p hp]; decide
  rw [captureFrame, List.dropWhile_append_of_pos hseen, List.takeWhile_append_of_pos hseen,
    List.dropWhile_cons_of_neg (p := fun q : TsPacket => !q.idrStart) hstart, List.takeWhile_cons_of_neg (p := fun q : TsPacket => !q.idrStart) hstart,
    List.append_nil]
  dsimp only
  rw [List.any_append, hany, Bool.false_or, List.takeWhile_append_of_pos hopen]

theorem frameOf_append (seen : List TsPacket) (start : TsPacket) (body more : List TsPacket) :
    frameOf seen start (body ++ more) = frameOf seen start body ++ bytesOf (more.filter (·.pid = start.pid)) := by
  rw [frameOf, frameOf, List.filter_append, ← List.cons_append, bytesOf_append, List.append_assoc]

/-! ### The header -/

theorem patOf_snoc (ps : List TsPacket) (p : TsPacket) :
    patOf (ps ++ [p]) = (patOf ps).or (if p.pid = tsPatPid then some p else none) := by
  rw [patOf, patOf, List.find?_append]
  by_cases hp : p.pid = tsPatPid <;> simp [hp]

theorem pmtOf_of_pat_none (h : patOf ps = none) : pmtOf ps = none := by
  have hdrop : ps.dropWhile (·.pid ≠ tsPatPid) = [] :=
    List.dropWhile_eq_nil_iff.2 fun p hp => by simpa using List.find?_eq_none.1 h p hp
  rw [pmtOf, hdrop]

/-- Before the first PAT. -/
theorem pmtOf_snoc_of_pat_none (h : patOf ps = none) (p : TsPacket) : pmtOf (ps ++ [p]) = none := by
  have hall : ∀ q ∈ ps, decide (q.pid ≠ tsPatPid) = true := fun q hq => by simpa using List.find?_eq_none.1 h q hq
  rw [pmtOf, List.dropWhile_append_of_pos hall]
  by_cases hp : p.pid = tsPatPid
  · rw [List.dropWhile_cons_of_neg (by simpa using hp)]
    simp
  · rw [List.dropWhile_cons_of_pos (by simpa using hp), List.dropWhile_nil]

/-- Behind it. -/
theorem pmtOf_snoc_of_pat {pat : TsPacket} (h : patOf ps = some pat) (p : TsPacket) :
    pmtOf (ps ++ [p]) = (pmtOf ps).or (if pat.pmtPid ≠ 0 ∧ p.pid = pat.pmtPid then some p else none) := by
  obtain ⟨hpat, before, rest, rfl, hbefore⟩ := List.find?_eq_some_iff_append.1 h
  have hall : ∀ q ∈ before, decide (q.pid ≠ tsPatPid) = true := fun q hq => by simpa using hbefore q hq
  have hhead : ¬ decide (pat.pid ≠ tsPatPid) = true := by simpa using hpat
  rw [pmtOf, pmtOf, List.append_assoc, List.cons_append, List.dropWhile_append_of_pos hall,
    List.dropWhile_append_of_pos hall, List.dropWhile_cons_of_neg (p := fun q : TsPacket => q.pid ≠ tsPatPid) hhead,
    List.dropWhile_cons_of_neg (p := fun q : TsPacket => q.pid ≠ tsPatPid) hhead]
  dsimp only
  by_cases hzero : pat.pmtPid = 0
  · simp [hzero]
  · rw [if_neg hzero, if_neg hzero, List.find?_append]
    by_cases hp : p.pid = pat.pmtPid <;> simp [hp, hzero]

end

end Rtp2httpd.Snapshot
