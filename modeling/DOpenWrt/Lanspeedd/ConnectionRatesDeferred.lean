import DOpenWrt.Lanspeedd.ConnectionRates

/-!
# Windows of progress

Of one counter of a connection there are its readings, the newest first. A reading at which the counter grows closes a
window, which begins at the newest reading before it that did not keep an old rate.
-/

namespace Lanspeedd

/-! ### The last rates -/

namespace DeferredRateHistory

variable {history : DeferredRateHistory} {raws : List Nat}

def toRing (history : DeferredRateHistory) : HistoryRing Nat deferredRateMedianSamples :=
  ⟨history.samples.map some, history.next, history.len⟩

theorem default_holds : default.toRing.Holds [] where
  head_lt := by decide
  count := rfl
  slot _ hi := absurd hi (Nat.not_lt_zero _)

theorem push_toRing (h : history.toRing.Holds raws) (bps : Nat) : (history.push bps).1.toRing = history.toRing.push bps := by
  have hlen : history.len ≤ deferredRateMedianSamples := h.count_le
  unfold push toRing HistoryRing.push
  dsimp only
  rw [Vector.map_setIfInBounds]
  congr 1
  split_ifs with hlt
  · exact (Nat.min_eq_left hlt).symm
  · rw [Nat.le_antisymm hlen (Nat.le_of_not_lt hlt)]
    rfl

theorem median_perm {l l' : List Nat} (h : l.Perm l') : median l = median l' := by
  have hsorted : ∀ l : List Nat, l.mergeSort.Pairwise (· ≤ ·) := fun l =>
    (List.pairwise_mergeSort (fun _ _ _ => by simpa using Nat.le_trans) (fun a b => by simpa using Nat.le_total a b) l).imp
      fun hab => by simpa using hab
  have hperm : l.mergeSort.Perm l'.mergeSort := (l.mergeSort_perm _).trans (h.trans (l'.mergeSort_perm _).symm)
  unfold median
  rw [hperm.eq_of_pairwise (fun _ _ _ _ => Nat.le_antisymm) (hsorted l) (hsorted l')]

/-- A full history is the last three rates in some order. -/
theorem samples_perm (h : history.toRing.Holds raws) (hlen : deferredRateMedianSamples ≤ raws.length) :
    history.samples.toList.Perm (raws.take deferredRateMedianSamples) := by
  obtain ⟨samples, len, next⟩ := history
  obtain ⟨a, b, c, hl⟩ := List.length_eq_three.1 samples.length_toList
  obtain ⟨x, y, z, rest, rfl⟩ : ∃ x y z rest, raws = x :: y :: z :: rest := by
    match raws, hlen with
    | x :: y :: z :: rest, _ => exact ⟨x, y, z, rest, rfl⟩
  have hnext : next < 3 := h.head_lt
  have hcount : len = 3 := h.count.trans (Nat.min_eq_right hlen)
  have hslot : ∀ i < 3, [a, b, c][(next + 3 - 1 - i) % 3]? = (x :: y :: z :: rest)[i]? := by
    intro i hi
    have hget : (samples.map some)[(next + 3 - 1 - i) % 3]? = some (x :: y :: z :: rest)[i]? :=
      h.slot i (hcount.symm ▸ hi)
    rw [Vector.getElem?_map, ← Vector.getElem?_toList, hl] at hget
    obtain ⟨v, hv, heq⟩ := Option.map_eq_some_iff.1 hget
    rw [hv, heq]
  have h0 := hslot 0 (by decide)
  have h1 := hslot 1 (by decide)
  have h2 := hslot 2 (by decide)
  show samples.toList.Perm [x, y, z]
  rw [hl]
  interval_cases next
  · cases h0
    cases h1
    cases h2
    exact (List.Perm.swap _ _ _).trans (((List.Perm.swap _ _ _).cons _).trans (List.Perm.swap _ _ _))
  · cases h0
    cases h1
    cases h2
    exact (List.Perm.swap _ _ _).cons _
  · cases h0
    cases h1
    cases h2
    exact List.Perm.swap _ _ _

/-- What a push publishes. -/
theorem push_published (h : history.toRing.Holds raws) (bps : Nat) :
    (history.push bps).2 = if raws.length + 1 < deferredRateMedianSamples then bps
      else median ((bps :: raws).take deferredRateMedianSamples) := by
  have hring := push_toRing h bps
  have hpush := h.push bps
  rw [← hring] at hpush
  have hcount : (history.push bps).1.len = min (raws.length + 1) deferredRateMedianSamples := hpush.count
  show (if (history.push bps).1.len < deferredRateMedianSamples then bps
    else median (history.push bps).1.samples.toList) = _
  rw [hcount]
  by_cases hlt : raws.length + 1 < deferredRateMedianSamples
  · rw [if_pos (by omega), if_pos hlt]
  · rw [if_neg (by omega), if_neg hlt]
    exact median_perm (samples_perm hpush (Nat.le_of_not_lt hlt))

end DeferredRateHistory

/-! ### Readings and windows -/

structure Reading where
  ms : Nat
  bytes : Nat
deriving DecidableEq, Repr

/-- From a baseline to a reading at which the counter has grown. -/
structure ProgressWindow where
  first : Reading
  last : Reading
deriving DecidableEq, Repr

def ProgressWindow.rate (w : ProgressWindow) : Nat :=
  min (8000 * (w.last.bytes - w.first.bytes) / (w.last.ms - w.first.ms)) u64Max

/-- The state of a counter after its readings. -/
def deferredRate : List Reading → Option DeferredCounterRate
  | [] => none
  | r :: rs => some (deferredCounterRate r.ms r.bytes (deferredRate rs))

def publishedRate (rs : List Reading) : Nat := ((deferredRate rs).map (·.bps)).getD 0

/-- The counter stands still and a rate is published all the same. -/
def Held : List Reading → Prop
  | r :: r' :: rs => r.bytes = r'.bytes ∧ publishedRate (r :: r' :: rs) ≠ 0
  | _ => False

instance decidableHeld : ∀ rs, Decidable (Held rs)
  | [] => .isFalse id
  | [_] => .isFalse id
  | _ :: _ :: _ => inferInstanceAs (Decidable (_ ∧ _))

/-- The newest reading, or the one before it if the newest is held. -/
def baseline : List Reading → Option Reading
  | [] => none
  | r :: rs => if Held (r :: rs) then rs.head? else some r

def Progress : List Reading → Prop
  | r :: r' :: _ => r'.bytes < r.bytes
  | _ => False

instance decidableProgress : ∀ rs, Decidable (Progress rs)
  | [] => .isFalse id
  | [_] => .isFalse id
  | _ :: _ :: _ => inferInstanceAs (Decidable (_ < _))

def newWindow (r : Reading) (rs : List Reading) : Option ProgressWindow :=
  if Progress (r :: rs) then (baseline rs).map (⟨·, r⟩) else none

/-- All windows, the newest first. -/
def allWindows : List Reading → List ProgressWindow
  | [] => []
  | r :: rs => (newWindow r rs).toList ++ allWindows rs

/-- The windows since the last reading that was neither progress nor held. -/
def windows : List Reading → List ProgressWindow
  | [] => []
  | r :: rs => if Progress (r :: rs) ∨ Held (r :: rs) then (newWindow r rs).toList ++ windows rs else []

variable {r r' b : Reading} {rs : List Reading} {d : DeferredCounterRate}

/-- Every reading is later than those before it. -/
def Increasing (rs : List Reading) : Prop := rs.Pairwise fun newer older => older.ms < newer.ms

theorem baseline_cons (r : Reading) (rs : List Reading) :
    baseline (r :: rs) = if Held (r :: rs) then rs.head? else some r := rfl

theorem baseline_mem (h : baseline rs = some b) : b ∈ rs := by
  cases rs with
  | nil => cases h
  | cons r rs =>
    rw [baseline_cons] at h
    split_ifs at h with hheld
    · exact List.mem_cons_of_mem _ (List.mem_of_mem_head? h)
    · cases h
      exact List.mem_cons_self

theorem baseline_bytes (h : baseline (r :: rs) = some b) : b.bytes = r.bytes := by
  rw [baseline_cons] at h
  split_ifs at h with hheld
  · cases rs with
    | nil => cases h
    | cons r' rs =>
      cases h
      exact hheld.1.symm
  · cases h
    rfl

/-! ### Windows do not overlap -/

structure ProgressWindow.WellFormed (w : ProgressWindow) (rs : List Reading) : Prop where
  first : w.first ∈ rs
  last : w.last ∈ rs
  ms : w.first.ms < w.last.ms
  bytes : w.first.bytes < w.last.bytes

theorem mem_newWindow {w : ProgressWindow} (h : w ∈ newWindow r rs) :
    Progress (r :: rs) ∧ baseline rs = some w.first ∧ w.last = r := by
  unfold newWindow at h
  split_ifs at h with hprogress
  · obtain ⟨b, hb, rfl⟩ := Option.map_eq_some_iff.1 h
    exact ⟨hprogress, hb, rfl⟩
  · cases h

theorem newWindow_wellFormed (hrs : Increasing (r :: rs)) {w : ProgressWindow} (h : w ∈ newWindow r rs) :
    w.WellFormed (r :: rs) := by
  obtain ⟨hprogress, hb, hlast⟩ := mem_newWindow h
  have hmem := baseline_mem hb
  refine ⟨List.mem_cons_of_mem _ hmem, hlast ▸ List.mem_cons_self, ?_, ?_⟩
  · rw [hlast]
    exact (List.pairwise_cons.1 hrs).1 _ hmem
  · cases rs with
    | nil => cases hb
    | cons r' rs =>
      rw [hlast, baseline_bytes hb]
      exact hprogress

theorem allWindows_wellFormed (hrs : Increasing rs) {w : ProgressWindow} (h : w ∈ allWindows rs) : w.WellFormed rs := by
  induction rs with
  | nil => cases h
  | cons r rs ih =>
    rcases List.mem_append.1 h with hnew | hold
    · exact newWindow_wellFormed hrs (Option.mem_toList.1 hnew)
    · have := ih hrs.of_cons hold
      exact ⟨List.mem_cons_of_mem _ this.first, List.mem_cons_of_mem _ this.last, this.ms, this.bytes⟩

/-- All windows are over when the baseline is read. -/
theorem last_le_baseline (hrs : Increasing rs) (hb : baseline rs = some b) {w : ProgressWindow} (h : w ∈ allWindows rs) :
    w.last.ms ≤ b.ms := by
  have hhead : ∀ {r : Reading} {rs : List Reading}, Increasing (r :: rs) → ∀ w ∈ allWindows (r :: rs), w.last.ms ≤ r.ms := by
    intro r rs hrs w hw
    rcases List.mem_cons.1 (allWindows_wellFormed hrs hw).last with heq | hmem
    · rw [heq]
    · exact ((List.pairwise_cons.1 hrs).1 _ hmem).le
  cases rs with
  | nil => cases h
  | cons r rs =>
    rw [baseline_cons] at hb
    split_ifs at hb with hheld
    · -- a held reading closes no window
      cases rs with
      | nil => cases hb
      | cons r' rs =>
        cases hb
        refine hhead hrs.of_cons w ?_
        rcases List.mem_append.1 h with hnew | hold
        · have hprogress : b.bytes < r.bytes := (mem_newWindow (Option.mem_toList.1 hnew)).1
          exact absurd hheld.1 hprogress.ne'
        · exact hold
    · cases hb
      exact hhead hrs w h

theorem allWindows_disjoint (hrs : Increasing rs) :
    (allWindows rs).Pairwise fun later earlier => earlier.last.ms ≤ later.first.ms := by
  induction rs with
  | nil => exact .nil
  | cons r rs ih =>
    refine List.pairwise_append.2 ⟨?_, ih hrs.of_cons, fun later hlater earlier hearlier => ?_⟩
    · cases newWindow r rs with
      | none => exact .nil
      | some w => exact List.pairwise_singleton _ _
    · exact last_le_baseline hrs.of_cons (mem_newWindow (Option.mem_toList.1 hlater)).2.1 hearlier

theorem windows_prefix (rs : List Reading) : windows rs <+: allWindows rs := by
  induction rs with
  | nil => exact List.prefix_refl []
  | cons r rs ih =>
    unfold windows allWindows
    split_ifs
    · exact (List.prefix_append_right_inj _).2 ih
    · exact List.nil_prefix

/-! ### One counter -/

/-- The state of a counter against its readings. -/
structure CounterInv (rs : List Reading) (d : DeferredCounterRate) : Prop where
  baseline : baseline rs = some ⟨d.sampleMs, d.bytes⟩
  held : d.heldOnce = true ↔ Held rs
  holds : d.history.toRing.Holds ((windows rs).map (·.rate))

theorem publishedRate_cons (r : Reading) (rs : List Reading) :
    publishedRate (r :: rs) = (deferredCounterRate r.ms r.bytes (deferredRate rs)).bps := rfl

theorem rebaselined_inv (hms : d = rebaselined r.ms r.bytes) (hheld : ¬ Held (r :: rs))
    (hprogress : ¬ Progress (r :: rs)) : CounterInv (r :: rs) d := by
  subst hms
  refine ⟨?_, iff_of_false Bool.false_ne_true hheld, ?_⟩
  · rw [baseline_cons, if_neg hheld]
    rfl
  · rw [windows, if_neg (not_or.2 ⟨hprogress, hheld⟩)]
    exact DeferredRateHistory.default_holds

/-- What a reading does to a counter that has been read before. -/
structure CounterStep (r r' : Reading) (rs : List Reading) : Prop where
  progress : r'.bytes < r.bytes → ∃ b, baseline (r' :: rs) = some b ∧ b.bytes = r'.bytes ∧ b.ms < r.ms ∧
    windows (r :: r' :: rs) = ⟨b, r⟩ :: windows (r' :: rs) ∧
    publishedRate (r :: r' :: rs) =
      if (windows (r :: r' :: rs)).length < 3 then (ProgressWindow.mk b r).rate
      else DeferredRateHistory.median (((windows (r :: r' :: rs)).take 3).map (·.rate))
  unchanged : r.bytes = r'.bytes → publishedRate (r :: r' :: rs) =
    if publishedRate (r' :: rs) ≠ 0 ∧ ¬ Held (r' :: rs) then publishedRate (r' :: rs) else 0
  decreased : r.bytes < r'.bytes → publishedRate (r :: r' :: rs) = 0 ∧ windows (r :: r' :: rs) = []

theorem CounterInv.step (h : CounterInv (r' :: rs) d) (hd : deferredRate (r' :: rs) = some d)
    (hrs : Increasing (r :: r' :: rs)) :
    CounterInv (r :: r' :: rs) (deferredCounterRate r.ms r.bytes (some d)) ∧ CounterStep r r' rs := by
  have hbytes : d.bytes = r'.bytes := baseline_bytes h.baseline
  have hms : d.sampleMs < r.ms := (List.pairwise_cons.1 hrs).1 _ (baseline_mem h.baseline)
  have hbps : publishedRate (r' :: rs) = d.bps := by rw [publishedRate, hd]; rfl
  have hpublished : publishedRate (r :: r' :: rs) = (deferredCounterRate r.ms r.bytes (some d)).bps := by
    rw [publishedRate_cons, hd]
  rcases Nat.lt_trichotomy r.bytes r'.bytes with hlt | heq | hgt
  · -- the counter has decreased
    have hstep : deferredCounterRate r.ms r.bytes (some d) = rebaselined r.ms r.bytes := by
      rw [deferredCounterRate, if_neg (hbytes ▸ hlt.ne), if_neg hms.not_gt]
      exact if_pos (.inl (hbytes ▸ hlt))
    have hheld : ¬ Held (r :: r' :: rs) := fun hheld => hlt.ne hheld.1
    have hprogress : ¬ Progress (r :: r' :: rs) := hlt.not_gt
    refine ⟨rebaselined_inv hstep hheld hprogress, fun h => absurd h hlt.not_gt, fun h => absurd h hlt.ne, fun _ => ⟨?_, ?_⟩⟩
    · rw [hpublished, hstep]
      rfl
    · rw [windows, if_neg (not_or.2 ⟨hprogress, hheld⟩)]
  · -- it stands still
    have hprogress : ¬ Progress (r :: r' :: rs) := fun h => h.ne heq.symm
    by_cases hkeep : 0 < d.bps ∧ ¬ d.heldOnce = true
    · have hstep : deferredCounterRate r.ms r.bytes (some d) = { d with heldOnce := true } := by
        rw [deferredCounterRate, if_pos (heq.trans hbytes.symm), if_pos hkeep]
      have hheld : Held (r :: r' :: rs) := by
        refine ⟨heq, ?_⟩
        rw [hpublished, hstep]
        exact hkeep.1.ne'
      have hnot : ¬ Held (r' :: rs) := fun hheld' => hkeep.2 (h.held.2 hheld')
      refine ⟨⟨?_, ?_, ?_⟩, fun h => absurd h hprogress, fun _ => ?_, fun h => absurd heq h.ne⟩
      · rw [hstep, baseline_cons, if_pos hheld, ← h.baseline, baseline_cons, if_neg hnot]
        rfl
      · rw [hstep]
        exact iff_of_true rfl hheld
      · rw [hstep, windows, if_pos (.inr hheld), newWindow, if_neg hprogress]
        exact h.holds
      · rw [hpublished, hstep, hbps, if_pos ⟨hkeep.1.ne', hnot⟩]
    · have hstep : deferredCounterRate r.ms r.bytes (some d) = rebaselined r.ms r.bytes := by
        rw [deferredCounterRate, if_pos (heq.trans hbytes.symm), if_neg hkeep]
      have hheld : ¬ Held (r :: r' :: rs) := by
        rintro ⟨-, hne⟩
        rw [hpublished, hstep] at hne
        exact hne rfl
      refine ⟨rebaselined_inv hstep hheld hprogress, fun h => absurd h hprogress, fun _ => ?_, fun h => absurd heq h.ne⟩
      rw [hpublished, hstep, hbps, if_neg fun hk => hkeep ⟨Nat.pos_of_ne_zero hk.1, fun ho => hk.2 (h.held.1 ho)⟩]
      rfl
  · -- it has grown
    have hprogress : Progress (r :: r' :: rs) := hgt
    have hheld : ¬ Held (r :: r' :: rs) := fun hheld => hgt.ne' hheld.1
    have hwindows : windows (r :: r' :: rs) = ⟨⟨d.sampleMs, d.bytes⟩, r⟩ :: windows (r' :: rs) := by
      rw [windows, if_pos (.inl hprogress), newWindow, if_pos hprogress, h.baseline]
      rfl
    have hrate : rateFromCounters r.bytes d.bytes (r.ms - d.sampleMs) =
        (ProgressWindow.mk ⟨d.sampleMs, d.bytes⟩ r).rate := by
      rw [rateFromCounters, if_neg (hbytes ▸ hgt.not_gt), if_neg (Nat.sub_ne_zero_of_lt hms), Nat.mul_assoc, Nat.mul_comm]
      rfl
    have hstep : deferredCounterRate r.ms r.bytes (some d) =
        { sampleMs := r.ms, bytes := r.bytes, heldOnce := false
          bps := (d.history.push (ProgressWindow.mk ⟨d.sampleMs, d.bytes⟩ r).rate).2
          history := (d.history.push (ProgressWindow.mk ⟨d.sampleMs, d.bytes⟩ r).rate).1 } := by
      rw [deferredCounterRate, if_neg (hbytes ▸ hgt.ne'), if_neg hms.not_gt, ← hrate]
      exact if_neg (not_or.2 ⟨hbytes ▸ hgt.not_gt, Nat.sub_ne_zero_of_lt hms⟩)
    refine ⟨⟨?_, ?_, ?_⟩, fun _ => ⟨_, h.baseline, hbytes, hms, hwindows, ?_⟩, fun h => absurd h hgt.ne',
      fun h => absurd h hgt.not_gt⟩
    · rw [hstep, baseline_cons, if_neg hheld]
    · rw [hstep]
      exact iff_of_false Bool.false_ne_true hheld
    · rw [hstep, hwindows, List.map_cons, DeferredRateHistory.push_toRing h.holds]
      exact h.holds.push _
    · rw [hpublished, hstep, hwindows, DeferredRateHistory.push_published h.holds, List.length_map, List.length_cons,
        List.map_take, List.map_cons]
      rfl

theorem counterInv (hrs : Increasing (r :: rs)) :
    ∃ d, deferredRate (r :: rs) = some d ∧ CounterInv (r :: rs) d := by
  induction rs generalizing r with
  | nil => exact ⟨_, rfl, rebaselined_inv rfl id id⟩
  | cons r' rs ih =>
    obtain ⟨d, hd, hinv⟩ := ih hrs.of_cons
    exact ⟨_, congrArg (some ∘ deferredCounterRate r.ms r.bytes) hd, (hinv.step hd hrs).1⟩

theorem counterStep (hrs : Increasing (r :: r' :: rs)) : CounterStep r r' rs := by
  obtain ⟨d, hd, hinv⟩ := counterInv hrs.of_cons
  exact (hinv.step hd hrs).2

/-! ### The book -/

inductive RateBookOp where
  | update (sampleMs : Nat) (counters : ConnectionCountersMap) (details : ConnectionDetails)
  | updateDeferred (sampleMs : Nat) (counters : ConnectionCountersMap) (details : ConnectionDetails)
  | clear

/-- The time of the last sample, if it was one of the deferred mode. The operations come with the newest first. -/
def lastDeferredMs : List RateBookOp → Option Nat
  | .updateDeferred sampleMs _ _ :: _ => some sampleMs
  | _ => none

def lastImmediateMs : List RateBookOp → Option Nat
  | .update sampleMs _ _ :: _ => some sampleMs
  | _ => none

/-- The counters of a connection since it is in the table and the mode is the deferred one. -/
def deferredCounters (key : ConnectionRateKey) : List RateBookOp → List (Nat × ConnectionCounters)
  | .updateDeferred sampleMs counters _ :: ops =>
    if lastDeferredMs ops = some sampleMs then deferredCounters key ops
    else match (foldGenerations counters)[key]? with
      | some value => (sampleMs, value) :: deferredCounters key ops
      | none => []
  | _ => []

def txReadings (key : ConnectionRateKey) (ops : List RateBookOp) : List Reading :=
  (deferredCounters key ops).map fun c => ⟨c.1, c.2.txBytes.toNat⟩

def rxReadings (key : ConnectionRateKey) (ops : List RateBookOp) : List Reading :=
  (deferredCounters key ops).map fun c => ⟨c.1, c.2.rxBytes.toNat⟩

def counterPointAt (sampleMs : Nat) (value : ConnectionCounters) : ConnectionCounterPoint :=
  ⟨sampleMs, value.txBytes, value.rxBytes⟩

/-- The counters of a connection in the last sample, if it was one of the immediate mode. -/
def immediatePoint (key : ConnectionRateKey) : List RateBookOp → Option ConnectionCounterPoint
  | .update sampleMs counters _ :: ops =>
    if lastImmediateMs ops = some sampleMs then immediatePoint key ops
    else (foldGenerations counters)[key]?.map (counterPointAt sampleMs)
  | _ => none

namespace ConnectionRateBook

def apply (book : ConnectionRateBook) : RateBookOp → ConnectionRateBook
  | .update sampleMs counters details => (book.update sampleMs counters details).1
  | .updateDeferred sampleMs counters details => (book.updateDeferred sampleMs counters details).1
  | .clear => book.clear

variable {book : ConnectionRateBook} {ops : List RateBookOp}

/-- The book against the operations so far, the newest first. -/
structure Inv (ops : List RateBookOp) (book : ConnectionRateBook) : Prop where
  lastSampleMs : book.lastSampleMs = lastImmediateMs ops
  previous : ∀ key, book.previous[key]? = immediatePoint key ops
  lastDeferredSampleMs : book.lastDeferredSampleMs = lastDeferredMs ops
  tx : ∀ key, book.deferred[key]?.map (·.tx) = deferredRate (txReadings key ops)
  rx : ∀ key, book.deferred[key]?.map (·.rx) = deferredRate (rxReadings key ops)

theorem default_inv : Inv [] default where
  lastSampleMs := rfl
  previous _ := Std.TreeMap.getElem?_emptyc
  lastDeferredSampleMs := rfl
  tx _ := by rw [show (default.deferred) = ∅ from rfl, Std.TreeMap.getElem?_emptyc]; rfl
  rx _ := by rw [show (default.deferred) = ∅ from rfl, Std.TreeMap.getElem?_emptyc]; rfl

/-- The first step of `updateDeferred`: the immediate mode is forgotten. -/
def leaveImmediate (book : ConnectionRateBook) : ConnectionRateBook :=
  if book.lastSampleMs.isSome ∨ ¬ book.previous.isEmpty then { book with lastSampleMs := none, previous := ∅ } else book

theorem leaveImmediate_previous (book : ConnectionRateBook) (key : ConnectionRateKey) :
    book.leaveImmediate.previous[key]? = none := by
  unfold leaveImmediate
  split_ifs with h
  · exact Std.TreeMap.getElem?_emptyc
  · exact Std.TreeMap.getElem?_of_isEmpty (not_not.1 (not_or.1 h).2)

theorem leaveImmediate_lastSampleMs (book : ConnectionRateBook) : book.leaveImmediate.lastSampleMs = none := by
  unfold leaveImmediate
  split_ifs with h
  · rfl
  · exact Option.not_isSome_iff_eq_none.1 (not_or.1 h).1

theorem leaveImmediate_deferred (book : ConnectionRateBook) : book.leaveImmediate.deferred = book.deferred ∧
    book.leaveImmediate.lastDeferredSampleMs = book.lastDeferredSampleMs := by
  unfold leaveImmediate
  split_ifs <;> exact ⟨rfl, rfl⟩

def leaveDeferred (book : ConnectionRateBook) : ConnectionRateBook :=
  if book.lastDeferredSampleMs.isSome ∨ ¬ book.deferred.isEmpty then
    { book with lastDeferredSampleMs := none, deferred := ∅ }
  else book

theorem leaveDeferred_deferred (book : ConnectionRateBook) (key : ConnectionRateKey) :
    book.leaveDeferred.deferred[key]? = none := by
  unfold leaveDeferred
  split_ifs with h
  · exact Std.TreeMap.getElem?_emptyc
  · exact Std.TreeMap.getElem?_of_isEmpty (not_not.1 (not_or.1 h).2)

theorem leaveDeferred_lastDeferredSampleMs (book : ConnectionRateBook) :
    book.leaveDeferred.lastDeferredSampleMs = none := by
  unfold leaveDeferred
  split_ifs with h
  · rfl
  · exact Option.not_isSome_iff_eq_none.1 (not_or.1 h).1

theorem leaveDeferred_previous (book : ConnectionRateBook) : book.leaveDeferred.previous = book.previous ∧
    book.leaveDeferred.lastSampleMs = book.lastSampleMs := by
  unfold leaveDeferred
  split_ifs <;> exact ⟨rfl, rfl⟩

variable {sampleMs : Nat} {counters : ConnectionCountersMap} {details : ConnectionDetails}

theorem updateDeferred_repeated (h : book.lastDeferredSampleMs = some sampleMs) :
    book.updateDeferred sampleMs counters details = (book.leaveImmediate, details) :=
  if_pos ((leaveImmediate_deferred book).2.trans h)

def nextDeferred (sampleMs : Nat) (previous : Option DeferredConnectionRate) (value : ConnectionCounters) :
    DeferredConnectionRate where
  tx := deferredCounterRate sampleMs value.txBytes.toNat (previous.map (·.tx))
  rx := deferredCounterRate sampleMs value.rxBytes.toNat (previous.map (·.rx))

/-- The rates of a sample of the deferred mode. -/
def deferredRates (book : ConnectionRateBook) (sampleMs : Nat) (counters : ConnectionCountersMap) :
    Std.TreeMap ConnectionRateKey DeferredConnectionRate :=
  (foldGenerations counters).map fun key counters =>
    { tx := deferredCounterRate sampleMs counters.txBytes.toNat (book.leaveImmediate.deferred[key]?.map (·.tx))
      rx := deferredCounterRate sampleMs counters.rxBytes.toNat (book.leaveImmediate.deferred[key]?.map (·.rx)) }

theorem updateDeferred_fresh (h : book.lastDeferredSampleMs ≠ some sampleMs) :
    (book.updateDeferred sampleMs counters details).1.lastSampleMs = none ∧
    (book.updateDeferred sampleMs counters details).1.previous = book.leaveImmediate.previous ∧
    (book.updateDeferred sampleMs counters details).1.lastDeferredSampleMs = some sampleMs ∧
    (∀ key : ConnectionRateKey, (book.updateDeferred sampleMs counters details).1.deferred[key]? =
      (foldGenerations counters)[key]?.map (nextDeferred sampleMs book.deferred[key]?)) ∧
    (book.updateDeferred sampleMs counters details).2 = publishRates (fun key =>
      (((book.updateDeferred sampleMs counters details).1.deferred[key]?.map (·.tx.bps)).getD 0,
        ((book.updateDeferred sampleMs counters details).1.deferred[key]?.map (·.rx.bps)).getD 0)) details := by
  obtain ⟨hdeferred, hlast⟩ := leaveImmediate_deferred book
  have heq : ∃ rates : ConnectionRateKey → Nat × Nat, book.updateDeferred sampleMs counters details =
      ({ book.leaveImmediate with
          deferred := deferredRates book sampleMs counters
          lastDeferredSampleMs := some sampleMs }, publishRates rates details) ∧
      ∀ key, rates key = (((deferredRates book sampleMs counters)[key]?.map (·.tx.bps)).getD 0,
        ((deferredRates book sampleMs counters)[key]?.map (·.rx.bps)).getD 0) := by
    have hfresh := fun hrepeated => h (hlast.symm.trans hrepeated)
    refine ⟨_, if_neg hfresh, fun key => ?_⟩
    split
    · next rate hrate =>
      have hrate : (deferredRates book sampleMs counters)[key]? = some rate := hrate
      rw [hrate]
      rfl
    · next hnone =>
      have hnone : (deferredRates book sampleMs counters)[key]? = none := hnone
      rw [hnone]
      rfl
  obtain ⟨rates, heq, hrates⟩ := heq
  rw [heq]
  refine ⟨leaveImmediate_lastSampleMs book, rfl, rfl, fun key => ?_, congrArg (publishRates · details) (funext hrates)⟩
  rw [← hdeferred]
  exact Std.TreeMap.getElem?_map

theorem update_repeated (h : book.lastSampleMs = some sampleMs) :
    book.update sampleMs counters details = (book.leaveDeferred, details) :=
  if_pos ((leaveDeferred_previous book).2.trans h)

/-- The rates of a sample of the immediate mode from the one before it. -/
def immediateRates : Option ConnectionCounterPoint → Option ConnectionCounterPoint → Nat × Nat
  | some point, some previous =>
    if point.sampleMs < previous.sampleMs then (0, 0)
    else
      (rateFromCounters point.txBytes.toNat previous.txBytes.toNat (point.sampleMs - previous.sampleMs),
        rateFromCounters point.rxBytes.toNat previous.rxBytes.toNat (point.sampleMs - previous.sampleMs))
  | _, _ => (0, 0)

theorem update_fresh (h : book.lastSampleMs ≠ some sampleMs) :
    (book.update sampleMs counters details).1.lastSampleMs = some sampleMs ∧
    (∀ key : ConnectionRateKey, (book.update sampleMs counters details).1.previous[key]? =
      (foldGenerations counters)[key]?.map (counterPointAt sampleMs)) ∧
    (book.update sampleMs counters details).1.lastDeferredSampleMs = none ∧
    (book.update sampleMs counters details).1.deferred = book.leaveDeferred.deferred ∧
    (book.update sampleMs counters details).2 = publishRates (fun key =>
      immediateRates (book.update sampleMs counters details).1.previous[key]? book.previous[key]?) details := by
  obtain ⟨hprevious, hlast⟩ := leaveDeferred_previous book
  have heq : book.update sampleMs counters details =
      (let current := (foldGenerations counters).map fun _ counters =>
        (⟨sampleMs, counters.txBytes, counters.rxBytes⟩ : ConnectionCounterPoint)
      let rates := fun key => match current[key]?, book.leaveDeferred.previous[key]? with
        | some point, some previous =>
          if point.sampleMs < previous.sampleMs then (0, 0)
          else
            let deltaMs := point.sampleMs - previous.sampleMs
            (rateFromCounters point.txBytes.toNat previous.txBytes.toNat deltaMs,
              rateFromCounters point.rxBytes.toNat previous.rxBytes.toNat deltaMs)
        | _, _ => (0, 0)
      ({ book.leaveDeferred with previous := current, lastSampleMs := some sampleMs }, publishRates rates details)) :=
    if_neg fun hrepeated => h (hlast.symm.trans hrepeated)
  rw [heq]
  refine ⟨rfl, fun key => Std.TreeMap.getElem?_map, leaveDeferred_lastDeferredSampleMs book, rfl, ?_⟩
  dsimp only
  congr 1
  funext key
  rw [hprevious]
  generalize (Std.TreeMap.map _ (foldGenerations counters))[key]? = point
  generalize book.previous[key]? = previous
  cases point <;> cases previous <;> rfl

theorem Inv.updateDeferred (h : Inv ops book) (sampleMs : Nat) (counters : ConnectionCountersMap)
    (details : ConnectionDetails) :
    Inv (.updateDeferred sampleMs counters details :: ops) (book.updateDeferred sampleMs counters details).1 := by
  obtain ⟨hdeferred, hlast⟩ := leaveImmediate_deferred book
  by_cases hrepeated : book.lastDeferredSampleMs = some sampleMs
  · rw [updateDeferred_repeated hrepeated]
    have hops : lastDeferredMs ops = some sampleMs := h.lastDeferredSampleMs.symm.trans hrepeated
    have hcounters : ∀ key, deferredCounters key (.updateDeferred sampleMs counters details :: ops) =
      deferredCounters key ops := fun key => if_pos hops
    refine ⟨leaveImmediate_lastSampleMs book, leaveImmediate_previous book, hlast.trans hrepeated, fun key => ?_,
      fun key => ?_⟩
    · rw [hdeferred, txReadings, hcounters]
      exact h.tx key
    · rw [hdeferred, rxReadings, hcounters]
      exact h.rx key
  · obtain ⟨hms, hprevious, hlast', hget, -⟩ :=
      @updateDeferred_fresh book sampleMs counters details hrepeated
    have hcounters : ∀ key, deferredCounters key (.updateDeferred sampleMs counters details :: ops) =
        match (foldGenerations counters)[key]? with
        | some value => (sampleMs, value) :: deferredCounters key ops
        | none => [] :=
      fun key => if_neg fun hops => hrepeated (h.lastDeferredSampleMs.trans hops)
    refine ⟨hms, fun key => ?_, hlast', fun key => ?_, fun key => ?_⟩
    · rw [hprevious]
      exact leaveImmediate_previous book key
    · rw [hget, txReadings, hcounters]
      cases (foldGenerations counters)[key]? with
      | none => rfl
      | some value => exact congrArg (some ∘ deferredCounterRate sampleMs value.txBytes.toNat) (h.tx key)
    · rw [hget, rxReadings, hcounters]
      cases (foldGenerations counters)[key]? with
      | none => rfl
      | some value => exact congrArg (some ∘ deferredCounterRate sampleMs value.rxBytes.toNat) (h.rx key)

theorem Inv.update (h : Inv ops book) (sampleMs : Nat) (counters : ConnectionCountersMap) (details : ConnectionDetails) :
    Inv (.update sampleMs counters details :: ops) (book.update sampleMs counters details).1 := by
  obtain ⟨hprevious, hlast⟩ := leaveDeferred_previous book
  by_cases hrepeated : book.lastSampleMs = some sampleMs
  · rw [update_repeated hrepeated]
    have hops : lastImmediateMs ops = some sampleMs := h.lastSampleMs.symm.trans hrepeated
    refine ⟨hlast.trans hrepeated, fun key => ?_, leaveDeferred_lastDeferredSampleMs book, fun key => ?_, fun key => ?_⟩
    · rw [hprevious, immediatePoint, if_pos hops]
      exact h.previous key
    · rw [leaveDeferred_deferred]
      rfl
    · rw [leaveDeferred_deferred]
      rfl
  · obtain ⟨hms, hget, hlast', hdeferred, -⟩ := @update_fresh book sampleMs counters details hrepeated
    refine ⟨hms, fun key => ?_, hlast', fun key => ?_, fun key => ?_⟩
    · rw [hget, immediatePoint, if_neg fun hops => hrepeated (h.lastSampleMs.trans hops)]
    · rw [hdeferred, leaveDeferred_deferred]
      rfl
    · rw [hdeferred, leaveDeferred_deferred]
      rfl

theorem Inv.apply (h : Inv ops book) (op : RateBookOp) : Inv (op :: ops) (book.apply op) := by
  cases op with
  | update sampleMs counters details => exact h.update sampleMs counters details
  | updateDeferred sampleMs counters details => exact h.updateDeferred sampleMs counters details
  | clear => exact ⟨rfl, default_inv.previous, rfl, default_inv.tx, default_inv.rx⟩

/-- The book after some operations, the newest first. -/
def afterOps : List RateBookOp → ConnectionRateBook
  | [] => default
  | op :: ops => (afterOps ops).apply op

theorem afterOps_inv (ops : List RateBookOp) : Inv ops (afterOps ops) := by
  induction ops with
  | nil => exact default_inv
  | cons op ops ih => exact ih.apply op

end ConnectionRateBook

/-! ### Results -/

/-- The rates of a counter whose readings come with increasing times. -/
structure CounterSound (rs : List Reading) : Prop where
  windows : ∀ w ∈ allWindows rs, w.WellFormed rs
  disjoint : (allWindows rs).Pairwise fun later earlier => earlier.last.ms ≤ later.first.ms
  since : Lanspeedd.windows rs <+: allWindows rs
  first : ∀ r, rs = [r] → publishedRate rs = 0
  step : ∀ r r' tail, rs = r :: r' :: tail → CounterStep r r' tail

theorem counterSound {rs : List Reading} (hrs : Increasing rs) : CounterSound rs where
  windows _ hw := allWindows_wellFormed hrs hw
  disjoint := allWindows_disjoint hrs
  since := windows_prefix rs
  first r hr := by rw [hr]; rfl
  step r r' tail heq := counterStep (heq ▸ hrs)

/-- What a sample of either mode publishes after the operations `ops`, the newest first. -/
structure PublishSound (ops : List RateBookOp) : Prop where
  deferred : ∀ sampleMs counters details, lastDeferredMs ops ≠ some sampleMs →
    ((ConnectionRateBook.afterOps ops).updateDeferred sampleMs counters details).2 = publishRates (fun key =>
      (publishedRate (txReadings key (.updateDeferred sampleMs counters details :: ops)),
        publishedRate (rxReadings key (.updateDeferred sampleMs counters details :: ops)))) details
  deferredAgain : ∀ sampleMs counters details, lastDeferredMs ops = some sampleMs →
    ((ConnectionRateBook.afterOps ops).updateDeferred sampleMs counters details).2 = details
  immediate : ∀ sampleMs counters details, lastImmediateMs ops ≠ some sampleMs →
    ((ConnectionRateBook.afterOps ops).update sampleMs counters details).2 = publishRates (fun key =>
      ConnectionRateBook.immediateRates (immediatePoint key (.update sampleMs counters details :: ops))
        (immediatePoint key ops)) details
  immediateAgain : ∀ sampleMs counters details, lastImmediateMs ops = some sampleMs →
    ((ConnectionRateBook.afterOps ops).update sampleMs counters details).2 = details

theorem publishSound (ops : List RateBookOp) : PublishSound ops := by
  have hinv := ConnectionRateBook.afterOps_inv ops
  refine ⟨fun sampleMs counters details h => ?_, fun sampleMs counters details h => ?_,
    fun sampleMs counters details h => ?_, fun sampleMs counters details h => ?_⟩
  · have hnext := hinv.updateDeferred sampleMs counters details
    obtain ⟨-, -, -, -, hpublished⟩ := @ConnectionRateBook.updateDeferred_fresh _ _ counters details
      fun hlast => h (hinv.lastDeferredSampleMs.symm.trans hlast)
    rw [hpublished]
    congr 1
    funext key
    rw [publishedRate, publishedRate, ← hnext.tx, ← hnext.rx, Option.map_map, Option.map_map]
    rfl
  · rw [ConnectionRateBook.updateDeferred_repeated (hinv.lastDeferredSampleMs.trans h)]
  · have hnext := hinv.update sampleMs counters details
    obtain ⟨-, -, -, -, hpublished⟩ := @ConnectionRateBook.update_fresh _ _ counters details
      fun hlast => h (hinv.lastSampleMs.symm.trans hlast)
    rw [hpublished]
    congr 1
    funext key
    rw [hnext.previous, hinv.previous]
  · rw [ConnectionRateBook.update_repeated (hinv.lastSampleMs.trans h)]

/-- After any operations, the rates published in the deferred mode are those of the readings of the connection in that
mode since it is in the table. Where these come with increasing times, every progress closes a window of its own. -/
theorem connectionRates_windows (ops : List RateBookOp) : PublishSound ops ∧ ∀ key,
    (Increasing (txReadings key ops) → CounterSound (txReadings key ops)) ∧
      (Increasing (rxReadings key ops) → CounterSound (rxReadings key ops)) :=
  ⟨publishSound ops, fun _ => ⟨counterSound, counterSound⟩⟩

/-- A rate does not pass `u64::MAX`, and a second sample at the same time is not taken for a baseline. -/
theorem connectionRates_limits :
    (¬ ∀ r r' : Reading, Increasing [r, r'] → r'.bytes < r.bytes → r.bytes < 2 ^ 64 →
      publishedRate [r, r'] = 8000 * (r.bytes - r'.bytes) / (r.ms - r'.ms)) ∧
    ¬ ∀ (ops : List RateBookOp) (sampleMs : Nat) (counters : ConnectionCountersMap) (key : ConnectionRateKey),
      lastDeferredMs ops = some sampleMs →
      ((ConnectionRateBook.afterOps ops).updateDeferred sampleMs counters ∅).1.deferred[key]?.map (·.tx.bytes) =
        (foldGenerations counters)[key]?.map (·.txBytes.toNat) := by
  constructor
  · intro h
    have := h ⟨1001, 2 ^ 64 - 1⟩ ⟨1000, 0⟩ (List.pairwise_pair.2 (by decide)) (by decide) (by decide)
    exact absurd this (by decide +kernel)
  · intro h
    have := h [.updateDeferred 1000 ((∅ : ConnectionCountersMap).insert
        ⟨none, none, "client", .v4 1, 12345, some (.v4 2), 443, .tcp, .outbound⟩ ⟨100, 200⟩) ∅] 1000
      ((∅ : ConnectionCountersMap).insert
        ⟨none, none, "client", .v4 1, 12345, some (.v4 2), 443, .tcp, .outbound⟩ ⟨300, 200⟩)
      ⟨none, none, "client", .v4 1, 12345, some (.v4 2), 443, .tcp, .outbound⟩ rfl
    exact absurd this (by decide +kernel)

end Lanspeedd
