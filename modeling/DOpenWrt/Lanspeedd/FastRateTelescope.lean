import DOpenWrt.Lanspeedd.FastRate

/-!
# Windows telescope

A run of pairs falls into stretches between failures. What the windows of a run count is, stretch by stretch, the growth
of the counters from the pair that began the stretch to the pair closed last: waiting for progress and quiet windows
consume nothing, and what a failed window would have counted lies between two stretches.
-/

namespace Lanspeedd

/-- The four cumulative counters. -/
inductive CounterKind
  | nBytes
  | nPackets
  | sBytes
  | sPackets

namespace CounterKind

def ofPair (p : FastCounterPair) : CounterKind → ℕ
  | nBytes => p.n.bytes
  | nPackets => p.n.packets
  | sBytes => p.s.bytes
  | sPackets => p.s.packets

def ofWindow (w : FastWindow) : CounterKind → ℕ
  | nBytes => w.nBytes
  | nPackets => w.nPackets
  | sBytes => w.sBytes
  | sPackets => w.sPackets

end CounterKind

def Observation.window : Observation → Option FastWindow
  | quiet w => some w
  | closed w => some w
  | _ => none

/-- A part of a run without failure, from the pair it began with to the pair closed last. -/
structure Stretch where
  first : FastCounterPair
  last : FastCounterPair

def Stretch.growth (k : CounterKind) (st : Stretch) : ℕ := k.ofPair st.last - k.ofPair st.first

/-- The stretch that begins with a pair, if the pair is valid. -/
def beginStretch (maxSkewMs : ℕ) (p : FastCounterPair) : Option Stretch :=
  match validatePair p.n p.s maxSkewMs with
  | .ok _ => some ⟨p, p⟩
  | .error _ => none

/-- The stretches of a run that starts in the stretch `cur`. -/
def stretches (maxSkewMs : ℕ) : Option Stretch → List (FastCounterPair × Observation) → List Stretch
  | cur, [] => cur.toList
  | _, (p, .began) :: rest => stretches maxSkewMs (some ⟨p, p⟩) rest
  | cur, (_, .held) :: rest => stretches maxSkewMs cur rest
  | cur, (_, .quiet _) :: rest => stretches maxSkewMs cur rest
  | cur, (p, .closed _) :: rest => stretches maxSkewMs (cur.map fun st => { st with last := p }) rest
  | cur, (p, .failed _) :: rest => cur.toList ++ stretches maxSkewMs (beginStretch maxSkewMs p) rest

def published (k : CounterKind) (os : List (FastCounterPair × Observation)) : ℕ :=
  ((os.filterMap fun o => o.2.window).map (k.ofWindow ·)).sum

/-! ### One window -/

section

variable {c c' : FastRateCoordinator} {n s : FastCounterSample} {start p : FastCounterPair} {w : FastWindow}
  {e : FastWindowError}

theorem countersReset_eq_false : countersReset start n s = false ↔ ∀ k : CounterKind, k.ofPair start ≤ k.ofPair ⟨n, s⟩ := by
  simp only [countersReset, Bool.or_eq_false_iff, decide_eq_false_iff_not, not_lt]
  constructor
  · rintro ⟨⟨⟨hnb, hnp⟩, hsb⟩, hsp⟩ (_ | _)
    exacts [hnb, hnp, hsb, hsp]
  · intro h
    exact ⟨⟨⟨h .nBytes, h .nPackets⟩, h .sBytes⟩, h .sPackets⟩

/-- What a window that `finish` returns is. -/
structure ClosesWindow (c : FastRateCoordinator) (start p : FastCounterPair) (w : FastWindow) : Prop where
  valid : validatePair p.n p.s c.maxReadEndSkewMs = .ok ()
  counts : ∀ k : CounterKind, k.ofPair start + k.ofWindow w = k.ofPair p
  duration : 0 < w.durationMs
  nWindow : w.nWindowMs = elapsedOrProgress p.n.readEndMs start.n.readEndMs (effectiveProgressMs p.n)
    (effectiveProgressMs start.n)
  sWindow : w.sWindowMs = elapsedOrProgress p.s.readEndMs start.s.readEndMs (effectiveProgressMs p.s)
    (effectiveProgressMs start.s)

theorem durationMs_pos (h : ¬ (w.endMs ≤ w.startMs ∧ w.nWindowMs = 0 ∧ w.sWindowMs = 0)) : 0 < w.durationMs := by
  rw [FastWindow.durationMs]
  split <;> split <;> omega

theorem closeWindow_ok (h : c.closeWindow n s start = .ok w) : ClosesWindow c start ⟨n, s⟩ w := by
  rw [FastRateCoordinator.closeWindow] at h
  cases hv : validatePair n s c.maxReadEndSkewMs with
  | error e => simp [hv, Bind.bind, Except.bind] at h
  | ok u =>
    simp only [hv, Bind.bind, Except.bind] at h
    split at h
    · cases h
    split at h
    · cases h
    split at h
    · cases h
    split at h
    · cases h
    next htime =>
    split at h
    · cases h
    next hreset =>
    have hle := countersReset_eq_false.1 (Bool.eq_false_of_not_eq_true hreset)
    cases h
    refine ⟨hv, fun k => ?_, durationMs_pos htime, rfl, rfl⟩
    have := hle k
    cases k <;> exact Nat.add_sub_cancel' this

theorem finish_none (h : c.start = none) : c.finish n s = (.error .timeDidNotAdvance, c) := by
  rw [FastRateCoordinator.finish, h]

/-- Whatever `finish` returns, the start is gone. -/
theorem finish_start : (c.finish n s).2.start = none := by
  rw [FastRateCoordinator.finish]
  split
  · next h => exact h
  · rfl

theorem finish_maxSkew : (c.finish n s).2.maxReadEndSkewMs = c.maxReadEndSkewMs := by
  rw [FastRateCoordinator.finish]
  split <;> rfl

theorem finish_ok (h : (c.finish n s).1 = .ok w) : ∃ start, c.start = some start ∧ ClosesWindow c start ⟨n, s⟩ w := by
  rw [FastRateCoordinator.finish] at h
  cases hs : c.start with
  | none =>
    rw [hs] at h
    cases h
  | some start =>
    rw [hs] at h
    exact ⟨start, rfl, closeWindow_ok h⟩

/-- A quiet window stands for no growth. -/
theorem confirmedQuietWindow_some {minQuietMs : ℕ} (h : c.confirmedQuietWindow n s minQuietMs = .ok (some w)) :
    ∃ start, c.start = some start ∧ 0 < w.durationMs ∧
      ∀ k : CounterKind, k.ofPair start = k.ofPair ⟨n, s⟩ ∧ k.ofWindow w = 0 := by
  rw [FastRateCoordinator.confirmedQuietWindow] at h
  cases hs : c.start with
  | none => simp [hs] at h
  | some start =>
    simp only [hs] at h
    split at h
    · cases h
    split at h
    · cases h
    next hsame =>
    split at h
    · cases h
    next hwindow =>
    cases hv : validatePair n s c.maxReadEndSkewMs with
    | error e => simp [hv, Bind.bind, Except.bind] at h
    | ok u =>
      simp only [hv, Bind.bind, Except.bind] at h
      split at h
      · cases h
      split at h
      · cases h
      cases h
      simp only [Bool.or_eq_true, decide_eq_true_eq, not_or, ne_eq, not_not] at hsame hwindow
      obtain ⟨⟨⟨hnb, hnp⟩, hsb⟩, hsp⟩ := hsame
      refine ⟨start, rfl, ?_, ?_⟩
      · rw [FastWindow.durationMs]
        simp only [gt_iff_lt, lt_irrefl, if_false]
        rw [if_pos hwindow.2]
        omega
      · rintro (_ | _)
        exacts [⟨hnb.symm, rfl⟩, ⟨hnp.symm, rfl⟩, ⟨hsb.symm, rfl⟩, ⟨hsp.symm, rfl⟩]

theorem begin_ok (h : c.begin n s = .ok c') :
    validatePair n s c.maxReadEndSkewMs = .ok () ∧ c' = { c with start := some ⟨n, s⟩ } := by
  rw [FastRateCoordinator.begin] at h
  cases hv : validatePair n s c.maxReadEndSkewMs with
  | error e => simp [hv, Bind.bind, Except.bind] at h
  | ok u =>
    simp only [hv, Bind.bind, Except.bind] at h
    cases h
    exact ⟨rfl, rfl⟩

theorem beginOrKeep_start (h : c.start = none) :
    (c.beginOrKeep p.n p.s).start = (beginStretch c.maxReadEndSkewMs p).map Stretch.last := by
  rw [FastRateCoordinator.beginOrKeep, FastRateCoordinator.begin, beginStretch]
  cases validatePair p.n p.s c.maxReadEndSkewMs with
  | error e => exact h
  | ok u => rfl

theorem beginOrKeep_maxSkew : (c.beginOrKeep n s).maxReadEndSkewMs = c.maxReadEndSkewMs := by
  rw [FastRateCoordinator.beginOrKeep, FastRateCoordinator.begin]
  cases validatePair n s c.maxReadEndSkewMs <;> rfl

/-- What one pair does to the coordinator. -/
inductive Observes (c : FastRateCoordinator) (p : FastCounterPair) : Observation → FastRateCoordinator → Prop
  | began : c.start = none → Observes c p .began { c with start := some p }
  | held : Observes c p .held c
  | quiet (start : FastCounterPair) (w : FastWindow) : c.start = some start → 0 < w.durationMs →
      (∀ k : CounterKind, k.ofPair start = k.ofPair p ∧ k.ofWindow w = 0) → Observes c p (.quiet w) c
  | closed (start : FastCounterPair) (w : FastWindow) : c.start = some start → ClosesWindow c start p w →
      Observes c p (.closed w) { c with start := some p }
  | failed (e : FastWindowError) (c' : FastRateCoordinator) : c'.maxReadEndSkewMs = c.maxReadEndSkewMs →
      c'.start = (beginStretch c.maxReadEndSkewMs p).map Stretch.last → Observes c p (.failed e) c'

theorem observes_failed (e : FastWindowError) (h : c'.maxReadEndSkewMs = c.maxReadEndSkewMs) :
    Observes c p (.failed e) (c'.clear.beginOrKeep p.n p.s) :=
  .failed e _ (beginOrKeep_maxSkew.trans h) (h ▸ beginOrKeep_start rfl)

theorem observes_next : Observes c p (observeNext c p).1 (observeNext c p).2 := by
  rw [observeNext]
  split
  · split
    · next w h =>
      obtain ⟨start, hs, hd, hk⟩ := confirmedQuietWindow_some h
      exact .quiet start w hs hd hk
    · exact .held
    · exact observes_failed _ rfl
  · split
    · next w c' h =>
      have h1 : (c.finish p.n p.s).1 = .ok w := by rw [h]
      obtain ⟨start, hs, hw⟩ := finish_ok h1
      have hc' : c' = c.clear := by
        rw [FastRateCoordinator.finish, hs] at h
        exact (congrArg Prod.snd h).symm
      have hbegin : c'.beginOrKeep p.n p.s = { c with start := some p } := by
        have hv := hw.valid
        rw [hc', FastRateCoordinator.beginOrKeep, FastRateCoordinator.begin, FastRateCoordinator.clear, hv]
        rfl
      rw [hbegin]
      exact .closed start w hs hw
    · next e c' h =>
      have hmax : (c.finish p.n p.s).2.maxReadEndSkewMs = c.maxReadEndSkewMs := finish_maxSkew
      rw [h] at hmax
      exact observes_failed e hmax

theorem observes_pair : Observes c p (observePair c p).1 (observePair c p).2 := by
  rw [observePair]
  split
  · next hstart hbegin =>
    obtain ⟨-, rfl⟩ := begin_ok hbegin
    exact .began (Option.not_isSome_iff_eq_none.1 (by rw [FastRateCoordinator.hasStart] at hstart; simp [hstart]))
  · exact observes_next

end

/-! ### Runs -/

/-- The stretch a run is in ends with the start of the coordinator and has grown. -/
structure InStretch (c : FastRateCoordinator) (cur : Option Stretch) : Prop where
  start : c.start = cur.map Stretch.last
  grown : ∀ st ∈ cur, ∀ k : CounterKind, k.ofPair st.first ≤ k.ofPair st.last

def growthOf (k : CounterKind) (sts : List Stretch) : ℕ := (sts.map (Stretch.growth k)).sum

theorem inStretch_begin {c : FastRateCoordinator} {p : FastCounterPair} (maxSkewMs : ℕ)
    (h : c.start = (beginStretch maxSkewMs p).map Stretch.last) : InStretch c (beginStretch maxSkewMs p) := by
  refine ⟨h, fun st hst k => ?_⟩
  rw [beginStretch] at hst
  split at hst
  · cases hst
    rfl
  · cases hst

theorem growthOf_begin (k : CounterKind) (maxSkewMs : ℕ) (p : FastCounterPair) :
    growthOf k (beginStretch maxSkewMs p).toList = 0 := by
  rw [beginStretch]
  split
  · simp [growthOf, Stretch.growth]
  · rfl

theorem observePairs_telescope (k : CounterKind) (ps : List FastCounterPair) {c : FastRateCoordinator} {cur : Option Stretch}
    (h : InStretch c cur) :
    (∀ st ∈ stretches c.maxReadEndSkewMs cur (observePairs c ps).1, k.ofPair st.first ≤ k.ofPair st.last) ∧
      growthOf k (stretches c.maxReadEndSkewMs cur (observePairs c ps).1) =
        growthOf k cur.toList + published k (observePairs c ps).1 := by
  induction ps generalizing c cur with
  | nil =>
    refine ⟨fun st hst => ?_, rfl⟩
    exact h.grown st (Option.mem_toList.1 hst) k
  | cons p ps ih =>
    have hobs := observes_pair (c := c) (p := p)
    simp only [observePairs]
    generalize observePair c p = r at hobs
    obtain ⟨o, c'⟩ := r
    cases hobs with
    | began hnone =>
      have hcur : cur = none := Option.map_eq_none_iff.1 (h.start.symm.trans hnone)
      have hin : InStretch { c with start := some p } (some ⟨p, p⟩) := ⟨rfl, fun st hst k => by
        cases hst
        rfl⟩
      obtain ⟨hle, hsum⟩ := ih hin
      refine ⟨hle, ?_⟩
      rw [hcur]
      simpa [stretches, growthOf, Stretch.growth, published, Observation.window] using hsum
    | held => exact ih h
    | quiet start w hs hd hk =>
      obtain ⟨hle, hsum⟩ := ih h
      refine ⟨hle, ?_⟩
      simpa [stretches, published, Observation.window, (hk k).2] using hsum
    | closed start w hs hw =>
      obtain ⟨st, rfl, hlast⟩ := Option.map_eq_some_iff.1 (h.start.symm.trans hs)
      have hfirst : ∀ k : CounterKind, k.ofPair st.first ≤ k.ofPair start := fun k => hlast ▸ h.grown st rfl k
      have hin : InStretch { c with start := some p } (some { st with last := p }) := ⟨rfl, fun st' hst' k => by
        cases hst'
        exact (hfirst k).trans (Nat.le.intro (hw.counts k))⟩
      obtain ⟨hle, hsum⟩ := ih hin
      refine ⟨hle, ?_⟩
      have hcounts := hw.counts k
      have hgrown := hfirst k
      simp only [growthOf, Stretch.growth, published, stretches, Observation.window, Option.toList_some, List.map_cons,
        List.map_nil, List.sum_cons, List.sum_nil, List.filterMap_cons, Option.map_some, hlast] at hsum ⊢
      omega
    | failed e _ hmax hstart =>
      obtain ⟨hle, hsum⟩ := ih (inStretch_begin c.maxReadEndSkewMs hstart)
      rw [hmax] at hle hsum
      refine ⟨fun st hst => ?_, ?_⟩
      · rw [stretches, List.mem_append] at hst
        rcases hst with hst | hst
        · exact h.grown st (Option.mem_toList.1 hst) k
        · exact hle st hst
      · rw [growthOf_begin, Nat.zero_add] at hsum
        rw [stretches, growthOf, List.map_append, List.sum_append]
        exact congrArg (growthOf k cur.toList + ·) hsum

theorem elapsedOrProgress_pos {endRead startRead endProgress startProgress : ℕ} :
    0 < elapsedOrProgress endRead startRead endProgress startProgress ↔
      startProgress < endProgress ∨ startRead < endRead := by
  rw [elapsedOrProgress]
  split <;> omega

/-- A run without failure is one stretch. -/
theorem stretches_length (maxSkewMs : ℕ) (os : List (FastCounterPair × Observation))
    (h : ∀ o ∈ os, ∀ e, o.2 ≠ .failed e) (cur : Option Stretch) : (stretches maxSkewMs cur os).length ≤ 1 := by
  induction os generalizing cur with
  | nil => cases cur <;> simp [stretches]
  | cons o os ih =>
    have ih := ih fun o' ho' => h o' (List.mem_cons_of_mem _ ho')
    obtain ⟨p, o⟩ := o
    cases o with
    | began => exact ih _
    | held => exact ih _
    | quiet w => exact ih _
    | closed w => exact ih _
    | failed e => exact absurd rfl (h (p, .failed e) (List.mem_cons_self ..) e)

theorem observePairs_duration (ps : List FastCounterPair) (c : FastRateCoordinator) :
    ∀ o ∈ (observePairs c ps).1, ∀ w ∈ o.2.window, 0 < w.durationMs := by
  induction ps generalizing c with
  | nil => exact fun o ho => absurd ho List.not_mem_nil
  | cons p ps ih =>
    have hobs := observes_pair (c := c) (p := p)
    simp only [observePairs]
    intro o ho w hw
    rcases List.mem_cons.1 ho with rfl | ho
    · generalize observePair c p = r at hobs hw
      obtain ⟨o, c'⟩ := r
      cases hobs with
      | began hnone => cases hw
      | held => cases hw
      | quiet start w' hs hd hk =>
        cases hw
        exact hd
      | closed start w' hs hw' =>
        cases hw
        exact hw'.duration
      | failed e _ hmax hstart => cases hw
    · exact ih _ o ho w hw

/-- The windows of every run telescope, quiet windows stand for no growth, every window has a duration, and a source
that contributes bytes has a window of its own exactly if its progress clock or its read clock advanced. -/
theorem fast_windows_telescope (maxSkewMs : ℕ) (ps : List FastCounterPair) :
    (∀ k : CounterKind,
      (∀ st ∈ stretches maxSkewMs none (observePairs (.new maxSkewMs) ps).1, k.ofPair st.first ≤ k.ofPair st.last) ∧
        published k (observePairs (.new maxSkewMs) ps).1 =
          growthOf k (stretches maxSkewMs none (observePairs (.new maxSkewMs) ps).1)) ∧
      ((∀ o ∈ (observePairs (.new maxSkewMs) ps).1, ∀ e, o.2 ≠ .failed e) →
        (stretches maxSkewMs none (observePairs (.new maxSkewMs) ps).1).length ≤ 1) ∧
      (∀ o ∈ (observePairs (.new maxSkewMs) ps).1, ∀ w ∈ o.2.window, 0 < w.durationMs) ∧
      (∀ (c : FastRateCoordinator) n s minQuietMs w, c.confirmedQuietWindow n s minQuietMs = .ok (some w) →
        ∃ start, c.start = some start ∧ ∀ k : CounterKind, k.ofPair start = k.ofPair ⟨n, s⟩ ∧ k.ofWindow w = 0) ∧
      (∀ (c : FastRateCoordinator) n s w, (c.finish n s).1 = .ok w → ∃ start, c.start = some start ∧
        (∀ k : CounterKind, k.ofPair start + k.ofWindow w = k.ofPair ⟨n, s⟩) ∧ 0 < w.durationMs ∧
        (0 < w.nBytes → (0 < w.nWindowMs ↔
          effectiveProgressMs start.n < effectiveProgressMs n ∨ start.n.readEndMs < n.readEndMs)) ∧
        (0 < w.sBytes → (0 < w.sWindowMs ↔
          effectiveProgressMs start.s < effectiveProgressMs s ∨ start.s.readEndMs < s.readEndMs))) ∧
      (∀ (c : FastRateCoordinator) n s, (c.finish n s).2.start = none) ∧
      ∀ (c : FastRateCoordinator) n s minQuietMs, c.start = none →
        (c.finish n s).1 = .error .timeDidNotAdvance ∧ c.confirmedQuietWindow n s minQuietMs = .ok none := by
  refine ⟨fun k => ?_, fun h => stretches_length maxSkewMs _ h none, observePairs_duration ps _, ?_, ?_, ?_, ?_⟩
  · have hin : InStretch (.new maxSkewMs) none := ⟨rfl, fun _ h => by cases h⟩
    obtain ⟨hle, hsum⟩ := observePairs_telescope k ps hin
    refine ⟨hle, ?_⟩
    rw [show (FastRateCoordinator.new maxSkewMs).maxReadEndSkewMs = maxSkewMs from rfl] at hsum
    rw [hsum]
    exact (Nat.zero_add _).symm
  · intro c n s minQuietMs w h
    obtain ⟨start, hs, -, hk⟩ := confirmedQuietWindow_some h
    exact ⟨start, hs, hk⟩
  · intro c n s w h
    obtain ⟨start, hs, hw⟩ := finish_ok h
    refine ⟨start, hs, hw.counts, hw.duration, fun _ => ?_, fun _ => ?_⟩
    · rw [hw.nWindow, elapsedOrProgress_pos]
    · rw [hw.sWindow, elapsedOrProgress_pos]
  · exact fun _ _ _ => finish_start
  · intro c n s minQuietMs h
    exact ⟨by rw [finish_none h], by rw [FastRateCoordinator.confirmedQuietWindow, h]⟩

def fastSample (sampleMs progressMs readEndMs bytes : ℕ) : FastCounterSample where
  sampleMs := sampleMs
  progressMs := progressMs
  sourcePresent := true
  readBeginMs := readEndMs
  readEndMs := readEndMs
  attachmentGeneration := 0
  resetGeneration := 1
  bytes := bytes
  packets := bytes

/-- FastN counts 100 bytes more at the same progress and read clock, FastS makes progress. -/
theorem fastN_counts_without_window :
    (observePairs (.new 250) [⟨fastSample 1000 1000 1010 100, fastSample 1000 1000 1010 50⟩,
      ⟨fastSample 2000 1000 1010 200, fastSample 2000 2000 1010 50⟩]).1.map Prod.snd =
        [.began, .closed ⟨1000, 2000, 0, 100, 100, 0, 0, 0, 1000⟩] ∧
      ¬ ∀ ps, ∀ o ∈ (observePairs (.new 250) ps).1, ∀ w ∈ o.2.window, 0 < w.nBytes → 0 < w.nWindowMs := by
  have hrun : (observePairs (.new 250) [⟨fastSample 1000 1000 1010 100, fastSample 1000 1000 1010 50⟩,
      ⟨fastSample 2000 1000 1010 200, fastSample 2000 2000 1010 50⟩]).1.map Prod.snd =
      [.began, .closed ⟨1000, 2000, 0, 100, 100, 0, 0, 0, 1000⟩] := by decide
  refine ⟨hrun, fun h => ?_⟩
  obtain ⟨o, ho, hclosed⟩ := List.mem_map.1 (hrun ▸ List.mem_cons_of_mem _ (List.mem_singleton_self _))
  have := h _ o ho ⟨1000, 2000, 0, 100, 100, 0, 0, 0, 1000⟩ (by rw [hclosed]; rfl) (by decide)
  exact absurd this (by decide)

end Lanspeedd
