import DOpenWrt.Lib.Run
import DOpenWrt.Lanspeedd.EdgeRuntime
import DOpenWrt.Lanspeedd.TopologyRun

/-!
# The ledgers over runs

The samples that an attachment direction is offered, and how the book and the history follow them: a history is the list of
deltas between the last samples offered, each of which continues the one before (`LedgersOk`).
-/

namespace Lanspeedd

/-! ### Deltas of a list of samples -/

/-- The second sample goes on from the first. -/
structure Continues (previous current : CumulativeCounterSample) : Prop where
  read_previous : previous.readBeginMs ≤ previous.readEndMs
  read_current : current.readBeginMs ≤ current.readEndMs
  generation_eq : current.attachmentGeneration = previous.attachmentGeneration
  source_eq : current.source = previous.source
  direction_eq : current.direction = previous.direction
  byteDomain_eq : current.byteDomain = previous.byteDomain
  time_lt : previous.sampleMs < current.sampleMs
  bytes_le : previous.bytes ≤ current.bytes
  packets_le : previous.packets ≤ current.packets

/-- The deltas between neighbours. -/
def segmentsOf (chain : List CumulativeCounterSample) : List CounterSegment :=
  List.zipWith segmentBetween chain chain.tail

section Segments

variable {chain : List CumulativeCounterSample} {a b : CumulativeCounterSample}

@[simp] theorem segmentsOf_singleton (a : CumulativeCounterSample) : segmentsOf [a] = [] := rfl

@[simp] theorem segmentsOf_cons_cons (a b : CumulativeCounterSample) (chain : List CumulativeCounterSample) :
    segmentsOf (a :: b :: chain) = segmentBetween a b :: segmentsOf (b :: chain) := rfl

@[simp] theorem length_segmentsOf (chain : List CumulativeCounterSample) :
    (segmentsOf chain).length = chain.length - 1 := by
  rw [segmentsOf, List.length_zipWith, List.length_tail]
  omega

theorem segmentsOf_concat (chain : List CumulativeCounterSample) (a b : CumulativeCounterSample) :
    segmentsOf (chain ++ [a] ++ [b]) = segmentsOf (chain ++ [a]) ++ [segmentBetween a b] := by
  induction chain with
  | nil => rfl
  | cons c chain ih =>
    cases chain with
    | nil => rfl
    | cons d chain =>
      simp only [List.cons_append, segmentsOf_cons_cons] at ih ⊢
      rw [ih]

theorem drop_segmentsOf (n : ℕ) (chain : List CumulativeCounterSample) :
    (segmentsOf chain).drop n = segmentsOf (chain.drop n) := by
  rw [segmentsOf, segmentsOf, List.drop_zipWith, List.tail_drop, List.drop_tail]

theorem take_segmentsOf (n : ℕ) (chain : List CumulativeCounterSample) :
    (segmentsOf chain).take n = segmentsOf (chain.take (n + 1)) := by
  induction chain generalizing n with
  | nil => simp [segmentsOf]
  | cons a chain ih =>
    cases chain with
    | nil => simp
    | cons b chain =>
      cases n with
      | zero => simp
      | succ n => simp only [segmentsOf_cons_cons, List.take_succ_cons, ih]

/-- The deltas of a chain add up to the growth from its first to its last sample. -/
theorem sum_segmentsOf {f : CumulativeCounterSample → ℕ} {g : CounterSegment → ℕ}
    (hfg : ∀ a b, g (segmentBetween a b) = f b - f a) (h : (a :: chain).IsChain Continues)
    (hle : ∀ a b, Continues a b → f a ≤ f b) :
    f a ≤ f ((a :: chain).getLast (List.cons_ne_nil a chain)) ∧
      ((segmentsOf (a :: chain)).map g).sum = f ((a :: chain).getLast (List.cons_ne_nil a chain)) - f a := by
  induction chain generalizing a with
  | nil => simp
  | cons b chain ih =>
    rw [List.isChain_cons_cons] at h
    obtain ⟨h₁, h₂⟩ := ih h.2
    have hab := hle a b h.1
    rw [segmentsOf_cons_cons, List.map_cons, List.sum_cons, h₂, hfg, List.getLast_cons_cons]
    omega

end Segments

/-! ### Samples offered -/

def edgeSource : AttachmentKind → RateSource
  | .wifi => .edgeWifi
  | .ethernet => .edgePort

namespace AccessEdgeRuntime

variable (runtime : AccessEdgeRuntime)

/-- What a sample of a key does to the ledgers. -/
def record (key : AttachmentKey) (current : CumulativeCounterSample) : AccessEdgeRuntime :=
  match (runtime.rates.update (key, current.source, current.direction) current).2 with
  | .warmup => { runtime with rates := (runtime.rates.update (key, current.source, current.direction) current).1 }
  | .reset _ =>
    { runtime with
      rates := (runtime.rates.update (key, current.source, current.direction) current).1
      histories := Function.update runtime.histories (key, current.direction) [] }
  | .segment segment =>
    { runtime with
      rates := (runtime.rates.update (key, current.source, current.direction) current).1
      histories := Function.update runtime.histories (key, current.direction)
        ((runtime.histories (key, current.direction) ++ [segment]).drop
          ((runtime.histories (key, current.direction) ++ [segment]).length - edgeHistorySegments)) }

/-- The samples of both directions of an attachment. -/
def samplesOf (epochId : ℕ) (attachment : Attachment) (counters : LinkCounters) (readTimes : ℕ × ℕ × ℕ)
    (source : RateSource) (byteDomain : ByteDomain) : List CumulativeCounterSample :=
  [Direction.tx, .rx].map fun direction => .fromLink epochId readTimes.2.2 readTimes.1 readTimes.2.1 source direction
    counters attachment.generation byteDomain (readTimes.2.1 - readTimes.1)

/-- The samples that an attachment is offered by `update_rates`. -/
def clientSamples (epochId : ℕ) (stations : Option StationCounterSnapshot) (counters : String → Option LinkCounters)
    (readTimes : ℕ × ℕ × ℕ) (attachment : Attachment) : List CumulativeCounterSample :=
  match attachment.point.kind with
  | .wifi =>
    match stationOf stations attachment with
    | some (snapshot, station) => samplesOf epochId attachment station.counters
        (snapshot.readBeginMs, snapshot.readEndMs, snapshot.readEndMs) .edgeWifi .stationData
    | none => []
  | .ethernet =>
    match counters attachment.point.ifname with
    | some value =>
      if !attachment.ambiguous && attachment.trust ≠ .shared && attachment.trust ≠ .unknown then
        samplesOf epochId attachment value readTimes .edgePort .l2NoFcs
      else []
    | none => []

/-- All samples that `update_rates` offers, in order. -/
def offers (counters : String → Option LinkCounters) (readTimes : ℕ × ℕ × ℕ) :
    List (AttachmentKey × CumulativeCounterSample) :=
  runtime.topology.active.flatMap fun attachment =>
    (clientSamples (saturatingAdd runtime.epochId 1) (if runtime.wifiFresh then runtime.latestWifi else none) counters
      readTimes attachment).map fun sample => (attachment.key, sample)

variable {runtime} {attachment : Attachment} {direction : Direction} {counters : LinkCounters} {readTimes : ℕ × ℕ × ℕ}
  {source : RateSource} {byteDomain : ByteDomain} {coverage : Coverage} {scope : TrafficScope}

theorem updateDirection_fst :
    (runtime.updateDirection attachment direction counters readTimes source byteDomain coverage scope).1 =
      runtime.record attachment.key (.fromLink runtime.epochId readTimes.2.2 readTimes.1 readTimes.2.1 source direction
        counters attachment.generation byteDomain (readTimes.2.1 - readTimes.1)) := by
  simp only [updateDirection, record, CumulativeCounterSample.fromLink]
  cases (runtime.rates.update (attachment.key, source, direction) _).2 <;> rfl

@[simp] theorem record_epochId (key : AttachmentKey) (current : CumulativeCounterSample) :
    (runtime.record key current).epochId = runtime.epochId := by
  rw [record]
  split <;> rfl

@[simp] theorem record_topology (key : AttachmentKey) (current : CumulativeCounterSample) :
    (runtime.record key current).topology = runtime.topology := by
  rw [record]
  split <;> rfl

theorem updateDirections_fst :
    (runtime.updateDirections attachment counters readTimes source byteDomain coverage scope).1 =
      (samplesOf runtime.epochId attachment counters readTimes source byteDomain).foldl
        (fun runtime sample => runtime.record attachment.key sample) runtime := by
  simp only [updateDirections, updateDirection_fst, samplesOf, List.map_cons, List.map_nil, List.foldl_cons,
    List.foldl_nil, record_epochId]

theorem updateClient_fst (stations : Option StationCounterSnapshot) (counters : String → Option LinkCounters) :
    (runtime.updateClient stations counters readTimes attachment).1 =
      (clientSamples runtime.epochId stations counters readTimes attachment).foldl
        (fun runtime sample => runtime.record attachment.key sample) runtime := by
  rw [updateClient, clientSamples]
  cases attachment.point.kind with
  | wifi =>
    simp only [updateStation]
    cases stationOf stations attachment with
    | none => rfl
    | some found =>
      simp only [apply_ite Prod.fst, ite_self]
      exact updateDirections_fst
  | ethernet =>
    simp only [updatePort]
    cases counters attachment.point.ifname with
    | none => rfl
    | some value =>
      simp only
      split
      · exact updateDirections_fst
      · rfl

/-- `update_rates` records its offers, and changes the ledgers in no other way. -/
theorem updateRates_ledgers (runtime : AccessEdgeRuntime) (counters : String → Option LinkCounters)
    (readBeginMs readEndMs sampleMs : ℕ) :
    ∃ recorded : AccessEdgeRuntime,
      recorded = (runtime.offers counters (readBeginMs, readEndMs, sampleMs)).foldl
        (fun runtime offer => runtime.record offer.1 offer.2)
        { runtime with epochId := saturatingAdd runtime.epochId 1 } ∧
      (runtime.updateRates counters readBeginMs readEndMs sampleMs).topology = recorded.topology ∧
      (runtime.updateRates counters readBeginMs readEndMs sampleMs).rates = recorded.rates ∧
      (runtime.updateRates counters readBeginMs readEndMs sampleMs).histories = recorded.histories := by
  have hfold : ∀ (stations : Option StationCounterSnapshot) (active : List Attachment) (start : AccessEdgeRuntime)
      (clients : List EdgeClientObservation),
      (active.foldl (fun (state : AccessEdgeRuntime × List EdgeClientObservation) attachment =>
          ((state.1.updateClient stations counters (readBeginMs, readEndMs, sampleMs) attachment).1,
            state.2 ++ [⟨attachment,
              (state.1.updateClient stations counters (readBeginMs, readEndMs, sampleMs) attachment).2.1,
              (state.1.updateClient stations counters (readBeginMs, readEndMs, sampleMs) attachment).2.2⟩]))
        (start, clients)).1 =
      (active.flatMap fun attachment => (clientSamples start.epochId stations counters
        (readBeginMs, readEndMs, sampleMs) attachment).map fun sample => (attachment.key, sample)).foldl
          (fun runtime offer => runtime.record offer.1 offer.2) start := by
    intro stations active
    induction active with
    | nil => exact fun _ _ => rfl
    | cons attachment active ih =>
      intro start clients
      have hepoch : ∀ (samples : List CumulativeCounterSample) (rt : AccessEdgeRuntime),
          (samples.foldl (fun runtime sample => runtime.record attachment.key sample) rt).epochId = rt.epochId := by
        intro samples
        induction samples with
        | nil => exact fun _ => rfl
        | cons sample samples ih =>
          intro rt
          rw [List.foldl_cons, ih, record_epochId]
      rw [List.foldl_cons, ih, List.flatMap_cons, List.foldl_append, List.foldl_map, updateClient_fst, hepoch]
  have h := hfold (if runtime.wifiFresh then runtime.latestWifi else none) runtime.topology.active
    { runtime with epochId := saturatingAdd runtime.epochId 1 } []
  have htopology := congrArg AccessEdgeRuntime.topology h
  have hrates := congrArg AccessEdgeRuntime.rates h
  have hhistories := congrArg AccessEdgeRuntime.histories h
  exact ⟨_, rfl, htopology, hrates, hhistories⟩

theorem mem_offers {counters : String → Option LinkCounters} {offer : AttachmentKey × CumulativeCounterSample}
    (h : offer ∈ runtime.offers counters readTimes) :
    ∃ attachment ∈ runtime.topology.active, attachment.key = offer.1 ∧
      edgeSource attachment.point.kind = offer.2.source := by
  obtain ⟨attachment, hmem, h⟩ := List.mem_flatMap.1 h
  obtain ⟨sample, hs, rfl⟩ := List.mem_map.1 h
  refine ⟨attachment, hmem, rfl, ?_⟩
  have hsource : ∀ {epochId : ℕ} {counters : LinkCounters} {readTimes : ℕ × ℕ × ℕ} {source : RateSource}
      {byteDomain : ByteDomain}, sample ∈ samplesOf epochId attachment counters readTimes source byteDomain →
        source = sample.source := by
    intro epochId counters readTimes source byteDomain h
    obtain ⟨direction, -, rfl⟩ := List.mem_map.1 h
    rfl
  rw [clientSamples] at hs
  cases hk : attachment.point.kind with
  | wifi =>
    rw [hk] at hs
    simp only at hs
    split at hs
    · exact hsource hs
    · cases hs
  | ethernet =>
    rw [hk] at hs
    simp only at hs
    split at hs
    · split at hs
      · exact hsource hs
      · cases hs
    · cases hs

/-! ### The invariant -/

/-- The samples offered so far, of each key and direction. -/
abbrev SampleLog := AttachmentKey × Direction → List CumulativeCounterSample

def logSample (samples : SampleLog) (offer : AttachmentKey × CumulativeCounterSample) : SampleLog :=
  Function.update samples (offer.1, offer.2.direction) (samples (offer.1, offer.2.direction) ++ [offer.2])

/-- The history holds the deltas of the last samples offered, the last of which is the baseline. -/
def Follows (runtime : AccessEdgeRuntime) (samples : SampleLog) (key : AttachmentKey) (direction : Direction) : Prop :=
  ∃ early chain last, samples (key, direction) = early ++ (chain ++ [last]) ∧ (chain ++ [last]).IsChain Continues ∧
    runtime.histories (key, direction) = segmentsOf (chain ++ [last]) ∧
    runtime.rates.previous (key, last.source, direction) = some last ∧
    chain.length ≤ edgeHistorySegments

structure LedgersOk (runtime : AccessEdgeRuntime) (samples : SampleLog) : Prop where
  /-- A baseline is the last sample offered to an active attachment of its source. -/
  baseline : ∀ key source direction sample, runtime.rates.previous (key, source, direction) = some sample →
    sample.source = source ∧ sample.direction = direction ∧ sample.readBeginMs ≤ sample.readEndMs ∧
      (∃ early, samples (key, direction) = early ++ [sample]) ∧
      ∃ attachment ∈ runtime.topology.active, attachment.key = key ∧ edgeSource attachment.point.kind = source
  history : ∀ key direction, runtime.histories (key, direction) = [] ∨ Follows runtime samples key direction

theorem eq_of_key_eq {a b : Attachment} (ha : a ∈ runtime.topology.active) (hb : b ∈ runtime.topology.active)
    (h : a.key = b.key) : a = b :=
  List.inj_on_of_nodup_map (runtime.topology.sorted.imp ne_of_lt) ha hb h

/-! ### One sample -/

/-- What the book answers to a sample. -/
theorem update_cases {K : Type*} [DecidableEq K] (book : CounterRateBook K) (key : K)
    (current : CumulativeCounterSample) :
    (current.readEndMs < current.readBeginMs ∧ (book.update key current).1 = book.remove key ∧
        ∃ reason, (book.update key current).2 = .reset reason) ∨
      (current.readBeginMs ≤ current.readEndMs ∧ (book.update key current).1 = book.insert key current ∧
        ((book.previous key = none ∧ (book.update key current).2 = .warmup) ∨
          (∃ reason, (book.update key current).2 = .reset reason) ∨
          ∃ previous, book.previous key = some previous ∧
            (previous.readBeginMs ≤ previous.readEndMs → Continues previous current) ∧
            (book.update key current).2 = .segment (segmentBetween previous current))) := by
  rw [CounterRateBook.update]
  split
  next hread => exact Or.inl ⟨hread, rfl, _, rfl⟩
  next hread =>
    refine Or.inr ⟨not_lt.1 hread, rfl, ?_⟩
    cases hp : book.previous key with
    | none => exact Or.inl ⟨rfl, rfl⟩
    | some previous =>
      right
      simp only
      split
      next => exact Or.inl ⟨_, rfl⟩
      next hgen =>
        split
        next => exact Or.inl ⟨_, rfl⟩
        next hsem =>
          split
          next => exact Or.inl ⟨_, rfl⟩
          next htime =>
            split
            next => exact Or.inl ⟨_, rfl⟩
            next hdec =>
              push Not at hgen hsem htime hdec
              exact Or.inr ⟨previous, rfl, fun hprev => ⟨hprev, not_lt.1 hread, hgen, hsem.1, hsem.2.1, hsem.2.2, htime,
                hdec.1, hdec.2⟩, rfl⟩

variable {samples : SampleLog} {key : AttachmentKey} {current : CumulativeCounterSample}

theorem record_rates : (runtime.record key current).rates =
    (runtime.rates.update (key, current.source, current.direction) current).1 := by
  rw [record]
  split <;> rfl

/-- A sample changes the history of its own key and direction only. -/
theorem record_histories_of_ne {k : AttachmentKey} {d : Direction} (h : (k, d) ≠ (key, current.direction)) :
    (runtime.record key current).histories (k, d) = runtime.histories (k, d) := by
  rw [record]
  split
  · rfl
  · exact Function.update_of_ne h _ _
  · exact Function.update_of_ne h _ _

theorem record_previous_of_ne {k : AttachmentKey} {s : RateSource} {d : Direction}
    (h : (k, s, d) ≠ (key, current.source, current.direction)) :
    (runtime.record key current).rates.previous (k, s, d) = runtime.rates.previous (k, s, d) := by
  rw [record_rates]
  rcases update_cases runtime.rates (key, current.source, current.direction) current with ⟨-, heq, -⟩ | ⟨-, heq, -⟩
  · rw [heq]
    exact Function.update_of_ne h _ _
  · rw [heq]
    exact Function.update_of_ne h _ _

theorem baseline_ne {k key : AttachmentKey} {s source : RateSource} {d direction : Direction}
    (h : (k, d) ≠ (key, direction)) : (k, s, d) ≠ (key, source, direction) := by
  intro he
  obtain ⟨hk, hsd⟩ := Prod.mk.inj he
  exact h (by rw [hk, (Prod.mk.inj hsd).2])

/-- The only baselines of an active key are those of its own source. -/
theorem LedgersOk.source_eq (h : LedgersOk runtime samples) (ha : attachment ∈ runtime.topology.active)
    {s : RateSource} {sample : CumulativeCounterSample}
    (hp : runtime.rates.previous (attachment.key, s, direction) = some sample) :
    s = edgeSource attachment.point.kind := by
  obtain ⟨-, -, -, -, b, hb, hk, hs⟩ := h.baseline _ _ _ _ hp
  rw [eq_of_key_eq hb ha hk] at hs
  exact hs.symm

/-- A history that does not end with a baseline of the source is empty. -/
theorem LedgersOk.history_of_baseline (h : LedgersOk runtime samples) (ha : attachment ∈ runtime.topology.active)
    (hsource : edgeSource attachment.point.kind = source) (direction : Direction) :
    runtime.histories (attachment.key, direction) = [] ∨
      ∃ early chain last, samples (attachment.key, direction) = early ++ (chain ++ [last]) ∧
        (chain ++ [last]).IsChain Continues ∧
        runtime.histories (attachment.key, direction) = segmentsOf (chain ++ [last]) ∧
        runtime.rates.previous (attachment.key, source, direction) = some last ∧
        chain.length ≤ edgeHistorySegments := by
  rcases h.history attachment.key direction with hnil | ⟨early, chain, last, hs, hc, hh, hl, hlen⟩
  · exact Or.inl hnil
  · refine Or.inr ⟨early, chain, last, hs, hc, hh, ?_, hlen⟩
    rwa [h.source_eq ha hl, hsource] at hl

theorem isChain_concat {chain : List CumulativeCounterSample} {last : CumulativeCounterSample}
    (h : (chain ++ [last]).IsChain Continues) (hc : Continues last current) :
    (chain ++ [last] ++ [current]).IsChain Continues := by
  refine List.isChain_append.2 ⟨h, .singleton _, ?_⟩
  intro x hx y hy
  rw [List.getLast?_concat] at hx
  obtain rfl : last = x := Option.some.inj hx
  obtain rfl : current = y := Option.some.inj hy
  exact hc

/-- A segment at the end of a history, of which the oldest may go. -/
theorem follows_concat (early chain : List CumulativeCounterSample) {rt : AccessEdgeRuntime} {samples : SampleLog}
    {direction : Direction} (hs : samples (key, direction) = early ++ (chain ++ [current]))
    (hc : (chain ++ [current]).IsChain Continues)
    (hh : rt.histories (key, direction) = (segmentsOf (chain ++ [current])).drop
      ((segmentsOf (chain ++ [current])).length - edgeHistorySegments))
    (hp : rt.rates.previous (key, current.source, direction) = some current) :
    Follows rt samples key direction := by
  have hlen : (segmentsOf (chain ++ [current])).length = chain.length := by simp
  rw [hlen, drop_segmentsOf, List.drop_append_of_le_length (Nat.sub_le _ _)] at hh
  refine ⟨early ++ chain.take (chain.length - edgeHistorySegments), chain.drop (chain.length - edgeHistorySegments),
    current, ?_, ?_, hh, hp, ?_⟩
  · rw [hs, List.append_assoc early, ← List.append_assoc (chain.take _), List.take_append_drop]
  · rw [← List.drop_append_of_le_length (Nat.sub_le _ _)]
    exact hc.drop _
  · rw [List.length_drop]
    omega

/-- A sample offered to an active attachment of its source keeps the ledgers in step. -/
theorem LedgersOk.record (h : LedgersOk runtime samples) (ha : attachment ∈ runtime.topology.active)
    (hsource : edgeSource attachment.point.kind = current.source) :
    LedgersOk (runtime.record attachment.key current) (logSample samples (attachment.key, current)) := by
  have hlog : logSample samples (attachment.key, current) (attachment.key, current.direction) =
      samples (attachment.key, current.direction) ++ [current] := Function.update_self ..
  have hlogne : ∀ {k d}, (k, d) ≠ (attachment.key, current.direction) →
      logSample samples (attachment.key, current) (k, d) = samples (k, d) := fun hne => Function.update_of_ne hne _ _
  have hcases := update_cases runtime.rates (attachment.key, current.source, current.direction) current
  constructor
  · intro k s d sample hp
    rw [record_topology]
    by_cases hkey : (k, d) = (attachment.key, current.direction)
    · obtain ⟨rfl, rfl⟩ := Prod.mk.inj hkey
      by_cases hs : s = current.source
      · subst hs
        rw [record_rates] at hp
        rcases hcases with ⟨-, heq, -⟩ | ⟨hread, heq, -⟩
        · rw [heq, CounterRateBook.remove_self] at hp
          cases hp
        · rw [heq, CounterRateBook.insert_self] at hp
          obtain rfl : current = sample := Option.some.inj hp
          exact ⟨rfl, rfl, hread, ⟨_, hlog⟩, attachment, ha, rfl, hsource⟩
      · rw [record_previous_of_ne (fun he => hs (Prod.mk.inj (Prod.mk.inj he).2).1)] at hp
        exact absurd ((h.source_eq ha hp).trans hsource) hs
    · rw [record_previous_of_ne (baseline_ne hkey)] at hp
      rw [hlogne hkey]
      exact h.baseline k s d sample hp
  · intro k d
    by_cases hkey : (k, d) = (attachment.key, current.direction)
    · obtain ⟨rfl, rfl⟩ := Prod.mk.inj hkey
      have hhist := h.history_of_baseline ha hsource current.direction
      have hprev : current.readBeginMs ≤ current.readEndMs →
          (runtime.record attachment.key current).rates.previous (attachment.key, current.source, current.direction) =
            some current := by
        intro hread
        rw [record_rates]
        rcases hcases with ⟨hlt, -⟩ | ⟨-, heq, -⟩
        · omega
        · rw [heq, CounterRateBook.insert_self]
      rcases hcases with ⟨-, -, reason, hreset⟩ | ⟨hread, -, ⟨hnone, hwarm⟩ | ⟨reason, hreset⟩ | ⟨p, hp, hcont, hseg⟩⟩
      · left
        rw [AccessEdgeRuntime.record, hreset]
        exact Function.update_self ..
      · left
        rcases hhist with hnil | ⟨_, _, last, -, -, -, hl, -⟩
        · rw [AccessEdgeRuntime.record, hwarm]
          exact hnil
        · rw [hnone] at hl
          cases hl
      · left
        rw [AccessEdgeRuntime.record, hreset]
        exact Function.update_self ..
      · right
        obtain ⟨-, -, hpread, ⟨before, hbefore⟩, -⟩ := h.baseline _ _ _ _ hp
        have hnew : (runtime.record attachment.key current).histories (attachment.key, current.direction) =
            (runtime.histories (attachment.key, current.direction) ++ [segmentBetween p current]).drop
              ((runtime.histories (attachment.key, current.direction) ++ [segmentBetween p current]).length -
                edgeHistorySegments) := by
          rw [AccessEdgeRuntime.record, hseg]
          exact Function.update_self ..
        rcases hhist with hnil | ⟨early, chain, last, hs, hc, hh, hl, -⟩
        · refine follows_concat before [p] ?_ ?_ ?_ (hprev hread)
          · rw [hlog, hbefore, List.append_assoc]
          · exact List.isChain_pair.2 (hcont hpread)
          · rw [hnew, hnil]
            rfl
        · obtain rfl : p = last := Option.some.inj (hp.symm.trans hl)
          refine follows_concat early (chain ++ [p]) ?_ ?_ ?_ (hprev hread)
          · rw [hlog, hs, List.append_assoc]
          · exact isChain_concat hc (hcont hpread)
          · rw [hnew, hh, segmentsOf_concat]
    · rw [record_histories_of_ne hkey]
      rcases h.history k d with hnil | ⟨early, chain, last, hs, hc, hh, hl, hlen⟩
      · exact Or.inl hnil
      · refine Or.inr ⟨early, chain, last, by rw [hlogne hkey, hs], hc, by rw [record_histories_of_ne hkey, hh], ?_, hlen⟩
        rw [record_previous_of_ne (baseline_ne hkey)]
        exact hl

end AccessEdgeRuntime

end Lanspeedd
