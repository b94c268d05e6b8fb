import DOpenWrt.Lanspeedd.EdgeAggregate

/-!
# Runs of the Access Edge ledgers

Over any topology changes, rate updates and resets: the histories are the deltas of the last samples offered, and what is
aggregated over an interval is the growth between two of them (`edge_segments_tile`).
-/

namespace Lanspeedd

/-! ### Attachments that stay -/

theorem point_of_not_changed (previous : AttachmentKey → Option Attachment) (grouped : List AttachmentObservation)
    (last : ℕ) (keys : List AttachmentKey) : ∀ a ∈ (reconcileKeys previous grouped last keys).1,
      a.key ∈ (reconcileKeys previous grouped last keys).2.1 ∨
        ∃ old, previous a.key = some old ∧ old.point = a.point := by
  induction keys generalizing last with
  | nil => nofun
  | cons key keys ih =>
    rw [reconcileKeys]
    cases hv : sortedValues grouped key with
    | nil => exact ih last
    | cons selected values =>
      simp only
      obtain ⟨hrec, hk⟩ := reconcileKey_spec previous last hv
      generalize reconcileKey previous grouped last key selected (selected :: values) = r at hrec hk ⊢
      obtain ⟨b, isNew⟩ := r
      obtain rfl : b.key = key := hk
      intro a ha
      cases isNew with
      | true =>
        rcases List.mem_cons.1 ha with rfl | ha
        · exact Or.inl List.mem_cons_self
        · exact (ih _ a ha).imp_left (List.mem_cons_of_mem _)
      | false =>
        rcases List.mem_cons.1 ha with rfl | ha
        · obtain ⟨old, ⟨hprev, hpoint, -⟩, -⟩ := hrec.kept rfl
          exact Or.inr ⟨old, hprev, hpoint⟩
        · exact ih _ a ha

/-- An attachment whose key is neither removed nor changed keeps its point. -/
theorem TopologyTable.exists_same_point {table : TopologyTable} {observations : List AttachmentObservation}
    {complete : Bool} {old : Attachment} (hold : old ∈ table.active)
    (hkey : old.key ∉ (table.reconcile observations complete).2.removed ++
      (table.reconcile observations complete).2.changed) :
    ∃ a ∈ (table.reconcile observations complete).1.active, a.key = old.key ∧ a.point = old.point := by
  rw [List.mem_append, not_or] at hkey
  obtain ⟨hremoved, hchanged⟩ := hkey
  rw [TopologyTable.mem_removed, not_and] at hremoved
  have := hremoved ⟨old, hold, rfl⟩
  push Not at this
  obtain ⟨a, ha, hk⟩ := this
  refine ⟨a, ha, hk, ?_⟩
  rcases point_of_not_changed table.get _ _ _ a ha with h | ⟨old', hget, hpoint⟩
  · exact absurd (hk ▸ h) hchanged
  · obtain ⟨hmem, hk'⟩ := table.get_eq_some.1 hget
    have hinj : (table.active.map (·.key)).Nodup := table.sorted.imp ne_of_lt
    rw [← hpoint, List.inj_on_of_nodup_map hinj hmem hold (hk'.trans hk)]

namespace AccessEdgeRuntime

variable {runtime : AccessEdgeRuntime} {samples : SampleLog}

/-! ### Removing ledgers -/

theorem removeLedgers_previous (runtime : AccessEdgeRuntime) (key k : AttachmentKey) (s : RateSource) (d : Direction) :
    (runtime.removeLedgers key).rates.previous (k, s, d) =
      if k = key ∧ (s = .edgePort ∨ s = .edgeWifi) then none else runtime.rates.previous (k, s, d) := by
  simp only [removeLedgers, List.foldl_cons, List.foldl_nil, CounterRateBook.remove, Function.update_apply,
    Prod.mk.injEq]
  cases d <;> by_cases hk : k = key <;> cases s <;> simp [hk]

theorem removeLedgers_histories (runtime : AccessEdgeRuntime) (key k : AttachmentKey) (d : Direction) :
    (runtime.removeLedgers key).histories (k, d) = if k = key then [] else runtime.histories (k, d) := by
  simp only [removeLedgers, List.foldl_cons, List.foldl_nil, Function.update_apply, Prod.mk.injEq]
  cases d <;> by_cases hk : k = key <;> simp [hk]

theorem foldl_removeLedgers (keys : List AttachmentKey) (runtime : AccessEdgeRuntime) :
    (keys.foldl removeLedgers runtime).topology = runtime.topology ∧
      (∀ k s d, (keys.foldl removeLedgers runtime).rates.previous (k, s, d) =
        if k ∈ keys ∧ (s = .edgePort ∨ s = .edgeWifi) then none else runtime.rates.previous (k, s, d)) ∧
      ∀ k d, (keys.foldl removeLedgers runtime).histories (k, d) =
        if k ∈ keys then [] else runtime.histories (k, d) := by
  induction keys generalizing runtime with
  | nil => exact ⟨rfl, by simp, by simp⟩
  | cons key keys ih =>
    obtain ⟨h₁, h₂, h₃⟩ := ih (runtime.removeLedgers key)
    refine ⟨h₁, fun k s d => ?_, fun k d => ?_⟩
    · rw [List.foldl_cons, h₂, removeLedgers_previous]
      rcases eq_or_ne k key with rfl | hk
      · by_cases hs : s = .edgePort ∨ s = .edgeWifi <;> simp [hs]
      · simp [hk]
    · rw [List.foldl_cons, h₃, removeLedgers_histories]
      rcases eq_or_ne k key with rfl | hk
      · simp
      · simp [hk]

theorem edgeSource_edge (kind : AttachmentKind) : edgeSource kind = .edgePort ∨ edgeSource kind = .edgeWifi := by
  cases kind
  · exact Or.inl rfl
  · exact Or.inr rfl

theorem LedgersOk.collectTopology (h : LedgersOk runtime samples) (latestWifi : Option StationCounterSnapshot)
    (wifiFresh : Bool) (observations : List AttachmentObservation) (complete : Bool) :
    LedgersOk (runtime.collectTopology latestWifi wifiFresh observations complete) samples := by
  obtain ⟨htop, hprev, hhist⟩ := foldl_removeLedgers
    ((runtime.topology.reconcile observations complete).2.removed ++
      (runtime.topology.reconcile observations complete).2.changed)
    { runtime with topology := (runtime.topology.reconcile observations complete).1, latestWifi, wifiFresh }
  have hrt : runtime.collectTopology latestWifi wifiFresh observations complete =
      ((runtime.topology.reconcile observations complete).2.removed ++
        (runtime.topology.reconcile observations complete).2.changed).foldl removeLedgers
        { runtime with topology := (runtime.topology.reconcile observations complete).1, latestWifi, wifiFresh } := rfl
  rw [← hrt] at htop hprev hhist
  constructor
  · intro k s d sample hp
    rw [hprev] at hp
    split at hp
    next => cases hp
    next hkey =>
      obtain ⟨h₁, h₂, h₃, h₄, old, hold, rfl, hs⟩ := h.baseline k s d sample hp
      have hstay : old.key ∉ (runtime.topology.reconcile observations complete).2.removed ++
          (runtime.topology.reconcile observations complete).2.changed :=
        fun hmem => hkey ⟨hmem, hs ▸ edgeSource_edge old.point.kind⟩
      obtain ⟨a, ha, hak, hpoint⟩ := TopologyTable.exists_same_point hold hstay
      exact ⟨h₁, h₂, h₃, h₄, a, by rwa [htop], hak, by rw [hpoint]; exact hs⟩
  · intro k d
    rw [hhist]
    split
    next => exact Or.inl rfl
    next hkey =>
      rcases h.history k d with hnil | ⟨early, chain, last, hs, hc, hh, hl, hlen⟩
      · exact Or.inl hnil
      · refine Or.inr ⟨early, chain, last, hs, hc, by rw [hhist, if_neg hkey, hh], ?_, hlen⟩
        rw [hprev, if_neg fun hmem => hkey hmem.1]
        exact hl

/-! ### Runs -/

theorem ledgersOk_empty (hrates : runtime.rates = .new) (hhist : ∀ k d, runtime.histories (k, d) = []) :
    LedgersOk runtime samples := by
  refine ⟨fun k s d sample hp => ?_, fun k d => Or.inl (hhist k d)⟩
  rw [hrates] at hp
  cases hp

theorem LedgersOk.of_eq {other : AccessEdgeRuntime} (h : LedgersOk runtime samples)
    (htop : other.topology = runtime.topology) (hrates : other.rates = runtime.rates)
    (hhist : other.histories = runtime.histories) : LedgersOk other samples := by
  constructor
  · rw [hrates, htop]
    exact h.baseline
  · intro k d
    rw [hhist]
    rcases h.history k d with hnil | ⟨early, chain, last, hs, hc, hh, hl, hlen⟩
    · exact Or.inl hnil
    · exact Or.inr ⟨early, chain, last, hs, hc, by rw [hhist, hh], by rw [hrates, hl], hlen⟩

theorem LedgersOk.foldl_record (h : LedgersOk runtime samples) (offers : List (AttachmentKey × CumulativeCounterSample))
    (hoffers : ∀ offer ∈ offers, ∃ attachment ∈ runtime.topology.active, attachment.key = offer.1 ∧
      edgeSource attachment.point.kind = offer.2.source) :
    LedgersOk (offers.foldl (fun runtime offer => runtime.record offer.1 offer.2) runtime)
      (offers.foldl logSample samples) := by
  induction offers generalizing runtime samples with
  | nil => exact h
  | cons offer offers ih =>
    obtain ⟨attachment, ha, hk, hs⟩ := hoffers offer List.mem_cons_self
    have hstep := h.record ha hs
    rw [hk] at hstep
    refine ih hstep fun offer' hmem => ?_
    rw [record_topology]
    exact hoffers offer' (List.mem_cons_of_mem _ hmem)

end AccessEdgeRuntime

inductive EdgeOp
  | collectTopology (latestWifi : Option StationCounterSnapshot) (wifiFresh : Bool)
    (observations : List AttachmentObservation) (topologyComplete : Bool)
  | updateRates (counters : String → Option LinkCounters) (readBeginMs readEndMs sampleMs : ℕ)
  | resetForDisabledMode

/-- The runtime, and the samples offered so far. -/
structure EdgeRun where
  runtime : AccessEdgeRuntime
  samples : AccessEdgeRuntime.SampleLog

namespace EdgeRun

open AccessEdgeRuntime

def step (r : EdgeRun) : EdgeOp → EdgeRun
  | .collectTopology latestWifi wifiFresh observations complete =>
    { r with runtime := r.runtime.collectTopology latestWifi wifiFresh observations complete }
  | .updateRates counters readBeginMs readEndMs sampleMs =>
    ⟨r.runtime.updateRates counters readBeginMs readEndMs sampleMs,
      (r.runtime.offers counters (readBeginMs, readEndMs, sampleMs)).foldl logSample r.samples⟩
  | .resetForDisabledMode => { r with runtime := r.runtime.resetForDisabledMode }

def run (ops : List EdgeOp) : EdgeRun := ops.foldl step ⟨.new, fun _ => []⟩

theorem ledgersOk_step {r : EdgeRun} (h : LedgersOk r.runtime r.samples) (op : EdgeOp) :
    LedgersOk (r.step op).runtime (r.step op).samples := by
  cases op with
  | collectTopology latestWifi wifiFresh observations complete =>
    exact h.collectTopology latestWifi wifiFresh observations complete
  | updateRates counters readBeginMs readEndMs sampleMs =>
    obtain ⟨recorded, hrec, htop, hrates, hhist⟩ := updateRates_ledgers r.runtime counters readBeginMs readEndMs sampleMs
    have hstart : LedgersOk { r.runtime with epochId := saturatingAdd r.runtime.epochId 1 } r.samples :=
      h.of_eq rfl rfl rfl
    have hoffers : ∀ offer ∈ r.runtime.offers counters (readBeginMs, readEndMs, sampleMs),
        ∃ attachment ∈ r.runtime.topology.active, attachment.key = offer.1 ∧
          edgeSource attachment.point.kind = offer.2.source := fun offer hmem => mem_offers hmem
    have hfold := hstart.foldl_record _ hoffers
    rw [← hrec] at hfold
    exact hfold.of_eq htop hrates hhist
  | resetForDisabledMode => exact ledgersOk_empty rfl fun _ _ => rfl

theorem ledgersOk_run (ops : List EdgeOp) : LedgersOk (run ops).runtime (run ops).samples :=
  @Run.invariant _ _ _ _ (fun _ (r : EdgeRun) => LedgersOk r.runtime r.samples) (fun _ _ op h => ledgersOk_step h op)
    [] (ledgersOk_empty rfl fun _ _ => rfl) ops

/-- For any topology changes, rate updates and resets: each history is a chain of at most twelve deltas of the last
samples offered, and an aggregate of it is the growth between two of these samples. -/
theorem edge_segments_tile (ops : List EdgeOp) (key : AttachmentKey) (direction : Direction) :
    ((run ops).runtime.histories (key, direction)).length ≤ edgeHistorySegments ∧
      ((run ops).runtime.histories (key, direction)).IsChain (fun x y => x.endMs = y.startMs ∧ x.source = y.source ∧
        x.byteDomain = y.byteDomain ∧ x.attachmentGeneration = y.attachmentGeneration) ∧
      ∃ early chain, (run ops).samples (key, direction) = early ++ chain ∧ chain.IsChain Continues ∧
        (run ops).runtime.histories (key, direction) = segmentsOf chain ∧
        ∀ startMs endMs value, (run ops).runtime.aggregateEdge key direction startMs endMs = some value →
          ∃ first last, AggregateOf chain startMs endMs value first last := by
  have hok := ledgersOk_run ops
  have hchain : ∃ early chain, (run ops).samples (key, direction) = early ++ chain ∧ chain.IsChain Continues ∧
      (run ops).runtime.histories (key, direction) = segmentsOf chain ∧ chain.length ≤ edgeHistorySegments + 1 := by
    rcases hok.history key direction with hnil | ⟨early, chain, last, hs, hc, hh, -, hlen⟩
    · exact ⟨(run ops).samples (key, direction), [], (List.append_nil _).symm, .nil, hnil, Nat.zero_le _⟩
    · refine ⟨early, chain ++ [last], hs, hc, hh, ?_⟩
      rw [List.length_append, List.length_singleton]
      omega
  obtain ⟨early, chain, hs, hc, hh, hlen⟩ := hchain
  refine ⟨?_, ?_, early, chain, hs, hc, hh, fun startMs endMs value hv => ?_⟩
  · rw [hh, length_segmentsOf]
    omega
  · rw [hh]
    exact isChain_segmentsOf_same hc
  · rw [aggregateEdge, hh] at hv
    exact aggregateHistory_spec hc hv

end EdgeRun

end Lanspeedd
