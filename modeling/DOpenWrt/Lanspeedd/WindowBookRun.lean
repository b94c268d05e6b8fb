import DOpenWrt.Lib.Except
import DOpenWrt.Lib.KeyedGrowth
import DOpenWrt.Lib.Run
import DOpenWrt.Lanspeedd.WindowBook

/-!
# Runs of the window of the nodes

Since the last reset of the book, what is published of a client is what its nodes showed then and what their counters
have grown by since they were first seen; growth over more than a minute without an observation is lost.
-/

namespace Lanspeedd.RateWindow

open Std KeyedGrowth
open EcmNode (NodeSnapshot NodeCounters)

attribute [local instance] lexOrd

/-! ### Observations -/

/-- A snapshot shows a generation of an identity once. -/
structure WindowSample where
  nodes : NodeSnapshot
  lan : LanClock
  distinct : (nodes.nodes.map nodeKey).Nodup

/-- The nodes of a snapshot that was read are the entries of a map. -/
theorem nodup_of_parse {reader : Reader} {identities : List EcmNode.IdentityKey} {sampleMs : UInt64}
    {nodes : NodeSnapshot}
    (h : EcmNode.parse reader identities sampleMs = .ok nodes) : (nodes.nodes.map nodeKey).Nodup := by
  obtain ⟨s, -, h⟩ := Except.bind_eq_ok.1 h
  split at h
  · cases h
  · cases h
    rw [List.map_map]
    exact TreeTotal.distinct_keys s.aggregate

def WindowSample.ofParse {reader : Reader} {identities : List EcmNode.IdentityKey} {sampleMs : UInt64}
    {nodes : NodeSnapshot}
    (h : EcmNode.parse reader identities sampleMs = .ok nodes) (lan : LanClock) : WindowSample :=
  ⟨nodes, lan, nodup_of_parse h⟩

/-- When a node was seen, and with what counters. -/
abbrev Observation := UInt64 × TrafficCounters

def nodeEvent (sampleMs : UInt64) (node : NodeCounters) : NodeKey × Observation :=
  (nodeKey node, sampleMs, node.counters)

def WindowSample.events (sample : WindowSample) : List (NodeKey × Observation) :=
  sample.nodes.nodes.map (nodeEvent sample.nodes.sampleMs)

def eventsOf (samples : List WindowSample) : List (NodeKey × Observation) := samples.flatMap WindowSample.events

/-- The observation `before` is a baseline at `sampleMs`. -/
def Recent (sampleMs : UInt64) (before : Observation) : Prop :=
  sampleMs.toNat - before.1.toNat ≤ nodeBaselineRetentionMs

instance Recent.decidable (sampleMs : UInt64) (before : Observation) : Decidable (Recent sampleMs before) :=
  inferInstanceAs (Decidable (_ ≤ _))

/-- The bytes that a node gained from one observation to the next. -/
def nodeGain (receive : Bool) (before after : Observation) : ℕ :=
  if Recent after.1 before then after.2.wireBytes receive - before.2.wireBytes receive else 0

/-- The baseline of a key. -/
def baselineOf (sampleMs : UInt64) (events : List (NodeKey × Observation)) (key : NodeKey) : Option Observation :=
  (seen key events).getLast?.filter fun before => decide (Recent sampleMs before)

/-- The counters of `after` can follow those of the baseline: none fell, and the growth fits with its checksums. -/
def Follows (before : Observation) (after : TrafficCounters) : Prop :=
  ∃ delta, checkedDelta after before.2 = some delta ∧ delta.fcsNormalized.isSome

/-- What `baselines` are to a book that has seen `events` by `sampleMs`. -/
def Baselines (sampleMs : UInt64) (events : List (NodeKey × Observation)) (nodes : TreeMap NodeKey NodeBaseline) :
    Prop :=
  ∀ key, nodes[key]?.map (fun baseline => (baseline.lastSeenMs, baseline.counters)) = baselineOf sampleMs events key

theorem gainTo_eq (receive : Bool) (sampleMs : UInt64) (counters : TrafficCounters)
    (events : List (NodeKey × Observation))
    (key : NodeKey) : gainTo (nodeGain receive) (seen key events) (sampleMs, counters) =
      (baselineOf sampleMs events key).elim 0 fun before =>
        counters.wireBytes receive - before.2.wireBytes receive := by
  rw [gainTo, baselineOf]
  cases (seen key events).getLast? with
  | none => rfl
  | some before =>
    by_cases h : Recent sampleMs before
    · simp [nodeGain, Option.filter, h]
    · simp [nodeGain, Option.filter, h]

/-! ### The loop over the nodes -/

namespace NssWindowBook

/-- The books differ in their baselines and histories only. -/
structure SameShown (book book' : NssWindowBook) : Prop where
  totals : book'.committedTotals = book.committedTotals
  rates : book'.publishedRates = book.publishedRates
  coverage : book'.coverage = book.coverage
  initialized : book'.initialized = book.initialized

theorem SameShown.refl (book : NssWindowBook) : SameShown book book := ⟨rfl, rfl, rfl, rfl⟩

theorem SameShown.trans {book₁ book₂ book₃ : NssWindowBook} (h₁ : SameShown book₁ book₂) (h₂ : SameShown book₂ book₃) :
    SameShown book₁ book₃ where
  totals := h₂.totals.trans h₁.totals
  rates := h₂.rates.trans h₁.rates
  coverage := h₂.coverage.trans h₁.coverage
  initialized := h₂.initialized.trans h₁.initialized

/-- What `progress` leaves. -/
structure Progressed (book : NssWindowBook) (clientDelta : ClientDelta) (normalized : TrafficCounters)
    (result : NssWindowBook × ClientDelta) : Prop where
  shown : SameShown book result.1
  nodes : result.1.previousNodes = book.previousNodes
  raw : result.2.raw = clientDelta.raw
  normalized : result.2.normalized = addAssign clientDelta.normalized normalized
  progressed : result.2.progressed = true

theorem progress_spec (book : NssWindowBook) (key : NodeKey) (clientDelta : ClientDelta) (normalized : TrafficCounters)
    (startMs windowMs : UInt64) :
    Progressed book clientDelta normalized (book.progress key clientDelta normalized startMs windowMs) := by
  rw [progress]
  by_cases htx : normalized.txBytes ≠ 0
  · by_cases hrx : normalized.rxBytes ≠ 0
    · simp only [if_pos htx, if_pos hrx]
      exact ⟨⟨rfl, rfl, rfl, rfl⟩, rfl, rfl, rfl, rfl⟩
    · simp only [if_pos htx, if_neg hrx]
      exact ⟨⟨rfl, rfl, rfl, rfl⟩, rfl, rfl, rfl, rfl⟩
  · by_cases hrx : normalized.rxBytes ≠ 0
    · simp only [if_neg htx, if_pos hrx]
      exact ⟨⟨rfl, rfl, rfl, rfl⟩, rfl, rfl, rfl, rfl⟩
    · simp only [if_neg htx, if_neg hrx]
      exact ⟨⟨rfl, rfl, rfl, rfl⟩, rfl, rfl, rfl, rfl⟩

theorem hasTraffic_eq_false {delta : TrafficCounters} (h : hasTraffic delta = false) : delta = .zero := by
  simp only [hasTraffic, Bool.or_eq_false_iff, bne_eq_false_iff_eq] at h
  obtain ⟨⟨⟨htx, hrx⟩, htxp⟩, hrxp⟩ := h
  cases delta
  cases htx
  cases hrx
  cases htxp
  cases hrxp
  rfl

/-- What a delta of a node makes of the delta of its client. -/
structure Adds (old : ClientDelta) (delta : TrafficCounters) (new : ClientDelta) : Prop where
  bytes : ∀ receive, (new.normalized.bytes receive).toNat =
    min ((old.normalized.bytes receive).toNat + delta.wireBytes receive) (u64Limit - 1)
  progressed : new.progressed = (old.progressed || hasTraffic delta)

/-- The growth of a node since its baseline. -/
def nodeGrowth (book : NssWindowBook) (node : NodeCounters) : Option TrafficCounters :=
  book.previousNodes[nodeKey node]?.elim (some .zero) fun previous => checkedDelta node.counters previous.counters

/-- A successful pass of the loop. -/
structure Counted (sampleMs : UInt64) (node : NodeCounters) (state state' : NssWindowBook × ClientDeltas)
    (delta : TrafficCounters) : Prop where
  growth : state.1.nodeGrowth node = some delta
  fits : delta.fcsNormalized.isSome
  shown : SameShown state.1 state'.1
  nodes : ∃ progressMs, state'.1.previousNodes =
    state.1.previousNodes.insert (nodeKey node) ⟨node.counters, sampleMs, progressMs⟩
  clients : ∃ new, state'.2 = state.2.insert node.identityKey new ∧ Adds (state.2.getD node.identityKey {}) delta new

theorem nodeDelta_spec (sampleMs previousSampleMs : UInt64) (state : NssWindowBook × ClientDeltas)
    (node : NodeCounters) :
    (∃ delta state', nodeDelta sampleMs previousSampleMs state node = .ok state' ∧
      Counted sampleMs node state state' delta) ∨
    ((∃ e, nodeDelta sampleMs previousSampleMs state node = .error e) ∧
      ¬∃ delta, state.1.nodeGrowth node = some delta ∧ delta.fcsNormalized.isSome) := by
  obtain ⟨book, deltas⟩ := state
  cases hgrowth : book.nodeGrowth node with
  | none =>
    refine .inr ⟨⟨("ecm_node_counter_reset", book), ?_⟩, fun ⟨delta, h, _⟩ => by cases h⟩
    rw [nodeGrowth] at hgrowth
    simp only [nodeDelta, hgrowth]
  | some delta =>
    have hgrowth' := hgrowth
    rw [nodeGrowth] at hgrowth'
    cases htraffic : hasTraffic delta with
    | false =>
      obtain rfl := hasTraffic_eq_false htraffic
      refine .inl ⟨.zero, _, by simp only [nodeDelta, hgrowth', htraffic, Bool.false_eq_true, if_false]; rfl, ?_⟩
      refine ⟨hgrowth, rfl, ⟨rfl, rfl, rfl, rfl⟩, ⟨_, rfl⟩, _, rfl, fun receive => ?_, ?_⟩
      · cases receive
        · exact (Nat.min_eq_left (Nat.le_pred_of_lt (toNat_lt _))).symm
        · exact (Nat.min_eq_left (Nat.le_pred_of_lt (toNat_lt _))).symm
      · rw [htraffic, Bool.or_false]
        rfl
    | true =>
      cases hfcs : delta.fcsNormalized with
      | none =>
        refine .inr ⟨⟨("ecm_node_fcs_overflow", book), ?_⟩, fun ⟨delta', h, hsome⟩ => ?_⟩
        · simp only [nodeDelta, hgrowth', htraffic, if_true, hfcs]
        · obtain rfl := Option.some.inj h
          rw [hfcs] at hsome
          cases hsome
      | some normalized =>
        refine .inl ⟨delta, _, by simp only [nodeDelta, hgrowth', htraffic, if_true, hfcs]; rfl, ?_⟩
        have hspec := progress_spec book (nodeKey node)
          { deltas.getD node.identityKey {} with raw := addAssign (deltas.getD node.identityKey {}).raw delta }
          normalized
        refine ⟨hgrowth, hfcs ▸ rfl, ?_, ⟨sampleMs, ?_⟩, _, rfl, fun receive => ?_, ?_⟩
        · exact (hspec _ _).shown.trans ⟨rfl, rfl, rfl, rfl⟩
        · exact congrArg (fun nodes => TreeMap.insert nodes _ _) (hspec _ _).nodes
        · rw [(hspec _ _).normalized, addAssign_bytes, fcsNormalized_eq_some hfcs]
        · rw [(hspec _ _).progressed, htraffic, Bool.or_true]

end NssWindowBook

/-! ### The baselines -/

theorem recent_self (sampleMs : UInt64) (counters : TrafficCounters) : Recent sampleMs (sampleMs, counters) := by
  rw [Recent, Nat.sub_self]
  exact Nat.zero_le _

section Baselines

variable {sampleMs : UInt64} {events : List (NodeKey × Observation)}

theorem baselineOf_concat_self (key : NodeKey) (counters : TrafficCounters) :
    baselineOf sampleMs (events ++ [(key, sampleMs, counters)]) key = some (sampleMs, counters) := by
  rw [baselineOf, seen_concat_self, List.getLast?_concat, Option.filter_some, if_pos (decide_eq_true (recent_self ..))]

theorem Baselines.insert {nodes : TreeMap NodeKey NodeBaseline} (h : Baselines sampleMs events nodes)
    (node : NodeCounters)
    (progressMs : UInt64) : Baselines sampleMs (events ++ [nodeEvent sampleMs node])
      (nodes.insert (nodeKey node) ⟨node.counters, sampleMs, progressMs⟩) := by
  intro key
  by_cases hkey : nodeKey node = key
  · subst hkey
    rw [TreeMap.getElem?_insert_self, nodeEvent, baselineOf_concat_self]
    rfl
  · rw [TreeMap.getElem?_insert, if_neg fun heq => hkey (LawfulEqOrd.eq_of_compare heq), h key, baselineOf, baselineOf,
      nodeEvent, seen_concat_other hkey]

/-- A baseline goes when it gets too old; it was not too old before. -/
theorem Baselines.filter {nodes : TreeMap NodeKey NodeBaseline} {nextMs : UInt64} (h : Baselines sampleMs events nodes)
    (hle : sampleMs ≤ nextMs) : Baselines nextMs events (nodes.filter fun _ baseline => baseline.retained nextMs) := by
  intro key
  have hrecent (before : Observation) (hnext : Recent nextMs before) : Recent sampleMs before :=
    Nat.le_trans (Nat.sub_le_sub_right (UInt64.le_iff_toNat_le.1 hle) _) hnext
  have hkey := h key
  rw [TreeMap.getElem?_filter']
  rw [baselineOf] at hkey ⊢
  cases hbefore : (seen key events).getLast? with
  | none =>
    rw [hbefore] at hkey
    rw [Option.map_eq_none_iff.1 hkey]
    rfl
  | some before =>
    rw [hbefore, Option.filter_some] at hkey
    rw [Option.filter_some]
    by_cases hold : Recent sampleMs before
    · rw [if_pos (decide_eq_true hold)] at hkey
      obtain ⟨baseline, hbaseline, rfl⟩ := Option.map_eq_some_iff.1 hkey
      rw [hbaseline, Option.filter_some]
      by_cases hnext : Recent nextMs (baseline.lastSeenMs, baseline.counters)
      · have hretained : baseline.retained nextMs = true := decide_eq_true hnext
        rw [if_pos (decide_eq_true hnext), if_pos hretained]
        rfl
      · have hnot : baseline.retained nextMs = false := decide_eq_false hnext
        simp [hnot, hnext]
    · have hnext : ¬Recent nextMs before := fun hnext => hold (hrecent before hnext)
      rw [if_neg (by simpa using hold)] at hkey
      rw [Option.map_eq_none_iff.1 hkey]
      simp [hnext]

theorem Baselines.nodeGrowth_eq {book : NssWindowBook} (h : Baselines sampleMs events book.previousNodes)
    (node : NodeCounters) : book.nodeGrowth node =
      (baselineOf sampleMs events (nodeKey node)).elim (some .zero) fun before =>
        checkedDelta node.counters before.2 := by
  rw [NssWindowBook.nodeGrowth, ← h (nodeKey node)]
  cases book.previousNodes[nodeKey node]? with
  | none => rfl
  | some baseline => rfl

/-- The loop gets past a node whose counters follow its baseline. -/
theorem Baselines.fits_iff {book : NssWindowBook} (h : Baselines sampleMs events book.previousNodes)
    (node : NodeCounters) :
    (∃ delta, book.nodeGrowth node = some delta ∧ delta.fcsNormalized.isSome) ↔
      ∀ before, baselineOf sampleMs events (nodeKey node) = some before → Follows before node.counters := by
  rw [h.nodeGrowth_eq]
  cases baselineOf sampleMs events (nodeKey node) with
  | none => exact iff_of_true ⟨.zero, rfl, rfl⟩ fun before h => by cases h
  | some before =>
    refine ⟨fun hex before' h => ?_, fun hall => hall before rfl⟩
    cases h
    exact hex

theorem Baselines.gainTo_eq {book : NssWindowBook} (h : Baselines sampleMs events book.previousNodes)
    {node : NodeCounters}
    {delta : TrafficCounters} (hgrowth : book.nodeGrowth node = some delta) (receive : Bool) :
    gainTo (nodeGain receive) (seen (nodeKey node) events) (sampleMs, node.counters) = delta.wireBytes receive := by
  rw [h.nodeGrowth_eq] at hgrowth
  rw [RateWindow.gainTo_eq]
  cases hbefore : baselineOf sampleMs events (nodeKey node) with
  | none =>
    rw [hbefore] at hgrowth
    cases hgrowth
    cases receive <;> rfl
  | some before =>
    rw [hbefore] at hgrowth
    exact (wireBytes_checkedDelta hgrowth receive).symm

end Baselines

theorem checkedDelta_self (counters : TrafficCounters) : checkedDelta counters counters = some .zero := by
  have hself (a : UInt64) : checkedSub64 a a = some 0 := by rw [checkedSub64_eq_some]; simp
  rw [checkedDelta, hself, hself, hself, hself]
  rfl

/-- Traffic takes a baseline with other counters. -/
theorem Baselines.exists_baseline {sampleMs : UInt64} {events : List (NodeKey × Observation)} {book : NssWindowBook}
    (h : Baselines sampleMs events book.previousNodes) {node : NodeCounters} {delta : TrafficCounters}
    (hgrowth : book.nodeGrowth node = some delta) (htraffic : hasTraffic delta = true) :
    ∃ before, baselineOf sampleMs events (nodeKey node) = some before ∧ before.2 ≠ node.counters := by
  rw [h.nodeGrowth_eq] at hgrowth
  cases hbefore : baselineOf sampleMs events (nodeKey node) with
  | none =>
    rw [hbefore] at hgrowth
    cases hgrowth
    cases htraffic
  | some before =>
    rw [hbefore] at hgrowth
    refine ⟨before, rfl, fun heq => ?_⟩
    have hself : checkedDelta node.counters node.counters = some delta := heq ▸ hgrowth
    rw [checkedDelta_self] at hself
    cases hself
    cases htraffic

namespace NssWindowBook

/-! ### A snapshot -/

/-- The keys of an identity. -/
def ownKeys (identity : String) (keys : Finset NodeKey) : Finset NodeKey := keys.filter fun key => key.1 = identity

/-- What the nodes of an identity gained. -/
def gainedBytes (receive : Bool) (keys : Finset NodeKey) (identity : String)
    (events : List (NodeKey × Observation)) : ℕ :=
  totalGrowth (nodeGain receive) (ownKeys identity keys) events

/-- `node` is the first of the nodes behind `pre`, and its counters differ from the baseline. -/
def Grew (sampleMs : UInt64) (before : List (NodeKey × Observation)) (nodes : List NodeCounters) (identity : String) :
    Prop :=
  ∃ pre node behind, nodes = pre ++ node :: behind ∧ node.identityKey = identity ∧
    ∃ baseline, baselineOf sampleMs (before ++ pre.map (nodeEvent sampleMs)) (nodeKey node) = some baseline ∧
      baseline.2 ≠ node.counters

/-- The state of the loop after the nodes of `done`; the book has seen the events of `before` when it starts. -/
structure Looped (sampleMs : UInt64) (keys : Finset NodeKey) (before : List (NodeKey × Observation))
    (start : NssWindowBook) (done : List NodeCounters) (state : NssWindowBook × ClientDeltas) : Prop where
  baselines : Baselines sampleMs (before ++ done.map (nodeEvent sampleMs)) state.1.previousNodes
  shown : SameShown start state.1
  clients : ∀ identity receive, ∃ gained,
    gainedBytes receive keys identity (before ++ done.map (nodeEvent sampleMs)) =
      gainedBytes receive keys identity before + gained ∧
    ((state.2.getD identity {}).normalized.bytes receive).toNat = min gained (u64Limit - 1) ∧
    ((state.2.getD identity {}).progressed = false → gained = 0)
  grew : ∀ identity, (state.2.getD identity {}).progressed = true → Grew sampleMs before done identity

section Looped

variable {sampleMs previousSampleMs : UInt64} {keys : Finset NodeKey} {before : List (NodeKey × Observation)}
  {start : NssWindowBook} {done : List NodeCounters} {state state' : NssWindowBook × ClientDeltas} {node : NodeCounters}

theorem gainedBytes_concat (receive : Bool) (identity : String) (hkey : nodeKey node ∈ keys)
    (events : List (NodeKey × Observation)) :
    gainedBytes receive keys identity (events ++ [nodeEvent sampleMs node]) = gainedBytes receive keys identity events +
      if node.identityKey = identity then
        gainTo (nodeGain receive) (seen (nodeKey node) events) (sampleMs, node.counters) else 0 := by
  rw [gainedBytes, gainedBytes, nodeEvent]
  split
  · rename_i hidentity
    exact totalGrowth_concat_mem (Finset.mem_filter.2 ⟨hkey, hidentity⟩) ..
  · rename_i hidentity
    have hother : nodeKey node ∉ ownKeys identity keys := fun hmem => hidentity (Finset.mem_filter.1 hmem).2
    exact totalGrowth_concat_not_mem hother ..

theorem Grew.concat {identity : String} (h : Grew sampleMs before done identity) :
    Grew sampleMs before (done ++ [node]) identity := by
  obtain ⟨pre, grown, behind, rfl, hidentity, hbaseline⟩ := h
  exact ⟨pre, grown, behind ++ [node], by rw [List.append_assoc]; rfl, hidentity, hbaseline⟩

theorem events_concat (before : List (NodeKey × Observation)) (done : List NodeCounters) (node : NodeCounters) :
    before ++ (done ++ [node]).map (nodeEvent sampleMs) =
      before ++ done.map (nodeEvent sampleMs) ++ [nodeEvent sampleMs node] := by
  rw [List.map_append, List.append_assoc]
  rfl

theorem exists_counted (hrun : nodeDelta sampleMs previousSampleMs state node = .ok state') :
    ∃ delta, Counted sampleMs node state state' delta := by
  rcases nodeDelta_spec sampleMs previousSampleMs state node with ⟨delta, state'', hok, hcounted⟩ | ⟨⟨e, herror⟩, -⟩
  · obtain rfl : state'' = state' := Except.ok.inj (hok.symm.trans hrun)
    exact ⟨delta, hcounted⟩
  · rw [herror] at hrun
    cases hrun

theorem baselines_step (h : Baselines sampleMs (before ++ done.map (nodeEvent sampleMs)) state.1.previousNodes)
    (hrun : nodeDelta sampleMs previousSampleMs state node = .ok state') :
    Baselines sampleMs (before ++ (done ++ [node]).map (nodeEvent sampleMs)) state'.1.previousNodes := by
  obtain ⟨delta, hcounted⟩ := exists_counted hrun
  obtain ⟨progressMs, hnodes⟩ := hcounted.nodes
  rw [events_concat, hnodes]
  exact h.insert node progressMs

theorem Looped.step (h : Looped sampleMs keys before start done state) (hkey : nodeKey node ∈ keys)
    (hrun : nodeDelta sampleMs previousSampleMs state node = .ok state') :
    Looped sampleMs keys before start (done ++ [node]) state' := by
  obtain ⟨delta, hcounted⟩ := exists_counted hrun
  obtain ⟨new, hclients, hadds⟩ := hcounted.clients
  refine ⟨baselines_step h.baselines hrun, h.shown.trans hcounted.shown, fun identity receive => ?_,
    fun identity hprogressed => ?_⟩
  · obtain ⟨gained, htotal, hbytes, hzero⟩ := h.clients identity receive
    rw [events_concat, gainedBytes_concat receive identity hkey, htotal, h.baselines.gainTo_eq hcounted.growth,
      hclients]
    by_cases hidentity : node.identityKey = identity
    · subst hidentity
      refine ⟨gained + delta.wireBytes receive, by rw [if_pos rfl, Nat.add_assoc], ?_, fun hfalse => ?_⟩
      · rw [TreeMap.getD_insert_self, hadds.bytes, hbytes]
        omega
      · rw [TreeMap.getD_insert_self, hadds.progressed, Bool.or_eq_false_iff] at hfalse
        rw [hzero hfalse.1, hasTraffic_eq_false hfalse.2]
        cases receive <;> rfl
    · have hne : ¬compare node.identityKey identity = .eq := fun heq => hidentity (LawfulEqOrd.eq_of_compare heq)
      rw [TreeMap.getD_insert, if_neg hne, if_neg hidentity]
      exact ⟨gained, rfl, hbytes, hzero⟩
  · rw [hclients] at hprogressed
    by_cases hidentity : node.identityKey = identity
    · subst hidentity
      rw [TreeMap.getD_insert_self, hadds.progressed, Bool.or_eq_true] at hprogressed
      rcases hprogressed with hold | htraffic
      · exact (h.grew _ hold).concat
      · exact ⟨done, node, [], rfl, rfl, h.baselines.exists_baseline hcounted.growth htraffic⟩
    · have hne : ¬compare node.identityKey identity = .eq := fun heq => hidentity (LawfulEqOrd.eq_of_compare heq)
      rw [TreeMap.getD_insert, if_neg hne] at hprogressed
      exact (h.grew identity hprogressed).concat

/-- The nodes of a snapshot whose counters can all be counted. -/
def NodesFollow (sampleMs : UInt64) (before : List (NodeKey × Observation)) (nodes : List NodeCounters) : Prop :=
  ∀ pre node behind, nodes = pre ++ node :: behind →
    ∀ baseline, baselineOf sampleMs (before ++ pre.map (nodeEvent sampleMs)) (nodeKey node) = some baseline →
      Follows baseline node.counters

theorem looped_foldlM {nodes : List NodeCounters} (h : Looped sampleMs keys before start [] state)
    (hkeys : ∀ node ∈ nodes, nodeKey node ∈ keys)
    (hrun : nodes.foldlM (nodeDelta sampleMs previousSampleMs) state = .ok state') :
    Looped sampleMs keys before start nodes state' := by
  have hstep (pre : List NodeCounters) (s : NssWindowBook × ClientDeltas) (node : NodeCounters)
      (s' : NssWindowBook × ClientDeltas)
      (hs : (∀ n ∈ pre, nodeKey n ∈ keys) → Looped sampleMs keys before start pre s)
      (hok : nodeDelta sampleMs previousSampleMs s node = .ok s') (hall : ∀ n ∈ pre ++ [node], nodeKey n ∈ keys) :
      Looped sampleMs keys before start (pre ++ [node]) s' :=
    (hs fun n hn => hall n (List.mem_append_left _ hn)).step
      (hall node (List.mem_append_right _ List.mem_cons_self)) hok
  have hrun' : (∀ n ∈ [] ++ nodes, nodeKey n ∈ keys) → Looped sampleMs keys before start ([] ++ nodes) state' :=
    Run.foldlM_invariant hstep (fun _ => h) hrun
  exact hrun' hkeys

theorem foldlM_ok_iff {nodes : List NodeCounters} (h : Baselines sampleMs before state.1.previousNodes) :
    (∃ state', nodes.foldlM (nodeDelta sampleMs previousSampleMs) state = .ok state') ↔
      NodesFollow sampleMs before nodes := by
  refine Run.foldlM_ok_iff_start
    (I := fun pre s => Baselines sampleMs (before ++ pre.map (nodeEvent sampleMs)) s.1.previousNodes)
    (fun pre s node s' hs hok => ?_) (fun pre s node hs => ?_) (by rwa [List.map_nil, List.append_nil])
  · exact baselines_step hs hok
  · rw [← hs.fits_iff node]
    rcases nodeDelta_spec sampleMs previousSampleMs s node with ⟨delta, s', hok, hcounted⟩ | ⟨⟨e, herror⟩, hnot⟩
    · exact iff_of_true ⟨s', hok⟩ ⟨delta, hcounted.growth, hcounted.fits⟩
    · refine iff_of_false (fun ⟨s', hok⟩ => ?_) hnot
      rw [herror] at hok
      cases hok

end Looped

end NssWindowBook

/-! ### Distinct nodes -/

theorem baselineOf_append {sampleMs : UInt64} {before : List (NodeKey × Observation)} {pre : List NodeCounters}
    {node : NodeCounters} (h : nodeKey node ∉ pre.map nodeKey) :
    baselineOf sampleMs (before ++ pre.map (nodeEvent sampleMs)) (nodeKey node) =
      baselineOf sampleMs before (nodeKey node) := by
  have hnil : seen (nodeKey node) (pre.map (nodeEvent sampleMs)) = [] :=
    seen_eq_nil (by rw [List.map_map]; exact h)
  rw [baselineOf, baselineOf, seen_append, hnil, List.append_nil]

theorem not_mem_of_split {nodes pre behind : List NodeCounters} {node : NodeCounters}
    (hnodup : (nodes.map nodeKey).Nodup)
    (h : nodes = pre ++ node :: behind) : nodeKey node ∉ pre.map nodeKey := by
  rw [h, List.map_append, List.map_cons] at hnodup
  exact fun hmem => (List.nodup_append.1 hnodup).2.2 _ hmem _ List.mem_cons_self rfl

/-- No node of the sample has lost anything to its baseline. -/
def WindowSample.Follow (sample : WindowSample) (before : List (NodeKey × Observation)) : Prop :=
  ∀ node ∈ sample.nodes.nodes, ∀ baseline, baselineOf sample.nodes.sampleMs before (nodeKey node) = some baseline →
    Follows baseline node.counters

/-- A node of the identity has other counters than its baseline. -/
def WindowSample.Grows (sample : WindowSample) (before : List (NodeKey × Observation)) (identity : String) : Prop :=
  ∃ node ∈ sample.nodes.nodes, node.identityKey = identity ∧
    ∃ baseline, baselineOf sample.nodes.sampleMs before (nodeKey node) = some baseline ∧ baseline.2 ≠ node.counters

theorem nodesFollow_iff (sample : WindowSample) (before : List (NodeKey × Observation)) :
    NssWindowBook.NodesFollow sample.nodes.sampleMs before sample.nodes.nodes ↔ sample.Follow before := by
  constructor
  · intro h node hnode
    obtain ⟨pre, behind, hsplit⟩ := List.append_of_mem hnode
    rw [← baselineOf_append (not_mem_of_split sample.distinct hsplit)]
    exact h pre node behind hsplit
  · intro h pre node behind hsplit
    rw [baselineOf_append (not_mem_of_split sample.distinct hsplit)]
    exact h node (hsplit ▸ List.mem_append_right pre List.mem_cons_self)

theorem grows_of_grew {sample : WindowSample} {before : List (NodeKey × Observation)} {identity : String}
    (h : NssWindowBook.Grew sample.nodes.sampleMs before sample.nodes.nodes identity) :
    sample.Grows before identity := by
  obtain ⟨pre, node, behind, hsplit, hidentity, hbaseline⟩ := h
  rw [baselineOf_append (not_mem_of_split sample.distinct hsplit)] at hbaseline
  exact ⟨node, hsplit ▸ List.mem_append_right pre List.mem_cons_self, hidentity, hbaseline⟩

namespace NssWindowBook

/-! ### Totals -/

theorem addTotal_bytes (totals : TreeMap String TrafficCounters) (identity identity' : String) (value : TrafficCounters)
    (receive : Bool) : (((addTotal totals identity value).getD identity' .zero).bytes receive).toNat =
      if identity = identity' then
        min (((totals.getD identity' .zero).bytes receive).toNat + (value.bytes receive).toNat) (u64Limit - 1)
      else ((totals.getD identity' .zero).bytes receive).toNat := by
  rw [addTotal]
  split
  · rename_i h
    subst h
    rw [TreeMap.getD_insert_self, addAssign_bytes]
  · rename_i h
    rw [TreeMap.getD_insert, if_neg fun heq => h (LawfulEqOrd.eq_of_compare heq)]

/-- What the nodes of an identity show at a reset. -/
def baseBytes (receive : Bool) (nodes : List NodeCounters) (identity : String) : ℕ :=
  ((nodes.filter fun node => node.identityKey = identity ∧ node.counters.fcsNormalized.isSome).map fun node =>
    node.counters.wireBytes receive).sum

theorem baseBytes_concat (receive : Bool) (nodes : List NodeCounters) (node : NodeCounters) (identity : String) :
    baseBytes receive (nodes ++ [node]) identity = baseBytes receive nodes identity +
      if node.identityKey = identity ∧ node.counters.fcsNormalized.isSome then node.counters.wireBytes receive
      else 0 := by
  rw [baseBytes, List.filter_append, List.map_append, List.sum_append, baseBytes]
  split <;> rename_i h <;> simp [h]

/-- The book that a reset leaves. -/
def fresh (sample : WindowSample) : NssWindowBook := ({} : NssWindowBook).rebaseline sample.nodes sample.lan

/-- The loop of `rebaseline` on the parts that it changes. -/
structure Rebaselined (sampleMs : UInt64) (nodes : List NodeCounters) (start book : NssWindowBook) : Prop where
  baselines : Baselines sampleMs (nodes.map (nodeEvent sampleMs)) book.previousNodes
  totals : ∀ identity receive,
    ((book.committedTotals.getD identity .zero).bytes receive).toNat =
      min (baseBytes receive nodes identity) (u64Limit - 1)
  same : book = { start with previousNodes := book.previousNodes, committedTotals := book.committedTotals }

theorem rebaselined_foldl (sampleMs : UInt64) (nodes : List NodeCounters) (start : NssWindowBook)
    (hnodes : start.previousNodes = ∅) (htotals : start.committedTotals = ∅) :
    Rebaselined sampleMs nodes start (nodes.foldl (rebaselineNode sampleMs) start) := by
  induction nodes using List.reverseRecOn with
  | nil =>
    refine ⟨fun key => ?_, fun identity receive => ?_, rfl⟩
    · rw [List.foldl_nil, hnodes, TreeMap.getElem?_emptyc]
      rfl
    · rw [List.foldl_nil, htotals, TreeMap.getD_emptyc]
      cases receive <;> rfl
  | append_singleton nodes node ih =>
    rw [List.foldl_concat]
    refine ⟨?_, fun identity receive => ?_, ?_⟩
    · rw [List.map_append]
      exact ih.baselines.insert node sampleMs
    · rw [baseBytes_concat, rebaselineNode]
      cases hfcs : node.counters.fcsNormalized with
      | none => simpa using ih.totals identity receive
      | some normalized =>
        rw [Option.elim_some, addTotal_bytes, ih.totals, fcsNormalized_eq_some hfcs]
        by_cases hidentity : node.identityKey = identity
        · rw [if_pos hidentity, if_pos ⟨hidentity, rfl⟩]
          omega
        · rw [if_neg hidentity, if_neg fun h => hidentity h.1, Nat.add_zero]
    · rw [rebaselineNode, ih.same]

theorem foldl_rebaselineNode_shown (sampleMs : UInt64) (nodes : List NodeCounters) (start : NssWindowBook)
    (rates : TreeMap String PublishedClientRate) (coverage : NssCoverageBook) :
    nodes.foldl (rebaselineNode sampleMs) { start with publishedRates := rates, coverage } =
      { nodes.foldl (rebaselineNode sampleMs) start with publishedRates := rates, coverage } := by
  induction nodes generalizing start with
  | nil => rfl
  | cons node nodes ih => exact ih (rebaselineNode sampleMs start node)

/-- A reset forgets the book. -/
theorem rebaseline_eq (book : NssWindowBook) (sample : WindowSample) :
    book.rebaseline sample.nodes sample.lan = fresh sample := by
  have h := foldl_rebaselineNode_shown sample.nodes.sampleMs sample.nodes.nodes
    { ({} : NssWindowBook) with
      initialized := true, previousSampleMs := some sample.nodes.sampleMs, previousLan := some sample.lan }
    book.publishedRates book.coverage
  rw [rebaseline, fresh, rebaseline]
  exact congrArg (fun b : NssWindowBook => { b with publishedRates := ∅, coverage := book.coverage.clear sample.lan }) h

/-! ### The accounts of a window -/

/-- The last sample of the window. -/
def lastOf (first : WindowSample) (rest : List WindowSample) : WindowSample := rest.getLastD first

@[simp] theorem lastOf_concat (first : WindowSample) (rest : List WindowSample) (sample : WindowSample) :
    lastOf first (rest ++ [sample]) = sample := by
  rw [lastOf, List.getLastD_concat]

/-- What the book holds at the end of a window: `first` is the sample of its last reset. -/
structure Accounts (first : WindowSample) (rest : List WindowSample) (book : NssWindowBook) : Prop where
  initialized : book.initialized = true
  sampleMs : book.previousSampleMs = some (lastOf first rest).nodes.sampleMs
  lan : book.previousLan = some (lastOf first rest).lan
  baselines : Baselines (lastOf first rest).nodes.sampleMs (eventsOf (first :: rest)) book.previousNodes
  totals : ∀ keys : Finset NodeKey, (∀ event ∈ eventsOf (first :: rest), event.1 ∈ keys) → ∀ identity receive,
    ((book.committedTotals.getD identity .zero).bytes receive).toNat =
      min (baseBytes receive first.nodes.nodes identity + gainedBytes receive keys identity (eventsOf (first :: rest)))
        (u64Limit - 1)
  rates : ∀ identity rate, book.publishedRates[identity]? = some rate → ∃ m sample t, rest = m ++ sample :: t ∧
    rate.endMs = sample.nodes.sampleMs ∧ sample.Grows (eventsOf (first :: m)) identity ∧
    (lastOf first rest).nodes.sampleMs.toNat - rate.endMs.toNat ≤ rateHoldMs
  chains : ∀ key, (seen key (eventsOf (first :: rest))).IsChain fun a b => Recent b.1 a → a.2.Grown b.2

theorem eventsOf_singleton (sample : WindowSample) : eventsOf [sample] = sample.events := by
  rw [eventsOf, List.flatMap_singleton]

theorem keys_events (sample : WindowSample) : sample.events.map Prod.fst = sample.nodes.nodes.map nodeKey := by
  rw [WindowSample.events, List.map_map]
  rfl

theorem fresh_eq (sample : WindowSample) :
    ∃ start : NssWindowBook, start.previousNodes = ∅ ∧ start.committedTotals = ∅ ∧
    fresh sample = { sample.nodes.nodes.foldl (rebaselineNode sample.nodes.sampleMs) start with
      publishedRates := ∅, coverage := ({} : NssCoverageBook).clear sample.lan } ∧
    start.initialized = true ∧ start.previousSampleMs = some sample.nodes.sampleMs ∧
      start.previousLan = some sample.lan :=
  ⟨_, rfl, rfl, rfl, rfl, rfl, rfl⟩

theorem accounts_fresh (sample : WindowSample) : Accounts sample [] (fresh sample) := by
  obtain ⟨start, hnodes, htotals, hfresh, hinitialized, hsampleMs, hlan⟩ := fresh_eq sample
  have h := rebaselined_foldl sample.nodes.sampleMs sample.nodes.nodes start hnodes htotals
  rw [hfresh]
  refine ⟨?_, ?_, ?_, ?_, fun keys _ identity receive => ?_, fun identity rate hrate => ?_, fun key => ?_⟩
  · rw [h.same]
    exact hinitialized
  · rw [h.same]
    exact hsampleMs
  · rw [h.same]
    exact hlan
  · rw [eventsOf_singleton]
    exact h.baselines
  · have hnone : gainedBytes receive keys identity (eventsOf [sample]) = 0 := by
      rw [gainedBytes, eventsOf_singleton]
      exact totalGrowth_of_nodup _ (keys_events sample ▸ sample.distinct)
    rw [hnone]
    exact h.totals identity receive
  · rw [TreeMap.getElem?_emptyc] at hrate
    cases hrate
  · have hlength : (seen key (eventsOf [sample])).length ≤ 1 := by
      rw [eventsOf_singleton]
      exact length_seen_le (keys_events sample ▸ sample.distinct)
    cases hseen : seen key (eventsOf [sample]) with
    | nil => exact List.IsChain.nil
    | cons a l =>
      rw [hseen] at hlength
      obtain rfl := List.length_eq_zero_iff.1 (Nat.le_zero.1 (Nat.le_of_succ_le_succ hlength))
      exact List.isChain_singleton _

/-! ### Publishing -/

theorem foldl_publishClient (endMs : UInt64) (entries : List (String × ClientDelta)) (book : NssWindowBook) :
    entries.foldl (publishClient endMs) book = { book with
      committedTotals :=
        entries.foldl (fun totals entry => addTotal totals entry.1 entry.2.normalized) book.committedTotals
      publishedRates := entries.foldl (fun rates entry => entry.2.startMs.elim rates fun startMs =>
        rates.insert entry.1 ⟨startMs, endMs, entry.2.normalized, entry.2.txBps, entry.2.rxBps⟩)
        book.publishedRates } := by
  induction entries generalizing book with
  | nil => rfl
  | cons entry entries ih =>
    rw [List.foldl_cons, ih]
    rfl

theorem updatesOwn_totals : TreeTotal.UpdatesOwn
    (fun (totals : TreeMap String TrafficCounters) (entry : String × ClientDelta) =>
      addTotal totals entry.1 entry.2.normalized)
    fun delta total => some (addAssign (total.getD .zero) delta.normalized) where
  own totals entry := by
    rw [addTotal, TreeMap.getElem?_insert_self, TreeMap.getD_eq_getD_getElem?]
  other totals entry key hkey := by
    rw [addTotal, TreeMap.getElem?_insert, if_neg fun heq => hkey (LawfulEqOrd.eq_of_compare heq).symm]

theorem updatesOwn_rates (endMs : UInt64) : TreeTotal.UpdatesOwn
    (fun (rates : TreeMap String PublishedClientRate) (entry : String × ClientDelta) =>
      entry.2.startMs.elim rates fun startMs =>
        rates.insert entry.1 ⟨startMs, endMs, entry.2.normalized, entry.2.txBps, entry.2.rxBps⟩)
    fun (delta : ClientDelta) (rate : Option PublishedClientRate) => delta.startMs.elim rate fun startMs =>
      some ⟨startMs, endMs, delta.normalized, delta.txBps, delta.rxBps⟩ where
  own rates entry := by
    cases entry.2.startMs with
    | none => rfl
    | some startMs => exact TreeMap.getElem?_insert_self
  other rates entry key hkey := by
    cases entry.2.startMs with
    | none => rfl
    | some startMs =>
      rw [Option.elim_some, TreeMap.getElem?_insert, if_neg fun heq => hkey (LawfulEqOrd.eq_of_compare heq).symm]

/-- The totals after `publish_rate`. -/
theorem publishRate_totals (book : NssWindowBook) (endMs : UInt64) (deltas : ClientDeltas) (coverage : CoverageWindow)
    (identity : String) (receive : Bool) :
    ((((book.publishRate endMs deltas coverage).1.committedTotals).getD identity .zero).bytes receive).toNat =
      min (((book.committedTotals.getD identity .zero).bytes receive).toNat +
        ((deltas.getD identity {}).normalized.bytes receive).toNat) (u64Limit - 1) := by
  have htotals : (book.publishRate endMs deltas coverage).1.committedTotals = deltas.toList.foldl
      (fun totals entry => addTotal totals entry.1 entry.2.normalized) book.committedTotals := by
    simp only [publishRate, expirePublishedRates, foldl_publishClient]
  rw [htotals, TreeMap.getD_eq_getD_getElem?, updatesOwn_totals.foldl_toList deltas book.committedTotals identity,
    TreeMap.getD_eq_getD_getElem?, TreeMap.getD_eq_getD_getElem?]
  cases deltas[identity]? with
  | none =>
    have hzero : ((({} : ClientDelta).normalized.bytes receive)).toNat = 0 := by cases receive <;> rfl
    rw [Option.elim_none, Option.getD_none, hzero]
    exact (Nat.min_eq_left (Nat.le_pred_of_lt (toNat_lt _))).symm
  | some delta =>
    rw [Option.elim_some, Option.getD_some, Option.getD_some, addAssign_bytes]

/-- The published rates after `publish_rate`. -/
theorem publishRate_rates {book : NssWindowBook} {endMs : UInt64} {deltas : ClientDeltas} {coverage : CoverageWindow}
    {identity : String} {published : PublishedClientRate}
    (h : (book.publishRate endMs deltas coverage).1.publishedRates[identity]? = some published) :
    published.held endMs = true ∧ (book.publishedRates[identity]? = some published ∨
      (published.endMs = endMs ∧ (deltas.getD identity {}).progressed = true)) := by
  simp only [publishRate, expirePublishedRates, foldl_publishClient] at h
  rw [TreeMap.getElem?_filter', Option.filter_eq_some_iff] at h
  obtain ⟨h, hheld⟩ := h
  refine ⟨hheld, ?_⟩
  rw [(updatesOwn_rates endMs).foldl_toList deltas book.publishedRates identity] at h
  rw [TreeMap.getD_eq_getD_getElem?]
  cases hdelta : deltas[identity]? with
  | none =>
    rw [hdelta] at h
    exact .inl h
  | some delta =>
    rw [hdelta, Option.elim_some] at h
    cases hstart : delta.startMs with
    | none =>
      rw [hstart] at h
      exact .inl h
    | some startMs =>
      rw [hstart] at h
      cases h
      exact .inr ⟨rfl, by rw [Option.getD_some, ClientDelta.progressed, hstart]; rfl⟩

/-- What an output shows of the book. -/
structure Shows (book : NssWindowBook) (clients : List WindowClient) : Prop where
  total : ∀ client ∈ clients, book.committedTotals[client.identityKey]? = some client.total
  all : ∀ identity total, book.committedTotals[identity]? = some total →
    ∃ client ∈ clients, client.identityKey = identity
  rate : ∀ client ∈ clients, client.txBps ≠ 0 ∨ client.rxBps ≠ 0 →
    ∃ published, book.publishedRates[client.identityKey]? = some published

theorem shows_visible (book : NssWindowBook) (show? : String × TrafficCounters → WindowClient)
    (hkey : ∀ entry, (show? entry).identityKey = entry.1 ∧ (show? entry).total = entry.2)
    (hrate : ∀ entry, (show? entry).txBps ≠ 0 ∨ (show? entry).rxBps ≠ 0 →
      ∃ published, book.publishedRates[entry.1]? = some published) :
    Shows book (book.committedTotals.toList.map show?) := by
  refine ⟨fun client hclient => ?_, fun identity total h => ?_, fun client hclient hne => ?_⟩
  · obtain ⟨entry, hentry, rfl⟩ := List.mem_map.1 hclient
    rw [(hkey entry).1, (hkey entry).2]
    exact TreeMap.mem_toList_iff_getElem?_eq_some.1 hentry
  · exact ⟨_, List.mem_map.2 ⟨_, TreeMap.mem_toList_iff_getElem?_eq_some.2 h, rfl⟩, (hkey _).1⟩
  · obtain ⟨entry, -, rfl⟩ := List.mem_map.1 hclient
    rw [(hkey entry).1]
    exact hrate entry hne

theorem shows_rates (book : NssWindowBook) : Shows book book.visibleRateClients := by
  refine shows_visible book _ (fun entry => ⟨rfl, rfl⟩) fun entry hne => ?_
  cases hpublished : book.publishedRates[entry.1]? with
  | none =>
    dsimp only at hne
    rw [hpublished] at hne
    rcases hne with h | h
    · exact absurd rfl h
    · exact absurd rfl h
  | some published => exact ⟨published, rfl⟩

theorem shows_zero (book : NssWindowBook) : Shows book book.visibleZeroClients := by
  refine shows_visible book _ (fun entry => ⟨rfl, rfl⟩) fun entry hne => ?_
  rcases hne with h | h
  · exact absurd rfl h
  · exact absurd rfl h

/-- The book was reset for this output. -/
def IsReset (output : WindowOutput) : Prop := output.quality = .warmup ∨ output.quality = .counterReset

theorem publishRate_quality (book : NssWindowBook) (endMs : UInt64) (deltas : ClientDeltas)
    (coverage : CoverageWindow) :
    ¬IsReset (book.publishRate endMs deltas coverage).2 := by
  simp only [IsReset, publishRate]
  split <;> simp

theorem withoutRateProgress_spec (book : NssWindowBook) (sampleMs previousSampleMs : UInt64)
    (coverage : CoverageWindow) :
    (book.withoutRateProgress sampleMs previousSampleMs coverage).1 = book.expirePublishedRates sampleMs ∧
      ¬IsReset (book.withoutRateProgress sampleMs previousSampleMs coverage).2 ∧
      Shows (book.expirePublishedRates sampleMs)
        (book.withoutRateProgress sampleMs previousSampleMs coverage).2.clients := by
  rw [withoutRateProgress]
  split
  · exact ⟨rfl, by simp [IsReset, zeroOutput], shows_zero _⟩
  · exact ⟨rfl, by simp [IsReset], shows_rates _⟩

/-! ### A sample -/

/-- Nothing in the sample resets a book that has seen `before` and, last, `last`. -/
structure Steady (last : WindowSample) (before : List (NodeKey × Observation)) (sample : WindowSample) : Prop where
  lan : Continues last.lan sample.lan
  clock : last.nodes.sampleMs < sample.nodes.sampleMs
  gap : sample.nodes.sampleMs.toNat - last.nodes.sampleMs.toNat ≤ maxRateWindowMs
  follow : sample.Follow before

theorem resetReason_eq_none {nodes : NodeSnapshot} {lan previousLan : LanClock} {previousSampleMs : UInt64} :
    resetReason nodes lan previousSampleMs previousLan = none ↔ Continues previousLan lan ∧
      previousSampleMs < nodes.sampleMs ∧ nodes.sampleMs.toNat - previousSampleMs.toNat ≤ maxRateWindowMs := by
  rw [resetReason]
  split
  · rename_i h
    exact iff_of_false (by simp) fun hall => h hall.1.interface.symm
  rename_i hinterface
  split
  · rename_i h
    refine iff_of_false (by simp) fun hall => ?_
    rcases h with h | h
    · exact UInt64.not_le.2 hall.2.1 h
    · exact UInt64.not_le.2 hall.1.clock h
  rename_i hclock
  obtain ⟨hnodes, hlan⟩ := not_or.1 hclock
  split
  · rename_i h
    exact iff_of_false (by simp) fun hall => Nat.not_le.2 h hall.2.2
  rename_i hgap
  split
  · rename_i h
    refine iff_of_false (by simp) fun hall => ?_
    have hsome := isSome_checkedDelta.2 hall.1.counters
    rw [Option.isNone_iff_eq_none.1 h] at hsome
    cases hsome
  · rename_i h
    refine iff_of_true rfl ⟨⟨(not_not.1 hinterface).symm, UInt64.not_le.1 hlan, isSome_checkedDelta.1 ?_⟩,
      UInt64.not_le.1 hnodes, Nat.not_lt.1 hgap⟩
    rwa [← Option.not_isNone, Bool.not_eq_true', ← Bool.not_eq_true]

theorem eventsOf_concat (samples : List WindowSample) (sample : WindowSample) :
    eventsOf (samples ++ [sample]) = eventsOf samples ++ sample.nodes.nodes.map (nodeEvent sample.nodes.sampleMs) := by
  rw [eventsOf, List.flatMap_append, List.flatMap_singleton]
  rfl

/-- The book with which the loop over the nodes starts. -/
def startBook (book : NssWindowBook) (sampleMs : UInt64) : NssWindowBook :=
  { book with previousNodes := book.previousNodes.filter fun _ baseline => baseline.retained sampleMs }

theorem looped_start {first sample : WindowSample} {rest : List WindowSample} {book : NssWindowBook}
    (h : Accounts first rest book) (hclock : (lastOf first rest).nodes.sampleMs < sample.nodes.sampleMs)
    (keys : Finset NodeKey) : Looped sample.nodes.sampleMs keys (eventsOf (first :: rest))
      (book.startBook sample.nodes.sampleMs)
      [] (book.startBook sample.nodes.sampleMs, ∅) where
  baselines := by
    rw [List.map_nil, List.append_nil]
    exact h.baselines.filter (UInt64.le_of_lt hclock)
  shown := .refl _
  clients identity receive := by
    refine ⟨0, by rw [List.map_nil, List.append_nil, Nat.add_zero], ?_, fun _ => rfl⟩
    rw [TreeMap.getD_emptyc]
    cases receive <;> rfl
  grew identity hprogressed := by
    rw [TreeMap.getD_emptyc] at hprogressed
    cases hprogressed

/-- The book after the loop over the nodes: what has yet to be published. -/
structure Ready (first : WindowSample) (rest : List WindowSample) (sample : WindowSample) (book before : NssWindowBook)
    (deltas : ClientDeltas) : Prop where
  initialized : book.initialized = true
  sampleMs : book.previousSampleMs = some sample.nodes.sampleMs
  lan : book.previousLan = some sample.lan
  baselines : Baselines sample.nodes.sampleMs (eventsOf (first :: rest ++ [sample])) book.previousNodes
  totals : book.committedTotals = before.committedTotals
  rates : book.publishedRates = before.publishedRates
  gained : ∀ keys : Finset NodeKey, (∀ event ∈ eventsOf (first :: rest ++ [sample]), event.1 ∈ keys) →
    ∀ identity receive, ∃ gained, gainedBytes receive keys identity (eventsOf (first :: rest ++ [sample])) =
      gainedBytes receive keys identity (eventsOf (first :: rest)) + gained ∧
      ((deltas.getD identity {}).normalized.bytes receive).toNat = min gained (u64Limit - 1) ∧
      ((deltas.getD identity {}).progressed = false → gained = 0)
  grew : ∀ identity, (deltas.getD identity {}).progressed = true → sample.Grows (eventsOf (first :: rest)) identity
  chains : ∀ key, (seen key (eventsOf (first :: rest ++ [sample]))).IsChain fun a b => Recent b.1 a → a.2.Grown b.2

section Step

variable {first sample : WindowSample} {rest : List WindowSample} {book before : NssWindowBook} {deltas : ClientDeltas}

theorem Accounts.older (h : Accounts first rest before) {identity : String} {published : PublishedClientRate}
    (hpublished : before.publishedRates[identity]? = some published)
    (hheld : published.held sample.nodes.sampleMs = true) :
    ∃ m s t, rest ++ [sample] = m ++ s :: t ∧ published.endMs = s.nodes.sampleMs ∧
      s.Grows (eventsOf (first :: m)) identity ∧
      (lastOf first (rest ++ [sample])).nodes.sampleMs.toNat - published.endMs.toNat ≤ rateHoldMs := by
  obtain ⟨m, s, t, rfl, hend, hgrows, -⟩ := h.rates identity published hpublished
  rw [lastOf_concat]
  exact ⟨m, s, t ++ [sample], by simp, hend, hgrows, of_decide_eq_true hheld⟩

theorem Ready.publish (h : Ready first rest sample book before deltas) (hbefore : Accounts first rest before)
    (coverage : CoverageWindow) :
    Accounts first (rest ++ [sample]) (book.publishRate sample.nodes.sampleMs deltas coverage).1 := by
  have hkeep : (book.publishRate sample.nodes.sampleMs deltas coverage).1.initialized = book.initialized ∧
      (book.publishRate sample.nodes.sampleMs deltas coverage).1.previousSampleMs = book.previousSampleMs ∧
      (book.publishRate sample.nodes.sampleMs deltas coverage).1.previousLan = book.previousLan ∧
      (book.publishRate sample.nodes.sampleMs deltas coverage).1.previousNodes = book.previousNodes := by
    simp only [publishRate, expirePublishedRates, foldl_publishClient, and_self]
  obtain ⟨hinitialized, hsampleMs, hlan, hnodes⟩ := hkeep
  refine ⟨hinitialized ▸ h.initialized, ?_, ?_, ?_, fun keys hkeys identity receive => ?_,
    fun identity published hrate => ?_,
    h.chains⟩
  · rw [hsampleMs, h.sampleMs, lastOf_concat]
  · rw [hlan, h.lan, lastOf_concat]
  · rw [hnodes, lastOf_concat]
    exact h.baselines
  · obtain ⟨gained, htotal, hbytes, -⟩ := h.gained keys hkeys identity receive
    have hold := hbefore.totals keys (fun event hevent => hkeys event (by
      rw [← List.cons_append, eventsOf_concat]
      exact List.mem_append_left _ hevent)) identity receive
    rw [publishRate_totals, h.totals, hold, hbytes, ← List.cons_append, htotal]
    omega
  · obtain ⟨hheld, hold | ⟨hend, hprogressed⟩⟩ := publishRate_rates hrate
    · rw [h.rates] at hold
      exact hbefore.older hold hheld
    · rw [lastOf_concat]
      exact ⟨rest, sample, [], rfl, hend, h.grew identity hprogressed, of_decide_eq_true hheld⟩

theorem Ready.expire (h : Ready first rest sample book before deltas) (hbefore : Accounts first rest before)
    (hnone : ∀ identity, (deltas.getD identity {}).progressed = false) :
    Accounts first (rest ++ [sample]) (book.expirePublishedRates sample.nodes.sampleMs) := by
  refine ⟨h.initialized, ?_, ?_, ?_, fun keys hkeys identity receive => ?_, fun identity published hrate => ?_,
    h.chains⟩
  · rw [lastOf_concat]
    exact h.sampleMs
  · rw [lastOf_concat]
    exact h.lan
  · rw [lastOf_concat]
    exact h.baselines
  · obtain ⟨gained, htotal, -, hzero⟩ := h.gained keys hkeys identity receive
    have hold := hbefore.totals keys (fun event hevent => hkeys event (by
      rw [← List.cons_append, eventsOf_concat]
      exact List.mem_append_left _ hevent)) identity receive
    rw [← List.cons_append, htotal, hzero (hnone identity), Nat.add_zero]
    exact h.totals ▸ hold
  · simp only [expirePublishedRates] at hrate
    rw [TreeMap.getElem?_filter', Option.filter_eq_some_iff, h.rates] at hrate
    exact hbefore.older hrate.1 hrate.2

/-- A sample that follows gives each key one more observation at most. -/
theorem chain_concat {key : NodeKey} (hsample : sample.Follow (eventsOf (first :: rest)))
    (h : (seen key (eventsOf (first :: rest))).IsChain fun a b => Recent b.1 a → a.2.Grown b.2) :
    (seen key (eventsOf (first :: rest ++ [sample]))).IsChain fun a b => Recent b.1 a → a.2.Grown b.2 := by
  rw [eventsOf_concat, seen_append]
  cases hseen : seen key (sample.nodes.nodes.map (nodeEvent sample.nodes.sampleMs)) with
  | nil => rwa [List.append_nil]
  | cons b l =>
    have hlength : (seen key sample.events).length ≤ 1 := length_seen_le (keys_events sample ▸ sample.distinct)
    rw [WindowSample.events, hseen] at hlength
    obtain rfl := List.length_eq_zero_iff.1 (Nat.le_zero.1 (Nat.le_of_succ_le_succ hlength))
    refine h.append (List.isChain_singleton b) fun a ha b' hb' => ?_
    obtain rfl : b = b' := Option.some.inj hb'
    have hmem : b ∈ seen key (sample.nodes.nodes.map (nodeEvent sample.nodes.sampleMs)) := hseen ▸ List.mem_cons_self
    obtain ⟨event, hevent, rfl⟩ := List.mem_map.1 hmem
    obtain ⟨hevent, hkey⟩ := List.mem_filter.1 hevent
    obtain ⟨node, hnode, rfl⟩ := List.mem_map.1 hevent
    obtain rfl : nodeKey node = key := of_decide_eq_true hkey
    intro (hrecent : Recent sample.nodes.sampleMs a)
    have hbaseline : baselineOf sample.nodes.sampleMs (eventsOf (first :: rest)) (nodeKey node) = some a := by
      rw [baselineOf, ha, Option.filter_some, if_pos (decide_eq_true hrecent)]
    obtain ⟨delta, hdelta, -⟩ := hsample node hnode a hbaseline
    exact isSome_checkedDelta.1 (Option.isSome_of_eq_some hdelta)

theorem ready_of_looped {looped : NssWindowBook} (h : Accounts first rest before)
    (hclock : (lastOf first rest).nodes.sampleMs < sample.nodes.sampleMs)
    (hfold : sample.nodes.nodes.foldlM (nodeDelta sample.nodes.sampleMs (lastOf first rest).nodes.sampleMs)
      (before.startBook sample.nodes.sampleMs, ∅) = .ok (looped, deltas))
    (hshown : SameShown looped { book with coverage := looped.coverage })
    (hnodes : book.previousNodes = looped.previousNodes)
    (hsampleMs : book.previousSampleMs = some sample.nodes.sampleMs) (hlan : book.previousLan = some sample.lan)
    (hfollow : sample.Follow (eventsOf (first :: rest))) : Ready first rest sample book before deltas := by
  have hlooped (keys : Finset NodeKey) (hkeys : ∀ event ∈ eventsOf (first :: rest ++ [sample]), event.1 ∈ keys) :
      Looped sample.nodes.sampleMs keys (eventsOf (first :: rest)) (before.startBook sample.nodes.sampleMs)
        sample.nodes.nodes (looped, deltas) := by
    refine looped_foldlM (looped_start h hclock keys) (fun node hnode => ?_) hfold
    refine hkeys (nodeEvent sample.nodes.sampleMs node) ?_
    rw [eventsOf_concat]
    exact List.mem_append_right _ (List.mem_map_of_mem hnode)
  have hall := hlooped ((eventsOf (first :: rest ++ [sample])).map Prod.fst).toFinset fun event hevent =>
    List.mem_toFinset.2 (List.mem_map_of_mem hevent)
  have hsame := hall.shown.trans hshown
  refine ⟨hsame.initialized.trans h.initialized, hsampleMs, hlan, ?_, hsame.totals, hsame.rates,
    fun keys hkeys identity receive => ?_, fun identity hprogressed => grows_of_grew (hall.grew identity hprogressed),
    fun key => chain_concat hfollow (h.chains key)⟩
  · rw [hnodes, eventsOf_concat]
    exact hall.baselines
  · rw [eventsOf_concat]
    exact (hlooped keys hkeys).clients identity receive

theorem publishRate_shows (book : NssWindowBook) (endMs : UInt64) (deltas : ClientDeltas) (coverage : CoverageWindow) :
    Shows (book.publishRate endMs deltas coverage).1 (book.publishRate endMs deltas coverage).2.clients :=
  shows_rates _

theorem not_progressed {deltas : ClientDeltas} (h : ¬deltas.toList.any (fun entry => entry.2.progressed) = true)
    (identity : String) : (deltas.getD identity {}).progressed = false := by
  rw [TreeMap.getD_eq_getD_getElem?]
  cases hdelta : deltas[identity]? with
  | none => rfl
  | some delta =>
    rw [Option.getD_some, ← Bool.not_eq_true]
    exact fun hprogressed =>
      h (List.any_eq_true.2 ⟨_, TreeMap.mem_toList_iff_getElem?_eq_some.2 hdelta, hprogressed⟩)

/-- A sample either resets the book or is counted. -/
theorem update_cases (h : Accounts first rest book) (sample : WindowSample) :
    (¬Steady (lastOf first rest) (eventsOf (first :: rest)) sample ∧
      (book.update sample.nodes sample.lan).1 = fresh sample ∧ IsReset (book.update sample.nodes sample.lan).2 ∧
      (book.update sample.nodes sample.lan).2.clients = (fresh sample).visibleZeroClients) ∨
    (Steady (lastOf first rest) (eventsOf (first :: rest)) sample ∧
      Accounts first (rest ++ [sample]) (book.update sample.nodes sample.lan).1 ∧
      ¬IsReset (book.update sample.nodes sample.lan).2 ∧
      Shows (book.update sample.nodes sample.lan).1 (book.update sample.nodes sample.lan).2.clients) := by
  have hreset (dirty : NssWindowBook) (reason : String) :
      (dirty.reset sample.nodes sample.lan .counterReset reason).1 = fresh sample ∧
      IsReset (dirty.reset sample.nodes sample.lan .counterReset reason).2 ∧
      (dirty.reset sample.nodes sample.lan .counterReset reason).2.clients = (fresh sample).visibleZeroClients := by
    rw [reset, rebaseline_eq]
    exact ⟨rfl, .inr rfl, rfl⟩
  rw [update, h.initialized, h.sampleMs, h.lan]
  simp only [Bool.not_true, Bool.false_eq_true, if_false]
  cases hreason : resetReason sample.nodes sample.lan (lastOf first rest).nodes.sampleMs (lastOf first rest).lan with
  | some reason =>
    refine .inl ⟨fun hsteady => ?_, hreset book reason⟩
    rw [resetReason_eq_none.2 ⟨hsteady.lan, hsteady.clock, hsteady.gap⟩] at hreason
    cases hreason
  | none =>
    obtain ⟨hcontinues, hclock, hgap⟩ := resetReason_eq_none.1 hreason
    have hok : (∃ state, sample.nodes.nodes.foldlM (nodeDelta sample.nodes.sampleMs (lastOf first rest).nodes.sampleMs)
        (book.startBook sample.nodes.sampleMs, ∅) = .ok state) ↔ sample.Follow (eventsOf (first :: rest)) := by
      rw [← nodesFollow_iff]
      exact foldlM_ok_iff (h.baselines.filter (UInt64.le_of_lt hclock))
    dsimp only
    cases hfold : sample.nodes.nodes.foldlM (nodeDelta sample.nodes.sampleMs (lastOf first rest).nodes.sampleMs)
        (book.startBook sample.nodes.sampleMs, ∅) with
    | error e =>
      have hdeltas : book.nodeDeltas sample.nodes (lastOf first rest).nodes.sampleMs = .error e := by
        rw [nodeDeltas]
        exact congrArg (· >>= _) hfold
      rw [hdeltas]
      refine .inl ⟨fun hsteady => ?_, hreset e.2 e.1⟩
      obtain ⟨state, hstate⟩ := hok.2 hsteady.follow
      rw [hfold] at hstate
      cases hstate
    | ok state =>
      obtain ⟨looped, deltas⟩ := state
      have hdeltas : book.nodeDeltas sample.nodes (lastOf first rest).nodes.sampleMs = .ok ({ looped with
          txRateHistories := TreeMap.filter (fun key _ => looped.previousNodes.contains key) looped.txRateHistories
          rxRateHistories := TreeMap.filter (fun key _ => looped.previousNodes.contains key) looped.rxRateHistories },
          deltas) := by
        rw [nodeDeltas]
        exact congrArg (· >>= _) hfold
      have hsteady : Steady (lastOf first rest) (eventsOf (first :: rest)) sample :=
        ⟨hcontinues, hclock, hgap, hok.1 ⟨_, hfold⟩⟩
      rw [hdeltas]
      refine .inr ⟨hsteady, ?_⟩
      dsimp only
      have hready (counted : NssWindowBook) (hshown : SameShown looped { counted with coverage := looped.coverage })
          (hnodes : counted.previousNodes = looped.previousNodes)
          (hsampleMs : counted.previousSampleMs = some sample.nodes.sampleMs)
          (hlan : counted.previousLan = some sample.lan) : Ready first rest sample counted book deltas :=
        ready_of_looped h hclock hfold hshown hnodes hsampleMs hlan hsteady.follow
      split
      · refine ⟨Ready.publish ?_ h _, publishRate_quality _ _ _ _, publishRate_shows ..⟩
        exact hready _ ⟨rfl, rfl, rfl, rfl⟩ rfl rfl rfl
      · rename_i hnone
        obtain ⟨hbook, hquality, hshows⟩ := withoutRateProgress_spec _ sample.nodes.sampleMs
          (lastOf first rest).nodes.sampleMs _
        rw [hbook]
        refine ⟨Ready.expire ?_ h (not_progressed hnone), hquality, hshows⟩
        exact hready _ ⟨rfl, rfl, rfl, rfl⟩ rfl rfl rfl

end Step

/-! ### Runs -/

def step (book : NssWindowBook) (sample : WindowSample) : NssWindowBook := (book.update sample.nodes sample.lan).1
def output (book : NssWindowBook) (sample : WindowSample) : WindowOutput := (book.update sample.nodes sample.lan).2
def run (samples : List WindowSample) : NssWindowBook := samples.foldl step {}

theorem run_concat (samples : List WindowSample) (sample : WindowSample) :
    run (samples ++ [sample]) = (run samples).step sample :=
  List.foldl_concat ..

/-- `first` is the sample of the last reset. -/
structure SinceReset (samples pre : List WindowSample) (first : WindowSample) (rest : List WindowSample) : Prop where
  split : samples = pre ++ first :: rest
  reset : IsReset ((run pre).output first)
  counted : ∀ m sample t, rest = m ++ sample :: t → ¬IsReset ((run (pre ++ first :: m)).output sample)

theorem SinceReset.concat {samples pre rest : List WindowSample} {first sample : WindowSample}
    (h : SinceReset samples pre first rest) (hcounted : ¬IsReset ((run samples).output sample)) :
    SinceReset (samples ++ [sample]) pre first (rest ++ [sample]) where
  split := by rw [h.split, List.append_assoc]; rfl
  reset := h.reset
  counted m s t ht := by
    rcases t.eq_nil_or_concat with rfl | ⟨t, last, rfl⟩
    · obtain ⟨rfl, hs⟩ := List.append_inj' ht rfl
      obtain rfl := List.singleton_inj.1 hs
      rwa [← h.split]
    · rw [List.concat_eq_append, ← List.cons_append, ← List.append_assoc] at ht
      obtain ⟨ht, -⟩ := List.append_inj' ht rfl
      exact h.counted m s t ht

/-- The accounts of a run, by induction from its end. -/
theorem exists_sinceReset (samples : List WindowSample) (last : WindowSample) :
    ∃ pre first rest, SinceReset (samples ++ [last]) pre first rest ∧
      Accounts first rest (run (samples ++ [last])) := by
  induction samples using List.reverseRecOn generalizing last with
  | nil => exact ⟨[], last, [], ⟨rfl, .inl rfl, fun m s t h => by simp at h⟩, accounts_fresh last⟩
  | append_singleton samples before ih =>
    obtain ⟨pre, first, rest, hwindow, haccounts⟩ := ih before
    rw [run_concat]
    rcases update_cases haccounts last with ⟨-, hfresh, hreset, -⟩ | ⟨-, hnext, hcounted, -⟩
    · refine ⟨samples ++ [before], last, [], ⟨rfl, hreset, fun m s t h => by simp at h⟩, ?_⟩
      rw [step, hfresh]
      exact accounts_fresh last
    · exact ⟨pre, first, rest ++ [last], hwindow.concat hcounted, hnext⟩

theorem SinceReset.lastOf_eq {samples pre rest : List WindowSample} {first last : WindowSample}
    (h : SinceReset (samples ++ [last]) pre first rest) : lastOf first rest = last := by
  have hlast := congrArg List.getLast? h.split
  rw [List.getLast?_concat, List.getLast?_append_cons, List.getLast?_cons] at hlast
  rw [lastOf, List.getLastD_eq_getLast?]
  exact (Option.some.inj hlast).symm

/-- A sample resets the book exactly if a clock, a counter or the interface of it does not follow what the book has seen
since the last reset; the book is then that of a first sample. -/
theorem reset_exact (samples : List WindowSample) (last sample : WindowSample) :
    ∃ pre first rest, SinceReset (samples ++ [last]) pre first rest ∧
      (IsReset ((run (samples ++ [last])).output sample) ↔ ¬Steady last (eventsOf (first :: rest)) sample) ∧
      (IsReset ((run (samples ++ [last])).output sample) → (run (samples ++ [last])).step sample = run [sample] ∧
        ∀ client ∈ ((run (samples ++ [last])).output sample).clients, client.txBps = 0 ∧ client.rxBps = 0) := by
  obtain ⟨pre, first, rest, hwindow, haccounts⟩ := exists_sinceReset samples last
  have hlast := hwindow.lastOf_eq
  refine ⟨pre, first, rest, hwindow, ?_⟩
  rcases update_cases haccounts sample with ⟨hnot, hfresh, hreset, hclients⟩ | ⟨hsteady, -, hcounted, -⟩
  · rw [hlast] at hnot
    refine ⟨iff_of_true hreset hnot, fun _ => ⟨hfresh, fun client hclient => ?_⟩⟩
    rw [output, hclients] at hclient
    obtain ⟨entry, -, rfl⟩ := List.mem_map.1 hclient
    exact ⟨rfl, rfl⟩
  · rw [hlast] at hsteady
    exact ⟨iff_of_false hcounted (not_not.2 hsteady), fun hreset => absurd hreset hcounted⟩

theorem shows_output (samples : List WindowSample) (sample : WindowSample) :
    Shows ((run samples).step sample) ((run samples).output sample).clients := by
  rcases samples.eq_nil_or_concat with rfl | ⟨samples, last, rfl⟩
  · exact shows_zero _
  · rw [List.concat_eq_append]
    obtain ⟨pre, first, rest, -, haccounts⟩ := exists_sinceReset samples last
    rcases update_cases haccounts sample with ⟨-, hfresh, -, hclients⟩ | ⟨-, -, -, hshows⟩
    · rw [step, output, hfresh, hclients]
      exact shows_zero _
    · exact hshows

/-- The keys that were seen. -/
def keysOf (samples : List WindowSample) : Finset NodeKey := ((eventsOf samples).map Prod.fst).toFinset

/-- What is to be published of an identity since the reset at `first`: what its nodes showed then and what they
gained. -/
def shownBytes (receive : Bool) (first : WindowSample) (rest : List WindowSample) (identity : String) : ℕ :=
  baseBytes receive first.nodes.nodes identity +
    ∑ key ∈ ownKeys identity (keysOf (first :: rest)), growth (nodeGain receive) (seen key (eventsOf (first :: rest)))

theorem Accounts.shown {first : WindowSample} {rest : List WindowSample} {book : NssWindowBook}
    (h : Accounts first rest book)
    (identity : String) (receive : Bool) : ((book.committedTotals.getD identity .zero).bytes receive).toNat =
      min (shownBytes receive first rest identity) (u64Limit - 1) :=
  h.totals (keysOf (first :: rest)) (fun _ hevent => List.mem_toFinset.2 (List.mem_map_of_mem hevent)) identity receive

/-- Of a generation that is never out of sight for a minute, the gains are the growth from its first observation to its
last. -/
theorem Accounts.growth_eq {first : WindowSample} {rest : List WindowSample} {book : NssWindowBook}
    (h : Accounts first rest book) (receive : Bool) {key : NodeKey} {a : Observation} {l : List Observation}
    (hseen : seen key (eventsOf (first :: rest)) = a :: l) (hrecent : (a :: l).IsChain fun x y => Recent y.1 x) :
    growth (nodeGain receive) (a :: l) + a.2.wireBytes receive =
      ((a :: l).getLast (List.cons_ne_nil a l)).2.wireBytes receive := by
  have hchain := h.chains key
  rw [hseen] at hchain
  have hgain (x y : Observation) (hgrown : Recent y.1 x → x.2.Grown y.2) (hxy : Recent y.1 x) :
      nodeGain receive x y + x.2.wireBytes receive = y.2.wireBytes receive := by
    have hle : x.2.wireBytes receive ≤ y.2.wireBytes receive :=
      Nat.add_le_add (UInt64.le_iff_toNat_le.1 (hgrown hxy receive).1)
        (Nat.mul_le_mul_left 4 (UInt64.le_iff_toNat_le.1 (hgrown hxy receive).2))
    rw [nodeGain, if_pos hxy]
    omega
  exact growth_add_of_isChain hgain hchain hrecent

/-- What is published of every client, at every sample. -/
theorem totals_exact (samples : List WindowSample) (sample : WindowSample) :
    ∃ pre first rest, SinceReset (samples ++ [sample]) pre first rest ∧
      (∀ client ∈ ((run samples).output sample).clients, ∀ receive, (client.total.bytes receive).toNat =
        min (shownBytes receive first rest client.identityKey) (u64Limit - 1)) ∧
      (∀ identity, (∀ client ∈ ((run samples).output sample).clients, client.identityKey ≠ identity) →
        ∀ receive, shownBytes receive first rest identity = 0) ∧
      ∀ receive key a l, seen key (eventsOf (first :: rest)) = a :: l → ((a :: l).IsChain fun x y => Recent y.1 x) →
        growth (nodeGain receive) (a :: l) + a.2.wireBytes receive =
          ((a :: l).getLast (List.cons_ne_nil a l)).2.wireBytes receive := by
  obtain ⟨pre, first, rest, hwindow, haccounts⟩ := exists_sinceReset samples sample
  have hshows := shows_output samples sample
  rw [run_concat] at haccounts
  refine ⟨pre, first, rest, hwindow, fun client hclient receive => ?_, fun identity hnone receive => ?_,
    fun receive key a l hseen hrecent => haccounts.growth_eq receive hseen hrecent⟩
  · rw [← haccounts.shown, TreeMap.getD_eq_getD_getElem?, hshows.total client hclient]
    rfl
  · have hshown := haccounts.shown identity receive
    cases htotal : ((run samples).step sample).committedTotals[identity]? with
    | none =>
      rw [TreeMap.getD_eq_getD_getElem?, htotal] at hshown
      have hzero : ((TrafficCounters.zero).bytes receive).toNat = 0 := by cases receive <;> rfl
      rw [Option.getD_none, hzero] at hshown
      have : u64Limit - 1 ≠ 0 := by decide
      omega
    | some total =>
      obtain ⟨client, hclient, hidentity⟩ := hshows.all identity total htotal
      exact absurd hidentity (hnone client hclient)

/-- A rate that is not zero is that of a client one of whose nodes grew in the last second and a half. -/
theorem rates_recent (samples : List WindowSample) (sample : WindowSample) :
    ∃ pre first rest, SinceReset (samples ++ [sample]) pre first rest ∧
      ∀ client ∈ ((run samples).output sample).clients, client.txBps ≠ 0 ∨ client.rxBps ≠ 0 →
        ∃ m grown t, rest = m ++ grown :: t ∧ grown.Grows (eventsOf (first :: m)) client.identityKey ∧
          sample.nodes.sampleMs.toNat - grown.nodes.sampleMs.toNat ≤ rateHoldMs := by
  obtain ⟨pre, first, rest, hwindow, haccounts⟩ := exists_sinceReset samples sample
  have hlast := hwindow.lastOf_eq
  refine ⟨pre, first, rest, hwindow, fun client hclient hrate => ?_⟩
  have hshows := shows_output samples sample
  rw [run_concat] at haccounts
  obtain ⟨published, hpublished⟩ := hshows.rate client hclient hrate
  obtain ⟨m, grown, t, hsplit, hend, hgrows, hheld⟩ := haccounts.rates client.identityKey published hpublished
  rw [hend, hlast] at hheld
  exact ⟨m, grown, t, hsplit, hgrows, hheld⟩

end NssWindowBook

end Lanspeedd.RateWindow
