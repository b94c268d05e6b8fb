import DOpenWrt.Lib.Run
import DOpenWrt.Lanspeedd.TopologyReconcile

/-!
# Runs of the attachment topology

Over any reconciliations, clears and floors: whom the table trusts, which generations it gives out and what it counts
(`topology_sound`).
-/

namespace Lanspeedd

inductive TopologyOp
  | reconcile (observations : List AttachmentObservation) (sourceComplete : Bool)
  | clearActive
  | advanceGenerationFloor (floor : ℕ)

/-- The call has a fresh frame of the key's kind and interface. -/
def TopologyOp.freshFor (key : AttachmentKey) (point : AttachmentPoint) : TopologyOp → Bool
  | reconcile observations _ => (observations.filter (·.valid)).any fun o => o.key = key &&
      (o.point.kind = point.kind && o.point.ifindex = point.ifindex && o.freshFrame)
  | _ => false

namespace TopologyTable

variable {table : TopologyTable} {key : AttachmentKey} {a : Attachment} {observations : List AttachmentObservation}
  {complete : Bool} {pre : List TopologyOp}

def step (table : TopologyTable) : TopologyOp → TopologyTable
  | .reconcile observations complete => (table.reconcile observations complete).1
  | .clearActive => table.clearActive
  | .advanceGenerationFloor floor => table.advanceGenerationFloor floor

def run (ops : List TopologyOp) : TopologyTable := ops.foldl step new

theorem run_concat (ops : List TopologyOp) (op : TopologyOp) : run (ops ++ [op]) = (run ops).step op := by
  simp only [run, List.foldl_append, List.foldl_cons, List.foldl_nil]

theorem get_eq_some (table : TopologyTable) : table.get key = some a ↔ a ∈ table.active ∧ a.key = key := by
  constructor
  · intro h
    exact ⟨List.mem_of_find?_eq_some h, by simpa using List.find?_some h⟩
  · rintro ⟨hmem, rfl⟩
    have hinj : (table.active.map (·.key)).Nodup := table.sorted.imp ne_of_lt
    cases hget : table.get a.key with
    | none => exact absurd (List.find?_eq_none.1 hget a hmem) (by simp)
    | some b =>
      have hb : b.key = a.key := by simpa using List.find?_some hget
      rw [List.inj_on_of_nodup_map hinj (List.mem_of_find?_eq_some hget) hmem hb]

theorem reconcile_numbered (hlt : (table.reconcile observations complete).1.lastGeneration < u64Max) :
    Numbered table.get (observations.filter (·.valid)) table.lastGeneration
      (sortedKeys ((observations.filter (·.valid)).map (·.key)))
      ((table.reconcile observations complete).1.active, (table.reconcile observations complete).2.changed,
        (table.reconcile observations complete).1.lastGeneration) :=
  reconcileKeys_numbered ((sortedKeys_sorted _).imp ne_of_lt) hlt

theorem keeps_iff {old : Attachment} : Keeps table.get a old ↔ old ∈ table.active ∧ old.key = a.key ∧
    old.point = a.point ∧ old.trust = a.trust ∧ old.sourceGeneration = a.sourceGeneration ∧
      old.ambiguous = a.ambiguous := by
  rw [Keeps, get_eq_some, and_assoc]

theorem mem_removed {k : AttachmentKey} : k ∈ (table.reconcile observations complete).2.removed ↔
    (∃ old ∈ table.active, old.key = k) ∧
      ∀ b ∈ (table.reconcile observations complete).1.active, b.key ≠ k := by
  simp only [reconcile, List.mem_filter, List.mem_map, Bool.not_eq_true', List.any_eq_false, decide_eq_true_eq, ne_eq]

/-! ### The watermark -/

theorem lastGeneration_step (op : TopologyOp) (hlt : (table.step op).lastGeneration < u64Max) :
    table.lastGeneration ≤ (table.step op).lastGeneration := by
  cases op with
  | reconcile observations complete => exact (reconcile_numbered hlt).le
  | clearActive => exact le_rfl
  | advanceGenerationFloor floor => exact le_max_left _ _

theorem lastGeneration_mono {ops : List TopologyOp} (hlt : (run (pre ++ ops)).lastGeneration < u64Max) :
    (run pre).lastGeneration ≤ (run (pre ++ ops)).lastGeneration := by
  induction ops using List.reverseRecOn with
  | nil => rw [List.append_nil]
  | append_singleton ops op ih =>
    rw [← List.append_assoc, run_concat] at hlt ⊢
    have hle := lastGeneration_step op hlt
    exact (ih (hle.trans_lt hlt)).trans hle

theorem generation_le_step (hbound : ∀ a ∈ table.active, a.generation ≤ table.lastGeneration) (op : TopologyOp)
    (hlt : (table.step op).lastGeneration < u64Max) :
    ∀ a ∈ (table.step op).active, a.generation ≤ (table.step op).lastGeneration := by
  cases op with
  | reconcile observations complete =>
    intro a ha
    have hnum := reconcile_numbered hlt
    obtain ⟨l, -, hrec, hgen⟩ := hnum.each a ha
    by_cases hnew : a.key ∈ (table.reconcile observations complete).2.changed
    · rw [(hgen hnew).1]
      exact (hgen hnew).2
    · obtain ⟨old, hkeep, heq, -⟩ := hrec.kept (decide_eq_false hnew)
      rw [heq]
      exact (hbound old (keeps_iff.1 hkeep).1).trans hnum.le
  | clearActive => exact nofun
  | advanceGenerationFloor floor => exact fun a ha => (hbound a ha).trans (le_max_left _ _)

theorem generation_le_run (hlt : (run pre).lastGeneration < u64Max) :
    ∀ a ∈ (run pre).active, a.generation ≤ (run pre).lastGeneration := by
  induction pre using List.reverseRecOn with
  | nil => exact nofun
  | append_singleton pre op ih =>
    rw [run_concat] at hlt ⊢
    exact generation_le_step (ih ((lastGeneration_step op hlt).trans_lt hlt)) op hlt

/-- No floor is above the watermark. -/
theorem floor_le_run {floor : ℕ} (hlt : (run pre).lastGeneration < u64Max)
    (hmem : .advanceGenerationFloor floor ∈ pre) : floor ≤ (run pre).lastGeneration := by
  induction pre using List.reverseRecOn with
  | nil => cases hmem
  | append_singleton pre op ih =>
    rw [run_concat] at hlt ⊢
    have hle := lastGeneration_step op hlt
    rcases List.mem_append.1 hmem with hmem | hmem
    · exact (ih (hle.trans_lt hlt) hmem).trans hle
    · rw [← List.mem_singleton.1 hmem]
      exact le_max_right _ _

/-! ### Stable observations -/

/-- The attachment got its generation at a call of `pre` and has kept it since; the fresh frames since then are
counted. -/
def Since (pre : List TopologyOp) (a : Attachment) : Prop :=
  ∃ early observations complete recent, pre = early ++ TopologyOp.reconcile observations complete :: recent ∧
    a.key ∈ ((run early).reconcile observations complete).2.changed ∧
    (∀ mid, mid <+: recent → ∃ b ∈ (run (early ++ TopologyOp.reconcile observations complete :: mid)).active,
      b.key = a.key ∧ b.generation = a.generation ∧ b.point = a.point) ∧
    a.stableObservations =
      min ((TopologyOp.reconcile observations complete :: recent).countP (·.freshFor a.key a.point)) u32Max

theorem Since.step {old : Attachment} {op : TopologyOp} (h : Since pre old) (hkey : old.key = a.key)
    (hgen : old.generation = a.generation) (hpoint : old.point = a.point) (ha : a ∈ (run (pre ++ [op])).active)
    (hstable : a.stableObservations =
      saturatingAddU32 old.stableObservations (if op.freshFor a.key a.point then 1 else 0)) :
    Since (pre ++ [op]) a := by
  obtain ⟨early, observations, complete, recent, rfl, hch, hmid, hcount⟩ := h
  refine ⟨early, observations, complete, recent ++ [op], by simp, hkey ▸ hch, fun mid hm => ?_, ?_⟩
  · rcases List.prefix_concat_iff.1 hm with rfl | hm
    · refine ⟨a, ?_, rfl, rfl, rfl⟩
      rwa [List.append_assoc, List.cons_append] at ha
    · obtain ⟨b, hb, h1, h2, h3⟩ := hmid mid hm
      exact ⟨b, hb, h1.trans hkey, h2.trans hgen, h3.trans hpoint⟩
  · rw [hstable, hcount, hkey, hpoint, ← List.cons_append, List.countP_append, List.countP_singleton,
      saturatingAddU32]
    split <;> omega

theorem since_run (hlt : (run pre).lastGeneration < u64Max) : ∀ a ∈ (run pre).active, Since pre a := by
  induction pre using List.reverseRecOn with
  | nil => exact nofun
  | append_singleton pre op ih =>
    rw [run_concat] at hlt ⊢
    have hbefore := ih ((lastGeneration_step op hlt).trans_lt hlt)
    intro a ha
    have ha' : a ∈ (run (pre ++ [op])).active := by rwa [run_concat]
    cases op with
    | reconcile observations complete =>
      obtain ⟨l, -, hrec, -⟩ := (reconcile_numbered hlt).each a ha
      by_cases hnew : a.key ∈ ((run pre).reconcile observations complete).2.changed
      · refine ⟨pre, observations, complete, [], rfl, hnew, fun mid hm => ?_, ?_⟩
        · rw [List.prefix_nil.1 hm]
          exact ⟨a, ha', rfl, rfl, rfl⟩
        · rw [(hrec.added (decide_eq_true hnew)).2.2, List.countP_singleton]
          change (if TopologyOp.freshFor a.key a.point (.reconcile observations complete) then 1 else 0) = _
          cases TopologyOp.freshFor a.key a.point (.reconcile observations complete) <;> rfl
      · obtain ⟨old, hkeep, hgen, hstable⟩ := hrec.kept (decide_eq_false hnew)
        obtain ⟨hmem, hkey, hpoint, -⟩ := keeps_iff.1 hkeep
        exact (hbefore old hmem).step hkey hgen.symm hpoint ha' hstable
    | clearActive => cases ha
    | advanceGenerationFloor floor =>
      refine (hbefore a ha).step rfl rfl rfl ha' ?_
      obtain ⟨_, _, _, _, _, _, _, hcount⟩ := hbefore a ha
      simp only [TopologyOp.freshFor, Bool.false_eq_true, if_false, saturatingAddU32, Nat.add_zero]
      exact (min_eq_left (hcount ▸ min_le_right _ _)).symm

/-! ### The topology over every run -/

/-- The changed keys are those whose generation is not that of an attachment before. -/
theorem mem_changed_iff (hlt : (table.reconcile observations complete).1.lastGeneration < u64Max)
    (hbound : ∀ old ∈ table.active, old.generation ≤ table.lastGeneration)
    (ha : a ∈ (table.reconcile observations complete).1.active) :
    a.key ∈ (table.reconcile observations complete).2.changed ↔
      ∀ old ∈ table.active, old.key = a.key → old.generation ≠ a.generation := by
  obtain ⟨l, hl, hrec, hgen⟩ := (reconcile_numbered hlt).each a ha
  constructor
  · intro hnew old hold _ heq
    have h1 := hbound old hold
    have h2 := (hgen hnew).1
    omega
  · intro hall
    by_contra hnew
    obtain ⟨old, hkeep, heq, -⟩ := hrec.kept (decide_eq_false hnew)
    obtain ⟨hmem, hkey, -⟩ := keeps_iff.1 hkeep
    exact hall old hmem hkey heq.symm

theorem lt_generation_of_changed (hlt : (table.reconcile observations complete).1.lastGeneration < u64Max)
    (ha : a ∈ (table.reconcile observations complete).1.active)
    (hnew : a.key ∈ (table.reconcile observations complete).2.changed) : table.lastGeneration < a.generation := by
  obtain ⟨l, hl, -, hgen⟩ := (reconcile_numbered hlt).each a ha
  rw [(hgen hnew).1]
  omega

/-- In a sorted list the smaller element stands first. -/
theorem rel_of_lt {α β : Type*} [LinearOrder β] {f : α → β} {R : α → α → Prop} {l : List α} {x y : α}
    (hsorted : l.Pairwise fun x y => f x < f y) (h : l.Pairwise R) (hx : x ∈ l) (hy : y ∈ l) (hlt : f x < f y) :
    R x y := by
  obtain ⟨i, hi, rfl⟩ := List.getElem_of_mem hx
  obtain ⟨j, hj, rfl⟩ := List.getElem_of_mem hy
  rcases lt_trichotomy i j with hij | rfl | hij
  · exact List.pairwise_iff_getElem.1 h i j hi hj hij
  · exact absurd hlt (lt_irrefl _)
  · exact absurd hlt (List.pairwise_iff_getElem.1 hsorted j i hj hi hij).not_gt

/-- A smaller key gets its number first. -/
theorem generation_lt_of_key_lt {b : Attachment}
    (hlt : (table.reconcile observations complete).1.lastGeneration < u64Max)
    (ha : a ∈ (table.reconcile observations complete).1.active)
    (hb : b ∈ (table.reconcile observations complete).1.active)
    (hna : a.key ∈ (table.reconcile observations complete).2.changed)
    (hnb : b.key ∈ (table.reconcile observations complete).2.changed) (hkey : b.key < a.key) :
    b.generation < a.generation :=
  rel_of_lt (List.pairwise_map.1 (table.reconcile observations complete).1.sorted) (reconcile_numbered hlt).ordered
    hb ha hkey hnb hna

theorem exists_active_iff {k : AttachmentKey}
    (hlt : (table.reconcile observations complete).1.lastGeneration < u64Max) :
    (∃ a ∈ (table.reconcile observations complete).1.active, a.key = k) ↔
      ∃ o ∈ observations, o.valid ∧ o.key = k := by
  have hnum := reconcile_numbered hlt
  have hkeys : k ∈ sortedKeys ((observations.filter (·.valid)).map (·.key)) ↔
      ∃ o ∈ observations, o.valid ∧ o.key = k := by
    simp only [mem_sortedKeys, List.mem_map, List.mem_filter, and_assoc]
  rw [← hkeys]
  constructor
  · rintro ⟨a, ha, rfl⟩
    exact hnum.mem_keys a ha
  · intro hk
    obtain ⟨o, ho, hv, hok⟩ := hkeys.1 hk
    exact hnum.total k hk ⟨o, List.mem_filter.2 ⟨ho, hv⟩, hok⟩

/-- What the trust in an attachment says about the observations. -/
theorem trust_spec (hlt : (table.reconcile observations complete).1.lastGeneration < u64Max)
    (ha : a ∈ (table.reconcile observations complete).1.active) :
    ∃ selected, Selects (observations.filter (·.valid)) a.key selected ∧ selected.point = a.point ∧
      (a.trust = .observedExclusive → a.point.kind = .ethernet ∧ selected.providerComplete = true ∧
        (∀ o ∈ observations, o.valid → o.key = a.key → o.point.ifindex = a.point.ifindex) ∧
        (∀ o ∈ observations, o.valid → o.point.kind = .ethernet → o.point.ifindex = a.point.ifindex →
          o.tuple = (a.point.bridgeIfindex, a.point.vlanId, a.key.mac))) ∧
      (a.trust = .associatedStation → a.point.kind = .wifi ∧ selected.directClient = true ∧ a.ambiguous = false ∧
        ∀ o ∈ observations, o.valid → o.key = a.key → o.point.ifindex = a.point.ifindex) := by
  obtain ⟨l, -, hrec, -⟩ := (reconcile_numbered hlt).each a ha
  obtain ⟨selected, hsel, hpoint, htrust⟩ := hrec.selects
  have hamb : a.ambiguous = false →
      ∀ o ∈ observations, o.valid → o.key = a.key → o.point.ifindex = a.point.ifindex :=
    fun h o ho hv => hrec.ambiguous_eq.1 h o (List.mem_filter.2 ⟨ho, hv⟩)
  refine ⟨selected, hsel, hpoint, fun hex => ?_, fun hst => ?_⟩
  · obtain ⟨h, hkind, hcomplete, htuple⟩ := (attachmentTrust_exclusive hsel.mem).1 (htrust.symm.trans hex)
    refine ⟨hpoint ▸ hkind, hcomplete, hamb h, fun o ho hv hk hi => ?_⟩
    rw [htuple o (List.mem_filter.2 ⟨ho, hv⟩) hk (hi.trans (by rw [hpoint])), AttachmentObservation.tuple,
      hsel.key_eq, hpoint]
  · obtain ⟨h, hkind, hdirect⟩ := attachmentTrust_station.1 (htrust.symm.trans hst)
    exact ⟨hpoint ▸ hkind, hdirect, h, hamb h⟩

/-- For any calls `pre` on a new table and one more `reconcile`, all generations below the largest: the attachments it
trusts, the generations it keeps and gives out, and the frames it counts. -/
theorem topology_sound (pre : List TopologyOp) (observations : List AttachmentObservation) (complete : Bool)
    (hlt : ((run pre).reconcile observations complete).1.lastGeneration < u64Max) :
    -- a trusted port has a complete frame, one interface and one tuple; a trusted station is a direct client
    (∀ a ∈ ((run pre).reconcile observations complete).1.active,
      ∃ selected, Selects (observations.filter (·.valid)) a.key selected ∧ selected.point = a.point ∧
        (a.trust = .observedExclusive → a.point.kind = .ethernet ∧ selected.providerComplete = true ∧
          (∀ o ∈ observations, o.valid → o.key = a.key → o.point.ifindex = a.point.ifindex) ∧
          (∀ o ∈ observations, o.valid → o.point.kind = .ethernet → o.point.ifindex = a.point.ifindex →
            o.tuple = (a.point.bridgeIfindex, a.point.vlanId, a.key.mac))) ∧
        (a.trust = .associatedStation → a.point.kind = .wifi ∧ selected.directClient = true ∧ a.ambiguous = false ∧
          ∀ o ∈ observations, o.valid → o.key = a.key → o.point.ifindex = a.point.ifindex)) ∧
    -- a generation is kept with the attachment, and is else larger than any number before
    (∀ a ∈ ((run pre).reconcile observations complete).1.active,
      ((∃ old ∈ (run pre).active, old.key = a.key ∧ old.generation = a.generation) ↔
        ∃ old ∈ (run pre).active, old.key = a.key ∧ old.point = a.point ∧ old.trust = a.trust ∧
          old.sourceGeneration = a.sourceGeneration ∧ old.ambiguous = a.ambiguous) ∧
      (a.key ∈ ((run pre).reconcile observations complete).2.changed →
        (∀ early, early <+: pre → ∀ b ∈ (run early).active, b.generation < a.generation) ∧
        (∀ floor, .advanceGenerationFloor floor ∈ pre → floor < a.generation) ∧
        ∀ b ∈ ((run pre).reconcile observations complete).1.active,
          b.key ∈ ((run pre).reconcile observations complete).2.changed → b.key < a.key →
            b.generation < a.generation)) ∧
    -- the keys with a new generation and those that disappeared are listed
    (∀ k, k ∈ ((run pre).reconcile observations complete).2.changed ↔
      ∃ a ∈ ((run pre).reconcile observations complete).1.active, a.key = k ∧
        ∀ old ∈ (run pre).active, old.key = k → old.generation ≠ a.generation) ∧
    (∀ k, k ∈ ((run pre).reconcile observations complete).2.removed ↔
      (∃ old ∈ (run pre).active, old.key = k) ∧
        ∀ a ∈ ((run pre).reconcile observations complete).1.active, a.key ≠ k) ∧
    (∀ k, (∃ a ∈ ((run pre).reconcile observations complete).1.active, a.key = k) ↔
      ∃ o ∈ observations, o.valid ∧ o.key = k) ∧
    -- the fresh frames since the generation began are counted
    ∀ a ∈ ((run pre).reconcile observations complete).1.active,
      Since (pre ++ [.reconcile observations complete]) a := by
  have hnum := reconcile_numbered hlt
  have hpre : (run pre).lastGeneration < u64Max := hnum.le.trans_lt hlt
  have hbound := generation_le_run hpre
  refine ⟨fun a ha => trust_spec hlt ha, fun a ha => ⟨?_, fun hnew => ⟨?_, ?_, ?_⟩⟩, fun k => ?_, fun k => mem_removed,
    fun k => exists_active_iff hlt, fun a ha => ?_⟩
  · obtain ⟨l, -, hrec, -⟩ := hnum.each a ha
    constructor
    · rintro ⟨old, hold, hkey, hgen⟩
      have hkept : a.key ∉ ((run pre).reconcile observations complete).2.changed := fun hnew =>
        (mem_changed_iff hlt hbound ha).1 hnew old hold hkey hgen
      obtain ⟨old', hkeep, -⟩ := hrec.kept (decide_eq_false hkept)
      exact ⟨old', keeps_iff.1 hkeep⟩
    · rintro ⟨old, hkeep⟩
      have hkept : a.key ∉ ((run pre).reconcile observations complete).2.changed := fun hnew =>
        (hrec.added (decide_eq_true hnew)).1 old (keeps_iff.2 hkeep)
      obtain ⟨old', hkeep', hgen, -⟩ := hrec.kept (decide_eq_false hkept)
      exact ⟨old', (keeps_iff.1 hkeep').1, (keeps_iff.1 hkeep').2.1, hgen.symm⟩
  · rintro early ⟨later, rfl⟩ b hb
    have hle := lastGeneration_mono hpre
    exact ((generation_le_run (hle.trans_lt hpre) b hb).trans hle).trans_lt (lt_generation_of_changed hlt ha hnew)
  · exact fun floor hf => (floor_le_run hpre hf).trans_lt (lt_generation_of_changed hlt ha hnew)
  · exact fun b hb hnb hkey => generation_lt_of_key_lt hlt ha hb hnew hnb hkey
  · constructor
    · intro hk
      obtain ⟨a, ha, rfl⟩ := hnum.changed_sub k hk
      exact ⟨a, ha, rfl, (mem_changed_iff hlt hbound ha).1 hk⟩
    · rintro ⟨a, ha, rfl, hall⟩
      exact (mem_changed_iff hlt hbound ha).2 hall
  · refine since_run ?_ a ?_
    · rwa [run_concat]
    · rwa [run_concat]

/-! ### An invalid neighbour -/

/-- A complete Ethernet frame of `mac` on port 3 of bridge 10. -/
def portFrame (mac : Vector UInt8 6) : AttachmentObservation :=
  { key := ⟨mac, some 10, none⟩
    point := ⟨.ethernet, 3, "lan1", some 10, none⟩
    sourceGeneration := 0
    freshFrame := true
    providerComplete := true
    directClient := false }

/-- Observations that are not valid do not count as another tuple on the port. -/
theorem exclusive_beside_multicast :
    (((run []).reconcile [portFrame #v[2, 0, 0, 0, 0, 1], portFrame #v[1, 0, 0, 0, 0, 2]] true).1.active.map
        fun a => (a.key.mac, a.trust, a.point)) =
      [(#v[2, 0, 0, 0, 0, 1], .observedExclusive, (portFrame #v[2, 0, 0, 0, 0, 1]).point)] ∧
    (portFrame #v[1, 0, 0, 0, 0, 2]).point = (portFrame #v[2, 0, 0, 0, 0, 1]).point ∧
    (portFrame #v[1, 0, 0, 0, 0, 2]).tuple ≠ (portFrame #v[2, 0, 0, 0, 0, 1]).tuple := by
  decide +kernel

/-! ### A client that moves -/

/-- The locally administered address that ends in `last`. -/
def localMac (last : UInt8) : Vector UInt8 6 := #v[2, 0, 0, 0, 0, last]

def frameOn (ifindex : ℕ) (mac : Vector UInt8 6) : AttachmentObservation :=
  { portFrame mac with point := ⟨.ethernet, ifindex, "lan", some 10, none⟩ }

def station (mac : Vector UInt8 6) : AttachmentObservation :=
  { portFrame mac with
    point := ⟨.wifi, 7, "wlan0", some 10, none⟩
    directClient := true }

/-- Two clients on ports and a station, seen twice with a floor in between. -/
def beforeMove : List TopologyOp :=
  [.reconcile [frameOn 3 (localMac 1), frameOn 4 (localMac 2), station (localMac 3)] true,
    .advanceGenerationFloor 40,
    .reconcile [frameOn 3 (localMac 1), frameOn 4 (localMac 2), station (localMac 3)] true]

/-- The second client has moved to port 5, the station is gone and a third client came to port 4. -/
def afterMove : List AttachmentObservation :=
  [frameOn 4 (localMac 4), frameOn 3 (localMac 1), frameOn 5 (localMac 2)]

/-- The first client keeps its generation and its count goes on, the second has a new one above the floor. -/
theorem topology_sound_move :
    ((run beforeMove).active.map fun a => (a.key.mac, a.trust, a.generation, a.stableObservations)) =
      [(localMac 1, .observedExclusive, 1, 2), (localMac 2, .observedExclusive, 2, 2),
        (localMac 3, .associatedStation, 3, 2)] ∧
    (((run beforeMove).reconcile afterMove true).1.active.map fun a =>
        (a.key.mac, a.trust, a.generation, a.stableObservations)) =
      [(localMac 1, .observedExclusive, 1, 3), (localMac 2, .observedExclusive, 41, 1),
        (localMac 4, .observedExclusive, 42, 1)] ∧
    (((run beforeMove).reconcile afterMove true).2.changed.map (·.mac)) =
      [localMac 2, localMac 4] ∧
    (((run beforeMove).reconcile afterMove true).2.removed.map (·.mac)) = [localMac 3] ∧
    (∀ a ∈ ((run beforeMove).reconcile afterMove true).1.active,
      ((∃ old ∈ (run beforeMove).active, old.key = a.key ∧ old.generation = a.generation) ↔
        ∃ old ∈ (run beforeMove).active, old.key = a.key ∧ old.point = a.point ∧ old.trust = a.trust ∧
          old.sourceGeneration = a.sourceGeneration ∧ old.ambiguous = a.ambiguous) ∧
      (a.key ∈ ((run beforeMove).reconcile afterMove true).2.changed →
        (∀ early, early <+: beforeMove → ∀ b ∈ (run early).active, b.generation < a.generation) ∧
        (∀ floor, .advanceGenerationFloor floor ∈ beforeMove → floor < a.generation) ∧
        ∀ b ∈ ((run beforeMove).reconcile afterMove true).1.active,
          b.key ∈ ((run beforeMove).reconcile afterMove true).2.changed → b.key < a.key →
            b.generation < a.generation)) ∧
    ∀ a ∈ ((run beforeMove).reconcile afterMove true).1.active,
      Since (beforeMove ++ [.reconcile afterMove true]) a := by
  have hlt : ((run beforeMove).reconcile afterMove true).1.lastGeneration < u64Max := by decide +kernel
  obtain ⟨-, hgeneration, -, -, -, hcount⟩ := topology_sound beforeMove afterMove true hlt
  exact ⟨by decide +kernel, by decide +kernel, by decide +kernel, by decide +kernel, hgeneration, hcount⟩

end TopologyTable

end Lanspeedd
