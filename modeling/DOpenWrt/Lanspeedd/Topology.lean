import Mathlib.Data.List.Destutter
import Mathlib.Data.List.Sort
import Mathlib.Data.Prod.Lex
import DOpenWrt.Lanspeedd.AccessEdge

/-!
# Attachment topology

`access_edge/topology.rs`: where each client is attached, how far that is trusted, and the generation that every counter
of an attachment carries. The table lists its attachments in the order of their keys, as the map of the source does.
-/

namespace Lanspeedd

inductive AttachmentKind
  | ethernet
  | wifi
  deriving DecidableEq

inductive AttachmentTrust
  | associatedStation
  | observedExclusive
  | shared
  | unknown
  deriving DecidableEq

structure AttachmentKey where
  mac : Vector UInt8 6
  bridgeIfindex : Option ℕ
  vlanId : Option ℕ
  deriving DecidableEq

structure AttachmentPoint where
  kind : AttachmentKind
  ifindex : ℕ
  ifname : String
  bridgeIfindex : Option ℕ
  vlanId : Option ℕ
  deriving DecidableEq

structure AttachmentObservation where
  key : AttachmentKey
  point : AttachmentPoint
  sourceGeneration : ℕ
  freshFrame : Bool
  providerComplete : Bool
  directClient : Bool
  deriving DecidableEq

structure Attachment where
  key : AttachmentKey
  point : AttachmentPoint
  trust : AttachmentTrust
  generation : ℕ
  sourceGeneration : ℕ
  stableObservations : ℕ
  ambiguous : Bool
  deriving DecidableEq

structure TopologyUpdate where
  active : List Attachment
  changed : List AttachmentKey
  removed : List AttachmentKey
  sourceComplete : Bool
  deriving DecidableEq

/-- `u32::saturating_add`. -/
def saturatingAddU32 (a b : ℕ) : ℕ := min (a + b) u32Max

/-! ### The order of the keys -/

/-- The fields in the order in which they are compared; `None` is below every `Some`. -/
def AttachmentKey.fields (key : AttachmentKey) : List ℕ ×ₗ List ℕ ×ₗ List ℕ :=
  toLex (key.mac.toList.map UInt8.toNat, toLex (key.bridgeIfindex.toList, key.vlanId.toList))

theorem toList_injective : Function.Injective (Option.toList : Option ℕ → List ℕ) := by
  intro a b h
  cases a <;> cases b <;> simp_all

theorem AttachmentKey.fields_injective : Function.Injective fields := by
  rintro ⟨m, b, v⟩ ⟨m', b', v'⟩ h
  have h1 := congrArg Prod.fst (toLex_inj.1 h)
  have h2 := toLex_inj.1 (congrArg Prod.snd (toLex_inj.1 h))
  have hm : m = m' := Vector.toList_inj.1 (List.map_injective_iff.2 (fun _ _ => UInt8.toNat_inj.1) h1)
  have hb : b = b' := toList_injective (congrArg Prod.fst h2)
  have hv : v = v' := toList_injective (congrArg Prod.snd h2)
  rw [hm, hb, hv]

instance attachmentKeyOrder : LinearOrder AttachmentKey :=
  LinearOrder.lift' AttachmentKey.fields AttachmentKey.fields_injective

/-- The keys of a list, in order and each once. -/
def sortedKeys (keys : List AttachmentKey) : List AttachmentKey := keys.dedup.insertionSort (· ≤ ·)

@[simp] theorem mem_sortedKeys {keys : List AttachmentKey} {key : AttachmentKey} :
    key ∈ sortedKeys keys ↔ key ∈ keys := by
  rw [sortedKeys, List.mem_insertionSort, List.mem_dedup]

theorem sortedKeys_sorted (keys : List AttachmentKey) : (sortedKeys keys).Pairwise (· < ·) := by
  have hle := List.pairwise_insertionSort (· ≤ ·) keys.dedup
  have hne : (sortedKeys keys).Nodup := (List.perm_insertionSort _ _).nodup_iff.2 (List.nodup_dedup keys)
  exact (hle.and hne).imp fun h => lt_of_le_of_ne h.1 h.2

/-! ### One key -/

def kindPriority : AttachmentKind → ℕ
  | .wifi => 0
  | .ethernet => 1

def validClientMac (mac : Vector UInt8 6) : Bool :=
  mac ≠ Vector.replicate 6 0 && mac ≠ Vector.replicate 6 0xff && mac[0] &&& 1 = 0

namespace AttachmentObservation

def valid (o : AttachmentObservation) : Bool := validClientMac o.key.mac && o.point.ifindex ≠ 0

/-- What the observations of one key are sorted by. -/
def rank (o : AttachmentObservation) : ℕ ×ₗ ℕ ×ₗ ℕ :=
  toLex (kindPriority o.point.kind, toLex (o.point.ifindex, o.sourceGeneration))

/-- The tuple under which an Ethernet observation occupies its port. -/
def tuple (o : AttachmentObservation) : Option ℕ × Option ℕ × Vector UInt8 6 :=
  (o.point.bridgeIfindex, o.point.vlanId, o.key.mac)

end AttachmentObservation

/-- The tuples seen as Ethernet on a port. -/
def occupancy (grouped : List AttachmentObservation) (ifindex : ℕ) : Finset (Option ℕ × Option ℕ × Vector UInt8 6) :=
  ((grouped.filter fun o => o.point.kind = .ethernet && o.point.ifindex = ifindex).map (·.tuple)).toFinset

def attachmentTrust (selected : AttachmentObservation) (ambiguous : Bool)
    (occupancy : ℕ → Finset (Option ℕ × Option ℕ × Vector UInt8 6)) : AttachmentTrust :=
  if ambiguous then .unknown
  else if selected.point.kind = .wifi then if selected.directClient then .associatedStation else .unknown
  else if !selected.providerComplete then .unknown
  else if (occupancy selected.point.ifindex).card > 1 then .shared
  else .observedExclusive

/-- The observations of one key, sorted and without repetitions. -/
def sortedValues (grouped : List AttachmentObservation) (key : AttachmentKey) : List AttachmentObservation :=
  ((grouped.filter (·.key = key)).insertionSort fun a b => a.rank ≤ b.rank).destutter (· ≠ ·)

def isAmbiguous (selected : AttachmentObservation) (values : List AttachmentObservation) : Bool :=
  values.any (·.point.ifindex ≠ selected.point.ifindex)

def selectedSourceGeneration (selected : AttachmentObservation) (values : List AttachmentObservation) : ℕ :=
  ((values.filter (·.point.ifindex = selected.point.ifindex)).map (·.sourceGeneration)).max?.getD
    selected.sourceGeneration

def selectedFresh (selected : AttachmentObservation) (values : List AttachmentObservation) : Bool :=
  values.any fun value => value.point.kind = selected.point.kind && value.point.ifindex = selected.point.ifindex &&
    value.freshFrame

def Attachment.materialMatches (old : Attachment) (point : AttachmentPoint) (trust : AttachmentTrust)
    (sourceGeneration : ℕ) (ambiguous : Bool) : Bool :=
  old.point = point && old.trust = trust && old.sourceGeneration = sourceGeneration && old.ambiguous = ambiguous

/-- The body of the loop over the keys: the attachment, and whether its generation is new. -/
def reconcileKey (previous : AttachmentKey → Option Attachment) (grouped : List AttachmentObservation)
    (lastGeneration : ℕ) (key : AttachmentKey) (selected : AttachmentObservation)
    (values : List AttachmentObservation) : Attachment × Bool :=
  let ambiguous := isAmbiguous selected values
  let sourceGeneration := selectedSourceGeneration selected values
  let fresh := if selectedFresh selected values then 1 else 0
  let trust := attachmentTrust selected ambiguous (occupancy grouped)
  let attachment generation stable : Attachment :=
    ⟨key, selected.point, trust, generation, sourceGeneration, stable, ambiguous⟩
  match (previous key).filter (·.materialMatches selected.point trust sourceGeneration ambiguous) with
  | some old => (attachment old.generation (saturatingAddU32 old.stableObservations fresh), false)
  | none => (attachment (saturatingAdd lastGeneration 1) fresh, true)

/-- The loop: the next attachments, the changed keys and the last generation. -/
def reconcileKeys (previous : AttachmentKey → Option Attachment) (grouped : List AttachmentObservation) :
    ℕ → List AttachmentKey → List Attachment × List AttachmentKey × ℕ
  | last, [] => ([], [], last)
  | last, key :: keys =>
    match sortedValues grouped key with
    | [] => reconcileKeys previous grouped last keys
    | selected :: values =>
      let (attachment, isNew) := reconcileKey previous grouped last key selected (selected :: values)
      let (next, changed, last) :=
        reconcileKeys previous grouped (if isNew then saturatingAdd last 1 else last) keys
      (attachment :: next, if isNew then key :: changed else changed, last)

theorem keys_reconcileKeys (previous : AttachmentKey → Option Attachment) (grouped : List AttachmentObservation)
    (last : ℕ) (keys : List AttachmentKey) :
    ((reconcileKeys previous grouped last keys).1.map (·.key)).Sublist keys := by
  induction keys generalizing last with
  | nil => exact List.Sublist.refl []
  | cons key keys ih =>
    rw [reconcileKeys]
    split
    next => exact (ih last).cons key
    next selected values _ =>
      have hkey : (reconcileKey previous grouped last key selected (selected :: values)).1.key = key := by
        simp only [reconcileKey]
        split <;> rfl
      simp only [List.map_cons, hkey]
      exact (ih _).cons_cons key

/-! ### The table -/

structure TopologyTable where
  active : List Attachment
  lastGeneration : ℕ
  sorted : (active.map (·.key)).Pairwise (· < ·)
  deriving DecidableEq

namespace TopologyTable

variable (table : TopologyTable)

def new : TopologyTable := ⟨[], 0, List.Pairwise.nil⟩

def get (key : AttachmentKey) : Option Attachment := table.active.find? (·.key = key)

def clearActive : TopologyTable := ⟨[], table.lastGeneration, List.Pairwise.nil⟩

def advanceGenerationFloor (floor : ℕ) : TopologyTable :=
  { table with lastGeneration := max table.lastGeneration floor }

def reconcile (observations : List AttachmentObservation) (sourceComplete : Bool) : TopologyTable × TopologyUpdate :=
  let grouped := observations.filter (·.valid)
  let keys := sortedKeys (grouped.map (·.key))
  let next := reconcileKeys table.get grouped table.lastGeneration keys
  let removed := (table.active.map (·.key)).filter fun key => !next.1.any (·.key = key)
  (⟨next.1, next.2.2, (sortedKeys_sorted _).sublist (keys_reconcileKeys _ _ _ _)⟩,
    ⟨next.1, next.2.1, removed, sourceComplete⟩)

end TopologyTable

end Lanspeedd
