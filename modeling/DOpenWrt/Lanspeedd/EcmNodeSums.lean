import DOpenWrt.Lib.Except
import DOpenWrt.Lanspeedd.EcmNodeRecords

/-!
# The sums of an ECM node snapshot

The loop of `parse` over the lines, what it leaves in the aggregate, and the nodes of the snapshot.
-/

namespace Lanspeedd.EcmNode

open Std LineStream RecordFold
open RateWindow (TrafficCounters)

attribute [local instance] lexOrd

/-! ### The lines -/

section
variable {owners : MacAddress → Option (Option String)} {reader : Reader}

/-- However the stream is delivered, the loop goes over its lines. -/
theorem parseLoop_eq {fuel : ℕ} (hreader : ∀ piece ∈ reader, piece ≠ []) (hfuel : reader.flatten.length < fuel)
    {seen : ℕ} (s : ParseState) (hlines : seen + (lines 10 reader.flatten).length ≤ maxLines) :
    parseLoop owners fuel reader seen s =
      .ok (finishNode owners ((lines 10 reader.flatten).foldl (parseNodeLine owners) s)) := by
  induction fuel generalizing reader seen s with
  | zero => exact absurd hfuel (Nat.not_lt_zero _)
  | succ fuel ih =>
    rw [parseLoop]
    by_cases hne : reader = []
    · subst hne; rfl
    · obtain ⟨hfirst, hrest⟩ := @readUntil_isFirst _ _ 10 _ hreader hne
      have hpos := List.length_pos_iff.2 hfirst.ne_nil
      have hshort : (readUntil 10 reader).2.flatten.length < fuel := by
        have hlength := congrArg List.length hfirst.split
        rw [List.length_append] at hlength
        omega
      rw [hfirst.lines, List.length_cons] at hlines
      rw [hfirst.lines, List.foldl_cons]
      have hsat : saturatingAdd seen 1 = seen + 1 := Nat.min_eq_left (hlines.trans' (by omega) |>.trans (by decide))
      dsimp only
      rw [if_neg hpos.ne', hsat, if_neg (by omega)]
      exact ih hrest hshort _ (by omega)

end

/-! ### The aggregate -/

theorem flush_default (owners : MacAddress → Option (Option String)) {pending : PendingNode} (h : pending.mac = none)
    (out : Aggregate × ℕ) : flush owners pending out = out := by
  rw [flush, PendingNode.added, h]; rfl

/-- Lines before the first address are not part of a node. -/
theorem foldl_more_mac (body : List (List UInt8)) (pending : PendingNode) :
    (body.foldl PendingNode.more pending).mac = pending.mac := by
  induction body generalizing pending with
  | nil => rfl
  | cons line body ih =>
    rw [List.foldl_cons, ih, PendingNode.more]
    split <;> rfl

/-- The aggregate at the end, and how many nodes are in it. -/
theorem finish_lines (identities : List IdentityKey) (stream : List UInt8) (s : ParseState)
    (hs : s = finishNode (uniqueMacOwners identities)
      ((lines 10 stream).foldl (parseNodeLine (uniqueMacOwners identities)) {})) :
    (s.aggregate, s.stats.nodesMatched) = ((streamCounters identities stream).map textEntry).foldl addEntry (∅, 0) := by
  set owners := uniqueMacOwners identities with howners
  have hfold := foldl_core owners (lines 10 stream) {}
  have hloop := @Loop.foldl_step _ _ _ isAddressLine (nodeLoop owners) (lines 10 stream) {} (∅, 0)
  have hbefore : (nodeLoop owners).flush
      ((split isAddressLine (lines 10 stream)).1.foldl (nodeLoop owners).more {}) (∅, 0) = (∅, 0) :=
    flush_default owners (foldl_more_mac _ _) _
  rw [hbefore] at hloop
  rw [hs, finishNode_core]
  refine Eq.trans ?_ (hloop.trans ?_)
  · rw [← show ParseState.core {} = ({}, ∅, 0) from rfl, ← hfold]; rfl
  · rw [streamCounters, nodeRecords, List.map_filterMap, List.foldl_filterMap]
    refine List.foldl_ext _ _ _ fun out record _ => ?_
    have hadded := added_record identities record
    rw [← howners] at hadded
    change flush owners _ out = _
    rw [flush, hadded]
    cases (recordCounters identities record).map textEntry <;> rfl

/-! ### Sums -/

def fieldSum (field : TrafficCounters → UInt64) (counters : List TrafficCounters) : ℕ :=
  (counters.map fun c => (field c).toNat).sum

/-- The sums of the four counters. -/
def sumCounters (counters : List TrafficCounters) : TrafficCounters where
  txBytes := UInt64.ofNat (fieldSum (·.txBytes) counters)
  rxBytes := UInt64.ofNat (fieldSum (·.rxBytes) counters)
  txPackets := UInt64.ofNat (fieldSum (·.txPackets) counters)
  rxPackets := UInt64.ofNat (fieldSum (·.rxPackets) counters)

/-- All four sums are below 2^64. -/
def SumsFit (counters : List TrafficCounters) : Prop :=
  fieldSum (·.txBytes) counters < 2 ^ 64 ∧ fieldSum (·.rxBytes) counters < 2 ^ 64 ∧
    fieldSum (·.txPackets) counters < 2 ^ 64 ∧ fieldSum (·.rxPackets) counters < 2 ^ 64

instance SumsFit.decidable (counters : List TrafficCounters) : Decidable (SumsFit counters) :=
  inferInstanceAs (Decidable (_ ∧ _))

theorem fieldSum_concat (field : TrafficCounters → UInt64) (counters : List TrafficCounters) (c : TrafficCounters) :
    fieldSum field (counters ++ [c]) = fieldSum field counters + (field c).toNat := by
  rw [fieldSum, List.map_append, List.sum_append, List.map_singleton, List.sum_singleton]; rfl

theorem saturatingAdd_fieldSum {field : TrafficCounters → UInt64} {counters : List TrafficCounters}
    {c : TrafficCounters}
    (h : fieldSum field (counters ++ [c]) < 2 ^ 64) :
    RateWindow.saturatingAdd64 (UInt64.ofNat (fieldSum field counters)) (field c) =
      UInt64.ofNat (fieldSum field (counters ++ [c])) := by
  rw [fieldSum_concat] at h ⊢
  have hfield : (UInt64.ofNat (fieldSum field counters)).toNat = fieldSum field counters :=
    UInt64.toNat_ofNat_of_lt' (Nat.lt_of_le_of_lt (Nat.le_add_right ..) h)
  rw [RateWindow.saturatingAdd64, RateWindow.tryFromOr, hfield]
  exact if_pos h

theorem addCounters_sum {counters : List TrafficCounters} {c : TrafficCounters} (h : SumsFit (counters ++ [c])) :
    addCounters (sumCounters counters) c = sumCounters (counters ++ [c]) := by
  obtain ⟨htb, hrb, htp, hrp⟩ := h
  unfold addCounters sumCounters
  rw [saturatingAdd_fieldSum htb, saturatingAdd_fieldSum hrb, saturatingAdd_fieldSum htp, saturatingAdd_fieldSum hrp]

theorem SumsFit.init {counters : List TrafficCounters} {c : TrafficCounters} (h : SumsFit (counters ++ [c])) :
    SumsFit counters := by
  unfold SumsFit at h ⊢
  simp only [fieldSum_concat] at h
  omega

/-- What the entries of a key come to. -/
def totalOf (counters : List TrafficCounters) : Option TrafficCounters :=
  if counters = [] then none else some (sumCounters counters)

section
variable {κ : Type} [DecidableEq κ]

/-- The counters of the entries with a key. -/
def countersAt (entries : List (κ × TrafficCounters)) (key : κ) : List TrafficCounters :=
  (entries.filter fun entry => entry.1 = key).map Prod.snd

theorem countersAt_concat (entries : List (κ × TrafficCounters)) (entry : κ × TrafficCounters) (key : κ) :
    countersAt (entries ++ [entry]) key = countersAt entries key ++ if entry.1 = key then [entry.2] else [] := by
  rw [countersAt, List.filter_append, List.map_append, List.filter_singleton, countersAt]
  by_cases h : entry.1 = key
  · simp [h]
  · simp [h]

theorem countersAt_ne_nil {entries : List (κ × TrafficCounters)} {key : κ} :
    countersAt entries key ≠ [] ↔ key ∈ entries.map Prod.fst := by
  rw [countersAt, ne_eq, List.map_eq_nil_iff, List.filter_eq_nil_iff, List.mem_map]
  simp

end

/-- The aggregate has the sums of the entries, by key, and counts them. -/
theorem foldl_addEntry {entries : List ((String × UInt64) × TrafficCounters)}
    (hfit : ∀ key, SumsFit (countersAt entries key)) (hcount : entries.length ≤ maxLines) :
    (∀ key, (entries.foldl addEntry (∅, 0)).1[key]? = totalOf (countersAt entries key)) ∧
      (entries.foldl addEntry (∅, 0)).2 = entries.length := by
  induction entries using List.reverseRecOn with
  | nil => exact ⟨fun key => TreeMap.getElem?_emptyc, rfl⟩
  | append_singleton entries entry ih =>
    rw [List.length_append, List.length_singleton] at hcount
    have hfit' (key : String × UInt64) : SumsFit (countersAt entries key) := by
      have h := hfit key
      rw [countersAt_concat] at h
      split at h
      · exact h.init
      · rwa [List.append_nil] at h
    obtain ⟨hget, hlength⟩ := ih hfit' (by omega)
    rw [List.foldl_concat, addEntry]
    refine ⟨fun key => ?_, ?_⟩
    · rw [TreeMap.getElem?_insert, countersAt_concat]
      by_cases hkey : entry.1 = key
      · have hthis := hfit key
        rw [countersAt_concat, if_pos hkey] at hthis
        rw [if_pos (Std.compare_eq_iff_eq.2 hkey), if_pos hkey, totalOf, if_neg (List.concat_ne_nil _ _),
          ← addCounters_sum hthis,
          hkey, hget, totalOf]
        split
        · next hnil => rw [hnil]; rfl
        · rfl
      · rw [if_neg fun h => hkey (Std.compare_eq_iff_eq.1 h), if_neg hkey, List.append_nil, hget]
    · rw [hlength, List.length_append, List.length_singleton, saturatingAdd]
      exact Nat.min_eq_left (hcount.trans (by decide))

/-! ### Identities as texts -/

theorem hexDigit_digitChar : ∀ n : Fin 16, hexDigit (Nat.digitChar n) = some n.val := by decide

theorem digitChar_injective {m n : ℕ} (hm : m < 16) (hn : n < 16) (h : Nat.digitChar m = Nat.digitChar n) : m = n := by
  have h' := (hexDigit_digitChar ⟨m, hm⟩).symm.trans ((congrArg hexDigit h).trans (hexDigit_digitChar ⟨n, hn⟩))
  exact Option.some.inj h'

theorem hexText_injective {a b : UInt8} (h : hexText a = hexText b) : a = b := by
  obtain ⟨hhigh, hlow⟩ := List.cons.inj h
  have ha := a.toNat_lt
  have hb := b.toNat_lt
  have hdiv := digitChar_injective (by omega) (by omega) hhigh
  have hmod := digitChar_injective (Nat.mod_lt _ (by decide)) (Nat.mod_lt _ (by decide)) (List.cons.inj hlow).1
  exact UInt8.toNat_inj.1 (by omega)

theorem octet_ext {a b : MacAddress} (h : ∀ i < 6, octet a i = octet b i) : a = b := by
  have hget (mac : MacAddress) {i : ℕ} (hi : i < 6) : mac.toList[i]? = some (octet mac i) := by
    have hlt : i < mac.toList.length := by rwa [Vector.length_toList]
    rw [octet, List.getD_eq_getElem?_getD, List.getElem?_eq_getElem hlt, Option.getD_some]
  refine Vector.toList_inj.1 (List.ext_getElem? fun i => ?_)
  by_cases hi : i < 6
  · rw [hget a hi, hget b hi, h i hi]
  · rw [List.getElem?_eq_none, List.getElem?_eq_none]
    · rw [Vector.length_toList]
      exact Nat.le_of_not_lt hi
    · rw [Vector.length_toList]
      exact Nat.le_of_not_lt hi

theorem macText_injective {a b : MacAddress} (h : macText a = macText b) : a = b := by
  have hlength (o o' : UInt8) : (hexText o).length = (hexText o').length := rfl
  simp only [macText, List.append_assoc, List.cons_append] at h
  obtain ⟨h0, h⟩ := List.append_inj h (hlength ..)
  obtain ⟨h1, h⟩ := List.append_inj (List.cons.inj h).2 (hlength ..)
  obtain ⟨h2, h⟩ := List.append_inj (List.cons.inj h).2 (hlength ..)
  obtain ⟨h3, h⟩ := List.append_inj (List.cons.inj h).2 (hlength ..)
  obtain ⟨h4, h⟩ := List.append_inj (List.cons.inj h).2 (hlength ..)
  have h5 := (List.cons.inj h).2
  refine octet_ext fun i hi => hexText_injective ?_
  interval_cases i
  · exact h0
  · exact h1
  · exact h2
  · exact h3
  · exact h4
  · exact h5

theorem IdentityKey.text_injective : Function.Injective IdentityKey.text := by
  intro a b h
  have hlist := String.ofList_injective h
  obtain ⟨hmac, hzone⟩ := List.append_inj hlist rfl
  exact congrArg₂ IdentityKey.mk (macText_injective hmac) (String.toList_injective (List.cons.inj hzone).2)

def textKey (key : IdentityKey × UInt64) : String × UInt64 := (key.1.text, key.2)

theorem textKey_injective : Function.Injective textKey := fun a b h => by
  obtain ⟨htext, hgeneration⟩ := Prod.mk.inj h
  exact Prod.ext (IdentityKey.text_injective htext) hgeneration

theorem countersAt_text (entries : List ((IdentityKey × UInt64) × TrafficCounters)) (key : IdentityKey × UInt64) :
    countersAt (entries.map textEntry) (textKey key) = countersAt entries key := by
  rw [countersAt, countersAt, List.filter_map, List.map_map]
  have hsame : ((fun entry : (String × UInt64) × TrafficCounters => decide (entry.1 = textKey key)) ∘ textEntry) =
      fun entry => decide (entry.1 = key) := funext fun entry => decide_eq_decide.2 textKey_injective.eq_iff
  rw [hsame]; rfl

theorem countersAt_text_ne_nil {entries : List ((IdentityKey × UInt64) × TrafficCounters)} {key : String × UInt64}
    (h : countersAt (entries.map textEntry) key ≠ []) : ∃ key', textKey key' = key ∧ countersAt entries key' ≠ [] := by
  obtain ⟨textual, hmem, rfl⟩ := List.mem_map.1 (countersAt_ne_nil.1 h)
  obtain ⟨entry, hentry, rfl⟩ := List.mem_map.1 hmem
  exact ⟨entry.1, rfl, countersAt_ne_nil.2 (List.mem_map.2 ⟨entry, hentry, rfl⟩)⟩

/-! ### The snapshot -/

/-- The aggregate after the entries of a stream. -/
structure Sums (entries : List ((IdentityKey × UInt64) × TrafficCounters)) (aggregate : Aggregate) : Prop where
  get : ∀ key, aggregate[key]? = totalOf (countersAt (entries.map textEntry) key)
  size : aggregate.size ≤ (entries.map Prod.fst).dedup.length

section
variable {entries : List ((IdentityKey × UInt64) × TrafficCounters)} {aggregate : Aggregate}

theorem sumsFit_text (h : ∀ key, SumsFit (countersAt entries key)) (key : String × UInt64) :
    SumsFit (countersAt (entries.map textEntry) key) := by
  by_cases hnil : countersAt (entries.map textEntry) key = []
  · rw [hnil]
    decide
  · obtain ⟨key', rfl, -⟩ := countersAt_text_ne_nil hnil
    rw [countersAt_text]
    exact h key'

theorem sums_of_get (h : ∀ key, aggregate[key]? = totalOf (countersAt (entries.map textEntry) key)) :
    Sums entries aggregate := by
  refine ⟨h, ?_⟩
  have hsub : aggregate.toList.map Prod.fst ⊆ (entries.map Prod.fst).dedup.map textKey := by
    intro key hkey
    obtain ⟨entry, hentry, rfl⟩ := List.mem_map.1 hkey
    have hget := (h entry.1).symm.trans (TreeMap.mem_toList_iff_getElem?_eq_some.1 hentry)
    have hne : countersAt (entries.map textEntry) entry.1 ≠ [] := fun hnil => by
      rw [totalOf, if_pos hnil] at hget
      exact Option.some_ne_none _ hget.symm
    obtain ⟨key', hkey', hne'⟩ := countersAt_text_ne_nil hne
    exact List.mem_map.2 ⟨key', List.mem_dedup.2 (countersAt_ne_nil.1 hne'), hkey'⟩
  have hle := (List.subperm_of_subset (TreeTotal.distinct_keys aggregate) hsub).length_le
  rwa [List.length_map, List.length_map, TreeMap.length_toList] at hle

/-- The nodes are the sums of the entries, one for each identity and generation that has entries. -/
theorem Sums.mem_nodes (h : Sums entries aggregate) (node : NodeCounters) :
    node ∈ (aggregate.toList.map fun entry => NodeCounters.mk entry.1.1 entry.1.2 entry.2) ↔
      ∃ identity generation, countersAt entries (identity, generation) ≠ [] ∧
        node = ⟨identity.text, generation, sumCounters (countersAt entries (identity, generation))⟩ := by
  rw [List.mem_map]
  constructor
  · rintro ⟨entry, hentry, rfl⟩
    have hget := (h.get entry.1).symm.trans (TreeMap.mem_toList_iff_getElem?_eq_some.1 hentry)
    rw [totalOf] at hget
    split at hget
    · exact absurd hget.symm (Option.some_ne_none _)
    · next hne =>
      obtain ⟨key, hkey, hne'⟩ := countersAt_text_ne_nil hne
      rw [← hkey, countersAt_text] at hget
      refine ⟨key.1, key.2, hne', ?_⟩
      rw [← Option.some.inj hget, ← hkey]; rfl
  · rintro ⟨identity, generation, hne, rfl⟩
    refine ⟨(textKey (identity, generation), sumCounters (countersAt entries (identity, generation))),
      TreeMap.mem_toList_iff_getElem?_eq_some.2 ?_, rfl⟩
    rw [h.get, countersAt_text, totalOf, if_neg hne]

end

/-- What one record adds stands alone, whatever the lines of the others are. -/
theorem records_apart (identities : List IdentityKey) {head : List UInt8} {body behind : List (List UInt8)}
    (hhead : isAddressLine head = true) (hbody : ∀ line ∈ body, isAddressLine line = false)
    (hbehind : StartsWithHead isAddressLine behind) (before : List (List UInt8)) :
    (records isAddressLine (before ++ head :: body ++ behind)).filterMap (recordCounters identities) =
      (records isAddressLine before).filterMap (recordCounters identities) ++
        (recordCounters identities (head, body)).toList ++
          (records isAddressLine behind).filterMap (recordCounters identities) := by
  rw [records_record hhead hbody hbehind, List.filterMap_append, List.append_assoc]
  refine congrArg (_ ++ ·) ?_
  rw [List.filterMap_cons]
  cases recordCounters identities (head, body) <;> rfl

/-- The snapshot has, for each identity and generation, the sums over the well-formed records of its address, it counts
these records, and the lines of a record have no effect on what another one adds. -/
theorem parse_exact (reader : Reader) (hreader : ∀ piece ∈ reader, piece ≠ []) (identities : List IdentityKey)
    (sampleMs : UInt64) (hlines : (lines 10 reader.flatten).length ≤ maxLines)
    (hsums : ∀ key, SumsFit (countersAt (streamCounters identities reader.flatten) key))
    (hkeys : ((streamCounters identities reader.flatten).map Prod.fst).dedup.length ≤ maxNodes) :
    (∃ snapshot, parse reader identities sampleMs = .ok snapshot ∧ snapshot.sampleMs = sampleMs ∧
      (∀ node, node ∈ snapshot.nodes ↔ ∃ identity generation,
        countersAt (streamCounters identities reader.flatten) (identity, generation) ≠ [] ∧
        node = ⟨identity.text, generation,
          sumCounters (countersAt (streamCounters identities reader.flatten) (identity, generation))⟩) ∧
      (snapshot.nodes.map fun node => (node.identityKey, node.generation)).Nodup ∧
      snapshot.stats.nodesMatched = (streamCounters identities reader.flatten).length) ∧
    ∀ (head : List UInt8) (body before behind : List (List UInt8)), isAddressLine head = true →
      (∀ line ∈ body, isAddressLine line = false) → StartsWithHead isAddressLine behind →
      (records isAddressLine (before ++ head :: body ++ behind)).filterMap (recordCounters identities) =
        (records isAddressLine before).filterMap (recordCounters identities) ++
          (recordCounters identities (head, body)).toList ++
            (records isAddressLine behind).filterMap (recordCounters identities) := by
  refine ⟨?_, fun head body before behind hhead hbody hbehind => records_apart identities hhead hbody hbehind before⟩
  set entries := streamCounters identities reader.flatten with hentries
  have hloop := @parseLoop_eq (uniqueMacOwners identities) reader _ hreader (Nat.lt_succ_self _) 0 {}
    (hlines.trans' (Nat.zero_add _).le)
  have hcount : (entries.map textEntry).length ≤ maxLines := by
    rw [List.length_map]
    exact ((List.length_filterMap_le _ _).trans (length_records_le _ _)).trans hlines
  have hfinish := finish_lines identities reader.flatten _ rfl
  set s := finishNode (uniqueMacOwners identities)
    ((lines 10 reader.flatten).foldl (parseNodeLine (uniqueMacOwners identities)) {})
  obtain ⟨hget, hlength⟩ := foldl_addEntry (sumsFit_text hsums) hcount
  rw [← hentries] at hfinish
  rw [← hfinish] at hget hlength
  have hall : Sums entries s.aggregate := sums_of_get hget
  refine ⟨{
      sampleMs
      nodes := s.aggregate.toList.map fun entry =>
        { identityKey := entry.1.1, generation := entry.1.2, counters := entry.2 }
      stats := s.stats }, ?_, rfl, hall.mem_nodes, ?_, ?_⟩
  · rw [parse, hloop, Except.ok_bind, if_neg (Nat.not_lt.2 (hall.size.trans hkeys))]; rfl
  · rw [List.map_map]
    exact TreeTotal.distinct_keys s.aggregate
  · exact hlength.trans (List.length_map ..)

/-- The snapshot of one node. -/
def nodeText : List UInt8 := ("nodes.node.address=02:00:00:00:20:11\nnodes.node.time_added=253299\n" ++
  "nodes.node.adv_stats.from_data_total=764\nnodes.node.adv_stats.to_data_total=2141\n" ++
  "nodes.node.adv_stats.from_packet_total=12\nnodes.node.adv_stats.to_packet_total=14\n").toUTF8.data.toList

theorem nodeMac_size : (#[2, 0, 0, 0, 0x20, 0x11] : Array UInt8).size = 6 := rfl

def nodeIdentity : IdentityKey where
  mac := ⟨#[2, 0, 0, 0, 0x20, 0x11], nodeMac_size⟩
  zone := "lan"

theorem nodeText_counters :
    streamCounters [nodeIdentity] [nodeText].flatten = [((nodeIdentity, 253299), ⟨764, 2141, 12, 14⟩)] := by
  decide +kernel

theorem nodeText_sums (key : IdentityKey × UInt64) :
    SumsFit (countersAt (streamCounters [nodeIdentity] [nodeText].flatten) key) := by
  rw [nodeText_counters, countersAt, List.filter_singleton]
  by_cases h : (nodeIdentity, 253299) = key
  · rw [decide_eq_true h]
    decide
  · rw [decide_eq_false h]
    decide

theorem parse_exact_node : ∃ snapshot, parse [nodeText] [nodeIdentity] 42 = .ok snapshot ∧
    snapshot.stats.nodesMatched = 1 ∧
    NodeCounters.mk nodeIdentity.text 253299 ⟨764, 2141, 12, 14⟩ ∈ snapshot.nodes := by
  obtain ⟨⟨snapshot, hparse, -, hnodes, -, hmatched⟩, -⟩ := parse_exact [nodeText] (by decide +kernel) [nodeIdentity] 42
    (by decide +kernel) nodeText_sums (by rw [nodeText_counters]; decide +kernel)
  rw [nodeText_counters] at hmatched
  refine ⟨snapshot, hparse, hmatched, (hnodes _).2 ⟨nodeIdentity, 253299, ?_, ?_⟩⟩
  · rw [nodeText_counters]
    decide +kernel
  · rw [nodeText_counters]
    decide +kernel

end Lanspeedd.EcmNode
