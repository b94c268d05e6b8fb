import DOpenWrt.Lanspeedd.AggregateOwned
import DOpenWrt.Lanspeedd.RateKeyOrder

/-!
# What is taken

The clients, the index and the counts of an `AggregateState` are functions of the flows that found room so far, in their
order. `Taken` says which, and a flow that finds room goes to the end of them.
-/

namespace Lanspeedd

open Std

section Sum

variable {α β : Type*} [Ord α] [TransOrd α] [LawfulEqOrd α] [BEq α] [LawfulBEqOrd α]

/-- A sum over a map, by what one of its keys adds to it. -/
theorem sum_toList_insert (map : TreeMap α β) (f : β → Nat) (key : α) (value : β) :
    ((map.insert key value).toList.map fun p => f p.2).sum + map[key]?.elim 0 f =
      (map.toList.map fun p => f p.2).sum + f value := by
  have hinsert : ∀ v : β, ((map.insert key v).toList.map fun p => f p.2).sum =
      f v + ((map.toList.filter fun p => ¬ key == p.1).map fun p => f p.2).sum := fun v =>
    ((TreeMap.toList_insert_perm.map _).sum_eq).trans List.sum_cons
  cases hold : map[key]? with
  | none =>
    have hfilter : (map.toList.filter fun p => ¬ key == p.1) = map.toList := by
      rw [List.filter_eq_self]
      intro p hp
      have hmem := TreeMap.mem_toList_iff_getElem?_eq_some.1 hp
      rw [decide_eq_true_eq]
      intro hkey
      rw [LawfulEqOrd.eq_of_compare (LawfulBEqOrd.compare_eq_iff_beq.2 hkey), hmem] at hold
      cases hold
    rw [hinsert, hfilter, Option.elim_none]
    omega
  | some old =>
    have hsame : (map.insert key old).Equiv map := TreeMap.Equiv.of_forall_constGet?_eq fun k => by
      show (map.insert key old)[k]? = map[k]?
      rw [TreeMap.getElem?_insert]
      split_ifs with hk
      · rw [← LawfulEqOrd.eq_of_compare hk, hold]
      · rfl
    have hmap := hinsert old
    rw [TreeMap.equiv_iff_toList_eq.1 hsame] at hmap
    rw [hinsert, hmap, Option.elim_some]
    omega

end Sum

variable {flows : List (FlowSample × OwnedFlow)} {p : FlowSample × OwnedFlow} {key : String}

/-! ### Details -/

/-- A set of details before it is sorted. -/
structure DetailSet (flows : List (FlowSample × OwnedFlow)) (set : ClientConnectionSet) : Prop where
  total : set.totalConnections = flows.countP qualified
  length_le : set.connections.length ≤ maxClientConnectionDetails
  sublist : set.connections.Sublist (flowDetails flows)
  truncated : set.truncated = true → set.connections.length < set.totalConnections

/-- The flows have no more details than there is room for. -/
def Uncapped (flows : List (FlowSample × OwnedFlow)) : Prop :=
  (∀ key, (flowDetails (ofKey key flows)).length ≤ maxClientConnectionDetails) ∧
    (flowDetails flows).length ≤ maxStoredConnectionDetails

theorem flowDetails_concat (flows : List (FlowSample × OwnedFlow)) (p : FlowSample × OwnedFlow) :
    flowDetails (flows ++ [p]) = flowDetails flows ++ (flowDetail p).toList := by
  unfold flowDetails
  rw [List.filterMap_append]
  cases h : flowDetail p with
  | none => exact congrArg _ (List.filterMap_cons_none h)
  | some detail => exact congrArg _ (List.filterMap_cons_some h)

theorem qualified_of_flowDetail {detail : ClientConnectionDetail} (h : flowDetail p = some detail) :
    qualified p = true := by
  obtain ⟨q, hq, -⟩ := Option.bind_eq_some_iff.1 h
  exact Option.isSome_iff_exists.2 ⟨q, hq⟩

theorem flowDetail_of_unqualified (h : qualified p = false) : flowDetail p = none := by
  cases hdetail : flowDetail p with
  | none => rfl
  | some detail =>
    rw [qualified_of_flowDetail hdetail] at h
    cases h

theorem length_flowDetails_le (flows : List (FlowSample × OwnedFlow)) :
    (flowDetails flows).length ≤ flows.countP qualified := by
  induction flows with
  | nil => exact Nat.le_refl _
  | cons p flows ih =>
    unfold flowDetails at *
    rw [List.filterMap_cons, List.countP_cons]
    cases hdetail : flowDetail p with
    | none => exact ih.trans (Nat.le_add_right _ _)
    | some detail =>
      rw [if_pos (qualified_of_flowDetail hdetail)]
      exact Nat.succ_le_succ ih

theorem length_ofKey_le (key : String) (flows : List (FlowSample × OwnedFlow)) :
    (ofKey key flows).length ≤ flows.length := List.length_filter_le _ _

theorem Uncapped.of_concat (h : Uncapped (flows ++ [p])) : Uncapped flows := by
  constructor
  · intro key
    refine Nat.le_trans (List.Sublist.length_le ?_) (h.1 key)
    exact ((List.sublist_append_left flows [p]).filter _).filterMap _
  · exact Nat.le_trans (((List.sublist_append_left flows [p]).filterMap _).length_le) h.2

namespace DetailSet

variable {set : ClientConnectionSet}

theorem concat_unqualified (h : DetailSet flows set) (hp : qualified p = false) : DetailSet (flows ++ [p]) set where
  total := by
    rw [h.total, List.countP_append, List.countP_singleton, if_neg (by rw [hp]; exact Bool.false_ne_true)]
    rfl
  length_le := h.length_le
  sublist := h.sublist.trans ((List.sublist_append_left flows [p]).filterMap _)
  truncated := h.truncated

theorem total_concat (h : DetailSet flows set) (hp : qualified p = true) (hle : flows.length < u64Max) :
    saturatingAdd set.totalConnections 1 = (flows ++ [p]).countP qualified := by
  have hcount := List.countP_le_length (p := qualified) (l := flows)
  rw [saturatingAdd_one (by rw [h.total]; omega), h.total, List.countP_append, List.countP_singleton, if_pos hp]

theorem length_le_total (h : DetailSet flows set) : set.connections.length ≤ set.totalConnections :=
  h.sublist.length_le.trans ((length_flowDetails_le flows).trans h.total.ge)

theorem concat_stored (h : DetailSet flows set) {detail : ClientConnectionDetail} (hdetail : flowDetail p = some detail)
    (hlt : set.connections.length < maxClientConnectionDetails) (hle : flows.length < u64Max) :
    DetailSet (flows ++ [p]) { set with
      totalConnections := saturatingAdd set.totalConnections 1
      connections := set.connections ++ [detail] } where
  total := h.total_concat (qualified_of_flowDetail hdetail) hle
  length_le := by
    rw [List.length_append]
    exact hlt
  sublist := by
    rw [flowDetails_concat, hdetail]
    exact h.sublist.append_right [detail]
  truncated := by
    intro htruncated
    have hlt := h.truncated htruncated
    have htotal := h.total
    have hcount := List.countP_le_length (p := qualified) (l := flows)
    rw [List.length_append, saturatingAdd_one (by omega)]
    exact Nat.succ_lt_succ hlt

theorem concat_omitted (h : DetailSet flows set) (hp : qualified p = true) (hle : flows.length < u64Max) :
    DetailSet (flows ++ [p]) { set with
      totalConnections := saturatingAdd set.totalConnections 1
      truncated := true } where
  total := h.total_concat hp hle
  length_le := h.length_le
  sublist := h.sublist.trans ((List.sublist_append_left flows [p]).filterMap _)
  truncated := by
    intro _
    have hlength := h.length_le_total
    have htotal := h.total
    have hcount := List.countP_le_length (p := qualified) (l := flows)
    rw [saturatingAdd_one (by omega)]
    exact Nat.lt_succ_of_le hlength

end DetailSet

/-! ### The index -/

/-- The index after the flows `flows`. -/
structure TakenIndex (flows : List (FlowSample × OwnedFlow)) (index : ConnectionDetailsIndex) : Prop where
  mem_sets : ∀ key, key ∈ index.sets ↔ 0 < (ofKey key flows).countP qualified
  set : ∀ key, DetailSet (ofKey key flows) (index.set key)
  stored : (index.sets.toList.map fun s => s.2.connections.length).sum = index.storedConnections
  stored_le : index.storedConnections ≤ maxStoredConnectionDetails
  stored_le_details : index.storedConnections ≤ (flowDetails flows).length
  full : Uncapped flows → ∀ key, (index.set key).connections = flowDetails (ofKey key flows)
  counters : ∀ key, index.counters[key]? =
    (flows.filter fun p => rateKey p = key).getLast?.map fun p => ⟨sentBytes p, receivedBytes p⟩

variable {index : ConnectionDetailsIndex}

theorem ConnectionDetailsIndex.elim_length (index : ConnectionDetailsIndex) (key : String) :
    index.sets[key]?.elim 0 (fun s => s.connections.length) = (index.set key).connections.length := by
  unfold ConnectionDetailsIndex.set
  rw [TreeMap.getD_eq_getD_getElem?]
  cases index.sets[key]? <;> rfl

theorem countP_ofKey_concat (flows : List (FlowSample × OwnedFlow)) (p : FlowSample × OwnedFlow) (key : String) :
    (ofKey key (flows ++ [p])).countP qualified = (ofKey key flows).countP qualified +
      if p.2.identity.key = key ∧ qualified p = true then 1 else 0 := by
  by_cases hkey : p.2.identity.key = key
  · rw [← hkey, ofKey_concat_self, List.countP_append, List.countP_singleton]
    congr 1
    exact if_congr (iff_of_eq (true_and _)).symm rfl rfl |>.trans (by simp)
  · rw [ofKey_concat_of_ne flows hkey, if_neg fun h => hkey h.1]
    rfl

namespace TakenIndex

theorem counters_concat (h : TakenIndex flows index) (p : FlowSample × OwnedFlow) (key : ConnectionRateKey) :
    (index.counters.insert (rateKey p) ⟨sentBytes p, receivedBytes p⟩)[key]? =
      ((flows ++ [p]).filter fun p => rateKey p = key).getLast?.map fun p => ⟨sentBytes p, receivedBytes p⟩ := by
  rw [TreeMap.getElem?_insert, List.filter_append]
  split_ifs with hkey
  · have hp : [p].filter (fun p => decide (rateKey p = key)) = [p] :=
      List.filter_cons_of_pos (decide_eq_true (LawfulEqOrd.eq_of_compare hkey))
    rw [hp, List.getLast?_append]
    rfl
  · have hp : [p].filter (fun p => decide (rateKey p = key)) = [] :=
      List.filter_cons_of_neg fun heq => hkey (by rw [of_decide_eq_true heq, ReflOrd.compare_self])
    rw [hp, List.append_nil]
    exact h.counters key

theorem concat_unqualified (h : TakenIndex flows index) (hp : qualified p = false) :
    TakenIndex (flows ++ [p]) (index.take p) := by
  have hdetails : flowDetails (flows ++ [p]) = flowDetails flows := by
    rw [flowDetails_concat, flowDetail_of_unqualified hp]
    exact List.append_nil _
  rw [ConnectionDetailsIndex.take_unqualified hp]
  refine ⟨fun key => ?_, fun key => ?_, h.stored, h.stored_le, ?_, fun hroom key => ?_, fun key => ?_⟩
  · rw [countP_ofKey_concat, hp, if_neg fun h => Bool.false_ne_true h.2]
    exact h.mem_sets key
  · by_cases hkey : p.2.identity.key = key
    · subst hkey
      rw [ofKey_concat_self]
      exact (h.set p.2.identity.key).concat_unqualified hp
    · rw [ofKey_concat_of_ne flows hkey]
      exact h.set key
  · rw [hdetails]
    exact h.stored_le_details
  · refine (h.full hroom.of_concat key).trans ?_
    by_cases hkey : p.2.identity.key = key
    · subst hkey
      rw [ofKey_concat_self, flowDetails_concat, flowDetail_of_unqualified hp]
      exact (List.append_nil _).symm
    · rw [ofKey_concat_of_ne flows hkey]
  · exact h.counters_concat p key

/-- A flow that changes the set of its client. -/
theorem concat_insert (h : TakenIndex flows index) (hp : qualified p = true) {set : ClientConnectionSet} {stored : Nat}
    (hset : DetailSet (ofKey p.2.identity.key flows ++ [p]) set)
    (hstored : stored + (index.set p.2.identity.key).connections.length =
      index.storedConnections + set.connections.length)
    (hle : stored ≤ maxStoredConnectionDetails) (hdetails : stored ≤ (flowDetails (flows ++ [p])).length)
    (hfull : Uncapped (flows ++ [p]) → set.connections = flowDetails (ofKey p.2.identity.key flows ++ [p])) :
    TakenIndex (flows ++ [p]) ⟨index.sets.insert p.2.identity.key set,
      index.counters.insert (rateKey p) ⟨sentBytes p, receivedBytes p⟩, stored⟩ := by
  have hself : ∀ key, p.2.identity.key = key →
      (index.sets.insert p.2.identity.key set).getD key ⟨0, [], false⟩ = set := by
    rintro key rfl
    exact TreeMap.getD_insert_self
  have hne : ∀ key, p.2.identity.key ≠ key →
      (index.sets.insert p.2.identity.key set).getD key ⟨0, [], false⟩ = index.set key := by
    intro key hkey
    rw [TreeMap.getD_insert, if_neg fun heq => hkey (LawfulEqOrd.eq_of_compare heq)]
    rfl
  refine ⟨fun key => ?_, fun key => ?_, ?_, hle, hdetails, fun hroom key => ?_, fun key => ?_⟩
  · rw [countP_ofKey_concat]
    show key ∈ index.sets.insert p.2.identity.key set ↔ _
    rw [TreeMap.mem_insert, h.mem_sets key]
    by_cases hkey : p.2.identity.key = key
    · rw [if_pos ⟨hkey, hp⟩, hkey]
      exact iff_of_true (.inl ReflOrd.compare_self) (Nat.succ_pos _)
    · rw [if_neg fun h => hkey h.1]
      exact or_iff_right fun heq => hkey (LawfulEqOrd.eq_of_compare heq)
  · show DetailSet (ofKey key (flows ++ [p])) ((index.sets.insert p.2.identity.key set).getD key ⟨0, [], false⟩)
    by_cases hkey : p.2.identity.key = key
    · rw [hself key hkey, ← hkey, ofKey_concat_self]
      exact hset
    · rw [hne key hkey, ofKey_concat_of_ne flows hkey]
      exact h.set key
  · have hsum := sum_toList_insert index.sets (fun s => s.connections.length) p.2.identity.key set
    rw [index.elim_length, h.stored] at hsum
    show ((index.sets.insert p.2.identity.key set).toList.map fun s => s.2.connections.length).sum = stored
    omega
  · by_cases hkey : p.2.identity.key = key
    · refine (congrArg _ (hself key hkey)).trans ?_
      rw [← hkey, ofKey_concat_self]
      exact hfull hroom
    · refine (congrArg _ (hne key hkey)).trans ?_
      rw [ofKey_concat_of_ne flows hkey]
      exact h.full hroom.of_concat key
  · exact h.counters_concat p key

theorem concat (h : TakenIndex flows index) (hle : flows.length < u64Max) (p : FlowSample × OwnedFlow) :
    TakenIndex (flows ++ [p]) (index.take p) := by
  have hset := h.set p.2.identity.key
  have hlt : (ofKey p.2.identity.key flows).length < u64Max := (length_ofKey_le _ _).trans_lt hle
  have hgrows := flowDetails_concat flows p
  cases hp : qualified p with
  | false => exact h.concat_unqualified hp
  | true =>
    by_cases hroom : ∃ detail, flowDetail p = some detail ∧
        (index.set p.2.identity.key).connections.length < maxClientConnectionDetails ∧
        index.storedConnections < maxStoredConnectionDetails
    · obtain ⟨detail, hdetail, hlength, hstored⟩ := hroom
      have hmax : maxStoredConnectionDetails < u64Max := by decide
      have hdetails := h.stored_le_details
      rw [hdetail] at hgrows
      rw [ConnectionDetailsIndex.take_stored hdetail hlength hstored, saturatingAdd_one (hstored.trans hmax)]
      refine h.concat_insert hp (hset.concat_stored hdetail hlength hlt) ?_ hstored ?_ fun huncapped => ?_
      · rw [List.length_append, List.length_singleton]
        omega
      · rw [hgrows, List.length_append]
        exact Nat.succ_le_succ hdetails
      · rw [flowDetails_concat, hdetail, h.full huncapped.of_concat]
        rfl
    · have hfull : ∀ detail, flowDetail p = some detail →
          maxClientConnectionDetails ≤ (index.set p.2.identity.key).connections.length ∨
            maxStoredConnectionDetails ≤ index.storedConnections := by
        intro detail hdetail
        by_contra hnot
        exact hroom ⟨detail, hdetail, by omega, by omega⟩
      rw [ConnectionDetailsIndex.take_omitted hp hfull]
      refine h.concat_insert hp (hset.concat_omitted hp hlt) rfl h.stored_le ?_ fun huncapped => ?_
      · rw [hgrows, List.length_append]
        exact h.stored_le_details.trans (Nat.le_add_right _ _)
      · have hold := h.full huncapped.of_concat p.2.identity.key
        have hkey := huncapped.1 p.2.identity.key
        have hall := huncapped.2
        have hdetails := h.stored_le_details
        rw [ofKey_concat_self, flowDetails_concat] at hkey
        rw [hgrows] at hall
        rw [flowDetails_concat]
        cases hdetail : flowDetail p with
        | none => exact hold.trans (List.append_nil _).symm
        | some detail =>
          -- there would have been room for it
          have hfull := hfull detail hdetail
          rw [hdetail, List.length_append, Option.toList_some, List.length_singleton] at hkey hall
          rw [hold] at hfull
          omega

end TakenIndex

end Lanspeedd
