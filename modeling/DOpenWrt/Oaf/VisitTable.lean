import Mathlib.Data.List.FinRange
import Mathlib.Data.List.Induction
import DOpenWrt.Lib.CFormat
import DOpenWrt.Oaf.AfConfig

/-!
# The visits of a client

The table of the applications that a client has used since its last report, its traffic counters and the timer that
reports both (`af_client.c`, `af_update_client_app_info` of `app_filter.c`). The 64-bit counters of bytes and packets are
natural numbers. A report clears what it is about, whether its text goes out or is too long for it.
-/

namespace Oaf
open CString (str printInt decimal)

def maxRecordAppNum : ℕ := 64
def maxExpiredVisitInfoCount : ℕ := 10

/-- `app_visit_info_t`; the slot of an `app_id` of zero is free. -/
structure AppVisitInfo where
  appId : UInt32 := 0
  totalNum : UInt32 := 0
  dropNum : UInt32 := 0
  latestTime : UInt64 := 0
  latestAction : UInt32 := 0
  deriving DecidableEq

abbrev VisitTable := Fin maxRecordAppNum → AppVisitInfo

/-- An address, in the order of its bytes. -/
structure Ipv4 where
  b0 : UInt8
  b1 : UInt8
  b2 : UInt8
  b3 : UInt8
  deriving DecidableEq

/-- `flow_stat_t`; its counters do not wrap here. -/
structure FlowStat where
  upBytes : ℕ := 0
  downBytes : ℕ := 0
  upPkts : ℕ := 0
  downPkts : ℕ := 0
  deriving DecidableEq

/-- `flow_rate_t`. -/
structure FlowRate where
  upRate : UInt32 := 0
  downRate : UInt32 := 0
  pktUpRate : UInt32 := 0
  pktDownRate : UInt32 := 0

/-- `visiting_info_t`. -/
structure VisitingInfo where
  visitingApp : UInt32 := 0
  appTime : UInt32 := 0

/-- What the visits and the timer use of an `af_client_info_t`. -/
structure AfClientNode where
  mac : Mac
  ip : Ipv4 := ⟨0, 0, 0, 0⟩
  flow : FlowStat := {}
  lastFlow : FlowStat := {}
  periodFlow : FlowStat := {}
  rate : FlowRate := {}
  visitAppNum : UInt32 := 0
  activeTime : ℕ := 0
  inactiveTime : ℕ := 0
  active : Bool := false
  visiting : VisitingInfo := {}
  timerCount : ℕ := 0
  reportCount : ℕ := 0
  visitInfo : VisitTable := fun _ => {}

/-! ### Visits -/

/-- The slot of the application or, before it, a free one; the first if there is none. -/
def getVisitIndex (visits : VisitTable) (appId : UInt32) : Fin maxRecordAppNum :=
  ((List.finRange maxRecordAppNum).find? fun i => (visits i).appId == appId || (visits i).appId == 0).getD
    ⟨0, Nat.succ_pos 63⟩

def AppVisitInfo.count (info : AppVisitInfo) (appId drop now : UInt32) : AppVisitInfo where
  appId
  totalNum := info.totalNum + 1
  dropNum := if drop ≠ 0 then info.dropNum + 1 else info.dropNum
  latestTime := now.toUInt64
  latestAction := drop

/-- `af_update_client_app_info` at the time `now`. -/
def updateClientAppInfo (node : AfClientNode) (appId drop now : UInt32) : AfClientNode :=
  let index := getVisitIndex node.visitInfo appId
  let node := { node with
    visitInfo := Function.update node.visitInfo index ((node.visitInfo index).count appId drop now) }
  if 0 < appId.toInt32 then { node with visiting := ⟨appId, now⟩ } else node

/-! ### The report -/

def AppVisitInfo.timeout (info : AppVisitInfo) : UInt64 := if 3 < info.totalNum then 180 else 60

/-- The slots that `flush_expired_visit_info` clears, with their number so far. -/
def flushExpiredSlot (now : UInt32) (state : VisitTable × ℕ) (i : Fin maxRecordAppNum) : VisitTable × ℕ :=
  if maxExpiredVisitInfoCount ≤ state.2 then state
  else if (state.1 i).timeout < now.toUInt64 - (state.1 i).latestTime then
    (Function.update state.1 i {}, state.2 + 1)
  else state

/-- Nothing is flushed while a slot is free. -/
def flushExpiredVisitInfo (visits : VisitTable) (now : UInt32) : VisitTable :=
  if ∃ i, (visits i).appId = 0 then visits
  else ((List.finRange maxRecordAppNum).foldl (flushExpiredSlot now) (visits, 0)).1

/-- What a report says. -/
structure VisitReport where
  mac : Mac
  ip : Ipv4
  appNum : UInt32
  upFlow : UInt32
  downFlow : UInt32
  active : Bool
  visits : List (UInt32 × UInt32)

/-- `"%02x"`. -/
def printHex (b : UInt8) : List UInt8 :=
  [b.toNat / 16, b.toNat % 16].map fun digit => UInt8.ofNat (Nat.digitChar digit).toNat

/-- `MAC_FMT`. -/
def Mac.text (mac : Mac) : List UInt8 :=
  (str ":").intercalate ([mac.b0, mac.b1, mac.b2, mac.b3, mac.b4, mac.b5].map printHex)

/-- `"%pI4"`. -/
def Ipv4.text (ip : Ipv4) : List UInt8 :=
  (str ".").intercalate ([ip.b0, ip.b1, ip.b2, ip.b3].map fun b => decimal b.toNat)

/-- A number of an object, which is an `int`. -/
def jsonNumber (n : UInt32) : List UInt8 := printInt n.toInt32.toInt

def visitText (visit : UInt32 × UInt32) : List UInt8 :=
  str "\x7b\"appid\":" ++ jsonNumber visit.1 ++ str ",\"latest_action\":" ++ jsonNumber visit.2 ++ str "\x7d"

/-- The report as `cJSON_Print` writes and `cJSON_Minify` leaves it. -/
def VisitReport.text (report : VisitReport) : List UInt8 :=
  str "\x7b\"mac\":\"" ++ report.mac.text ++ str "\",\"ip\":\"" ++ report.ip.text ++
    str "\",\"app_num\":" ++ jsonNumber report.appNum ++ str ",\"up_flow\":" ++ jsonNumber report.upFlow ++
    str ",\"down_flow\":" ++ jsonNumber report.downFlow ++
    str ",\"active\":" ++ jsonNumber (if report.active then 1 else 0) ++
    str ",\"visit_info\":[" ++ (str ",").intercalate (report.visits.map visitText) ++ str "]\x7d"

/-- `MAX_OAF_NL_MSG_LEN`. -/
def maxOafNlMsgLen : ℕ := 1024

/-- `af_send_msg_to_user(out, strlen(out))`, whose length is a `uint16_t`: what goes to netlink, none for -1. -/
def afSendMsgToUser (text : List UInt8) : Option (List UInt8) :=
  let len := text.length % 2 ^ 16
  if maxOafNlMsgLen ≤ len then none else some (text.take len)

/-- The report that is built, and the client with its table, its flow and its counters cleared. -/
def visitReport (node : AfClientNode) (now : UInt32) : AfClientNode × VisitReport :=
  let visitInfo := flushExpiredVisitInfo node.visitInfo now
  let reported := (List.finRange maxRecordAppNum).filter fun i => (visitInfo i).appId ≠ 0
  let report : VisitReport := {
    mac := node.mac
    ip := node.ip
    appNum := node.visitAppNum
    upFlow := UInt32.ofNat (node.periodFlow.upBytes / 1024)
    downFlow := UInt32.ofNat (node.periodFlow.downBytes / 1024)
    active := node.active
    visits := reported.map fun i => ((visitInfo i).appId, (visitInfo i).latestAction) }
  ({ node with
    visitInfo := fun i => if (visitInfo i).appId ≠ 0 then {} else visitInfo i
    reportCount := node.reportCount + 1
    periodFlow := {} }, report)

/-- `__af_visit_info_report`: the report, and what goes to netlink of it. -/
def afVisitInfoReport (node : AfClientNode) (now : UInt32) : AfClientNode × VisitReport × Option (List UInt8) :=
  let (node, report) := visitReport node now
  (node, report, afSendMsgToUser report.text)

/-! ### The timer -/

/-- `af_update_client_status`. -/
def updateClientStatus (node : AfClientNode) : AfClientNode :=
  let down := node.flow.downBytes - node.lastFlow.downBytes
  let up := node.flow.upBytes - node.lastFlow.upBytes
  let periodFlow := { node.periodFlow with
    downBytes := if 0 < node.lastFlow.downBytes then node.periodFlow.downBytes + down else node.periodFlow.downBytes
    upBytes := if 0 < node.lastFlow.upBytes then node.periodFlow.upBytes + up else node.periodFlow.upBytes }
  let rate : FlowRate := {
    upRate := UInt32.ofNat (up / 2)
    downRate := UInt32.ofNat (down / 2)
    pktUpRate := UInt32.ofNat ((node.flow.upPkts - node.lastFlow.upPkts) / 2)
    pktDownRate := UInt32.ofNat ((node.flow.downPkts - node.lastFlow.downPkts) / 2) }
  let node := { node with periodFlow, rate, lastFlow := node.flow }
  if 10 < rate.pktDownRate ∨ 5 < rate.pktUpRate then
    { node with activeTime := node.activeTime + 1, inactiveTime := 0, active := true }
  else
    { node with
      inactiveTime := node.inactiveTime + 1
      activeTime := 0
      active := node.active && decide (node.inactiveTime + 1 ≤ 30) }

def clientTimerHandler (node : AfClientNode) (now : UInt32) :
    AfClientNode × Option (VisitReport × Option (List UInt8)) :=
  let (node, report) :=
    if 30 ≤ node.timerCount then
      let (node, report) := afVisitInfoReport node now
      ({ node with timerCount := 0 }, some report)
    else (node, none)
  let node := updateClientStatus node
  ({ node with timerCount := node.timerCount + 1 }, report)

/-- What happens to a client: a packet that shows another address of it, a packet from it or to it, a visit, a tick of
its timer. -/
inductive ClientEvent
  | address (ip : Ipv4)
  | up (len : ℕ)
  | down (len : ℕ)
  | visit (appId drop now : UInt32)
  | timer (now : UInt32)
  deriving DecidableEq

def AfClientNode.handle (node : AfClientNode) :
    ClientEvent → AfClientNode × Option (VisitReport × Option (List UInt8))
  | .address ip => ({ node with ip }, none)
  | .up len => ({ node with
      flow := { node.flow with upBytes := node.flow.upBytes + len, upPkts := node.flow.upPkts + 1 } }, none)
  | .down len => ({ node with
      flow := { node.flow with downBytes := node.flow.downBytes + len, downPkts := node.flow.downPkts + 1 } }, none)
  | .visit appId drop now => (updateClientAppInfo node appId drop now, none)
  | .timer now => clientTimerHandler node now

/-! ### The slots of the applications -/

theorem find?_finRange {n : ℕ} {p : Fin n → Bool} {i : Fin n} (hi : p i = true) (hlt : ∀ j < i, p j = false) :
    (List.finRange n).find? p = some i := by
  cases h : (List.finRange n).find? p with
  | none => exact absurd hi (List.find?_eq_none.1 h i (List.mem_finRange i))
  | some j =>
    obtain ⟨hj, before, behind, hsplit, hbefore⟩ := List.find?_eq_some_iff_append.1 h
    have hsorted := List.pairwise_lt_finRange n
    rw [hsplit, List.pairwise_append, List.pairwise_cons] at hsorted
    have hmem : i ∈ before ++ j :: behind := hsplit ▸ List.mem_finRange i
    rcases List.mem_append.1 hmem with hmem | hmem
    · have hnot := hbefore i hmem
      rw [hi] at hnot
      cases hnot
    · rcases List.mem_cons.1 hmem with rfl | hmem
      · rfl
      · rw [hlt j (hsorted.2.1.1 i hmem)] at hj
        cases hj

structure Visit where
  appId : UInt32
  drop : UInt32
  now : UInt32

/-- The applications in the order of their first visit, as long as there are slots for them. -/
def nextOwners (owners : List UInt32) (visit : Visit) : List UInt32 :=
  if visit.appId ∈ owners ∨ maxRecordAppNum ≤ owners.length then owners else owners ++ [visit.appId]

def owners (visits : List Visit) : List UInt32 := visits.foldl nextOwners []

/-- The second owner and those behind it keep their slots, all others share the first. -/
def slotOf (owners : List UInt32) (appId : UInt32) : ℕ := if appId ∈ owners.tail then owners.idxOf appId else 0

/-- The visits that share a slot. -/
def visitsAt (visits : List Visit) (i : ℕ) : List Visit :=
  visits.filter fun visit => slotOf (owners visits) visit.appId = i

/-- What a slot says of its visits. -/
def summary (visits : List Visit) : AppVisitInfo :=
  match visits.getLast? with
  | none => {}
  | some last =>
    { appId := last.appId
      totalNum := UInt32.ofNat visits.length
      dropNum := UInt32.ofNat (visits.countP fun visit => visit.drop ≠ 0)
      latestTime := last.now.toUInt64
      latestAction := last.drop }

theorem summary_concat (visits : List Visit) (visit : Visit) :
    summary (visits ++ [visit]) = (summary visits).count visit.appId visit.drop visit.now := by
  have hone (n : ℕ) : UInt32.ofNat (n + 1) = UInt32.ofNat n + 1 := UInt32.ofNat_add n 1
  have hcounts : (summary visits).totalNum = UInt32.ofNat visits.length ∧
      (summary visits).dropNum = UInt32.ofNat (visits.countP fun visit => visit.drop ≠ 0) := by
    rw [summary]
    split
    · rename_i h
      rw [List.getLast?_eq_none_iff.1 h]
      exact ⟨rfl, rfl⟩
    · exact ⟨rfl, rfl⟩
  rw [AppVisitInfo.count, hcounts.1, hcounts.2]
  simp only [summary, List.getLast?_concat, List.length_append, List.length_singleton, List.countP_append, hone]
  by_cases hdrop : visit.drop = 0
  · simp [hdrop]
  · simp [hdrop, hone]

/-! ### Owners -/

theorem owners_concat (visits : List Visit) (visit : Visit) :
    owners (visits ++ [visit]) = nextOwners (owners visits) visit := List.foldl_concat ..

/-- What `owners` are. -/
structure Owned (visits : List Visit) (owners : List UInt32) : Prop where
  nodup : owners.Nodup
  length_le : owners.length ≤ maxRecordAppNum
  visited : ∀ appId ∈ owners, ∃ visit ∈ visits, visit.appId = appId
  owned : ∀ visit ∈ visits, visit.appId ∈ owners ∨ owners.length = maxRecordAppNum

theorem owned_owners (visits : List Visit) : Owned visits (owners visits) := by
  induction visits using List.reverseRecOn with
  | nil =>
    exact ⟨List.nodup_nil, Nat.zero_le _, fun appId h => absurd h List.not_mem_nil,
      fun visit h => absurd h List.not_mem_nil⟩
  | append_singleton visits visit ih =>
    rw [owners_concat, nextOwners]
    have hvisited (appId : UInt32) (h : appId ∈ owners visits) : ∃ v ∈ visits ++ [visit], v.appId = appId := by
      obtain ⟨v, hv, hid⟩ := ih.visited appId h
      exact ⟨v, List.mem_append_left _ hv, hid⟩
    split
    · rename_i hkeep
      refine ⟨ih.nodup, ih.length_le, hvisited, fun v hv => ?_⟩
      rcases List.mem_append.1 hv with hv | hv
      · exact ih.owned v hv
      · rw [List.mem_singleton.1 hv]
        exact hkeep.imp_right fun hfull => Nat.le_antisymm ih.length_le hfull
    · rename_i hnew
      obtain ⟨hmem, hroom⟩ := not_or.1 hnew
      have hnodup := List.Nodup.concat hmem ih.nodup
      rw [List.concat_eq_append] at hnodup
      refine ⟨hnodup, ?_, fun appId h => ?_, fun v hv => .inl ?_⟩
      · rw [List.length_append]
        exact Nat.not_le.1 hroom
      · rcases List.mem_append.1 h with h | h
        · exact hvisited appId h
        · exact ⟨visit, List.mem_append_right _ List.mem_cons_self, (List.mem_singleton.1 h).symm⟩
      · rcases List.mem_append.1 hv with hv | hv
        · rcases ih.owned v hv with h | h
          · exact List.mem_append_left _ h
          · exact absurd h.ge hroom
        · rw [List.mem_singleton.1 hv]
          exact List.mem_append_right _ List.mem_cons_self

section Slots

variable {visits : List Visit} {visit : Visit} {appId : UInt32} {i : ℕ}

theorem slotOf_append (h : appId ∈ owners visits) (more : List UInt32) :
    slotOf (owners visits ++ more) appId = slotOf (owners visits) appId := by
  cases howners : owners visits with
  | nil =>
    rw [howners] at h
    cases h
  | cons first rest =>
    rw [howners] at h
    rw [slotOf, slotOf, List.cons_append, List.tail_cons, List.tail_cons, ← List.cons_append,
      List.idxOf_append_of_mem h]
    by_cases hrest : appId ∈ rest
    · rw [if_pos hrest, if_pos (List.mem_append_left _ hrest)]
    · obtain rfl : appId = first := (List.mem_cons.1 h).resolve_right hrest
      rw [if_neg hrest, List.idxOf_cons_self, ite_self]

/-- A visit keeps its slot. -/
theorem slotOf_nextOwners {before : Visit} (hbefore : before ∈ visits) :
    slotOf (owners (visits ++ [visit])) before.appId = slotOf (owners visits) before.appId := by
  rw [owners_concat, nextOwners]
  split
  · rfl
  · rename_i hnew
    rcases (owned_owners visits).owned before hbefore with h | h
    · exact slotOf_append h _
    · exact absurd h.ge (not_or.1 hnew).2

theorem visitsAt_concat (visits : List Visit) (visit : Visit) (i : ℕ) : visitsAt (visits ++ [visit]) i =
    visitsAt visits i ++ if slotOf (owners (visits ++ [visit])) visit.appId = i then [visit] else [] := by
  rw [visitsAt, List.filter_append, visitsAt]
  congr 1
  · exact List.filter_congr fun before hbefore => by rw [slotOf_nextOwners hbefore]
  · by_cases h : slotOf (owners (visits ++ [visit])) visit.appId = i
    · simp [h]
    · simp [h]

theorem appId_summary (hne : visits ≠ []) : ∃ visit ∈ visits, (summary visits).appId = visit.appId := by
  rw [summary]
  split
  · rename_i h
    exact absurd (List.getLast?_eq_none_iff.1 h) hne
  · rename_i last h
    exact ⟨last, List.mem_of_getLast? h, rfl⟩

theorem mem_visitsAt : visit ∈ visitsAt visits i ↔ visit ∈ visits ∧ slotOf (owners visits) visit.appId = i := by
  rw [visitsAt, List.mem_filter, decide_eq_true_iff]

/-- Behind the owners the slots are free. -/
theorem visitsAt_eq_nil (h : (owners visits).length ≤ i) : visitsAt visits i = [] := by
  refine List.eq_nil_iff_forall_not_mem.2 fun visit hvisit => ?_
  obtain ⟨hmem, hslot⟩ := mem_visitsAt.1 hvisit
  have hpos : owners visits ≠ [] := fun hnil => by
    rcases (owned_owners visits).owned visit hmem with h | h
    · rw [hnil] at h
      cases h
    · rw [hnil] at h
      exact absurd h (by decide)
  rw [slotOf] at hslot
  split at hslot
  · rename_i htail
    have := List.idxOf_lt_length_iff.2 (List.mem_of_mem_tail htail)
    omega
  · have := List.length_pos_iff.2 hpos
    omega

theorem slotOf_getElem? (hi : 0 < i) (h : (owners visits)[i]? = some appId) :
    appId ∈ (owners visits).tail ∧ slotOf (owners visits) appId = i := by
  have htail : appId ∈ (owners visits).tail := by
    obtain ⟨j, rfl⟩ := Nat.exists_eq_succ_of_ne_zero hi.ne'
    rw [← List.getElem?_tail] at h
    exact List.mem_of_getElem? h
  obtain ⟨hlt, rfl⟩ := List.getElem?_eq_some_iff.1 h
  refine ⟨htail, ?_⟩
  rw [slotOf, if_pos htail, (owned_owners visits).nodup.idxOf_getElem i hlt]

/-- The slot of an owner but the first is its own. -/
theorem appId_owner (hi : 0 < i) (h : (owners visits)[i]? = some appId) :
    (summary (visitsAt visits i)).appId = appId := by
  have hslot := (slotOf_getElem? hi h).2
  obtain ⟨visit, hvisit, rfl⟩ := (owned_owners visits).visited appId (List.mem_of_getElem? h)
  have hne : visitsAt visits i ≠ [] := List.ne_nil_of_mem (mem_visitsAt.2 ⟨hvisit, hslot⟩)
  obtain ⟨last, hlast, hid⟩ := appId_summary hne
  have hlastSlot := (mem_visitsAt.1 hlast).2
  rw [hid]
  rw [slotOf] at hlastSlot
  split at hlastSlot
  · rename_i htail
    have hget := List.getElem?_idxOf (List.mem_of_mem_tail htail)
    rw [hlastSlot, h] at hget
    exact (Option.some.inj hget).symm
  · exact absurd hlastSlot.symm hi.ne'

/-- The first slot is that of an application that has no other. -/
theorem appId_first (hne : owners visits ≠ []) :
    ∃ visit ∈ visits, (summary (visitsAt visits 0)).appId = visit.appId ∧ visit.appId ∉ (owners visits).tail := by
  cases howners : owners visits with
  | nil => exact absurd howners hne
  | cons first rest =>
    have hnodup := (owned_owners visits).nodup
    rw [howners] at hnodup
    have hfirst : first ∉ rest := (List.nodup_cons.1 hnodup).1
    obtain ⟨visit, hvisit, hid⟩ := (owned_owners visits).visited first (howners ▸ List.mem_cons_self)
    have hslot : slotOf (owners visits) visit.appId = 0 := by rw [howners, hid, slotOf, List.tail_cons, if_neg hfirst]
    have hmem : visitsAt visits 0 ≠ [] := List.ne_nil_of_mem (mem_visitsAt.2 ⟨hvisit, hslot⟩)
    obtain ⟨last, hlast, hlastId⟩ := appId_summary hmem
    obtain ⟨hlastMem, hlastSlot⟩ := mem_visitsAt.1 hlast
    refine ⟨last, hlastMem, hlastId, fun htail => ?_⟩
    rw [List.tail_cons] at htail
    rw [howners, slotOf, List.tail_cons, if_pos htail] at hlastSlot
    have hne' : first ≠ last.appId := fun heq => hfirst (heq ▸ htail)
    rw [List.idxOf_cons_ne _ hne'] at hlastSlot
    cases hlastSlot

theorem idxOf_pos (htail : appId ∈ (owners visits).tail) : 0 < (owners visits).idxOf appId := by
  have hnodup := (owned_owners visits).nodup
  cases howners : owners visits with
  | nil =>
    rw [howners] at htail
    cases htail
  | cons first rest =>
    rw [howners] at htail hnodup
    have hne : first ≠ appId := fun heq => (List.nodup_cons.1 hnodup).1 (heq ▸ htail)
    rw [List.idxOf_cons_ne _ hne]
    exact Nat.succ_pos _

theorem eq_of_not_mem_tail {appId' : UInt32} {l : List UInt32} (hmem : appId ∈ l) (htail : appId ∉ l.tail)
    (hmem' : appId' ∈ l) (htail' : appId' ∉ l.tail) : appId = appId' := by
  cases l with
  | nil => cases hmem
  | cons first rest =>
    rw [(List.mem_cons.1 hmem).resolve_right htail, (List.mem_cons.1 hmem').resolve_right htail']

/-- The table of the visits since it was empty. -/
def tableOf (visits : List Visit) : VisitTable := fun i => summary (visitsAt visits i)

theorem getVisitIndex_eq {table : VisitTable} {index : Fin maxRecordAppNum}
    (hi : (table index).appId = appId ∨ (table index).appId = 0)
    (hlt : ∀ j < index, (table j).appId ≠ appId ∧ (table j).appId ≠ 0) : getVisitIndex table appId = index := by
  rw [getVisitIndex, find?_finRange (by simpa using hi) fun j hj => by simpa using hlt j hj]
  rfl

theorem getVisitIndex_full {table : VisitTable} (h : ∀ j : Fin maxRecordAppNum, 0 < j.val →
    (table j).appId ≠ appId ∧ (table j).appId ≠ 0) : (getVisitIndex table appId).val = 0 := by
  by_cases hfirst : (table ⟨0, Nat.succ_pos 63⟩).appId = appId ∨ (table ⟨0, Nat.succ_pos 63⟩).appId = 0
  · rw [getVisitIndex_eq hfirst fun j hj => absurd hj (Nat.not_lt_zero _)]
  · have hnone : (List.finRange maxRecordAppNum).find?
        (fun i => (table i).appId == appId || (table i).appId == 0) = none := by
      refine List.find?_eq_none.2 fun j _ => ?_
      rcases Nat.eq_zero_or_pos j.val with hj | hj
      · obtain rfl : j = ⟨0, Nat.succ_pos 63⟩ := Fin.ext hj
        simpa using hfirst
      · simpa using h j hj
    rw [getVisitIndex, hnone]
    rfl

/-- The table sends a visit to its slot. -/
theorem getVisitIndex_tableOf (hvisits : ∀ v ∈ visits, v.appId ≠ 0) (visit : Visit) :
    (getVisitIndex (tableOf visits) visit.appId).val = slotOf (owners (visits ++ [visit])) visit.appId := by
  have howned := owned_owners visits
  have hnonzero (j : ℕ) (hj : j < (owners visits).length) : (summary (visitsAt visits j)).appId ≠ 0 := by
    rcases Nat.eq_zero_or_pos j with rfl | hpos
    · obtain ⟨v, hv, hid, -⟩ := appId_first (List.length_pos_iff.1 hj)
      exact hid ▸ hvisits v hv
    · obtain ⟨v, hv, hid⟩ := howned.visited _ (List.getElem_mem hj)
      rw [appId_owner hpos (List.getElem?_eq_getElem hj), ← hid]
      exact hvisits v hv
  -- the application in a slot is an owner, as long as there are slots for all
  have howner (j : ℕ) (hj : j < (owners visits).length) :
      (summary (visitsAt visits j)).appId ∈ (owners visits).tail ∧ 0 < j ∨
      j = 0 ∧ (summary (visitsAt visits j)).appId ∉ (owners visits).tail ∧
        ((owners visits).length < maxRecordAppNum → (summary (visitsAt visits j)).appId ∈ owners visits) := by
    rcases Nat.eq_zero_or_pos j with rfl | hpos
    · obtain ⟨v, hv, hid, htail⟩ := appId_first (List.length_pos_iff.1 hj)
      rw [hid]
      exact .inr ⟨rfl, htail, fun hroom => (howned.owned v hv).resolve_right hroom.ne⟩
    · have hget := List.getElem?_eq_getElem hj
      rw [appId_owner hpos hget]
      exact .inl ⟨(slotOf_getElem? hpos hget).1, hpos⟩
  by_cases htail : visit.appId ∈ (owners visits).tail
  · have hmem := List.mem_of_mem_tail htail
    have hidx := List.idxOf_lt_length_iff.2 hmem
    have hindex : getVisitIndex (tableOf visits) visit.appId = ⟨_, hidx.trans_le howned.length_le⟩ := by
      refine getVisitIndex_eq (.inl (appId_owner (idxOf_pos htail) (List.getElem?_idxOf hmem))) fun j hj => ?_
      have hj' : j.val < (owners visits).idxOf visit.appId := hj
      have hlt : j.val < (owners visits).length := hj'.trans hidx
      refine ⟨fun heq => ?_, hnonzero j hlt⟩
      rcases howner j hlt with ⟨-, hpos⟩ | ⟨-, hnot, -⟩
      · have hown := appId_owner hpos (List.getElem?_eq_getElem hlt)
        have hsame : (owners visits)[j.val] = visit.appId := hown.symm.trans heq
        rw [← hsame, howned.nodup.idxOf_getElem] at hj'
        exact Nat.lt_irrefl _ hj'
      · exact hnot (heq ▸ htail)
    rw [hindex, owners_concat, nextOwners, if_pos (.inl hmem), slotOf, if_pos htail]
  · have hother (j : Fin maxRecordAppNum) (hj : j.val < (owners visits).length) (hpos : 0 < j.val) :
        (tableOf visits j).appId ≠ visit.appId ∧ (tableOf visits j).appId ≠ 0 := by
      refine ⟨fun heq => ?_, hnonzero j hj⟩
      rcases howner j hj with ⟨hmem, -⟩ | ⟨hzero, -⟩
      · exact htail (heq ▸ hmem)
      · exact hpos.ne' hzero
    by_cases hfull : (owners visits).length = maxRecordAppNum
    · rw [owners_concat, nextOwners, if_pos (.inr hfull.ge), slotOf, if_neg htail]
      exact getVisitIndex_full fun j hpos => hother j (j.isLt.trans_eq hfull.symm) hpos
    · have hroom := lt_of_le_of_ne howned.length_le hfull
      by_cases hmem : visit.appId ∈ owners visits
      · have hpos := List.length_pos_of_mem hmem
        have hindex : getVisitIndex (tableOf visits) visit.appId = ⟨0, Nat.succ_pos 63⟩ := by
          refine getVisitIndex_eq (.inl ?_) fun j hj => absurd hj (Nat.not_lt_zero _)
          rcases howner 0 hpos with ⟨-, hlt⟩ | ⟨-, hnot, hmem'⟩
          · exact absurd hlt (Nat.lt_irrefl 0)
          · exact eq_of_not_mem_tail (hmem' hroom) hnot hmem htail
        rw [hindex, owners_concat, nextOwners, if_pos (.inl hmem), slotOf, if_neg htail]
      · have hindex : getVisitIndex (tableOf visits) visit.appId = ⟨_, hroom⟩ := by
          refine getVisitIndex_eq (.inr ?_) fun j hj => ?_
          · rw [tableOf, visitsAt_eq_nil (Nat.le_refl _)]
            rfl
          · have hj' : j.val < (owners visits).length := hj
            refine ⟨fun heq => ?_, hnonzero j hj'⟩
            rcases howner j hj' with ⟨hmem', -⟩ | ⟨-, -, hmem'⟩
            · exact htail (heq ▸ hmem')
            · exact hmem (heq ▸ hmem' hroom)
        have hnew : ¬(visit.appId ∈ owners visits ∨ maxRecordAppNum ≤ (owners visits).length) :=
          not_or.2 ⟨hmem, Nat.not_le.2 hroom⟩
        rw [hindex, owners_concat, nextOwners, if_neg hnew, slotOf]
        dsimp only
        cases howners : owners visits with
        | nil => rfl
        | cons first rest =>
          rw [howners] at hmem
          rw [List.cons_append, List.tail_cons, if_pos (List.mem_append_right _ List.mem_cons_self), ← List.cons_append,
            List.idxOf_append_of_notMem hmem, List.idxOf_cons_self]
          rfl

theorem tableOf_concat (hvisits : ∀ v ∈ visits, v.appId ≠ 0) (visit : Visit) :
    tableOf (visits ++ [visit]) = Function.update (tableOf visits) (getVisitIndex (tableOf visits) visit.appId)
      ((tableOf visits (getVisitIndex (tableOf visits) visit.appId)).count visit.appId visit.drop visit.now) := by
  funext i
  have hindex := getVisitIndex_tableOf hvisits visit
  rw [tableOf, visitsAt_concat, ← hindex]
  by_cases hi : i = getVisitIndex (tableOf visits) visit.appId
  · subst hi
    rw [if_pos rfl, summary_concat, Function.update_self]
    rfl
  · rw [if_neg fun heq => hi (Fin.ext heq.symm), List.append_nil, Function.update_of_ne hi]
    rfl

end Slots

/-! ### Reports -/

theorem slotOf_mem {visits : List Visit} {appId : UInt32} (h : appId ∈ owners visits) :
    slotOf (owners visits) appId = (owners visits).idxOf appId := by
  cases howners : owners visits with
  | nil =>
    rw [howners] at h
    cases h
  | cons first rest =>
    rw [howners] at h
    rw [slotOf, List.tail_cons]
    split
    · rfl
    · rename_i hrest
      rw [(List.mem_cons.1 h).resolve_right hrest, List.idxOf_cons_self]

/-- As long as there are slots for all, an owner has the visits of its application in its slot. -/
theorem visitsAt_owner {visits : List Visit} {i : ℕ} (hroom : (owners visits).length < maxRecordAppNum)
    (hi : i < (owners visits).length) :
    visitsAt visits i = visits.filter fun visit => visit.appId = (owners visits)[i] := by
  refine List.filter_congr fun visit hvisit => ?_
  have howned := owned_owners visits
  have hmem : visit.appId ∈ owners visits := (howned.owned visit hvisit).resolve_right hroom.ne
  rw [slotOf_mem hmem, decide_eq_decide]
  constructor
  · rintro rfl
    exact (List.getElem_idxOf (List.idxOf_lt_length_iff.2 hmem)).symm
  · intro h
    rw [h, howned.nodup.idxOf_getElem i hi]

/-- The action of the last visit to an application. -/
def latestAction (visits : List Visit) (appId : UInt32) : UInt32 :=
  ((visits.filter fun visit => visit.appId = appId).getLast?.map Visit.drop).getD 0

/-- What a report says of the visits. -/
def reportedVisits (visits : List Visit) : List (UInt32 × UInt32) :=
  (owners visits).map fun appId => (appId, latestAction visits appId)

theorem summary_owner {visits : List Visit} {i : ℕ} (hroom : (owners visits).length < maxRecordAppNum)
    (hi : i < (owners visits).length) : (summary (visitsAt visits i)).appId = (owners visits)[i] ∧
      (summary (visitsAt visits i)).latestAction = latestAction visits (owners visits)[i] := by
  rw [visitsAt_owner hroom hi, summary, latestAction]
  obtain ⟨visit, hvisit, hid⟩ := (owned_owners visits).visited _ (List.getElem_mem hi)
  split
  · rename_i h
    have hmem : visit ∈ visits.filter fun visit => visit.appId = (owners visits)[i] :=
      List.mem_filter.2 ⟨hvisit, decide_eq_true hid⟩
    rw [List.getLast?_eq_none_iff.1 h] at hmem
    cases hmem
  · rename_i last h
    rw [h]
    exact ⟨of_decide_eq_true (List.mem_filter.1 (List.mem_of_getLast? h)).2, rfl⟩

theorem finRange_filter_lt {n k : ℕ} (hk : k ≤ n) :
    ((List.finRange n).filter fun i => i.val < k).map Fin.val = List.range k := by
  have hfilter : ((List.finRange n).filter fun i => i.val < k).map Fin.val = (List.range n).filter fun i => i < k := by
    rw [← List.map_coe_finRange_eq_range, List.filter_map]
    rfl
  rw [hfilter]
  obtain ⟨more, rfl⟩ := Nat.exists_eq_add_of_le hk
  rw [List.range_add, List.filter_append, List.filter_eq_self.2 fun i hi => by simpa using hi,
    List.filter_eq_nil_iff.2 fun i hi => ?_, List.append_nil]
  obtain ⟨j, -, rfl⟩ := List.mem_map.1 hi
  simp

/-- A slot is kept or cleared. -/
theorem flushExpiredVisitInfo_apply (visits : VisitTable) (now : UInt32) (i : Fin maxRecordAppNum) :
    flushExpiredVisitInfo visits now i = visits i ∨ flushExpiredVisitInfo visits now i = {} := by
  have hrun (slots : List (Fin maxRecordAppNum)) (state : VisitTable × ℕ) (h : state.1 i = visits i ∨ state.1 i = {}) :
      (slots.foldl (flushExpiredSlot now) state).1 i = visits i ∨
        (slots.foldl (flushExpiredSlot now) state).1 i = {} := by
    induction slots generalizing state with
    | nil => exact h
    | cons slot slots ih =>
      refine ih _ ?_
      rw [flushExpiredSlot]
      split
      · exact h
      · split
        · by_cases hslot : i = slot
          · subst hslot
            exact .inr (Function.update_self ..)
          · dsimp only
            rwa [Function.update_of_ne hslot]
        · exact h
  rw [flushExpiredVisitInfo]
  split
  · exact .inl rfl
  · exact hrun _ _ (.inl rfl)

section Tables

variable {node : AfClientNode} {visits : List Visit}

theorem summary_eq_default (hvisits : ∀ v ∈ visits, v.appId ≠ 0) {i : ℕ}
    (h : (summary (visitsAt visits i)).appId = 0) : summary (visitsAt visits i) = {} := by
  by_cases hnil : visitsAt visits i = []
  · rw [hnil]
    rfl
  · obtain ⟨visit, hvisit, hid⟩ := appId_summary hnil
    exact absurd (hid.symm.trans h) (hvisits visit (mem_visitsAt.1 hvisit).1)

theorem visitReport_visits (htable : node.visitInfo = tableOf visits) (hvisits : ∀ v ∈ visits, v.appId ≠ 0)
    (hroom : (owners visits).length < maxRecordAppNum) (now : UInt32) :
    (visitReport node now).2.visits = reportedVisits visits := by
  have hfree : (tableOf visits ⟨_, hroom⟩).appId = 0 := by
    rw [tableOf, visitsAt_eq_nil (Nat.le_refl _)]
    rfl
  have hused (i : Fin maxRecordAppNum) : (tableOf visits i).appId ≠ 0 ↔ i.val < (owners visits).length := by
    constructor
    · intro h
      by_contra hle
      rw [tableOf, visitsAt_eq_nil (Nat.not_lt.1 hle)] at h
      exact h rfl
    · intro h
      obtain ⟨visit, hvisit, hid⟩ := (owned_owners visits).visited _ (List.getElem_mem h)
      rw [tableOf, (summary_owner hroom h).1, ← hid]
      exact hvisits visit hvisit
  let said (i : ℕ) : UInt32 × UInt32 :=
    ((summary (visitsAt visits i)).appId, (summary (visitsAt visits i)).latestAction)
  have hslots : (visitReport node now).2.visits = (List.range (owners visits).length).map said := by
    rw [visitReport]
    dsimp only
    rw [htable, flushExpiredVisitInfo, if_pos ⟨_, hfree⟩, ← finRange_filter_lt hroom.le, List.map_map]
    simp only [hused]
    rfl
  rw [hslots, reportedVisits]
  refine List.ext_getElem (by simp) fun i hi hi' => ?_
  rw [List.length_map] at hi'
  rw [List.getElem_map, List.getElem_map, List.getElem_range]
  exact Prod.ext (summary_owner hroom hi').1 (summary_owner hroom hi').2

/-- A report leaves an empty table. -/
theorem visitReport_table (htable : node.visitInfo = tableOf visits) (hvisits : ∀ v ∈ visits, v.appId ≠ 0)
    (now : UInt32) :
    (visitReport node now).1.visitInfo = tableOf [] := by
  funext i
  rw [visitReport]
  dsimp only
  split
  · rfl
  · rename_i hfree
    rw [not_not] at hfree
    rcases flushExpiredVisitInfo_apply node.visitInfo now i with h | h
    · rw [h, htable] at hfree ⊢
      exact summary_eq_default hvisits hfree
    · rw [h]
      rfl

end Tables

end Oaf
